import NoZapret.DesyncSpec

/-!
# The loop over plain splits

One call with any schedule of outcomes. `part_sent` is set before the outcome of
a send is known, and the part it names is taken as sent when the loop meets it
again: `clean` says that this costs no byte, and that the final send, whose short
count nobody looks at, is not short. It is computed from the positions and the
outcomes to come.
-/

namespace SplitLoop

open Block Packets Params Desync Stream DesyncSpec

/-- How many of `len` bytes the next `send` accepts, none when it fails. -/
def accepts (sends : List SendRes) (len : Nat) : Option Nat :=
  match sends.head?.getD .all with
  | .all => some len
  | .short k => some (min k len)
  | .again | .error => none

/-- The rest goes out in one `send` that is complete or fails. -/
def restClean (c : Call) (q : Nat) (sends : List SendRes) : Bool :=
  q == c.n || accepts sends (c.n - q) == none || accepts sends (c.n - q) == some (c.n - q)

/-- The walk of one call from position `q`: the part taken as sent ends where
the loop already is, and the rest is not cut. -/
def clean (c : Call) : List Rep → Nat → Nat → ProtoInfo → List SendRes → List Bool → Bool
  | [], _, q, _, sends, _ => restClean c q sends
  | rep :: rest, idx, q, info, sends, unsent =>
    match place (c.rnd.part idx) rep c.buffer c.n q info with
    | none => false
    | some (pos, info) =>
      if skipped c (idx + 1) rep pos then clean c rest (idx + 1) q info sends unsent
      else if pos < q then restClean c q sends
      else
        let p := (min pos c.n).toNat
        let waits := unsent.headD false || (c.g.waitSend && decide (c.partSkip < idx + 1))
        if idx + 1 = c.partSkip then
          p == q && (waits || clean c rest (idx + 1) p info sends unsent.tail)
        else if accepts sends (p - q) = some (p - q) then
          waits || clean c rest (idx + 1) p info sends.tail unsent.tail
        else true

/-- What a call did: everything it reports as sent is on the stream, and on a
calm socket that is the whole request. -/
structure Served (c : Call) (st : Loop) (e : Ended) : Prop where
  sent : 0 ≤ e.ret → ∃ f : Nat, e.ret = (f : Int) - c.offset ∧ st.lp ≤ f ∧ f ≤ c.n ∧
    stream e.st.sock.log = stream st.sock.log ++ part c.buffer st.lp f
  calm : Calm st.sock → c.g.waitSend = false →
    e.ret = (c.n : Int) - c.offset ∧ e.wait = false ∧ Calm e.st.sock

section Send

lemma send_accepted {w : Sock} {o : Origin} {xs : Bytes} {oob : Bool} {k : Nat}
    (h : accepts w.sends xs.length = some k) :
    w.send o xs oob = ((k : Int), { w with sends := w.sends.tail }.emit (.sent o xs oob k)) := by
  unfold accepts at h
  unfold Sock.send
  cases hr : w.sends.head?.getD .all <;> simp only [hr] at h <;> cases h <;> simp

lemma send_refused {w : Sock} {o : Origin} {xs : Bytes} {oob : Bool}
    (h : accepts w.sends xs.length = none) :
    ∃ again, w.send o xs oob = (-1, { w with sends := w.sends.tail, errAgain := again }) := by
  unfold accepts at h
  unfold Sock.send
  cases hr : w.sends.head?.getD .all <;> simp only [hr] at h <;> cases h
  · exact ⟨true, rfl⟩
  · exact ⟨false, rfl⟩

lemma accepts_le {sends : List SendRes} {len k : Nat} (h : accepts sends len = some k) :
    k ≤ len := by
  unfold accepts at h
  cases hr : sends.head?.getD .all <;> simp only [hr] at h <;> cases h <;> omega

lemma accepts_calm {w : Sock} (h : AllSent w) (len : Nat) : accepts w.sends len = some len := by
  unfold accepts
  cases hs : w.sends with
  | nil => rfl
  | cons r rest =>
    have hr : r = .all := h r (by rw [hs]; exact List.mem_cons_self)
    subst hr
    rfl

/-- The loop state after a send that accepted `[lp, lp + k)`. -/
structure Took (c : Call) (st st' : Loop) (k : Nat) : Prop where
  lp : st'.lp = st.lp
  info : st'.info = st.info
  sends : st'.sock.sends = st.sock.sends.tail
  notsent : st'.sock.notsent = st.sock.notsent
  sysOk : SysOk st.sock → SysOk st'.sock
  stream : stream st'.sock.log = Stream.stream st.sock.log ++ part c.buffer st.lp (st.lp + k)

lemma sendRequest_accepted (c : Call) (st : Loop) {p k : Nat} (hlp : st.lp ≤ p) (hp : p ≤ c.buffer.length)
    (h : accepts st.sock.sends (p - st.lp) = some k) :
    ∃ st', sendRequest c st p = some ((k : Int), st') ∧ Took c st st' k := by
  obtain ⟨xs, hxs, hlen, hspan⟩ := exists_slice hlp hp
  have hlen' : xs.length = p - st.lp := by omega
  have hk := accepts_le h
  rw [← hlen'] at h
  have hsend : st.sock.send (.request st.lp) xs false = _ := send_accepted h
  refine ⟨{ st with sock := (st.sock.send (.request st.lp) xs false).2 }, ?_, ?_⟩
  · rw [sendRequest_eq hxs, hsend]
  · have hbytes : (xs.take k).zipIdx st.lp = span c.buffer st.lp (st.lp + k) := by
      rw [← zipIdx_take, hspan, span_take (by omega)]
    rw [hsend]
    refine ⟨rfl, rfl, rfl, rfl, id, ?_⟩
    rw [stream_emit, eventBytes, part, if_neg (by decide), hbytes]

lemma sendRequest_refused (c : Call) (st : Loop) {p : Nat} (hlp : st.lp ≤ p) (hp : p ≤ c.buffer.length)
    (h : accepts st.sock.sends (p - st.lp) = none) :
    ∃ st', sendRequest c st p = some (-1, st') ∧ st'.lp = st.lp ∧
      stream st'.sock.log = stream st.sock.log := by
  obtain ⟨xs, hxs, hlen, -⟩ := exists_slice hlp hp
  have hlen' : xs.length = p - st.lp := by omega
  rw [← hlen'] at h
  obtain ⟨again, hsend⟩ : ∃ again, st.sock.send (.request st.lp) xs false = (-1, _) :=
    send_refused h
  refine ⟨{ st with sock := (st.sock.send (.request st.lp) xs false).2 }, ?_, rfl, ?_⟩
  · rw [sendRequest_eq hxs, hsend]
  · rw [hsend]

end Send

section Rest

variable {c : Call} {st : Loop}

lemma served_of_ret {e : Ended} {f : Nat} (hret : e.ret = (f : Int) - c.offset)
    (hlp : st.lp ≤ f) (hf : f ≤ c.n)
    (hstream : stream e.st.sock.log = stream st.sock.log ++ part c.buffer st.lp f)
    (hcalm : Calm st.sock → c.g.waitSend = false → f = c.n ∧ e.wait = false ∧ Calm e.st.sock) :
    Served c st e := by
  constructor
  · exact fun _ => ⟨f, hret, hlp, hf, hstream⟩
  · intro hc hw
    obtain ⟨hfn, hwait, hcalm'⟩ := hcalm hc hw
    exact ⟨by rw [hret, hfn], hwait, hcalm'⟩

/-- The final send: all of it, or nothing and an error. -/
theorem sendRest_served (st : Loop) (hlp : st.lp ≤ c.n) (hfits : c.n ≤ c.buffer.length)
    (hclean : restClean c st.lp st.sock.sends = true) :
    ∃ e, sendRest c st = some e ∧ Served c st e := by
  by_cases hlt : st.lp < c.n
  · cases hacc : accepts st.sock.sends (c.n - st.lp) with
    | some k =>
      have hk : k = c.n - st.lp := by
        simp only [restClean, hacc, Bool.or_eq_true, beq_iff_eq, reduceCtorEq, or_false,
          Option.some.injEq] at hclean
        omega
      obtain ⟨st', hsend, htook⟩ := sendRequest_accepted c st hlp hfits hacc
      have hnn : ¬ (k : Int) < 0 := by omega
      refine ⟨⟨c.n - c.offset, false, st'⟩, by simp [sendRest, hlt, hsend, hnn], ?_⟩
      refine served_of_ret rfl hlp (Nat.le_refl _) ?_ ?_
      · rw [htook.stream, hk, Nat.add_sub_cancel' hlp]
      · intro hc _
        refine ⟨rfl, rfl, ?_, ?_, htook.sysOk hc.sysOk⟩
        · exact fun r hr => hc.allSent r (List.mem_of_mem_tail (htook.sends ▸ hr))
        · exact fun b hb => hc.neverUnsent b (htook.notsent ▸ hb)
    | none =>
      obtain ⟨st', hsend, hlp', hstream⟩ := sendRequest_refused c st hlp hfits hacc
      have hcalmless : Calm st.sock → False := by
        intro hc
        rw [accepts_calm hc.allSent] at hacc
        cases hacc
      cases hagain : st'.sock.errAgain with
      | true =>
        refine ⟨⟨st'.lp - c.offset, false, st'⟩, by simp [sendRest, hlt, hsend, hagain], ?_⟩
        refine served_of_ret (by rw [hlp']) (Nat.le_refl _) hlp ?_ fun hc => (hcalmless hc).elim
        simp [hstream]
      | false =>
        refine ⟨⟨-1, false, st'⟩, by simp [sendRest, hlt, hsend, hagain], ?_, ?_⟩
        · intro hneg
          simp at hneg
        · exact fun hc => (hcalmless hc).elim
  · have heq : st.lp = c.n := by omega
    refine ⟨⟨c.n - c.offset, false, st⟩, by simp [sendRest, hlt], ?_⟩
    refine served_of_ret rfl hlp (Nat.le_refl _) ?_ fun hc _ => ⟨rfl, rfl, hc⟩
    rw [heq, part_self, List.append_nil]

end Rest

section Loop

variable {c : Call} {idx : Nat} {rep : Rep} {st st' : Loop} {pos : Int} {info : ProtoInfo}

/-- What a later part of the call did, seen from before `[lp, lp')` went out. -/
lemma Served.after {e : Ended} (h : Served c st' e) (hlp : st.lp ≤ st'.lp)
    (hlp' : st'.lp ≤ c.buffer.length)
    (hstream : stream st'.sock.log = stream st.sock.log ++ part c.buffer st.lp st'.lp)
    (hcalm : Calm st.sock → Calm st'.sock) : Served c st e := by
  constructor
  · intro hret
    obtain ⟨f, hf, hle, hfn, hlog⟩ := h.sent hret
    refine ⟨f, hf, by omega, hfn, ?_⟩
    rw [hlog, hstream, List.append_assoc, part_append hlp hle hlp']
  · exact fun hc hw => h.calm (hcalm hc) hw

/-- A complete part, sent or taken as sent: the call suspends behind it or the
loop goes on from there. -/
lemma served_complete (st st1 : Loop) {p : Nat} (hp : p ≤ c.n) (hfits : c.n ≤ c.buffer.length)
    (hlp1 : st1.lp = st.lp) (hlp : st.lp ≤ p)
    (hstream : stream st1.sock.log = stream st.sock.log ++ part c.buffer st.lp p)
    (hcalm : Calm st.sock → Calm st1.sock) (hfirst : firstOfPair rep = false)
    (hstep : partStep c idx rep st =
      some (afterSend c (idx + 1) (firstOfPair rep) p ((p : Int) - st1.lp) st1))
    {rest : List Rep}
    (hrest : suspends c (idx + 1) st1 = false → ∀ st', After (idx + 1) false p st1 st' →
      ∃ e, partsLoop c rest (idx + 1) st' = some e ∧ Served c st' e) :
    ∃ e, partsLoop c (rep :: rest) idx st = some e ∧ Served c st e := by
  obtain ⟨st', hafter, heq⟩ := afterSend_complete c (idx + 1) (firstOfPair rep) (hlp1.symm ▸ hlp)
  rw [heq, hfirst] at hstep
  rw [hfirst] at hafter
  have hlp' : st'.lp = p := by simp [hafter.lp]
  have hlog : stream st'.sock.log = stream st.sock.log ++ part c.buffer st.lp p := by
    rw [hafter.stream, hstream]
  have hcalm' : Calm st.sock → Calm st'.sock := fun hc => calm_of_after hafter (hcalm hc)
  cases hsus : suspends c (idx + 1) st1 with
  | true =>
    rw [hsus] at hstep
    refine ⟨_, partsLoop_ret hstep, ?_⟩
    refine served_of_ret (f := p) (by simp) hlp hp hlog ?_
    intro hc hw
    rw [not_suspends (hcalm hc).neverUnsent hw] at hsus
    cases hsus
  | false =>
    rw [hsus] at hstep
    obtain ⟨e, he, hserved⟩ := hrest hsus st' hafter
    refine ⟨e, (partsLoop_next hstep).trans he, ?_⟩
    exact hserved.after (by omega) (by omega) (by rw [hlp', hlog]) hcalm'

/-- A cut or refused send ends the call with what was accepted. -/
lemma served_cut {p : Nat} {rest : List Rep} (hp : p ≤ c.n) (hfits : c.n ≤ c.buffer.length)
    (hlp : st.lp ≤ p) (hm : rep.1.m = .split)
    (hplace : place (c.rnd.part idx) rep c.buffer c.n st.lp st.info = some (pos, info))
    (hskip : skipped c (idx + 1) rep pos = false) (hpos : (st.lp : Int) ≤ pos)
    (hpeq : (min pos c.n).toNat = p) (hcurr : idx + 1 ≠ c.partSkip)
    (hacc : accepts st.sock.sends (p - st.lp) ≠ some (p - st.lp)) :
    ∃ e, partsLoop c (rep :: rest) idx st = some e ∧ Served c st e := by
  have hfirst : firstOfPair rep = false := by simp [firstOfPair, hm, Demode.paired]
  have hcalmless : Calm st.sock → False := fun hc => hacc (accepts_calm hc.allSent _)
  cases hk : accepts st.sock.sends (p - st.lp) with
  | some k =>
    obtain ⟨st1, hsend, htook⟩ := sendRequest_accepted c { st with info := info } hlp
      (by omega) hk
    have hle := accepts_le hk
    have hlt : k < p - st.lp := by
      rcases Nat.lt_or_eq_of_le hle with h | h
      · exact h
      · exact absurd (h ▸ hk) hacc
    have hlp1 : st1.lp = st.lp := htook.lp
    have hpart : sendPart c idx rep { st with info := info } (min pos c.n).toNat
        = some (some (k : Int), st1) := by
      simp [sendPart, hm, hpeq, hsend]
    have hstep := partStep_sends hplace hskip hpos hcurr hpart
    rw [hpeq, hfirst, afterSend_ends c _ _ (by rw [hlp1]; omega), if_pos (by omega)] at hstep
    refine ⟨_, partsLoop_ret hstep, ?_⟩
    refine served_of_ret (f := st.lp + k) (by simp [hlp1]) (by omega) (by omega) ?_
      fun hc => (hcalmless hc).elim
    exact htook.stream
  | none =>
    obtain ⟨st1, hsend, hlp1, hstream⟩ := sendRequest_refused c { st with info := info } hlp
      (by omega) hk
    have hlp1 : st1.lp = st.lp := hlp1
    have hpart : sendPart c idx rep { st with info := info } (min pos c.n).toNat
        = some (some (-1), st1) := by
      simp [sendPart, hm, hpeq, hsend]
    have hstep := partStep_sends hplace hskip hpos hcurr hpart
    rw [hpeq, hfirst, afterSend_ends c _ _ (by rw [hlp1]; omega), if_neg (by decide)] at hstep
    refine ⟨_, partsLoop_ret hstep, ?_⟩
    cases hagain : st1.sock.errAgain with
    | true =>
      refine served_of_ret (f := st.lp) (by simp [hlp1]) (Nat.le_refl _) (by omega) ?_
        fun hc => (hcalmless hc).elim
      simpa using hstream
    | false =>
      constructor
      · intro hneg
        simp at hneg
      · exact fun hc => (hcalmless hc).elim

/-- A clean walk over plain splits serves what it reports. -/
theorem partsLoop_served (hfits : c.n ≤ c.buffer.length) {reps : List Rep}
    (hsplit : ∀ rep ∈ reps, rep.1.m = .split) :
    ∀ (idx : Nat) (st : Loop), st.lp ≤ c.n →
      clean c reps idx st.lp st.info st.sock.sends st.sock.notsent = true →
      ∃ e, partsLoop c reps idx st = some e ∧ Served c st e := by
  induction reps with
  | nil =>
    intro idx st hlp hclean
    exact sendRest_served st hlp hfits hclean
  | cons rep rest ih =>
    intro idx st hlp hclean
    have hm : rep.1.m = .split := hsplit rep List.mem_cons_self
    have hfirst : firstOfPair rep = false := by simp [firstOfPair, hm, Demode.paired]
    have ih := ih fun r hr => hsplit r (List.mem_cons_of_mem rep hr)
    rw [clean] at hclean
    cases hplace : place (c.rnd.part idx) rep c.buffer c.n st.lp st.info with
    | none => simp [hplace] at hclean
    | some x =>
      obtain ⟨pos, info⟩ := x
      simp only [hplace] at hclean
      cases hskip : skipped c (idx + 1) rep pos with
      | true =>
        rw [hskip, if_pos rfl] at hclean
        obtain ⟨e, he, hserved⟩ := ih (idx + 1) { st with info := info } hlp hclean
        refine ⟨e, (partsLoop_next (partStep_skip hplace hskip)).trans he, ?_⟩
        exact ⟨hserved.sent, hserved.calm⟩
      | false =>
        rw [hskip, if_neg (by decide)] at hclean
        by_cases hcancel : pos < st.lp
        · rw [if_pos hcancel] at hclean
          obtain ⟨e, he, hserved⟩ := sendRest_served { st with info := info } hlp hfits hclean
          refine ⟨e, (partsLoop_cancel (partStep_cancel hplace hskip hcancel)).trans he, ?_⟩
          exact ⟨hserved.sent, hserved.calm⟩
        rw [if_neg hcancel] at hclean
        have hpos : (st.lp : Int) ≤ pos := by omega
        obtain ⟨p, hpeq⟩ : ∃ p, (min pos c.n).toNat = p := ⟨_, rfl⟩
        have hp : p ≤ c.n := by omega
        have hle : st.lp ≤ p := by omega
        simp only [hpeq] at hclean
        by_cases hcurr : idx + 1 = c.partSkip
        · rw [if_pos hcurr, Bool.and_eq_true, beq_iff_eq, Bool.or_eq_true] at hclean
          obtain ⟨hsame, hgo⟩ := hclean
          have hstep := partStep_resumed hplace hskip hpos hcurr
          rw [hpeq] at hstep
          refine served_complete st { st with info := info } hp hfits rfl hle
            (by rw [hsame]; simp) id hfirst hstep ?_
          intro hsus st' hafter
          have hgo := hgo.resolve_left (Bool.eq_false_iff.mp hsus)
          refine ih (idx + 1) st' (by simp [hafter.lp, hp]) ?_
          rw [hafter.lp, hafter.info, hafter.sends, hafter.notsent]
          exact hgo
        · rw [if_neg hcurr] at hclean
          by_cases hacc : accepts st.sock.sends (p - st.lp) = some (p - st.lp)
          · rw [if_pos hacc, Bool.or_eq_true] at hclean
            obtain ⟨st1, hsend, htook⟩ := sendRequest_accepted c { st with info := info } hle
              (by omega) hacc
            have hlp1 : st1.lp = st.lp := htook.lp
            have hcast : ((p - st.lp : Nat) : Int) = (p : Int) - st.lp := by omega
            have hpart : sendPart c idx rep { st with info := info } (min pos c.n).toNat
                = some (some ((p : Int) - st1.lp), st1) := by
              simp [sendPart, hm, hpeq, hsend, hcast, hlp1]
            have hstep := partStep_sends hplace hskip hpos hcurr hpart
            rw [hpeq] at hstep
            have hlog : stream st1.sock.log = stream st.sock.log ++ part c.buffer st.lp p := by
              rw [htook.stream, Nat.add_sub_cancel' hle]
            refine served_complete st st1 hp hfits hlp1 hle hlog ?_ hfirst hstep ?_
            · intro hc
              refine ⟨?_, fun b hb => hc.neverUnsent b (htook.notsent ▸ hb), htook.sysOk hc.sysOk⟩
              exact fun r hr => hc.allSent r (List.mem_of_mem_tail (htook.sends ▸ hr))
            · intro hsus st' hafter
              rw [suspends, htook.notsent] at hsus
              have hgo := hclean.resolve_left (Bool.eq_false_iff.mp hsus)
              refine ih (idx + 1) st' (by simp [hafter.lp, hp]) ?_
              rw [hafter.lp, hafter.info, htook.info, hafter.sends, htook.sends, hafter.notsent,
                htook.notsent]
              exact hgo
          · exact served_cut hp hfits hle hm hplace hskip hpos hpeq hcurr hacc

end Loop

end SplitLoop
