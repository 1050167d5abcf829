import NoZapret.Resume
import NoZapret.DecoyStream

/-!
# How many calls a request takes

Every send accepts all it is offered; only the polls and `wait_send` suspend a
call. The measure counts the positive answers still to come and, under
`wait_send`, the parts behind `part_sent`: bytes cannot be counted, because the
first half of a pair sends without moving anything. `passes` rules out the calls
in which such a half suspends, since `part_sent` does not record it.
-/

namespace Termination

open Block Packets Params Desync Stream DesyncSpec DecoyStream Resume Runs

/-- May the call suspend behind repetition `curr`? Under `wait_send` it must be
one that `part_sent` records, and not one from before the resumption. -/
def recorded (c : Call) (curr : Nat) (first : Bool) : Bool :=
  !c.g.waitSend || (!first && decide (c.partSkip ≤ curr))

/-- The walk of one call: positions and decoys are defined, `send_oob` is not
refused, a decoy is as long as its part, and the call suspends where the next
one can tell. -/
def passes (c : Call) : List Rep → Nat → Nat → ProtoInfo → List Bool → Bool
  | [], _, _, _, _ => true
  | rep :: rest, idx, q, info, unsent =>
    match place (c.rnd.part idx) rep c.buffer c.n q info with
    | none => false
    | some (pos, info) =>
      if skipped c (idx + 1) rep pos then passes c rest (idx + 1) q info unsent
      else if pos < q then true
      else
        let p := (min pos c.n).toNat
        let waits := unsent.headD false || (c.g.waitSend && decide (c.partSkip < idx + 1))
        let q' := if firstOfPair rep then q else p
        if idx + 1 = c.partSkip then
          if waits then recorded c (idx + 1) (firstOfPair rep)
          else passes c rest (idx + 1) q' info unsent.tail
        else if rep.1.m.urgent && decide (c.buffer.length ≤ p) then false
        else if rep.1.m == .fake && firstOfPair rep then
          match fakePacket c.dp c.rnd idx c.buffer c.n info with
          | none => false
          | some (pkt, info) =>
            decoyLen pkt q p == (p : Int) - q &&
              if waits then recorded c (idx + 1) (firstOfPair rep)
              else passes c rest (idx + 1) q' info unsent.tail
        else if waits then recorded c (idx + 1) (firstOfPair rep)
        else passes c rest (idx + 1) q' info unsent.tail

def positives (w : Sock) : Nat := w.notsent.count true

/-- A suspended call: it moved on, by a positive answer or by a recorded part. -/
structure Suspended (c : Call) (top : Nat) (st : Loop) (e : Ended) : Prop where
  ret : ∃ f : Nat, e.ret = (f : Int) - c.offset ∧ st.lp ≤ f ∧ f ≤ c.n
  moved : positives e.st.sock < positives st.sock ∨
    (c.g.waitSend = true ∧ positives e.st.sock ≤ positives st.sock ∧ c.partSkip < e.st.partSent)
  part : c.g.waitSend = true → c.partSkip ≤ e.st.partSent ∧ e.st.partSent ≤ top

structure Advanced (c : Call) (top : Nat) (st : Loop) (e : Ended) : Prop where
  allSent : AllSent e.st.sock
  sysOk : SysOk e.st.sock
  outcome : (e.wait = false ∧ e.ret = (c.n : Int) - c.offset) ∨
    (e.wait = true ∧ Suspended c top st e)

section Loop

variable {c : Call} {idx : Nat} {rep : Rep} {rest : List Rep} {st : Loop}

lemma advanced_rest (st : Loop) (top : Nat) (hlp : st.lp ≤ c.n) (hfits : c.n ≤ c.buffer.length)
    (hs : AllSent st.sock) (hk : SysOk st.sock) :
    ∃ e, sendRest c st = some e ∧ Advanced c top st e := by
  obtain ⟨st', hst', hsent⟩ := sendRest_all hlp hfits hs
  exact ⟨_, hst', hsent.allSent hs, hsent.sysOk hk, .inl ⟨rfl, rfl⟩⟩

lemma positives_tail (w : Sock) : w.notsent.tail.count true ≤ positives w :=
  List.Sublist.count_le true (List.tail_sublist _)

lemma positives_drop {w : Sock} (h : w.notsent.headD false = true) :
    w.notsent.tail.count true < positives w := by
  unfold positives
  cases hn : w.notsent with
  | nil => simp [hn] at h
  | cons b l =>
    have hb : b = true := by simpa [hn] using h
    simp [hb]

lemma Advanced.after {top : Nat} {st' : Loop} {e : Ended} (h : Advanced c top st' e)
    (hlp : st.lp ≤ st'.lp) (hpos : positives st'.sock ≤ positives st.sock) :
    Advanced c top st e := by
  refine ⟨h.allSent, h.sysOk, ?_⟩
  rcases h.outcome with hdone | ⟨hwait, hsus⟩
  · exact .inl hdone
  · right
    refine ⟨hwait, ?_, ?_, hsus.part⟩
    · obtain ⟨f, hf, hle, hfn⟩ := hsus.ret
      exact ⟨f, hf, by omega, hfn⟩
    · rcases hsus.moved with hless | ⟨hw, hle, hps⟩
      · exact .inl (by omega)
      · exact .inr ⟨hw, by omega, hps⟩

/-- Behind a complete send the call suspends in a recorded place or goes on. -/
lemma advanced_complete (st st1 : Loop) {p top : Nat} (hp : p ≤ c.n) (hlp1 : st1.lp = st.lp)
    (hlp : st.lp ≤ p) (hs : AllSent st1.sock) (hk : SysOk st1.sock)
    (hunsent : st1.sock.notsent = st.sock.notsent) (htop : idx + 1 ≤ top)
    (hstep : partStep c idx rep st =
      some (afterSend c (idx + 1) (firstOfPair rep) p ((p : Int) - st1.lp) st1))
    (hgo : (if st.sock.notsent.headD false || (c.g.waitSend && decide (c.partSkip < idx + 1))
        then recorded c (idx + 1) (firstOfPair rep)
        else passes c rest (idx + 1) (if firstOfPair rep then st.lp else p) st1.info
          st.sock.notsent.tail) = true)
    (ih : ∀ st', st'.lp ≤ c.n → AllSent st'.sock → SysOk st'.sock →
      passes c rest (idx + 1) st'.lp st'.info st'.sock.notsent = true →
      ∃ e, partsLoop c rest (idx + 1) st' = some e ∧ Advanced c top st' e) :
    ∃ e, partsLoop c (rep :: rest) idx st = some e ∧ Advanced c top st e := by
  obtain ⟨st', hafter, heq⟩ := afterSend_complete c (idx + 1) (firstOfPair rep) (hlp1.symm ▸ hlp)
  rw [heq] at hstep
  have hsus : suspends c (idx + 1) st1 =
      (st.sock.notsent.headD false || (c.g.waitSend && decide (c.partSkip < idx + 1))) := by
    rw [suspends, hunsent]
  have hs' : AllSent st'.sock := fun r hr => hs r (hafter.sends ▸ hr)
  have hk' : SysOk st'.sock := hafter.sysOk hk
  have hnot' : st'.sock.notsent = st.sock.notsent.tail := by rw [hafter.notsent, hunsent]
  have hpos' : positives st'.sock ≤ positives st.sock := by
    rw [positives, hnot']
    exact positives_tail _
  have hlp' : st'.lp = if firstOfPair rep then st.lp else p := by rw [hafter.lp, hlp1]
  rw [← hsus] at hgo
  cases hwaits : suspends c (idx + 1) st1 with
  | true =>
    rw [hwaits] at hstep hgo
    refine ⟨_, partsLoop_ret hstep, hs', hk', .inr ⟨rfl, ?_, ?_, ?_⟩⟩
    · rw [hlp1]
      cases firstOfPair rep with
      | true => exact ⟨st.lp, rfl, Nat.le_refl _, by omega⟩
      | false => exact ⟨p, rfl, hlp, hp⟩
    · cases hhead : st.sock.notsent.headD false with
      | true =>
        left
        rw [positives, hnot']
        exact positives_drop hhead
      | false =>
        right
        rw [hwaits, hhead, Bool.false_or, eq_comm, Bool.and_eq_true, decide_eq_true_eq] at hsus
        rw [if_pos rfl, recorded, hsus.1, Bool.not_true, Bool.false_or, Bool.and_eq_true,
          Bool.not_eq_true'] at hgo
        refine ⟨hsus.1, hpos', ?_⟩
        simp only [hafter.partSent, hgo.1]
        exact hsus.2
    · intro hw
      rw [if_pos rfl, recorded, hw, Bool.not_true, Bool.false_or, Bool.and_eq_true,
        Bool.not_eq_true', decide_eq_true_eq] at hgo
      simp only [hafter.partSent, hgo.1]
      exact ⟨hgo.2, htop⟩
  | false =>
    rw [hwaits] at hstep hgo
    obtain ⟨e, he, hadv⟩ := ih st' (by rw [hlp']; split <;> omega) hs' hk' (by
      rw [hlp', hafter.info, hnot']
      exact hgo)
    refine ⟨e, (partsLoop_next hstep).trans he, hadv.after ?_ hpos'⟩
    rw [hlp']
    split <;> omega

/-- A call that passes ends with the whole request or moves on. -/
theorem partsLoop_advances (hfits : c.n ≤ c.buffer.length) (top : Nat) {reps : List Rep} :
    ∀ (idx : Nat) (st : Loop), idx + reps.length ≤ top → st.lp ≤ c.n → AllSent st.sock →
      SysOk st.sock → passes c reps idx st.lp st.info st.sock.notsent = true →
      ∃ e, partsLoop c reps idx st = some e ∧ Advanced c top st e := by
  induction reps with
  | nil => exact fun idx st _ hlp hs hk _ => advanced_rest st top hlp hfits hs hk
  | cons rep rest ih =>
    intro idx st htop hlp hs hk hpass
    rw [List.length_cons] at htop
    have ih := fun st' => ih (idx + 1) st' (by omega)
    rw [passes] at hpass
    cases hplace : place (c.rnd.part idx) rep c.buffer c.n st.lp st.info with
    | none => simp [hplace] at hpass
    | some x =>
      obtain ⟨pos, info⟩ := x
      simp only [hplace] at hpass
      cases hskip : skipped c (idx + 1) rep pos with
      | true =>
        rw [hskip, if_pos rfl] at hpass
        obtain ⟨e, he, hadv⟩ := ih { st with info := info } hlp hs hk hpass
        exact ⟨e, (partsLoop_next (partStep_skip hplace hskip)).trans he,
          hadv.after (Nat.le_refl _) (Nat.le_refl _)⟩
      | false =>
        rw [hskip, if_neg (by decide)] at hpass
        by_cases hcancel : pos < st.lp
        · obtain ⟨e, he, hadv⟩ := advanced_rest { st with info := info } top hlp hfits hs hk
          exact ⟨e, (partsLoop_cancel (partStep_cancel hplace hskip hcancel)).trans he,
            hadv.after (Nat.le_refl _) (Nat.le_refl _)⟩
        rw [if_neg hcancel] at hpass
        have hpos : (st.lp : Int) ≤ pos := by omega
        obtain ⟨p, hpeq⟩ : ∃ p, (min pos c.n).toNat = p := ⟨_, rfl⟩
        have hp : p ≤ c.n := by omega
        have hle : st.lp ≤ p := by omega
        simp only [hpeq] at hpass
        by_cases hcurr : idx + 1 = c.partSkip
        · rw [if_pos hcurr] at hpass
          have hstep := partStep_resumed hplace hskip hpos hcurr
          rw [hpeq] at hstep
          exact advanced_complete st { st with info := info } hp rfl hle hs hk rfl (by omega)
            hstep hpass ih
        rw [if_neg hcurr] at hpass
        by_cases hfull : rep.1.m.urgent = true ∧ c.buffer.length ≤ p
        · rw [if_pos (by simpa using hfull)] at hpass
          cases hpass
        rw [if_neg (by simpa using hfull)] at hpass
        by_cases hfake : rep.1.m = .fake ∧ firstOfPair rep = true
        · rw [if_pos (by simpa using hfake)] at hpass
          cases hpkt : fakePacket c.dp c.rnd idx c.buffer c.n info with
          | none => simp [hpkt] at hpass
          | some y =>
            obtain ⟨pkt, info'⟩ := y
            rw [hpkt, Bool.and_eq_true, beq_iff_eq] at hpass
            obtain ⟨st1, xs, hsend, -, hsent⟩ := sendPart_fake
              { st with info := info } hfake.1 hfake.2 hpkt hle hs hk
            have hlp1 : st1.lp = st.lp := hsent.lp
            have hstep := partStep_sends hplace hskip hpos hcurr (hpeq.symm ▸ hsend)
            rw [hpeq, show decoyLen pkt _ p = (p : Int) - st1.lp by rw [hlp1]; exact hpass.1]
              at hstep
            exact advanced_complete st st1 hp hlp1 hle (hsent.allSent hs) (hsent.sysOk hk)
              hsent.notsent (by omega) hstep (by rw [hsent.info]; exact hpass.2) ih
        · rw [if_neg (by simpa using hfake)] at hpass
          obtain ⟨st1, hsend, hsent⟩ := sendPart_plain c idx { st with info := info }
            (fun hm => Bool.eq_false_iff.mpr fun hf => hfake ⟨hm, hf⟩)
            (fun hu => Nat.lt_of_not_le fun h => hfull ⟨hu, h⟩) hle (by omega) hs hk
          have hlp1 : st1.lp = st.lp := hsent.lp
          have hstep := partStep_sends hplace hskip hpos hcurr (hpeq.symm ▸ hsend)
          rw [hpeq, show ((p : Int) - (Loop.lp _ : Nat)) = (p : Int) - st1.lp by rw [hlp1]] at hstep
          exact advanced_complete st st1 hp hlp1 hle (hsent.allSent hs) (hsent.sysOk hk)
            hsent.notsent (by omega) hstep (by rw [hsent.info]; exact hpass) ih

end Loop

/-- The condition on one call. -/
def passesCall (g : Globals) (dp : DesyncParams) (p : Progress) (rnd : Rands) : Bool :=
  p.done ||
    match prepare g dp rnd p.conn.data p.conn.n p.conn.roundSent with
    | none => false
    | some t => passes (callOf g dp rnd p.conn t) (expand dp.parts) 0 p.conn.offset t.info
        p.conn.sock.notsent

/-- Between calls the offset is inside the request. -/
structure Waiting (p : Progress) : Prop where
  allSent : AllSent p.conn.sock
  sysOk : SysOk p.conn.sock
  offset : p.conn.offset ≤ p.conn.n
  fits : p.conn.n ≤ p.conn.data.length

/-- Positive answers to come and, under `wait_send`, parts behind `part_sent`. -/
def todo (g : Globals) (dp : DesyncParams) (p : Progress) : Nat :=
  positives p.conn.sock +
    if g.waitSend then (expand dp.parts).length - p.conn.partSent else 0

lemma todo_lt {g : Globals} {dp : DesyncParams} {rnd : Rands} {p p' : Progress} {t : Tamped}
    {e : Ended} (h : Suspended (callOf g dp rnd p.conn t) (expand dp.parts).length
      (loopOf p.conn t) e) (hconn : p'.conn = Conn.advance (p.conn.after t e) e.ret.toNat) :
    todo g dp p' < todo g dp p := by
  have hsock : positives p'.conn.sock = positives e.st.sock := by rw [hconn]; rfl
  have hpart : p'.conn.partSent = e.st.partSent := by rw [hconn]; rfl
  have hmoved := h.moved
  have hbound := h.part
  simp only [callOf, loopOf] at hmoved hbound
  unfold todo
  rw [hsock, hpart]
  cases hw : g.waitSend with
  | false =>
    simp only [hw, Bool.false_eq_true, false_and, or_false, if_false] at hmoved ⊢
    omega
  | true =>
    have hpart := hbound hw
    simp only [hw, true_and, if_true] at hmoved ⊢
    omega

/-- One call from a waiting state ends the request or lowers the measure. -/
theorem resume_advances {g : Globals} {dp : DesyncParams} {p : Progress} {rnd : Rands}
    (hp : Waiting p) (hnot : ¬ p.done = true) (hok : passesCall g dp p rnd = true) :
    ∃ p', resume g dp p rnd = some p' ∧ Waiting p' ∧
      (p'.done = true ∨ todo g dp p' < todo g dp p) := by
  have hdone : p.done = false := Bool.eq_false_iff.mpr hnot
  rw [passesCall, hdone, Bool.false_or] at hok
  cases ht : prepare g dp rnd p.conn.data p.conn.n p.conn.roundSent with
  | none => simp [ht] at hok
  | some t =>
    rw [ht] at hok
    obtain ⟨-, htfits⟩ := prepare_fits ht hp.fits
    have htoff : p.conn.offset ≤ t.n := Nat.le_trans hp.offset (prepare_le ht)
    have hcall : (callOf g dp rnd p.conn t).n ≤ (callOf g dp rnd p.conn t).buffer.length := htfits
    obtain ⟨e, he, hadv⟩ := partsLoop_advances hcall (expand dp.parts).length 0 (loopOf p.conn t)
      (by omega) htoff hp.allSent hp.sysOk hok
    have hret : ∃ f : Nat, e.ret = (f : Int) - p.conn.offset ∧ p.conn.offset ≤ f ∧ f ≤ t.n := by
      rcases hadv.outcome with ⟨-, hret⟩ | ⟨-, hsus⟩
      · exact ⟨t.n, hret, htoff, Nat.le_refl _⟩
      · exact hsus.ret
    obtain ⟨f, hf, hle, hfn⟩ := hret
    have hadd : p.conn.offset + e.ret.toNat = f := by omega
    have hd : desync g dp rnd p.conn = some (e.ret, e.wait, p.conn.after t e) :=
      desync_some_iff.mpr ⟨t, e, ht, he, rfl⟩
    refine ⟨⟨Conn.advance (p.conn.after t e) e.ret.toNat,
      !e.wait && e.ret == ((p.conn.after t e).n : Int) - (p.conn.after t e).offset⟩, ?_, ?_, ?_⟩
    · simp only [resume, hdone, hd, Bool.false_eq_true, if_false]
      rw [if_neg (by omega)]
    · refine ⟨hadv.allSent, hadv.sysOk, ?_, htfits⟩
      simp only [Conn.advance, Conn.after, hadd]
      exact hfn
    · rcases hadv.outcome with ⟨hwait, hret⟩ | ⟨-, hsus⟩
      · left
        simp only [hwait, Bool.not_false, Bool.true_and, beq_iff_eq]
        exact hret
      · exact .inr (todo_lt hsus rfl)

/-- With every send complete, a request whose calls all pass is through after at
most one call more than it has repetitions and positive answers. -/
theorem request_gets_through (g : Globals) (dp : DesyncParams) (r : Request) (remote : Restore)
    (w : Sock) (rnds : List Rands) (hsent : AllSent w) (hsys : SysOk w)
    (hok : Meets (resume g dp) (fun p rnd => passesCall g dp p rnd = true) (start r remote w) rnds)
    (hlen : (expand dp.parts).length + w.notsent.count true < rnds.length) :
    ∃ m ≤ (expand dp.parts).length + w.notsent.count true + 1, ∃ p,
      run (resume g dp) (start r remote w) (rnds.take m) = some p ∧ p.done = true := by
  have hstart : Waiting (start r remote w) := ⟨hsent, hsys, Nat.zero_le _, r.fits⟩
  have hmeasure : todo g dp (start r remote w) ≤
      (expand dp.parts).length + w.notsent.count true := by
    unfold todo positives start Request.conn
    dsimp only
    split <;> omega
  have hstep : ∀ (p : Progress) (rnd : Rands), Waiting p → ¬ p.done = true →
      passesCall g dp p rnd = true → ∃ p', resume g dp p rnd = some p' ∧ Waiting p' ∧
        (p'.done = true ∨ todo g dp p' < todo g dp p) :=
    fun _ _ hp hnot hok => resume_advances hp hnot hok
  obtain ⟨m, hm, p, hrun, hp⟩ := finishes_within (todo g dp) hstep hstart (by simp [start]) hok
    (by omega)
  exact ⟨m, by omega, p, hrun, hp⟩

/-- Two splits under `wait_send`, and one answer that bytes are unsent. -/
def twoSplits : DesyncParams := { parts := [⟨.split, {}, 1, 0, 0⟩, ⟨.split, {}, 2, 0, 0⟩] }

theorem request_gets_through_two :
    ∃ m ≤ 4, ∃ p, run (resume { waitSend := true } twoSplits)
      (start abcd {} { notsent := [true] }) ([{}, {}, {}, {}].take m) = some p ∧
        p.done = true := by
  exact request_gets_through { waitSend := true } twoSplits abcd {} { notsent := [true] }
    [{}, {}, {}, {}] (by simp [AllSent]) (by simp [SysOk]) (by decide) (by decide)

/-- The state every call of `--disorder 1 --wait-send` on `abc` starts from. -/
def Stalled (p : Progress) : Prop :=
  ∃ remote again log, p = ⟨{ abc.conn remote {} with
    sock := { errAgain := again, log := log } }, false⟩

lemma stalled_step {p : Progress} (h : Stalled p) :
    ∃ p', resume { waitSend := true } (onePart .disorder 1) p {} = some p' ∧ Stalled p' := by
  obtain ⟨remote, again, log, rfl⟩ := h
  exact ⟨_, rfl, _, _, _, rfl⟩

lemma stalled_run (m : Nat) : ∀ {p : Progress}, Stalled p →
    ∃ p', run (resume { waitSend := true } (onePart .disorder 1)) p (List.replicate m {}) = some p' ∧
      Stalled p' := by
  induction m with
  | zero => exact fun hp => ⟨_, rfl, hp⟩
  | succ m ih =>
    intro p hp
    obtain ⟨p1, hstep, hp1⟩ := stalled_step hp
    obtain ⟨p', hrun, hp'⟩ := ih hp1
    exact ⟨p', (run_cons hstep).trans hrun, hp'⟩

/-- `--disorder 1 --wait-send`: the first half goes out again on every call, and no
number of calls gets the request through. -/
theorem wait_send_stalls :
    ¬ ∃ m p, run (resume { waitSend := true } (onePart .disorder 1)) (start abc {} {})
      (List.replicate m {}) = some p ∧ p.done = true := by
  rintro ⟨m, p, hrun, hdone⟩
  obtain ⟨p', hrun', remote, again, log, rfl⟩ := stalled_run m (p := start abc {} {})
    ⟨{}, false, [], rfl⟩
  obtain rfl := Option.some.inj (hrun.symm.trans hrun')
  cases hdone

end Termination
