import NoZapret.Termination

/-!
# Suspended requests

`desync` remembers nothing of a suspended walk but how far it got: the next call
works out every position again and skips what lies before. The list of sends is
the one of a single call when the positions come out the same again, when a
position that ends the walk is followed by none that a resumed call would reach,
and when no part goes out a second time.
-/

namespace Suspension

open Block Packets Params Desync DesyncSpec Resume Termination Runs

def isSend : Event → Bool
  | .sent .. => true
  | _ => false

/-- Every `send` with its bytes and its flags, in order. -/
def sends (log : List Event) : List Event := log.filter isSend

/-- No part has `OFFSET_RAND`. -/
def NoRand (parts : List Part) : Prop := ∀ p ∈ parts, p.flag.rand = false

/-- The positions of the repetitions in one buffer, before any is reached. -/
def marks (buffer : Bytes) (n : Nat) : List Rep → ProtoInfo → Option (List (Rep × Int))
  | [], _ => some []
  | rep :: rest, info => do
    let (pos, info) ← place 0 rep buffer n 0 info
    return (rep, pos) :: (← marks buffer n rest info)

/-- `pos` after "pos reduced" -/
def reach (n : Nat) (pos : Int) : Nat := (min pos n).toNat

/-- One send of `[lp, p)`. -/
def cut (dp : DesyncParams) (buffer : Bytes) (lp p : Nat) (urgent : Bool) : Event :=
  let bytes := (buffer.drop lp).take (p - lp)
  let payload := if urgent then bytes ++ [dp.oobChar.getD (ch 'a')] else bytes
  .sent (.request lp) payload urgent payload.length

/-- `// send all/rest` -/
def restOf (dp : DesyncParams) (buffer : Bytes) (n lp : Nat) : List Event :=
  if lp < n then [cut dp buffer lp n false] else []

/-- What a walk that is never suspended sends from `lp` on. -/
def plan (dp : DesyncParams) (buffer : Bytes) (n : Nat) : List (Rep × Int) → Nat → List Event
  | [], lp => restOf dp buffer n lp
  | (rep, pos) :: rest, lp =>
    if pos < lp then restOf dp buffer n lp
    else cut dp buffer lp (reach n pos) rep.1.m.urgent :: plan dp buffer n rest (reach n pos)

/-- The walk can stop behind any part and be taken up again. `last` is the
greatest position so far of a part with `OFFSET_START`, which the skip by part
number passes over. -/
def Steady (buffer : Bytes) (n : Nat) : Int → List (Rep × Int) → Nat → Prop
  | _, [], _ => True
  | last, (rep, pos) :: rest, lp =>
    if pos < lp then lp = 0 ∨ ∀ x ∈ rest, x.2 < lp
    else rep.1.m.paired = false ∧ (rep.1.m.urgent = true → reach n pos < buffer.length) ∧
      last < reach n pos ∧
      Steady buffer n (if rep.1.flag.start then pos else last) rest (reach n pos)

instance decidableSteady (buffer : Bytes) (n : Nat) :
    ∀ last ms lp, Decidable (Steady buffer n last ms lp)
  | _, [], _ => isTrue trivial
  | last, (rep, pos) :: rest, lp =>
    have := decidableSteady buffer n (if rep.1.flag.start then pos else last) rest (reach n pos)
    inferInstanceAs (Decidable (if pos < lp then lp = 0 ∨ ∀ x ∈ rest, x.2 < lp
      else rep.1.m.paired = false ∧ (rep.1.m.urgent = true → reach n pos < buffer.length) ∧
        last < reach n pos ∧
        Steady buffer n (if rep.1.flag.start then pos else last) rest (reach n pos)))

section Sends

lemma sends_append (log log' : List Event) : sends (log ++ log') = sends log ++ sends log' :=
  List.filter_append ..

lemma sends_emit (w : Sock) {e : Event} (he : isSend e = false) :
    sends (w.emit e).log = sends w.log := by
  simp [Sock.emit, sends, he]

lemma sends_sys1 (w : Sock) : sends w.sys1.2.log = sends w.log := by
  unfold Sock.sys1
  split <;> rfl

lemma sends_setttl (w : Sock) (ttl : Nat) : sends (w.setttl ttl).2.log = sends w.log := by
  have h2 : sends w.sys1.2.sys1.2.log = sends w.log := (sends_sys1 _).trans (sends_sys1 w)
  unfold Sock.setttl
  dsimp only
  split
  · rw [sends_emit _ rfl, h2]
  · exact h2

lemma sends_setMd5sig (w : Sock) (len : Nat) : sends (w.setMd5sig len).2.log = sends w.log := by
  have h2 : sends w.sys1.2.sys1.2.log = sends w.log := (sends_sys1 _).trans (sends_sys1 w)
  unfold Sock.setMd5sig
  dsimp only
  split
  · exact sends_sys1 w
  · split
    · rw [sends_emit _ rfl, h2]
    · exact h2

lemma sends_restoreState (g : Globals) (st : Loop) :
    sends (restoreState g st).sock.log = sends st.sock.log := by
  have hunmap : sends (unmapFake st).sock.log = sends st.sock.log := by
    unfold unmapFake
    split
    · exact sends_emit _ rfl
    · rfl
  have hmd5 : ∀ st : Loop, sends (clearMd5 st).sock.log = sends st.sock.log := by
    intro st
    unfold clearMd5
    split
    · exact sends_setMd5sig _ _
    · rfl
  have httl : ∀ st : Loop, sends (resetTtl g st).sock.log = sends st.sock.log := by
    intro st
    unfold resetTtl
    split
    · exact sends_setttl _ _
    · rfl
  rw [restoreState, httl, hmd5, hunmap]

end Sends

section Marks

variable {buffer : Bytes} {n : Nat}

lemma reach_le (n : Nat) (pos : Int) : reach n pos ≤ n := by
  unfold reach
  omega

lemma le_reach {lp : Nat} {pos : Int} (h : (lp : Int) ≤ pos) (hn : lp ≤ n) : lp ≤ reach n pos := by
  unfold reach
  omega

lemma genOffset_norand (r : Nat) (lp : Int) {pos : Int} {flag : OffsetFlag} {info : ProtoInfo}
    (h : flag.rand = false) :
    genOffset r pos flag buffer n lp info = genOffset 0 pos flag buffer n 0 info := by
  unfold genOffset
  simp only [h, Bool.false_eq_true, if_false]

lemma place_norand (r : Nat) (lp : Int) {rep : Rep} {info : ProtoInfo}
    (h : rep.1.flag.rand = false) : place r rep buffer n lp info = place 0 rep buffer n 0 info := by
  unfold place
  rw [genOffset_norand r lp h]

lemma marks_cons {rep : Rep} {rest : List Rep} {info : ProtoInfo} {ms : List (Rep × Int)}
    (h : marks buffer n (rep :: rest) info = some ms) :
    ∃ pos info' ms', place 0 rep buffer n 0 info = some (pos, info') ∧ ms = (rep, pos) :: ms' ∧
      marks buffer n rest info' = some ms' := by
  simp only [marks, Option.bind_eq_bind, Option.bind_eq_some_iff] at h
  obtain ⟨⟨pos, info'⟩, hplace, ms', hms', h⟩ := h
  cases h
  exact ⟨pos, info', ms', hplace, rfl, hms'⟩

end Marks

section Step

variable {c : Call} {idx : Nat} {rep : Rep} {st : Loop}

/-- The loop variables behind one send. -/
def push (st : Loop) (e : Event) : Loop :=
  { st with sock := { st.sock with sends := st.sock.sends.tail, log := st.sock.log ++ [e] } }

lemma push_allSent {e : Event} (h : AllSent st.sock) : AllSent (push st e).sock :=
  fun r hr => h r (List.mem_of_mem_tail hr)

lemma sends_push (st : Loop) (dp : DesyncParams) (buffer : Bytes) (lp p : Nat) (urgent : Bool) :
    sends (push st (cut dp buffer lp p urgent)).sock.log =
      sends st.sock.log ++ [cut dp buffer lp p urgent] := by
  rw [push, sends_append]
  rfl

lemma sendRequest_push {p : Nat} (hlp : st.lp ≤ p) (hp : p ≤ c.buffer.length)
    (hs : AllSent st.sock) :
    sendRequest c st p =
      some ((p : Int) - st.lp, push st (cut c.dp c.buffer st.lp p false)) := by
  have hlen : ((c.buffer.drop st.lp).take (p - st.lp)).length = p - st.lp := by
    simp only [List.length_take, List.length_drop]
    omega
  rw [sendRequest_eq (slice_eq hlp hp), send_all hs, hlen]
  simp [push, cut, Sock.emit, hlen, Int.ofNat_sub hlp]

lemma sendOob_push {p : Nat} (hlp : st.lp ≤ p) (hp : p < c.buffer.length) (hs : AllSent st.sock) :
    sendOob c st p = some ((p : Int) - st.lp, push st (cut c.dp c.buffer st.lp p true)) := by
  have hlen : ((c.buffer.drop st.lp).take (p - st.lp)).length = p - st.lp := by
    simp only [List.length_take, List.length_drop]
    omega
  rw [sendOob_eq hp (slice_eq hlp (Nat.le_of_lt hp)), send_all hs]
  simp only [List.length_append, List.length_singleton, hlen]
  rw [if_neg (by omega)]
  simp only [push, cut, Sock.emit, if_true, List.length_append, List.length_singleton, hlen,
    Option.some.injEq, Prod.mk.injEq, and_true]
  omega

lemma sendPart_push (idx : Nat) (st : Loop) {p : Nat} (hmode : rep.1.m.paired = false) (hlp : st.lp ≤ p)
    (hp : p ≤ c.buffer.length) (hurgent : rep.1.m.urgent = true → p < c.buffer.length)
    (hs : AllSent st.sock) :
    sendPart c idx rep st p =
      some (some ((p : Int) - st.lp), push st (cut c.dp c.buffer st.lp p rep.1.m.urgent)) := by
  cases hm : rep.1.m with
  | none | split => simp [sendPart, hm, sendRequest_push hlp hp hs, Demode.urgent]
  | oob =>
    have hlt : p < c.buffer.length := hurgent (by rw [hm]; rfl)
    simp [sendPart, hm, sendOob_push hlp hlt hs, Demode.urgent]
  | disorder | disoob | fake => simp [hm, Demode.paired] at hmode

/-- The end of a walk. -/
lemma sendRest_ends (st : Loop) (hlp : st.lp ≤ c.n) (hfits : c.n ≤ c.buffer.length) (hs : AllSent st.sock) :
    ∃ st', sendRest c st = some ⟨c.n - c.offset, false, st'⟩ ∧
      sends st'.sock.log = sends st.sock.log ++ restOf c.dp c.buffer c.n st.lp := by
  unfold restOf
  by_cases hlt : st.lp < c.n
  · refine ⟨push st (cut c.dp c.buffer st.lp c.n false), ?_, ?_⟩
    · have hnn : ¬ (c.n : Int) - st.lp < 0 := by omega
      simp [sendRest, hlt, sendRequest_push hlp hfits hs, hnn]
    · rw [if_pos hlt, sends_push]
  · refine ⟨st, by simp [sendRest, hlt], ?_⟩
    rw [if_neg hlt, List.append_nil]

/-- The loop variables behind a complete part. -/
structure Moved (curr p : Nat) (st st' : Loop) : Prop where
  lp : st'.lp = p
  info : st'.info = st.info
  partSent : st'.partSent = curr
  allSent : AllSent st.sock → AllSent st'.sock
  notsent : st'.sock.notsent = st.sock.notsent.tail
  log : sends st'.sock.log = sends st.sock.log

lemma afterSend_moves (c : Call) (curr : Nat) (st : Loop) {p : Nat} (hlp : st.lp ≤ p) :
    ∃ st', Moved curr p st st' ∧ afterSend c curr false p ((p : Int) - st.lp) st =
      if suspends c curr st then .ret ((p : Int) - c.offset) true st' else .next st' := by
  have heq := afterSend_eq c curr false hlp
  by_cases hsus : suspends c curr st = true
  · rw [if_pos hsus] at heq
    refine ⟨{ polled false curr p st with
      sock := (polled false curr p st).sock.emit (.timer c.g.awaitInt) },
      ⟨rfl, rfl, rfl, id, rfl, ?_⟩, heq.trans (if_pos hsus).symm⟩
    exact sends_emit _ rfl
  · rw [if_neg hsus] at heq
    have hrest := restored_restoreState c.g (polled false curr p st)
    refine ⟨restoreState c.g (polled false curr p st), ⟨hrest.lp, hrest.info, hrest.partSent, ?_, hrest.silent.notsent, ?_⟩,
      heq.trans (if_neg hsus).symm⟩
    · exact fun hs r hr => hs r (hrest.silent.sends ▸ hr)
    · exact sends_restoreState c.g _

end Step

/-- A call that goes through to the end. -/
structure Done (c : Call) (st : Loop) (todo : List Event) (e : Ended) : Prop where
  wait : e.wait = false
  ret : e.ret = (c.n : Int) - c.offset
  log : sends e.st.sock.log = sends st.sock.log ++ todo

/-- A call that is suspended behind `x`, the marks `pre` being through and `post`
still to come. -/
structure Halted (c : Call) (last : Int) (idx : Nat) (ms : List (Rep × Int)) (st : Loop)
    (e : Ended) (pre : List (Rep × Int)) (x : Rep × Int) (post : List (Rep × Int)) (last' : Int) :
    Prop where
  split : ms = pre ++ x :: post
  wait : e.wait = true
  ret : e.ret = (reach c.n x.2 : Int) - c.offset
  part : e.st.partSent = idx + pre.length + 1
  pos : (st.lp : Int) ≤ x.2
  lp : st.lp ≤ reach c.n x.2
  mode : x.1.1.m.paired = false
  past : last < reach c.n x.2
  first : ∃ y ∈ ms.head?, (st.lp : Int) ≤ y.2 ∧ reach c.n y.2 ≤ reach c.n x.2
  earlier : ∀ y ∈ pre, y.1.1.flag.start = true → 0 ≤ y.2 ∧ y.2 < reach c.n x.2
  own : x.1.1.flag.start = true → x.2 ≤ last'
  steady : Steady c.buffer c.n last' post (reach c.n x.2)
  log : sends e.st.sock.log ++ plan c.dp c.buffer c.n post (reach c.n x.2) =
    sends st.sock.log ++ plan c.dp c.buffer c.n ms st.lp
  allSent : AllSent e.st.sock
  moved : positives e.st.sock < positives st.sock ∨
    (c.g.waitSend = true ∧ positives e.st.sock ≤ positives st.sock)

section Loop

variable {c : Call}

lemma firstOfPair_unpaired {rep : Rep} (h : rep.1.m.paired = false) : firstOfPair rep = false := by
  simp [firstOfPair, h]

/-- Positions behind `lp` cut nothing, whether they are skipped or end the walk. -/
lemma partsLoop_below (hfits : c.n ≤ c.buffer.length) {reps : List Rep} :
    ∀ {ms : List (Rep × Int)} (idx : Nat) (st : Loop), NoRand (reps.map Prod.fst) →
      marks c.buffer c.n reps st.info = some ms → (∀ x ∈ ms, x.2 < st.lp) → st.lp ≤ c.n →
      AllSent st.sock →
      ∃ e, partsLoop c reps idx st = some e ∧
        Done c st (restOf c.dp c.buffer c.n st.lp) e := by
  induction reps with
  | nil =>
    intro ms idx st _ _ _ hlp hs
    obtain ⟨st', hst', hlog⟩ := sendRest_ends st hlp hfits hs
    exact ⟨_, hst', rfl, rfl, hlog⟩
  | cons rep rest ih =>
    intro ms idx st hrand hms hbelow hlp hs
    obtain ⟨pos, info, ms', hplace, rfl, hms'⟩ := marks_cons hms
    have hnorand : rep.1.flag.rand = false := hrand _ (by simp)
    have hplace' := (place_norand (c.rnd.part idx) st.lp hnorand).trans hplace
    have hpos : pos < st.lp := hbelow (rep, pos) (by simp)
    cases hskip : skipped c (idx + 1) rep pos with
    | true =>
      obtain ⟨e, he, hdone⟩ := ih (idx + 1) { st with info := info }
        (fun p hp => hrand p (List.mem_cons_of_mem _ hp)) hms'
        (fun x hx => hbelow x (List.mem_cons_of_mem _ hx)) hlp hs
      exact ⟨e, (partsLoop_next (partStep_skip hplace' hskip)).trans he, hdone.wait, hdone.ret,
        hdone.log⟩
    | false =>
      have hcancel : partsLoop c (rep :: rest) idx st = sendRest c { st with info := info } :=
        partsLoop_cancel (partStep_cancel hplace' hskip hpos)
      obtain ⟨st', hst', hlog⟩ := sendRest_ends (c := c) { st with info := info } hlp hfits hs
      exact ⟨_, hcancel.trans hst', rfl, rfl, hlog⟩

/-- The walk from a part that has not been reached before. -/
theorem partsLoop_walks (hfits : c.n ≤ c.buffer.length) (hskip : c.skip = c.offset)
    {reps : List Rep} :
    ∀ {ms : List (Rep × Int)} {last : Int} (idx : Nat) (st : Loop), NoRand (reps.map Prod.fst) →
      marks c.buffer c.n reps st.info = some ms → Steady c.buffer c.n last ms st.lp →
      c.partSkip ≤ idx → c.offset ≤ st.lp → st.lp ≤ c.n → AllSent st.sock →
      ∃ e, partsLoop c reps idx st = some e ∧
        (Done c st (plan c.dp c.buffer c.n ms st.lp) e ∨
          ∃ pre x post last', Halted c last idx ms st e pre x post last') := by
  induction reps with
  | nil =>
    intro ms last idx st _ hms _ _ _ hlp hs
    cases hms
    obtain ⟨st', hst', hlog⟩ := sendRest_ends st hlp hfits hs
    exact ⟨_, hst', .inl ⟨rfl, rfl, hlog⟩⟩
  | cons rep rest ih =>
    intro ms last idx st hrand hms hsteady hpart hoff hlp hs
    obtain ⟨pos, info, ms', hplace, rfl, hms'⟩ := marks_cons hms
    have hnorand : rep.1.flag.rand = false := hrand _ (by simp)
    have hrand' : NoRand (rest.map Prod.fst) := fun p hp => hrand p (List.mem_cons_of_mem _ hp)
    have hplace' := (place_norand (c.rnd.part idx) st.lp hnorand).trans hplace
    rw [Steady] at hsteady
    by_cases hcancel : pos < st.lp
    · rw [if_pos hcancel] at hsteady
      rw [plan, if_pos hcancel]
      cases hskipped : skipped c (idx + 1) rep pos with
      | true =>
        -- a resumed call passes over the position that ends the walk
        have hbelow : ∀ x ∈ ms', x.2 < st.lp := by
          rcases hsteady with hzero | hbelow
          · have hoff0 : c.offset = 0 := by omega
            simp [skipped, hskip, hoff0, Nat.not_lt.mpr (Nat.le_succ_of_le hpart)] at hskipped
          · exact hbelow
        obtain ⟨e, he, hdone⟩ := partsLoop_below (c := c) hfits (idx + 1) { st with info := info }
          hrand' hms' hbelow hlp hs
        exact ⟨e, (partsLoop_next (partStep_skip hplace' hskipped)).trans he,
          .inl ⟨hdone.wait, hdone.ret, hdone.log⟩⟩
      | false =>
        have hend : partsLoop c (rep :: rest) idx st = sendRest c { st with info := info } :=
          partsLoop_cancel (partStep_cancel hplace' hskipped hcancel)
        obtain ⟨st', hst', hlog⟩ := sendRest_ends (c := c) { st with info := info } hlp hfits hs
        exact ⟨_, hend.trans hst', .inl ⟨rfl, rfl, hlog⟩⟩
    · rw [if_neg hcancel] at hsteady
      obtain ⟨hmode, hurgent, hover, hsteady⟩ := hsteady
      have hpos : (st.lp : Int) ≤ pos := by omega
      have hnot : skipped c (idx + 1) rep pos = false := by
        have h1 : ¬ pos < c.offset := by omega
        have h2 : ¬ idx + 1 < c.partSkip := by omega
        simp [skipped, hskip, h1, h2]
      obtain ⟨p, hp⟩ : ∃ p, reach c.n pos = p := ⟨_, rfl⟩
      have hpn : p ≤ c.n := hp ▸ reach_le c.n pos
      have hlpp : st.lp ≤ p := hp ▸ le_reach hpos hlp
      rw [hp] at hurgent hover hsteady
      have hplan : plan c.dp c.buffer c.n ((rep, pos) :: ms') st.lp =
          cut c.dp c.buffer st.lp p rep.1.m.urgent :: plan c.dp c.buffer c.n ms' p := by
        rw [plan, if_neg hcancel, hp]
      have hsend := sendPart_push (c := c) idx { st with info := info } hmode hlpp (by omega)
        hurgent hs
      have hstep := partStep_sends hplace' hnot hpos (by omega)
        (by rw [show (min pos c.n).toNat = p from hp]; exact hsend)
      rw [show (min pos c.n).toNat = p from hp, firstOfPair_unpaired hmode] at hstep
      obtain ⟨st', hmoved, hafter⟩ := afterSend_moves c (idx + 1)
        (push { st with info := info } (cut c.dp c.buffer st.lp p rep.1.m.urgent)) hlpp
      have hstep := hstep.trans (congrArg some hafter)
      have hs' : AllSent st'.sock := hmoved.allSent (push_allSent hs)
      have hlog : sends st'.sock.log =
          sends st.sock.log ++ [cut c.dp c.buffer st.lp p rep.1.m.urgent] :=
        hmoved.log.trans (sends_push _ _ _ _ _ _)
      have hnotsent : st'.sock.notsent = st.sock.notsent.tail := hmoved.notsent
      have hfewer : positives st'.sock ≤ positives st.sock := by
        rw [positives, hnotsent]
        exact positives_tail _
      cases hsus : suspends c (idx + 1)
        (push { st with info := info } (cut c.dp c.buffer st.lp p rep.1.m.urgent)) with
      | true =>
        rw [hsus, if_pos rfl] at hstep
        refine ⟨_, partsLoop_ret hstep, .inr ⟨[], (rep, pos), ms',
          if rep.1.flag.start then pos else last, ?_⟩⟩
        refine ⟨rfl, rfl, by rw [hp], hmoved.partSent, hpos, by rw [hp]; exact hlpp, hmode,
          by rw [hp]; exact hover, ⟨_, rfl, hpos, Nat.le_refl _⟩, by simp, ?_,
          by rw [hp]; exact hsteady, ?_, hs', ?_⟩
        · intro hstart
          exact Int.le_of_eq (if_pos hstart).symm
        · rw [hp, hlog, hplan]
          exact List.append_assoc _ _ _
        · cases hhead : st.sock.notsent.headD false with
          | true =>
            left
            rw [positives, hnotsent]
            exact positives_drop hhead
          | false =>
            right
            have hhead' : (push { st with info := info }
              (cut c.dp c.buffer st.lp p rep.1.m.urgent)).sock.notsent.headD false = false := hhead
            rw [suspends, hhead', Bool.false_or, Bool.and_eq_true] at hsus
            exact ⟨hsus.1, hfewer⟩
      | false =>
        rw [hsus, if_neg (by decide)] at hstep
        have hinfo : st'.info = info := hmoved.info
        have hlp' : st'.lp = p := hmoved.lp
        obtain ⟨e, he, hout⟩ := ih (idx + 1) st' hrand' (by rw [hinfo]; exact hms')
          (by rw [hlp']; exact hsteady) (by omega) (by omega) (by omega) hs'
        refine ⟨e, (partsLoop_next hstep).trans he, ?_⟩
        rw [hlp'] at hout
        rcases hout with hdone | ⟨pre, x, post, last', h⟩
        · left
          refine ⟨hdone.wait, hdone.ret, ?_⟩
          rw [hdone.log, hlog, hplan, List.append_assoc]
          rfl
        · right
          have hover' := h.past
          have hlpx := h.lp
          rw [hlp'] at hlpx
          refine ⟨(rep, pos) :: pre, x, post, last', ?_⟩
          refine ⟨by rw [h.split]; rfl, h.wait, h.ret, ?_, ?_, by omega, h.mode, by omega,
            ⟨_, rfl, hpos, by rw [hp]; exact hlpx⟩, ?_, h.own, h.steady, ?_, h.allSent, ?_⟩
          · rw [h.part, List.length_cons]
            omega
          · have hposx := h.pos
            omega
          · intro y hy hstart
            rcases List.mem_cons.mp hy with rfl | hin
            · rw [if_pos hstart] at hover'
              exact ⟨by omega, hover'⟩
            · exact h.earlier y hin hstart
          · rw [h.log, hlp', hlog, hplan, List.append_assoc]
            rfl
          · rcases h.moved with hless | ⟨hw, hle⟩
            · exact .inl (by omega)
            · exact .inr ⟨hw, by omega⟩

end Loop

/-- How a call leaves a suspended request: `x` is the last part sent, `all` the
sends of the whole request. -/
structure Stopped (c : Call) (ms : List (Rep × Int)) (all : List Event) (st : Loop) (e : Ended)
    (pre : List (Rep × Int)) (x : Rep × Int) (post : List (Rep × Int)) (last : Int) : Prop where
  split : ms = pre ++ x :: post
  wait : e.wait = true
  ret : e.ret = (reach c.n x.2 : Int) - c.offset
  lp : c.offset ≤ reach c.n x.2
  part : e.st.partSent = pre.length + 1
  kept : c.partSkip ≤ e.st.partSent
  pos : 0 ≤ x.2
  mode : x.1.1.m.paired = false
  first : ∃ y ∈ ms.head?, 0 ≤ y.2 ∧ reach c.n y.2 ≤ reach c.n x.2
  earlier : ∀ y ∈ pre, y.1.1.flag.start = true → 0 ≤ y.2 ∧ y.2 < reach c.n x.2
  own : x.1.1.flag.start = true → x.2 ≤ last
  steady : Steady c.buffer c.n last post (reach c.n x.2)
  log : sends e.st.sock.log ++ plan c.dp c.buffer c.n post (reach c.n x.2) = all
  allSent : AllSent e.st.sock
  moved : positives e.st.sock < positives st.sock ∨
    (c.g.waitSend = true ∧ positives e.st.sock ≤ positives st.sock ∧ c.partSkip < e.st.partSent)

section Calls

variable {c : Call} {ms : List (Rep × Int)} {reps : List Rep}

/-- The first call. -/
lemma partsLoop_first (st : Loop) {last : Int} (hfits : c.n ≤ c.buffer.length) (hrand : NoRand (reps.map Prod.fst))
    (hms : marks c.buffer c.n reps st.info = some ms) (hsteady : Steady c.buffer c.n last ms st.lp)
    (hlp : st.lp = 0) (hoff : c.offset = 0) (hskip : c.skip = 0) (hpart : c.partSkip = 0)
    (hs : AllSent st.sock) :
    ∃ e, partsLoop c reps 0 st = some e ∧
      (Done c st (plan c.dp c.buffer c.n ms 0) e ∨ ∃ pre x post last',
        Stopped c ms (sends st.sock.log ++ plan c.dp c.buffer c.n ms 0) st e pre x post last') := by
  obtain ⟨e, he, hout⟩ := partsLoop_walks hfits (hskip.trans hoff.symm) 0 st hrand hms hsteady
    (by omega) (by omega) (by omega) hs
  rw [hlp] at hout
  refine ⟨e, he, hout.imp_right ?_⟩
  rintro ⟨pre, x, post, last', h⟩
  have hpos := h.pos
  have hpart' := h.part
  obtain ⟨y, hy, hypos, hyle⟩ := h.first
  refine ⟨pre, x, post, last', h.split, h.wait, h.ret, by omega, by omega, by omega, by omega,
    h.mode, ⟨y, hy, by omega, hyle⟩, h.earlier, h.own, h.steady, by rw [h.log, hlp], h.allSent, ?_⟩
  rcases h.moved with hless | ⟨hw, hle⟩
  · exact .inl hless
  · exact .inr ⟨hw, hle, by omega⟩

/-- What is through already is skipped by its number or by its position. -/
lemma partsLoop_skips {post : List (Rep × Int)} : ∀ {pre : List (Rep × Int)} {reps : List Rep}
    (idx : Nat) (st : Loop), NoRand (reps.map Prod.fst) →
      marks c.buffer c.n reps st.info = some (pre ++ post) → idx + pre.length < c.partSkip →
      (∀ y ∈ pre, y.1.1.flag.start = true → 0 ≤ y.2 ∧ y.2 < c.offset) →
      ∃ reps' info, partsLoop c reps idx st =
          partsLoop c reps' (idx + pre.length) { st with info := info } ∧
        marks c.buffer c.n reps' info = some post ∧ NoRand (reps'.map Prod.fst) := by
  intro pre
  induction pre with
  | nil => exact fun idx st hrand hms _ _ => ⟨_, st.info, rfl, hms, hrand⟩
  | cons y pre ih =>
    intro reps idx st hrand hms hpart hearlier
    rw [List.length_cons] at hpart
    cases reps with
    | nil => simp [marks] at hms
    | cons rep rest =>
      obtain ⟨pos, info, ms', hplace, heq, hms'⟩ := marks_cons hms
      cases heq
      have hnorand : rep.1.flag.rand = false := hrand _ (by simp)
      have hplace' := (place_norand (c.rnd.part idx) st.lp hnorand).trans hplace
      have hskip : skipped c (idx + 1) rep pos = true := by
        cases hstart : rep.1.flag.start with
        | false =>
          have hlt : idx + 1 < c.partSkip := by omega
          simp [skipped, hstart, hlt]
        | true =>
          obtain ⟨h0, hlt⟩ := hearlier (rep, pos) (by simp) hstart
          dsimp only at h0 hlt
          have hne : c.offset ≠ 0 := by omega
          simp [skipped, hstart, hlt, hne]
      obtain ⟨reps', info', hloop, hms'', hrand''⟩ := ih (idx + 1) { st with info := info }
        (fun p hp => hrand p (List.mem_cons_of_mem _ hp)) hms' (by omega)
        (fun z hz => hearlier z (List.mem_cons_of_mem _ hz))
      refine ⟨reps', info', (partsLoop_next (partStep_skip hplace' hskip)).trans ?_, hms'', hrand''⟩
      rw [hloop, List.length_cons, Nat.add_right_comm, Nat.add_assoc]

/-- A resumed call takes up the walk behind the last part sent, or is suspended
there once more. -/
theorem partsLoop_resumes (st : Loop) {pre post : List (Rep × Int)} {x : Rep × Int} {last : Int}
    (hfits : c.n ≤ c.buffer.length) (hrand : NoRand (reps.map Prod.fst))
    (hms : marks c.buffer c.n reps st.info = some ms) (hsplit : ms = pre ++ x :: post)
    (hskip : c.skip = c.offset) (hoff : c.offset = reach c.n x.2) (hlp : st.lp = c.offset)
    (hpart : c.partSkip = pre.length + 1) (hpos : 0 ≤ x.2) (hmode : x.1.1.m.paired = false)
    (hfirst : ∃ y ∈ ms.head?, 0 ≤ y.2 ∧ reach c.n y.2 ≤ reach c.n x.2)
    (hearlier : ∀ y ∈ pre, y.1.1.flag.start = true → 0 ≤ y.2 ∧ y.2 < reach c.n x.2)
    (hown : x.1.1.flag.start = true → x.2 ≤ last)
    (hsteady : Steady c.buffer c.n last post (reach c.n x.2)) (hs : AllSent st.sock) :
    ∃ e, partsLoop c reps 0 st = some e ∧
      (Done c st (plan c.dp c.buffer c.n post (reach c.n x.2)) e ∨ ∃ pre' x' post' last',
        Stopped c ms (sends st.sock.log ++ plan c.dp c.buffer c.n post (reach c.n x.2)) st e
          pre' x' post' last') := by
  have hreach := reach_le c.n x.2
  obtain ⟨reps', info, hloop, hms', hrand'⟩ := partsLoop_skips (c := c) 0 st hrand
    (hsplit ▸ hms) (by omega) (by rw [hoff]; exact hearlier)
  rw [hloop, Nat.zero_add]
  cases reps' with
  | nil => simp [marks] at hms'
  | cons rep rest =>
    obtain ⟨pos, info', ms', hplace, heq, hms''⟩ := marks_cons hms'
    cases heq
    dsimp only at hpos hmode hown hearlier hsteady hoff hreach
    have hnorand : rep.1.flag.rand = false := hrand' _ (by simp)
    have hplace' := (place_norand (c.rnd.part pre.length) st.lp hnorand).trans hplace
    have hlppos : (st.lp : Int) ≤ pos := by
      rw [hlp, hoff, reach]
      omega
    have hnot : skipped c (pre.length + 1) rep pos = false := by
      have h1 : ¬ pos < c.offset := by omega
      have h2 : ¬ pre.length + 1 < c.partSkip := by omega
      simp [skipped, hskip, h1, h2]
    have hstep : partStep c pre.length rep { st with info := info } =
        some (afterSend c (pre.length + 1) (firstOfPair rep) (min pos c.n).toNat
          (((min pos c.n).toNat : Int) - st.lp) { st with info := info' }) :=
      partStep_resumed hplace' hnot hlppos hpart.symm
    have hlp' : st.lp ≤ (min pos c.n).toNat := by
      rw [hlp, hoff]
      exact Nat.le_refl _
    obtain ⟨st', hmoved, hafter⟩ := afterSend_moves c (pre.length + 1)
      { st with info := info' } hlp'
    rw [firstOfPair_unpaired hmode] at hstep
    have hstep := hstep.trans (congrArg some hafter)
    have hs' : AllSent st'.sock := hmoved.allSent hs
    have hlog : sends st'.sock.log = sends st.sock.log := hmoved.log
    have hnotsent : st'.sock.notsent = st.sock.notsent.tail := hmoved.notsent
    have hfewer : positives st'.sock ≤ positives st.sock := by
      rw [positives, hnotsent]
      exact positives_tail _
    have hnext : st'.lp = reach c.n pos := hmoved.lp
    cases hsus : suspends c (pre.length + 1) { st with info := info' } with
    | true =>
      rw [hsus, if_pos rfl] at hstep
      have hhead : st.sock.notsent.headD false = true := by
        have hno : ¬ c.partSkip < pre.length + 1 := by omega
        simpa [suspends, hno] using hsus
      refine ⟨_, partsLoop_ret hstep, .inr ⟨pre, (rep, pos), post, last, hsplit, rfl, rfl, ?_,
        hmoved.partSent, ?_, hpos, hmode, hfirst, hearlier, hown, hsteady, by rw [hlog], hs', .inl ?_⟩⟩
      · exact Nat.le_of_eq hoff
      · rw [hpart]
        exact Nat.le_of_eq hmoved.partSent.symm
      · rw [positives, hnotsent]
        exact positives_drop hhead
    | false =>
      rw [hsus, if_neg (by decide)] at hstep
      have hinfo : st'.info = info' := hmoved.info
      obtain ⟨e, he, hout⟩ := partsLoop_walks (c := c) hfits hskip (pre.length + 1) st'
        (fun p hp => hrand' p (List.mem_cons_of_mem _ hp)) (by rw [hinfo]; exact hms'')
        (by rw [hnext]; exact hsteady) (by omega) (by omega) (by omega) hs'
      refine ⟨e, (partsLoop_next hstep).trans he, ?_⟩
      rw [hnext] at hout
      rcases hout with hdone | ⟨pre', x', post', last', h⟩
      · left
        exact ⟨hdone.wait, hdone.ret, by rw [hdone.log, hlog]⟩
      · right
        have hover := h.past
        have hlpx := h.lp
        have hposx := h.pos
        rw [hnext] at hlpx hposx
        have hpart' := h.part
        obtain ⟨y, hy, hypos, hyle⟩ := hfirst
        refine ⟨pre ++ (rep, pos) :: pre', x', post', last', ?_, h.wait, h.ret, by omega, ?_,
          by omega, by omega, h.mode, ⟨y, hy, hypos, by dsimp only at hyle; omega⟩, ?_, h.own, h.steady, ?_, h.allSent, ?_⟩
        · rw [hsplit, h.split, List.append_assoc]
          rfl
        · rw [h.part, List.length_append, List.length_cons]
          omega
        · intro y hy hstart
          rcases List.mem_append.mp hy with hin | hin
          · obtain ⟨h0, hlt⟩ := hearlier y hin hstart
            exact ⟨h0, by omega⟩
          · rcases List.mem_cons.mp hin with rfl | hin
            · have hle := hown hstart
              exact ⟨hpos, by dsimp only; omega⟩
            · exact h.earlier y hin hstart
        · rw [h.log, hlog, hnext]
        · rcases h.moved with hless | ⟨hw, hle⟩
          · exact .inl (by omega)
          · exact .inr ⟨hw, by omega, by omega⟩

end Calls

/-- The condition on a request: `T` is what `tamp` makes of it and `ms` are the
positions the first call finds. -/
structure Unmoved (g : Globals) (dp : DesyncParams) (T : Tamped) (ms : List (Rep × Int)) : Prop where
  marked : marks T.data T.n (expand dp.parts) T.info = some ms
  steady : Steady T.data T.n (-1) ms 0
  /-- the tampered request gives the same positions -/
  later : (∃ y ∈ ms.head?, 0 ≤ y.2) → marks T.data T.n (expand dp.parts) {} = some ms
  /-- `tamp` runs again as long as no byte is sent -/
  again : (∃ y ∈ ms.head?, 0 ≤ y.2 ∧ reach T.n y.2 = 0) → ∀ rnd, ∃ info,
    prepare g dp rnd T.data T.n 0 = some ⟨T.data, T.n, info⟩ ∧
      marks T.data T.n (expand dp.parts) info = some ms

/-- Between two calls: `x` is the last part sent and `post` is to come. -/
structure Waits (dp : DesyncParams) (T : Tamped) (ms : List (Rep × Int)) (all : List Event)
    (k : Conn) (pre : List (Rep × Int)) (x : Rep × Int) (post : List (Rep × Int)) (last : Int) :
    Prop where
  data : k.data = T.data
  n : k.n = T.n
  split : ms = pre ++ x :: post
  offset : k.offset = reach T.n x.2
  roundSent : k.roundSent = reach T.n x.2
  part : k.partSent = pre.length + 1
  pos : 0 ≤ x.2
  mode : x.1.1.m.paired = false
  first : ∃ y ∈ ms.head?, 0 ≤ y.2 ∧ reach T.n y.2 ≤ reach T.n x.2
  earlier : ∀ y ∈ pre, y.1.1.flag.start = true → 0 ≤ y.2 ∧ y.2 < reach T.n x.2
  own : x.1.1.flag.start = true → x.2 ≤ last
  steady : Steady T.data T.n last post (reach T.n x.2)
  log : sends k.sock.log ++ plan dp T.data T.n post (reach T.n x.2) = all
  allSent : AllSent k.sock

/-- A request on its way: through with all its sends, or suspended. -/
def Going (dp : DesyncParams) (T : Tamped) (ms : List (Rep × Int)) (all : List Event)
    (p : Progress) : Prop :=
  (p.done = true ∧ sends p.conn.sock.log = all) ∨
    (p.done = false ∧ ∃ pre x post last, Waits dp T ms all p.conn pre x post last)

section Runs

variable {g : Globals} {dp : DesyncParams} {T : Tamped} {ms : List (Rep × Int)} {all : List Event}
  {p : Progress} {rnd : Rands}

lemma resume_eq {t : Tamped} {e : Ended} (hdone : p.done = false)
    (ht : prepare g dp rnd p.conn.data p.conn.n p.conn.roundSent = some t)
    (he : partsLoop (callOf g dp rnd p.conn t) (expand dp.parts) 0 (loopOf p.conn t) = some e)
    (hret : 0 ≤ e.ret) :
    resume g dp p rnd = some ⟨Conn.advance (p.conn.after t e) e.ret.toNat,
      !e.wait && e.ret == (t.n : Int) - p.conn.offset⟩ := by
  have hd : desync g dp rnd p.conn = some (e.ret, e.wait, p.conn.after t e) :=
    desync_some_iff.mpr ⟨t, e, ht, he, rfl⟩
  simp only [resume, hdone, hd, Bool.false_eq_true, if_false]
  rw [if_neg (by omega)]
  rfl

lemma marks_length {buffer : Bytes} {n : Nat} {reps : List Rep} :
    ∀ {info : ProtoInfo} {ms : List (Rep × Int)}, marks buffer n reps info = some ms →
      ms.length = reps.length := by
  induction reps with
  | nil =>
    intro info ms h
    cases h
    rfl
  | cons rep rest ih =>
    intro info ms h
    obtain ⟨pos, info', ms', -, rfl, hms'⟩ := marks_cons h
    rw [List.length_cons, List.length_cons, ih hms']

lemma noRand_expand (h : NoRand dp.parts) : NoRand ((expand dp.parts).map Prod.fst) := by
  intro p hp
  simp only [expand, reps, List.mem_map, List.mem_flatMap, List.mem_range] at hp
  obtain ⟨rep, ⟨q, hq, k, -, rfl⟩, rfl⟩ := hp
  exact h q hq

/-- What a call makes of the request, from what its loop does. -/
lemma going_of_loop {t : Tamped} {e : Ended} {todo' : List Event} (hdone : p.done = false)
    (hround : p.conn.roundSent = p.conn.offset) (hoff : p.conn.offset ≤ T.n)
    (ht : prepare g dp rnd p.conn.data p.conn.n p.conn.roundSent = some t) (hdata : t.data = T.data)
    (hn : t.n = T.n) (hlen : ms.length = (expand dp.parts).length)
    (he : partsLoop (callOf g dp rnd p.conn t) (expand dp.parts) 0 (loopOf p.conn t) = some e)
    (hall : sends p.conn.sock.log ++ todo' = all)
    (hout : Done (callOf g dp rnd p.conn t) (loopOf p.conn t) todo' e ∨ ∃ pre x post last,
      Stopped (callOf g dp rnd p.conn t) ms all (loopOf p.conn t) e pre x post last) :
    ∃ p', resume g dp p rnd = some p' ∧ Going dp T ms all p' ∧
      (p'.done = true ∨ todo g dp p' < todo g dp p) := by
  rcases hout with h | ⟨pre, x, post, last, h⟩
  · have hret := h.ret
    simp only [callOf, hn] at hret
    refine ⟨_, resume_eq hdone ht he (by omega), ?_, ?_⟩
    · left
      refine ⟨?_, ?_⟩
      · simp only [h.wait, hn, hret, Bool.not_false, Bool.true_and, BEq.rfl]
      · exact h.log.trans hall
    · left
      simp only [h.wait, hn, hret, Bool.not_false, Bool.true_and, BEq.rfl]
  · have hret := h.ret
    have hle := h.lp
    simp only [callOf, hn] at hret hle
    have hadd : p.conn.offset + e.ret.toNat = reach T.n x.2 := by omega
    refine ⟨_, resume_eq hdone ht he (by omega), ?_, ?_⟩
    · right
      refine ⟨by simp only [h.wait, Bool.not_true, Bool.false_and], pre, x, post, last, ?_⟩
      have hfirst := h.first
      have hearlier := h.earlier
      have hsteady := h.steady
      have hlog := h.log
      simp only [callOf, hdata, hn] at hfirst hearlier hsteady hlog
      exact ⟨hdata, hn, h.split, hadd, by rw [← hadd, ← hround]; rfl, h.part, h.pos, h.mode, hfirst,
        hearlier, h.own, hsteady, hlog, h.allSent⟩
    · right
      have hkept := h.kept
      have hpart := h.part
      have hsplit := congrArg List.length h.split
      have hmoved := h.moved
      simp only [List.length_append, List.length_cons] at hsplit
      simp only [callOf, loopOf] at hkept hmoved
      unfold todo
      simp only [Conn.advance, Conn.after]
      split
      · rcases hmoved with hless | ⟨-, hle, hmore⟩ <;> omega
      · next hw =>
        rcases hmoved with hless | ⟨hws, -⟩
        · omega
        · exact absurd hws hw

/-- A resumed call keeps the request on its way. -/
theorem resume_going (hrand : NoRand dp.parts) (hfits : T.n ≤ T.data.length)
    (h : Unmoved g dp T ms) (hp : Going dp T ms all p) (hdone : ¬ p.done = true) :
    ∃ p', resume g dp p rnd = some p' ∧ Going dp T ms all p' ∧
      (p'.done = true ∨ todo g dp p' < todo g dp p) := by
  rcases hp with ⟨hyes, -⟩ | ⟨hno, pre, x, post, last, hw⟩
  · exact absurd hyes hdone
  have hreach := reach_le T.n x.2
  obtain ⟨y, hy, hypos, hyle⟩ := hw.first
  obtain ⟨info, ht, hms⟩ : ∃ info, prepare g dp rnd p.conn.data p.conn.n p.conn.roundSent =
      some ⟨T.data, T.n, info⟩ ∧ marks T.data T.n (expand dp.parts) info = some ms := by
    rw [hw.data, hw.n, hw.roundSent]
    by_cases hzero : reach T.n x.2 = 0
    · rw [hzero]
      exact h.again ⟨y, hy, hypos, by omega⟩ rnd
    · refine ⟨{}, ?_, h.later ⟨y, hy, hypos⟩⟩
      simp [prepare, hzero]
  obtain ⟨e, he, hout⟩ := partsLoop_resumes (c := callOf g dp rnd p.conn ⟨T.data, T.n, info⟩)
    (loopOf p.conn ⟨T.data, T.n, info⟩) hfits (noRand_expand hrand) hms hw.split
    (hw.roundSent.trans hw.offset.symm) hw.offset rfl hw.part hw.pos hw.mode hw.first hw.earlier
    hw.own hw.steady hw.allSent
  have hall : sends (loopOf p.conn ⟨T.data, T.n, info⟩).sock.log ++
      plan dp T.data T.n post (reach T.n x.2) = all := hw.log
  exact going_of_loop hno (hw.roundSent.trans hw.offset.symm) (hw.offset ▸ hreach) ht rfl rfl
    (marks_length h.marked) he hall (by simpa only [callOf, hall] using hout)

/-- The call that is never suspended. -/
lemma desync_plan (r : Request) (remote : Restore) (w : Sock) (hrand : NoRand dp.parts)
    (hs : AllSent w) (hT : prepare g dp rnd r.data r.n 0 = some T) (h : Unmoved g dp T ms) :
    ∃ k, desync { g with waitSend := false } dp rnd (r.conn remote { w with notsent := [] }) =
        some ((T.n : Int), false, k) ∧
      sends k.sock.log = sends w.log ++ plan dp T.data T.n ms 0 := by
  have hfits := (prepare_fits hT r.fits).2
  obtain ⟨e, he, hout⟩ := partsLoop_first (c := callOf { g with waitSend := false } dp rnd
    (r.conn remote { w with notsent := [] }) T) (loopOf (r.conn remote { w with notsent := [] }) T)
    hfits (noRand_expand hrand) h.marked h.steady rfl rfl rfl rfl hs
  have hT' : prepare { g with waitSend := false } dp rnd r.data r.n 0 = some T := hT
  rcases hout with hdone | ⟨pre, x, post, last, hstop⟩
  · refine ⟨(r.conn remote { w with notsent := [] }).after T e,
      desync_some_iff.mpr ⟨T, e, hT', he, ?_⟩, hdone.log⟩
    have hret := hdone.ret
    simp only [callOf, Request.conn] at hret
    rw [hdone.wait, hret]
    simp
  · rcases hstop.moved with hless | ⟨hw, -⟩
    · exact absurd hless (Nat.not_lt_zero _)
    · cases hw

/-- A request whose parts are found where they were is cut the same however often
it is suspended: after enough calls the sends are those of a single one. -/
theorem suspended_request_cut_the_same (g : Globals) (dp : DesyncParams) (r : Request)
    (remote : Restore) (w : Sock) (rnd : Rands) (rnds : List Rands) (T : Tamped)
    (ms : List (Rep × Int)) (hrand : NoRand dp.parts) (hs : AllSent w)
    (hT : prepare g dp rnd r.data r.n 0 = some T) (h : Unmoved g dp T ms)
    (hlen : (expand dp.parts).length + w.notsent.count true < rnds.length) :
    ∃ k, desync { g with waitSend := false } dp rnd (r.conn remote { w with notsent := [] }) =
        some ((T.n : Int), false, k) ∧
      ∃ m p, run (resume g dp) (start r remote w) ((rnd :: rnds).take m) = some p ∧
        p.done = true ∧ sends p.conn.sock.log = sends k.sock.log := by
  have hfits := (prepare_fits hT r.fits).2
  obtain ⟨k, hk, hall⟩ := desync_plan r remote w hrand hs hT h
  refine ⟨k, hk, ?_⟩
  rw [hall]
  obtain ⟨e, he, hout⟩ := partsLoop_first (c := callOf g dp rnd (r.conn remote w) T)
    (loopOf (r.conn remote w) T) hfits (noRand_expand hrand) h.marked h.steady rfl rfl rfl rfl
    hs
  obtain ⟨p1, hp1, hgoing, hprog⟩ := going_of_loop (p := start r remote w) (t := T) rfl rfl
    (Nat.zero_le _) hT rfl rfl (marks_length h.marked) he rfl hout
  have hmeasure : todo g dp (start r remote w) ≤
      (expand dp.parts).length + w.notsent.count true := by
    unfold todo positives start Request.conn
    dsimp only
    split <;> omega
  have hstep : ∀ (p : Progress) (rnd : Rands), Going dp T ms
      (sends w.log ++ plan dp T.data T.n ms 0) p → ¬ p.done = true → True →
      ∃ p', resume g dp p rnd = some p' ∧ Going dp T ms (sends w.log ++ plan dp T.data T.n ms 0) p' ∧
        (p'.done = true ∨ todo g dp p' < todo g dp p) :=
    fun _ _ hp hnot _ => resume_going hrand hfits h hp hnot
  have hfinal : ∀ {p : Progress}, Going dp T ms (sends w.log ++ plan dp T.data T.n ms 0) p →
      p.done = true → sends p.conn.sock.log = sends w.log ++ plan dp T.data T.n ms 0 := by
    rintro p (⟨-, hlog⟩ | ⟨hno, -⟩) hyes
    · exact hlog
    · rw [hno] at hyes
      cases hyes
  by_cases hdone1 : p1.done = true
  · refine ⟨1, p1, ?_, hdone1, hfinal hgoing hdone1⟩
    simp [run, hp1]
  · have hlt := hprog.resolve_left hdone1
    obtain ⟨m, -, p, hrun, hyes⟩ := finishes_within (todo g dp) hstep hgoing hdone1
      (meets_of_forall (fun _ _ => trivial) p1 rnds) (by omega)
    have hinv : ∀ (s : Progress) (a : Rands) (s' : Progress),
        Going dp T ms (sends w.log ++ plan dp T.data T.n ms 0) s → resume g dp s a = some s' →
        Going dp T ms (sends w.log ++ plan dp T.data T.n ms 0) s' := by
      intro s a s' hs' hss'
      have hnot : ¬ s.done = true := by
        rw [(resume_some hss').1]
        decide
      have hgoes : ∃ s'', resume g dp s a = some s'' ∧
          Going dp T ms (sends w.log ++ plan dp T.data T.n ms 0) s'' ∧
          (s''.done = true ∨ todo g dp s'' < todo g dp s) := resume_going hrand hfits h hs' hnot
      obtain ⟨s'', hss'', hgo, -⟩ := hgoes
      rw [Option.some.inj (hss'.symm.trans hss'')]
      exact hgo
    refine ⟨m + 1, p, ?_, hyes, hfinal (run_invariant hinv hgoing hrun) hyes⟩
    rw [List.take_succ_cons, run_cons hp1, hrun]

end Runs

theorem suspended_request_cut_the_same_two :
    ∃ k, desync {} twoSplits {} (abcd.conn {} {}) = some (4, false, k) ∧
      ∃ m p, run (resume { waitSend := true } twoSplits) (start abcd {} { notsent := [true] })
        ([{}, {}, {}, {}, {}].take m) = some p ∧ p.done = true ∧
          sends p.conn.sock.log = sends k.sock.log := by
  apply suspended_request_cut_the_same { waitSend := true } twoSplits abcd {} { notsent := [true] }
    {} [{}, {}, {}, {}] ⟨abcd.data, 4, {}⟩
    [((⟨.split, {}, 1, 0, 0⟩, 0), 1), ((⟨.split, {}, 2, 0, 0⟩, 0), 2)]
  · simp [NoRand, twoSplits]
  · simp [AllSent]
  · rfl
  · refine ⟨rfl, by decide, fun _ => rfl, ?_⟩
    · rintro ⟨y, hy, -, hzero⟩
      cases hy
      exact absurd hzero (by decide)
  · decide

/-- The second position ends the walk, or is skipped when the request waited
behind the first. -/
def backAndForth : DesyncParams :=
  { parts := [⟨.split, {}, 2, 0, 0⟩, ⟨.split, {}, 1, 0, 0⟩, ⟨.split, {}, 3, 0, 0⟩] }

theorem wait_skips_the_end :
    ∃ k p, desync {} backAndForth {} (abcd.conn {} {}) = some (4, false, k) ∧
      run (resume {} backAndForth) (start abcd {} { notsent := [true] }) [{}, {}] = some p ∧
      p.done = true ∧ sends k.sock.log = [.sent (.request 0) [97, 98] false 2,
        .sent (.request 2) [99, 100] false 2] ∧
      sends p.conn.sock.log = [.sent (.request 0) [97, 98] false 2,
        .sent (.request 2) [99] false 1, .sent (.request 3) [100] false 1] := by
  exact ⟨_, _, rfl, rfl, rfl, by decide, by decide⟩

end Suspension
