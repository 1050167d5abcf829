import NoZapret.Library.Runs
import NoZapret.SplitLoop

/-!
# Calling the pass again and again

A request that does not go out in one call is resumed: `tcp_send_hook` adds the
return value to `round_sent`, `on_tunnel` adds it to the buffer's offset, and
`part_sent` stays where the last call left it. A call that returns `n - offset`
without asking to wait is the last one. A negative return value closes the
connection, so the step is then not enabled.
-/

namespace Resume

open Block Packets Params Desync Stream DesyncSpec SplitLoop Runs

structure Progress where
  conn : Conn
  done : Bool := false

def start (r : Request) (remote : Restore) (w : Sock) : Progress := { conn := r.conn remote w }

/-- `remote->pair->round_sent += sn` and `val->buff->offset += sn` -/
def Conn.advance (k : Conn) (sn : Nat) : Conn :=
  { k with offset := k.offset + sn, roundSent := k.roundSent + sn }

/-- One more call; `rnd` are the values of `rand()` it draws. -/
def resume (g : Globals) (dp : DesyncParams) (p : Progress) (rnd : Rands) : Option Progress :=
  if p.done then none
  else
    match desync g dp rnd p.conn with
    | none => none
    | some (ret, wait, k) =>
      if ret < 0 then none
      else some ⟨Conn.advance k ret.toNat, !wait && ret == (k.n : Int) - k.offset⟩

lemma resume_some {g : Globals} {dp : DesyncParams} {p p' : Progress} {rnd : Rands}
    (h : resume g dp p rnd = some p') :
    p.done = false ∧ ∃ t e, prepare g dp rnd p.conn.data p.conn.n p.conn.roundSent = some t ∧
      partsLoop (callOf g dp rnd p.conn t) (expand dp.parts) 0 (loopOf p.conn t) = some e ∧
      0 ≤ e.ret ∧ p'.conn = Conn.advance (p.conn.after t e) e.ret.toNat ∧
      p'.done = (!e.wait && e.ret == (t.n : Int) - p.conn.offset) := by
  unfold resume at h
  cases hdone : p.done with
  | true => simp [hdone] at h
  | false =>
    refine ⟨rfl, ?_⟩
    cases hd : desync g dp rnd p.conn with
    | none => simp [hdone, hd] at h
    | some out =>
      obtain ⟨ret, wait, k⟩ := out
      obtain ⟨t, e, ht, he, hout⟩ := desync_some_iff.mp hd
      cases hout
      by_cases hneg : e.ret < 0
      · simp [hdone, hd, hneg] at h
      · simp only [hdone, hd, hneg, Bool.false_eq_true, if_false, Option.some.injEq] at h
        subst h
        exact ⟨t, e, ht, he, by omega, rfl, rfl⟩

/-- The condition on one call: `tamp` does not change the request a second time
(it runs again when the first call sent nothing), and the walk is clean. -/
def cleanCall (g : Globals) (dp : DesyncParams) (T : Tamped) (p : Progress) (rnd : Rands) : Bool :=
  p.done ||
    match prepare g dp rnd p.conn.data p.conn.n p.conn.roundSent with
    | none => false
    | some t => t.data == T.data && t.n == T.n &&
      clean (callOf g dp rnd p.conn t) (expand dp.parts) 0 p.conn.offset t.info
        p.conn.sock.sends p.conn.sock.notsent

/-- Between two calls: what is reported as sent is what the peer can read. -/
structure Held (T : Tamped) (p : Progress) : Prop where
  offset : p.conn.offset ≤ T.n
  stream : stream p.conn.sock.log = part T.data 0 p.conn.offset
  done : p.done = true → p.conn.offset = T.n

theorem resume_held {g : Globals} {dp : DesyncParams} {T : Tamped} (hsplit : SplitOnly dp.parts)
    (hfits : T.n ≤ T.data.length) {p p' : Progress} {rnd : Rands} (hp : Held T p)
    (hok : cleanCall g dp T p rnd = true) (h : resume g dp p rnd = some p') : Held T p' := by
  obtain ⟨hdone, t, e, ht, he, hret, hconn, hdone'⟩ := resume_some h
  simp only [cleanCall, hdone, ht, Bool.false_or, Bool.and_eq_true, beq_iff_eq] at hok
  obtain ⟨⟨hdata, hn⟩, hclean⟩ := hok
  have hbuf : (callOf g dp rnd p.conn t).n ≤ (callOf g dp rnd p.conn t).buffer.length := by
    simpa only [callOf, hdata, hn] using hfits
  have hlp : (loopOf p.conn t).lp ≤ (callOf g dp rnd p.conn t).n := by
    simpa only [loopOf, callOf, hn] using hp.offset
  obtain ⟨e', he', hserved⟩ := partsLoop_served hbuf (splitOnly_rep hsplit) 0 _ hlp hclean
  obtain rfl : e = e' := Option.some.inj (he.symm.trans he')
  obtain ⟨f, hf, hle, hfn, hlog⟩ := hserved.sent hret
  simp only [loopOf, callOf] at hf hle hfn hlog
  have hadv : p.conn.offset + e.ret.toNat = f := by omega
  refine ⟨?_, ?_, ?_⟩
  · simp only [hconn, Conn.advance, Conn.after, hadv]
    omega
  · simp only [hconn, Conn.advance, Conn.after, hadv]
    rw [hlog, hp.stream, hdata, part_append (Nat.zero_le _) hle (by have := hp.offset; omega)]
  · intro hd
    rw [hd, eq_comm, Bool.and_eq_true, beq_iff_eq] at hdone'
    simp only [hconn, Conn.advance, Conn.after, hadv]
    omega

/-- A request of plain splits that is resumed through clean calls reaches the
peer byte for byte, whatever the sends and the polls answer. `T` is the request
as the first call's `tamp` leaves it. -/
theorem resumed_request_intact (g : Globals) (dp : DesyncParams) (r : Request) (remote : Restore)
    (w : Sock) (rnd : Rands) (rnds : List Rands) (T : Tamped) (p : Progress)
    (hsplit : SplitOnly dp.parts) (hlog : w.log = [])
    (hT : prepare g dp rnd r.data r.n 0 = some T)
    (hok : Meets (resume g dp) (fun p rnd => cleanCall g dp T p rnd = true) (start r remote w)
      (rnd :: rnds))
    (hrun : run (resume g dp) (start r remote w) (rnd :: rnds) = some p) :
    stream p.conn.sock.log = part T.data 0 p.conn.offset ∧ p.conn.offset ≤ T.n ∧
      (p.done = true → stream p.conn.sock.log = part T.data 0 T.n) := by
  have hfits := (prepare_fits hT r.fits).2
  have hstart : Held T (start r remote w) := by
    refine ⟨Nat.zero_le _, ?_, ?_⟩
    · simp [start, Request.conn, hlog]
    · intro hd
      cases hd
  have hheld : Held T p :=
    run_preserves (fun _ _ _ hp hok h => resume_held hsplit hfits hp hok h) hstart hok hrun
  refine ⟨hheld.stream, hheld.offset, ?_⟩
  intro hd
  rw [hheld.stream, hheld.done hd]

def abcd : Request := ⟨[97, 98, 99, 100], 4, by decide⟩

def splitAt2 : DesyncParams := { parts := [⟨.split, {}, 2, 0, 0⟩] }

/-- The rest is refused once: two calls, nothing lost. -/
theorem resumed_request_intact_again :
    ∃ p, run (resume {} splitAt2) (start abcd {} { sends := [.all, .again] }) [{}, {}] = some p ∧
      p.done = true ∧ stream p.conn.sock.log = part abcd.data 0 4 := by
  refine ⟨_, rfl, rfl, ?_⟩
  have h := resumed_request_intact {} splitAt2 abcd {} { sends := [.all, .again] } {} [{}]
    ⟨abcd.data, 4, {}⟩ _ (by decide) rfl rfl (by decide) rfl
  exact h.2.2 rfl

/-- A short write of the first part: the rest of the part is never sent. -/
theorem short_write_loses_byte :
    ∃ p, run (resume {} splitAt2) (start abcd {} { sends := [.short 1] }) [{}, {}] = some p ∧
      p.done = true ∧ p.conn.data.take p.conn.n = [97, 98, 99, 100] ∧
      (stream p.conn.sock.log).map Prod.fst = [97, 99, 100] := by
  exact ⟨_, rfl, rfl, by decide, by decide⟩

end Resume
