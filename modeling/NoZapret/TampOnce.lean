import NoZapret.Resume

/-!
# How often a request is tampered with

`desync` takes `round_sent != 0` as the sign that `tamp` has run. The sign is
set by the bytes a call reports, so a call that reports none (a refused first
send, a wait behind a decoy) leaves the request to be tampered with again.
-/

namespace TampOnce

open Packets Params Desync Resume Runs

/-- Bytes of the request are accounted when the call starts. -/
def Accounted (p : Progress) (_ : Rands) : Prop := p.done = true ∨ 0 < p.conn.roundSent

section

variable {g : Globals} {dp : DesyncParams}

lemma prepare_accounted {rnd : Rands} {data : Bytes} {n skip : Nat} (h : 0 < skip) :
    prepare g dp rnd data n skip = some ⟨data, n, {}⟩ := by
  have hskip : skip ≠ 0 := by omega
  simp [prepare, hskip]

lemma resume_first {p p' : Progress} {rnd : Rands} {T : Tamped}
    (hT : prepare g dp rnd p.conn.data p.conn.n p.conn.roundSent = some T)
    (h : resume g dp p rnd = some p') : p'.conn.data = T.data ∧ p'.conn.n = T.n := by
  obtain ⟨-, t, e, ht, -, -, hconn, -⟩ := resume_some h
  obtain rfl : T = t := Option.some.inj (hT.symm.trans ht)
  rw [hconn]
  exact ⟨rfl, rfl⟩

/-- A call that finds bytes accounted leaves the request alone and keeps them accounted. -/
lemma resume_accounted {p p' : Progress} {rnd : Rands} (hp : 0 < p.conn.roundSent)
    (h : resume g dp p rnd = some p') :
    0 < p'.conn.roundSent ∧ p'.conn.data = p.conn.data ∧ p'.conn.n = p.conn.n := by
  obtain ⟨hdata, hn⟩ := resume_first (prepare_accounted hp) h
  obtain ⟨-, t, e, -, -, -, hconn, -⟩ := resume_some h
  refine ⟨?_, hdata, hn⟩
  rw [hconn]
  simp only [Conn.advance, Conn.after]
  omega

end

/-- Only the first of the later calls matters: once bytes are accounted they stay so. -/
theorem meets_accounted {g : Globals} {dp : DesyncParams} {p : Progress} (rnds : List Rands)
    (hp : 0 < p.conn.roundSent) : Meets (resume g dp) Accounted p rnds := by
  induction rnds generalizing p with
  | nil => exact trivial
  | cons rnd rnds ih =>
    refine ⟨Or.inr hp, ?_⟩
    intro p' h
    exact ih (resume_accounted hp h).1

end TampOnce
