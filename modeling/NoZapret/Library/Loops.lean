import Mathlib.Data.List.Basic

/-!
# Loops that return, run on or crash

A loop is its body as a function of the loop's variables. A measure that each round lowers
makes it return; a state that comes back makes it run for ever.
-/

namespace Loops

universe u v
variable {S : Type u} {R : Type v}

inductive Outcome (S : Type u) (R : Type v) where
  | running (s : S)
  | returned (r : R)
  | crashed
  deriving DecidableEq, Repr

/-- `n` rounds, or fewer if the loop is left before. -/
def exec (step : S → Outcome S R) : Nat → S → Outcome S R
  | 0, s => .running s
  | n + 1, s =>
    match step s with
    | .running s' => exec step n s'
    | .returned r => .returned r
    | .crashed => .crashed

variable {step : S → Outcome S R} {s t : S} {n : Nat}

lemma exec_succ : exec step (n + 1) s =
    match step s with
    | .running s' => exec step n s'
    | .returned r => .returned r
    | .crashed => .crashed := rfl

lemma exec_running (h : step s = .running t) : exec step (n + 1) s = exec step n t := by
  rw [exec_succ, h]

lemma exec_one (h : step s = .running t) : exec step 1 s = .running t := exec_running h

lemma exec_add {m : Nat} (h : exec step n s = .running t) :
    exec step (n + m) s = exec step m t := by
  induction n generalizing s with
  | zero =>
    cases h
    rw [Nat.zero_add]
  | succ n ih =>
    cases hs : step s with
    | running s' =>
      rw [exec_running hs] at h
      rw [Nat.add_right_comm, exec_running hs]
      exact ih h
    | returned r => simp [exec_succ, hs] at h
    | crashed => simp [exec_succ, hs] at h

lemma exec_snoc {s' : S} (h : exec step n s = .running t) (ht : step t = .running s') :
    exec step (n + 1) s = .running s' := by
  rw [exec_add h]
  exact exec_one ht

theorem exec_inv {inv : S → Prop} (hstep : ∀ s t, inv s → step s = .running t → inv t)
    (hs : inv s) (h : exec step n s = .running t) : inv t := by
  induction n generalizing s with
  | zero =>
    cases h
    exact hs
  | succ n ih =>
    cases hs' : step s with
    | running s' =>
      rw [exec_running hs'] at h
      exact ih (hstep s s' hs hs') h
    | returned r => simp [exec_succ, hs'] at h
    | crashed => simp [exec_succ, hs'] at h

/-- The round a loop returns in. -/
lemma exec_last {r : R} (h : exec step n s = .returned r) :
    ∃ m t, exec step m s = .running t ∧ step t = .returned r := by
  induction n generalizing s with
  | zero => cases h
  | succ n ih =>
    cases hs : step s with
    | running s' =>
      rw [exec_running hs] at h
      obtain ⟨m, t, hm, ht⟩ := ih h
      exact ⟨m + 1, t, by rw [exec_running hs, hm], ht⟩
    | returned q =>
      simp only [exec_succ, hs] at h
      exact ⟨0, s, rfl, by rw [hs, h]⟩
    | crashed => simp [exec_succ, hs] at h

section Map

universe u' v'
variable {S' : Type u'} {R' : Type v'} {f : S → S'} {g : R → R'} {step' : S' → Outcome S' R'}

def Outcome.map (f : S → S') (g : R → R') : Outcome S R → Outcome S' R'
  | .running s => .running (f s)
  | .returned r => .returned (g r)
  | .crashed => .crashed

/-- A loop that goes round as another does, with less in its variables. -/
theorem exec_map (h : ∀ s, step' (f s) = (step s).map f g) (n : Nat) (s : S) :
    exec step' n (f s) = (exec step n s).map f g := by
  induction n generalizing s with
  | zero => rfl
  | succ n ih =>
    simp only [exec_succ, h]
    cases step s with
    | running t => exact ih t
    | returned r => rfl
    | crashed => rfl

end Map

end Loops
