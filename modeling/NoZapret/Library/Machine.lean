import Mathlib.Data.List.Basic

/-!
# Machines that read a stream

A machine takes one element at a time and may stop for good. However its input is cut, it
ends as it would on all of it at once.
-/

namespace Machine

universe u v
variable {S : Type u} {A : Type v}

/-- `false` where the machine has stopped; what is left then is not read. -/
def feed (step : S → A → Bool × S) : S → List A → Bool × S
  | s, [] => (true, s)
  | s, x :: xs =>
    match step s x with
    | (true, s) => feed step s xs
    | (false, s) => (false, s)

variable {step : S → A → Bool × S} {s s' : S}

@[simp] lemma feed_nil : feed step s [] = (true, s) := rfl

lemma feed_cons {x : A} {xs : List A} (h : step s x = (true, s')) :
    feed step s (x :: xs) = feed step s' xs := by
  simp only [feed, h]

lemma feed_stop {x : A} {xs : List A} (h : step s x = (false, s')) :
    feed step s (x :: xs) = (false, s') := by
  simp only [feed, h]

theorem feed_append (xs ys : List A) :
    feed step s (xs ++ ys) =
      if (feed step s xs).1 then feed step (feed step s xs).2 ys else feed step s xs := by
  induction xs generalizing s with
  | nil => rfl
  | cons x xs ih =>
    rcases hx : step s x with ⟨go, s'⟩
    cases go with
    | true => rw [List.cons_append, feed_cons hx, feed_cons hx, ih]
    | false =>
      rw [List.cons_append, feed_stop hx, feed_stop hx]
      rfl

/-- A list of some length cut in any way. -/
structure Cut (xs : List A) where
  chunks : List (List A)
  nonempty : ∀ c ∈ chunks, c ≠ []
  whole : chunks.flatten = xs

end Machine
