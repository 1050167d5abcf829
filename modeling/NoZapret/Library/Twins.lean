import Mathlib.Data.Option.Basic

/-!
# Two runs side by side

`Both r` relates two partial computations that fail together, or succeed with results
related by `r`. The rules follow the two runs through a sequence of steps.
-/

namespace Twins

universe u v
variable {α α' : Type u} {β β' : Type v}

inductive Both (r : α → β → Prop) : Option α → Option β → Prop where
  | fail : Both r none none
  | ok {a : α} {b : β} (h : r a b) : Both r (some a) (some b)

variable {r : α → β → Prop} {s : α' → β' → Prop} {x : Option α} {y : Option β}

lemma both_self {r : α → α → Prop} (x : Option α) (h : ∀ a, x = some a → r a a) : Both r x x := by
  cases x with
  | none => exact .fail
  | some a => exact .ok (h a rfl)

lemma Both.bind {f : α → Option α'} {g : β → Option β'} (h : Both r x y)
    (hf : ∀ a b, x = some a → r a b → Both s (f a) (g b)) :
    Both s (x.bind f) (y.bind g) := by
  cases h with
  | fail => exact .fail
  | ok hr => exact hf _ _ rfl hr

lemma Both.map {f : α → α'} {g : β → β'} (h : Both r x y) (hf : ∀ a b, r a b → s (f a) (g b)) :
    Both s (x.map f) (y.map g) := by
  cases h with
  | fail => exact .fail
  | ok hr => exact .ok (hf _ _ hr)

lemma Both.imp {r' : α → β → Prop} (h : Both r x y) (hr : ∀ a b, r a b → r' a b) : Both r' x y := by
  cases h with
  | fail => exact .fail
  | ok h => exact .ok (hr _ _ h)

lemma Both.eq {r : α → α → Prop} {x y : Option α} (h : Both r x y) (hr : ∀ a b, r a b → a = b) :
    x = y := by
  cases h with
  | fail => rfl
  | ok h => rw [hr _ _ h]

end Twins
