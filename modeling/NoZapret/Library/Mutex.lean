import Mathlib.Data.Option.Basic

/-!
# One lock, many threads

A thread is inside when its program counter says so. `Exclusive` ties that to the
holder of the lock; a step of one thread keeps it when the thread stays as it
was, takes the free lock, or gives back the lock it holds.
-/

namespace Mutex

universe u v
variable {T : Type u} {P : Type v}

/-- Only the holder of the lock is inside. -/
def Exclusive (inside : P → Bool) (holder : Option T) (pc : T → P) : Prop :=
  ∀ t, inside (pc t) = true → holder = some t

/-- What one step of `t` does to the lock. -/
inductive Move (inside : P → Bool) (holder holder' : Option T) (t : T) (p p' : P) : Prop where
  | keep (same : holder' = holder) (stay : inside p' = true → inside p = true)
  | take (free : holder = none) (mine : holder' = some t) (entered : inside p' = true)
  | give (mine : holder = some t) (free : holder' = none) (out : inside p' = false)

variable {inside : P → Bool} {holder holder' : Option T} {pc pc' : T → P}

lemma Exclusive.unique (h : Exclusive inside holder pc) {t u : T} (ht : inside (pc t) = true)
    (hu : inside (pc u) = true) : t = u :=
  Option.some.inj ((h t ht).symm.trans (h u hu))

lemma Exclusive.out_of_free (h : Exclusive inside none pc) (t : T) : inside (pc t) = false := by
  cases ht : inside (pc t) with
  | false => rfl
  | true => cases h t ht

theorem Exclusive.step (h : Exclusive inside holder pc) {t : T}
    (hmove : Move inside holder holder' t (pc t) (pc' t))
    (hothers : ∀ u, u ≠ t → inside (pc' u) = true → inside (pc u) = true) :
    Exclusive inside holder' pc' := by
  intro u hu
  by_cases hut : u = t
  · subst hut
    cases hmove with
    | keep same stay => exact same.trans (h u (stay hu))
    | take free mine _ => exact mine
    | give mine free out =>
      rw [out] at hu
      cases hu
  · have hin := hothers u hut hu
    cases hmove with
    | keep same stay => exact same.trans (h u hin)
    | take free mine _ =>
      subst free
      rw [h.out_of_free u] at hin
      cases hin
    | give mine free out => exact absurd (Option.some.inj ((h u hin).symm.trans mine)) hut

end Mutex
