import Mathlib.Data.Finset.Card
import Mathlib.Order.Interval.Finset.Nat

/-!
# Numbers drawn from a counter

Parties below `n` draw numbers from a shared counter, one each at most. The numbers
drawn are distinct and fill the range up to the counter; when every party has drawn,
the counter stands at `n`.
-/

namespace Tickets

structure Issued (n : Nat) (ticket : Nat → Option Nat) (count : Nat) : Prop where
  range : ∀ i t, ticket i = some t → i < n ∧ 1 ≤ t ∧ t ≤ count
  unique : ∀ i j t, ticket i = some t → ticket j = some t → i = j
  drawn : ∀ t, 1 ≤ t → t ≤ count → ∃ i, ticket i = some t

variable {n count i : Nat} {ticket ticket' : Nat → Option Nat}

lemma issued_none (h : ∀ i, ticket i = none) : Issued n ticket 0 := by
  refine ⟨?_, ?_, ?_⟩
  · intro i t hi
    cases (h i).symm.trans hi
  · intro i j t hi
    cases (h i).symm.trans hi
  · intro t h1 h0
    omega

lemma Issued.congr (h : Issued n ticket count) (heq : ∀ i, ticket' i = ticket i) :
    Issued n ticket' count := by
  have hfun : ticket' = ticket := funext heq
  rwa [hfun]

lemma Issued.draw (h : Issued n ticket count) (hi : i < n) (hnone : ticket i = none)
    (hdraw : ticket' i = some (count + 1)) (hrest : ∀ j, j ≠ i → ticket' j = ticket j) :
    Issued n ticket' (count + 1) := by
  refine ⟨?_, ?_, ?_⟩
  · intro j t hj
    by_cases hji : j = i
    · subst hji
      have ht : count + 1 = t := Option.some.inj (hdraw.symm.trans hj)
      omega
    · rw [hrest j hji] at hj
      obtain ⟨hlt, h1, hle⟩ := h.range j t hj
      exact ⟨hlt, h1, by omega⟩
  · intro j k t hj hk
    by_cases hji : j = i <;> by_cases hki : k = i
    · rw [hji, hki]
    · subst hji
      have ht : count + 1 = t := Option.some.inj (hdraw.symm.trans hj)
      rw [hrest k hki] at hk
      have := (h.range k t hk).2.2
      omega
    · subst hki
      have ht : count + 1 = t := Option.some.inj (hdraw.symm.trans hk)
      rw [hrest j hji] at hj
      have := (h.range j t hj).2.2
      omega
    · rw [hrest j hji] at hj
      rw [hrest k hki] at hk
      exact h.unique j k t hj hk
  · intro t h1 hle
    by_cases ht : t = count + 1
    · exact ⟨i, by rw [hdraw, ht]⟩
    · obtain ⟨j, hj⟩ := h.drawn t h1 (by omega)
      have hji : j ≠ i := by
        rintro rfl
        cases hnone.symm.trans hj
      exact ⟨j, by rw [hrest j hji, hj]⟩

/-- When all have drawn, the last number is the number of parties. -/
theorem Issued.all (h : Issued n ticket count) (hall : ∀ i, i < n → ∃ t, ticket i = some t) :
    count = n := by
  have hcard : (Finset.range n).card = (Finset.Icc 1 count).card := by
    apply Finset.card_bij fun i _ => (ticket i).getD 0
    · intro i hi
      obtain ⟨t, ht⟩ := hall i (Finset.mem_range.mp hi)
      obtain ⟨-, h1, hle⟩ := h.range i t ht
      rw [ht, Option.getD_some, Finset.mem_Icc]
      exact ⟨h1, hle⟩
    · intro i hi j hj heq
      obtain ⟨t, ht⟩ := hall i (Finset.mem_range.mp hi)
      obtain ⟨t', ht'⟩ := hall j (Finset.mem_range.mp hj)
      rw [ht, ht', Option.getD_some, Option.getD_some] at heq
      subst heq
      exact h.unique i j t ht ht'
    · intro t ht
      rw [Finset.mem_Icc] at ht
      obtain ⟨i, hi⟩ := h.drawn t ht.1 ht.2
      exact ⟨i, Finset.mem_range.mpr (h.range i t hi).1, by rw [hi, Option.getD_some]⟩
  rw [Finset.card_range, Nat.card_Icc] at hcard
  omega

end Tickets
