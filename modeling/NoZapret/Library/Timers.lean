import Mathlib.Data.List.DropRight

/-!
# A queue of timers

Timers in the order of their deadlines, at most one for a slot. A slot that has one keeps
it. `Lasts P d` says that no timer of the slots in `P` runs out before `d`; `Sorted` is the
order.
-/

namespace Timers

universe u
variable {S : Type u}

structure Timer (S : Type u) where
  slot : S
  deadline : Int
  deriving DecidableEq, Repr

def Lasts (P : S → Prop) (d : Int) (ts : List (Timer S)) : Prop :=
  ∀ t ∈ ts, P t.slot → d ≤ t.deadline

instance (P : S → Prop) [DecidablePred P] (d : Int) (ts : List (Timer S)) :
    Decidable (Lasts P d ts) :=
  inferInstanceAs (Decidable (∀ t ∈ ts, P t.slot → d ≤ t.deadline))

variable {P : S → Prop} {d d' : Int} {s : S} {ts us : List (Timer S)} {t : Timer S}

lemma Lasts.subset (h : Lasts P d ts) (hsub : us ⊆ ts) : Lasts P d us :=
  fun t ht => h t (hsub ht)

/-- The earliest timer is the first. -/
def Sorted (ts : List (Timer S)) : Prop := ts.Pairwise fun t u => t.deadline ≤ u.deadline

/-- The last of the timers in front is early, and the others are no later. -/
lemma Sorted.early (h : Sorted ts)
    (ht : t ∈ ts.rdropWhile fun t => decide (d ≤ t.deadline)) : t.deadline < d := by
  have hne := List.ne_nil_of_mem ht
  have hlast := List.rdropWhile_last_not _ ts hne
  have hsorted : Sorted (ts.rdropWhile fun t => decide (d ≤ t.deadline)) :=
    h.sublist (List.rdropWhile_prefix _ _).sublist
  rw [decide_eq_true_eq, Int.not_le] at hlast
  rw [← List.dropLast_append_getLast hne] at hsorted ht
  rw [List.mem_append, List.mem_singleton] at ht
  rcases ht with ht | rfl
  · have hle := (List.pairwise_append.mp hsorted).2.2 t ht _ List.mem_cons_self
    omega
  · exact hlast

lemma late (ht : t ∈ ts.rtakeWhile fun t => decide (d ≤ t.deadline)) : d ≤ t.deadline :=
  of_decide_eq_true (List.mem_rtakeWhile_imp (p := fun t : Timer S => decide (d ≤ t.deadline)) ht)

variable [DecidableEq S]

/-- Behind the last timer with an earlier deadline. -/
def set (ts : List (Timer S)) (s : S) (deadline : Int) : List (Timer S) :=
  if ts.any (fun t => t.slot == s) then ts
  else
    ts.rdropWhile (fun t => decide (deadline ≤ t.deadline)) ++
      ⟨s, deadline⟩ :: ts.rtakeWhile (fun t => decide (deadline ≤ t.deadline))

def remove (ts : List (Timer S)) (s : S) : List (Timer S) :=
  ts.filter fun t => t.slot != s

lemma mem_set (h : t ∈ set ts s d) : t ∈ ts ∨ t = ⟨s, d⟩ := by
  unfold set at h
  split at h
  · exact .inl h
  · rw [List.mem_append, List.mem_cons] at h
    rcases h with h | rfl | h
    · exact .inl ((List.rdropWhile_prefix _ _).subset h)
    · exact .inr rfl
    · exact .inl ((List.rtakeWhile_suffix _ _).subset h)

lemma mem_remove (h : t ∈ remove ts s) : t ∈ ts ∧ t.slot ≠ s := by
  simpa only [remove, List.mem_filter, bne_iff_ne] using h

lemma Lasts.set (h : Lasts P d ts) (hle : P s → d ≤ d') : Lasts P d (set ts s d') := by
  intro t ht hP
  rcases mem_set ht with ht | rfl
  · exact h t ht hP
  · exact hle hP

lemma Sorted.set (h : Sorted ts) : Sorted (set ts s d) := by
  unfold Timers.set
  split
  · exact h
  · refine List.pairwise_append.mpr ⟨h.sublist (List.rdropWhile_prefix _ _).sublist, ?_, ?_⟩
    · exact List.pairwise_cons.mpr ⟨fun t ht => late ht,
        h.sublist (List.rtakeWhile_suffix _ _).sublist⟩
    · intro t ht u hu
      have hearly := h.early ht
      rw [List.mem_cons] at hu
      rcases hu with rfl | hu
      · exact Int.le_of_lt hearly
      · have hlate := late hu
        omega

lemma Sorted.remove (h : Sorted ts) : Sorted (remove ts s) :=
  h.sublist List.filter_sublist

lemma Lasts.remove (h : Lasts P d ts) : Lasts P d (remove ts s) :=
  h.subset fun _ ht => (mem_remove ht).1

end Timers
