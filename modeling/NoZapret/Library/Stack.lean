import Mathlib.Logic.Function.Basic
import Mathlib.Tactic.Lemma

/-!
# Stacks of linked nodes

A stack is a root and for each node a link to the one below it. `Stacked` tells its nodes from
the top on; a list of them exists only if the links end.
-/

namespace Stack

universe u
variable {α : Type u}

/-- The nodes from `root` on. -/
def Stacked (next : α → Option α) : Option α → List α → Prop
  | root, [] => root = none
  | root, a :: l => root = some a ∧ Stacked next (next a) l

variable {next next' : α → Option α} {root : Option α} {a : α} {l : List α}

/-- Only the links of its own nodes matter. -/
lemma Stacked.congr (h : Stacked next root l) (hnext : ∀ a ∈ l, next' a = next a) :
    Stacked next' root l := by
  induction l generalizing root with
  | nil => exact h
  | cons a l ih =>
    refine ⟨h.1, ?_⟩
    rw [hnext a List.mem_cons_self]
    exact ih h.2 fun b hb => hnext b (List.mem_cons_of_mem a hb)

/-- A node that is not in the stack is put on top. -/
lemma Stacked.push [DecidableEq α] (h : Stacked next root l) (ha : a ∉ l) :
    Stacked (Function.update next a root) (some a) (a :: l) := by
  refine ⟨rfl, ?_⟩
  rw [Function.update_self]
  refine h.congr ?_
  intro b hb
  refine Function.update_of_ne ?_ _ _
  rintro rfl
  exact ha hb

lemma Stacked.pop (h : Stacked next (some a) l) : ∃ rest, l = a :: rest ∧
    Stacked next (next a) rest := by
  cases l with
  | nil => cases h
  | cons b rest =>
    obtain rfl := Option.some.inj h.1
    exact ⟨rest, rfl, h.2⟩

lemma Stacked.empty (h : Stacked next none l) : l = [] := by
  cases l with
  | nil => rfl
  | cons a l => cases h.1

end Stack
