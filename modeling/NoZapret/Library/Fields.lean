import Mathlib.Data.List.Basic
import Mathlib.Tactic.Lemma

/-!
# Texts of separated fields

`(F sep){lo,hi}F` of a regular expression, and the fields that its text splits into.
-/

namespace Fields

universe u
variable {α : Type u} {sep : α} {F : List α → Prop} {lo hi : Nat}

def Matches (sep : α) (F : List α → Prop) (lo hi : Nat) (t : List α) : Prop :=
  ∃ (gs : List (List α)) (last : List α), lo ≤ gs.length ∧ gs.length ≤ hi ∧ (∀ g ∈ gs, F g) ∧
    F last ∧ t = gs.flatMap (· ++ [sep]) ++ last

lemma intercalate_snoc (gs : List (List α)) (last : List α) :
    [sep].intercalate (gs ++ [last]) = gs.flatMap (· ++ [sep]) ++ last := by
  induction gs with
  | nil => simp
  | cons g gs ih =>
    match gs, ih with
    | [], _ => simp [List.intercalate_cons_cons]
    | g' :: gs, ih =>
      rw [List.cons_append, List.cons_append, List.intercalate_cons_cons, ← List.cons_append, ih]
      simp only [List.flatMap_cons, List.append_assoc]

theorem matches_iff [DecidableEq α] (hsep : ∀ g, F g → sep ∉ g) (t : List α) :
    Matches sep F lo hi t ↔
      lo + 1 ≤ (t.splitOn sep).length ∧ (t.splitOn sep).length ≤ hi + 1 ∧
        ∀ f ∈ t.splitOn sep, F f := by
  constructor
  · rintro ⟨gs, last, hlo, hhi, hgs, hlast, rfl⟩
    have hall : ∀ f ∈ gs ++ [last], F f := by
      intro f hf
      rcases List.mem_append.mp hf with hf | hf
      · exact hgs f hf
      · rw [List.mem_singleton.mp hf]
        exact hlast
    have hsplit := List.splitOn_intercalate sep (fun f hf => hsep f (hall f hf))
      (List.append_ne_nil_of_right_ne_nil gs (List.cons_ne_nil last []))
    rw [intercalate_snoc] at hsplit
    rw [hsplit, List.length_append, List.length_singleton]
    exact ⟨by omega, by omega, hall⟩
  · rintro ⟨hlo, hhi, hall⟩
    have hne := List.splitOn_ne_nil sep t
    have hlast := List.dropLast_concat_getLast hne
    have hlen := congrArg List.length hlast
    rw [List.length_append, List.length_singleton] at hlen
    refine ⟨(t.splitOn sep).dropLast, (t.splitOn sep).getLast hne, by omega, by omega, ?_, ?_, ?_⟩
    · exact fun g hg => hall g (List.dropLast_subset _ hg)
    · exact hall _ (List.getLast_mem hne)
    · rw [← intercalate_snoc, hlast, List.intercalate_splitOn]

/-- A text is cut at its first separator in one way. -/
lemma cut_inj {x x' y y' : List α} (hx : sep ∉ x) (hx' : sep ∉ x')
    (h : x ++ sep :: y = x' ++ sep :: y') : x = x' ∧ y = y' := by
  induction x generalizing x' with
  | nil =>
    match x', hx', h with
    | [], _, h => exact ⟨rfl, (List.cons.inj h).2⟩
    | c :: x', hx', h => exact absurd (List.mem_cons.mpr (.inl (List.cons.inj h).1)) hx'
  | cons c x ih =>
    match x', hx', h with
    | [], _, h => exact absurd (List.mem_cons.mpr (.inl (List.cons.inj h).1.symm)) hx
    | c' :: x', hx', h =>
      obtain ⟨rfl, htail⟩ := List.cons.inj h
      obtain ⟨rfl, rfl⟩ := ih (fun hm => hx (List.mem_cons_of_mem _ hm))
        (fun hm => hx' (List.mem_cons_of_mem _ hm)) htail
      exact ⟨rfl, rfl⟩

end Fields
