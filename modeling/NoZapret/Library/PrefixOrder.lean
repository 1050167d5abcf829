import Mathlib.Data.Set.Basic
import Mathlib.Order.Basic
import NoZapret.Library.SearchTree

/-!
# Prefixes as keys of a search tree

Two texts are compared on their common length only. Texts of which one is a prefix of the other
come out equal, so the comparison orders those sets in which no text is a prefix of another: such
an antichain can be kept in a search tree, and a search in it finds what is compatible with the
query.
-/

namespace PrefixOrder

open SearchTree

universe u v

def Compat {α : Type u} (p q : List α) : Prop := p <+: q ∨ q <+: p

lemma Compat.symm {α : Type u} {p q : List α} (h : Compat p q) : Compat q p := Or.symm h

/-- Of the texts that have been put in, some are stored, and one of them is a prefix of each. -/
structure Represents {α : Type u} (stored : List (List α)) (added : Set (List α)) : Prop where
  sub : ∀ p ∈ stored, p ∈ added
  covers : ∀ p ∈ added, ∃ q ∈ stored, q <+: p

/-- A query meets what is stored exactly where it meets what has been put in. -/
theorem Represents.compat_iff {α : Type u} {stored : List (List α)} {added : Set (List α)}
    (h : Represents stored added) (q : List α) :
    (∃ p ∈ stored, Compat q p) ↔ ∃ p ∈ added, Compat q p := by
  constructor
  · rintro ⟨p, hp, hqp⟩
    exact ⟨p, h.sub p hp, hqp⟩
  · rintro ⟨p, hp, hqp⟩
    obtain ⟨s, hs, hsp⟩ := h.covers p hp
    refine ⟨s, hs, ?_⟩
    rcases hqp with hqp | hpq
    · exact List.prefix_or_prefix_of_prefix hqp hsp
    · exact .inr (hsp.trans hpq)

variable {α : Type u} [LinearOrder α]

def cmpFront : List α → List α → Ordering
  | [], _ => .eq
  | _ :: _, [] => .eq
  | a :: p, b :: q => if a = b then cmpFront p q else if a < b then .lt else .gt

section Compare

variable {p q r p' q' : List α} {n : Nat}

@[simp] lemma cmpFront_nil : cmpFront [] q = .eq := rfl

@[simp] lemma cmpFront_nil_right : cmpFront p [] = .eq := by
  cases p <;> rfl

lemma cmpFront_cons {a b : α} : cmpFront (a :: p) (b :: q) =
    if a = b then cmpFront p q else if a < b then .lt else .gt := rfl

lemma cmpFront_eq_iff : cmpFront p q = .eq ↔ Compat p q := by
  unfold Compat
  induction p generalizing q with
  | nil => simp
  | cons a p ih =>
    cases q with
    | nil => simp
    | cons b q =>
      simp only [cmpFront_cons, List.cons_prefix_cons]
      by_cases hab : a = b
      · subst hab
        simp [ih]
      · have hba : b ≠ a := fun h => hab h.symm
        rw [if_neg hab]
        simp only [hab, hba, false_and, or_self, iff_false]
        split <;> simp

lemma cmpFront_swap : (cmpFront p q).swap = cmpFront q p := by
  induction p generalizing q with
  | nil => simp
  | cons a p ih =>
    cases q with
    | nil => rfl
    | cons b q =>
      simp only [cmpFront_cons]
      rcases lt_trichotomy a b with hlt | rfl | hgt
      · simp [hlt, hlt.ne, hlt.ne', hlt.not_gt]
      · simp [ih]
      · simp [hgt, hgt.ne, hgt.ne', hgt.not_gt]

lemma cmpFront_gt_iff : cmpFront p q = .gt ↔ cmpFront q p = .lt := by
  rw [← cmpFront_swap (p := q)]
  cases cmpFront q p <;> simp

/-- On the earlier of the two places where they part. -/
theorem cmpFront_trans (hpq : cmpFront p q = .lt) (hqr : cmpFront q r = .lt) :
    cmpFront p r = .lt := by
  induction p generalizing q r with
  | nil => cases hpq
  | cons a p ih =>
    cases q with
    | nil => cases hpq
    | cons b q =>
      cases r with
      | nil => cases hqr
      | cons c r =>
        simp only [cmpFront_cons] at hpq hqr ⊢
        by_cases hab : a = b
        · subst hab
          rw [if_pos rfl] at hpq
          by_cases hac : a = c
          · rw [if_pos hac] at hqr ⊢
            exact ih hpq hqr
          · rw [if_neg hac] at hqr ⊢
            exact hqr
        · rw [if_neg hab] at hpq
          have hlt : a < b := by
            by_contra h
            rw [if_neg h] at hpq
            cases hpq
          by_cases hbc : b = c
          · subst hbc
            rw [if_neg hab, if_pos hlt]
          · rw [if_neg hbc] at hqr
            have hlt' : b < c := by
              by_contra h
              rw [if_neg h] at hqr
              cases hqr
            rw [if_neg (hlt.trans hlt').ne, if_pos (hlt.trans hlt')]

lemma cmpFront_irrefl (p : List α) : cmpFront p p ≠ .lt := by
  rw [(cmpFront_eq_iff).mpr (.inl (List.prefix_refl p))]
  simp

lemma cmpFront_asymm (h : cmpFront p q = .lt) : cmpFront q p ≠ .lt :=
  fun h' => cmpFront_irrefl p (cmpFront_trans h h')

lemma cmpFront_append (h : p.length = q.length) :
    cmpFront (p ++ p') (q ++ q') = (cmpFront p q).then (cmpFront p' q') := by
  induction p generalizing q with
  | nil =>
    cases List.length_eq_zero_iff.mp h.symm
    simp
  | cons a p ih =>
    cases q with
    | nil => cases h
    | cons b q =>
      simp only [List.cons_append, cmpFront_cons]
      by_cases hab : a = b
      · rw [if_pos hab, if_pos hab, ih (Nat.succ.inj h)]
      · rw [if_neg hab, if_neg hab]
        split <;> rfl

/-- What lies behind the shorter text does not count. -/
lemma cmpFront_take (h : p.length ≤ n ∨ q.length ≤ n) :
    cmpFront (p.take n) (q.take n) = cmpFront p q := by
  induction p generalizing q n with
  | nil => simp
  | cons a p ih =>
    cases q with
    | nil => simp
    | cons b q =>
      cases n with
      | zero => simp at h
      | succ n =>
        simp only [List.length_cons, Nat.add_le_add_iff_right] at h
        simp only [List.take_succ_cons, cmpFront_cons, ih h]

end Compare

section Tree

variable {β : Type v} {key : β → List α} {t : BinTree β} {b v y : β} {q : List α}

/-- The keys stand in order, and none is a prefix of another. -/
def Antichain (key : β → List α) (l : List β) : Prop :=
  l.Pairwise fun a b => cmpFront (key a) (key b) = .lt

lemma Antichain.compat_unique {l : List β} (h : Antichain key l) {a b : β} (ha : a ∈ l)
    (hb : b ∈ l) (hab : Compat (key a) (key b)) : a = b := by
  have heq : cmpFront (key a) (key b) = .eq := (cmpFront_eq_iff).mpr hab
  obtain ⟨i, hi, rfl⟩ := List.mem_iff_getElem.mp ha
  obtain ⟨j, hj, rfl⟩ := List.mem_iff_getElem.mp hb
  rcases lt_trichotomy i j with hij | rfl | hji
  · rw [List.pairwise_iff_getElem.mp h i j hi hj hij] at heq
    cases heq
  · rfl
  · rw [(cmpFront_gt_iff).mpr (List.pairwise_iff_getElem.mp h j i hj hi hji)] at heq
    cases heq

lemma Antichain.nodup {l : List β} (h : Antichain key l) : l.Nodup := by
  refine h.imp ?_
  rintro a b hab rfl
  exact cmpFront_irrefl _ hab

/-- An antichain stands in one order only. -/
theorem Antichain.ext {l l' : List β} (h : Antichain key l) (h' : Antichain key l')
    (hmem : ∀ x, x ∈ l ↔ x ∈ l') : l = l' := by
  refine List.Perm.eq_of_pairwise ?_ h h' ((List.perm_ext_iff_of_nodup h.nodup h'.nodup).mpr hmem)
  exact fun a b _ _ hab hba => absurd hba (cmpFront_asymm hab)

/-- A search finds something as soon as something is compatible. -/
theorem find_iff (h : Antichain key t.inorder) :
    (∃ v, t.find (fun x => cmpFront q (key x)) = some v) ↔ ∃ b ∈ t.inorder, Compat q (key b) := by
  constructor
  · rintro ⟨v, hv⟩
    obtain ⟨hmem, heq⟩ := find_some hv
    exact ⟨v, hmem, (cmpFront_eq_iff).mp heq⟩
  · rintro ⟨b, hb, hqb⟩
    have hturn : cmpFront q (key b) = .eq := (cmpFront_eq_iff).mpr hqb
    -- whoever stands beside the query stands on the same side of what the query is compatible with
    refine find_of_mem (fun _ _ h => cmpFront_asymm h) h ?_ ?_ hb hturn
    · intro x hx hqx c hc hqc
      by_contra hnot
      have hxc : cmpFront (key x) (key c) = .lt := by
        cases hcmp : cmpFront (key x) (key c) with
        | lt => rfl
        | eq =>
          cases h.compat_unique hx hc ((cmpFront_eq_iff).mp hcmp)
          rw [hqx] at hqc
          cases hqc
        | gt => exact absurd ((cmpFront_gt_iff).mp hcmp) hnot
      rw [cmpFront_trans hqx hxc] at hqc
      cases hqc
    · intro x hx hqx c hc hqc
      by_contra hnot
      have hcx : cmpFront (key c) (key x) = .lt := by
        cases hcmp : cmpFront (key c) (key x) with
        | lt => rfl
        | eq =>
          cases h.compat_unique hc hx ((cmpFront_eq_iff).mp hcmp)
          rw [hqx] at hqc
          cases hqc
        | gt => exact absurd ((cmpFront_gt_iff).mp hcmp) hnot
      have hcq := cmpFront_trans hcx ((cmpFront_gt_iff).mp hqx)
      rw [← cmpFront_gt_iff, hqc] at hcq
      cases hcq

/-- What is stored is found under its own key. -/
theorem find_stored (h : Antichain key t.inorder) (hb : b ∈ t.inorder) :
    t.find (fun x => cmpFront (key b) (key x)) = some b := by
  obtain ⟨v, hv⟩ := (find_iff h).mpr ⟨b, hb, .inl (List.prefix_refl _)⟩
  obtain ⟨hmem, heq⟩ := find_some hv
  rw [hv, h.compat_unique hmem hb ((cmpFront_eq_iff).mp heq).symm]

/-- What is compatible with nothing can be put in. -/
theorem insert_antichain (h : Antichain key t.inorder)
    (hnone : t.find (fun x => cmpFront (key y) (key x)) = none) :
    Antichain key (t.insert (fun x => cmpFront (key y) (key x)) y).inorder :=
  insert_sorted (fun _ _ _ => cmpFront_trans) (fun _ _ hlt => hlt)
    (fun _ _ hgt => (cmpFront_gt_iff).mp hgt) h hnone

end Tree

end PrefixOrder
