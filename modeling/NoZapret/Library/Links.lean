import Mathlib.Data.List.DropRight
import Mathlib.Data.List.Nodup
import Mathlib.Logic.Equiv.Basic

/-!
# Lists that are linked in both directions

The nodes of a doubly linked list as a list, and what their two links then are. A segment has
a node in front of it and one behind it, or none.
-/

namespace Links

universe u
variable {α : Type u}

/-- From `p` to `q` in both directions, over the nodes of the list. -/
def Linked (prev next : α → Option α) : Option α → List α → Option α → Prop
  | _, [], _ => True
  | p, a :: l, q => prev a = p ∧ next a = l.head?.or q ∧ Linked prev next (some a) l q

variable {prev next prev' next' : α → Option α} {p q : Option α} {a b v : α} {l xs ys : List α}

lemma getLast?_cons_or : ((a :: l).getLast?).or p = l.getLast?.or (some a) := by
  rw [List.getLast?_cons]
  cases l.getLast? <;> rfl

lemma linked_append : Linked prev next p (xs ++ ys) q ↔
    Linked prev next p xs (ys.head?.or q) ∧ Linked prev next (xs.getLast?.or p) ys q := by
  induction xs generalizing p with
  | nil => simp only [List.nil_append, Linked, true_and, List.getLast?_nil, Option.none_or]
  | cons a xs ih =>
    simp only [List.cons_append, Linked, ih, List.head?_append, Option.or_assoc, getLast?_cons_or,
      and_assoc]

lemma linked_singleton : Linked prev next p [a] q ↔ prev a = p ∧ next a = q := by
  simp only [Linked, List.head?_nil, Option.none_or, and_true]

lemma linked_concat : Linked prev next p (xs ++ [a]) q ↔
    Linked prev next p xs (some a) ∧ prev a = xs.getLast?.or p ∧ next a = q := by
  rw [linked_append, linked_singleton, List.head?_cons, Option.some_or]

/-- Links of other nodes do not matter. -/
lemma Linked.congr (h : Linked prev next p l q)
    (hsame : ∀ a ∈ l, prev' a = prev a ∧ next' a = next a) : Linked prev' next' p l q := by
  induction l generalizing p with
  | nil => trivial
  | cons a l ih =>
    obtain ⟨hprev, hnext, hrest⟩ := h
    obtain ⟨hp, hn⟩ := hsame a List.mem_cons_self
    exact ⟨hp.trans hprev, hn.trans hnext,
      ih hrest fun b hb => hsame b (List.mem_cons_of_mem a hb)⟩

/-- Where a node stands. -/
lemma Linked.at (h : Linked prev next p (xs ++ a :: ys) q) :
    prev a = xs.getLast?.or p ∧ next a = ys.head?.or q := by
  have hrest := ((linked_append).mp h).2
  exact ⟨hrest.1, hrest.2.1⟩

/-- The node behind one of the list is in the list, and that one is in front of it. -/
lemma Linked.next_some (h : Linked prev next p l none) (ha : a ∈ l) (hab : next a = some b) :
    b ∈ l ∧ prev b = some a := by
  obtain ⟨xs, ys, rfl⟩ := List.append_of_mem ha
  rw [h.at.2, Option.or_none] at hab
  obtain ⟨zs, rfl⟩ := List.head?_eq_some_iff.mp hab
  rw [List.append_cons] at h ⊢
  refine ⟨by simp, ?_⟩
  rw [h.at.1]
  simp

lemma Linked.prev_some (h : Linked prev next none l q) (hb : b ∈ l) (hba : prev b = some a) :
    a ∈ l ∧ next a = some b := by
  obtain ⟨xs, ys, rfl⟩ := List.append_of_mem hb
  rw [h.at.1, Option.or_none] at hba
  obtain ⟨zs, rfl⟩ := List.getLast?_eq_some_iff.mp hba
  rw [List.append_assoc, List.singleton_append] at h ⊢
  refine ⟨by simp, ?_⟩
  rw [h.at.2]
  simp

/-- No node is next to itself. -/
lemma Linked.next_ne (h : Linked prev next p l none) (hl : l.Nodup) (ha : a ∈ l) :
    next a ≠ some a := by
  obtain ⟨xs, ys, rfl⟩ := List.append_of_mem ha
  rw [h.at.2, Option.or_none]
  intro hself
  obtain ⟨zs, rfl⟩ := List.head?_eq_some_iff.mp hself
  have hnodup := (List.nodup_append.mp hl).2.1
  exact (List.nodup_cons.mp hnodup).1 List.mem_cons_self

/-- The nodes change names. -/
lemma Linked.relabel (h : Linked prev next p l q) (σ : Equiv.Perm α)
    (hlinks : ∀ a ∈ l, prev' (σ a) = (prev a).map σ ∧ next' (σ a) = (next a).map σ) :
    Linked prev' next' (p.map σ) (l.map σ) (q.map σ) := by
  induction l generalizing p with
  | nil => trivial
  | cons a l ih =>
    obtain ⟨hprev, hnext, hrest⟩ := h
    obtain ⟨hp, hn⟩ := hlinks a List.mem_cons_self
    refine ⟨by rw [hp, hprev], ?_, ih hrest fun b hb => hlinks b (List.mem_cons_of_mem a hb)⟩
    rw [hn, hnext, List.head?_map, Option.map_or]

section Swop

/-- Two links that are opposite to each other at the nodes of a list. -/
structure Opposite (next prev : α → Option α) (l : List α) : Prop where
  forth : ∀ {a b}, a ∈ l → next a = some b → b ∈ l ∧ prev b = some a
  back : ∀ {a b}, b ∈ l → prev b = some a → a ∈ l ∧ next a = some b
  ne : ∀ {a}, a ∈ l → next a ≠ some a

lemma Linked.opposite (h : Linked prev next none l none) (hl : l.Nodup) : Opposite next prev l :=
  ⟨h.next_some, h.prev_some, h.next_ne hl⟩

lemma Opposite.symm (h : Opposite next prev l) : Opposite prev next l :=
  ⟨h.back, h.forth, fun ha hself => h.ne ha (h.back ha hself).2⟩

variable [DecidableEq α] {c n x : α}

/-- The links in one direction once `c` and `n` have changed places; `prev` are those in the
other direction. -/
def swopped (next prev : α → Option α) (c n x : α) : Option α :=
  if x = n then if next c = some n then some c else next c
  else if x = c then if next n = some c then some n else next n
  else if prev c = some x then some n
  else if prev n = some x then some c
  else next x

/-- Each link goes from the new name to the new name. -/
lemma Opposite.swopped (h : Opposite next prev l) (hc : c ∈ l) (hn : n ∈ l) (hne : c ≠ n)
    (ha : a ∈ l) :
    swopped next prev c n (Equiv.swap c n a) = (next a).map (Equiv.swap c n) := by
  by_cases hac : a = c
  · subst hac
    rw [Equiv.swap_apply_left, Links.swopped, if_pos rfl]
    cases hnext : next a with
    | none => rfl
    | some b =>
      have hba : b ≠ a := fun hba => h.ne ha (hba ▸ hnext)
      by_cases hbn : b = n
      · rw [if_pos (by rw [hbn]), hbn, Option.map_some, Equiv.swap_apply_right]
      · rw [if_neg (by simpa using hbn), Option.map_some, Equiv.swap_apply_of_ne_of_ne hba hbn]
  by_cases han : a = n
  · subst han
    rw [Equiv.swap_apply_right, Links.swopped, if_neg hne, if_pos rfl]
    cases hnext : next a with
    | none => rfl
    | some b =>
      have hba : b ≠ a := fun hba => h.ne ha (hba ▸ hnext)
      by_cases hbc : b = c
      · rw [if_pos (by rw [hbc]), hbc, Option.map_some, Equiv.swap_apply_left]
      · rw [if_neg (by simpa using hbc), Option.map_some, Equiv.swap_apply_of_ne_of_ne hbc hba]
  rw [Equiv.swap_apply_of_ne_of_ne hac han, Links.swopped, if_neg han, if_neg hac]
  by_cases hpc : prev c = some a
  · rw [if_pos hpc, (h.back hc hpc).2, Option.map_some, Equiv.swap_apply_left]
  by_cases hpn : prev n = some a
  · rw [if_neg hpc, if_pos hpn, (h.back hn hpn).2, Option.map_some, Equiv.swap_apply_right]
  rw [if_neg hpc, if_neg hpn]
  cases hnext : next a with
  | none => rfl
  | some b =>
    have hprev := (h.forth ha hnext).2
    have hbc : b ≠ c := fun hbc => hpc (hbc ▸ hprev)
    have hbn : b ≠ n := fun hbn => hpn (hbn ▸ hprev)
    rw [Option.map_some, Equiv.swap_apply_of_ne_of_ne hbc hbn]

/-- Two nodes change places. -/
theorem Linked.swop (h : Linked prev next none l none) (hl : l.Nodup) (hc : c ∈ l) (hn : n ∈ l)
    (hne : c ≠ n) :
    Linked (swopped prev next n c) (swopped next prev c n) none (l.map (Equiv.swap c n)) none := by
  have hopp := h.opposite hl
  refine h.relabel (Equiv.swap c n) fun a ha => ⟨?_, hopp.swopped hc hn hne ha⟩
  rw [Equiv.swap_comm]
  exact hopp.symm.swopped hn hc hne.symm ha

end Swop

section Patch

variable [DecidableEq α] {β : Type u}

/-- A field of a node is set, unless there is no node. -/
def patch (field : α → β) (p : Option α) (v : β) : α → β :=
  match p with
  | some i => Function.update field i v
  | none => field

lemma patch_apply (field : α → β) (p : Option α) (v : β) (x : α) :
    patch field p v x = if p = some x then v else field x := by
  cases p with
  | none => rfl
  | some i => simp only [patch, Function.update_apply, Option.some.injEq, eq_comm]

lemma patch_of_ne {field : α → β} {p : Option α} {v : β} {x : α} (h : p ≠ some x) :
    patch field p v x = field x := by
  rw [patch_apply, if_neg h]

/-- The last node of a segment goes to another node, and no other node changes. -/
lemma Linked.set_next (h : Linked prev next p xs q) (q' : Option α)
    (hprev : ∀ a ∈ xs, prev' a = prev a)
    (hnext : ∀ a ∈ xs, next' a = if xs.getLast? = some a then q' else next a)
    (hxs : xs.Nodup) : Linked prev' next' p xs q' := by
  rcases xs.eq_nil_or_concat with rfl | ⟨zs, a, rfl⟩
  · trivial
  · rw [List.concat_eq_append] at *
    obtain ⟨hrest, ha, -⟩ := (linked_concat).mp h
    have hza : a ∉ zs := fun hmem => (List.nodup_append.mp hxs).2.2 a hmem a (by simp) rfl
    refine (linked_concat).mpr ⟨?_, ?_, ?_⟩
    · refine hrest.congr fun b hb => ⟨hprev b (by simp [hb]), ?_⟩
      rw [hnext b (by simp [hb]), if_neg]
      rw [List.getLast?_concat, Option.some.injEq]
      rintro rfl
      exact hza hb
    · rw [hprev a (by simp), ha]
    · rw [hnext a (by simp), if_pos (by simp)]

/-- The first node of a segment goes back to another node. -/
lemma Linked.set_prev (h : Linked prev next p ys q) (p' : Option α)
    (hnext : ∀ a ∈ ys, next' a = next a)
    (hprev : ∀ a ∈ ys, prev' a = if ys.head? = some a then p' else prev a)
    (hys : ys.Nodup) : Linked prev' next' p' ys q := by
  cases ys with
  | nil => trivial
  | cons a ys =>
    obtain ⟨-, ha, hrest⟩ := h
    have hya := (List.nodup_cons.mp hys).1
    refine ⟨?_, ?_, ?_⟩
    · rw [hprev a List.mem_cons_self, if_pos (by simp)]
    · rw [hnext a List.mem_cons_self, ha]
    · refine hrest.congr fun b hb => ⟨?_, hnext b (List.mem_cons_of_mem a hb)⟩
      rw [hprev b (List.mem_cons_of_mem a hb), if_neg]
      rw [List.head?_cons, Option.some.injEq]
      rintro rfl
      exact hya hb

/-- A node comes between the two parts of a list. -/
theorem Linked.insert (h : Linked prev next none (xs ++ ys) none) (hl : (xs ++ v :: ys).Nodup) :
    Linked (patch (Function.update prev v xs.getLast?) ys.head? (some v))
      (patch (Function.update next v ys.head?) xs.getLast? (some v)) none (xs ++ v :: ys) none := by
  obtain ⟨hxs, hys⟩ := (linked_append).mp h
  obtain ⟨hnx, hny, hdisj⟩ := List.nodup_append.mp hl
  obtain ⟨hvy, hny⟩ := List.nodup_cons.mp hny
  have hlast : ∀ a, xs.getLast? = some a → a ∈ xs := fun a => List.mem_of_getLast?
  have hhead : ∀ a, ys.head? = some a → a ∈ ys := fun a => List.mem_of_head?
  refine (linked_append).mpr ⟨?_, ?_, ?_, ?_⟩
  · refine hxs.set_next _ (fun a ha => ?_) (fun a ha => ?_) hnx
    · rw [patch_of_ne fun hd => hdisj a ha a (by simp [hhead a hd]) rfl,
        Function.update_of_ne (hdisj a ha v (by simp))]
    · rw [patch_apply, Function.update_of_ne (hdisj a ha v (by simp)), List.head?_cons,
        Option.some_or]
  · rw [patch_of_ne fun hd => hvy (hhead v hd), Function.update_self, Option.or_none]
  · rw [patch_of_ne fun hd => hdisj v (hlast v hd) v (by simp) rfl, Function.update_self,
      Option.or_none]
  · refine hys.set_prev _ (fun a ha => ?_) (fun a ha => ?_) hny
    · have hav : a ≠ v := fun hav => hvy (hav ▸ ha)
      rw [patch_of_ne fun hd => hdisj a (hlast a hd) a (by simp [ha]) rfl, Function.update_of_ne hav]
    · have hav : a ≠ v := fun hav => hvy (hav ▸ ha)
      rw [patch_apply, Function.update_of_ne hav]

/-- A node is taken out of a list. -/
theorem Linked.remove (h : Linked prev next none (xs ++ v :: ys) none)
    (hl : (xs ++ v :: ys).Nodup) :
    Linked (Function.update (patch prev (next v) (prev v)) v none)
      (Function.update (patch next (prev v) (next v)) v none) none (xs ++ ys) none := by
  obtain ⟨hprev, hnext⟩ := h.at
  rw [Option.or_none] at hprev hnext
  obtain ⟨hxs, -, -, hys⟩ := (linked_append).mp h
  obtain ⟨hnx, hny, hdisj⟩ := List.nodup_append.mp hl
  obtain ⟨hvy, hny⟩ := List.nodup_cons.mp hny
  have hlast : ∀ a, xs.getLast? = some a → a ∈ xs := fun a => List.mem_of_getLast?
  have hhead : ∀ a, ys.head? = some a → a ∈ ys := fun a => List.mem_of_head?
  rw [hprev, hnext]
  refine (linked_append).mpr ⟨?_, ?_⟩
  · refine hxs.set_next _ (fun a ha => ?_) (fun a ha => ?_) hnx
    · rw [Function.update_of_ne (hdisj a ha v (by simp)),
        patch_of_ne fun hd => hdisj a ha a (by simp [hhead a hd]) rfl]
    · rw [Function.update_of_ne (hdisj a ha v (by simp)), patch_apply, Option.or_none]
  · refine hys.set_prev _ (fun a ha => ?_) (fun a ha => ?_) hny
    · have hav : a ≠ v := fun hav => hvy (hav ▸ ha)
      rw [Function.update_of_ne hav, patch_of_ne fun hd => hdisj a (hlast a hd) a (by simp [ha]) rfl]
    · have hav : a ≠ v := fun hav => hvy (hav ▸ ha)
      rw [Function.update_of_ne hav, patch_apply, Option.or_none]

end Patch

end Links
