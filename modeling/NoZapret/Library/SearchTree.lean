import Mathlib.Data.List.Pairwise
import Mathlib.Data.List.TakeWhile
import Mathlib.Tactic.Tauto

/-!
# Search trees with a comparator that is no order

A tree is searched by the turns a query takes: a function from the stored values
to `Ordering`. Nothing is assumed of it at large. The rules below ask only what a
search needs: the values stand in some strict order, and the turns do not lead
away from the values that they call equal. Rebalancing is any change of shape
that keeps the values in order.
-/

namespace SearchTree

universe u
variable {α : Type u}

inductive BinTree (α : Type u) where
  | leaf
  | node (l : BinTree α) (x : α) (r : BinTree α)
  deriving DecidableEq, Repr

namespace BinTree

def inorder : BinTree α → List α
  | leaf => []
  | node l x r => l.inorder ++ x :: r.inorder

def find (turn : α → Ordering) : BinTree α → Option α
  | leaf => none
  | node l x r =>
    match turn x with
    | .lt => l.find turn
    | .gt => r.find turn
    | .eq => some x

/-- A new leaf where the search ends; a tree with an equal value stays as it is. -/
def insert (turn : α → Ordering) (y : α) : BinTree α → BinTree α
  | leaf => node leaf y leaf
  | node l x r =>
    match turn x with
    | .lt => node (l.insert turn y) x r
    | .gt => node l x (r.insert turn y)
    | .eq => node l x r

/-- The first value of `node l x r` and the tree without it. -/
def popMin : BinTree α → α → BinTree α → α × BinTree α
  | leaf, x, r => (x, r)
  | node l y m, x, r => ((popMin l y m).1, node (popMin l y m).2 x r)

/-- The tree below an erased node: its successor takes its place. -/
def join (l : BinTree α) : BinTree α → BinTree α
  | leaf => l
  | node m x r => node l (popMin m x r).1 (popMin m x r).2

def erase (turn : α → Ordering) : BinTree α → BinTree α
  | leaf => leaf
  | node l x r =>
    match turn x with
    | .lt => node (l.erase turn) x r
    | .gt => node l x (r.erase turn)
    | .eq => join l r

/-- The search where a comparison may be undefined. -/
def findM (turn : α → Option Ordering) : BinTree α → Option (Option α)
  | leaf => some none
  | node l x r =>
    match turn x with
    | none => none
    | some .lt => l.findM turn
    | some .gt => r.findM turn
    | some .eq => some (some x)

def insertM (turn : α → Option Ordering) (y : α) : BinTree α → Option (BinTree α)
  | leaf => some (node leaf y leaf)
  | node l x r =>
    match turn x with
    | none => none
    | some .lt => (l.insertM turn y).map fun l => node l x r
    | some .gt => (r.insertM turn y).map fun r => node l x r
    | some .eq => some (node l x r)

def eraseM (turn : α → Option Ordering) : BinTree α → Option (BinTree α)
  | leaf => some leaf
  | node l x r =>
    match turn x with
    | none => none
    | some .lt => (l.eraseM turn).map fun l => node l x r
    | some .gt => (r.eraseM turn).map fun r => node l x r
    | some .eq => some (join l r)

/-- The values changed in place. -/
def map (f : α → α) : BinTree α → BinTree α
  | leaf => leaf
  | node l x r => node (l.map f) (f x) (r.map f)

/-- The values of a list, one below the other. -/
def ofList : List α → BinTree α
  | [] => leaf
  | x :: xs => node leaf x (ofList xs)

end BinTree

/-- What a balanced tree does to its shape after a change. -/
structure Balance (α : Type u) where
  fix : BinTree α → BinTree α
  inorder_fix : ∀ t, (fix t).inorder = t.inorder

section Basic

variable {turn : α → Ordering} {t l r : BinTree α} {v x y : α}

@[simp] lemma inorder_leaf : (BinTree.leaf : BinTree α).inorder = [] := rfl

@[simp] lemma inorder_node : (BinTree.node l x r).inorder = l.inorder ++ x :: r.inorder := rfl

@[simp] lemma inorder_ofList (xs : List α) : (BinTree.ofList xs).inorder = xs := by
  induction xs with
  | nil => rfl
  | cons x xs ih => simp [BinTree.ofList, ih]

@[simp] lemma inorder_map (f : α → α) (t : BinTree α) : (t.map f).inorder = t.inorder.map f := by
  induction t with
  | leaf => rfl
  | node l x r ihl ihr => simp [BinTree.map, ihl, ihr]

lemma popMin_inorder (l : BinTree α) (x : α) (r : BinTree α) :
    (BinTree.popMin l x r).1 :: (BinTree.popMin l x r).2.inorder = (BinTree.node l x r).inorder := by
  induction l generalizing x r with
  | leaf => rfl
  | node l y m ihl _ =>
    have h := ihl y m
    simp only [BinTree.popMin, inorder_node, ← List.cons_append] at h ⊢
    rw [h]

lemma join_inorder (l r : BinTree α) : (BinTree.join l r).inorder = l.inorder ++ r.inorder := by
  cases r with
  | leaf => simp [BinTree.join]
  | node m x r => simp only [BinTree.join, inorder_node, popMin_inorder]

theorem find_some (h : t.find turn = some v) : v ∈ t.inorder ∧ turn v = .eq := by
  induction t with
  | leaf => cases h
  | node l x r ihl ihr =>
    simp only [BinTree.find] at h
    cases hx : turn x with
    | lt =>
      rw [hx] at h
      exact ⟨List.mem_append_left _ (ihl h).1, (ihl h).2⟩
    | gt =>
      rw [hx] at h
      exact ⟨List.mem_append_right _ (List.mem_cons_of_mem _ (ihr h).1), (ihr h).2⟩
    | eq =>
      rw [hx] at h
      cases h
      exact ⟨List.mem_append_right _ List.mem_cons_self, hx⟩

theorem erase_split (h : t.find turn = some v) :
    ∃ before after, t.inorder = before ++ v :: after ∧
      (t.erase turn).inorder = before ++ after := by
  induction t with
  | leaf => cases h
  | node l x r ihl ihr =>
    simp only [BinTree.find] at h
    cases hx : turn x with
    | lt =>
      rw [hx] at h
      obtain ⟨before, after, hl, herase⟩ := ihl h
      exact ⟨before, after ++ x :: r.inorder, by simp [hl], by simp [BinTree.erase, hx, herase]⟩
    | gt =>
      rw [hx] at h
      obtain ⟨before, after, hr, herase⟩ := ihr h
      exact ⟨l.inorder ++ x :: before, after, by simp [hr], by simp [BinTree.erase, hx, herase]⟩
    | eq =>
      rw [hx] at h
      cases h
      exact ⟨l.inorder, r.inorder, rfl, by simp [BinTree.erase, hx, join_inorder]⟩

theorem insert_split (h : t.find turn = none) :
    ∃ front back, t.inorder = front ++ back ∧ (t.insert turn y).inorder = front ++ y :: back := by
  induction t with
  | leaf => exact ⟨[], [], rfl, rfl⟩
  | node l x r ihl ihr =>
    simp only [BinTree.find] at h
    cases hx : turn x with
    | lt =>
      rw [hx] at h
      obtain ⟨front, back, hl, hinsert⟩ := ihl h
      exact ⟨front, back ++ x :: r.inorder, by simp [hl], by simp [BinTree.insert, hx, hinsert]⟩
    | gt =>
      rw [hx] at h
      obtain ⟨front, back, hr, hinsert⟩ := ihr h
      exact ⟨l.inorder ++ x :: front, back, by simp [hr], by simp [BinTree.insert, hx, hinsert]⟩
    | eq =>
      rw [hx] at h
      cases h

theorem mem_insert (h : t.find turn = none) {z : α} :
    z ∈ (t.insert turn y).inorder ↔ z = y ∨ z ∈ t.inorder := by
  obtain ⟨front, back, hsplit, hinsert⟩ := insert_split (y := y) h
  rw [hsplit, hinsert]
  simp only [List.mem_append, List.mem_cons]
  tauto

end Basic

section Defined

variable {turnM : α → Option Ordering} {turn : α → Ordering} {t : BinTree α} {y : α}

/-- Where every comparison is defined, so is the search. -/
lemma findM_eq (h : ∀ x ∈ t.inorder, turnM x = some (turn x)) :
    t.findM turnM = some (t.find turn) := by
  induction t with
  | leaf => rfl
  | node l x r ihl ihr =>
    simp only [inorder_node, List.forall_mem_append, List.forall_mem_cons] at h
    simp only [BinTree.findM, BinTree.find, h.2.1]
    cases turn x with
    | lt => exact ihl h.1
    | eq => rfl
    | gt => exact ihr h.2.2

lemma insertM_eq (h : ∀ x ∈ t.inorder, turnM x = some (turn x)) :
    t.insertM turnM y = some (t.insert turn y) := by
  induction t with
  | leaf => rfl
  | node l x r ihl ihr =>
    simp only [inorder_node, List.forall_mem_append, List.forall_mem_cons] at h
    simp only [BinTree.insertM, BinTree.insert, h.2.1]
    cases turn x with
    | lt => simp [ihl h.1]
    | eq => rfl
    | gt => simp [ihr h.2.2]

lemma eraseM_eq (h : ∀ x ∈ t.inorder, turnM x = some (turn x)) :
    t.eraseM turnM = some (t.erase turn) := by
  induction t with
  | leaf => rfl
  | node l x r ihl ihr =>
    simp only [inorder_node, List.forall_mem_append, List.forall_mem_cons] at h
    simp only [BinTree.eraseM, BinTree.erase, h.2.1]
    cases turn x with
    | lt => simp [ihl h.1]
    | eq => rfl
    | gt => simp [ihr h.2.2]

/-- The search ends at a value that it calls equal. -/
lemma findM_some {v : α} (h : t.findM turnM = some (some v)) :
    v ∈ t.inorder ∧ turnM v = some .eq := by
  induction t with
  | leaf => cases h
  | node l x r ihl ihr =>
    simp only [BinTree.findM] at h
    simp only [inorder_node, List.mem_append, List.mem_cons]
    split at h
    · cases h
    · exact ⟨.inl (ihl h).1, (ihl h).2⟩
    · exact ⟨.inr (.inr (ihr h).1), (ihr h).2⟩
    · next hx =>
      cases h
      exact ⟨.inr (.inl rfl), hx⟩

/-- A search whose comparisons say the same where they are defined ends at the same place. -/
lemma findM_mono {turnM' : α → Option Ordering} {v : Option α}
    (hturn : ∀ x ∈ t.inorder, ∀ o, turnM x = some o → turnM' x = some o)
    (h : t.findM turnM = some v) : t.findM turnM' = some v := by
  induction t with
  | leaf => exact h
  | node l x r ihl ihr =>
    simp only [inorder_node, List.forall_mem_append, List.forall_mem_cons] at hturn
    simp only [BinTree.findM] at h ⊢
    cases hx : turnM x with
    | none =>
      rw [hx] at h
      cases h
    | some o =>
      rw [hx] at h
      rw [hturn.2.1 o hx]
      cases o with
      | lt => exact ihl hturn.1 h
      | eq => exact h
      | gt => exact ihr hturn.2.2 h

lemma mem_insertM {t' : BinTree α} (h : t.insertM turnM y = some t') {z : α}
    (hz : z ∈ t'.inorder) : z = y ∨ z ∈ t.inorder := by
  induction t generalizing t' with
  | leaf =>
    cases h
    exact .inl (by simpa using hz)
  | node l x r ihl ihr =>
    simp only [BinTree.insertM] at h
    simp only [inorder_node, List.mem_append, List.mem_cons]
    split at h
    · cases h
    · obtain ⟨l', hl', rfl⟩ := Option.map_eq_some_iff.mp h
      simp only [inorder_node, List.mem_append, List.mem_cons] at hz
      rcases hz with hz | hz
      · exact (ihl hl' hz).imp_right .inl
      · exact .inr (.inr hz)
    · obtain ⟨r', hr', rfl⟩ := Option.map_eq_some_iff.mp h
      simp only [inorder_node, List.mem_append, List.mem_cons] at hz
      rcases hz with hz | hz | hz
      · exact .inr (.inl hz)
      · exact .inr (.inr (.inl hz))
      · exact (ihr hr' hz).imp_right fun h => .inr (.inr h)
    · cases h
      right
      simpa using hz

/-- Where nothing is found the new value goes in. -/
lemma mem_insertM_self {t' : BinTree α} (hfind : t.findM turnM = some none)
    (h : t.insertM turnM y = some t') : y ∈ t'.inorder := by
  induction t generalizing t' with
  | leaf =>
    cases h
    simp
  | node l x r ihl ihr =>
    simp only [BinTree.insertM] at h
    simp only [BinTree.findM] at hfind
    split at h
    · cases h
    · next hx =>
      obtain ⟨l', hl', rfl⟩ := Option.map_eq_some_iff.mp h
      rw [hx] at hfind
      simp [ihl hfind hl']
    · next hx =>
      obtain ⟨r', hr', rfl⟩ := Option.map_eq_some_iff.mp h
      rw [hx] at hfind
      simp [ihr hfind hr']
    · next hx =>
      rw [hx] at hfind
      cases hfind

lemma mem_eraseM {t' : BinTree α} (h : t.eraseM turnM = some t') {z : α}
    (hz : z ∈ t'.inorder) : z ∈ t.inorder := by
  induction t generalizing t' with
  | leaf =>
    cases h
    exact hz
  | node l x r ihl ihr =>
    simp only [BinTree.eraseM] at h
    simp only [inorder_node, List.mem_append, List.mem_cons]
    split at h
    · cases h
    · obtain ⟨l', hl', rfl⟩ := Option.map_eq_some_iff.mp h
      simp only [inorder_node, List.mem_append, List.mem_cons] at hz
      exact hz.imp_left (ihl hl')
    · obtain ⟨r', hr', rfl⟩ := Option.map_eq_some_iff.mp h
      simp only [inorder_node, List.mem_append, List.mem_cons] at hz
      exact hz.imp_right fun h => h.imp_right (ihr hr')
    · cases h
      rw [join_inorder, List.mem_append] at hz
      exact hz.imp_right .inr

end Defined

section Sorted

variable {lt : α → α → Prop} {turn : α → Ordering} {t l r : BinTree α} {v x y : α}

lemma sorted_node (h : (BinTree.node l x r).inorder.Pairwise lt) :
    l.inorder.Pairwise lt ∧ r.inorder.Pairwise lt ∧ (∀ a ∈ l.inorder, lt a x) ∧
      ∀ c ∈ r.inorder, lt x c := by
  rw [inorder_node, List.pairwise_append, List.pairwise_cons] at h
  obtain ⟨hl, ⟨hxr, hr⟩, hlx⟩ := h
  exact ⟨hl, hr, fun a ha => hlx a ha x List.mem_cons_self, hxr⟩

/-- A value goes to its place in the order when its own turns follow the order. -/
theorem insert_sorted (htrans : ∀ a b c, lt a b → lt b c → lt a c)
    (hlt : ∀ x ∈ t.inorder, turn x = .lt → lt y x) (hgt : ∀ x ∈ t.inorder, turn x = .gt → lt x y)
    (hs : t.inorder.Pairwise lt) (h : t.find turn = none) :
    (t.insert turn y).inorder.Pairwise lt := by
  induction t with
  | leaf => simp [BinTree.insert]
  | node l x r ihl ihr =>
    obtain ⟨hl, hr, hlx, hxr⟩ := sorted_node hs
    have hcross : ∀ a ∈ l.inorder, ∀ c ∈ r.inorder, lt a c := fun a ha c hc =>
      htrans a x c (hlx a ha) (hxr c hc)
    simp only [BinTree.find] at h
    cases hx : turn x with
    | lt =>
      rw [hx] at h
      have hyx : lt y x := hlt x (by simp) hx
      have hnew := ihl (fun a ha => hlt a (by simp [ha])) (fun a ha => hgt a (by simp [ha])) hl h
      simp only [BinTree.insert, hx, inorder_node]
      rw [List.pairwise_append, List.pairwise_cons]
      refine ⟨hnew, ⟨hxr, hr⟩, ?_⟩
      intro a ha c hc
      rcases (mem_insert h).mp ha with rfl | ha
      · rcases List.mem_cons.mp hc with rfl | hc
        · exact hyx
        · exact htrans _ x c hyx (hxr c hc)
      · rcases List.mem_cons.mp hc with rfl | hc
        · exact hlx a ha
        · exact hcross a ha c hc
    | gt =>
      rw [hx] at h
      have hxy : lt x y := hgt x (by simp) hx
      have hnew := ihr (fun a ha => hlt a (by simp [ha])) (fun a ha => hgt a (by simp [ha])) hr h
      simp only [BinTree.insert, hx, inorder_node]
      rw [List.pairwise_append, List.pairwise_cons]
      refine ⟨hl, ⟨?_, hnew⟩, ?_⟩
      · intro c hc
        rcases (mem_insert h).mp hc with rfl | hc
        · exact hxy
        · exact hxr c hc
      · intro a ha c hc
        rcases List.mem_cons.mp hc with rfl | hc
        · exact hlx a ha
        rcases (mem_insert h).mp hc with rfl | hc
        · exact htrans a x _ (hlx a ha) hxy
        · exact hcross a ha c hc
    | eq =>
      rw [hx] at h
      cases h

/-- A search whose turns do not lead away from the values it calls equal finds one,
as soon as there is one. -/
theorem find_of_mem (hasymm : ∀ a b, lt a b → ¬ lt b a) (hs : t.inorder.Pairwise lt)
    (hlt : ∀ x ∈ t.inorder, turn x = .lt → ∀ b ∈ t.inorder, turn b = .eq → lt b x)
    (hgt : ∀ x ∈ t.inorder, turn x = .gt → ∀ b ∈ t.inorder, turn b = .eq → lt x b)
    {b : α} (hb : b ∈ t.inorder) (heq : turn b = .eq) : ∃ v, t.find turn = some v := by
  induction t with
  | leaf => cases hb
  | node l x r ihl ihr =>
    obtain ⟨hl, hr, hlx, hxr⟩ := sorted_node hs
    have hinl : ∀ a ∈ l.inorder, a ∈ (BinTree.node l x r).inorder := by
      intro a ha
      simp [ha]
    have hinr : ∀ a ∈ r.inorder, a ∈ (BinTree.node l x r).inorder := by
      intro a ha
      simp [ha]
    have hroot : x ∈ (BinTree.node l x r).inorder := by simp
    simp only [BinTree.find]
    cases hx : turn x with
    | eq => exact ⟨x, rfl⟩
    | lt =>
      have hbx := hlt x hroot hx b hb heq
      rcases List.mem_append.mp hb with hbl | hbr
      · exact ihl hl (fun a ha h c hc => hlt a (hinl a ha) h c (hinl c hc))
          (fun a ha h c hc => hgt a (hinl a ha) h c (hinl c hc)) hbl
      rcases List.mem_cons.mp hbr with rfl | hbr
      · rw [hx] at heq
        cases heq
      · exact absurd (hxr b hbr) (hasymm b x hbx)
    | gt =>
      have hxb := hgt x hroot hx b hb heq
      rcases List.mem_append.mp hb with hbl | hbr
      · exact absurd (hlx b hbl) (hasymm x b hxb)
      rcases List.mem_cons.mp hbr with rfl | hbr
      · rw [hx] at heq
        cases heq
      · exact ihr hr (fun a ha h c hc => hlt a (hinr a ha) h c (hinr c hc))
          (fun a ha h c hc => hgt a (hinr a ha) h c (hinr c hc)) hbr

/-- Two queries of which the second calls equal what the first finds, and otherwise
turns with the order: it finds the same. -/
theorem find_same {turn' : α → Ordering} (hs : t.inorder.Pairwise lt)
    (hasymm : ∀ a b, lt a b → ¬ lt b a)
    (hv : turn' v = .eq)
    (hne : ∀ x ∈ t.inorder, turn x ≠ .eq → turn' x ≠ .eq)
    (hlt : ∀ x ∈ t.inorder, turn' x = .lt → lt v x) (hgt : ∀ x ∈ t.inorder, turn' x = .gt → lt x v)
    (h : t.find turn = some v) : t.find turn' = some v := by
  induction t with
  | leaf => cases h
  | node l x r ihl ihr =>
    obtain ⟨hl, hr, hlx, hxr⟩ := sorted_node hs
    have hinl : ∀ a ∈ l.inorder, a ∈ (BinTree.node l x r).inorder := by
      intro a ha
      simp [ha]
    have hinr : ∀ a ∈ r.inorder, a ∈ (BinTree.node l x r).inorder := by
      intro a ha
      simp [ha]
    have hroot : x ∈ (BinTree.node l x r).inorder := by simp
    simp only [BinTree.find] at h ⊢
    cases hx : turn x with
    | eq =>
      rw [hx] at h
      cases h
      rw [hv]
    | lt =>
      rw [hx] at h
      have hvx := hlx v (find_some h).1
      cases hx' : turn' x with
      | eq => exact absurd hx' (hne x hroot (by simp [hx]))
      | gt => exact absurd (hgt x hroot hx') (hasymm v x hvx)
      | lt =>
        exact ihl hl (fun a ha => hne a (hinl a ha)) (fun a ha => hlt a (hinl a ha))
          (fun a ha => hgt a (hinl a ha)) h
    | gt =>
      rw [hx] at h
      have hxv := hxr v (find_some h).1
      cases hx' : turn' x with
      | eq => exact absurd hx' (hne x hroot (by simp [hx]))
      | lt => exact absurd (hlt x hroot hx') (hasymm x v hxv)
      | gt =>
        exact ihr hr (fun a ha => hne a (hinr a ha)) (fun a ha => hlt a (hinr a ha))
          (fun a ha => hgt a (hinr a ha)) h

end Sorted

section RootAt

variable [DecidableEq α]

/-- The shape that has `x` at its root, when `x` is in the tree. -/
def rootAt (x : α) (t : BinTree α) : BinTree α :=
  match t.inorder.dropWhile (· != x) with
  | [] => t
  | y :: after => .node (.ofList (t.inorder.takeWhile (· != x))) y (.ofList after)

lemma rootAt_inorder (x : α) (t : BinTree α) : (rootAt x t).inorder = t.inorder := by
  simp only [rootAt]
  split
  · rfl
  · rename_i y after h
    rw [inorder_node, inorder_ofList, inorder_ofList, ← h, List.takeWhile_append_dropWhile]

lemma rootAt_node {x : α} {t : BinTree α} (hx : x ∈ t.inorder) :
    ∃ l r, rootAt x t = .node l x r := by
  simp only [rootAt]
  split
  · rename_i h
    have hne := List.dropWhile_eq_nil_iff.mp h x hx
    simp at hne
  · rename_i y after h
    have hy : ¬ (y != x) = true := by
      have hhead := List.head_dropWhile_not (· != x) (l := t.inorder) (by simp [h])
      simpa [h] using hhead
    have hyx : y = x := by simpa using hy
    exact ⟨_, _, by rw [hyx]⟩

/-- The balance that keeps `x` at the root. -/
def Balance.rootAt (x : α) : Balance α := ⟨SearchTree.rootAt x, rootAt_inorder x⟩

end RootAt

end SearchTree
