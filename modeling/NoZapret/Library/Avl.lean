import Mathlib.Data.Nat.Fib.Basic
import NoZapret.Library.SearchTree

/-!
# Height-balanced search trees

The two sides of a node differ by at most one in height. A tree in which a change below has
spoilt this is set right by rotations, and what rotations make of a tree depends on its shape
alone. The way to a node is a list of frames, the deepest first.
-/

namespace SearchTree

universe u v
variable {α : Type u} {β : Type v}

namespace BinTree

def height : BinTree α → Nat
  | leaf => 0
  | node l _ r => max l.height r.height + 1

def count (t : BinTree α) : Nat := t.inorder.length

def Balanced : BinTree α → Prop
  | leaf => True
  | node l _ r => l.height ≤ r.height + 1 ∧ r.height ≤ l.height + 1 ∧ l.Balanced ∧ r.Balanced

/-- Other values in the same shape. -/
def relabel (f : α → β) : BinTree α → BinTree β
  | leaf => leaf
  | node l x r => node (l.relabel f) (f x) (r.relabel f)

/-- A node by the child on one side and the child on the other; `true` is the right side. -/
def nodeAt : Bool → BinTree α → α → BinTree α → BinTree α
  | false, near, x, far => node near x far
  | true, near, x, far => node far x near

def sides : Bool → BinTree α → Option (BinTree α × α × BinTree α)
  | _, leaf => none
  | false, node l x r => some (l, x, r)
  | true, node l x r => some (r, x, l)

/-- The far side is two higher than the near one: one rotation, or two where the inner part of the
far side is the higher one. -/
def restore (d : Bool) (near : BinTree α) (x : α) (far : BinTree α) : BinTree α :=
  match far.sides d with
  | none => nodeAt d near x far
  | some (inner, y, outer) =>
    if outer.height < inner.height then
      match inner.sides d with
      | none => nodeAt d near x far
      | some (b, z, c) => nodeAt d (nodeAt d near x b) z (nodeAt d c y outer)
    else nodeAt d (nodeAt d near x inner) y outer

def balance (l : BinTree α) (x : α) (r : BinTree α) : BinTree α :=
  if l.height + 2 ≤ r.height then restore false l x r
  else if r.height + 2 ≤ l.height then restore true r x l
  else node l x r

def rebalance : BinTree α → BinTree α
  | leaf => leaf
  | node l x r => balance l.rebalance x r.rebalance

end BinTree

/-- A node on the way, and the side that the way takes. -/
structure Frame (α : Type u) where
  right : Bool
  x : α
  other : BinTree α

namespace Frame

def attach (f : Frame α) (t : BinTree α) : BinTree α := .nodeAt f.right t f.x f.other

def balanceAt (f : Frame α) (t : BinTree α) : BinTree α :=
  if f.right then .balance f.other f.x t else .balance t f.x f.other

def relabel (g : α → β) (f : Frame α) : Frame β := ⟨f.right, g f.x, f.other.relabel g⟩

end Frame

open BinTree

def plug : BinTree α → List (Frame α) → BinTree α
  | t, [] => t
  | t, f :: fs => plug (f.attach t) fs

/-- The way back, with rotations. -/
def climb : BinTree α → List (Frame α) → BinTree α
  | t, [] => t
  | t, f :: fs => climb (f.balanceAt t) fs

/-- Where a search ends, and the way there. -/
def descend (turn : α → Ordering) : BinTree α → List (Frame α) → BinTree α × List (Frame α)
  | leaf, fs => (leaf, fs)
  | node l x r, fs =>
    match turn x with
    | .lt => descend turn l (⟨false, x, r⟩ :: fs)
    | .gt => descend turn r (⟨true, x, l⟩ :: fs)
    | .eq => (node l x r, fs)

/-- The first value of `node l x r`, what is to the right of it, and the way there. -/
def leftmost : BinTree α → α → BinTree α → List (Frame α) → α × BinTree α × List (Frame α)
  | leaf, x, r, fs => (x, r, fs)
  | node l y m, x, r, fs => leftmost l y m (⟨false, x, r⟩ :: fs)

section Shape

variable {t l r near far : BinTree α} {x y : α} {d : Bool} {f : Frame α} {fs : List (Frame α)}
  {turn : α → Ordering}

@[simp] lemma height_leaf : (leaf : BinTree α).height = 0 := rfl

@[simp] lemma height_node : (node l x r).height = max l.height r.height + 1 := rfl

@[simp] lemma height_nodeAt : (nodeAt d near x far).height = max near.height far.height + 1 := by
  cases d with
  | false => rfl
  | true => exact congrArg (· + 1) (Nat.max_comm ..)

@[simp] lemma count_leaf : (leaf : BinTree α).count = 0 := rfl

@[simp] lemma count_node : (node l x r).count = l.count + r.count + 1 := by
  unfold count
  rw [inorder_node, List.length_append, List.length_cons]
  omega

@[simp] lemma count_nodeAt : (nodeAt d near x far).count = near.count + far.count + 1 := by
  cases d with
  | false => exact count_node
  | true =>
    rw [nodeAt, count_node]
    omega

@[simp] lemma height_relabel {g : α → β} : (t.relabel g).height = t.height := by
  induction t with
  | leaf => rfl
  | node l x r ihl ihr => simp only [relabel, height_node, ihl, ihr]

@[simp] lemma inorder_relabel {g : α → β} : (t.relabel g).inorder = t.inorder.map g := by
  induction t with
  | leaf => rfl
  | node l x r ihl ihr =>
    simp only [relabel, inorder_node, ihl, ihr, List.map_append, List.map_cons]

@[simp] lemma relabel_nodeAt {g : α → β} :
    (nodeAt d near x far).relabel g = nodeAt d (near.relabel g) (g x) (far.relabel g) := by
  cases d <;> rfl

lemma nodeAt_not : nodeAt (!d) far x near = nodeAt d near x far := by
  cases d <;> rfl

lemma sides_nodeAt : (nodeAt d near x far).sides d = some (near, x, far) := by
  cases d <;> rfl

/-- What is as high as one node or more is a node. -/
lemma nodeAt_of_height (d : Bool) (h : 0 < t.height) : ∃ a x b, t = nodeAt d a x b := by
  cases t with
  | leaf => cases h
  | node l x r =>
    cases d with
    | false => exact ⟨l, x, r, rfl⟩
    | true => exact ⟨r, x, l, rfl⟩

lemma eq_nodeAt_of_sides {a b : BinTree α} (h : t.sides d = some (a, x, b)) :
    t = nodeAt d a x b := by
  cases t with
  | leaf => cases d <;> cases h
  | node l y r => cases d <;> cases h <;> rfl

lemma inorder_restore : (restore d near x far).inorder = (nodeAt d near x far).inorder := by
  unfold restore
  split
  · rfl
  · rename_i inner y outer hfar
    rw [eq_nodeAt_of_sides hfar]
    split
    · split
      · rfl
      · rename_i b z c hinner
        rw [eq_nodeAt_of_sides hinner]
        cases d <;> simp [nodeAt]
    · cases d <;> simp [nodeAt]

lemma inorder_balance : (balance l x r).inorder = (node l x r).inorder := by
  unfold balance
  split
  · exact inorder_restore
  · split
    · exact inorder_restore
    · rfl

lemma inorder_rebalance (t : BinTree α) : t.rebalance.inorder = t.inorder := by
  induction t with
  | leaf => rfl
  | node l x r ihl ihr => rw [rebalance, inorder_balance, inorder_node, ihl, ihr, inorder_node]

/-- What a height-balanced tree does to its shape. -/
def Balance.avl : Balance α := ⟨rebalance, inorder_rebalance⟩

lemma balance_of_near (hl : l.height ≤ r.height + 1) (hr : r.height ≤ l.height + 1) :
    balance l x r = node l x r := by
  unfold balance
  rw [if_neg (by omega), if_neg (by omega)]

lemma rebalance_of_balanced (h : t.Balanced) : t.rebalance = t := by
  induction t with
  | leaf => rfl
  | node l x r ihl ihr =>
    obtain ⟨hl, hr, hlb, hrb⟩ := h
    rw [rebalance, ihl hlb, ihr hrb, balance_of_near hl hr]

lemma Frame.balanceAt_of_near (ht : t.height ≤ f.other.height + 1)
    (hother : f.other.height ≤ t.height + 1) : f.balanceAt t = f.attach t := by
  unfold balanceAt attach
  cases f.right with
  | false => exact balance_of_near ht hother
  | true => exact balance_of_near hother ht

lemma Frame.balanceAt_near (h : t.height + 2 ≤ f.other.height) :
    f.balanceAt t = restore f.right t f.x f.other := by
  unfold balanceAt balance
  cases f.right with
  | false => exact if_pos h
  | true =>
    rw [if_pos rfl, if_neg (by omega), if_pos h]

lemma Frame.balanceAt_far (h : f.other.height + 2 ≤ t.height) :
    f.balanceAt t = restore (!f.right) f.other f.x t := by
  unfold balanceAt balance
  cases f.right with
  | false =>
    rw [if_neg Bool.false_ne_true, if_neg (by omega), if_pos h]
    rfl
  | true => exact if_pos h

/-- On the way back only the nodes of the way change. -/
lemma rebalance_plug (h : ∀ f ∈ fs, f.other.Balanced) :
    (plug t fs).rebalance = climb t.rebalance fs := by
  induction fs generalizing t with
  | nil => rfl
  | cons f fs ih =>
    have hother : f.other.rebalance = f.other :=
      rebalance_of_balanced (h f List.mem_cons_self)
    rw [plug, ih fun g hg => h g (List.mem_cons_of_mem f hg), climb]
    congr 1
    unfold Frame.attach Frame.balanceAt
    cases f.right with
    | false => rw [nodeAt, rebalance, hother]; rfl
    | true => rw [nodeAt, rebalance, hother]; rfl

lemma plug_append {gs : List (Frame α)} : plug t (fs ++ gs) = plug (plug t fs) gs := by
  induction fs generalizing t with
  | nil => rfl
  | cons f fs ih => exact ih

lemma climb_append {gs : List (Frame α)} : climb t (fs ++ gs) = climb (climb t fs) gs := by
  induction fs generalizing t with
  | nil => rfl
  | cons f fs ih => exact ih

lemma plug_descend (turn : α → Ordering) (t : BinTree α) (fs : List (Frame α)) :
    plug (descend turn t fs).1 (descend turn t fs).2 = plug t fs := by
  induction t generalizing fs with
  | leaf => rfl
  | node l x r ihl ihr =>
    unfold descend
    cases turn x with
    | lt => exact ihl _
    | gt => exact ihr _
    | eq => rfl

/-- A way and what is at its end are no higher than the tree. -/
lemma descend_length (turn : α → Ordering) (t : BinTree α) (fs : List (Frame α)) :
    (descend turn t fs).2.length + (descend turn t fs).1.height ≤ t.height + fs.length := by
  induction t generalizing fs with
  | leaf => exact Nat.le_of_eq (Nat.add_comm ..)
  | node l x r ihl ihr =>
    have hl := ihl (⟨false, x, r⟩ :: fs)
    have hr := ihr (⟨true, x, l⟩ :: fs)
    rw [List.length_cons] at hl hr
    rw [height_node]
    cases hx : turn x with
    | lt =>
      simp only [descend, hx]
      omega
    | gt =>
      simp only [descend, hx]
      omega
    | eq =>
      simp only [descend, hx, height_node]
      omega

lemma leftmost_length (l : BinTree α) (x : α) (r : BinTree α) (fs : List (Frame α)) :
    (leftmost l x r fs).2.2.length + ((leftmost l x r fs).2.1.height + 1) ≤
      (node l x r).height + fs.length := by
  induction l generalizing x r fs with
  | leaf =>
    simp only [height_node, leftmost]
    omega
  | node l y m ihl _ =>
    have hl := ihl y m (⟨false, x, r⟩ :: fs)
    rw [List.length_cons] at hl
    rw [height_node, leftmost]
    omega

/-- A search goes down the way that `find` takes. -/
lemma descend_find (turn : α → Ordering) (t : BinTree α) (fs : List (Frame α)) :
    t.find turn = ((descend turn t fs).1.sides false).map fun p => p.2.1 := by
  induction t generalizing fs with
  | leaf => rfl
  | node l x r ihl ihr =>
    unfold descend BinTree.find
    cases turn x with
    | lt => exact ihl _
    | gt => exact ihr _
    | eq => rfl

lemma insert_plug (turn : α → Ordering) (y : α) (t : BinTree α) (fs : List (Frame α))
    (h : (descend turn t fs).1 = leaf) :
    plug (t.insert turn y) fs = plug (node leaf y leaf) (descend turn t fs).2 := by
  induction t generalizing fs with
  | leaf => rfl
  | node l x r ihl ihr =>
    cases hx : turn x with
    | lt =>
      simp only [descend, BinTree.insert, hx] at h ⊢
      exact ihl _ h
    | gt =>
      simp only [descend, BinTree.insert, hx] at h ⊢
      exact ihr _ h
    | eq =>
      simp only [descend, hx] at h
      cases h

lemma insert_of_find {z : α} (h : t.find turn = some z) : t.insert turn y = t := by
  induction t with
  | leaf => cases h
  | node l x r ihl ihr =>
    cases hx : turn x with
    | lt =>
      simp only [BinTree.find, BinTree.insert, hx] at h ⊢
      rw [ihl h]
    | gt =>
      simp only [BinTree.find, BinTree.insert, hx] at h ⊢
      rw [ihr h]
    | eq => simp only [BinTree.insert, hx]

lemma erase_plug (turn : α → Ordering) (t : BinTree α) (fs : List (Frame α))
    (h : (descend turn t fs).1 = node l x r) :
    plug (t.erase turn) fs = plug (join l r) (descend turn t fs).2 := by
  induction t generalizing fs with
  | leaf => cases h
  | node l' x' r' ihl ihr =>
    cases hx : turn x' with
    | lt =>
      simp only [descend, BinTree.erase, hx] at h ⊢
      exact ihl _ h
    | gt =>
      simp only [descend, BinTree.erase, hx] at h ⊢
      exact ihr _ h
    | eq =>
      simp only [descend, BinTree.erase, hx] at h ⊢
      cases h
      rfl

lemma erase_of_find (h : t.find turn = none) : t.erase turn = t := by
  induction t with
  | leaf => rfl
  | node l x r ihl ihr =>
    cases hx : turn x with
    | lt =>
      simp only [BinTree.find, BinTree.erase, hx] at h ⊢
      rw [ihl h]
    | gt =>
      simp only [BinTree.find, BinTree.erase, hx] at h ⊢
      rw [ihr h]
    | eq =>
      simp only [BinTree.find, hx] at h
      cases h

lemma count_rebalance : t.rebalance.count = t.count := congrArg List.length (inorder_rebalance t)

lemma count_erase_le : (t.erase turn).count ≤ t.count := by
  cases h : t.find turn with
  | none => rw [erase_of_find h]
  | some x =>
    obtain ⟨front, back, hsplit, hleft⟩ := erase_split h
    unfold BinTree.count
    rw [hsplit, hleft, List.length_append, List.length_append, List.length_cons]
    omega

lemma count_insert_le : (t.insert turn y).count ≤ t.count + 1 := by
  cases h : t.find turn with
  | some x =>
    rw [insert_of_find h]
    exact Nat.le_succ _
  | none =>
    obtain ⟨front, back, hsplit, hmore⟩ := insert_split (y := y) h
    unfold BinTree.count
    rw [hsplit, hmore, List.length_append, List.length_append, List.length_cons]
    omega

lemma leftmost_plug (l : BinTree α) (x : α) (r : BinTree α) (fs : List (Frame α)) :
    plug (node leaf (leftmost l x r fs).1 (leftmost l x r fs).2.1) (leftmost l x r fs).2.2 =
      plug (node l x r) fs := by
  induction l generalizing x r fs with
  | leaf => rfl
  | node l y m ihl _ => exact ihl y m _

lemma leftmost_popMin (l : BinTree α) (x : α) (r : BinTree α) (fs : List (Frame α)) :
    (leftmost l x r fs).1 = (popMin l x r).1 ∧
      plug (leftmost l x r fs).2.1 (leftmost l x r fs).2.2 = plug (popMin l x r).2 fs := by
  induction l generalizing x r fs with
  | leaf => exact ⟨rfl, rfl⟩
  | node l y m ihl _ => exact ihl y m _

/-- The first node of a balanced tree has at most one below it. -/
lemma join_leaf (h : r.height ≤ 1) : join leaf r = r := by
  cases r with
  | leaf => rfl
  | node l x r =>
    rw [height_node] at h
    cases l with
    | leaf =>
      cases r with
      | leaf => rfl
      | node _ _ _ =>
        rw [height_node] at h
        omega
    | node _ _ _ =>
      rw [height_node] at h
      omega

/-- The fewest nodes for a height are Fibonacci many. -/
theorem fib_le_count (h : t.Balanced) : Nat.fib (t.height + 2) ≤ t.count + 1 := by
  induction t with
  | leaf =>
    show Nat.fib 2 ≤ 1
    decide
  | node l x r ihl ihr =>
    obtain ⟨hl, hr, hlb, hrb⟩ := h
    have hcl := ihl hlb
    have hcr := ihr hrb
    rw [height_node, count_node]
    have hsum : Nat.fib (max l.height r.height + 1 + 2) =
        Nat.fib (max l.height r.height + 1) + Nat.fib (max l.height r.height + 2) :=
      Nat.fib_add_two
    rcases Nat.le_total l.height r.height with hle | hle
    · rw [Nat.max_eq_right hle] at hsum ⊢
      have hmono : Nat.fib (r.height + 1) ≤ Nat.fib (l.height + 2) := Nat.fib_mono (by omega)
      omega
    · rw [Nat.max_eq_left hle] at hsum ⊢
      have hmono : Nat.fib (l.height + 1) ≤ Nat.fib (r.height + 2) := Nat.fib_mono (by omega)
      omega

lemma height_lt_of_count {n : Nat} (h : t.Balanced) (hcount : t.count + 1 < Nat.fib (n + 2)) :
    t.height < n := by
  have hle := fib_le_count h
  by_contra hn
  have hmono : Nat.fib (n + 2) ≤ Nat.fib (t.height + 2) := Nat.fib_mono (by omega)
  omega

section Relabel

variable {g : α → β}

lemma relabel_attach : (f.attach t).relabel g = (f.relabel g).attach (t.relabel g) :=
  relabel_nodeAt

lemma relabel_plug : (plug t fs).relabel g = plug (t.relabel g) (fs.map (Frame.relabel g)) := by
  induction fs generalizing t with
  | nil => rfl
  | cons f fs ih =>
    rw [plug, ih, relabel_attach]
    rfl

lemma relabel_find {turn : β → Ordering} :
    (t.relabel g).find turn = (t.find (turn ∘ g)).map g := by
  induction t with
  | leaf => rfl
  | node l x r ihl ihr =>
    simp only [relabel, BinTree.find, Function.comp_apply]
    cases turn (g x) with
    | lt => exact ihl
    | gt => exact ihr
    | eq => rfl

lemma relabel_insert {turn : β → Ordering} :
    (t.insert (turn ∘ g) x).relabel g = (t.relabel g).insert turn (g x) := by
  induction t with
  | leaf => rfl
  | node l y r ihl ihr =>
    simp only [relabel, BinTree.insert, Function.comp_apply]
    cases turn (g y) with
    | lt => simp only [relabel, ihl]
    | gt => simp only [relabel, ihr]
    | eq => rfl

lemma relabel_popMin : (popMin (l.relabel g) (g x) (r.relabel g)) =
    (g (popMin l x r).1, (popMin l x r).2.relabel g) := by
  induction l generalizing x r with
  | leaf => rfl
  | node l y m ihl _ => simp only [relabel, popMin, ihl]

lemma relabel_join : (join l r).relabel g = join (l.relabel g) (r.relabel g) := by
  cases r with
  | leaf => rfl
  | node m x r => simp only [join, relabel, relabel_popMin]

lemma relabel_erase {turn : β → Ordering} :
    (t.erase (turn ∘ g)).relabel g = (t.relabel g).erase turn := by
  induction t with
  | leaf => rfl
  | node l x r ihl ihr =>
    simp only [relabel, BinTree.erase, Function.comp_apply]
    cases turn (g x) with
    | lt => simp only [relabel, ihl]
    | gt => simp only [relabel, ihr]
    | eq => exact relabel_join

end Relabel

end Shape

end SearchTree
