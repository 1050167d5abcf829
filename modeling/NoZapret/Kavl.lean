import Mathlib.Algebra.Order.Ring.Int
import NoZapret.Library.Avl

/-!
# The trees of `kavl.h`

`kavl_find`, `kavl_insert` and `kavl_erase`, with the balance factor and the size that every node
keeps and the arrays of `KAVL_MAX_DEPTH` entries that hold the way. `none` is a read through a null
pointer or a write behind the end of such an array. A comparator is called with the value that is
looked for, so it is a function of the stored one.
-/

namespace Kavl

open SearchTree BinTree

universe u
variable {α : Type u}

/-- An element and its `KAVL_HEAD`. -/
structure Node (α : Type u) where
  val : α
  balance : Int := 0
  size : UInt32 := 1
  deriving DecidableEq, Repr

abbrev Tree (α : Type u) := BinTree (Node α)

/-- `path` and `stack`, the deepest entry first. -/
abbrev Path (α : Type u) := List (Frame (Node α))

def maxDepth : Nat := 64

def kavlSize : Tree α → UInt32
  | leaf => 0
  | node _ p _ => p.size

def b1 (which : Bool) : Int := if which then -1 else 1

def kavlFind (turn : α → Ordering) : Tree α → UInt32 → Option α × UInt32
  | leaf, cnt => (none, cnt)
  | node l p r, cnt =>
    match turn p.val with
    | .lt => kavlFind turn l cnt
    | .gt => kavlFind turn r (cnt + (kavlSize l + 1))
    | .eq => (some p.val, cnt + (kavlSize l + 1))

/-- The balance factors are left to the callers. -/
def rotate1 (dir : Bool) (near : Tree α) (p q : Node α) (inner outer : Tree α) : Tree α :=
  nodeAt dir (nodeAt dir near { p with size := p.size - (q.size - kavlSize inner) } inner)
    { q with size := p.size } outer

def rotate2 (dir : Bool) (near : Tree α) (p q : Node α) (inner outer : Tree α) :
    Option (Tree α) :=
  match inner.sides dir with
  | none => none
  | some (b, r, c) =>
    let sizeXDir := kavlSize b
    let qBalance := if r.balance = b1 dir then 0 else if r.balance = 0 then 0 else b1 dir
    let pBalance := if r.balance = b1 dir then -b1 dir else 0
    let p' : Node α := { p with size := p.size - (q.size - sizeXDir), balance := pBalance }
    let q' : Node α := { q with size := q.size - (sizeXDir + 1), balance := qBalance }
    some (nodeAt dir (nodeAt dir near p' b) { r with size := p.size, balance := 0 }
      (nodeAt dir c q' outer))

/-- `++path[i]->size` -/
def grow (f : Frame (Node α)) : Frame (Node α) :=
  { f with x := { f.x with size := f.x.size + 1 } }

/-- `--path[i]->size` -/
def shrink (f : Frame (Node α)) : Frame (Node α) :=
  { f with x := { f.x with size := f.x.size - 1 } }

/-- The balance factor of a node with a higher subtree on the way. -/
def tilt (f : Frame (Node α)) : Frame (Node α) :=
  { f with x := { f.x with balance := if f.right then f.x.balance + 1 else f.x.balance - 1 } }

/-- The end of `kavl_insert`, for `bp` with its new balance factor. -/
def settle (bp : Frame (Node α)) (t : Tree α) : Option (Tree α) :=
  if -2 < bp.x.balance ∧ bp.x.balance < 2 then some (bp.attach t)
  else
    let which := decide (bp.x.balance < 0)
    match (bp.attach t).sides which with
    | none => none
    | some (near, p, far) =>
      match far.sides which with
      | none => none
      | some (inner, q, outer) =>
        if q.balance = b1 which then
          some (rotate1 which near { p with balance := 0 } { q with balance := 0 } inner outer)
        else rotate2 which near p q inner outer

def isLevel (f : Frame (Node α)) : Bool := decide (f.x.balance = 0)

/-- The new node hangs at its place, as `t`. `bp` is the last node of the way that leans to a side;
without one it is the root, which the new node cannot unbalance. -/
def hang (t : Tree α) (path : Path α) : Option (Tree α) :=
  let below := plug t ((path.takeWhile isLevel).map tilt)
  match path.dropWhile isLevel with
  | [] => some below
  | bp :: bq => (settle (tilt bp) below).map fun r => plug r bq

/-- `kavl_insert` once the place has been found. -/
def link (x : α) (path : Path α) : Option (Tree α) :=
  hang (node leaf { val := x } leaf) (path.map grow)

/-- The tree afterwards, and what the call returns. -/
def kavlInsert (turn : α → Ordering) (x : α) (root : Tree α) : Option (Tree α × α) :=
  let (p, path) := descend (fun p => turn p.val) root []
  if maxDepth < path.length then none
  else
    match p with
    | node _ p _ => some (root, p.val)
    | leaf => (link x path).map fun root => (root, x)

/-- The loop at the end of `kavl_erase`: what hangs below the first entry is one lower now. -/
def retrace : Tree α → Path α → Option (Tree α)
  | t, [] => some t
  | t, f :: path =>
    let q : Node α := { f.x with balance := f.x.balance + b1 f.right }
    if q.balance = b1 f.right then some (plug (nodeAt f.right t q f.other) path)
    else if q.balance = 2 * b1 f.right then
      match f.other.sides f.right with
      | none => none
      | some (inner, r, outer) =>
        if r.balance = -b1 f.right then
          (rotate2 f.right t q r inner outer).bind fun t => retrace t path
        else if r.balance = 0 then
          some (plug (rotate1 f.right t { q with balance := b1 f.right }
            { r with balance := -b1 f.right } inner outer) path)
        else
          retrace (rotate1 f.right t { q with balance := 0 } { r with balance := 0 } inner outer)
            path
    else retrace (nodeAt f.right t q f.other) path

/-- `kavl_erase` once the node has been found. With two subtrees its successor takes its place. -/
def unlink (l : Tree α) (p : Node α) (r : Tree α) (path : Path α) : Option (Tree α) :=
  let path := path.map shrink
  match r with
  | leaf => retrace l path
  | node leaf q qr =>
    retrace qr (⟨true, { q with balance := p.balance, size := p.size - 1 }, l⟩ :: path)
  | node ql q qr =>
    let (r, rest, chain) := leftmost ql q qr []
    retrace rest (chain.map shrink ++
      ⟨true, { r with balance := p.balance, size := p.size - 1 }, l⟩ :: path)

/-- The entries of `path` that `kavl_erase` writes to: the `fake` one, the nodes on the way, and for
a successor further down the place of the node and the nodes from there. -/
def entries (r : Tree α) (path : Path α) : Nat :=
  match r with
  | leaf => path.length + 1
  | node leaf _ _ => path.length + 2
  | node ql q qr => path.length + 2 + (leftmost ql q qr []).2.2.length

/-- The tree afterwards, and the node that is not in it any more. -/
def kavlErase (turn : α → Ordering) (root : Tree α) : Option (Tree α × Option α) :=
  match descend (fun p => turn p.val) root [] with
  | (leaf, path) => if maxDepth < path.length + 1 then none else some (root, none)
  | (node l p r, path) =>
    if maxDepth < entries r path then none
    else (unlink l p r path).map fun root => (root, some p.val)

/-- `kavl_erase` for no element: the first one goes. The way to it has all its nodes, and `fake`. -/
def kavlEraseFirst : Tree α → Option (Tree α × α)
  | leaf => none
  | node l p r =>
    let (p, r, path) := leftmost l p r []
    if maxDepth < path.length + 2 ∨ maxDepth < entries r path then none
    else (unlink leaf p r path).map fun root => (root, p.val)

/-- What the pools have in their trees. -/
def keys (t : Tree α) : BinTree α := t.relabel Node.val

/-- What the head of a node says of its two sides: their heights and their numbers of nodes. -/
structure Meets (d : Bool) (p : Node α) (h n h' n' : Nat) : Prop where
  balance : p.balance = b1 d * ((h' : Int) - h)
  near : h ≤ h' + 1
  far : h' ≤ h + 1
  size : p.size = UInt32.ofNat (n + n' + 1)

def Wf : Tree α → Prop
  | leaf => True
  | node l p r => Meets false p l.height l.count r.height r.count ∧ Wf l ∧ Wf r

/-- The nodes of a way are right about a subtree of height `h` with `n` nodes at its end. -/
def Fits : Nat → Nat → Path α → Prop
  | _, _, [] => True
  | h, n, f :: path =>
    Meets f.right f.x h n f.other.height f.other.count ∧ Wf f.other ∧
      Fits (max h f.other.height + 1) (n + f.other.count + 1) path

section Invariant

variable {t near far inner outer : Tree α} {p q : Node α} {f : Frame (Node α)} {path : Path α}
  {d : Bool} {h n h' n' : Nat} {turn : α → Ordering}

lemma b1_not : b1 (!d) = -b1 d := by
  cases d <;> rfl

lemma Meets.flip (hp : Meets d p h n h' n') : Meets (!d) p h' n' h n := by
  refine ⟨?_, hp.far, hp.near, ?_⟩
  · rw [hp.balance, b1_not]
    ring
  · rw [hp.size, Nat.add_comm n]

lemma wf_nodeAt : Wf (nodeAt d near p far) ↔
    Meets d p near.height near.count far.height far.count ∧ Wf near ∧ Wf far := by
  cases d with
  | false => exact Iff.rfl
  | true =>
    constructor
    · rintro ⟨hp, hfar, hnear⟩
      exact ⟨hp.flip, hnear, hfar⟩
    · rintro ⟨hp, hnear, hfar⟩
      exact ⟨hp.flip, hfar, hnear⟩

lemma wf_plug : Wf (plug t path) ↔ Wf t ∧ Fits t.height t.count path := by
  induction path generalizing t with
  | nil => exact ⟨fun ht => ⟨ht, trivial⟩, And.left⟩
  | cons f path ih =>
    rw [plug, ih, Frame.attach, wf_nodeAt, height_nodeAt, count_nodeAt]
    simp only [Fits]
    tauto

lemma kavlSize_eq (ht : Wf t) : kavlSize t = UInt32.ofNat t.count := by
  cases t with
  | leaf => rfl
  | node l p r =>
    rw [kavlSize, ht.1.size, count_node]

lemma Wf.balanced (ht : Wf t) : t.Balanced := by
  induction t with
  | leaf => trivial
  | node l p r ihl ihr => exact ⟨ht.1.near, ht.1.far, ihl ht.2.1, ihr ht.2.2⟩

/-- An address space has no room for a tree that does not fit into the arrays. -/
lemma shallow (ht : Wf t) (hcount : t.count < 2 ^ 44) : t.height < maxDepth := by
  refine height_lt_of_count ht.balanced ?_
  have hfib : 2 ^ 44 < Nat.fib (maxDepth + 2) := by decide
  omega

lemma keys_balanced (ht : Wf t) : (keys t).Balanced := by
  induction t with
  | leaf => trivial
  | node l p r ihl ihr =>
    refine ⟨?_, ?_, ihl ht.2.1, ihr ht.2.2⟩
    · rw [height_relabel, height_relabel]
      exact ht.1.near
    · rw [height_relabel, height_relabel]
      exact ht.1.far

lemma keys_nodeAt : keys (nodeAt d near p far) = nodeAt d (keys near) p.val (keys far) :=
  relabel_nodeAt

lemma height_keys : (keys t).height = t.height := height_relabel

lemma rotate1_wf (hnear : Wf near) (hinner : Wf inner) (houter : Wf outer)
    (hpsize : p.size = UInt32.ofNat (near.count + (inner.count + outer.count + 1) + 1))
    (hqsize : q.size = UInt32.ofNat (inner.count + outer.count + 1))
    (hpbal : p.balance = b1 d * ((inner.height : Int) - near.height))
    (hqbal : q.balance = b1 d * ((outer.height : Int) - (max near.height inner.height + 1 : Nat)))
    (hp : near.height ≤ inner.height + 1 ∧ inner.height ≤ near.height + 1)
    (hq : max near.height inner.height ≤ outer.height ∧
      outer.height ≤ max near.height inner.height + 2) :
    Wf (rotate1 d near p q inner outer) := by
  refine wf_nodeAt.mpr ⟨⟨?_, ?_, ?_, ?_⟩, wf_nodeAt.mpr ⟨⟨hpbal, hp.1, hp.2, ?_⟩, hnear, hinner⟩,
    houter⟩
  · rw [height_nodeAt]
    exact hqbal
  · rw [height_nodeAt]
    omega
  · rw [height_nodeAt]
    omega
  · rw [count_nodeAt, hpsize]
    congr 1
    omega
  · show p.size - (q.size - kavlSize inner) = _
    rw [hpsize, hqsize, kavlSize_eq hinner]
    simp only [UInt32.ofNat_add]
    grind

lemma rotate1_restore (hlt : ¬ outer.height < inner.height) :
    keys (rotate1 d near p q inner outer) =
      restore d (keys near) p.val (nodeAt d (keys inner) q.val (keys outer)) := by
  rw [← height_keys (t := outer), ← height_keys (t := inner)] at hlt
  simp only [rotate1, keys_nodeAt, restore, sides_nodeAt, if_neg hlt]

/-- The far side of `p` is two higher than the near one, and `q` is its root. -/
structure Heavy (d : Bool) (near : Tree α) (p q : Node α) (inner outer : Tree α) : Prop where
  wfNear : Wf near
  wfFar : Wf (nodeAt d inner q outer)
  heights : max inner.height outer.height = near.height + 1
  sizes : p.size = UInt32.ofNat (near.count + (inner.count + outer.count + 1) + 1)

/-- What a rotation at `p` leaves: `h` is the new height. -/
structure Turned (d : Bool) (near : Tree α) (p q : Node α) (inner outer : Tree α) (h : Nat)
    (t : Tree α) : Prop where
  wf : Wf t
  heights : t.height = h
  counts : t.count = near.count + (inner.count + outer.count + 1) + 1
  image : keys t = restore d (keys near) p.val (nodeAt d (keys inner) q.val (keys outer))

lemma Heavy.leans (hheavy : Heavy d near p q inner outer) :
    (q.balance = b1 d ∧ outer.height = near.height + 1 ∧ inner.height = near.height) ∨
    (q.balance = 0 ∧ outer.height = near.height + 1 ∧ inner.height = near.height + 1) ∨
    (q.balance = -b1 d ∧ outer.height = near.height ∧ inner.height = near.height + 1) := by
  obtain ⟨⟨hbal, hnear, hfar, -⟩, -, -⟩ := wf_nodeAt.mp hheavy.wfFar
  have hmax := hheavy.heights
  have hheights : (outer.height = near.height + 1 ∧ inner.height = near.height) ∨
      (outer.height = near.height + 1 ∧ inner.height = near.height + 1) ∨
      (outer.height = near.height ∧ inner.height = near.height + 1) := by omega
  rcases hheights with ⟨ho, hi⟩ | ⟨ho, hi⟩ | ⟨ho, hi⟩
  · refine Or.inl ⟨?_, ho, hi⟩
    rw [hbal, ho, hi]
    push_cast
    ring
  · refine Or.inr (Or.inl ⟨?_, ho, hi⟩)
    rw [hbal, ho, hi]
    ring
  · refine Or.inr (Or.inr ⟨?_, ho, hi⟩)
    rw [hbal, ho, hi]
    push_cast
    ring

/-- The outer side is the higher one. -/
lemma Heavy.rotate1_leaning (hheavy : Heavy d near p q inner outer)
    (ho : outer.height = near.height + 1) (hi : inner.height = near.height) :
    Turned d near p q inner outer (near.height + 2)
      (rotate1 d near { p with balance := 0 } { q with balance := 0 } inner outer) := by
  obtain ⟨hq, hinner, houter⟩ := wf_nodeAt.mp hheavy.wfFar
  refine ⟨rotate1_wf hheavy.wfNear hinner houter hheavy.sizes hq.size ?_ ?_ ?_ ?_, ?_, ?_,
    rotate1_restore (p := { p with balance := 0 }) (q := { q with balance := 0 }) ?_⟩
  · rw [hi]
    simp
  · rw [hi, ho]
    simp
  · omega
  · omega
  · rw [rotate1, height_nodeAt, height_nodeAt]
    omega
  · rw [rotate1, count_nodeAt, count_nodeAt]
    omega
  · omega

/-- The far side is level: the rotation does not make the tree lower. -/
lemma Heavy.rotate1_level (hheavy : Heavy d near p q inner outer)
    (ho : outer.height = near.height + 1) (hi : inner.height = near.height + 1) :
    Turned d near p q inner outer (near.height + 3)
      (rotate1 d near { p with balance := b1 d } { q with balance := -b1 d } inner outer) := by
  obtain ⟨hq, hinner, houter⟩ := wf_nodeAt.mp hheavy.wfFar
  refine ⟨rotate1_wf hheavy.wfNear hinner houter hheavy.sizes hq.size ?_ ?_ ?_ ?_, ?_, ?_,
    rotate1_restore (p := { p with balance := b1 d }) (q := { q with balance := -b1 d }) ?_⟩
  · rw [hi]
    push_cast
    ring
  · rw [hi, ho, Nat.max_eq_right (Nat.le_succ _)]
    push_cast
    ring
  · omega
  · omega
  · rw [rotate1, height_nodeAt, height_nodeAt]
    omega
  · rw [rotate1, count_nodeAt, count_nodeAt]
    omega
  · omega

section

variable {b c m : Nat} {x : Int}

/-- `p` gets the side of `r` next to it. -/
lemma pBalance_eq (hx : x = b1 d * ((c : Int) - b)) (hmax : max b c = m) (hle : b ≤ c + 1)
    (hge : c ≤ b + 1) : (if x = b1 d then -b1 d else 0) = b1 d * ((b : Int) - m) := by
  cases d with
  | false =>
    simp only [b1, Bool.false_eq_true, if_false] at hx ⊢
    split <;> omega
  | true =>
    simp only [b1, if_true] at hx ⊢
    split <;> omega

lemma qBalance_eq (hx : x = b1 d * ((c : Int) - b)) (hmax : max b c = m) (hle : b ≤ c + 1)
    (hge : c ≤ b + 1) :
    (if x = b1 d then 0 else if x = 0 then 0 else b1 d) = b1 d * ((m : Int) - c) := by
  cases d with
  | false =>
    simp only [b1, Bool.false_eq_true, if_false] at hx ⊢
    split
    · omega
    · split <;> omega
  | true =>
    simp only [b1, if_true] at hx ⊢
    split
    · omega
    · split <;> omega

end

/-- The inner side is the higher one, and its root `r` goes to the top. -/
lemma Heavy.rotate2_spec (hheavy : Heavy d near p q inner outer)
    (ho : outer.height = near.height) (hi : inner.height = near.height + 1) :
    ∃ t, rotate2 d near p q inner outer = some t ∧
      Turned d near p q inner outer (near.height + 2) t := by
  obtain ⟨hq, hinner, houter⟩ := wf_nodeAt.mp hheavy.wfFar
  obtain ⟨b, r, c, rfl⟩ := nodeAt_of_height d (t := inner) (by omega)
  obtain ⟨hr, hb, hc⟩ := wf_nodeAt.mp hinner
  have hpsize := hheavy.sizes
  have hqsize := hq.size
  have hbal := hr.balance
  have hle := hr.near
  have hge := hr.far
  rw [height_nodeAt] at hi
  rw [count_nodeAt] at hpsize hqsize
  refine ⟨_, by rw [rotate2, sides_nodeAt], ?_, ?_, ?_, ?_⟩
  · refine wf_nodeAt.mpr ⟨⟨?_, ?_, ?_, ?_⟩, wf_nodeAt.mpr ⟨⟨?_, ?_, ?_, ?_⟩, hheavy.wfNear, hb⟩,
      wf_nodeAt.mpr ⟨⟨?_, ?_, ?_, ?_⟩, hc, houter⟩⟩
    · simp only [height_nodeAt]
      rw [show max near.height b.height = max c.height outer.height by omega]
      ring
    · rw [height_nodeAt, height_nodeAt]
      omega
    · rw [height_nodeAt, height_nodeAt]
      omega
    · rw [count_nodeAt, count_nodeAt, hpsize]
      congr 1
      omega
    · exact pBalance_eq hbal (by omega) hle hge
    · omega
    · omega
    · show p.size - (q.size - kavlSize b) = _
      rw [hpsize, hqsize, kavlSize_eq hb]
      simp only [UInt32.ofNat_add]
      grind
    · rw [ho]
      exact qBalance_eq hbal (by omega) hle hge
    · omega
    · omega
    · show q.size - (kavlSize b + 1) = _
      rw [hqsize, kavlSize_eq hb]
      simp only [UInt32.ofNat_add]
      grind
  · rw [height_nodeAt, height_nodeAt, height_nodeAt]
    omega
  · simp only [count_nodeAt]
    omega
  · have hlt : (keys outer).height < (keys (nodeAt d b r c)).height := by
      rw [height_keys, height_keys, height_nodeAt]
      omega
    simp only [keys_nodeAt] at hlt
    simp only [keys_nodeAt, restore, sides_nodeAt, if_pos hlt]

/-- The way as the pools see it. -/
def keyPath (path : Path α) : List (Frame α) := path.map (Frame.relabel Node.val)

lemma keyPath_grow : keyPath (path.map grow) = keyPath path := by
  rw [keyPath, List.map_map]
  rfl

lemma keyPath_shrink : keyPath (path.map shrink) = keyPath path := by
  rw [keyPath, List.map_map]
  rfl

lemma keys_plug : keys (plug t path) = plug (keys t) (keyPath path) := relabel_plug

lemma keys_attach : keys (f.attach t) = (f.relabel Node.val).attach (keys t) := relabel_attach

lemma Fits.others (hpath : Fits h n path) : ∀ f ∈ keyPath path, f.other.Balanced := by
  induction path generalizing h n with
  | nil =>
    intro f hf
    cases hf
  | cons g path ih =>
    intro f hf
    rcases List.mem_cons.mp hf with rfl | hf
    · exact keys_balanced hpath.2.1
    · exact ih hpath.2.2 f hf

/-- Where nothing is out of balance the way back changes nothing. -/
lemma climb_of_fits (ht : Wf t) (hpath : Fits t.height t.count path) :
    climb (keys t) (keyPath path) = keys (plug t path) := by
  have hwf : Wf (plug t path) := wf_plug.mpr ⟨ht, hpath⟩
  rw [← rebalance_of_balanced (keys_balanced hwf), keys_plug, rebalance_plug hpath.others,
    rebalance_of_balanced (keys_balanced ht)]

lemma fits_grow (hpath : Fits h n path) : Fits h (n + 1) (path.map grow) := by
  induction path generalizing h n with
  | nil => trivial
  | cons f path ih =>
    obtain ⟨hf, hother, hrest⟩ := hpath
    refine ⟨⟨hf.balance, hf.near, hf.far, ?_⟩, hother, ?_⟩
    · show f.x.size + 1 = UInt32.ofNat (n + 1 + f.other.count + 1)
      rw [hf.size]
      simp only [UInt32.ofNat_add]
      grind
    · have hgrown := ih hrest
      rwa [show n + f.other.count + 1 + 1 = n + 1 + f.other.count + 1 by omega] at hgrown

lemma fits_shrink (hpath : Fits h (n + 1) path) : Fits h n (path.map shrink) := by
  induction path generalizing h n with
  | nil => trivial
  | cons f path ih =>
    obtain ⟨hf, hother, hrest⟩ := hpath
    refine ⟨⟨hf.balance, hf.near, hf.far, ?_⟩, hother, ?_⟩
    · show f.x.size - 1 = UInt32.ofNat (n + f.other.count + 1)
      rw [hf.size]
      simp only [UInt32.ofNat_add]
      grind
    · rw [show n + 1 + f.other.count + 1 = n + f.other.count + 1 + 1 by omega] at hrest
      exact ih hrest

lemma tilt_balance : (tilt f).x.balance = f.x.balance - b1 f.right := by
  unfold tilt b1
  cases f.right with
  | false => rfl
  | true =>
    show f.x.balance + 1 = f.x.balance - -1
    omega

def rootBalance : Tree α → Int
  | leaf => 0
  | node _ p _ => p.balance

lemma rootBalance_nodeAt : rootBalance (nodeAt d near p far) = p.balance := by
  cases d <;> rfl

/-- A tree that has grown by the new node: its root leans, or is the new node. -/
def Leaning (t : Tree α) : Prop := t.height = 1 ∨ rootBalance t ≠ 0

lemma b1_ne_zero : b1 d ≠ 0 := by
  cases d <;> decide

lemma b1_mul_eq {x : Int} (hx : 0 = b1 d * x) : x = 0 := by
  rcases mul_eq_zero.mp hx.symm with hd | hx
  · exact absurd hd b1_ne_zero
  · exact hx

/-- A level node on the way grows with what is below it. -/
lemma level_step (hlevel : f.x.balance = 0) (ht : Wf t) (hheight : t.height = h + 1)
    (hf : Meets f.right f.x h t.count f.other.height f.other.count) (hother : Wf f.other) :
    Wf ((tilt f).attach t) ∧ ((tilt f).attach t).height = max h f.other.height + 1 + 1 ∧
      Leaning ((tilt f).attach t) ∧
      keys ((tilt f).attach t) = (f.relabel Node.val).balanceAt (keys t) := by
  have hbal := hf.balance
  rw [hlevel] at hbal
  have hsame := b1_mul_eq hbal
  have htilt : (tilt f).x.balance = -b1 f.right := by
    rw [tilt_balance, hlevel, zero_sub]
  refine ⟨wf_nodeAt.mpr ⟨⟨?_, ?_, ?_, hf.size⟩, ht, hother⟩, ?_, Or.inr ?_, ?_⟩
  · rw [htilt, hheight]
    show -b1 f.right = b1 f.right * ((f.other.height : Int) - (h + 1 : Nat))
    rw [show (f.other.height : Int) - (h + 1 : Nat) = -1 by omega]
    ring
  · show t.height ≤ f.other.height + 1
    omega
  · show f.other.height ≤ t.height + 1
    omega
  · show (nodeAt f.right t _ f.other).height = _
    rw [height_nodeAt]
    omega
  · rw [Frame.attach, rootBalance_nodeAt, htilt]
    exact neg_ne_zero.mpr b1_ne_zero
  · rw [Frame.balanceAt_of_near, keys_attach]
    · rfl
    · rw [height_keys]
      show t.height ≤ (keys f.other).height + 1
      rw [height_keys]
      omega
    · rw [height_keys]
      show (keys f.other).height ≤ t.height + 1
      rw [height_keys]
      omega

/-- `bp` leans to the side that has grown, and is set right by a rotation. -/
lemma settle_turned (ht : Wf t) (hheight : t.height = f.other.height + 2) (hleaning : Leaning t)
    (htilt : (tilt f).x.balance = -2 * b1 f.right)
    (hsize : f.x.size = UInt32.ofNat (t.count + f.other.count + 1)) (hother : Wf f.other) :
    ∃ r, settle (tilt f) t = some r ∧ Wf r ∧ r.height = f.other.height + 2 ∧
      r.count = t.count + f.other.count + 1 ∧
      keys r = restore (!f.right) (keys f.other) f.x.val (keys t) := by
  obtain ⟨inner, q, outer, rfl⟩ := nodeAt_of_height (!f.right) (t := t) (by omega)
  have hlean : q.balance ≠ 0 := by
    rcases hleaning with hone | hlean
    · omega
    · rwa [rootBalance_nodeAt] at hlean
  have hwhich : decide ((tilt f).x.balance < 0) = !f.right := by
    rw [htilt]
    cases f.right <;> rfl
  have hout : ¬(-2 < (tilt f).x.balance ∧ (tilt f).x.balance < 2) := by
    rw [htilt]
    cases f.right <;> decide
  have hsides : ((tilt f).attach (nodeAt (!f.right) inner q outer)).sides (!f.right) =
      some (f.other, (tilt f).x, nodeAt (!f.right) inner q outer) := by
    show (nodeAt f.right _ (tilt f).x f.other).sides _ = _
    rw [← nodeAt_not, sides_nodeAt]
  rw [height_nodeAt] at hheight
  rw [count_nodeAt] at hsize ⊢
  have hheavy : Heavy (!f.right) f.other (tilt f).x q inner outer := by
    refine ⟨hother, ht, by omega, ?_⟩
    rw [Nat.add_comm f.other.count]
    exact hsize
  simp only [settle, if_neg hout, hwhich, hsides, sides_nodeAt]
  rcases hheavy.leans with ⟨hq, ho, hi⟩ | ⟨hq, -, -⟩ | ⟨hq, ho, hi⟩
  · have hturned := hheavy.rotate1_leaning ho hi
    refine ⟨_, if_pos hq, hturned.wf, hturned.heights, ?_, ?_⟩
    · rw [hturned.counts]
      omega
    · rw [hturned.image, keys_nodeAt]
      rfl
  · exact absurd hq hlean
  · have hne : q.balance ≠ b1 (!f.right) := by
      rw [hq]
      cases f.right <;> decide
    obtain ⟨r, hr, hturned⟩ := hheavy.rotate2_spec ho hi
    refine ⟨r, by rw [if_neg hne, hr], hturned.wf, hturned.heights, ?_, ?_⟩
    · rw [hturned.counts]
      omega
    · rw [hturned.image, keys_nodeAt]
      rfl

/-- `bp` leans to the other side, or is set right by a rotation: its height stays. -/
lemma settle_spec (hlean : f.x.balance ≠ 0) (ht : Wf t) (hheight : t.height = h + 1)
    (hleaning : Leaning t)
    (hf : Meets f.right f.x h t.count f.other.height f.other.count) (hother : Wf f.other) :
    ∃ r, settle (tilt f) t = some r ∧ Wf r ∧ r.height = max h f.other.height + 1 ∧
      r.count = t.count + f.other.count + 1 ∧
      keys r = (f.relabel Node.val).balanceAt (keys t) := by
  have hbal := hf.balance
  have hnear := hf.near
  have hfar := hf.far
  have hcases : f.other.height = h + 1 ∨ h = f.other.height + 1 := by
    by_contra hnot
    have hsame : (f.other.height : Int) - h = 0 := by omega
    rw [hsame, mul_zero] at hbal
    exact hlean hbal
  rcases hcases with hoh | hoh
  · have htilt : (tilt f).x.balance = 0 := by
      rw [tilt_balance, hbal, hoh]
      push_cast
      ring
    refine ⟨(tilt f).attach t, ?_, wf_nodeAt.mpr ⟨⟨?_, ?_, ?_, hf.size⟩, ht, hother⟩, ?_, ?_, ?_⟩
    · rw [settle, if_pos (by omega)]
    · rw [htilt, hheight]
      show 0 = b1 f.right * ((f.other.height : Int) - (h + 1 : Nat))
      rw [hoh, sub_self, mul_zero]
    · show t.height ≤ f.other.height + 1
      omega
    · show f.other.height ≤ t.height + 1
      omega
    · show (nodeAt f.right t _ f.other).height = _
      rw [height_nodeAt]
      omega
    · exact count_nodeAt
    · rw [Frame.balanceAt_of_near, keys_attach]
      · rfl
      · show (keys t).height ≤ (keys f.other).height + 1
        rw [height_keys, height_keys]
        omega
      · show (keys f.other).height ≤ (keys t).height + 1
        rw [height_keys, height_keys]
        omega
  · have htilt : (tilt f).x.balance = -2 * b1 f.right := by
      rw [tilt_balance, hbal, hoh]
      push_cast
      ring
    obtain ⟨r, hr, hwf, hrheight, hcount, himage⟩ :=
      settle_turned ht (by omega) hleaning htilt hf.size hother
    refine ⟨r, hr, hwf, by omega, hcount, ?_⟩
    rw [himage, Frame.balanceAt_far]
    · rfl
    · show (keys f.other).height + 2 ≤ (keys t).height
      rw [height_keys, height_keys]
      omega

/-- The way back after an insertion. -/
lemma hang_spec (ht : Wf t) (hheight : t.height = h + 1) (hleaning : Leaning t)
    (hpath : Fits h t.count path) :
    ∃ r, hang t path = some r ∧ Wf r ∧ keys r = climb (keys t) (keyPath path) := by
  induction path generalizing t h with
  | nil => exact ⟨t, rfl, ht, rfl⟩
  | cons f path ih =>
    obtain ⟨hf, hother, hrest⟩ := hpath
    by_cases hlevel : f.x.balance = 0
    · obtain ⟨hwf, hgrown, hleans, himage⟩ := level_step hlevel ht hheight hf hother
      have hcount : ((tilt f).attach t).count = t.count + f.other.count + 1 := count_nodeAt
      obtain ⟨r, hr, hrwf, hrimage⟩ := ih hwf hgrown hleans (by rwa [hcount])
      refine ⟨r, ?_, hrwf, ?_⟩
      · rw [← hr]
        have his : isLevel f = true := decide_eq_true hlevel
        simp only [hang, List.takeWhile_cons, List.dropWhile_cons, his, if_true, List.map_cons,
          plug]
      · rw [hrimage, himage]
        rfl
    · obtain ⟨r, hr, hrwf, hrheight, hrcount, himage⟩ :=
        settle_spec hlevel ht hheight hleaning hf hother
      have hfits : Fits r.height r.count path := by rwa [hrheight, hrcount]
      refine ⟨plug r path, ?_, wf_plug.mpr ⟨hrwf, hfits⟩, ?_⟩
      · have his : isLevel f = false := decide_eq_false hlevel
        simp only [hang, List.takeWhile_cons, List.dropWhile_cons, his, Bool.false_eq_true,
          if_false, List.map_nil, plug, hr, Option.map_some]
      · rw [← climb_of_fits hrwf hfits, himage]
        rfl

lemma find_keys (turn : α → Ordering) (t : Tree α) : (keys t).find turn =
    ((descend (fun p => turn p.val) t []).1.sides false).map fun p => p.2.1.val := by
  have hfind : (keys t).find turn = (t.find fun p => turn p.val).map Node.val := relabel_find
  rw [hfind, descend_find _ t [], Option.map_map]
  rfl

lemma kavlFind_fst (turn : α → Ordering) (t : Tree α) (cnt : UInt32) :
    (kavlFind turn t cnt).1 = (keys t).find turn := by
  induction t generalizing cnt with
  | leaf => rfl
  | node l p r ihl ihr =>
    simp only [kavlFind, keys, relabel, BinTree.find]
    cases turn p.val with
    | lt => exact ihl cnt
    | gt => exact ihr _
    | eq => rfl

/-- The way back after an insertion, for the pools. -/
lemma link_spec (x : α) (hplug : Wf (plug leaf path)) :
    ∃ r, link x path = some r ∧ Wf r ∧
      keys r = (plug (node leaf x leaf) (keyPath path)).rebalance := by
  obtain ⟨-, hpath⟩ := wf_plug.mp hplug
  have hnew : Wf (node leaf { val := x } leaf : Tree α) :=
    ⟨⟨rfl, Nat.zero_le _, Nat.zero_le _, rfl⟩, trivial, trivial⟩
  obtain ⟨r, hr, hwf, himage⟩ := hang_spec (h := 0) hnew rfl (Or.inl rfl) (fits_grow hpath)
  refine ⟨r, hr, hwf, ?_⟩
  rw [himage, keyPath_grow, rebalance_plug hpath.others]
  rfl

theorem kavl_insert_spec {root : Tree α} (turn : α → Ordering) (x : α) (hroot : Wf root)
    (hdepth : root.height ≤ maxDepth) :
    ∃ root', kavlInsert turn x root = some (root', ((keys root).find turn).getD x) ∧ Wf root' ∧
      keys root' = ((keys root).insert turn x).rebalance := by
  have hlength := descend_length (fun p => turn p.val) root []
  have hback := plug_descend (fun p => turn p.val) root []
  have hfind := find_keys turn root
  have hplace := insert_plug (fun p => turn p.val) { val := x } root []
  simp only [kavlInsert]
  cases hd : descend (fun p => turn p.val) root [] with
  | mk p path =>
    rw [hd] at hlength hback hfind hplace
    rw [List.length_nil] at hlength
    rw [if_neg (Nat.not_lt.mpr (by omega))]
    cases p with
    | node l p r =>
      have hfound : (keys root).find turn = some p.val := hfind
      refine ⟨root, ?_, hroot, ?_⟩
      · rw [hfound]
        rfl
      · rw [insert_of_find hfound, rebalance_of_balanced (keys_balanced hroot)]
    | leaf =>
      have hnone : (keys root).find turn = none := hfind
      obtain ⟨root', hlink, hwf, himage⟩ := link_spec x (by rwa [hback])
      refine ⟨root', ?_, hwf, ?_⟩
      · rw [hlink, hnone]
        rfl
      · have hput : keys (root.insert (fun p => turn p.val) { val := x }) =
            plug (node leaf x leaf) (keyPath path) := by
          rw [show root.insert (fun p => turn p.val) { val := x } = _ from hplace rfl, keys_plug]
          rfl
        rw [himage, ← hput]
        congr 1
        exact relabel_insert

/-- One turn of the loop in `kavl_erase`: a node that is out of balance on the other side. -/
lemma retrace_heavy (ht : Wf t) (hoh : f.other.height = t.height + 2)
    (hbal : f.x.balance = b1 f.right)
    (hsize : f.x.size = UInt32.ofNat (t.count + f.other.count + 1)) (hother : Wf f.other)
    (hpath : Fits (t.height + 3) (t.count + f.other.count + 1) path)
    (ih : ∀ {t : Tree α}, Wf t → Fits (t.height + 1) t.count path →
      ∃ r, retrace t path = some r ∧ Wf r ∧ keys r = climb (keys t) (keyPath path)) :
    ∃ r, retrace t (f :: path) = some r ∧ Wf r ∧
      keys r = climb (restore f.right (keys t) f.x.val (keys f.other)) (keyPath path) := by
  obtain ⟨d, p, other⟩ := f
  simp only at *
  obtain ⟨inner, q, outer, rfl⟩ := nodeAt_of_height d (t := other) (by omega)
  rw [height_nodeAt] at hoh
  rw [count_nodeAt] at hsize hpath
  have hheavy : Heavy d t { p with balance := 2 * b1 d } q inner outer :=
    ⟨ht, hother, by omega, hsize⟩
  have hdouble : p.balance + b1 d = 2 * b1 d := by
    rw [hbal]
    ring
  have hne : (2 : Int) * b1 d ≠ b1 d := by
    cases d <;> decide
  simp only [retrace, hdouble, if_neg hne, if_true, sides_nodeAt]
  rcases hheavy.leans with ⟨hq, ho, hi⟩ | ⟨hq, ho, hi⟩ | ⟨hq, ho, hi⟩
  · have hturned := hheavy.rotate1_leaning ho hi
    have hn : q.balance ≠ -b1 d := by
      rw [hq]
      cases d <;> decide
    have hz : q.balance ≠ 0 := by
      rw [hq]
      exact b1_ne_zero
    obtain ⟨r, hr, hwf, himage⟩ := ih hturned.wf
      (by rw [hturned.heights, hturned.counts]; exact hpath)
    refine ⟨r, by rw [if_neg hn, if_neg hz, hr], hwf, ?_⟩
    rw [himage, hturned.image, keys_nodeAt]
  · have hturned := hheavy.rotate1_level ho hi
    have hn : q.balance ≠ -b1 d := by
      rw [hq]
      cases d <;> decide
    have hfits := hpath
    rw [← hturned.heights, ← hturned.counts] at hfits
    refine ⟨_, by rw [if_neg hn, if_pos hq], wf_plug.mpr ⟨hturned.wf, hfits⟩, ?_⟩
    rw [← climb_of_fits hturned.wf hfits, hturned.image, keys_nodeAt]
  · obtain ⟨t', ht', hturned⟩ := hheavy.rotate2_spec ho hi
    obtain ⟨r, hr, hwf, himage⟩ := ih hturned.wf
      (by rw [hturned.heights, hturned.counts]; exact hpath)
    refine ⟨r, by rw [if_pos hq, ht', Option.bind_some, hr], hwf, ?_⟩
    rw [himage, hturned.image, keys_nodeAt]

/-- What is lower by one, and the way back. -/
lemma retrace_spec (ht : Wf t) (hpath : Fits (t.height + 1) t.count path) :
    ∃ r, retrace t path = some r ∧ Wf r ∧ keys r = climb (keys t) (keyPath path) := by
  induction path generalizing t with
  | nil => exact ⟨t, rfl, ht, rfl⟩
  | cons f path ih =>
    obtain ⟨hf, hother, hrest⟩ := hpath
    have hbal := hf.balance
    have hnear := hf.near
    have hfar := hf.far
    have himage : climb (keys t) (keyPath (f :: path)) =
        climb ((f.relabel Node.val).balanceAt (keys t)) (keyPath path) := rfl
    have hkeys : (f.relabel Node.val).other.height = f.other.height := height_keys
    have hoh : f.other.height = t.height ∨ f.other.height = t.height + 1 ∨
        f.other.height = t.height + 2 := by omega
    rw [himage]
    rcases hoh with hoh | hoh | hoh
    · have hzero : f.x.balance + b1 f.right = 0 := by
        rw [hbal, hoh]
        push_cast
        ring
      have hwf : Wf (nodeAt f.right t { f.x with balance := 0 } f.other) := by
        refine wf_nodeAt.mpr ⟨⟨?_, by omega, by omega, hf.size⟩, ht, hother⟩
        show 0 = b1 f.right * ((f.other.height : Int) - t.height)
        rw [hoh, sub_self, mul_zero]
      have hfits : Fits ((nodeAt f.right t { f.x with balance := 0 } f.other).height + 1)
          (nodeAt f.right t { f.x with balance := 0 } f.other).count path := by
        rw [height_nodeAt, count_nodeAt]
        rwa [show max t.height f.other.height + 1 + 1 = max (t.height + 1) f.other.height + 1
          by omega]
      obtain ⟨r, hr, hrwf, hrimage⟩ := ih hwf hfits
      refine ⟨r, ?_, hrwf, ?_⟩
      · have hone : (0 : Int) ≠ b1 f.right := b1_ne_zero.symm
        have htwo : (0 : Int) ≠ 2 * b1 f.right := by
          cases f.right <;> decide
        simp only [retrace, hzero, if_neg hone, if_neg htwo, hr]
      · rw [hrimage, keys_nodeAt, Frame.balanceAt_of_near]
        · rfl
        · rw [height_keys, hkeys]
          omega
        · rw [height_keys, hkeys]
          omega
    · have hone : f.x.balance + b1 f.right = b1 f.right := by
        rw [hbal, hoh]
        push_cast
        ring
      have hwf : Wf (nodeAt f.right t { f.x with balance := b1 f.right } f.other) := by
        refine wf_nodeAt.mpr ⟨⟨?_, by omega, by omega, hf.size⟩, ht, hother⟩
        show b1 f.right = b1 f.right * ((f.other.height : Int) - t.height)
        rw [hoh]
        push_cast
        ring
      have hfits : Fits (nodeAt f.right t { f.x with balance := b1 f.right } f.other).height
          (nodeAt f.right t { f.x with balance := b1 f.right } f.other).count path := by
        rw [height_nodeAt, count_nodeAt]
        rwa [show max t.height f.other.height + 1 = max (t.height + 1) f.other.height + 1
          by omega]
      refine ⟨_, by simp only [retrace, hone, if_true], wf_plug.mpr ⟨hwf, hfits⟩, ?_⟩
      rw [← climb_of_fits hwf hfits, keys_nodeAt, Frame.balanceAt_of_near]
      · rfl
      · rw [height_keys, hkeys]
        omega
      · rw [height_keys, hkeys]
        omega
    · rw [Frame.balanceAt_near (by rw [height_keys, hkeys]; omega)]
      refine retrace_heavy ht hoh ?_ hf.size hother ?_ ih
      · rw [hbal, hoh]
        push_cast
        ring
      · rwa [show max (t.height + 1) f.other.height + 1 = t.height + 3 by omega] at hrest

lemma fits_val {a : List (Frame (Node α))} {v : α} {other : Tree α}
    (hpath : Fits h n (a ++ ⟨d, p, other⟩ :: path)) :
    Fits h n (a ++ ⟨d, { p with val := v }, other⟩ :: path) := by
  induction a generalizing h n with
  | nil => exact ⟨⟨hpath.1.balance, hpath.1.near, hpath.1.far, hpath.1.size⟩, hpath.2⟩
  | cons f a ih => exact ⟨hpath.1, hpath.2.1, ih hpath.2.2⟩

lemma unlink_node {l ql qr : Tree α} :
    unlink l p (node ql q qr) path = retrace (leftmost ql q qr []).2.1
      (((leftmost ql q qr []).2.2 ++
        ⟨true, { p with val := (leftmost ql q qr []).1.val }, l⟩ :: path).map shrink) := by
  rw [List.map_append]
  cases ql <;> rfl

lemma unlink_spec {l r : Tree α} (hplug : Wf (plug (node l p r) path)) :
    ∃ t, unlink l p r path = some t ∧ Wf t ∧
      keys t = (keys (plug (join l r) path)).rebalance := by
  cases r with
  | leaf =>
    obtain ⟨⟨-, hl, -⟩, hpath⟩ := wf_plug.mp hplug
    rw [height_node, count_node, height_leaf, count_leaf, Nat.max_eq_left (Nat.zero_le _),
      Nat.add_zero] at hpath
    obtain ⟨t, ht, hwf, himage⟩ := retrace_spec hl (fits_shrink hpath)
    refine ⟨t, ht, hwf, ?_⟩
    have hlow : (keys (join l leaf)).rebalance = keys l :=
      rebalance_of_balanced (keys_balanced hl)
    rw [himage, keyPath_shrink, keys_plug, rebalance_plug hpath.others, hlow]
  | node ql q qr =>
    have hwhole : plug (node leaf (leftmost ql q qr []).1 (leftmost ql q qr []).2.1)
        ((leftmost ql q qr []).2.2 ++ ⟨true, p, l⟩ :: path) =
        plug (node l p (node ql q qr)) path := by
      rw [plug_append, leftmost_plug]
      rfl
    have hpop := leftmost_popMin ql q qr []
    rw [unlink_node]
    generalize leftmost ql q qr [] = out at *
    obtain ⟨m, rest, chain⟩ := out
    rw [← hwhole] at hplug
    obtain ⟨⟨-, -, hrest⟩, hpath⟩ := wf_plug.mp hplug
    rw [height_node, count_node, height_leaf, count_leaf, Nat.max_eq_right (Nat.zero_le _),
      Nat.zero_add] at hpath
    have hfits := fits_val (v := m.val) hpath
    obtain ⟨t, ht, hwf, himage⟩ := retrace_spec hrest (fits_shrink hfits)
    refine ⟨t, ht, hwf, ?_⟩
    have hkeys : keyPath (chain ++ ⟨true, { p with val := m.val }, l⟩ :: path) =
        keyPath (chain ++ ⟨true, m, l⟩ :: path) := by
      rw [keyPath, keyPath, List.map_append, List.map_append]
      rfl
    have hback : plug rest (chain ++ ⟨true, m, l⟩ :: path) =
        plug (join l (node ql q qr)) path := by
      rw [plug_append, join, ← hpop.1, show (popMin ql q qr).2 = plug rest chain from hpop.2.symm]
      rfl
    rw [himage, keyPath_shrink, ← hback, keys_plug, ← hkeys, rebalance_plug hfits.others,
      rebalance_of_balanced (keys_balanced hrest)]

lemma entries_le (l : Tree α) (p : Node α) (r : Tree α) (path : Path α) :
    entries r path ≤ path.length + (node l p r).height := by
  rw [height_node]
  cases r with
  | leaf => exact Nat.add_le_add_left (Nat.le_add_left ..) _
  | node ql q qr =>
    have hchain := leftmost_length ql q qr []
    have hentries : entries (node ql q qr) path ≤
        path.length + 2 + (leftmost ql q qr []).2.2.length := by
      cases ql <;> exact Nat.le_refl _
    rw [List.length_nil] at hchain
    omega

theorem kavl_erase_spec {root : Tree α} (turn : α → Ordering) (hroot : Wf root)
    (hdepth : root.height < maxDepth) :
    ∃ root', kavlErase turn root = some (root', (keys root).find turn) ∧ Wf root' ∧
      keys root' = ((keys root).erase turn).rebalance := by
  have hlength := descend_length (fun p => turn p.val) root []
  have hback := plug_descend (fun p => turn p.val) root []
  have hfind := find_keys turn root
  unfold kavlErase
  cases hd : descend (fun p => turn p.val) root [] with
  | mk p path =>
    rw [hd] at hlength hback hfind
    rw [List.length_nil] at hlength
    cases p with
    | leaf =>
      have hnone : (keys root).find turn = none := hfind
      refine ⟨root, ?_, hroot, ?_⟩
      · rw [hnone]
        exact if_neg (Nat.not_lt.mpr (by simp only at hlength; omega))
      · rw [erase_of_find hnone, rebalance_of_balanced (keys_balanced hroot)]
    | node l p r =>
      have hfound : (keys root).find turn = some p.val := hfind
      have hentries := entries_le l p r path
      obtain ⟨root', hunlink, hwf, himage⟩ := unlink_spec (by rwa [hback])
      refine ⟨root', ?_, hwf, ?_⟩
      · simp only [if_neg (Nat.not_lt.mpr (show entries r path ≤ maxDepth by
          simp only at hlength; omega)), hunlink, hfound, Option.map_some]
      · have hput := erase_plug (fun p => turn p.val) root [] (congrArg Prod.fst hd)
        rw [hd] at hput
        rw [himage, ← hput]
        congr 1
        exact relabel_erase

lemma kavlEraseFirst_node {l r : Tree α} : kavlEraseFirst (node l p r) =
    if maxDepth < (leftmost l p r []).2.2.length + 2 ∨
        maxDepth < entries (leftmost l p r []).2.1 (leftmost l p r []).2.2 then none
    else (unlink leaf (leftmost l p r []).1 (leftmost l p r []).2.1 (leftmost l p r []).2.2).map
      fun root => (root, (leftmost l p r []).1.val) := rfl

theorem kavl_erase_first_spec {l r : Tree α} (hroot : Wf (node l p r))
    (hdepth : (node l p r).height < maxDepth) :
    ∃ root', kavlEraseFirst (node l p r) =
        some (root', (popMin (keys l) p.val (keys r)).1) ∧ Wf root' ∧
      keys root' = (popMin (keys l) p.val (keys r)).2.rebalance := by
  have hlength := leftmost_length l p r []
  have hback := leftmost_plug l p r []
  have hpop := leftmost_popMin l p r []
  have hkeys : popMin (keys l) p.val (keys r) =
      ((popMin l p r).1.val, keys (popMin l p r).2) := relabel_popMin
  rw [hkeys, ← hpop.1, show (popMin l p r).2 = _ from hpop.2.symm]
  rw [kavlEraseFirst_node]
  generalize leftmost l p r [] = out at *
  obtain ⟨m, rest, chain⟩ := out
  simp only [List.length_nil] at hlength hback ⊢
  have hentries := entries_le leaf m rest chain
  rw [height_node, height_leaf] at hentries
  have hplug : Wf (plug (node leaf m rest) chain) := by
    rw [hback]
    exact hroot
  have hlow : rest.height ≤ 1 := (wf_plug.mp hplug).1.1.far
  obtain ⟨root', hunlink, hwf, himage⟩ := unlink_spec hplug
  refine ⟨root', ?_, hwf, ?_⟩
  · rw [if_neg (by omega), hunlink]
    rfl
  · rw [himage, join_leaf hlow]

/-- `cnt` of `kavl_find`: how many elements are smaller or equal, where the comparator and the tree
agree. -/
theorem kavl_find_rank (turn : α → Ordering) (cnt : UInt32) (ht : Wf t)
    (hsorted : (keys t).inorder.Pairwise fun a b => turn b ≠ .lt → turn a = .gt) :
    (kavlFind turn t cnt).2 =
      cnt + UInt32.ofNat ((keys t).inorder.countP fun x => turn x != .lt) := by
  induction t generalizing cnt with
  | leaf =>
    show cnt = cnt + 0
    grind
  | node l p r ihl ihr =>
    have hin : (keys (node l p r)).inorder = (keys l).inorder ++ p.val :: (keys r).inorder := rfl
    rw [hin] at hsorted ⊢
    obtain ⟨hl, hr, hcross⟩ := List.pairwise_append.mp hsorted
    obtain ⟨hp, hr⟩ := List.pairwise_cons.mp hr
    have hsize : kavlSize l = UInt32.ofNat (keys l).inorder.length := by
      rw [kavlSize_eq ht.2.1, keys, inorder_relabel, List.length_map]
      rfl
    have hafter : turn p.val ≠ .gt → (keys r).inorder.countP (fun x => turn x != .lt) = 0 := by
      intro hgt
      refine List.countP_eq_zero.mpr fun b hb => ?_
      have hlt : turn b = .lt := Classical.not_not.mp fun hlt => hgt (hp b hb hlt)
      simp [hlt]
    have hbefore : turn p.val ≠ .lt →
        (keys l).inorder.countP (fun x => turn x != .lt) = (keys l).inorder.length := by
      intro hlt
      refine List.countP_eq_length.mpr fun a ha => ?_
      simp [hcross a ha p.val List.mem_cons_self hlt]
    rw [List.countP_append, List.countP_cons]
    cases hturn : turn p.val with
    | lt =>
      have hnone := hafter (by rw [hturn]; exact fun h => by cases h)
      simp only [kavlFind, hturn, ihl cnt ht.2.1 hl, hnone]
      simp
    | gt =>
      have hall := hbefore (by rw [hturn]; exact fun h => by cases h)
      simp only [kavlFind, hturn, ihr _ ht.2.2 hr, hsize, hall]
      simp only [bne_iff_ne, ne_eq, reduceCtorEq, not_false_eq_true, if_true, UInt32.ofNat_add]
      grind
    | eq =>
      have hall := hbefore (by rw [hturn]; exact fun h => by cases h)
      have hnone := hafter (by rw [hturn]; exact fun h => by cases h)
      simp only [kavlFind, hturn, hsize, hall, hnone]
      simp only [bne_iff_ne, ne_eq, reduceCtorEq, not_false_eq_true, if_true, UInt32.ofNat_add]
      grind

def threeNodes : Tree Nat :=
  node (node leaf ⟨1, 0, 1⟩ leaf) ⟨2, 0, 3⟩ (node leaf ⟨3, 0, 1⟩ leaf)

theorem kavl_find_rank_two : (kavlFind (compare 2) threeNodes 0).2 =
    0 + UInt32.ofNat ((keys threeNodes).inorder.countP fun x => compare 2 x != .lt) :=
  kavl_find_rank (compare 2) 0
    ⟨⟨rfl, by decide, by decide, rfl⟩,
      ⟨⟨rfl, by decide, by decide, rfl⟩, trivial, trivial⟩,
      ⟨⟨rfl, by decide, by decide, rfl⟩, trivial, trivial⟩⟩
    (by decide)

section Calls

/-- A call of one of the functions, or a round of a loop like the one of `mem_destroy`, which stops
at an empty tree. -/
inductive Call (α : Type u) where
  | find (turn : α → Ordering)
  | insert (turn : α → Ordering) (x : α)
  | erase (turn : α → Ordering)
  | eraseFirst

/-- What the call leaves and returns. -/
def answer (root : Tree α) : Call α → Option (Tree α × Option α)
  | .find turn => some (root, (kavlFind turn root 0).1)
  | .insert turn x => (kavlInsert turn x root).map fun (root, v) => (root, some v)
  | .erase turn => kavlErase turn root
  | .eraseFirst =>
    match root with
    | leaf => some (leaf, none)
    | node l p r => (kavlEraseFirst (node l p r)).map fun (root, v) => (root, some v)

/-- The same in a search tree without balance factors and sizes. -/
def plainAnswer (t : BinTree α) : Call α → BinTree α × Option α
  | .find turn => (t, t.find turn)
  | .insert turn x => ((t.insert turn x).rebalance, some ((t.find turn).getD x))
  | .erase turn => ((t.erase turn).rebalance, t.find turn)
  | .eraseFirst =>
    match t with
    | leaf => (leaf, none)
    | node l x r => ((popMin l x r).2.rebalance, some (popMin l x r).1)

def answers : Tree α → List (Call α) → Option (Tree α × List (Option α))
  | root, [] => some (root, [])
  | root, call :: calls => do
    let (root, v) ← answer root call
    let (root, vs) ← answers root calls
    return (root, v :: vs)

def plainAnswers : BinTree α → List (Call α) → BinTree α × List (Option α)
  | t, [] => (t, [])
  | t, call :: calls =>
    let (t, v) := plainAnswer t call
    let (t, vs) := plainAnswers t calls
    (t, v :: vs)

lemma count_keys (t : Tree α) : (keys t).count = t.count := by
  unfold BinTree.count keys
  rw [inorder_relabel, List.length_map]

lemma answer_spec (call : Call α) (ht : Wf t) (hdepth : t.height < maxDepth) :
    ∃ root v, answer t call = some (root, v) ∧ Wf root ∧ root.count ≤ t.count + 1 ∧
      plainAnswer (keys t) call = (keys root, v) := by
  cases call with
  | find turn =>
    refine ⟨t, _, rfl, ht, Nat.le_succ _, ?_⟩
    rw [plainAnswer, kavlFind_fst]
  | insert turn x =>
    obtain ⟨root, hinsert, hwf, himage⟩ := kavl_insert_spec turn x ht hdepth.le
    refine ⟨root, _, by rw [answer, hinsert]; rfl, hwf, ?_, ?_⟩
    · rw [← count_keys, ← count_keys t, himage, count_rebalance]
      exact count_insert_le
    · rw [plainAnswer, himage]
  | erase turn =>
    obtain ⟨root, herase, hwf, himage⟩ := kavl_erase_spec turn ht hdepth
    refine ⟨root, _, herase, hwf, ?_, ?_⟩
    · rw [← count_keys, ← count_keys t, himage, count_rebalance]
      exact Nat.le_succ_of_le count_erase_le
    · rw [plainAnswer, himage]
  | eraseFirst =>
    cases t with
    | leaf => exact ⟨leaf, none, rfl, ht, Nat.le_succ _, rfl⟩
    | node l p r =>
      obtain ⟨root, herase, hwf, himage⟩ := kavl_erase_first_spec ht hdepth
      refine ⟨root, _, by rw [answer, herase]; rfl, hwf, ?_, ?_⟩
      · have hpop := congrArg List.length (popMin_inorder (keys l) p.val (keys r))
        have hkeys : (keys (node l p r)).inorder.length = (node l p r).count := count_keys _
        rw [← count_keys, himage, count_rebalance, ← hkeys]
        rw [List.length_cons] at hpop
        exact Nat.le_succ_of_le (Nat.le_of_succ_le (Nat.le_of_eq hpop))
      · rw [himage]
        rfl

lemma answers_spec (calls : List (Call α)) (ht : Wf t) (hroom : t.count + calls.length < 2 ^ 44) :
    ∃ root vs, answers t calls = some (root, vs) ∧ Wf root ∧
      root.count ≤ t.count + calls.length ∧ plainAnswers (keys t) calls = (keys root, vs) := by
  induction calls generalizing t with
  | nil => exact ⟨t, [], rfl, ht, Nat.le_refl _, rfl⟩
  | cons call calls ih =>
    rw [List.length_cons] at hroom ⊢
    have hdepth : t.height < maxDepth := shallow ht (by omega)
    obtain ⟨mid, v, hcall, hmid, hcount, hplain⟩ := answer_spec call ht hdepth
    obtain ⟨root, vs, hcalls, hwf, hle, hrest⟩ := ih hmid (by omega)
    refine ⟨root, v :: vs, ?_, hwf, by omega, ?_⟩
    · simp only [answers, hcall, hcalls, Option.bind_eq_bind, Option.bind_some]
      rfl
    · simp only [plainAnswers, hplain, hrest]

/-- Any calls on an empty tree return, and return what they do in a plain search tree, whatever the
comparators. The tree is balanced then, and its fields are right. -/
theorem kavl_calls (calls : List (Call α)) (hlen : calls.length < 2 ^ 44) :
    ∃ root vs, answers leaf calls = some (root, vs) ∧ Wf root ∧ root.height < maxDepth ∧
      plainAnswers leaf calls = (keys root, vs) := by
  have hroom : (leaf : Tree α).count + calls.length < 2 ^ 44 := by
    rw [count_leaf, Nat.zero_add]
    exact hlen
  have hleaf : Wf (leaf : Tree α) := trivial
  obtain ⟨root, vs, hcalls, hwf, hcount, hplain⟩ := answers_spec calls hleaf hroom
  exact ⟨root, vs, hcalls, hwf, shallow hwf (by omega), hplain⟩

theorem kavl_calls_four :
    ∃ root vs, answers leaf [.insert (compare 1) 1, .insert (compare 2) 2, .insert (compare 3) 3,
        .erase (compare 2)] = some (root, vs) ∧ Wf root ∧ root.height < maxDepth ∧
      plainAnswers leaf [.insert (compare 1) 1, .insert (compare 2) 2, .insert (compare 3) 3,
        .erase (compare 2)] = (keys root, vs) :=
  kavl_calls [.insert (compare 1) 1, .insert (compare 2) 2, .insert (compare 3) 3,
    .erase (compare 2)] (by decide)

end Calls

end Invariant

end Kavl
