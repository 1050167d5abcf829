import Mathlib.Data.List.Basic

/-!
# Bounded memory blocks

A block is the list of its cells. Addresses are offsets from its start and may
be any integer, because pointer arithmetic can leave the block in both
directions. Every access returns `none` when it touches a cell outside: the
development reads `none` as undefined behaviour, never as a value.
-/

namespace Block

universe u
variable {α : Type u}

def rd (b : List α) (i : Int) : Option α :=
  if 0 ≤ i then b[i.toNat]? else none

def wr (b : List α) (i : Int) (x : α) : Option (List α) :=
  if 0 ≤ i ∧ i < b.length then some (b.set i.toNat x) else none

/-- The `len` cells from `i`, all of them inside. -/
def slice (b : List α) (i len : Int) : Option (List α) :=
  if 0 ≤ i ∧ 0 ≤ len ∧ i + len ≤ b.length then
    some ((b.drop i.toNat).take len.toNat)
  else none

/-- Overwrite the cells from `i` with `xs`. -/
def blit (b : List α) (i : Int) (xs : List α) : Option (List α) :=
  if 0 ≤ i ∧ i + xs.length ≤ b.length then
    some (b.take i.toNat ++ xs ++ b.drop (i.toNat + xs.length))
  else none

/-- Overlapping copy. A negative length is the huge `size_t` it converts to. -/
def memmove (b : List α) (dst src len : Int) : Option (List α) := do
  blit b dst (← slice b src len)

def memset (b : List α) (i : Int) (x : α) (len : Int) : Option (List α) :=
  if 0 ≤ len then blit b i (List.replicate len.toNat x) else none

/-- First cell in `[i, i + len)` that satisfies `p`, as an address. -/
def findIn (b : List α) (p : α → Bool) (i len : Int) : Option (Option Int) :=
  (slice b i len).map fun xs => (xs.findIdx? p).map fun k => i + k

lemma wr_length {b b' : List α} {i : Int} {x : α} (h : wr b i x = some b') :
    b'.length = b.length := by
  unfold wr at h
  split at h
  · cases h
    exact List.length_set
  · cases h

lemma slice_length {b xs : List α} {i len : Int} (h : slice b i len = some xs) :
    (xs.length : Int) = len := by
  unfold slice at h
  split at h
  · cases h
    simp only [List.length_take, List.length_drop]
    omega
  · cases h

lemma blit_length {b b' xs : List α} {i : Int} (h : blit b i xs = some b') :
    b'.length = b.length := by
  unfold blit at h
  split at h
  · cases h
    simp only [List.length_append, List.length_take, List.length_drop]
    omega
  · cases h

lemma memmove_length {b b' : List α} {dst src len : Int}
    (h : memmove b dst src len = some b') : b'.length = b.length := by
  simp only [memmove, Option.bind_eq_bind, Option.bind_eq_some_iff] at h
  obtain ⟨xs, -, hb⟩ := h
  exact blit_length hb

lemma memset_length {b b' : List α} {i len : Int} {x : α}
    (h : memset b i x len = some b') : b'.length = b.length := by
  unfold memset at h
  split at h
  · exact blit_length h
  · cases h

lemma slice_eq {b : List α} {i j : Nat} (hij : i ≤ j) (hj : j ≤ b.length) :
    slice b i ((j : Int) - i) = some ((b.drop i).take (j - i)) := by
  unfold slice
  rw [if_pos (by omega)]
  congr 2
  omega

/-- The cells of `[i, j)`, each with its address. -/
def span (b : List α) (i j : Nat) : List (α × Nat) := ((b.take j).drop i).zipIdx i

@[simp] lemma span_self (b : List α) (i : Nat) : span b i i = [] := by
  simp [span]

lemma span_length {b : List α} {i j : Nat} (hj : j ≤ b.length) :
    (span b i j).length = j - i := by
  simp [span, Nat.min_eq_left hj]

/-- Consecutive spans join: how a run of sends adds up to one longer block. -/
theorem span_append {b : List α} {i j k : Nat} (hij : i ≤ j) (hjk : j ≤ k) (hj : j ≤ b.length) :
    span b i j ++ span b j k = span b i k := by
  have hsplit : (b.take k).drop i = (b.take j).drop i ++ (b.take k).drop j := by
    have hk : b.take k = b.take j ++ (b.take k).drop j := by
      conv_lhs => rw [← List.take_append_drop j (b.take k)]
      rw [List.take_take, Nat.min_eq_left hjk]
    conv_lhs => rw [hk]
    rw [List.drop_append_of_le_length (by simp only [List.length_take]; omega)]
  have hlen : i + ((b.take j).drop i).length = j := by
    simp only [List.length_drop, List.length_take]
    omega
  unfold span
  rw [hsplit, List.zipIdx_append, hlen]

lemma span_addr {b : List α} {i j k : Nat} {x : α × Nat} (h : (span b i j)[k]? = some x) :
    x.2 = i + k := by
  simp only [span, List.getElem?_zipIdx, Option.map_eq_some_iff] at h
  obtain ⟨a, -, rfl⟩ := h
  rfl

lemma zipIdx_take (l : List α) (n k : Nat) : (l.zipIdx n).take k = (l.take k).zipIdx n := by
  induction l generalizing n k with
  | nil => simp
  | cons a l ih =>
    cases k with
    | zero => rfl
    | succ k => simp [ih]

lemma span_take {b : List α} {i j k : Nat} (hik : i + k ≤ j) :
    (span b i j).take k = span b i (i + k) := by
  have hcut : ((b.take j).drop i).take k = (b.take (i + k)).drop i := by
    rw [List.take_drop, List.take_take, Nat.min_eq_left hik]
  unfold span
  rw [zipIdx_take, hcut]

lemma slice_zipIdx {b xs : List α} {i j : Nat} (hij : i ≤ j) (hj : j ≤ b.length)
    (h : slice b i ((j : Int) - i) = some xs) : xs.zipIdx i = span b i j := by
  rw [slice_eq hij hj] at h
  cases h
  rw [span, List.drop_take]

end Block
