import Mathlib.Data.List.Nodup
import NoZapret.Pool

/-!
# The pool of buffers

`buff_pop` hands out the buffer that was given back last, as it is, or new memory; `buff_push`
takes one back. A buffer that is held by a slot is not in the pool, and no two slots hold the
same one.
-/

namespace BuffPool

open Packets Pool

/-- The buffers in memory, by the addresses that `malloc` hands out one after the other. -/
structure Mem where
  buffers : Nat → Buffer
  /-- from `root_buff` on -/
  free : List Nat := []
  fresh : Nat := 0

/-- `MAX_BUFF_INP` -/
def maxBuffInp : Nat := 8

namespace Mem

def put (m : Mem) (i : Nat) (b : Buffer) : Mem :=
  { m with buffers := Function.update m.buffers i b }

def size (m : Mem) (i : Nat) : Nat := (m.buffers i).data.length

end Mem

/-- `memcpy` to this place of a block; the block grows if there is no room. -/
def overwrite (b : Bytes) (k : Nat) (xs : Bytes) : Bytes :=
  b.take k ++ xs ++ b.drop (k + xs.length)

/-- `recv(fd, buff->data, ..)` -/
def Mem.recv (m : Mem) (i : Nat) (chunk : Bytes) : Mem :=
  m.put i { m.buffers i with data := overwrite (m.buffers i).data 0 chunk }

/-- `size` bytes of memory that have been used for something else before -/
def garbage (b : Bytes) (size : Nat) : Bytes :=
  b.take size ++ List.replicate (size - b.length) 0

/-- `buff_pop`, if there is memory; a buffer from the pool may have another size. -/
def buffPop (m : Mem) (size : Nat) (ok : Bool) : Option (Nat × Mem) :=
  match m.free with
  | i :: rest => some (i, { m with free := rest })
  | [] =>
    if ok then
      some (m.fresh, { m.put m.fresh { data := garbage (m.buffers m.fresh).data size } with
        fresh := m.fresh + 1 })
    else none

/-- `buff_push`; the buffer is given back to the system when the pool is full. -/
def buffPush (m : Mem) (i : Nat) : Mem :=
  if maxBuffInp ≤ m.free.length then m
  else { m.put i { m.buffers i with lock := 0, offset := 0 } with free := i :: m.free }

def buffPpop (m : Mem) (size : Nat) (ok : Bool) : Option (Nat × Mem) :=
  (buffPop m size ok).map fun r => (r.1, buffPush r.2 r.1)

/-- The buffers that are held are apart from each other and from those in the pool. -/
structure Owned (size : Nat) (held : List Nat) (m : Mem) : Prop where
  once : (m.free ++ held).Nodup
  old : ∀ i ∈ m.free ++ held, i < m.fresh
  size : ∀ i ∈ m.free ++ held, m.size i = size
  empty : ∀ i ∈ m.free, (m.buffers i).lock = 0
  bound : m.free.length ≤ maxBuffInp

section Owned

variable {size i j : Nat} {held held' : List Nat} {m m' : Mem} {b : Buffer} {ok : Bool}

lemma overwrite_length {b xs : Bytes} {k : Nat} (h : k + xs.length ≤ b.length) :
    (overwrite b k xs).length = b.length := by
  simp only [overwrite, List.length_append, List.length_take, List.length_drop]
  omega

/-- What is in front of the place stays, and the bytes follow it. -/
lemma overwrite_take {b xs : Bytes} {k : Nat} (h : k ≤ b.length) :
    (overwrite b k xs).take (k + xs.length) = b.take k ++ xs := by
  rw [overwrite, List.take_append_of_le_length (by simp; omega), List.take_of_length_le]
  simp only [List.length_append, List.length_take]
  omega

lemma overwrite_front (b xs : Bytes) : (overwrite b 0 xs).take xs.length = xs := by
  have hfront : (overwrite b 0 xs).take (0 + xs.length) = b.take 0 ++ xs :=
    overwrite_take (Nat.zero_le b.length)
  rwa [Nat.zero_add, List.take_zero, List.nil_append] at hfront

@[simp] lemma put_self (m : Mem) (i : Nat) (b : Buffer) : (m.put i b).buffers i = b := by
  simp [Mem.put]

lemma put_of_ne (h : j ≠ i) : (m.put i b).buffers j = m.buffers j := by
  simp [Mem.put, h]

@[simp] lemma put_free (m : Mem) (i : Nat) (b : Buffer) : (m.put i b).free = m.free := rfl

lemma Owned.perm (h : Owned size held m) (hp : held.Perm held') : Owned size held' m := by
  have hall := hp.append_left m.free
  exact ⟨hall.nodup_iff.mp h.once, fun i hi => h.old i (hall.mem_iff.mpr hi),
    fun i hi => h.size i (hall.mem_iff.mpr hi), h.empty, h.bound⟩

lemma Owned.not_held (h : Owned size (i :: held) m) : i ∉ held :=
  (List.nodup_cons.mp (List.nodup_append.mp h.once).2.1).1

lemma Owned.not_free (h : Owned size held m) (hi : i ∈ held) : i ∉ m.free :=
  fun hf => (List.nodup_append.mp h.once).2.2 i hf i hi rfl

lemma put_size {l : List Nat} (hb : b.data.length = size) (h : ∀ k ∈ l, m.size k = size) :
    ∀ k ∈ l, (m.put i b).size k = size := by
  intro k hk
  by_cases hki : k = i
  · subst hki
    rw [Mem.size, put_self, hb]
  · rw [Mem.size, put_of_ne hki]
    exact h k hk

/-- A buffer that is held is written. -/
lemma Owned.put (h : Owned size held m) (hi : i ∈ held) (hb : b.data.length = size) :
    Owned size held (m.put i b) := by
  refine ⟨h.once, h.old, put_size hb h.size, ?_, h.bound⟩
  intro k hk
  have hne : k ≠ i := by
    rintro rfl
    exact h.not_free hi hk
  rw [put_of_ne hne]
  exact h.empty k hk

/-- So is one in the pool, apart from its `lock`. -/
lemma Owned.fill (h : Owned size held m) (hb : b.data.length = size)
    (hlock : b.lock = (m.buffers i).lock) : Owned size held (m.put i b) := by
  refine ⟨h.once, h.old, put_size hb h.size, ?_, h.bound⟩
  intro k hk
  by_cases hki : k = i
  · subst hki
    rw [put_self, hlock]
    exact h.empty k hk
  · rw [put_of_ne hki]
    exact h.empty k hk

lemma recv_size {chunk : Bytes} (h : chunk.length ≤ m.size i) : (m.recv i chunk).size i = m.size i := by
  rw [Mem.recv, Mem.size, put_self]
  exact overwrite_length (by rw [Nat.zero_add]; exact h)

lemma recv_take (m : Mem) (i : Nat) (chunk : Bytes) :
    ((m.recv i chunk).buffers i).data.take chunk.length = chunk := by
  rw [Mem.recv, put_self, overwrite_front]

lemma recv_of_ne {chunk : Bytes} (h : j ≠ i) : (m.recv i chunk).buffers j = m.buffers j :=
  put_of_ne h

lemma Owned.recv {chunk : Bytes} (h : Owned size held m) (hi : i ∈ held)
    (hfits : chunk.length ≤ m.size i) : Owned size held (m.recv i chunk) := by
  refine h.put hi ?_
  have hsize := recv_size hfits
  rw [Mem.recv, Mem.size, put_self] at hsize
  rw [hsize]
  exact h.size i (List.mem_append_right _ hi)

/-- What `buff_pop` hands out, and what it leaves alone. -/
structure Popped (size : Nat) (held : List Nat) (m m' : Mem) (i : Nat) : Prop where
  owned : Owned size (i :: held) m'
  lock : (m'.buffers i).lock = 0
  kept : ∀ j ∈ held, m'.buffers j = m.buffers j

lemma garbage_length (b : Bytes) (size : Nat) : (garbage b size).length = size := by
  simp only [garbage, List.length_append, List.length_take, List.length_replicate]
  omega

lemma Owned.pop (h : Owned size held m) (hpop : buffPop m size ok = some (i, m')) :
    Popped size held m m' i := by
  unfold buffPop at hpop
  split at hpop
  · rename_i k rest hfree
    cases hpop
    have hmem : ∀ j, j ∈ rest ++ i :: held ↔ j ∈ m.free ++ held := by
      intro j
      rw [hfree]
      simp only [List.mem_append, List.mem_cons]
      tauto
    refine ⟨⟨?_, fun j hj => h.old j ((hmem j).mp hj), fun j hj => h.size j ((hmem j).mp hj), ?_, ?_⟩,
      h.empty i (by rw [hfree]; exact List.mem_cons_self), fun _ _ => rfl⟩
    · have honce := h.once
      rw [hfree, List.cons_append] at honce
      exact List.perm_middle.nodup_iff.mpr honce
    · intro j hj
      exact h.empty j (by rw [hfree]; exact List.mem_cons_of_mem _ hj)
    · have hbound := h.bound
      rw [hfree, List.length_cons] at hbound
      exact Nat.le_of_succ_le hbound
  · rename_i hfree
    split at hpop
    · cases hpop
      have hnew : m.fresh ∉ m.free ++ held := fun hmem => Nat.lt_irrefl _ (h.old _ hmem)
      rw [hfree, List.nil_append] at hnew
      have hne : ∀ j ∈ held, j ≠ m.fresh := fun j hj hjf => hnew (hjf ▸ hj)
      refine ⟨⟨?_, ?_, ?_, ?_, h.bound⟩, ?_, ?_⟩
      · have honce := h.once
        rw [hfree, List.nil_append] at honce
        simpa [hfree] using ⟨hnew, honce⟩
      · intro j hj
        change j < m.fresh + 1
        simp only [put_free, hfree, List.nil_append, List.mem_cons] at hj
        rcases hj with rfl | hj
        · omega
        · have hlt := h.old j (List.mem_append_right _ hj)
          omega
      · intro j hj
        simp only [put_free, hfree, List.nil_append, List.mem_cons] at hj
        rcases hj with rfl | hj
        · simp only [Mem.size, put_self]
          exact garbage_length _ size
        · simp only [Mem.size, put_of_ne (hne j hj)]
          exact h.size j (List.mem_append_right _ hj)
      · intro j hj
        simp [hfree] at hj
      · simp only [put_self]
      · intro j hj
        exact put_of_ne (hne j hj)
    · cases hpop

lemma Owned.push (h : Owned size (i :: held) m) :
    Owned size held (buffPush m i) ∧ ∀ j ∈ held, (buffPush m i).buffers j = m.buffers j := by
  have hi := h.not_held
  have hif := h.not_free List.mem_cons_self
  have hperm : (m.free ++ i :: held).Perm (i :: m.free ++ held) := List.perm_middle
  unfold buffPush
  split
  · refine ⟨⟨?_, ?_, ?_, h.empty, h.bound⟩, fun _ _ => rfl⟩
    · exact h.once.sublist ((List.sublist_cons_self i held).append_left m.free)
    · intro j hj
      exact h.old j (hperm.mem_iff.mpr (List.mem_cons_of_mem i hj))
    · intro j hj
      exact h.size j (hperm.mem_iff.mpr (List.mem_cons_of_mem i hj))
  · rename_i hroom
    have hsize : ∀ j ∈ m.free ++ i :: held,
        (m.put i { m.buffers i with lock := 0, offset := 0 }).size j = size :=
      put_size (h.size i (hperm.mem_iff.mpr List.mem_cons_self)) h.size
    refine ⟨⟨hperm.nodup_iff.mp h.once, fun j hj => h.old j (hperm.mem_iff.mpr hj),
      fun j hj => hsize j (hperm.mem_iff.mpr hj), ?_, ?_⟩, ?_⟩
    · intro j hj
      by_cases hji : j = i
      · subst hji
        simp only [put_self]
      · simp only [put_of_ne hji]
        exact h.empty j ((List.mem_cons.mp hj).resolve_left hji)
    · rw [List.length_cons]
      omega
    · intro j hj
      have hne : j ≠ i := fun hji => hi (hji ▸ hj)
      simp only [put_of_ne hne]

lemma buffPop_cons {rest : List Nat} (hfree : m.free = i :: rest) :
    buffPop m size ok = some (i, { m with free := rest }) := by
  simp only [buffPop, hfree]

/-- `buff_ppop` leaves the buffer on top of the pool. -/
lemma Owned.ppop (h : Owned size held m) (hpop : buffPpop m size ok = some (i, m')) :
    Owned size held m' ∧ ∃ rest, m'.free = i :: rest := by
  rw [buffPpop, Option.map_eq_some_iff] at hpop
  obtain ⟨⟨k, m₁⟩, hk, heq⟩ := hpop
  rw [Prod.mk.injEq] at heq
  obtain ⟨rfl, rfl⟩ := heq
  refine ⟨(h.pop hk).owned.push.1, m₁.free, ?_⟩
  have hroom : m₁.free.length < maxBuffInp := by
    have hbound := h.bound
    unfold buffPop at hk
    split at hk
    · rename_i rest hfree
      cases hk
      rw [hfree, List.length_cons] at hbound
      exact hbound
    · rename_i hfree
      split at hk
      · cases hk
        rw [put_free, hfree]
        decide
      · cases hk
  simp only [buffPush, if_neg (Nat.not_le.mpr hroom)]

end Owned

end BuffPool
