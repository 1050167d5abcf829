import Mathlib.Data.List.Nodup
import NoZapret.Library.Bits
import NoZapret.Library.Ledger
import NoZapret.Library.Prefix
import NoZapret.Library.Runs
import NoZapret.Packets

/-!
# The store of bit prefixes

The `CMP_BITS` pools of `mpool.c`: `bit_cmp`, `mem_get`, `mem_add` and `mem_delete`, with the
memory of their elements and keys. Two keys are equal to `bit_cmp` when one is a prefix of the
other. Of `kavl.h` only this is used: it descends by the sign of the comparator, and its rotations
keep the elements in order. As in `Packets`, `none` is an access outside a block.
-/

namespace BitPool

open Block Packets SearchTree PrefixOrder Resources Runs

universe u

/-- `len`, in bits, and `data` of an element. -/
structure Key where
  len : Int
  data : Bytes
  deriving DecidableEq, Repr

/-- The bytes are compared up to the length of the shorter list. -/
def memcmp : Bytes → Bytes → Ordering
  | a :: p, b :: q => if a = b then memcmp p q else if a < b then .lt else .gt
  | _, _ => .eq

/-- `bit_cmp`, for a `char` without a sign; with one the order is the same. A negative number of
bytes is the huge `size_t` it converts to. -/
def bitCmp (p q : Key) : Option Ordering := do
  let len := if q.len < p.len then q.len else p.len
  let df := len.tmod 8
  let bytes := len.tdiv 8
  let cmp := memcmp (← slice p.data 0 bytes) (← slice q.data 0 bytes)
  if cmp ≠ .eq ∨ df = 0 then return cmp
  let c1 := (← rd p.data bytes).toNat / 2 ^ (8 - df).toNat
  let c2 := (← rd q.data bytes).toNat / 2 ^ (8 - df).toNat
  if c1 ≠ c2 then
    if c1 < c2 then return .lt else return .gt
  return .eq

/-- A `struct elem` of some pool: its own block, the block of its key, and what the pool's users
keep in it. -/
structure Elem (V : Type u) where
  block : Nat
  str : Nat
  key : Key
  val : V

/-- A `struct mphdr`, with the blocks that have been allocated. `next` is the block that `malloc`
hands out. -/
structure Pool (V : Type u) where
  root : BinTree (Elem V) := .leaf
  count : Nat := 0
  heap : Ledger Nat := {}
  next : Nat := 0

section Operations

variable {V : Type u} (K : Balance (Elem V)) (hdr : Pool V)

def Pool.malloc : Nat × Pool V :=
  (hdr.next, { hdr with heap := hdr.heap.acquire hdr.next, next := hdr.next + 1 })

def Pool.free (block : Nat) : Pool V := { hdr with heap := hdr.heap.release block }

def memGet (key : Key) : Option (Option (Elem V)) :=
  hdr.root.findM fun x => bitCmp key x.key

/-- `destroy_elem` of a pool that owns its keys. -/
def destroyElem (e : Elem V) : Pool V := (hdr.free e.str).free e.block

def memDelete (key : Key) : Option (Pool V) := do
  let some e ← memGet hdr key | return hdr
  let root ← hdr.root.eraseM fun x => bitCmp key x.key
  let hdr := destroyElem { hdr with root := K.fix root } e
  return { hdr with count := hdr.count - 1 }

/-- `kavl_insert` and the loop of `mem_add`. -/
def memAddLoop (e : Elem V) : Nat → Pool V → Option (Pool V × Elem V)
  | 0, _ => none
  | fuel + 1, hdr => do
    match ← memGet hdr e.key with
    | none =>
      let root ← hdr.root.insertM (fun x => bitCmp e.key x.key) e
      return ({ hdr with root := K.fix root, count := hdr.count + 1 }, e)
    | some v =>
      if e.key.len < v.key.len then memAddLoop e fuel (← memDelete K hdr v.key)
      else return (destroyElem hdr e, v)

/-- `mem_add`; `room` says whether `calloc` succeeds, and `zero` is what it hands out. Every round
that goes on takes an element out. -/
def memAdd (zero : V) (key : Key) (str : Nat) (room : Bool) :
    Option (Pool V × Option (Elem V)) := do
  if !room then return (hdr, none)
  let (block, hdr) := hdr.malloc
  let (hdr, v) ← memAddLoop K ⟨block, str, key, zero⟩ (hdr.root.inorder.length + 1) hdr
  return (hdr, some v)

/-- What a user writes to the element that it has been given. -/
def Pool.update (e : Elem V) (val : V) : Pool V :=
  { hdr with root := hdr.root.map fun x => if x.block = e.block then { x with val := val } else x }

end Operations

/-- The bits of a block, the highest of each byte first. -/
def bitsOf (data : Bytes) : List Bool := data.flatMap fun c => Bits.ofNat 8 c.toNat

def Key.bits (k : Key) : List Bool := (bitsOf k.data).take k.len.toNat

/-- The block of the key has all its bits. -/
structure Key.Fits (k : Key) : Prop where
  nonneg : 0 ≤ k.len
  fits : k.len ≤ 8 * k.data.length

section Compare

variable {p q : Key} {a b data : Bytes} {c d : UInt8} {n : Nat}

@[simp] lemma bitsOf_nil : bitsOf [] = [] := rfl

@[simp] lemma bitsOf_cons : bitsOf (c :: a) = Bits.ofNat 8 c.toNat ++ bitsOf a := rfl

@[simp] lemma bitsOf_append : bitsOf (a ++ b) = bitsOf a ++ bitsOf b := List.flatMap_append

@[simp] lemma bitsOf_length : (bitsOf a).length = 8 * a.length := by
  induction a with
  | nil => rfl
  | cons c a ih =>
    simp only [bitsOf_cons, List.length_append, Bits.ofNat_length, ih, List.length_cons]
    omega

lemma Key.Fits.bits_length (h : p.Fits) : p.bits.length = p.len.toNat := by
  have hfits := h.fits
  simp only [Key.bits, List.length_take, bitsOf_length]
  omega

lemma memcmp_eq (h : a.length = b.length) : memcmp a b = cmpFront (bitsOf a) (bitsOf b) := by
  induction a generalizing b with
  | nil => cases b <;> rfl
  | cons c a ih =>
    cases b with
    | nil => cases h
    | cons d b =>
      have hc : c.toNat < 2 ^ 8 := c.toNat_lt
      have hd : d.toNat < 2 ^ 8 := d.toNat_lt
      rw [memcmp, bitsOf_cons, bitsOf_cons, cmpFront_append (by simp),
        Bits.cmpFront_ofNat_of_lt hc hd]
      rcases lt_trichotomy c.toNat d.toNat with hlt | heq | hgt
      · have hne : c ≠ d := fun h => by simp [h] at hlt
        rw [if_neg hne, if_pos (UInt8.lt_iff_toNat_lt.mpr hlt), Nat.compare_eq_lt.mpr hlt]
        rfl
      · rw [if_pos (UInt8.toNat_inj.mp heq), Nat.compare_eq_eq.mpr heq, ih (Nat.succ.inj h)]
        rfl
      · have hne : c ≠ d := fun h => by simp [h] at hgt
        have hnot : ¬ c < d := fun h => by
          rw [UInt8.lt_iff_toNat_lt] at h
          omega
        rw [if_neg hne, if_neg hnot, Nat.compare_eq_gt.mpr hgt]
        rfl

lemma memcmp_eq_iff (h : a.length = b.length) : memcmp a b = .eq ↔ a = b := by
  induction a generalizing b with
  | nil =>
    cases b with
    | nil => simp [memcmp]
    | cons d b => cases h
  | cons c a ih =>
    cases b with
    | nil => cases h
    | cons d b =>
      simp only [memcmp, List.cons.injEq]
      split
      · next heq => simp [heq, ih (Nat.succ.inj h)]
      · next hne =>
        simp only [hne, false_and, iff_false]
        split <;> simp

/-- The bits of some bytes are theirs alone. -/
lemma bitsOf_inj (h : a.length = b.length) (hbits : bitsOf a = bitsOf b) : a = b := by
  rw [← memcmp_eq_iff h, memcmp_eq h, hbits, cmpFront_eq_iff]
  exact .inl (List.prefix_refl _)

lemma bitsOf_take {d : Bytes} (h : n ≤ d.length) (k : Nat) :
    (bitsOf d).take (8 * n + k) = bitsOf (d.take n) ++ (bitsOf (d.drop n)).take k := by
  conv_lhs => rw [← List.take_append_drop n d]
  have hlen : (bitsOf (d.take n)).length = 8 * n := by
    rw [bitsOf_length, List.length_take, Nat.min_eq_left h]
  rw [bitsOf_append, ← hlen, List.take_length_add_append]

/-- The first bits of a byte, as the shift of `bit_cmp` leaves them. -/
lemma take_byte (hn : n < 8) : (bitsOf (c :: a)).take n = Bits.ofNat n (c.toNat / 2 ^ (8 - n)) := by
  have htake := Bits.take_ofNat n (8 - n) c.toNat
  rw [Nat.add_sub_cancel' (Nat.le_of_lt hn)] at htake
  rw [bitsOf_cons, List.take_append_of_le_length (by simp; omega), htake]

lemma byte_lt (hn : n < 8) : c.toNat / 2 ^ (8 - n) < 2 ^ n := by
  have hc : c.toNat < 2 ^ 8 := c.toNat_lt
  rw [Nat.div_lt_iff_lt_mul (Nat.two_pow_pos _), ← Nat.pow_add, Nat.add_sub_cancel' (by omega)]
  exact hc

/-- On keys that fit, `bit_cmp` compares the common bits. -/
theorem bitCmp_eq (hp : p.Fits) (hq : q.Fits) : bitCmp p q = some (cmpFront p.bits q.bits) := by
  obtain ⟨lp, hlp⟩ := Int.eq_ofNat_of_zero_le hp.nonneg
  obtain ⟨lq, hlq⟩ := Int.eq_ofNat_of_zero_le hq.nonneg
  have hfp := hp.fits
  have hfq := hq.fits
  -- `d` bits behind `n` whole bytes
  obtain ⟨n, d, hd, hn⟩ : ∃ n d, d < 8 ∧ 8 * n + d = min lp lq :=
    ⟨min lp lq / 8, min lp lq % 8, Nat.mod_lt _ (by decide), Nat.div_add_mod _ 8⟩
  have hlen : (if q.len < p.len then q.len else p.len) = (8 * n + d : Nat) := by
    rw [hlp, hlq]
    split <;> omega
  have hfront : cmpFront p.bits q.bits =
      cmpFront ((bitsOf p.data).take (8 * n + d)) ((bitsOf q.data).take (8 * n + d)) := by
    have hcut := cmpFront_take (p := p.bits) (q := q.bits) (n := 8 * n + d) (by
      rw [hp.bits_length, hq.bits_length, hlp, hlq, Int.toNat_natCast, Int.toNat_natCast]
      omega)
    have htp : p.bits.take (8 * n + d) = (bitsOf p.data).take (8 * n + d) := by
      rw [Key.bits, List.take_take, hlp, Int.toNat_natCast, Nat.min_eq_left (by omega)]
    have htq : q.bits.take (8 * n + d) = (bitsOf q.data).take (8 * n + d) := by
      rw [Key.bits, List.take_take, hlq, Int.toNat_natCast, Nat.min_eq_left (by omega)]
    rw [← hcut, htp, htq]
  have hnp : n ≤ p.data.length := by omega
  have hnq : n ≤ q.data.length := by omega
  have htmod : ((8 * n + d : Nat) : Int).tmod 8 = d := by
    rw [Int.tmod_eq_emod_of_nonneg (Int.natCast_nonneg _)]
    omega
  have htdiv : ((8 * n + d : Nat) : Int).tdiv 8 = n := by
    rw [Int.tdiv_eq_ediv_of_nonneg (Int.natCast_nonneg _)]
    omega
  have hslice : ∀ data : Bytes, n ≤ data.length → slice data 0 n = some (data.take n) := by
    intro data h
    have hs := slice_nat (b := data) (i := 0) (n := n) (by omega)
    simpa using hs
  have hwhole : memcmp (p.data.take n) (q.data.take n) =
      cmpFront (bitsOf (p.data.take n)) (bitsOf (q.data.take n)) := by
    apply memcmp_eq
    rw [List.length_take, List.length_take]
    omega
  unfold bitCmp
  simp only [hlen, htmod, htdiv, hslice _ hnp, hslice _ hnq, Option.bind_eq_bind,
    Option.bind_some, rd_nat]
  rw [hfront, hwhole, bitsOf_take hnp, bitsOf_take hnq, cmpFront_append (by
    rw [bitsOf_length, bitsOf_length, List.length_take, List.length_take]
    omega)]
  cases hcmp : cmpFront (bitsOf (p.data.take n)) (bitsOf (q.data.take n)) with
  | lt => rfl
  | gt => rfl
  | eq =>
    by_cases hzero : d = 0
    · subst hzero
      simp
    · have hc : ∀ data : Bytes, 8 * n + d ≤ 8 * data.length →
          ∃ c rest, data[n]? = some c ∧ data.drop n = c :: rest := by
        intro data h
        have hlt : n < data.length := by omega
        exact ⟨data[n], data.drop (n + 1), List.getElem?_eq_getElem hlt,
          List.drop_eq_getElem_cons hlt⟩
      obtain ⟨c, rest, hcell, hdrop⟩ := hc p.data (by omega)
      obtain ⟨c', rest', hcell', hdrop'⟩ := hc q.data (by omega)
      have hshift : (8 - (d : Int)).toNat = 8 - d := by omega
      have hne : ¬ ((Ordering.eq ≠ .eq) ∨ (d : Int) = 0) := by
        simp [hzero]
      rw [if_neg hne]
      simp only [hcell, hcell', Option.bind_some, hshift, Ordering.then]
      rw [hdrop, hdrop', take_byte hd, take_byte hd,
        Bits.cmpFront_ofNat_of_lt (byte_lt hd) (byte_lt hd)]
      rcases lt_trichotomy (c.toNat / 2 ^ (8 - d)) (c'.toNat / 2 ^ (8 - d)) with h | h | h
      · rw [if_pos h.ne, if_pos h, Nat.compare_eq_lt.mpr h]
        rfl
      · rw [if_neg (not_not_intro h), Nat.compare_eq_eq.mpr h]
        rfl
      · rw [if_pos h.ne', if_neg h.not_gt, Nat.compare_eq_gt.mpr h]
        rfl

end Compare

/-- The blocks of some elements. -/
def blocks {V : Type u} (l : List (Elem V)) : List Nat := l.flatMap fun e => [e.str, e.block]

/-- The elements stand in order, none is a prefix of another, and the pool owns their blocks;
`others` are the blocks that its users hold. -/
structure Sound {V : Type u} (hdr : Pool V) (others : List Nat) : Prop where
  fits : ∀ e ∈ hdr.root.inorder, e.key.Fits
  antichain : Antichain (fun e => e.key.bits) hdr.root.inorder
  count : hdr.count = hdr.root.inorder.length
  owned : Owned hdr.heap (blocks hdr.root.inorder ++ others)
  fresh : ∀ b ∈ hdr.heap.held, b < hdr.next

/-- One element is taken out and its blocks are given back. -/
structure Removed {V : Type u} (hdr hdr' : Pool V) (e : Elem V) : Prop where
  split : ∃ front back, hdr.root.inorder = front ++ e :: back ∧ hdr'.root.inorder = front ++ back
  count : hdr'.count = hdr.count - 1
  heap : hdr'.heap = (hdr.heap.release e.str).release e.block
  next : hdr'.next = hdr.next

/-- What `mem_add` does to a pool: `v` is returned for the new element `e`. -/
structure Added {V : Type u} (hdr hdr' : Pool V) (e v : Elem V) : Prop where
  mem : v ∈ hdr'.root.inorder
  covers : v.key.bits <+: e.key.bits
  sub : ∀ x ∈ hdr'.root.inorder, x = e ∨ x ∈ hdr.root.inorder
  keeps : ∀ x ∈ hdr.root.inorder, x ∈ hdr'.root.inorder ∨
    e.key.bits <+: x.key.bits ∧ e.key.len < x.key.len

section Steps

variable {V : Type u} {K : Balance (Elem V)} {hdr hdr' : Pool V} {others : List Nat} {e v : Elem V}
  {key : Key} {fuel : Nat}

lemma memGet_eq (h : ∀ e ∈ hdr.root.inorder, e.key.Fits) (hkey : key.Fits) :
    memGet hdr key = some (hdr.root.find fun x => cmpFront key.bits x.key.bits) :=
  findM_eq fun x hx => bitCmp_eq hkey (h x hx)

/-- Something is found if and only if something is compatible. -/
lemma memGet_isSome (h : Sound hdr others) (hkey : key.Fits) :
    ∃ r, memGet hdr key = some r ∧
      (r.isSome = true ↔ ∃ e ∈ hdr.root.inorder, Compat key.bits e.key.bits) := by
  refine ⟨_, memGet_eq h.fits hkey, ?_⟩
  rw [← find_iff h.antichain, Option.isSome_iff_exists]

lemma memDelete_none (h : memGet hdr key = some none) : memDelete K hdr key = some hdr := by
  simp [memDelete, h]

lemma memDelete_some (h : ∀ e ∈ hdr.root.inorder, e.key.Fits) (hkey : key.Fits)
    (hget : memGet hdr key = some (some e)) :
    ∃ hdr', memDelete K hdr key = some hdr' ∧ Removed hdr hdr' e := by
  have hfind : hdr.root.find (fun x => cmpFront key.bits x.key.bits) = some e := by
    rw [memGet_eq h hkey] at hget
    exact Option.some.inj hget
  have herase : hdr.root.eraseM (fun x => bitCmp key x.key) =
      some (hdr.root.erase fun x => cmpFront key.bits x.key.bits) :=
    eraseM_eq fun x hx => bitCmp_eq hkey (h x hx)
  obtain ⟨front, back, hsplit, hleft⟩ := erase_split hfind
  refine ⟨_, by simp only [memDelete, hget, herase, Option.bind_eq_bind, Option.bind_some]; rfl, ?_⟩
  refine ⟨⟨front, back, hsplit, ?_⟩, rfl, rfl, rfl⟩
  change (K.fix _).inorder = front ++ back
  rw [K.inorder_fix, hleft]

lemma blocks_split (front back : List (Elem V)) :
    (blocks (front ++ e :: back) ++ others).Perm
      (e.str :: e.block :: (blocks (front ++ back) ++ others)) := by
  simp only [blocks, List.flatMap_append, List.flatMap_cons, List.append_assoc]
  refine List.perm_append_comm_assoc _ _ _ |>.trans ?_
  exact List.Perm.refl _

lemma held_release {l : Ledger Nat} {a b : Nat} (h : b ∈ (l.release a).held) : b ∈ l.held := by
  unfold Ledger.release at h
  split at h
  · exact List.mem_of_mem_erase h
  · split at h <;> exact h

lemma Removed.sound (hr : Removed hdr hdr' e) (h : Sound hdr others) : Sound hdr' others := by
  obtain ⟨front, back, hsplit, hleft⟩ := hr.split
  have hsub : hdr'.root.inorder.Sublist hdr.root.inorder := by
    rw [hsplit, hleft]
    exact List.Sublist.append_left (List.sublist_cons_self e back) front
  constructor
  · exact fun x hx => h.fits x (hsub.subset hx)
  · exact h.antichain.sublist hsub
  · rw [hr.count, h.count, hsplit, hleft]
    simp only [List.length_append, List.length_cons]
    omega
  · have howned := h.owned
    rw [hsplit] at howned
    rw [hr.heap, hleft]
    exact (howned.perm (blocks_split front back)).release.release
  · intro b hb
    rw [hr.heap] at hb
    rw [hr.next]
    exact h.fresh b (held_release (held_release hb))

/-- A longer key that a search for `e` comes to is deleted, and no other. -/
lemma memDelete_stored (h : Sound hdr others) (hv : v ∈ hdr.root.inorder) :
    ∃ hdr', memDelete K hdr v.key = some hdr' ∧ Removed hdr hdr' v := by
  have hfits := h.fits v hv
  apply memDelete_some h.fits hfits
  rw [memGet_eq h.fits hfits, find_stored h.antichain hv]

lemma destroyElem_sound (h : Sound hdr (e.str :: e.block :: others)) :
    Sound (destroyElem hdr e) others := by
  constructor
  · exact h.fits
  · exact h.antichain
  · exact h.count
  · have hperm : (blocks hdr.root.inorder ++ e.str :: e.block :: others).Perm
        (e.str :: e.block :: (blocks hdr.root.inorder ++ others)) := by
      exact List.perm_append_comm_assoc _ [e.str, e.block] _
    exact (h.owned.perm hperm).release.release
  · exact fun b hb => h.fresh b (held_release (held_release hb))

lemma prefix_of_longer {p q : List Bool} (h : Compat p q) (hlen : q.length ≤ p.length) :
    q <+: p := by
  rcases h with h | h
  · cases h.eq_of_length (Nat.le_antisymm h.length_le hlen)
    exact List.prefix_refl _
  · exact h

/-- Where nothing is compatible the element goes in. -/
lemma insert_sound (hdr' : Pool V) (h : Sound hdr (e.str :: e.block :: others)) (he : e.key.Fits)
    (hfind : hdr.root.find (fun x => cmpFront e.key.bits x.key.bits) = none)
    (hroot : hdr'.root.inorder =
      (hdr.root.insert (fun x => cmpFront e.key.bits x.key.bits) e).inorder)
    (hcount : hdr'.count = hdr.count + 1) (hheap : hdr'.heap = hdr.heap)
    (hnext : hdr'.next = hdr.next) : Sound hdr' others ∧ Added hdr hdr' e e := by
  have hmem : ∀ z, z ∈ hdr'.root.inorder ↔ z = e ∨ z ∈ hdr.root.inorder := by
    intro z
    rw [hroot, mem_insert hfind]
  obtain ⟨front, back, hsplit, hinsert⟩ := insert_split (y := e) hfind
  have hin : hdr'.root.inorder = front ++ e :: back := hroot.trans hinsert
  refine ⟨⟨?_, ?_, ?_, ?_, ?_⟩, (hmem e).mpr (.inl rfl), List.prefix_refl _,
    fun x hx => (hmem x).mp hx, fun x hx => .inl ((hmem x).mpr (.inr hx))⟩
  · intro x hx
    rcases (hmem x).mp hx with rfl | hx
    · exact he
    · exact h.fits x hx
  · rw [hroot]
    exact insert_antichain h.antichain hfind
  · rw [hcount, h.count, hsplit, hin]
    simp only [List.length_append, List.length_cons]
    omega
  · have howned := h.owned
    rw [hsplit] at howned
    rw [hheap, hin]
    refine howned.perm ((List.perm_append_comm_assoc _ [e.str, e.block] _).trans ?_)
    exact (blocks_split front back).symm
  · intro b hb
    rw [hheap] at hb
    rw [hnext]
    exact h.fresh b hb

theorem memAddLoop_spec (h : Sound hdr (e.str :: e.block :: others)) (he : e.key.Fits)
    (hfuel : hdr.root.inorder.length < fuel) :
    ∃ hdr' v, memAddLoop K e fuel hdr = some (hdr', v) ∧ Sound hdr' others ∧
      Added hdr hdr' e v := by
  induction fuel generalizing hdr with
  | zero => omega
  | succ fuel ih =>
    have hget := memGet_eq h.fits he
    cases hfind : hdr.root.find (fun x => cmpFront e.key.bits x.key.bits) with
    | none =>
      rw [hfind] at hget
      have hinsert : hdr.root.insertM (fun x => bitCmp e.key x.key) e =
          some (hdr.root.insert (fun x => cmpFront e.key.bits x.key.bits) e) :=
        insertM_eq fun x hx => bitCmp_eq he (h.fits x hx)
      obtain ⟨hsound, hadded⟩ := insert_sound { hdr with
          root := K.fix (hdr.root.insert (fun x => cmpFront e.key.bits x.key.bits) e)
          count := hdr.count + 1 } h he hfind (K.inorder_fix _) rfl rfl rfl
      refine ⟨_, e, ?_, hsound, hadded⟩
      simp only [memAddLoop, hget, hinsert, Option.bind_eq_bind, Option.bind_some]
      rfl
    | some v =>
      rw [hfind] at hget
      obtain ⟨hv, hturn⟩ := find_some hfind
      have hcompat : Compat e.key.bits v.key.bits := cmpFront_eq_iff.mp hturn
      have hle := he.bits_length
      have hlv := (h.fits v hv).bits_length
      have hne := he.nonneg
      have hnv := (h.fits v hv).nonneg
      by_cases hlen : e.key.len < v.key.len
      · obtain ⟨mid, hdel, hr⟩ := memDelete_stored (K := K) h hv
        have hmid := hr.sound h
        obtain ⟨front, back, hsplit, hleft⟩ := hr.split
        have hshort : mid.root.inorder.length < fuel := by
          rw [hsplit] at hfuel
          rw [hleft]
          simp only [List.length_append, List.length_cons] at hfuel ⊢
          omega
        obtain ⟨hdr', w, hloop, hsound, hadded⟩ := ih hmid hshort
        refine ⟨hdr', w, ?_, hsound, hadded.mem, hadded.covers, ?_, ?_⟩
        · simp only [memAddLoop, hget, hlen, hdel, Option.bind_eq_bind, Option.bind_some, if_true]
          exact hloop
        · intro x hx
          rcases hadded.sub x hx with rfl | hx
          · exact .inl rfl
          · right
            rw [hleft] at hx
            rw [hsplit]
            simp only [List.mem_append, List.mem_cons] at hx ⊢
            tauto
        · intro x hx
          rw [hsplit] at hx
          rcases List.mem_append.mp hx with hx | hx
          · exact hadded.keeps x (by rw [hleft]; exact List.mem_append_left _ hx)
          rcases List.mem_cons.mp hx with rfl | hx
          · exact .inr ⟨prefix_of_longer hcompat.symm (by omega), hlen⟩
          · exact hadded.keeps x (by rw [hleft]; exact List.mem_append_right _ hx)
      · refine ⟨destroyElem hdr e, v, ?_, destroyElem_sound h, hv,
          prefix_of_longer hcompat (by omega), fun x hx => .inr hx, fun x hx => .inl hx⟩
        simp only [memAddLoop, hget, hlen, Option.bind_eq_bind, Option.bind_some, if_false]
        rfl

lemma malloc_sound (h : Sound hdr others) : Sound hdr.malloc.2 (hdr.malloc.1 :: others) := by
  have hnew : hdr.next ∉ hdr.heap.held := fun hmem => absurd (h.fresh _ hmem) (Nat.lt_irrefl _)
  refine ⟨h.fits, h.antichain, h.count, ?_, ?_⟩
  · exact (h.owned.acquire hnew).perm List.perm_middle.symm
  · intro b hb
    rcases List.mem_cons.mp hb with rfl | hb
    · exact Nat.lt_succ_self _
    · exact Nat.lt_succ_of_lt (h.fresh b hb)

lemma free_sound {block : Nat} (h : Sound hdr (block :: others)) :
    Sound (hdr.free block) others :=
  ⟨h.fits, h.antichain, h.count, (h.owned.perm List.perm_middle).release,
    fun b hb => h.fresh b (held_release hb)⟩

/-- `mem_add` takes over the block of the key, unless there is no room. -/
theorem memAdd_spec (zero : V) {str : Nat} {k : Key} (room : Bool) (h : Sound hdr (str :: others))
    (hkey : k.Fits) :
    ∃ hdr' r, memAdd K hdr zero k str room = some (hdr', r) ∧
      match r with
      | none => room = false ∧ hdr' = hdr
      | some v => Sound hdr' others ∧ Added hdr hdr' ⟨hdr.next, str, k, zero⟩ v := by
  cases room with
  | false => exact ⟨hdr, none, rfl, rfl, rfl⟩
  | true =>
    have hsound : Sound hdr.malloc.2 (str :: hdr.next :: others) :=
      ⟨h.fits, h.antichain, h.count,
        (malloc_sound h).owned.perm (List.Perm.append_left _ (List.Perm.swap _ _ _)),
        (malloc_sound h).fresh⟩
    obtain ⟨hdr', v, hloop, hsound', hadded⟩ :=
      memAddLoop_spec (K := K) (e := ⟨hdr.next, str, k, zero⟩) hsound hkey (Nat.lt_succ_self _)
    refine ⟨hdr', some v, ?_, hsound', hadded.mem, hadded.covers, hadded.sub, hadded.keeps⟩
    simp only [memAdd, Bool.not_true, Bool.false_eq_true, if_false, Option.bind_eq_bind]
    exact congrArg (fun r => Option.bind r _) hloop

/-- Elements are known by their blocks. -/
lemma Sound.block_inj (h : Sound hdr others) {x y : Elem V} (hx : x ∈ hdr.root.inorder)
    (hy : y ∈ hdr.root.inorder) (hblock : x.block = y.block) : x = y := by
  obtain ⟨front, back, hsplit⟩ := List.append_of_mem hx
  have hnodup := h.owned.nodup
  rw [hsplit] at hy hnodup
  have hfresh := (@blocks_split _ others _ front back).nodup_iff.mp hnodup
  simp only [List.nodup_cons] at hfresh
  have hother : y ∉ front ++ back := by
    intro hmem
    apply hfresh.2.1
    rw [hblock]
    apply List.mem_append_left
    exact List.mem_flatMap.mpr ⟨y, hmem, by simp⟩
  simp only [List.mem_append, List.mem_cons, not_or] at hy hother
  tauto

/-- Only the element that is meant changes. -/
lemma update_split (h : Sound hdr others) {front back : List (Elem V)}
    (hsplit : hdr.root.inorder = front ++ e :: back) (val : V) :
    (hdr.update e val).root.inorder = front ++ { e with val := val } :: back := by
  have hmem : e ∈ hdr.root.inorder := by
    rw [hsplit]
    simp
  have hnodup : (front ++ e :: back).Nodup := by
    rw [← hsplit]
    exact h.antichain.nodup
  have hother : ∀ x ∈ front ++ back, x.block ≠ e.block := by
    intro x hx hblock
    have hx' : x ∈ hdr.root.inorder := by
      rw [hsplit]
      simp only [List.mem_append, List.mem_cons] at hx ⊢
      tauto
    cases h.block_inj hx' hmem hblock
    exact (List.nodup_cons.mp (List.nodup_middle.mp hnodup)).1 hx
  have hkeep : ∀ l : List (Elem V), (∀ x ∈ l, x.block ≠ e.block) →
      l.map (fun x => if x.block = e.block then { x with val := val } else x) = l := by
    intro l hl
    conv_rhs => rw [← List.map_id l]
    exact List.map_congr_left fun x hx => if_neg (hl x hx)
  rw [List.forall_mem_append] at hother
  simp only [Pool.update, inorder_map, hsplit, List.map_append, List.map_cons, if_true,
    hkeep front hother.1, hkeep back hother.2]

lemma mem_update_self (h : e ∈ hdr.root.inorder) (val : V) :
    { e with val := val } ∈ (hdr.update e val).root.inorder := by
  simp only [Pool.update, inorder_map, List.mem_map]
  exact ⟨e, h, if_pos rfl⟩

lemma update_sound (h : Sound hdr others) (e : Elem V) (val : V) :
    Sound (hdr.update e val) others := by
  have hkey : ∀ x : Elem V,
      (if x.block = e.block then { x with val := val } else x).key = x.key ∧
      (if x.block = e.block then { x with val := val } else x).str = x.str ∧
      (if x.block = e.block then { x with val := val } else x).block = x.block := by
    intro x
    split <;> exact ⟨rfl, rfl, rfl⟩
  constructor
  · intro x hx
    simp only [Pool.update, inorder_map, List.mem_map] at hx
    obtain ⟨y, hy, rfl⟩ := hx
    rw [(hkey y).1]
    exact h.fits y hy
  · simp only [Pool.update, inorder_map, Antichain, List.pairwise_map, hkey]
    exact h.antichain
  · simp only [Pool.update, inorder_map, List.length_map]
    exact h.count
  · have hblocks : blocks (hdr.update e val).root.inorder = blocks hdr.root.inorder := by
      simp only [blocks, Pool.update, inorder_map, List.flatMap_map, hkey]
    rw [hblocks]
    exact h.owned
  · exact h.fresh

lemma mem_update {x : Elem V} {val : V} (hx : x ∈ (hdr.update e val).root.inorder) :
    (x ∈ hdr.root.inorder ∧ x.block ≠ e.block) ∨
      ∃ y ∈ hdr.root.inorder, y.block = e.block ∧ x = { y with val := val } := by
  simp only [Pool.update, inorder_map, List.mem_map] at hx
  obtain ⟨y, hy, rfl⟩ := hx
  split
  · next h => exact .inr ⟨y, hy, h, rfl⟩
  · next h => exact .inl ⟨hy, h⟩

/-- The last of two writes counts. -/
lemma update_update (hdr : Pool V) (e : Elem V) (a b : V) :
    (hdr.update e a).update { e with val := a } b = hdr.update e b := by
  have hmap : ∀ t : BinTree (Elem V),
      (t.map fun x => if x.block = e.block then { x with val := a } else x).map
        (fun x => if x.block = e.block then { x with val := b } else x) =
      t.map fun x => if x.block = e.block then { x with val := b } else x := by
    intro t
    induction t with
    | leaf => rfl
    | node l x r ihl ihr =>
      simp only [BinTree.map, ihl, ihr]
      by_cases h : x.block = e.block
      · simp [h]
      · simp [h]
  simp only [Pool.update, hmap]

/-- Whatever the keys, nothing else than the new element comes into the pool. -/
lemma memDelete_sub (h : memDelete K hdr key = some hdr') :
    ∀ x ∈ hdr'.root.inorder, x ∈ hdr.root.inorder := by
  simp only [memDelete, Option.bind_eq_bind, Option.bind_eq_some_iff] at h
  obtain ⟨r, -, h⟩ := h
  cases r with
  | none =>
    cases h
    exact fun x hx => hx
  | some e =>
    simp only [Option.bind_eq_some_iff] at h
    obtain ⟨root, hroot, h⟩ := h
    cases h
    intro x hx
    apply mem_eraseM hroot
    simpa [destroyElem, Pool.free, K.inorder_fix] using hx

lemma memDelete_next (h : memDelete K hdr key = some hdr') : hdr'.next = hdr.next := by
  simp only [memDelete, Option.bind_eq_bind, Option.bind_eq_some_iff] at h
  obtain ⟨r, -, h⟩ := h
  cases r with
  | none =>
    cases h
    rfl
  | some e =>
    simp only [Option.bind_eq_some_iff] at h
    obtain ⟨root, -, h⟩ := h
    cases h
    rfl

/-- What `mem_add` does whatever the keys: nothing else than the new element comes into the pool,
and it returns this one or one whose key is not longer. -/
structure Returned (hdr hdr' : Pool V) (e v : Elem V) : Prop where
  sub : ∀ x ∈ hdr'.root.inorder, x = e ∨ x ∈ hdr.root.inorder
  mem : v ∈ hdr'.root.inorder
  old : v = e ∨ v ∈ hdr.root.inorder ∧ v.key.len ≤ e.key.len
  next : hdr'.next = hdr.next

lemma memAddLoop_returned (h : memAddLoop K e fuel hdr = some (hdr', v)) :
    Returned hdr hdr' e v := by
  induction fuel generalizing hdr with
  | zero => cases h
  | succ fuel ih =>
    simp only [memAddLoop, Option.bind_eq_bind, Option.bind_eq_some_iff] at h
    obtain ⟨r, hget, h⟩ := h
    cases r with
    | none =>
      simp only [Option.bind_eq_some_iff] at h
      obtain ⟨root, hroot, h⟩ := h
      cases h
      refine ⟨?_, ?_, .inl rfl, rfl⟩
      · intro x hx
        apply mem_insertM hroot
        simpa [K.inorder_fix] using hx
      · simpa [K.inorder_fix] using mem_insertM_self hget hroot
    | some w =>
      simp only at h
      split at h
      · simp only [Option.bind_eq_some_iff] at h
        obtain ⟨mid, hdel, h⟩ := h
        have hsub := memDelete_sub hdel
        obtain ⟨hx, hmem, hv, hnext⟩ := ih h
        exact ⟨fun x hmem => (hx x hmem).imp_right (hsub x), hmem,
          hv.imp_right fun hv => ⟨hsub v hv.1, hv.2⟩, hnext.trans (memDelete_next hdel)⟩
      · next hlen =>
        cases h
        have hw := (findM_some hget).1
        exact ⟨fun x hx => .inr hx, hw, .inr ⟨hw, Int.not_lt.mp hlen⟩, rfl⟩

lemma memAdd_returned {zero : V} {str : Nat} {room : Bool}
    (h : memAdd K hdr zero key str room = some (hdr', some v)) :
    Returned hdr.malloc.2 hdr' ⟨hdr.next, str, key, zero⟩ v := by
  cases room with
  | false => cases h
  | true =>
    simp only [memAdd, Bool.not_true, Bool.false_eq_true, if_false, Option.bind_eq_bind,
      Option.bind_eq_some_iff] at h
    obtain ⟨⟨mid, w⟩, hloop, h⟩ := h
    cases h
    exact memAddLoop_returned hloop

/-- An element behind all others goes to the end. -/
lemma added_last {others' : List Nat} (h : Added hdr hdr' e v) (hs : Sound hdr others)
    (hs' : Sound hdr' others') (hlast : ∀ x ∈ hdr.root.inorder, cmpFront x.key.bits e.key.bits = .lt) :
    hdr'.root.inorder = hdr.root.inorder ++ [e] ∧ v = e := by
  have hnew : ∀ x ∈ hdr.root.inorder, ¬ Compat x.key.bits e.key.bits := by
    intro x hx hcompat
    have hlt := hlast x hx
    rw [cmpFront_eq_iff.mpr hcompat] at hlt
    cases hlt
  have hv : v = e := by
    rcases h.sub v h.mem with hv | hv
    · exact hv
    · exact absurd (.inl h.covers) (hnew v hv)
  refine ⟨hs'.antichain.ext ?_ ?_, hv⟩
  · refine List.pairwise_append.mpr ⟨hs.antichain, List.pairwise_singleton _ _, ?_⟩
    intro x hx y hy
    cases List.mem_singleton.mp hy
    exact hlast x hx
  · intro x
    rw [List.mem_append, List.mem_singleton]
    constructor
    · exact fun hx => (h.sub x hx).symm
    · rintro (hx | rfl)
      · rcases h.keeps x hx with hx' | ⟨hpre, -⟩
        · exact hx'
        · exact absurd (.inr hpre) (hnew x hx)
      · exact hv ▸ h.mem

lemma memDelete_sound (h : Sound hdr others) (hkey : key.Fits) :
    ∃ hdr', memDelete K hdr key = some hdr' ∧ Sound hdr' others := by
  obtain ⟨r, hget, -⟩ := memGet_isSome h hkey
  cases r with
  | none => exact ⟨hdr, memDelete_none hget, h⟩
  | some e =>
    obtain ⟨hdr', hdel, hr⟩ := memDelete_some (K := K) h.fits hkey hget
    exact ⟨hdr', hdel, hr.sound h⟩

end Steps

/-- A key together with enough memory for its bits. -/
structure BitKey where
  key : Key
  fits : key.Fits

inductive Op where
  | add (key : BitKey) (room : Bool)
  | delete (key : BitKey)

section Sequences

variable {V : Type u} (K : Balance (Elem V)) (zero : V)

/-- A call of a pool's user, who allocates the key for `mem_add` and frees it when that fails. -/
def step (hdr : Pool V) : Op → Option (Pool V)
  | .add key room => do
    let (str, hdr) := hdr.malloc
    let (hdr, v) ← memAdd K hdr zero key.key str room
    return if v.isSome then hdr else hdr.free str
  | .delete key => memDelete K hdr key.key

/-- What a pool keeps between the calls. -/
structure Kept (hdr : Pool V) : Prop where
  antichain : hdr.root.inorder.Pairwise fun a b =>
    ¬ a.key.bits <+: b.key.bits ∧ ¬ b.key.bits <+: a.key.bits
  count : hdr.count = hdr.root.inorder.length
  owned : Owned hdr.heap (blocks hdr.root.inorder)
  found : ∀ q : BitKey, ∃ r, memGet hdr q.key = some r ∧
    (r.isSome = true ↔ ∃ e ∈ hdr.root.inorder,
      e.key.bits <+: q.key.bits ∨ q.key.bits <+: e.key.bits)

variable {K zero} {hdr : Pool V}

lemma Sound.kept (h : Sound hdr []) : Kept hdr := by
  constructor
  · refine h.antichain.imp ?_
    intro a b hab
    rw [← not_or]
    intro hcompat
    rw [cmpFront_eq_iff.mpr hcompat] at hab
    cases hab
  · exact h.count
  · have howned := h.owned
    rwa [List.append_nil] at howned
  · intro q
    obtain ⟨r, hget, hr⟩ := memGet_isSome h q.fits
    refine ⟨r, hget, hr.trans ?_⟩
    simp only [Compat, or_comm]

lemma empty_sound : Sound ({} : Pool V) [] :=
  ⟨by simp, List.Pairwise.nil, rfl, ⟨List.Perm.refl _, List.nodup_nil, rfl⟩, by simp⟩

lemma step_sound (zero : V) (h : Sound hdr []) (op : Op) :
    ∃ hdr', step K zero hdr op = some hdr' ∧ Sound hdr' [] := by
  cases op with
  | add key room =>
    obtain ⟨hdr', r, hadd, hr⟩ :=
      memAdd_spec (K := K) zero room (malloc_sound h) key.fits
    simp only [step, hadd, Option.bind_eq_bind, Option.bind_some]
    cases r with
    | none =>
      obtain ⟨-, rfl⟩ := hr
      exact ⟨_, rfl, free_sound (malloc_sound h)⟩
    | some v => exact ⟨hdr', rfl, hr.1⟩
  | delete key => exact memDelete_sound h key.fits

/-- Every sequence of calls runs, and keeps the pool. -/
theorem prefix_store_kept (K : Balance (Elem V)) (zero : V) (ops : List Op) :
    ∃ hdr, run (step K zero) {} ops = some hdr ∧ Kept hdr := by
  have hrun : ∀ hdr : Pool V, Sound hdr [] →
      ∃ hdr', run (step K zero) hdr ops = some hdr' ∧ Sound hdr' [] := by
    induction ops with
    | nil => exact fun hdr h => ⟨hdr, rfl, h⟩
    | cons op ops ih =>
      intro hdr h
      obtain ⟨mid, hstep, hmid⟩ := step_sound (K := K) zero h op
      rw [run_cons hstep]
      exact ih mid hmid
  obtain ⟨hdr, hdr', hsound⟩ := hrun {} empty_sound
  exact ⟨hdr, hdr', hsound.kept⟩

end Sequences

end BitPool
