import NoZapret.BitPool
import NoZapret.Hosts
import NoZapret.Inet
import NoZapret.Numbers

/-!
# The IP whitelist

`parse_ip`, `parse_ipset` and `check_ip` over a pool of bit prefixes. A token is copied into a
buffer of 256 bytes on the stack, and `parse_ip` looks for a '/' in all of them.
-/

namespace IpSet

open BitPool Block Hosts Inet Numbers Packets PrefixOrder SearchTree

def slash : UInt8 := ch '/'

/-- The text at the front of a block, up to its NUL. -/
def cString (b : Bytes) : Option Bytes := if 0 ∈ b then some (b.takeWhile (· ≠ 0)) else none

/-- `parse_ip`: the number of bits, and what it has written to `out`. -/
def parseIp (I : Pton) (str : Bytes) (size : Nat) : Option (Int × Bytes) := do
  let sep ← findIn str (· == slash) 0 size
  let bits ← match sep with
    | none => some 0
    | some i => (strtol str (i + 1)).map (·.1)
  if sep.isSome ∧ bits ≤ 0 then return (0, [])
  let str ← match sep with
    | none => some str
    | some i => wr str i 0
  let text ← cString str
  let some addr := I.addr text | return (0, [])
  let len : Int := addr.family.size
  return (if bits = 0 ∨ bits > len * 8 then len * 8 else bits, addr.data)

/-- What the buffers of `parse_ipset` hold before a token is copied into them; the loop comes
with the number of the token. -/
abbrev Stack := Nat → { b : Bytes // b.length = 256 }

section Load

variable (K : Balance (Elem Unit)) (I : Pton) (stack : Stack)

/-- One token ends; `num` of them have been read. Memory does not run out. -/
def endIp (piece : Bytes) (num : Nat) (hdr : Pool Unit) : Option (Pool Unit) :=
  if piece.isEmpty then some hdr else do
    let ipLen := min piece.length 255
    let ip := piece.take ipLen ++ 0 :: (stack num).1.drop (ipLen + 1)
    let (bits, out) ← parseIp I ip 256
    if bits ≤ 0 then return hdr
    let len := bits.tdiv 8 + if bits.tmod 8 ≠ 0 then 1 else 0
    let (str, hdr) := hdr.malloc
    let ipRaw ← slice out 0 len
    let (hdr, _) ← memAdd K hdr () ⟨bits, ipRaw⟩ str true
    return hdr

/-- The loop of `parse_ipset`; `piece` is what stands between `s` and `e`. -/
def ipsetLoop : Bytes → Bytes → Nat → Pool Unit → Option (Pool Unit)
  | [], piece, num, hdr => endIp K I stack piece num hdr
  | c :: rest, piece, num, hdr =>
    if isSep c then do
      let hdr ← endIp K I stack piece num hdr
      ipsetLoop rest [] (if piece.isEmpty then num else num + 1) hdr
    else ipsetLoop rest (piece ++ [c]) num hdr

def parseIpset (hdr : Pool Unit) (buffer : Bytes) : Option (Pool Unit) :=
  ipsetLoop K I stack buffer [] 0 hdr

end Load

def checkIp {V : Type} (ipset : Pool V) (dst : Addr) : Option Bool := do
  let len : Int := if dst.family = .inet6 then 16 else 4
  return (← memGet ipset ⟨len * 8, dst.data⟩).isSome

/-- The tokens of a text. -/
def tokens (buffer : Bytes) : List Bytes := (pieces buffer []).filter fun t => !t.isEmpty

/-- An address or a prefix that a text lists. -/
structure Entry where
  addr : Addr
  suffix : Option Nat

def Entry.bits (e : Entry) : List Bool :=
  (bitsOf e.addr.data).take (e.suffix.getD (8 * e.addr.family.size))

/-- The address is of the family of the entry and below its prefix. -/
def Entry.Covers (e : Entry) (a : Addr) : Prop :=
  e.addr.family = a.family ∧ e.bits <+: bitsOf a.data

/-- The token is the text of the entry: an address, then a length of at most three digits. -/
inductive Lists (I : Pton) : Bytes → Entry → Prop where
  | address {text addr} (h : I.addr text = some addr) : Lists I text ⟨addr, none⟩
  | subnet {text addr digits} {n : Nat} (h : I.addr text = some addr)
      (hdigits : digits.all isdigit = true) (hlen : 1 ≤ digits.length ∧ digits.length ≤ 3)
      (hvalue : value 0 digits = n) (hn : n ≤ 8 * addr.family.size) :
      Lists I (text ++ slash :: digits) ⟨addr, some n⟩

/-- A text that lists addresses and prefixes, and nothing else. -/
structure Listing (I : Pton) where
  text : Bytes
  entries : List Entry
  lists : List.Forall₂ (Lists I) (tokens text) entries

/-- The first `n` bits of the address, all of them if it has no more. -/
def Entry.cut (e : Entry) (n : Int) : Option (List Bool) :=
  if n ≤ 0 then none else some ((bitsOf e.addr.data).take n.toNat)

/-- The bits that an entry is stored with, if it is stored; `junk` is what stands behind the token
in its buffer. Behind an address a stray '/' counts, and its number may not end there. -/
def Entry.kept (e : Entry) (junk : Bytes) : Option (Option (List Bool)) :=
  match e.suffix with
  | some n => some (e.cut n)
  | none =>
    match junk.dropWhile (· != slash) with
    | [] => some (some (bitsOf e.addr.data))
    | _ :: text => (number text).map fun r => e.cut r.1

/-- The entries, each with what stands behind its token. -/
def placed (stack : Stack) : Nat → List Bytes → List Entry → List (Entry × Bytes)
  | num, t :: ts, e :: es => (e, (stack num).1.drop (t.length + 1)) :: placed stack (num + 1) ts es
  | _, _, _ => []

def Listing.placed {I : Pton} (L : Listing I) (stack : Stack) : List (Entry × Bytes) :=
  IpSet.placed stack 0 (tokens L.text) L.entries

/-- What is stored for the entry agrees with the address on their common bits. -/
def Agrees (a : Addr) (x : Entry × Bytes) : Prop :=
  ∃ p, x.1.kept x.2 = some (some p) ∧ Compat (bitsOf a.data) p

section Parse

variable {I : Pton} {token text junk : Bytes} {e : Entry} {addr : Addr} {bits : Int}

lemma addr_some (h : I.addr text = some addr) : I.pton addr.family text = some addr.data := by
  unfold Pton.addr at h
  split at h
  · cases h
    assumption
  · split at h
    · cases h
      assumption
    · cases h

lemma addr_plain (h : I.addr text = some addr) : slash ∉ text ∧ 0 ∉ text := by
  have hplain := I.plain (addr_some h)
  constructor
  · intro hmem
    have := hplain _ hmem
    revert this
    decide
  · intro hmem
    have := hplain _ hmem
    revert this
    decide

lemma takeWhile_text (h : (0 : UInt8) ∉ text) (rest : Bytes) :
    (text ++ 0 :: rest).takeWhile (· ≠ 0) = text := by
  rw [List.takeWhile_append_of_pos, List.takeWhile_cons_of_neg (by simp), List.append_nil]
  intro c hc
  simpa using fun heq : c = 0 => h (heq ▸ hc)

/-- `parse_ip` behind the search for the '/'. -/
def parseAddr (I : Pton) (bits : Int) (str : Bytes) : Option (Int × Bytes) := do
  let text ← cString str
  let some addr := I.addr text | return (0, [])
  let len : Int := addr.family.size
  return (if bits = 0 ∨ bits > len * 8 then len * 8 else bits, addr.data)

lemma parseAddr_eq (h : I.addr text = some addr) (bits : Int) (rest : Bytes) :
    parseAddr I bits (text ++ 0 :: rest) =
      some (if bits = 0 ∨ bits > addr.family.size * 8 then (addr.family.size * 8 : Int) else bits,
        addr.data) := by
  have hzero : (0 : UInt8) ∈ text ++ 0 :: rest := by simp
  simp only [parseAddr, cString, if_pos hzero, takeWhile_text (addr_plain h).2, h,
    Option.bind_eq_bind, Option.bind_some, Option.pure_def]

lemma findIn_whole {p : UInt8 → Bool} (b : Bytes) :
    findIn b p 0 b.length = some ((b.findIdx? p).map Nat.cast) := by
  cases h : b.findIdx? p <;> simp [findIn, slice, h]

/-- The first '/' of the buffer stands behind `front`. -/
lemma parseIp_slash {front rest : Bytes} (hfront : slash ∉ front) :
    parseIp I (front ++ slash :: rest) (front ++ slash :: rest).length =
      (number rest).bind fun r =>
        if r.1 ≤ 0 then some (0, []) else parseAddr I r.1 (front ++ 0 :: rest) := by
  have hidx : (front ++ slash :: rest).findIdx? (· == slash) = some front.length := by
    rw [List.findIdx?_append, List.findIdx?_eq_none_iff.mpr]
    · simp [List.findIdx?_cons]
    · intro c hc
      simpa using fun heq : c = slash => hfront (heq ▸ hc)
  have hstrtol : strtol (front ++ slash :: rest) ((front.length : Int) + 1) =
      (number rest).map fun r => (r.1, ((front.length + 1 + r.2 : Nat) : Int)) := by
    have h := strtol_eq (front ++ [slash]) rest
    simpa using h
  have hwr : wr (front ++ slash :: rest) (front.length : Int) 0 = some (front ++ 0 :: rest) := by
    simp [wr]
  unfold parseIp
  rw [findIn_whole, hidx]
  simp only [Option.map_some, Option.bind_eq_bind, Option.bind_some, hstrtol, hwr,
    Option.isSome_some, true_and]
  cases number rest with
  | none => rfl
  | some r =>
    by_cases hbits : r.1 ≤ 0
    · simp [hbits]
    · simp only [Option.map_some, Option.bind_some, hbits, if_false]
      rfl

lemma parseIp_plain {str : Bytes} (h : slash ∉ str) :
    parseIp I str str.length = parseAddr I 0 str := by
  have hidx : str.findIdx? (· == slash) = none := by
    rw [List.findIdx?_eq_none_iff]
    intro c hc
    simpa using fun heq : c = slash => h (heq ▸ hc)
  unfold parseIp
  rw [findIn_whole, hidx]
  rfl

/-- A number that is not positive drops the entry, one that is too large leaves the address. -/
lemma cut_eq (e : Entry) (n : Int) :
    (if n ≤ 0 then some (0, []) else
      some (if n = 0 ∨ n > e.addr.family.size * 8 then (e.addr.family.size * 8 : Int) else n,
        e.addr.data)) =
      (some (e.cut n)).map fun kept =>
        match kept with
        | none => ((0 : Int), ([] : Bytes))
        | some p => ((p.length : Int), e.addr.data) := by
  have hsize : (bitsOf e.addr.data).length = 8 * e.addr.family.size := by
    rw [bitsOf_length, e.addr.length_eq]
  by_cases hn : n ≤ 0
  · simp [Entry.cut, hn]
  · simp only [Entry.cut, hn, if_false, Option.map_some, List.length_take, hsize, Option.some.injEq,
      Prod.mk.injEq, and_true]
    split <;> omega

/-- What `parse_ip` makes of a token is what the entry is kept as. -/
lemma parseIp_eq (h : Lists I token e) (junk : Bytes) :
    parseIp I (token ++ 0 :: junk) (token ++ 0 :: junk).length =
      (e.kept junk).map fun kept =>
        match kept with
        | none => (0, [])
        | some p => ((p.length : Int), e.addr.data) := by
  have hsize : (bitsOf e.addr.data).length = 8 * e.addr.family.size := by
    rw [bitsOf_length, e.addr.length_eq]
  cases h with
  | @address _ addr h =>
    have hzero : slash ≠ 0 := by decide
    cases hjunk : junk.dropWhile (· != slash) with
    | nil =>
      have hplain : slash ∉ token ++ 0 :: junk := by
        simp only [List.mem_append, List.mem_cons, hzero, false_or, not_or]
        refine ⟨(addr_plain h).1, ?_⟩
        intro hmem
        have := List.dropWhile_eq_nil_iff.mp hjunk slash hmem
        simp at this
      rw [parseIp_plain hplain, parseAddr_eq h]
      simp only [Entry.kept, hjunk, Option.map_some, true_or, if_true]
      simp only at hsize
      rw [hsize]
      congr 2
      omega
    | cons c rest =>
      have hsplit := List.takeWhile_append_dropWhile (p := (· != slash)) (l := junk)
      have hc : c = slash := by
        have hne : junk.dropWhile (· != slash) ≠ [] := by simp [hjunk]
        have hhead := List.head_dropWhile_not (· != slash) hne
        simpa [hjunk] using hhead
      have hfront : slash ∉ token ++ 0 :: junk.takeWhile (· != slash) := by
        simp only [List.mem_append, List.mem_cons, hzero, false_or, not_or]
        refine ⟨(addr_plain h).1, ?_⟩
        intro hmem
        have := List.mem_takeWhile_imp hmem
        simp at this
      rw [hjunk, hc] at hsplit
      have hbuffer : token ++ 0 :: junk =
          (token ++ 0 :: junk.takeWhile (· != slash)) ++ slash :: rest := by
        conv_lhs => rw [← hsplit]
        simp
      rw [hbuffer, parseIp_slash hfront]
      simp only [Entry.kept, hjunk, List.append_assoc, List.cons_append, parseAddr_eq h]
      cases number rest with
      | none => rfl
      | some r => exact cut_eq ⟨addr, none⟩ r.1
  | @subnet text addr digits n h hdigits hlen hvalue hn =>
    have hdigit : ∀ d ∈ digits, isdigit d = true := by simpa using hdigits
    have hnumber : number (digits ++ 0 :: junk) = some ((n : Int), digits.length) := by
      rw [number_digits hdigit (List.ne_nil_of_length_pos (by omega)) (by omega) rfl, hvalue]
    rw [List.append_assoc, List.cons_append, parseIp_slash (addr_plain h).1, hnumber]
    simp only [Option.bind_some, parseAddr_eq h, Entry.kept]
    exact cut_eq ⟨addr, some n⟩ n

end Parse

section Load

variable {K : Balance (Elem Unit)} {I : Pton} {stack : Stack} {token buffer piece : Bytes}
  {e : Entry} {hdr : Pool Unit} {num : Nat} {added : Set (List Bool)} {p : List Bool}

/-- The keys of a pool. -/
def keys (hdr : Pool Unit) : List (List Bool) := hdr.root.inorder.map fun x => x.key.bits

lemma added_represents {hdr' : Pool Unit} {x v : Elem Unit} (h : Added hdr hdr' x v)
    (hr : Represents (keys hdr) added) : Represents (keys hdr') (insert x.key.bits added) := by
  constructor
  · intro p hp
    obtain ⟨y, hy, rfl⟩ := List.mem_map.mp hp
    rcases h.sub y hy with rfl | hy
    · exact Set.mem_insert _ _
    · exact Set.mem_insert_of_mem _ (hr.sub _ (List.mem_map_of_mem hy))
  · have hnew : ∃ q ∈ keys hdr', q <+: x.key.bits := ⟨_, List.mem_map_of_mem h.mem, h.covers⟩
    intro p hp
    rcases Set.mem_insert_iff.mp hp with rfl | hp
    · exact hnew
    · obtain ⟨q, hq, hqp⟩ := hr.covers p hp
      obtain ⟨y, hy, rfl⟩ := List.mem_map.mp hq
      rcases h.keeps y hy with hy' | ⟨hxy, -⟩
      · exact ⟨_, List.mem_map_of_mem hy', hqp⟩
      · obtain ⟨q, hq, hqx⟩ := hnew
        exact ⟨q, hq, hqx.trans (hxy.trans hqp)⟩

/-- The first bits of an address are in its first bytes. -/
lemma key_of_bytes (data : Bytes) (n : Nat) (hn : n ≤ 8 * data.length) :
    (⟨n, data.take ((n + 7) / 8)⟩ : Key).Fits ∧
      (⟨n, data.take ((n + 7) / 8)⟩ : Key).bits = (bitsOf data).take n := by
  constructor
  · constructor
    · exact Int.natCast_nonneg n
    · simp only [List.length_take]
      omega
  · have hcut : (8 * ((n + 7) / 8)) ⊓ n = n := by omega
    have htake := bitsOf_take (d := data) (n := (n + 7) / 8) (by omega) 0
    rw [Nat.add_zero, List.take_zero, List.append_nil] at htake
    rw [Key.bits, ← htake, List.take_take, Int.toNat_natCast, Nat.min_comm, hcut]

lemma kept_bits {junk : Bytes} (h : e.kept junk = some (some p)) :
    0 < p.length ∧ p.length ≤ 8 * e.addr.data.length ∧
      p = (bitsOf e.addr.data).take p.length := by
  have hsize : 0 < e.addr.data.length := by
    rw [e.addr.length_eq]
    cases e.addr.family <;> decide
  have hcut : ∀ n : Int, e.cut n = some p → 0 < p.length ∧ p.length ≤ 8 * e.addr.data.length ∧
      p = (bitsOf e.addr.data).take p.length := by
    intro n hn
    unfold Entry.cut at hn
    split at hn
    · cases hn
    · cases hn
      simp only [List.length_take, bitsOf_length]
      refine ⟨by omega, by omega, ?_⟩
      rw [List.take_eq_take_iff, bitsOf_length]
      omega
  unfold Entry.kept at h
  split at h
  · exact hcut _ (Option.some.inj h)
  · split at h
    · cases h
      simp only [bitsOf_length]
      refine ⟨by omega, le_rfl, ?_⟩
      rw [← bitsOf_length, List.take_length]
    · obtain ⟨r, -, hr⟩ := Option.map_eq_some_iff.mp h
      exact hcut _ hr

/-- The tokens one after the other. -/
def endAll (K : Balance (Elem Unit)) (I : Pton) (stack : Stack) :
    List Bytes → Nat → Pool Unit → Option (Pool Unit)
  | [], _, hdr => some hdr
  | t :: ts, num, hdr => (endIp K I stack t num hdr).bind (endAll K I stack ts (num + 1))

lemma ipsetLoop_eq : ipsetLoop K I stack buffer piece num hdr =
    endAll K I stack ((pieces buffer piece).filter fun t => !t.isEmpty) num hdr := by
  induction buffer generalizing piece num hdr with
  | nil =>
    cases piece with
    | nil => rfl
    | cons c piece =>
      simp only [ipsetLoop, pieces, List.filter_cons, List.isEmpty_cons, Bool.not_false, if_true,
        List.filter_nil, endAll]
      exact (Option.bind_fun_some _).symm
  | cons c rest ih =>
    simp only [ipsetLoop, pieces]
    split
    · cases piece with
      | nil => exact ih
      | cons c piece =>
        simp only [List.filter_cons, List.isEmpty_cons, Bool.not_false, if_true, endAll, ← ih]
        rfl
    · exact ih

lemma lists_short (h : Lists I token e) : token.length < 256 := by
  cases h with
  | address h =>
    have := I.short (addr_some h)
    omega
  | subnet h hdigits hlen hvalue hn =>
    have := I.short (addr_some h)
    simp only [List.length_append, List.length_cons]
    omega

/-- The buffer of a token that fits it. -/
lemma endIp_eq (h : token.length < 256) (hne : token ≠ []) :
    endIp K I stack token num hdr = do
      let (bits, out) ← parseIp I (token ++ 0 :: (stack num).1.drop (token.length + 1))
        (token ++ 0 :: (stack num).1.drop (token.length + 1)).length
      if bits ≤ 0 then return hdr
      let len := bits.tdiv 8 + if bits.tmod 8 ≠ 0 then 1 else 0
      let (str, hdr) := hdr.malloc
      let ipRaw ← slice out 0 len
      let (hdr, _) ← memAdd K hdr () ⟨bits, ipRaw⟩ str true
      return hdr := by
  have hmin : min token.length 255 = token.length := by omega
  have hlen : (token ++ 0 :: (stack num).1.drop (token.length + 1)).length = 256 := by
    simp only [List.length_append, List.length_cons, List.length_drop, (stack num).2]
    omega
  have hempty : token.isEmpty = false := by simpa using hne
  simp only [endIp, hempty, hmin, hlen, List.take_length, Bool.false_eq_true, if_false]

/-- What the end of a token does to the pool. -/
lemma endIp_spec (stack : Stack) (num : Nat) (h : Lists I token e) (hne : token ≠ []) (hs : Sound hdr [])
    (hr : Represents (keys hdr) added) :
    match e.kept ((stack num).1.drop (token.length + 1)) with
    | none => endIp K I stack token num hdr = none
    | some none => endIp K I stack token num hdr = some hdr
    | some (some p) => ∃ hdr', endIp K I stack token num hdr = some hdr' ∧ Sound hdr' [] ∧
        Represents (keys hdr') (insert p added) := by
  rw [endIp_eq (lists_short h) hne, parseIp_eq h]
  cases hkept : e.kept ((stack num).1.drop (token.length + 1)) with
  | none => rfl
  | some kept =>
    cases kept with
    | none => rfl
    | some p =>
      obtain ⟨hpos, hle, hp⟩ := kept_bits hkept
      obtain ⟨hfits, hbits⟩ := key_of_bytes e.addr.data p.length hle
      have hlen : ((p.length : Int).tdiv 8 + if (p.length : Int).tmod 8 ≠ 0 then 1 else 0) =
          ((p.length + 7) / 8 : Nat) := by
        rw [Int.tdiv_eq_ediv_of_nonneg (Int.natCast_nonneg _),
          Int.tmod_eq_emod_of_nonneg (Int.natCast_nonneg _)]
        split <;> omega
      have hslice : slice e.addr.data 0 ((p.length + 7) / 8 : Nat) =
          some (e.addr.data.take ((p.length + 7) / 8)) := by
        have := slice_nat (b := e.addr.data) (i := 0) (n := (p.length + 7) / 8) (by omega)
        simpa using this
      obtain ⟨hdr', r, hadd, hspec⟩ := memAdd_spec (K := K) () true (malloc_sound hs) hfits
      have hnot : ¬ (p.length : Int) ≤ 0 := by omega
      cases r with
      | none =>
        obtain ⟨hroom, -⟩ := hspec
        cases hroom
      | some v =>
        obtain ⟨hsound, hadded⟩ := hspec
        refine ⟨hdr', ?_, hsound, ?_⟩
        · simp only [Option.map_some, Option.bind_eq_bind, Option.bind_some, hnot, if_false, hlen,
            hslice, hadd, Option.pure_def]
        · have hmalloc : Represents (keys hdr.malloc.2) added := hr
          have hrep := added_represents hadded hmalloc
          rwa [hbits, ← hp] at hrep

/-- The keys that some entries bring. -/
def brought (l : List (Entry × Bytes)) : Set (List Bool) :=
  { p | ∃ x ∈ l, x.1.kept x.2 = some (some p) }

lemma brought_cons_some {x : Entry × Bytes} {l : List (Entry × Bytes)}
    (h : x.1.kept x.2 = some (some p)) : brought (x :: l) = insert p (brought l) := by
  ext q
  constructor
  · rintro ⟨y, hy, hq⟩
    rcases List.mem_cons.mp hy with rfl | hy
    · cases h.symm.trans hq
      exact Set.mem_insert _ _
    · exact Set.mem_insert_of_mem _ ⟨y, hy, hq⟩
  · rintro (rfl | ⟨y, hy, hq⟩)
    · exact ⟨x, List.mem_cons_self, h⟩
    · exact ⟨y, List.mem_cons_of_mem _ hy, hq⟩

lemma brought_cons_none {x : Entry × Bytes} {l : List (Entry × Bytes)}
    (h : x.1.kept x.2 = some none) : brought (x :: l) = brought l := by
  ext q
  simp [brought, h]

/-- Either a stray number leaves its buffer, or the pool comes to hold what is kept. -/
theorem endAll_spec (stack : Stack) (num : Nat) {ts : List Bytes} {es : List Entry} (h : List.Forall₂ (Lists I) ts es)
    (hne : ∀ t ∈ ts, t ≠ []) (hs : Sound hdr []) (hr : Represents (keys hdr) added) :
    ((∃ x ∈ placed stack num ts es, x.1.kept x.2 = none) ∧
        endAll K I stack ts num hdr = none) ∨
      ((∀ x ∈ placed stack num ts es, x.1.kept x.2 ≠ none) ∧
        ∃ hdr', endAll K I stack ts num hdr = some hdr' ∧ Sound hdr' [] ∧
          Represents (keys hdr') (brought (placed stack num ts es) ∪ added)) := by
  induction h generalizing hdr num added with
  | nil =>
    right
    refine ⟨by simp [placed], hdr, rfl, hs, ?_⟩
    simpa [placed, brought] using hr
  | @cons t e ts es ht hts ih =>
    have hspec := endIp_spec (K := K) stack num ht (hne t (by simp)) hs hr
    have hne' : ∀ t ∈ ts, t ≠ [] := fun t ht => hne t (List.mem_cons_of_mem _ ht)
    cases hkept : e.kept ((stack num).1.drop (t.length + 1)) with
    | none =>
      rw [hkept] at hspec
      left
      refine ⟨⟨_, List.mem_cons_self, hkept⟩, ?_⟩
      rw [endAll, hspec]
      rfl
    | some kept =>
      rw [hkept] at hspec
      have hhere : ∀ mid, endIp K I stack t num hdr = some mid →
          endAll K I stack (t :: ts) num hdr = endAll K I stack ts (num + 1) mid := by
        intro mid hmid
        rw [endAll, hmid]
        rfl
      obtain ⟨mid, added', hmid, hsound, hrep, hbrought⟩ : ∃ mid added',
          endIp K I stack t num hdr = some mid ∧ Sound mid [] ∧ Represents (keys mid) added' ∧
          brought (placed stack num (t :: ts) (e :: es)) ∪ added =
            brought (placed stack (num + 1) ts es) ∪ added' := by
        cases kept with
        | none => exact ⟨hdr, added, hspec, hs, hr, by rw [placed, brought_cons_none hkept]⟩
        | some p =>
          obtain ⟨mid, hmid, hsound, hrep⟩ := hspec
          refine ⟨mid, insert p added, hmid, hsound, hrep, ?_⟩
          rw [placed, brought_cons_some hkept, Set.insert_union, Set.union_insert]
      rw [hhere mid hmid, hbrought]
      rcases ih (num + 1) hne' hsound hrep with ⟨⟨x, hx, hnone⟩, hend⟩ | ⟨hall, hend⟩
      · exact .inl ⟨⟨x, List.mem_cons_of_mem _ hx, hnone⟩, hend⟩
      · refine .inr ⟨?_, hend⟩
        intro x hx
        rcases List.mem_cons.mp hx with rfl | hx
        · rw [hkept]
          simp
        · exact hall x hx

lemma keys_empty : Represents (keys {}) ∅ := ⟨by simp [keys], by simp⟩

/-- `check_ip` finds what agrees with the address. -/
lemma checkIp_spec (a : Addr) (hs : Sound hdr []) (hr : Represents (keys hdr) added) :
    ∃ r, checkIp hdr a = some r ∧ (r = true ↔ ∃ p ∈ added, Compat (bitsOf a.data) p) := by
  have hlen : (if a.family = .inet6 then (16 : Int) else 4) * 8 = 8 * a.data.length := by
    rw [a.length_eq]
    cases a.family <;> rfl
  have hfits : (⟨8 * a.data.length, a.data⟩ : Key).Fits := by
    constructor
    · simp only
      omega
    · exact le_rfl
  have hbits : (⟨8 * a.data.length, a.data⟩ : Key).bits = bitsOf a.data := by
    have hnat : (8 * (a.data.length : Int)).toNat = (bitsOf a.data).length := by
      rw [bitsOf_length]
      omega
    rw [Key.bits, hnat, List.take_length]
  obtain ⟨r, hget, hsome⟩ := memGet_isSome hs hfits
  refine ⟨r.isSome, by simp [checkIp, hlen, hget], ?_⟩
  rw [hsome, hbits, ← hr.compat_iff]
  simp [keys]

end Load

section Exactness

variable {K : Balance (Elem Unit)} {I : Pton}

/-- The set is read, and the address is in it exactly when an entry of its own family covers it. -/
def Exact (K : Balance (Elem Unit)) (L : Listing I) (stack : Stack) (a : Addr) : Prop :=
  ∃ hdr r, parseIpset K I stack {} L.text = some hdr ∧ checkIp hdr a = some r ∧
    (r = true ↔ ∃ e ∈ L.entries, e.Covers a)

/-- Every stray number ends in its buffer. Where an entry covers the address, one that is kept
agrees with it; where none does, none of either family that is kept agrees with it. -/
structure Separate (L : Listing I) (stack : Stack) (a : Addr) : Prop where
  ends : ∀ x ∈ L.placed stack, x.1.kept x.2 ≠ none
  covered : (∃ e ∈ L.entries, e.Covers a) → ∃ x ∈ L.placed stack, Agrees a x
  apart : (∀ e ∈ L.entries, ¬ e.Covers a) → ∀ x ∈ L.placed stack, ¬ Agrees a x

theorem check_ip_exact_iff (K : Balance (Elem Unit)) (L : Listing I) (stack : Stack) (a : Addr) :
    Exact K L stack a ↔ Separate L stack a := by
  have hne : ∀ t ∈ tokens L.text, t ≠ [] := by
    intro t ht
    simpa using (List.mem_filter.mp ht).2
  have hload : parseIpset K I stack {} L.text = endAll K I stack (tokens L.text) 0 {} := ipsetLoop_eq
  rcases endAll_spec (K := K) stack 0 L.lists hne empty_sound keys_empty with
    ⟨⟨x, hx, hnone⟩, hend⟩ | ⟨hall, hdr, hend, hs, hr⟩
  · constructor
    · rintro ⟨hdr, r, hparse, -⟩
      rw [hload, hend] at hparse
      cases hparse
    · intro h
      exact absurd hnone (h.ends x hx)
  · obtain ⟨r, hcheck, hiff⟩ := checkIp_spec a hs hr
    have hagrees : (r = true) ↔ ∃ x ∈ L.placed stack, Agrees a x := by
      rw [hiff, Set.union_empty]
      constructor
      · rintro ⟨p, ⟨x, hx, hkept⟩, hcompat⟩
        exact ⟨x, hx, p, hkept, hcompat⟩
      · rintro ⟨x, hx, p, hkept, hcompat⟩
        exact ⟨p, ⟨x, hx, hkept⟩, hcompat⟩
    constructor
    · rintro ⟨hdr', r', hparse, hcheck', hexact⟩
      rw [hload, hend] at hparse
      cases hparse
      rw [hcheck] at hcheck'
      cases hcheck'
      rw [hagrees] at hexact
      refine ⟨hall, hexact.mpr, ?_⟩
      intro hnone x hx hag
      obtain ⟨e, he, hcov⟩ := hexact.mp ⟨x, hx, hag⟩
      exact hnone e he hcov
    · intro h
      refine ⟨hdr, r, hload.trans hend, hcheck, ?_⟩
      rw [hagrees]
      constructor
      · rintro ⟨x, hx, hag⟩
        by_contra hnone
        simp only [not_exists, not_and] at hnone
        exact h.apart hnone x hx hag
      · exact h.covered

/-- An `inet_pton` that knows the text of one IPv6 address. -/
def onePton : Pton where
  pton f t :=
    if f = .inet6 ∧ t = ascii ['2', '0', '0', '0', ':', ':'] then
      some (0x20 :: List.replicate 15 0)
    else none
  length_eq := by
    intro f t d h
    split at h
    · next hft =>
      cases h
      rw [hft.1]
      rfl
    · cases h
  short := by
    intro f t d h
    split at h
    · next hft =>
      rw [hft.2]
      decide
    · cases h
  plain := by
    intro f t d h
    split at h
    · next hft =>
      rw [hft.2]
      decide +kernel
    · cases h

/-- The text `2000::/3`. -/
def sixListing : Listing onePton where
  text := ascii ['2', '0', '0', '0', ':', ':', '/', '3']
  entries := [⟨⟨.inet6, 0x20 :: List.replicate 15 0, rfl⟩, some 3⟩]
  lists := by
    have h : Lists onePton (ascii ['2', '0', '0', '0', ':', ':'] ++ slash :: [ch '3'])
        ⟨⟨.inet6, 0x20 :: List.replicate 15 0, rfl⟩, some 3⟩ :=
      .subnet rfl rfl (by decide) rfl (by decide)
    exact .cons h .nil

/-- `2000::/3` alone lets an IPv4 address in. -/
theorem ipv6_prefix_covers_ipv4 :
    ¬ Exact ⟨id, fun _ => rfl⟩ sixListing (fun _ => ⟨List.replicate 256 0, List.length_replicate⟩)
      ⟨.inet, [32, 0, 0, 1], rfl⟩ := by
  rintro ⟨hdr, r, hparse, hcheck, hexact⟩
  have hrun : ((parseIpset ⟨id, fun _ => rfl⟩ onePton (fun _ => ⟨List.replicate 256 0, List.length_replicate⟩) {}
      sixListing.text).bind fun hdr => checkIp hdr ⟨.inet, [32, 0, 0, 1], rfl⟩) = some true := by
    decide +kernel
  rw [hparse, Option.bind_some, hcheck] at hrun
  cases hrun
  obtain ⟨e, he, hfamily, -⟩ := hexact.mp rfl
  cases List.mem_singleton.mp he
  cases hfamily

end Exactness

end IpSet
