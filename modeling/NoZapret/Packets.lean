import Mathlib.Algebra.Order.Ring.Int
import NoZapret.Library.Block

/-!
# Reading and editing request packets

The HTTP and TLS helpers of `packets.c` that `desync`, `tamp` and the group
filters call. A `char *` is an address in one block of bytes; every function is
in `Option`, and `none` is an access outside that block. Loops that advance an
index carry fuel that covers the block. ISO C's "C" locale is assumed for the
`ctype.h` functions.
-/

namespace Packets

open Block

abbrev Bytes := List UInt8

def ch (c : Char) : UInt8 := UInt8.ofNat c.toNat

def ascii (cs : List Char) : Bytes := cs.map ch

def isspace (c : UInt8) : Bool := c == 32 || (9 ≤ c && c ≤ 13)

def isdigit (c : UInt8) : Bool := 48 ≤ c && c ≤ 57

def tolower (c : UInt8) : UInt8 := if 65 ≤ c && c ≤ 90 then c + 32 else c

def toupper (c : UInt8) : UInt8 := if 97 ≤ c && c ≤ 122 then c - 32 else c

/-- `ANTOHS(data, i)` -/
def antohs (b : Bytes) (i : Int) : Option Nat := do
  let hi ← rd b i
  let lo ← rd b (i + 1)
  return hi.toNat * 256 + lo.toNat

/-- `(uint16_t) x` -/
def u16 (x : Int) : Nat := (x % 65536).toNat

/-- `SHTONA(data, i, x)` -/
def shtona (b : Bytes) (i x : Int) : Option Bytes := do
  let b ← wr b i (UInt8.ofNat (u16 x / 256))
  wr b (i + 1) (UInt8.ofNat (u16 x % 256))

/-- `for (; p(*(i - 1)); i--)` -/
def trimBack (p : UInt8 → Bool) (b : Bytes) : Nat → Int → Option Int
  | 0, _ => none
  | fuel + 1, i => do
    if p (← rd b (i - 1)) then trimBack p b fuel (i - 1) else return i

/-- `for (; p(*i); i++)` -/
def skipFwd (p : UInt8 → Bool) (b : Bytes) : Nat → Int → Option Int
  | 0, _ => none
  | fuel + 1, i => do
    if p (← rd b i) then skipFwd p b fuel (i + 1) else return i

def strtolDigits (b : Bytes) : Nat → Int → Int → Option (Int × Int)
  | 0, _, _ => none
  | fuel + 1, i, acc => do
    let c ← rd b i
    if isdigit c then strtolDigits b fuel (i + 1) (acc * 10 + (c.toNat - 48))
    else return (acc, i)

/-- `strtol(b + i, &end, 10)`: the saturated value and `end`. -/
def strtol (b : Bytes) (i : Int) : Option (Int × Int) := do
  let j ← skipFwd isspace b (b.length + 1) i
  let c ← rd b j
  let k := if c = ch '-' ∨ c = ch '+' then j + 1 else j
  let (v, stop) ← strtolDigits b (b.length + 1) k 0
  if stop = k then return (0, i)
  return (max (-2 ^ 63) (min (2 ^ 63 - 1) (if c = ch '-' then -v else v)), stop)

def strncasestrFrom (a : Bytes) (as : Nat) (b : Bytes) : Nat → Int → Option (Option Int)
  | 0, _ => none
  | fuel + 1, p => do
    match ← findIn a (fun c => some c == b.head?) p (as - p) with
    | none => return none
    | some q =>
      if q + b.length > as then return none
      let here ← slice a q b.length
      if here.map tolower = b.map tolower then return some q
      strncasestrFrom a as b fuel (q + 1)

def strncasestr (a : Bytes) (as : Nat) (b : Bytes) : Option (Option Int) :=
  strncasestrFrom a as b (as + 1) 0

def findTlsExtFrom (type : Nat) (data : Bytes) (size : Nat) : Nat → Nat → Option Nat
  | 0, _ => none
  | fuel + 1, skip => do
    if skip + 4 < size then
      if type = (← antohs data skip) then return skip
      let len ← antohs data (skip + 2)
      findTlsExtFrom type data size fuel (skip + len + 4)
    else return 0

/-- Offset of the extension, `0` when there is none. -/
def findTlsExtOffset (type : Nat) (data : Bytes) (size skip : Nat) : Option Nat := do
  if size ≤ skip + 2 then return 0
  let extLen ← antohs data skip
  let skip := skip + 2
  let size := if extLen < size - skip then extLen + skip else size
  findTlsExtFrom type data size (size + 1) skip

def findExtBlock (data : Bytes) (size : Nat) : Option Nat := do
  if size < 44 then return 0
  let sidLen := (← rd data 43).toNat
  if size < 44 + sidLen + 2 then return 0
  let cipLen ← antohs data (44 + sidLen)
  let skip := 44 + sidLen + 2 + cipLen + 2
  return if skip > size then 0 else skip

def isTlsChello (buffer : Bytes) (bsize : Nat) : Option Bool := do
  if bsize ≤ 5 then return false
  if (← antohs buffer 0) ≠ 0x1603 then return false
  return (← rd buffer 5) == 0x01

/-- What a host parser returns, and what it stored through `hs` and `port`. -/
structure HostRef where
  len : Int
  hs : Option Int
  port : Option Nat
  deriving DecidableEq, Repr

def HostRef.miss : HostRef := ⟨0, none, none⟩

def parseTls (buffer : Bytes) (bsize : Nat) : Option HostRef := do
  if !(← isTlsChello buffer bsize) then return .miss
  let skip ← findExtBlock buffer bsize
  if skip = 0 then return .miss
  let sniOffs ← findTlsExtOffset 0x00 buffer bsize skip
  if sniOffs = 0 ∨ sniOffs + 12 ≥ bsize then return .miss
  let len ← antohs buffer (sniOffs + 7)
  if sniOffs + 9 + len > bsize then return .miss
  return ⟨len, some (sniOffs + 9), none⟩

def methods : List Bytes :=
  [ascii ['H', 'E', 'A', 'D'], ascii ['G', 'E', 'T'], ascii ['P', 'O', 'S', 'T'],
    ascii ['P', 'U', 'T'], ascii ['D', 'E', 'L', 'E', 'T', 'E'],
    ascii ['O', 'P', 'T', 'I', 'O', 'N', 'S'], ascii ['C', 'O', 'N', 'N', 'E', 'C', 'T'],
    ascii ['T', 'R', 'A', 'C', 'E'], ascii ['P', 'A', 'T', 'C', 'H']]

def startsWithOne (buffer : Bytes) : List Bytes → Option Bool
  | [] => some false
  | m :: ms => do
    if (← slice buffer 0 m.length) = m then return true
    startsWithOne buffer ms

def isHttp (buffer : Bytes) (bsize : Nat) : Option Bool := do
  if bsize < 16 then return false
  let c ← rd buffer 0
  if c > ch 'T' ∨ c < ch 'C' then return false
  startsWithOne buffer methods

/-- The port after the host, `h_end` and whether `parse_http` goes on.
`wantPort` is `port != 0`. -/
def parsePort (buffer : Bytes) (hEnd lEnd : Int) (wantPort : Bool) :
    Option (Option (Int × Option Nat)) := do
  if (← rd buffer hEnd) ≠ ch ':' then return some (lEnd, if wantPort then some 80 else none)
  if !wantPort then return some (hEnd, none)
  let (i, stop) ← strtol buffer (hEnd + 1)
  if i ≤ 0 ∨ stop ≠ lEnd ∨ i > 0xffff then return none
  return some (hEnd, some i.toNat)

def hostField : Bytes := ascii ['\n', 'H', 'o', 's', 't', ':']

def parseHttp (buffer : Bytes) (bsize : Nat) (wantPort : Bool) : Option HostRef := do
  if !(← isHttp buffer bsize) then return .miss
  let some host ← strncasestr buffer bsize hostField | return .miss
  let host := host + 6
  let host := (← findIn buffer (· != ch ' ') host (bsize - host)).getD bsize
  let some lEnd ← findIn buffer (· == ch '\n') host (bsize - host) | return .miss
  let lEnd ← trimBack isspace buffer (bsize + 1) lEnd
  let hEnd := (← trimBack isdigit buffer (bsize + 1) (lEnd - 1)) - 1
  let some (hEnd, port) ← parsePort buffer hEnd lEnd wantPort | return .miss
  if (← rd buffer host) = ch '[' then
    if (← rd buffer (hEnd - 1)) ≠ ch ']' then return ⟨0, none, port⟩
    return ⟨hEnd - 1 - (host + 1), some (host + 1), port⟩
  return ⟨hEnd - host, some host, port⟩

structure HttpMods where
  hmix : Bool
  space : Bool
  dmix : Bool
  deriving DecidableEq, Repr

/-- `MH_DMIX`: every second byte of the host in upper case. -/
def upperEvery2 (b : Bytes) (host : Int) : Nat → Option Bytes
  | 0 => some b
  | k + 1 => do
    let b ← upperEvery2 b host k
    let i := host + 2 * k
    wr b i (toupper (← rd b i))

/-- `MH_HMIX` -/
def mixName (b : Bytes) (par : Int) : Option Bytes := do
  let b ← wr b par (tolower (← rd b par))
  let b ← wr b (par + 1) (toupper (← rd b (par + 1)))
  wr b (par + 3) (toupper (← rd b (par + 3)))

/-- `MH_SPACE`: the value moves to the colon and tabs follow it. -/
def spaceHost (b : Bytes) (par host hlen : Int) : Option Bytes := do
  let hlen := (← skipFwd (fun c => !isspace c) b (b.length + 1) (host + hlen)) - host
  let sc := host - (par + 5)
  let b ← memmove b (par + 5) host hlen
  memset b (par + 5 + hlen) (ch '\t') sc

/-- Return value and the buffer afterwards. -/
def modHttp (buffer : Bytes) (bsize : Nat) (m : HttpMods) : Option (Int × Bytes) := do
  let ref ← parseHttp buffer bsize false
  if ref.len = 0 then return (-1, buffer)
  let host ← ref.hs
  let hlen := ref.len
  let par := (← trimBack (· != ch ':') buffer (bsize + 1) host) - 1 - 4
  let b ← (if m.hmix then mixName buffer par else some buffer)
  let b ← (if m.dmix then upperEvery2 b host ((hlen + 1) / 2).toNat else some b)
  let b ← (if m.space then spaceHost b par host hlen else some b)
  return (0, b)

/-- `part_tls(buffer + base, bsize, n, pos)` -/
def partTls (buffer : Bytes) (base bsize n pos : Int) : Option (Int × Bytes) := do
  if n < 3 ∨ (bsize - n) % 2 ^ 64 < 5 ∨ pos < 0 ∨ pos + 5 > n then return (0, buffer)
  let rSz ← antohs buffer (base + 3)
  if (rSz : Int) < pos then return (n, buffer)
  let b ← memmove buffer (base + 5 + pos + 5) (base + 5 + pos) (n - (5 + pos))
  let b ← memmove b (base + 5 + pos) base 3
  let b ← shtona b (base + 3) pos
  let b ← shtona b (base + 5 + pos + 3) (rSz - pos)
  return (5, b)

section Lengths

lemma shtona_length {b b' : Bytes} {i x : Int} (h : shtona b i x = some b') :
    b'.length = b.length := by
  simp only [shtona, Option.bind_eq_bind, Option.bind_eq_some_iff] at h
  obtain ⟨b1, h1, h2⟩ := h
  rw [wr_length h2, wr_length h1]

lemma mixName_length {b b' : Bytes} {par : Int} (h : mixName b par = some b') :
    b'.length = b.length := by
  simp only [mixName, Option.bind_eq_bind, Option.bind_eq_some_iff] at h
  obtain ⟨_, _, b1, h1, _, _, b2, h2, _, _, h3⟩ := h
  rw [wr_length h3, wr_length h2, wr_length h1]

lemma upperEvery2_length {b : Bytes} {host : Int} {k : Nat} :
    ∀ {b' : Bytes}, upperEvery2 b host k = some b' → b'.length = b.length := by
  induction k with
  | zero =>
    intro b' h
    cases h
    rfl
  | succ k ih =>
    intro b' h
    simp only [upperEvery2, Option.bind_eq_bind, Option.bind_eq_some_iff] at h
    obtain ⟨b1, h1, _, _, h2⟩ := h
    rw [wr_length h2, ih h1]

lemma spaceHost_length {b b' : Bytes} {par host hlen : Int}
    (h : spaceHost b par host hlen = some b') : b'.length = b.length := by
  simp only [spaceHost, Option.bind_eq_bind, Option.bind_eq_some_iff] at h
  obtain ⟨_, _, b1, h1, h2⟩ := h
  rw [memset_length h2, memmove_length h1]

lemma ite_length {b b' : Bytes} {c : Bool} {f : Option Bytes}
    (hf : ∀ b', f = some b' → b'.length = b.length)
    (h : (if c then f else some b) = some b') : b'.length = b.length := by
  cases c with
  | true => exact hf b' h
  | false =>
    cases h
    rfl

lemma modHttp_length {b b' : Bytes} {bsize : Nat} {m : HttpMods} {r : Int}
    (h : modHttp b bsize m = some (r, b')) : b'.length = b.length := by
  simp only [modHttp, Option.bind_eq_bind, Option.bind_eq_some_iff] at h
  obtain ⟨ref, -, h⟩ := h
  split at h
  · cases h
    rfl
  · simp only [Option.bind_eq_some_iff] at h
    obtain ⟨host, -, par, -, b1, h1, b2, h2, b3, h3, h⟩ := h
    cases h
    rw [ite_length (fun _ hs => spaceHost_length hs) h3,
      ite_length (fun _ hs => upperEvery2_length hs) h2,
      ite_length (fun _ hs => mixName_length hs) h1]

/-- `part_tls` keeps the block, and answers non-zero only with five spare bytes. -/
lemma partTls_spec {b b' : Bytes} {base bsize n pos r : Int}
    (h : partTls b base bsize n pos = some (r, b')) :
    b'.length = b.length ∧ (r ≠ 0 → 5 ≤ (bsize - n) % 2 ^ 64) := by
  simp only [partTls, Option.bind_eq_bind] at h
  split at h
  · cases h
    simp
  · next hcond =>
    have hroom : 5 ≤ (bsize - n) % 2 ^ 64 := by omega
    simp only [Option.bind_eq_some_iff] at h
    obtain ⟨rSz, -, h⟩ := h
    split at h
    · cases h
      exact ⟨rfl, fun _ => hroom⟩
    · simp only [Option.bind_eq_some_iff] at h
      obtain ⟨b1, h1, b2, h2, b3, h3, b4, h4, h⟩ := h
      cases h
      exact ⟨by rw [shtona_length h4, shtona_length h3, memmove_length h2, memmove_length h1],
        fun _ => hroom⟩

end Lengths

end Packets
