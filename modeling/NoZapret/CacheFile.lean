import NoZapret.CachePool
import NoZapret.InetText
import NoZapret.Scanf

/-!
# The cache file

`dump_cache` and `load_cache` of `mpool.c`. A line is written for each entry of a group and read
back field by field; a field that `fscanf` does not come to keeps what its variable happens to
hold.
-/

namespace CacheFile

open BitPool Block CachePool Inet Packets Scanf SearchTree

/-- The text of a `%.*s`. -/
def shownText (b : Bytes) (precision : Nat) : Option Bytes :=
  let text := b.takeWhile (· ≠ 0)
  if text.length < b.length ∨ precision ≤ b.length then some (text.take precision) else none

/-- What stands for the host in a line. -/
def shownHost (val : Val) : Option Bytes :=
  let precision := if val.extraLen ≠ 0 then val.extraLen else 1
  match val.extra with
  | some b => shownText b precision
  | none => some ([ch '-'].take precision)

/-- One line of `dump_cache`. -/
def dumpLine (I : Ntop) (e : Elem Val) : Option Bytes := do
  let family := if (← slice e.key.data 0 2) = familyBytes .inet then Family.inet else .inet6
  let ip ← slice e.key.data 4 family.size
  let hi ← rd e.key.data 2
  let lo ← rd e.key.data 3
  let host ← shownHost e.val
  return [ch '0', ch ' '] ++ I.ntop family ip ++ ch ' ' :: decimal (e.key.len - 32) ++
    ch ' ' :: decimal (hi.toNat * 256 + lo.toNat) ++ ch ' ' :: decimal e.val.time ++
    ch ' ' :: host ++ [ch '\n']

/-- The entries of a group, in the order of the tree. -/
def entriesOf (hdr : Pool Val) (dp : Nat) : List (Elem Val) :=
  hdr.root.inorder.filter fun e => e.val.dp == some dp

def dumpCache (I : Ntop) (hdr : Pool Val) (dp : Nat) : Option Bytes :=
  ((entriesOf hdr dp).mapM (dumpLine I)).map List.flatten

/-- The fields that a call of `fscanf` has assigned. -/
structure Fields where
  addr : Option Bytes := none
  bitlen : Option Int := none
  port : Option UInt16 := none
  time : Option Int := none
  host : Option Bytes := none

/-- `fscanf(in, "0 %39s %d %hu %jd %255s\n", …)`, and what is left of the stream. -/
def scanLine : Bytes → Fields × Bytes
  | [] => ({}, [])
  | c :: text =>
    if c ≠ ch '0' then ({}, c :: text) else
    let text := skipBlanks text
    match scanWord 39 text with
    | none => ({}, text)
    | some (addr, text) =>
    let text := skipBlanks text
    match scanInt text with
    | none => ({ addr := some addr }, text)
    | some (bitlen, text) =>
    let bitlen := toInt bitlen
    let text := skipBlanks text
    match scanInt text with
    | none => ({ addr := some addr, bitlen := some bitlen }, text)
    | some (port, text) =>
    let port := toUInt16 port
    let text := skipBlanks text
    match scanInt text with
    | none => ({ addr := some addr, bitlen := some bitlen, port := some port }, text)
    | some (time, text) =>
    let time := toIntMax time
    let text := skipBlanks text
    match scanWord 255 text with
    | none =>
      ({ addr := some addr, bitlen := some bitlen, port := some port, time := some time }, text)
    | some (host, text) =>
      (⟨some addr, some bitlen, some port, some time, some host⟩, skipBlanks text)

/-- What the uninitialised variables of a round hold. -/
structure Junk where
  bitlen : Int
  port : UInt16
  time : Int
  range : -2 ^ 31 ≤ bitlen ∧ bitlen < 2 ^ 31

/-- A sum of two `int`. -/
def intSum (a b : Int) : Option Int :=
  if -2 ^ 31 ≤ a + b ∧ a + b < 2 ^ 31 then some (a + b) else none

/-- The string in a buffer of zeros that `%s` has written to. -/
def stringOf (word : Bytes) : Bytes := word.takeWhile (· ≠ 0)

section Load

variable (K : Balance (Elem Val)) (I : Pton) (dp : Nat)

/-- What `load_cache` writes to the element that `mem_add` returns. -/
def loaded (val : Val) (time : Int) (host : Bytes) : Val :=
  { extraLen := host.length
    extra := if host.length > 1 then some (host ++ [0]) else val.extra
    dp := some dp
    time := time }

/-- One round of `load_cache`; `none` where it returns. Memory does not run out. -/
def loadRound (junk : Junk) (hdr : Pool Val) (text : Bytes) : Option (Option (Pool Val × Bytes)) := do
  let (f, rest) := scanLine text
  let some addrStr := f.addr | return none
  let bitlen ← intSum (f.bitlen.getD junk.bitlen) (4 * 8)
  let some addr := I.addr (stringOf addrStr) | return some (hdr, rest)
  let key := serializeAddr ⟨addr, f.port.getD junk.port⟩
  if key.length * 8 < bitlen then return some (hdr, rest)
  let (data, hdr) := hdr.malloc
  let (hdr, e) ← memAdd K hdr {} ⟨bitlen, key⟩ data true
  let some e := e | return none
  let val := loaded dp e.val (f.time.getD junk.time) (stringOf (f.host.getD []))
  return some (hdr.update e val, rest)

/-- The loop of `load_cache`, from its round `i`. -/
def loadLoop (junk : Nat → Junk) : Nat → Nat → Pool Val → Bytes → Option (Pool Val)
  | 0, _, _, _ => none
  | fuel + 1, i, hdr, text => do
    match ← loadRound K I dp (junk i) hdr text with
    | none => return hdr
    | some (hdr, text) => loadLoop junk fuel (i + 1) hdr text

def loadCache (junk : Nat → Junk) (hdr : Pool Val) (text : Bytes) : Option (Pool Val) :=
  loadLoop K I dp junk (text.length + 1) 0 hdr text

end Load

section Scan

variable {text rest : Bytes} {f : Fields}

/-- What can be said of the fields of a line, however far `fscanf` came. -/
structure Scanned (text : Bytes) (f : Fields) (rest : Bytes) : Prop where
  shorter : ∀ word, f.addr = some word → rest.length < text.length
  range : ∀ b, f.bitlen = some b → -2 ^ 31 ≤ b ∧ b < 2 ^ 31
  whole : ∀ host, f.host = some host →
    (∃ word bitlen port time, f = ⟨some word, some bitlen, some port, some time, some host⟩) ∧
      (∀ c ∈ host, isspace c = false) ∧ host.length ≤ 255

theorem scanLine_spec (h : scanLine text = (f, rest)) : Scanned text f rest := by
  have hmissing : ∀ {f : Fields} {rest : Bytes}, rest.length < text.length ∨ f.addr = none →
      (∀ b, f.bitlen = some b → -2 ^ 31 ≤ b ∧ b < 2 ^ 31) → f.host = none →
      Scanned text f rest := by
    intro f rest hlen hrange hhost
    refine ⟨fun word hword => ?_, hrange, fun host h => ?_⟩
    · exact hlen.resolve_right fun hnone => by cases hnone.symm.trans hword
    · cases hhost.symm.trans h
  have hbits : ∀ v b : Int, some (toInt v) = some b → -2 ^ 31 ≤ b ∧ b < 2 ^ 31 := by
    intro v b hb
    rw [← Option.some.inj hb]
    exact toInt_range v
  unfold scanLine at h
  split at h
  · cases h
    exact hmissing (.inr rfl) (by simp) rfl
  · next c tail =>
    split at h
    · cases h
      exact hmissing (.inr rfl) (by simp) rfl
    · have hskip := skipBlanks_length tail
      simp only at h
      split at h
      · cases h
        exact hmissing (.inr rfl) (by simp) rfl
      · next addr t1 h1 =>
        obtain ⟨-, -, hlen1⟩ := scanWord_some h1
        have hskip1 := skipBlanks_length t1
        split at h
        · cases h
          exact hmissing (.inl (by rw [List.length_cons]; omega)) (by simp) rfl
        · next bitlen t2 h2 =>
          have hlen2 := scanInt_some h2
          have hskip2 := skipBlanks_length t2
          split at h
          · cases h
            exact hmissing (.inl (by rw [List.length_cons]; omega)) (hbits bitlen) rfl
          · next port t3 h3 =>
            have hlen3 := scanInt_some h3
            have hskip3 := skipBlanks_length t3
            split at h
            · cases h
              exact hmissing (.inl (by rw [List.length_cons]; omega)) (hbits bitlen) rfl
            · next time t4 h4 =>
              have hlen4 := scanInt_some h4
              have hskip4 := skipBlanks_length t4
              split at h
              · cases h
                exact hmissing (.inl (by rw [List.length_cons]; omega)) (hbits bitlen) rfl
              · next host t5 h5 =>
                obtain ⟨hplain, hshort, hlen5⟩ := scanWord_some h5
                have hskip5 := skipBlanks_length t5
                cases h
                refine ⟨fun _ _ => ?_, hbits bitlen, ?_⟩
                · rw [List.length_cons]
                  omega
                · intro host' hhost
                  cases hhost
                  exact ⟨⟨addr, toInt bitlen, toUInt16 port, toIntMax time, rfl⟩, hplain, hshort⟩

end Scan

end CacheFile
