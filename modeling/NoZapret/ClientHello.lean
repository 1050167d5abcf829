import NoZapret.Packets

/-!
# Rewriting a ClientHello

`change_tls_sni` and `randomize_tls` of `packets.c` with everything they call.
They run on the page `get_tcp_fake` maps for a decoy. The values of `rand()`
are the argument `rnd`, one for each draw; a loop that the source leaves
without a bound of its own (`merge_tls_records` on zero-length records) has
`none` for a run that does not end.
-/

namespace ClientHello

open Block Packets

/-- `tls_data[517]` -/
def tlsData : Bytes := [
  0x16, 0x03, 0x01, 0x02, 0x00, 0x01, 0x00, 0x01, 0xfc, 0x03, 0x03, 0x03, 0x5f, 0x6f, 0x2c, 0xed,
  0x13, 0x22, 0xf8, 0xdc, 0xb2, 0xf2, 0x60, 0x48, 0x2d, 0x72, 0x66, 0x6f, 0x57, 0xdd, 0x13, 0x9d,
  0x1b, 0x37, 0xdc, 0xfa, 0x36, 0x2e, 0xba, 0xf9, 0x92, 0x99, 0x3a, 0x20, 0xf9, 0xdf, 0x0c, 0x2e,
  0x8a, 0x55, 0x89, 0x82, 0x31, 0x63, 0x1a, 0xef, 0xa8, 0xbe, 0x08, 0x58, 0xa7, 0xa3, 0x5a, 0x18,
  0xd3, 0x96, 0x5f, 0x04, 0x5c, 0xb4, 0x62, 0xaf, 0x89, 0xd7, 0x0f, 0x8b, 0x00, 0x3e, 0x13, 0x02,
  0x13, 0x03, 0x13, 0x01, 0xc0, 0x2c, 0xc0, 0x30, 0x00, 0x9f, 0xcc, 0xa9, 0xcc, 0xa8, 0xcc, 0xaa,
  0xc0, 0x2b, 0xc0, 0x2f, 0x00, 0x9e, 0xc0, 0x24, 0xc0, 0x28, 0x00, 0x6b, 0xc0, 0x23, 0xc0, 0x27,
  0x00, 0x67, 0xc0, 0x0a, 0xc0, 0x14, 0x00, 0x39, 0xc0, 0x09, 0xc0, 0x13, 0x00, 0x33, 0x00, 0x9d,
  0x00, 0x9c, 0x00, 0x3d, 0x00, 0x3c, 0x00, 0x35, 0x00, 0x2f, 0x00, 0xff, 0x01, 0x00, 0x01, 0x75,
  0x00, 0x00, 0x00, 0x16, 0x00, 0x14, 0x00, 0x00, 0x11, 0x77, 0x77, 0x77, 0x2e, 0x77, 0x69, 0x6b,
  0x69, 0x70, 0x65, 0x64, 0x69, 0x61, 0x2e, 0x6f, 0x72, 0x67, 0x00, 0x0b, 0x00, 0x04, 0x03, 0x00,
  0x01, 0x02, 0x00, 0x0a, 0x00, 0x16, 0x00, 0x14, 0x00, 0x1d, 0x00, 0x17, 0x00, 0x1e, 0x00, 0x19,
  0x00, 0x18, 0x01, 0x00, 0x01, 0x01, 0x01, 0x02, 0x01, 0x03, 0x01, 0x04, 0x00, 0x10, 0x00, 0x0e,
  0x00, 0x0c, 0x02, 0x68, 0x32, 0x08, 0x68, 0x74, 0x74, 0x70, 0x2f, 0x31, 0x2e, 0x31, 0x00, 0x16,
  0x00, 0x00, 0x00, 0x17, 0x00, 0x00, 0x00, 0x31, 0x00, 0x00, 0x00, 0x0d, 0x00, 0x2a, 0x00, 0x28,
  0x04, 0x03, 0x05, 0x03, 0x06, 0x03, 0x08, 0x07, 0x08, 0x08, 0x08, 0x09, 0x08, 0x0a, 0x08, 0x0b,
  0x08, 0x04, 0x08, 0x05, 0x08, 0x06, 0x04, 0x01, 0x05, 0x01, 0x06, 0x01, 0x03, 0x03, 0x03, 0x01,
  0x03, 0x02, 0x04, 0x02, 0x05, 0x02, 0x06, 0x02, 0x00, 0x2b, 0x00, 0x09, 0x08, 0x03, 0x04, 0x03,
  0x03, 0x03, 0x02, 0x03, 0x01, 0x00, 0x2d, 0x00, 0x02, 0x01, 0x01, 0x00, 0x33, 0x00, 0x26, 0x00,
  0x24, 0x00, 0x1d, 0x00, 0x20, 0x11, 0x8c, 0xb8, 0x8c, 0xe8, 0x8a, 0x08, 0x90, 0x1e, 0xee, 0x19,
  0xd9, 0xdd, 0xe8, 0xd4, 0x06, 0xb1, 0xd1, 0xe2, 0xab, 0xe0, 0x16, 0x63, 0xd6, 0xdc, 0xda, 0x84,
  0xa4, 0xb8, 0x4b, 0xfb, 0x0e, 0x00, 0x15, 0x00, 0xac] ++ List.replicate 172 0

/-- `http_data[43]` -/
def httpData : Bytes := [
  0x47, 0x45, 0x54, 0x20, 0x2f, 0x20, 0x48, 0x54, 0x54, 0x50, 0x2f, 0x31, 0x2e, 0x31, 0x0d, 0x0a,
  0x48, 0x6f, 0x73, 0x74, 0x3a, 0x20, 0x77, 0x77, 0x77, 0x2e, 0x77, 0x69, 0x6b, 0x69, 0x70, 0x65,
  0x64, 0x69, 0x61, 0x2e, 0x6f, 0x72, 0x67, 0x0d, 0x0a, 0x0d, 0x0a]

def mergeFrom (n : Int) : Nat → Bytes → Nat → Nat → Nat → Option (Bytes × Nat × Nat)
  | 0, _, _, _, _ => none
  | fuel + 1, b, fullSz, rSz, i => do
    let fullSz := u16 (fullSz + rSz)
    if 5 + (fullSz : Int) > n - 5 then return (b, fullSz, i)
    if (← rd b (5 + fullSz)) ≠ (← rd b 0) then return (b, fullSz, i)
    let rSz ← antohs b (5 + fullSz + 3)
    if (fullSz : Int) + 10 + rSz > n then return (b, fullSz, i)
    let b ← memmove b (5 + fullSz) (10 + fullSz) (n - (10 + fullSz))
    mergeFrom n fuel b fullSz rSz (i + 1)

/-- Bytes saved, and the buffer. The fuel is past every run that ends while the
record sizes add up below 2^16. -/
def mergeTlsRecords (b : Bytes) (n : Int) : Option (Int × Bytes) := do
  if n < 5 then return (0, b)
  let rSz ← antohs b 3
  let (b, fullSz, i) ← mergeFrom n ((n.toNat + 1) * (n.toNat + 1)) b 0 rSz 0
  let b ← shtona b 3 fullSz
  let b ← shtona b 7 ((fullSz : Int) - 4)
  return (i * 5, b)

/-- One byte of `copy_name`: `*`, `?` and `#` stand for random characters. -/
def copyChar (c : UInt8) (r : Nat) : UInt8 :=
  if c = ch '*' then
    let r := r % 36
    UInt8.ofNat ((if r < 10 then 48 else 87) + r)
  else if c = ch '?' then UInt8.ofNat (97 + r % 26)
  else if c = ch '#' then UInt8.ofNat (48 + r % 10)
  else c

def copyName (rnd : Nat → Nat) (b : Bytes) (out : Int) (name : Bytes) (len : Nat) :
    Option Bytes := do
  let name ← slice name 0 len
  blit b out (name.mapIdx fun i c => copyChar c (rnd i))

def removeKsFrom (n : Int) (ksOffs ksSz group : Nat) (b : Bytes) :
    Nat → Nat → Option (Nat × Bytes)
  | 0, _ => none
  | fuel + 1, gOffs => do
    if gOffs + 4 < ksOffs + 4 + ksSz then
      let gSz ← antohs b (gOffs + 2)
      if (ksOffs : Int) + 4 + gSz > n then return (0, b)
      let gTp ← antohs b gOffs
      if gTp = group then
        let gEnd := gOffs + 4 + gSz
        let b ← memmove b gOffs gEnd (n - gEnd)
        let b ← shtona b (ksOffs + 2) ((ksSz : Int) - (4 + gSz))
        let b ← shtona b (ksOffs + 4) ((ksSz : Int) - (4 + gSz) - 2)
        return (4 + gSz, b)
      removeKsFrom n ksOffs ksSz group b fuel (gOffs + 4 + gSz)
    else return (0, b)

def removeKsGroup (b : Bytes) (n : Int) (skip group : Nat) : Option (Nat × Bytes) := do
  let ksOffs ← findTlsExtOffset 0x0033 b n.toNat skip
  if ksOffs = 0 ∨ (ksOffs : Int) + 6 ≥ n then return (0, b)
  let ksSz ← antohs b (ksOffs + 2)
  if (ksOffs : Int) + 4 + ksSz > n then return (0, b)
  removeKsFrom n ksOffs ksSz group b (ksSz + 1) (ksOffs + 4 + 2)

def removeTlsExt (b : Bytes) (n : Int) (skip type : Nat) : Option (Nat × Bytes) := do
  let extOffs ← findTlsExtOffset type b n.toNat skip
  if extOffs = 0 then return (0, b)
  let extSz ← antohs b (extOffs + 2)
  let extEnd := extOffs + 4 + extSz
  if (extEnd : Int) > n then return (0, b)
  let b ← memmove b extOffs extEnd (n - extEnd)
  return (extSz + 4, b)

def resizeEchExt (b : Bytes) (n : Int) (skip : Nat) (inc : Int) : Option (Int × Bytes) := do
  let echOffs ← findTlsExtOffset 0xfe0d b n.toNat skip
  if echOffs = 0 then return (0, b)
  let echSz ← antohs b (echOffs + 2)
  let echEnd : Int := echOffs + 4 + echSz
  if echSz < 12 ∨ echEnd > n then return (0, b)
  let encSz ← antohs b (echOffs + 4 + 6)
  let payOffs : Int := echOffs + 4 + 8 + encSz
  let paySz := u16 ((echSz : Int) - (8 + encSz + 2))
  if payOffs + 2 > n then return (0, b)
  -- the comparison is between unsigned 16-bit values, also for inc > 0
  let inc := if paySz < u16 (-inc) then -(paySz : Int) else inc
  let b ← shtona b (echOffs + 2) (echSz + inc)
  let b ← shtona b payOffs (paySz + inc)
  let b ← memmove b (echEnd + inc) echEnd (n - (echEnd + inc))
  return (inc, b)

def resizeSni (b : Bytes) (n : Int) (sniOffs sniSz newSz : Nat) : Option Bytes := do
  let b ← shtona b (sniOffs + 2) (newSz + 5)
  let b ← shtona b (sniOffs + 4) (newSz + 3)
  let b ← shtona b (sniOffs + 7) newSz
  let sniEnd : Int := sniOffs + 4 + sniSz
  memmove b (sniEnd + newSz - ((sniSz : Int) - 5)) sniEnd (n - sniEnd)

/-- padding, post_handshake_auth, ALPN, record_size_limit, session_ticket,
status_request, delegated_credentials, signed_certificate_timestamp,
compress_certificate -/
def exts : List Nat :=
  [0x0015, 0x0031, 0x0010, 0x001c, 0x0023, 0x0005, 0x0022, 0x0012, 0x001b]

/-- Drop extensions until `avail` is zero or at least four; `none` inside is
the `return -1` at the end of the table. -/
def dropExts (n : Int) (skip : Nat) : List Nat → Bytes → Int → Option (Option (Bytes × Int))
  | es, b, avail => do
    if avail = 0 ∨ avail ≥ 4 then return some (b, avail)
    match es with
    | [] => return none
    | e :: es =>
      let (k, b) ← removeTlsExt b n skip e
      dropExts n skip es b (avail + k)

/-- What is left over becomes a padding extension. -/
def padTail (b : Bytes) (pad avail : Int) : Option Bytes := do
  let b ← shtona b pad 0x0015
  let b ← shtona b (pad + 2) (avail - 4)
  memset b (pad + 4) 0 (avail - 4)

/-- The end of `change_tls_sni`: the name, the padding and the lengths. -/
def finishSni (rnd : Nat → Nat) (host b : Bytes) (n : Int) (skip rSz newSz : Nat) (avail : Int)
    (sniOffs : Nat) : Option (Int × Bytes) := do
  let b ← copyName rnd b (sniOffs + 9) host newSz
  let (inc, b) ← (if avail > 0 then resizeEchExt b n skip avail else some (0, b))
  let avail := avail - inc
  let b ← (if avail ≥ 4 then padTail b (5 + rSz - avail) avail else some b)
  let b ← shtona b 3 rSz
  let b ← shtona b 7 ((rSz : Int) - 4)
  let b ← shtona b skip (5 + rSz - (skip : Int) - 2)
  return (0, b)

/-- The middle of `change_tls_sni`, from the first `resize_sni` on: make room
for the new name, `diff` bytes longer than the old one. -/
def fitSni (rnd : Nat → Nat) (host b : Bytes) (n : Int) (skip rSz newSz sniOffs sniSz : Nat)
    (avail diff : Int) : Option (Int × Bytes) := do
  let early := decide (diff < 0 ∧ avail > 0)
  let b ← (if early then resizeSni b n sniOffs sniSz newSz else some b)
  let diff := if early then 0 else diff
  let (inc, b) ← (if avail ≠ 0 then resizeEchExt b n skip avail else some (0, b))
  let avail := avail - inc
  let (cut, b) ← (if avail < -50 then removeKsGroup b n skip 0x11ec else some (0, b))
  let avail := avail + cut
  let some (b, avail) ← dropExts n skip exts b avail | return (-1, b)
  let sniOffs ← findTlsExtOffset 0x00 b n.toNat skip
  if sniOffs = 0 then return (-1, b)
  let b ← (if diff ≠ 0 then resizeSni b n sniOffs sniSz newSz else some b)
  finishSni rnd host b n skip rSz newSz avail sniOffs

/-- Return value and the buffer. -/
def changeTlsSni (rnd : Nat → Nat) (host b : Bytes) (n nn : Int) : Option (Int × Bytes) := do
  let (saved, b) ← mergeTlsRecords b n
  let avail := saved + (nn - n)
  let rSz := u16 ((← antohs b 3) + avail)
  let skip ← findExtBlock b n.toNat
  if skip = 0 then return (-1, b)
  let sniOffs ← findTlsExtOffset 0x00 b n.toNat skip
  if sniOffs = 0 then return (-1, b)
  let newSz := u16 host.length
  let sniSz ← antohs b (sniOffs + 2)
  if (sniOffs : Int) + 4 + sniSz > n ∨ sniSz < 5 then return (-1, b)
  let diff := (newSz : Int) - ((sniSz : Int) - 5)
  fitSni rnd host b n skip rSz newSz sniOffs sniSz (avail - diff) diff

/-- `gen_rand_array(b + out, len)`, drawing from the `k`-th value on. -/
def genRandArray (rnd : Nat → Nat) (k : Nat) (b : Bytes) (out : Int) (len : Nat) : Option Bytes :=
  blit b out ((List.range len).map fun i => UInt8.ofNat (rnd (k + i) % 256))

def randKeysFrom (rnd : Nat → Nat) (n ksOffs ksSz : Nat) :
    Nat → Nat → Bytes → Nat → Option Bytes
  | 0, _, _, _ => none
  | fuel + 1, k, b, gOffs => do
    if gOffs + 4 < ksOffs + 4 + ksSz then
      let gSz ← antohs b (gOffs + 2)
      if ksOffs + 4 + gSz > n then return b
      let b ← genRandArray rnd k b (gOffs + 4) gSz
      randKeysFrom rnd n ksOffs ksSz fuel (k + gSz) b (gOffs + 4 + gSz)
    else return b

def randomizeTls (rnd : Nat → Nat) (b : Bytes) (n : Nat) : Option Bytes := do
  if n < 44 then return b
  let sidLen := (← rd b 43).toNat
  if n < 44 + sidLen + 2 then return b
  let b ← genRandArray rnd 0 b 11 32
  let b ← genRandArray rnd 32 b 44 sidLen
  let skip ← findExtBlock b n
  if skip = 0 then return b
  let ksOffs ← findTlsExtOffset 0x0033 b n skip
  if ksOffs = 0 ∨ ksOffs + 6 ≥ n then return b
  let ksSz ← antohs b (ksOffs + 2)
  if ksOffs + 4 + ksSz > n then return b
  randKeysFrom rnd n ksOffs ksSz (ksSz + 1) (32 + sidLen) b (ksOffs + 4 + 2)

end ClientHello
