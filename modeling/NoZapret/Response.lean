import NoZapret.Library.Prefix
import NoZapret.Groups

/-!
# Judging the first response

`on_response` compares the first bytes a server sends with the saved first
request of the client. The request lies in a buffer of the pool, which keeps
what an earlier connection left in it; the parsers are given the buffer's size,
not the number of bytes received. As in `Packets`, `none` is an access outside a
block.
-/

namespace Response

open Block Packets Groups

def detectHttpLocat : Detect := 1

/-- `sq_buff` -/
structure SqBuff where
  data : Bytes
  lock : Nat

/-- `save_buffer`, into a block that `buff_pop` hands out as it is. -/
def saveBuffer (old chunk : Bytes) : Option SqBuff := do
  return ⟨← blit old 0 chunk, chunk.length⟩

/-- The client's side of `tcp_recv_hook`. A request that fills the buffer is
given up. -/
def recvRequest (b : SqBuff) (chunk : Bytes) : Option SqBuff :=
  if b.data.length ≤ b.lock + chunk.length then none
  else do return ⟨← blit b.data b.lock chunk, b.lock + chunk.length⟩

/-- The saved request after these chunks. The first one comes with the handshake
(`saved`) or is received behind it. -/
def firstRequest (saved : Bool) (old : Bytes) : List Bytes → Option SqBuff
  | [] => none
  | chunk :: rest => do
    let b ← (if saved then saveBuffer old chunk else recvRequest ⟨old, 0⟩ chunk)
    rest.foldlM recvRequest b

/-- A buffer of the pool after `recv` stored `n` bytes in it. -/
structure Received (size : Nat) where
  data : Bytes
  n : Nat
  full : data.length = size
  fits : n ≤ size

def isTlsShello (buffer : Bytes) (bsize : Nat) : Option Bool := do
  if bsize ≤ 5 then return false
  if (← antohs buffer 0) ≠ 0x1603 then return false
  return (← rd buffer 5) == 0x02

def getHttpCode (b : Bytes) (n : Nat) : Option Int := do
  if n < 13 then return 0
  if (← slice b 0 7) ≠ ascii ['H', 'T', 'T', 'P', '/', '1', '.'] then return 0
  let some _ ← findIn b (· == ch '\n') 12 (n - 12) | return 0
  let (num, e) ← strtol b 9
  if num < 100 ∨ num > 511 then return 0
  if !isspace (← rd b e) then return 0
  return num

/-- `memchr(b + i, c, (size_t) len)`: a negative length is huge, and the search
ends at a hit or outside the block. -/
def memchrFrom (b : Bytes) (c : UInt8) (i len : Int) : Option (Option Int) :=
  if len < 0 then do
    let hit ← ← findIn b (· == c) i (b.length - i)
    return some hit
  else findIn b (· == c) i len

def locationField : Bytes :=
  ascii ['\n', 'L', 'o', 'c', 'a', 't', 'i', 'o', 'n', ':']

def httpScheme : Bytes := ascii ['h', 't', 't', 'p', ':', '/', '/']

def httpsScheme : Bytes := ascii ['h', 't', 't', 'p', 's', ':', '/', '/']

/-- What `is_http_redirect` reads in the response: the first and the last address
of the host in `Location`. -/
def redirectTarget (resp : Bytes) (sn : Nat) : Option (Option (Int × Int)) := do
  if sn < 29 then return none
  let code ← getHttpCode resp sn
  if code > 308 ∨ code < 300 then return none
  let some field ← strncasestr resp sn locationField | return none
  let location := field + 11
  if location + 8 ≥ sn then return none
  let some lEnd ← findIn resp (· == ch '\n') location (sn - location) | return none
  let lEnd ← trimBack isspace resp (sn + 1) lEnd
  let location ← (if lEnd - location > 7 ∨ lEnd < location then do
      if (← slice resp location 7) = httpScheme then return location + 7
      if (← slice resp location 8) = httpsScheme then return location + 8
      return location
    else some location)
  let le := (← memchrFrom resp (ch '/') location (lEnd - location)).getD lEnd
  return some (location, le)

/-- `while (h != host && *(--h - 1) != '.');` -/
def labelBack (b : Bytes) (host : Int) : Nat → Int → Option Int
  | 0, _ => none
  | fuel + 1, h => do
    if h = host then return h
    if (← rd b (h - 2)) ≠ ch '.' then labelBack b host fuel (h - 1) else return h - 1

def isHttpRedirect (req : Bytes) (qn : Nat) (resp : Bytes) (sn : Nat) : Option Bool := do
  let ref ← parseHttp req qn false
  if ref.len ≤ 0 ∨ sn < 29 then return false
  let some (location, le) ← redirectTarget resp sn | return false
  let host ← ref.hs
  let he := host + ref.len
  let h ← labelBack req host (qn + 1) he
  let h ← labelBack req host (qn + 1) h
  if le - location < he - h then return true
  return (← slice resp (le - (he - h)) (he - h)) != (← slice req h (he - h))

def neqTlsSid (req : Bytes) (qn : Nat) (resp : Bytes) (sn : Nat) : Option Bool := do
  if qn < 75 ∨ sn < 75 then return false
  if !(← isTlsChello req qn) then return false
  if (← antohs resp 0) ≠ 0x1603 then return false
  let sidLen ← rd req 43
  if sidLen = 0 then return false
  if (← findTlsExtOffset 0x2b resp sn (44 + sidLen.toNat + 3)) = 0 then return false
  if sidLen ≠ (← rd resp 43) then return true
  return (← slice req 44 sidLen.toNat) != (← slice resp 44 sidLen.toNat)

/-- The `DETECT_TLS_ERR` test. -/
def tlsErr (req : Bytes) (qn : Nat) (resp : Bytes) (sn : Nat) : Option Bool := do
  if ← isTlsChello req qn then
    if !(← isTlsShello resp sn) then return true
  neqTlsSid req qn resp sn

/-- Does the response fail for this group? -/
def fails (req : Bytes) (qn : Nat) (resp : Bytes) (sn : Nat) (g : Group) : Option Bool := do
  if g.detect &&& detectHttpLocat ≠ 0 then
    if ← isHttpRedirect req qn resp sn then return true
  if g.detect &&& detectTlsErr ≠ 0 then tlsErr req qn resp sn else return false

/-- The loop of `on_response`: the first group outside the mask that fails. -/
def failing (req : Bytes) (qn : Nat) (resp : Bytes) (sn : Nat) (mask : Mask) :
    List Group → Option (Option Group)
  | [] => some none
  | g :: rest => do
    if tried mask g then failing req qn resp sn mask rest
    else if ← fails req qn resp sn g then return some g
    else failing req qn resp sn mask rest

/-- `on_response`: the detection it triggers, or none and the response passes.
`own` is the group of the connection. -/
def onResponse (groups : List Group) (mask : Mask) (own : Group) (sq : SqBuff) {size : Nat}
    (resp : Received size) : Option (Option Detect) := do
  let dp ← failing sq.data sq.data.length resp.data resp.n (mask ||| own.bit) groups
  return dp.map Group.detect

end Response
