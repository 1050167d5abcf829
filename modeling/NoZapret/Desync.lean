import NoZapret.Params

/-!
# The desync pass over one request

`desync.c` as it runs on Linux: the position arithmetic, `tamp`, the decoy
builder and the loop over the parts. The socket is a schedule of outcomes still
to come together with a log of everything done to it, so that a run is a
function of its schedule. `none` is undefined behaviour (an access outside a
buffer, a division by zero, signed overflow of a 64-bit `long`) or a loop that
does not end.
-/

namespace Desync

open Block Packets ClientHello Params

inductive SendRes where
  /-- accepts every byte offered -/
  | all
  /-- accepts at most this many bytes -/
  | short (k : Nat)
  /-- fails with `EAGAIN` -/
  | again
  /-- fails with another error -/
  | error
  deriving DecidableEq, Repr

/-- Where the bytes handed to `send` come from. -/
inductive Origin where
  /-- the request buffer, from this address on -/
  | request (start : Nat)
  | decoy
  deriving DecidableEq, Repr

inductive Event where
  | sent (origin : Origin) (payload : Bytes) (oob : Bool) (accepted : Nat)
  | setTtl (ttl : Nat)
  | setMd5 (keyLen : Nat)
  | mapPage (size : Nat)
  | unmapPage (size : Nat)
  | timer (ms : Nat)
  deriving DecidableEq, Repr

/-- The kernel's side: outcomes still to come and what has happened. An empty
schedule stands for calls that succeed and for nothing left unsent. -/
structure Sock where
  sends : List SendRes := []
  notsent : List Bool := []
  /-- `mmap`, `setsockopt` and `getpeername`, in the order they are called -/
  sys : List Bool := []
  /-- `errno` is `EAGAIN` -/
  errAgain : Bool := false
  log : List Event := []
  deriving DecidableEq, Repr

/-- The values of `rand()`, by the call that draws them. -/
structure Rands where
  tlsrec : Nat → Nat := fun _ => 0
  part : Nat → Nat := fun _ => 0
  fakeOff : Nat → Nat := fun _ => 0
  sni : Nat → Nat := fun _ => 0
  name : Nat → Nat → Nat := fun _ _ => 0
  fill : Nat → Nat → Nat := fun _ _ => 0

/-- The `restore_*` fields of the remote `eval`. -/
structure Restore where
  ttl : Bool := false
  md5 : Bool := false
  fake : Option Nat := none
  deriving DecidableEq, Repr

namespace Sock

def emit (w : Sock) (e : Event) : Sock := { w with log := w.log ++ [e] }

def sys1 (w : Sock) : Bool × Sock :=
  match w.sys with
  | [] => (true, w)
  | ok :: rest => (ok, { w with sys := rest, errAgain := w.errAgain && ok })

/-- `send(fd, payload, …)`: its return value. -/
def send (w : Sock) (o : Origin) (payload : Bytes) (oob : Bool) : Int × Sock :=
  let w' := { w with sends := w.sends.tail }
  match w.sends.head?.getD .all with
  | .all => (payload.length, w'.emit (.sent o payload oob payload.length))
  | .short k =>
    let k := min k payload.length
    (k, w'.emit (.sent o payload oob k))
  | .again => (-1, { w' with errAgain := true })
  | .error => (-1, { w' with errAgain := false })

def hasNotsent (w : Sock) : Bool × Sock :=
  (w.notsent.headD false, { w with notsent := w.notsent.tail })

/-- `setttl`: it fails only when both `setsockopt` calls do. -/
def setttl (w : Sock) (ttl : Nat) : Bool × Sock :=
  let (ok6, w) := w.sys1
  let (ok4, w) := w.sys1
  if ok4 || ok6 then (true, w.emit (.setTtl ttl)) else (false, w)

def setMd5sig (w : Sock) (keyLen : Nat) : Bool × Sock :=
  let (ok, w) := w.sys1
  if !ok then (false, w)
  else
    let (ok, w) := w.sys1
    if ok then (true, w.emit (.setMd5 keyLen)) else (false, w)

end Sock

/-- Addition of two `long`s. -/
def addL (a b : Int) : Option Int :=
  if -2 ^ 63 ≤ a + b ∧ a + b < 2 ^ 63 then some (a + b) else none

/-- `(unsigned int) rand() % (unsigned int) m` -/
def randMod (r : Nat) (m : Int) : Option Int :=
  let m := m % 2 ^ 32
  if m = 0 then none else some ((r : Int) % m)

inductive ProtoType where
  | unknown
  | http
  | https
  deriving DecidableEq, Repr

structure ProtoInfo where
  init : Bool := false
  type : ProtoType := .unknown
  hostLen : Int := 0
  hostPos : Int := 0
  deriving DecidableEq, Repr

/-- A `Host` pointer that `parse_tls` stored stays when `parse_http` stores none. -/
def initProtoInfo (buffer : Bytes) (n : Nat) (info : ProtoInfo) : Option ProtoInfo := do
  if info.init then return info
  let tls ← parseTls buffer n
  if tls.len ≠ 0 then return ⟨true, .https, tls.len, tls.hs.getD 0⟩
  let http ← parseHttp buffer n false
  let host := http.hs.or tls.hs
  return ⟨true, if http.len ≠ 0 then .http else info.type, http.len, host.getD 0⟩

def genOffset (r : Nat) (pos : Int) (flag : OffsetFlag) (buffer : Bytes) (n : Nat) (lp : Int)
    (info : ProtoInfo) : Option (Int × ProtoInfo) := do
  if flag.sni || flag.host then
    let info ← initProtoInfo buffer n info
    if info.hostPos = 0 ∨ (flag.sni ∧ info.type ≠ .https) then return (-1, info)
    let pos ← addL pos info.hostPos
    if flag.toEnd then return (← addL pos info.hostLen, info)
    if flag.mid then return (← addL pos (info.hostLen.tdiv 2), info)
    if flag.rand then return (← addL pos (← randMod r info.hostLen), info)
    return (pos, info)
  if flag.rand then return (← addL pos (← addL lp (← randMod r (n - lp))), info)
  if flag.mid then return (← addL pos (n / 2 : Nat), info)
  if pos < 0 ∨ flag.toEnd then return (← addL pos n, info)
  return (pos, info)

/-- `gen_offset(part.pos, …)` and the `s * (part.r - r)` step of the repetition. -/
def place (r : Nat) (rep : Rep) (buffer : Bytes) (n : Nat) (lp : Int) (info : ProtoInfo) :
    Option (Int × ProtoInfo) := do
  let (pos, info) ← genOffset r rep.1.pos rep.1.flag buffer n lp info
  return (← addL pos (rep.1.s * rep.2 : Nat), info)

structure Tamped where
  data : Bytes
  n : Nat
  info : ProtoInfo
  deriving DecidableEq, Repr

/-- The record splitting loop of `tamp`; `rc` counts its iterations. -/
def tlsrecLoop (rnd : Rands) : List Rep → Nat → Int → Tamped → Option Tamped
  | [], _, _, t => some t
  | rep :: rest, rc, lp, t => do
    let (off, info) ← genOffset (rnd.tlsrec rc) rep.1.pos rep.1.flag t.data (t.n - rc * 5) lp t.info
    let pos ← addL (rc * 5 : Nat) off
    let pos ← addL pos (if rep.1.pos < 0 ∨ rep.1.flag.any then -5 else 0)
    let pos ← addL pos (rep.1.s * rep.2 : Nat)
    let t := { t with info := info }
    if pos < lp then return t
    let (ret, data) ← partTls t.data lp (t.data.length - lp) (t.n - lp) (pos - lp)
    if ret = 0 then return { t with data := data }
    tlsrecLoop rnd rest (rc + 1) (pos + 5) { t with data := data, n := t.n + 5 }

def HttpMods.any (m : HttpMods) : Bool := m.hmix || m.space || m.dmix

def tampHttp (dp : DesyncParams) (data : Bytes) (n : Nat) : Option Bytes := do
  if HttpMods.any dp.modHttp then
    if ← isHttp data n then
      let (_, data) ← modHttp data n dp.modHttp
      return data
  return data

def tampMinor (dp : DesyncParams) (data : Bytes) (n : Nat) : Option Bytes := do
  match dp.tlsminor with
  | some v => if ← isTlsChello data n then wr data 2 v else return data
  | none => return data

def tamp (dp : DesyncParams) (rnd : Rands) (t : Tamped) : Option Tamped := do
  let data ← tampHttp dp t.data t.n
  let data ← tampMinor dp data t.n
  let t := { t with data := data }
  if dp.tlsrec.length = 0 then return t
  if ← isTlsChello t.data t.n then tlsrecLoop rnd (expand dp.tlsrec) 0 0 t else return t

/-- `struct packet` of a decoy page. -/
structure Packet where
  data : Bytes
  off : Int
  deriving DecidableEq, Repr

/-- `FM_ORIG`: a copy of the request with another name in it. The flag says
that nothing more is to be done to the page. -/
def origPage (rnd : Nat → Nat) (sni : Option Bytes) (page buffer : Bytes) (n : Nat) (fSize : Int) :
    Option (Bool × Bytes) := do
  let page ← blit page 0 (← slice buffer 0 n)
  match sni with
  | none => return (true, page)
  | some host =>
    let (e, page) ← changeTlsSni rnd host page n fSize
    return (e == 0, page)

/-- The stock decoy, with the name replaced where there is one to put. -/
def stockPage (rnd : Nat → Nat) (sni : Option Bytes) (page pkt : Bytes) (fSize : Int) :
    Option Bytes := do
  let page ← blit page 0 pkt
  match sni with
  | none => return page
  | some host =>
    let (_, page) ← changeTlsSni rnd host page pkt.length fSize
    return page

/-- `fake_tls_size` as `change_tls_sni` gets it. -/
def fakeSize (dp : DesyncParams) (n : Nat) : Int :=
  let fSize := if dp.fakeTlsSize < 0 then n + dp.fakeTlsSize else dp.fakeTlsSize
  if fSize > n ∨ fSize ≤ 0 then n else fSize

/-- The page of `get_tcp_fake` before `FM_RAND`. `idx` numbers the repetition
that asks for it. -/
def fakePage (dp : DesyncParams) (rnd : Rands) (idx : Nat) (buffer : Bytes) (n : Nat)
    (type : ProtoType) (pkt : Bytes) : Option Bytes := do
  let page := List.replicate (max n pkt.length) (0 : UInt8)
  let sni := if dp.fakeSniList.length = 0 then none
    else dp.fakeSniList[rnd.sni idx % dp.fakeSniList.length]?
  let (done, page) ← (if dp.fakeOrig && type == .https then
      origPage (rnd.name idx) sni page buffer n (fakeSize dp n)
    else some (false, page))
  if done then return page
  stockPage (rnd.name idx) sni page pkt (fakeSize dp n)

/-- The protocol of a request that nothing has classified yet. -/
def settleType (dp : DesyncParams) (buffer : Bytes) (n : Nat) (info : ProtoInfo) :
    Option ProtoInfo := do
  if dp.fakeData.isSome || info.type != .unknown then return info
  if ← isTlsChello buffer n then return { info with type := .https }
  if ← isHttp buffer n then return { info with type := .http }
  return info

/-- `pkt.off` -/
def fakeOff (dp : DesyncParams) (rnd : Rands) (idx : Nat) (buffer : Bytes) (n size : Nat)
    (info : ProtoInfo) : Option (Int × ProtoInfo) := do
  match dp.fakeOffset with
  | none => return (0, info)
  | some fo =>
    let (off, info) ← genOffset (rnd.fakeOff idx) fo.pos fo.flag buffer n 0 info
    return (if off > size ∨ off < 0 then 0 else off, info)

/-- `get_tcp_fake` once its page is mapped: the decoy, and what it learned
about the protocol. -/
def fakePacket (dp : DesyncParams) (rnd : Rands) (idx : Nat) (buffer : Bytes) (n : Nat)
    (info : ProtoInfo) : Option (Packet × ProtoInfo) := do
  let info ← settleType dp buffer n info
  let pkt := dp.fakeData.getD (if info.type = .http then httpData else tlsData)
  let page ← fakePage dp rnd idx buffer n info.type pkt
  let page ← (if dp.fakeRand then randomizeTls (rnd.fill idx) page page.length else some page)
  let (off, info) ← fakeOff dp rnd idx buffer n page.length info
  return (⟨page, off⟩, info)

/-- What one call of `desync` works on, fixed once `tamp` has run. -/
structure Call where
  g : Globals
  dp : DesyncParams
  rnd : Rands
  buffer : Bytes
  n : Nat
  offset : Nat
  skip : Nat
  partSkip : Nat

/-- The variables of the loop. -/
structure Loop where
  lp : Nat
  info : ProtoInfo
  partSent : Nat
  remote : Restore
  sock : Sock

inductive Flow where
  | next (st : Loop)
  | cancel (st : Loop)
  | ret (v : Int) (wait : Bool) (st : Loop)

def sendRequest (c : Call) (st : Loop) (pos : Nat) : Option (Int × Loop) := do
  let payload ← slice c.buffer st.lp ((pos : Int) - st.lp)
  let (s, w) := st.sock.send (.request st.lp) payload false
  return (s, { st with sock := w })

/-- `send_oob(sfd, buffer + lp, bfsize - lp, pos - lp, oob_char)` -/
def sendOob (c : Call) (st : Loop) (pos : Nat) : Option (Int × Loop) := do
  if c.buffer.length ≤ pos then return (-1, st)
  let payload ← slice c.buffer st.lp ((pos : Int) - st.lp)
  let (len, w) := st.sock.send (.request st.lp) (payload ++ [c.dp.oobChar.getD (ch 'a')]) true
  return (if len < 0 then -1 else len - 1, { st with sock := w })

/-- `send_fake(val, buffer + lp, pos - lp, &dp, pkt)` -/
def sendFake (c : Call) (st : Loop) (pos : Nat) (pkt : Packet) : Option (Int × Loop) := do
  let ps := (pkt.data.length : Int) - pkt.off
  if ps < 0 then return (-1, st)
  let (ok, w) := st.sock.setttl (if c.dp.ttl = 0 then 8 else c.dp.ttl)
  if !ok then return (-1, { st with sock := w })
  let st := { st with sock := w, remote := { st.remote with ttl := true } }
  let (ok, w) := if c.dp.md5sig then st.sock.setMd5sig 5 else (true, st.sock)
  if !ok then return (-1, { st with sock := w })
  let st := { st with sock := w, remote := { st.remote with md5 := c.dp.md5sig } }
  let payload ← slice pkt.data pkt.off (min ((pos : Int) - st.lp) ps)
  let (len, w) := st.sock.send .decoy payload false
  return (len, { st with sock := w })

/-- The `DESYNC_FAKE` case for the first of a pair; `none` inside is its
`return -1` when no page can be mapped. -/
def fakeFirst (c : Call) (idx : Nat) (st : Loop) (pos : Nat) : Option (Option Int × Loop) := do
  let (ok, w) := st.sock.sys1
  if !ok then return (none, { st with sock := w })
  let (pkt, info) ← fakePacket c.dp c.rnd idx c.buffer c.n st.info
  let st := { st with
    sock := w.emit (.mapPage pkt.data.length), info := info,
    remote := { st.remote with fake := some pkt.data.length } }
  if pos = st.lp then return (some 0, st)
  let (s, st) ← sendFake c st pos pkt
  return (some s, st)

/-- The `DESYNC_DISORDER` and `DESYNC_DISOOB` cases. -/
def disorder (c : Call) (oob first : Bool) (st : Loop) (pos : Nat) : Option (Int × Loop) := do
  let (ok, w) := if first then st.sock.setttl 1 else (true, st.sock)
  if !ok then return (-1, { st with sock := w })
  let st := { st with sock := w, remote := { st.remote with ttl := true } }
  if oob then sendOob c st pos else sendRequest c st pos

/-- The switch over `part.m`. -/
def sendPart (c : Call) (idx : Nat) (rep : Rep) (st : Loop) (pos : Nat) :
    Option (Option Int × Loop) := do
  match rep.1.m with
  | .fake =>
    if firstOfPair rep then fakeFirst c idx st pos
    else
      let (s, st) ← sendRequest c st pos
      return (some s, st)
  | .oob =>
    let (s, st) ← sendOob c st pos
    return (some s, st)
  | .disorder =>
    let (s, st) ← disorder c false (firstOfPair rep) st pos
    return (some s, st)
  | .disoob =>
    let (s, st) ← disorder c true (firstOfPair rep) st pos
    return (some s, st)
  | .split | .none =>
    let (s, st) ← sendRequest c st pos
    return (some s, st)

def unmapFake (st : Loop) : Loop :=
  match st.remote.fake with
  | some size =>
    { st with sock := st.sock.emit (.unmapPage size), remote := { st.remote with fake := none } }
  | none => st

def clearMd5 (st : Loop) : Loop :=
  if st.remote.md5 then
    { st with sock := (st.sock.setMd5sig 0).2, remote := { st.remote with md5 := false } }
  else st

def resetTtl (g : Globals) (st : Loop) : Loop :=
  if st.remote.ttl then
    { st with sock := (st.sock.setttl g.defTtl).2, remote := { st.remote with ttl := false } }
  else st

/-- `restore_state` -/
def restoreState (g : Globals) (st : Loop) : Loop := resetTtl g (clearMd5 (unmapFake st))

/-- The part of the loop body after the switch, for a send that returned `s`. -/
def afterSend (c : Call) (curr : Nat) (first : Bool) (pos : Nat) (s : Int) (st : Loop) : Flow :=
  let st := if first then st else { st with partSent := curr }
  if s < 0 then
    if st.sock.errAgain then .ret (st.lp - c.offset) false st else .ret (-1) false st
  else if s ≠ (pos : Int) - st.lp then .ret (st.lp + s - c.offset) false st
  else
    let s := if first then 0 else s
    let st := if s > 0 then { st with lp := st.lp + s.toNat } else st
    let (notsent, w) := st.sock.hasNotsent
    let st := { st with sock := w }
    if notsent || (c.g.waitSend && decide (c.partSkip < curr)) then
      .ret ((if first then (st.lp : Int) else pos) - c.offset) true
        { st with sock := st.sock.emit (.timer c.g.awaitInt) }
    else
      let st := restoreState c.g st
      .next (if first then st else { st with lp := pos })

/-- Is the repetition skipped by one of the two `continue`s? -/
def skipped (c : Call) (curr : Nat) (rep : Rep) (pos : Int) : Bool :=
  (((c.skip != 0 && decide (pos < c.skip)) || decide (curr < c.partSkip)) && !rep.1.flag.start)
    || (c.offset != 0 && decide (pos < c.offset))

/-- One iteration of the loop, for the repetition numbered `idx` from 0. -/
def partStep (c : Call) (idx : Nat) (rep : Rep) (st : Loop) : Option Flow := do
  let curr := idx + 1
  let (pos, info) ← place (c.rnd.part idx) rep c.buffer c.n st.lp st.info
  let st := { st with info := info }
  if skipped c curr rep pos then return .next st
  if pos < 0 ∨ pos < st.lp then return .cancel st
  let pos := (min pos c.n).toNat
  if curr = c.partSkip then
    return afterSend c curr (firstOfPair rep) pos ((pos : Int) - st.lp) st
  match ← sendPart c idx rep st pos with
  | (none, st) => return .ret (-1) false st
  | (some s, st) => return afterSend c curr (firstOfPair rep) pos s st

/-- How a call ended: its return value, `*wait`, and the state it left. -/
structure Ended where
  ret : Int
  wait : Bool
  st : Loop

/-- `// send all/rest` -/
def sendRest (c : Call) (st : Loop) : Option Ended := do
  if st.lp < c.n then
    let (s, st) ← sendRequest c st c.n
    if s < 0 then
      return if st.sock.errAgain then ⟨st.lp - c.offset, false, st⟩ else ⟨-1, false, st⟩
    return ⟨c.n - c.offset, false, st⟩
  return ⟨c.n - c.offset, false, st⟩

def partsLoop (c : Call) : List Rep → Nat → Loop → Option Ended
  | [], _, st => sendRest c st
  | rep :: rest, idx, st => do
    match ← partStep c idx rep st with
    | .next st => partsLoop c rest (idx + 1) st
    | .cancel st => sendRest c st
    | .ret v wait st => return ⟨v, wait, st⟩

/-- The fields of the two `eval`s and of the client's buffer that `desync` reads
and writes. -/
structure Conn where
  data : Bytes
  n : Nat
  offset : Nat := 0
  roundSent : Nat := 0
  partSent : Nat := 0
  remote : Restore := {}
  sock : Sock := {}

/-- A received request: `n` bytes in a buffer that holds them. -/
structure Request where
  data : Bytes
  n : Nat
  fits : n ≤ data.length

/-- The first call for a request. -/
def Request.conn (r : Request) (remote : Restore) (sock : Sock) : Conn :=
  { data := r.data, n := r.n, remote := remote, sock := sock }

/-- The buffer, its length and `info` when the loop starts: the log line looks
the host up before `tamp` changes the buffer. -/
def prepare (g : Globals) (dp : DesyncParams) (rnd : Rands) (data : Bytes) (n skip : Nat) :
    Option Tamped := do
  if skip ≠ 0 then return ⟨data, n, {}⟩
  let info ← (if g.logEnabled then initProtoInfo data n {} else some {})
  tamp dp rnd ⟨data, n, info⟩

def callOf (g : Globals) (dp : DesyncParams) (rnd : Rands) (k : Conn) (t : Tamped) : Call :=
  ⟨g, dp, rnd, t.data, t.n, k.offset, k.roundSent, k.partSent⟩

def loopOf (k : Conn) (t : Tamped) : Loop :=
  ⟨k.offset, t.info, k.partSent, k.remote, k.sock⟩

def Conn.after (k : Conn) (t : Tamped) (e : Ended) : Conn :=
  { k with data := t.data, n := t.n, partSent := e.st.partSent, remote := e.st.remote,
           sock := e.st.sock }

/-- Return value, `*wait` and the state after one call. -/
def desync (g : Globals) (dp : DesyncParams) (rnd : Rands) (k : Conn) :
    Option (Int × Bool × Conn) := do
  let t ← prepare g dp rnd k.data k.n k.roundSent
  let e ← partsLoop (callOf g dp rnd k t) (expand dp.parts) 0 (loopOf k t)
  return (e.ret, e.wait, k.after t e)

end Desync
