import NoZapret.Library.Runs
import NoZapret.RequestAddr
import NoZapret.UdpReplies

/-!
# The handshake with a client

`on_request` with `handle_s5`, `auth_socks5`, `resp_error` and `s5_get_addr`, and the callbacks of a
client and its remote socket until the tunnel is open: `on_connect`, `on_socks_conn`,
`on_socks_recv`, `recv_and_connect` and `reconnect`. What the system and the other connections
answer is part of a step.
-/

namespace Handshake

open Block Packets RequestAddr Runs SocksAddr UdpReplies

/-- `params`, as far as requests are concerned. -/
structure Params extends Env where
  socks5 : Bool := false
  socks4 : Bool := false
  http : Bool := false
  shadowsocks : Bool := false
  rawtls : Bool := false
  tcp : Bool := false
  transparent : Bool := false
  udp : Bool := true
  delayConn : Bool := false
  autoReconnect : Bool := false

/-- `FLAG_S4`, `FLAG_S5`, `FLAG_HTTP`, and 0. -/
inductive Flag where
  | unset
  | s4
  | s5
  | http
  deriving DecidableEq, Repr

inductive Errno where
  | ok
  | connrefused
  | connreset
  | hostunreach
  | timedout
  | netunreach
  | other
  deriving DecidableEq, Repr

/-- What `val->cb` is; `associated` is `on_ignore` with a UDP association. -/
inductive Cb where
  | onRequest
  | onIgnore
  | recvAndConnect
  | onTunnel
  | associated
  | closed
  deriving DecidableEq, Repr

/-- `val->pair->cb`, before the tunnel is open. -/
inductive RemoteCb where
  | onConnect
  | onSocksConn
  | onSocksRecv
  deriving DecidableEq, Repr

/-- `out_type` and `out_addr` of a group. -/
structure Out where
  socks5 : Bool
  addr : Dst
  deriving DecidableEq, Repr

/-- A connection that has been opened for `dst`. -/
structure Conn where
  out : Option Out
  dst : Dst
  deriving DecidableEq, Repr

/-- The address that `connect` is called with. -/
def Conn.peer (conn : Conn) : Dst :=
  match conn.out with
  | none => conn.dst
  | some out => out.addr

/-- What is said on the way to the address. -/
inductive Talk where
  | said (msg : Bytes)
  | heard (msg : Bytes)
  deriving DecidableEq, Repr

/-- One client: its slot and the one of its pair, what has been sent to it, the connections that
have been opened, and what has been said on the last of them. -/
structure Client where
  cb : Cb := .onRequest
  remoteCb : RemoteCb := .onConnect
  flag : Flag := .unset
  /-- `val->pair->conn_state` -/
  connState : Flag := .unset
  /-- `val->addr`, and the one of its pair -/
  addr : Option Dst := none
  /-- `val->buff` is there -/
  buff : Bool := false
  /-- `val->sq_buff` is there -/
  sqBuff : Bool := false
  sent : List Bytes := []
  dialled : List Conn := []
  talk : List Talk := []
  deriving DecidableEq, Repr

/-- A group: whether it has `hosts` or `proto`, and where its connections go. -/
structure Group where
  filtered : Bool
  out : Option Out

/-- The answers to `find_dp`, `create_conn` and `send` in `connect_hook`. -/
structure Dial where
  group : Option Group
  connects : Bool
  sends : Bool

/-- `udp_associate`: the address of the socket when there is one, and whether `mod_etype`
succeeds after the reply. -/
structure Assoc where
  addr : Option SockAddr
  sends : Bool
  watched : Bool

/-- What the calls of one `on_request` return. -/
structure Answers where
  sends : Bool
  /-- the second `buff_pop` of `save_buffer` -/
  room : Bool
  dial : Dial
  assoc : Assoc

def s5Error (code : UInt8) : Bytes := [0x05, code, 0, 0x01, 0, 0, 0, 0, 0, 0]

def s5Code : Errno → UInt8
  | .ok => 0x00
  | .connrefused => 0x05
  | .hostunreach => 0x04
  | .timedout => 0x04
  | .netunreach => 0x03
  | .connreset => 0x01
  | .other => 0x01

/-- What `resp_error` sends. -/
def respError (e : Errno) : Flag → Option Bytes
  | .s4 => some [0, if e = .ok then 0x5a else 0x5b, 0, 0, 0, 0, 0, 0]
  | .s5 => some (s5Error (s5Code e))
  | .http => some (if e = .ok then ascii "HTTP/1.1 200 OK\r\n\r\n".toList
      else ascii "HTTP/1.1 503 Fail\r\n\r\n".toList)
  | .unset => none

section Client

variable (env : Params) (c : Client)

def Client.close : Client := { c with cb := .closed }

/-- `send` to the client, and whether it succeeds. -/
def Client.send (msg : Bytes) (ok : Bool) : Client × Bool :=
  (if ok then { c with sent := c.sent ++ [msg] } else c, ok)

def Client.resp (e : Errno) (ok : Bool) : Client × Bool :=
  match respError e c.flag with
  | none => (c, true)
  | some msg => c.send msg ok

/-- `create_conn`, with the address and the callback that `connect_hook` chooses. -/
def Client.dial (conn : Conn) : Client :=
  { c with
    cb := .onIgnore
    remoteCb := if conn.out.any Out.socks5 then .onSocksConn else .onConnect
    connState := .unset
    addr := some conn.dst
    dialled := c.dialled ++ [conn]
    talk := [] }

def connectHook (dst : Dst) (a : Dial) : Client × Bool :=
  match a.group with
  | none => (c, false)
  | some group =>
    if group.filtered && !c.buff && env.delayConn then
      let (c, ok) := c.resp .ok a.sends
      if ok then ({ c with cb := .recvAndConnect, addr := some dst }, true) else (c, false)
    else if a.connects then (c.dial ⟨group.out, dst⟩, true)
    else (c, false)

/-- The end of `on_request` when something has failed. -/
def Client.fail (sends : Bool) : Client := (c.resp .other sends).1.close

/-- The end of `on_request` with an address, or without one. -/
def connectTo (dst : Option Dst) (a : Answers) : Client :=
  match dst with
  | none => c.fail a.sends
  | some dst =>
    let (c, ok) := connectHook env c dst a.dial
    if ok then c else c.fail a.sends

/-- `auth_socks5`: what is sent, when something is. -/
def authSocks5 (buffer : Bytes) (n : Nat) : Option (Option UInt8) := do
  if n ≤ 2 then return none
  if (← rd buffer 1) ≠ UInt8.ofNat (n - 2) then return none
  return some (if (← slice buffer 2 ((n : Int) - 2)).contains 0x00 then 0x00 else 0xff)

/-- The reply of `udp_associate`. -/
def assocReply (addr : SockAddr) : Option Bytes := do
  let (len, s5r) ← s5SetAddr (0x05 :: List.replicate 261 0) 0 262 addr false
  return s5r.take len.toNat

def udpAssociate (a : Assoc) : Option (Client × Bool) :=
  match a.addr with
  | none => some (c, false)
  | some addr => do
    let (c, ok) := { c with cb := .associated }.send (← assocReply addr) a.sends
    return (c, ok && a.watched)

/-- `handle_s5`, and what `on_request` does with its answer. -/
def handleS5 (buffer : Bytes) (n : Nat) (a : Answers) : Option Client := do
  if c.flag ≠ .s5 then
    let some method ← authSocks5 buffer n | return c.fail a.sends
    let (c, ok) := c.send [0x05, method] a.sends
    if ok ∧ method ≠ 0xff then return { c with flag := .s5 }
    return c.fail a.sends
  if n < 8 then return c.fail a.sends
  let cmd ← rd buffer 1
  if cmd = 0x01 then
    let (r, addr) ← s5GetAddr env.toEnv buffer n .zero
    if 0 ≤ r then return connectTo env c (some (dstOf addr)) a
    return (c.send (s5Error (UInt8.ofInt (-r))) a.sends).1.close
  if cmd = 0x03 ∧ env.udp then
    let (r, _) ← s5GetAddr env.toEnv buffer n .zero
    if 0 ≤ r then
      let (c, ok) ← udpAssociate c a.assoc
      return if ok then c else c.fail a.sends
    return (c.send (s5Error (UInt8.ofInt (-r))) a.sends).1.close
  return (c.send (s5Error 0x07) a.sends).1.close

/-- `save_buffer`, which fails only for the copy. -/
def saveBuffer (room : Bool) : Client × Bool :=
  if env.autoReconnect then ({ c with buff := true, sqBuff := room }, room)
  else ({ c with buff := true }, true)

/-- A branch of `on_request` that keeps what it has received. -/
def saveAndConnect (dst : Dst) (a : Answers) : Client :=
  let (c, ok) := saveBuffer env c a.room
  if ok then connectTo env c (some dst) a else c.close

/-- `on_request` behind its `recv`. -/
def onRequest (buffer : Bytes) (n : Nat) (a : Answers) : Option Client := do
  let first ← rd buffer 0
  if env.socks5 ∧ first = 0x05 then handleS5 env c buffer n a
  else if env.socks4 ∧ first = 0x04 then
    return connectTo env { c with flag := .s4 } (← s4GetAddr env.toEnv buffer n) a
  else if env.http ∧ 7 < n ∧ buffer.take 7 = ascii "CONNECT".toList then
    return connectTo env { c with flag := .http } (← httpGetAddr env.toEnv buffer n) a
  else if env.shadowsocks ∧ first ≤ 0x04 then
    -- the three bytes before the buffer are there, and are not read
    let (r, addr) ← s5GetAddr env.toEnv (0 :: 0 :: 0 :: buffer) (n + 3) .zero
    return if r < 0 then c.close else saveAndConnect env c (dstOf addr) a
  else if env.rawtls ∧ (← isTlsChello buffer n) then
    match ← tlsGetAddr env.toEnv buffer n with
    | none => return c.fail a.sends
    | some dst => return saveAndConnect env c dst a
  else if env.tcp then return saveAndConnect env c ⟨none, .zero 2⟩ a
  else return c.close

/-- `transp_conn`, with the answers to `SO_ORIGINAL_DST` and `getsockname`. -/
def transpConn (remote self : Option SockAddr) (a : Dial) : Client × Bool :=
  match remote, self with
  | some remote, some self =>
    if self.family = remote.family ∧ self.sinPort = remote.sinPort ∧ self.ip = remote.ip then
      (c, false)
    else connectHook env c (dstOf remote) a
  | _, _ => (c, false)

/-- `on_accept` for a client that has been accepted. -/
def onAccept (remote self : Option SockAddr) (a : Dial) : Client :=
  let (c, ok) := transpConn env c remote self a
  if ok then c
  else if env.socks5 || env.socks4 || env.http || env.shadowsocks || env.rawtls || env.tcp then c
  else c.close

/-- The rest of `on_connect` when `error` is told to the client. -/
def Client.answer (e : Errno) (sends : Bool) : Client :=
  let (c, ok) := c.resp e sends
  if ok ∧ e = .ok then c else c.close

/-- `connect_hook` for the address that the client has asked for. -/
def connectAgain (a : Dial) : Client × Bool :=
  match c.addr with
  | none => (c, false)
  | some dst => connectHook env c dst a

/-- `reconnect` up to the new attempt: the saved request becomes what is to be sent. -/
def Client.resume : Client := { c with buff := c.buff || c.sqBuff }

def reconnect (a : Dial) : Client × Bool := connectAgain env c.resume a

/-- `recv_and_connect`, with what `tcp_recv_hook` returns. -/
def recvAndConnect (received : Int) (saved : Bool) (a : Dial) : Client :=
  if received ≤ 0 then c.close
  else
    let (c, ok) := connectAgain env { c with buff := true, sqBuff := saved } a
    if ok then c else c.close

/-- The errors for which `on_connect` tries another group. -/
def Errno.retried : Errno → Bool
  | .connreset => true
  | .connrefused => true
  | .timedout => true
  | _ => false

/-- What an event of a remote socket brings: `SO_ERROR` behind `POLLERR`, the attempt that
`on_trigger` makes, and whether `mod_etype` and the reply succeed. -/
structure Event where
  error : Option Errno
  retry : Option Dial
  watched : Bool
  sends : Bool

def onConnectError (e : Errno) (ev : Event) : Client :=
  let e := if e = .ok then .connrefused else e
  match ev.retry with
  | none => c.answer e ev.sends
  | some a =>
    let (c, ok) := if e.retried then reconnect env c a else (c, false)
    if ok then c else c.answer e ev.sends

/-- `on_connect` without an error. -/
def Client.open (ev : Event) : Client :=
  if !ev.watched then c.close
  else if c.buff then { c with cb := .onTunnel }
  else { c with cb := .onTunnel }.answer .ok ev.sends

def onConnect (ev : Event) : Client :=
  match ev.error with
  | none => c.open ev
  | some e => onConnectError env c e ev

def greeting : Bytes := [0x05, 0x01, 0x00]

/-- The request that is made of an answer `r`. -/
def connRequest (r : Bytes) (dst : Dst) : Option Bytes := do
  let (len, r) ← s5SetAddr (r.set 1 0x01) 0 262 dst.sockAddr false
  return r.take len.toNat

/-- `on_socks_conn`; when it cannot send it goes on as if it were connected. -/
def onSocksConn (sends watched : Bool) (ev : Event) : Client :=
  if !sends then onConnect env c ev
  else if !watched then { c with talk := c.talk ++ [Talk.said greeting] }.close
  else { c with talk := c.talk ++ [Talk.said greeting], remoteCb := .onSocksRecv }

/-- `struct s5_req r = { 0 }`, and what has been received into it. -/
def received (msg : Bytes) : Bytes := msg ++ List.replicate (262 - msg.length) 0

/-- `on_socks_recv`, with what has been received. -/
def onSocksRecv (msg : Bytes) (sends : Bool) (e : Errno) (ev : Event) : Option Client := do
  if msg.length < 2 then return onConnectError env c e ev
  let r := received msg
  let c := { c with talk := c.talk ++ [Talk.heard msg] }
  if (← rd r 0) ≠ 0x05 ∨ (← rd r 1) ≠ 0x00 then return onConnectError env c e ev
  if c.connState ≠ .s5 then
    let some dst := c.addr | none
    let req ← connRequest r dst
    if !sends then return onConnectError env c e ev
    return { c with talk := c.talk ++ [Talk.said req], connState := .s5 }
  return { c with remoteCb := .onConnect }.open ev

/-- `reconnect` for an open tunnel; `on_response` keeps it when that fails. -/
def tryReconnect (kept : Bool) (a : Dial) : Client :=
  let (c, ok) := reconnect env c a
  if ok then c else if kept then { c with sqBuff := false } else c.close

/-- What happens to a client. -/
inductive Act where
  /-- it has been accepted, and may be connected at once -/
  | accepted (remote self : Option SockAddr) (a : Dial)
  /-- `n` bytes have been received -/
  | request (buffer : Bytes) (n : Nat) (a : Answers)
  /-- the remote socket is connected, or has an error -/
  | connected (ev : Event)
  | socksConnected (sends watched : Bool) (ev : Event)
  /-- the other proxy has answered; with less than two bytes it has not -/
  | socksAnswered (msg : Bytes) (sends : Bool) (e : Errno) (ev : Event)
  /-- the first data of a client that has been answered before the connection is opened -/
  | delayed (received : Int) (saved : Bool) (a : Dial)
  /-- another connection is tried for the tunnel, which may be kept when that fails -/
  | reconnect (kept : Bool) (a : Dial)
  /-- what the client has sent is on its way -/
  | flushed
  /-- `free_first_req` -/
  | released
  /-- a callback returns -1 for another reason -/
  | drop

def step (c : Client) : Act → Option Client
  | .accepted remote self a =>
    if c = {} ∧ env.transparent then some (onAccept env c remote self a) else none
  | .request buffer n a =>
    if c.cb = .onRequest ∧ 1 ≤ n ∧ n ≤ buffer.length then onRequest env c buffer n a else none
  | .connected ev =>
    if c.cb = .onIgnore ∧ c.remoteCb = .onConnect then some (onConnect env c ev) else none
  | .socksConnected sends watched ev =>
    if c.cb = .onIgnore ∧ c.remoteCb = .onSocksConn then some (onSocksConn env c sends watched ev)
    else none
  | .socksAnswered msg sends e ev =>
    if c.cb = .onIgnore ∧ c.remoteCb = .onSocksRecv ∧ msg.length ≤ 262 then
      onSocksRecv env c msg sends e ev
    else none
  | .delayed received saved a =>
    if c.cb = .recvAndConnect then some (recvAndConnect env c received saved a) else none
  | .reconnect kept a =>
    if c.cb = .onTunnel then some (tryReconnect env c kept a) else none
  | .flushed => if c.cb = .onTunnel then some { c with buff := false } else none
  | .released => if c.cb = .onTunnel then some { c with sqBuff := false } else none
  | .drop => if c.cb = .closed then none else some c.close

end Client

/-- The replies that say that all is well. -/
inductive IsOk : Bytes → Prop
  | reply {flag : Flag} {msg : Bytes} (h : respError .ok flag = some msg) : IsOk msg
  | associated {addr : SockAddr} {msg : Bytes} (h : assocReply addr = some msg) : IsOk msg

inductive IsError : Bytes → Prop
  | reply {flag : Flag} {e : Errno} {msg : Bytes} (he : e ≠ .ok)
      (h : respError e flag = some msg) : IsError msg
  | s5 {code : UInt8} (h : code ≠ 0) : IsError (s5Error code)

/-- `s5_set_addr` at the front of a `struct s5_req`, and what is sent of it. -/
lemma setAddr_front {x y z : UInt8} {rest : Bytes} (hrest : 19 ≤ rest.length) (addr : SockAddr) :
    ∃ r, s5SetAddr (x :: y :: z :: rest) 0 262 addr false = some ((size addr : Int), r) ∧
      r.take (size addr) = x :: y :: z :: header addr := by
  have hsize := size_le addr
  have hhead := header_length addr
  have hgap : (rest.take (size addr - 3)).length + 3 = size addr := by
    rw [List.length_take]
    omega
  have hset : s5SetAddr
      ([] ++ x :: y :: z :: (rest.take (size addr - 3) ++ rest.drop (size addr - 3))) 0 262 addr
      false = some ((size addr : Int), _) := set_text hgap (by omega) rfl
  rw [List.take_append_drop] at hset
  refine ⟨_, hset, ?_⟩
  have htake : size addr = (x :: y :: z :: header addr).length := by
    simp only [List.length_cons]
    omega
  rw [htake]
  exact List.take_left

lemma assocReply_text (addr : SockAddr) :
    assocReply addr = some (0x05 :: 0 :: 0 :: header addr) := by
  have hr : (0x05 : UInt8) :: List.replicate 261 0 = 0x05 :: 0 :: 0 :: List.replicate 259 0 := rfl
  have hlong : 19 ≤ (List.replicate 259 (0 : UInt8)).length := by
    rw [List.length_replicate]
    omega
  obtain ⟨r, hset, htake⟩ := setAddr_front (x := 0x05) (y := 0) (z := 0) hlong addr
  unfold assocReply
  rw [hr, hset]
  exact congrArg some htake

lemma IsOk.bytes {msg : Bytes} (h : IsOk msg) :
    msg[0]? = some 0x05 ∧ msg[1]? = some 0x00 ∨ msg[0]? = some 0x00 ∧ msg[1]? = some 0x5a ∨
      msg[0]? = some 0x48 ∧ msg[9]? = some 0x32 := by
  cases h with
  | @reply flag msg hok =>
    cases flag with
    | unset => cases hok
    | s4 =>
      cases hok
      exact Or.inr (Or.inl ⟨rfl, rfl⟩)
    | s5 =>
      cases hok
      exact Or.inl ⟨rfl, rfl⟩
    | http =>
      cases hok
      exact Or.inr (Or.inr ⟨by decide, by decide⟩)
  | @associated addr msg hok =>
    rw [assocReply_text] at hok
    cases hok
    exact Or.inl ⟨rfl, rfl⟩

lemma IsError.bytes {msg : Bytes} (h : IsError msg) :
    msg[0]? = some 0x05 ∧ msg[1]? ≠ some 0x00 ∨ msg[0]? = some 0x00 ∧ msg[1]? = some 0x5b ∨
      msg[0]? = some 0x48 ∧ msg[9]? = some 0x35 := by
  cases h with
  | @reply flag e msg he hmsg =>
    cases flag with
    | unset => cases hmsg
    | s4 =>
      cases hmsg
      rw [if_neg he]
      exact Or.inr (Or.inl ⟨rfl, rfl⟩)
    | s5 =>
      cases hmsg
      refine Or.inl ⟨rfl, fun hcode => ?_⟩
      have hzero : s5Code e = 0x00 := Option.some.inj hcode
      revert hzero
      cases e with
      | ok => exact absurd rfl he
      | _ => decide
    | http =>
      have hfail : (if e = .ok then _ else _) = msg := Option.some.inj hmsg
      rw [if_neg he] at hfail
      rw [← hfail]
      exact Or.inr (Or.inr ⟨by decide, by decide⟩)
  | @s5 code hcode => exact Or.inl ⟨rfl, fun h => hcode (Option.some.inj h)⟩

/-- No message says both. -/
lemma IsOk.not_error {msg : Bytes} (h : IsOk msg) : ¬ IsError msg := by
  intro herr
  have hok := h.bytes
  have herr := herr.bytes
  rcases hok with hok | hok | hok <;> rcases herr with herr | herr | herr <;> simp_all

/-- What the client has been told: the answer to its greeting, that all is well, an error. -/
structure Told (c : Client) (greeting oks errors : List Bytes) : Prop where
  text : c.sent = greeting ++ (oks ++ errors)
  greets : greeting = [] ∨ greeting = [[0x05, 0x00]] ∨
    greeting = [[0x05, 0xff]] ∧ oks = [] ∧ errors = [] ∧ c.cb = .closed
  succeeds : ∀ msg ∈ oks, IsOk msg
  fails : errors = [] ∨ (∃ msg, errors = [msg] ∧ IsError msg) ∧ c.cb = .closed
  early : c.cb = .onRequest → oks = []

/-- The callbacks in which a client has been told that all is well, unless it sent its data with
the request. -/
def Cb.answered : Cb → Prop
  | .recvAndConnect => True
  | .onTunnel => True
  | .associated => True
  | _ => False

/-- A client that is served, and what it has been told. With `once` it has not been told twice that
all is well, and is not going to be. -/
structure Served (once : Prop) (c : Client) (greeting oks : List Bytes) : Prop where
  served : c.cb ≠ .closed
  text : c.sent = greeting ++ oks
  greets : greeting = [] ∨ greeting = [[0x05, 0x00]]
  succeeds : ∀ msg ∈ oks, IsOk msg
  early : c.cb = .onRequest → oks = []
  asking : c.cb = .onRequest → (c.flag = .unset ∧ greeting = [] ∨ c.flag = .s5)
  single : once → oks = [] ∨ oks.length = 1 ∧ (c.cb.answered ∨ c.buff = true)

/-- The state between two steps. -/
def Held (once : Prop) (c : Client) : Prop :=
  (∃ greeting oks, Served once c greeting oks) ∨
    c.cb = .closed ∧ ∃ greeting oks errors, Told c greeting oks errors ∧
      (once → oks.length ≤ 1)

section Fails

variable {env : Params} {c : Client} {dst : Dst} {a : Dial}

/-- `connect_hook` changes nothing when it fails. -/
lemma hook_fails (h : (connectHook env c dst a).2 = false) : (connectHook env c dst a).1 = c := by
  unfold connectHook at h ⊢
  cases hgroup : a.group with
  | none => rfl
  | some group =>
    simp only [hgroup] at h ⊢
    split
    · next hdelay =>
      rw [if_pos hdelay] at h
      split
      · next hsent =>
        rw [if_pos hsent] at h
        cases h
      · next hsent =>
        unfold Client.resp at hsent ⊢
        cases hmsg : respError .ok c.flag with
        | none => rfl
        | some msg =>
          simp only [hmsg] at hsent ⊢
          cases hsends : a.sends with
          | false => rfl
          | true =>
            rw [hsends] at hsent
            exact absurd rfl hsent
    · next hdelay =>
      rw [if_neg hdelay] at h
      split
      · next hconn =>
        rw [if_pos hconn] at h
        cases h
      · rfl

lemma again_fails (h : (connectAgain env c a).2 = false) : (connectAgain env c a).1 = c := by
  unfold connectAgain at h ⊢
  cases haddr : c.addr with
  | none => rfl
  | some dst =>
    simp only [haddr] at h ⊢
    exact hook_fails h

lemma reconnect_fails (h : (reconnect env c a).2 = false) : (reconnect env c a).1 = c.resume :=
  again_fails h

lemma transp_fails {remote self : Option SockAddr}
    (h : (transpConn env c remote self a).2 = false) :
    (transpConn env c remote self a).1 = c := by
  unfold transpConn at h ⊢
  split
  · next remote self =>
    simp only at h
    split
    · rfl
    · next hself =>
      rw [if_neg hself] at h
      exact hook_fails h
  · rfl

end Fails

section Replies

variable {once : Prop} {env : Params} {c c' : Client} {greeting oks : List Bytes} {dst : Dst}
  {msg : Bytes} {e : Errno} {sends : Bool}

lemma Served.close (h : Served once c greeting oks) : Held once c.close := by
  refine Or.inr ⟨rfl, greeting, oks, [], ⟨?_, ?_, h.succeeds, Or.inl rfl, ?_⟩, ?_⟩
  · rw [List.append_nil]
    exact h.text
  · rcases h.greets with hg | hg
    · exact Or.inl hg
    · exact Or.inr (Or.inl hg)
  · intro hcb
    cases hcb
  · intro ho
    rcases h.single ho with hnil | ⟨hone, -⟩
    · rw [hnil]
      exact Nat.zero_le _
    · exact hone.le

/-- A message that says that something failed is the last one. -/
lemma Served.error (h : Served once c greeting oks) (hmsg : IsError msg) :
    Held once (c.send msg sends).1.close := by
  cases sends with
  | false => exact h.close
  | true =>
    refine Or.inr ⟨rfl, greeting, oks, [msg], ⟨?_, ?_, h.succeeds, Or.inr ⟨⟨msg, rfl, hmsg⟩, rfl⟩,
      ?_⟩, ?_⟩
    · show c.sent ++ [msg] = _
      rw [h.text, List.append_assoc]
    · rcases h.greets with hg | hg
      · exact Or.inl hg
      · exact Or.inr (Or.inl hg)
    · intro hcb
      cases hcb
    · intro ho
      rcases h.single ho with hnil | ⟨hone, -⟩
      · rw [hnil]
        exact Nat.zero_le _
      · exact hone.le

lemma Served.resp_error (h : Served once c greeting oks) (he : e ≠ .ok) :
    Held once (c.resp e sends).1.close := by
  unfold Client.resp
  cases hmsg : respError e c.flag with
  | none => exact h.close
  | some msg => exact h.error (.reply he hmsg)

lemma Served.fail (h : Served once c greeting oks) : Held once (c.fail sends) :=
  h.resp_error (fun he => by cases he)

/-- The client is told that all is well, and its callback changes. -/
lemma Served.success (h : Served once c greeting oks) (hmsg : IsOk msg) (hfirst : once → oks = [])
    (hc : c'.cb.answered) (hsent : c'.sent = c.sent ++ [msg]) :
    Served once c' greeting (oks ++ [msg]) := by
  refine ⟨?_, ?_, h.greets, ?_, ?_, ?_, ?_⟩
  · intro hcb
    rw [hcb] at hc
    exact hc
  · rw [hsent, h.text, List.append_assoc]
  · intro m hm
    rcases List.mem_append.mp hm with hm | hm
    · exact h.succeeds m hm
    · rw [List.mem_singleton.mp hm]
      exact hmsg
  · intro hcb
    rw [hcb] at hc
    exact hc.elim
  · intro hcb
    rw [hcb] at hc
    exact hc.elim
  · intro ho
    refine Or.inr ⟨?_, Or.inl hc⟩
    rw [hfirst ho]
    rfl

/-- What is sent stays, and the callback is one that comes after the request. -/
lemma Served.later (h : Served once c greeting oks) (hsent : c'.sent = c.sent)
    (hserved : c'.cb ≠ .closed) (hcb : c'.cb ≠ .onRequest)
    (hsingle : once → oks = [] ∨ oks.length = 1 ∧ (c'.cb.answered ∨ c'.buff = true)) :
    Served once c' greeting oks :=
  ⟨hserved, hsent.trans h.text, h.greets, h.succeeds, fun hreq => absurd hreq hcb,
    fun hreq => absurd hreq hcb, hsingle⟩

lemma Served.delay (dst : Dst) (h : Served once c greeting oks) (hfirst : once → oks = [])
    (hok : (c.resp .ok sends).2 = true) :
    Held once { (c.resp .ok sends).1 with cb := .recvAndConnect, addr := some dst } := by
  unfold Client.resp at hok ⊢
  cases hmsg : respError .ok c.flag with
  | none =>
    refine Or.inl ⟨greeting, oks, h.later rfl ?_ ?_ fun ho => Or.inl (hfirst ho)⟩
    · intro hcb
      cases hcb
    · intro hcb
      cases hcb
  | some msg =>
    simp only [hmsg] at hok ⊢
    cases sends with
    | false => cases hok
    | true => exact Or.inl ⟨_, _, h.success (.reply hmsg) hfirst trivial rfl⟩

/-- Without a second time in sight, `connect_hook` leaves a served client. -/
lemma Served.hook (env : Params) (h : Served once c greeting oks) (dst : Dst) (a : Dial)
    (hsafe : once → oks = [] ∨ oks.length = 1 ∧ c.buff = true)
    (hok : (connectHook env c dst a).2 = true) : Held once (connectHook env c dst a).1 := by
  unfold connectHook at hok ⊢
  cases hgroup : a.group with
  | none =>
    rw [hgroup] at hok
    cases hok
  | some group =>
    simp only [hgroup] at hok ⊢
    split
    · next hdelay =>
      have hbuff : c.buff = false := by
        cases hb : c.buff with
        | false => rfl
        | true => simp [hb] at hdelay
      have hfirst : once → oks = [] := by
        intro ho
        rcases hsafe ho with hnil | ⟨-, hb⟩
        · exact hnil
        · rw [hbuff] at hb
          cases hb
      rw [if_pos hdelay] at hok
      split
      · next hsent => exact h.delay dst hfirst hsent
      · next hsent =>
        rw [if_neg hsent] at hok
        cases hok
    · next hdelay =>
      rw [if_neg hdelay] at hok
      split
      · refine Or.inl ⟨greeting, oks, h.later rfl ?_ ?_ fun ho => ?_⟩
        · intro hcb
          cases hcb
        · intro hcb
          cases hcb
        · exact (hsafe ho).imp_right fun hone => ⟨hone.1, Or.inr hone.2⟩
      · next hconn =>
        rw [if_neg hconn] at hok
        cases hok

lemma Served.connectTo (h : Served once c greeting []) (dst : Option Dst) (a : Answers) :
    Held once (connectTo env c dst a) := by
  cases dst with
  | none => exact h.fail
  | some dst =>
    unfold Handshake.connectTo
    simp only
    split
    · next hconn => exact h.hook env dst a.dial (fun _ => Or.inl rfl) hconn
    · next hconn =>
      rw [hook_fails ((Bool.not_eq_true _).mp hconn)]
      exact h.fail

lemma authSocks5_method {buffer : Bytes} {n : Nat} {method : UInt8}
    (h : authSocks5 buffer n = some (some method)) : method = 0x00 ∨ method = 0xff := by
  unfold authSocks5 at h
  split at h
  · cases h
  obtain ⟨len, -, h⟩ := Option.bind_eq_some_iff.mp h
  split at h
  · cases h
  obtain ⟨methods, -, h⟩ := Option.bind_eq_some_iff.mp h
  cases h
  split
  · exact Or.inl rfl
  · exact Or.inr rfl

/-- The answer to the greeting. -/
lemma Served.greeted {method : UInt8} (h : Served once c [] []) (sends : Bool)
    (hflag : c.flag = .unset) (hmethod : method = 0x00 ∨ method = 0xff) :
    Held once (if (c.send [0x05, method] sends).2 ∧ method ≠ 0xff
      then { (c.send [0x05, method] sends).1 with flag := .s5 }
      else (c.send [0x05, method] sends).1.fail sends) := by
  cases sends with
  | false => exact h.fail
  | true =>
    rcases hmethod with rfl | rfl
    · refine Or.inl ⟨[[0x05, 0x00]], [], ?_, ?_, Or.inr rfl, h.succeeds, fun _ => rfl, fun _ =>
        Or.inr rfl, fun _ => Or.inl rfl⟩
      · exact h.served
      · show c.sent ++ [[0x05, 0x00]] = _
        rw [h.text]
        rfl
    · have hfail : ((c.send [0x05, 0xff] true).1.fail true) =
          { c with sent := c.sent ++ [[0x05, 0xff]], cb := .closed } := by
        simp [Client.fail, Client.send, Client.resp, respError, hflag, Client.close]
      rw [if_neg fun hne => hne.2 rfl, hfail]
      refine Or.inr ⟨rfl, [[0x05, 0xff]], [], [], ⟨?_, Or.inr (Or.inr ⟨rfl, rfl, rfl, rfl⟩),
        h.succeeds, Or.inl rfl, fun _ => rfl⟩, fun _ => Nat.zero_le _⟩
      show c.sent ++ [[0x05, 0xff]] = _
      rw [h.text]
      rfl

lemma Served.refused {r : Int} (h : Served once c greeting oks) (hr : r = -1 ∨ r = -4 ∨ r = -8) :
    Held once (c.send (s5Error (UInt8.ofInt (-r))) sends).1.close := by
  refine h.error (.s5 ?_)
  rcases hr with rfl | rfl | rfl <;> decide

lemma Served.associate {a : Assoc} {r : Client × Bool} (h : Served once c greeting [])
    (hassoc : udpAssociate c a = some r) :
    Held once (if r.2 = true then r.1 else r.1.fail sends) := by
  unfold udpAssociate at hassoc
  have hlater : Served once { c with cb := .associated } greeting [] := by
    refine h.later rfl ?_ ?_ fun _ => Or.inl rfl
    · intro hcb
      cases hcb
    · intro hcb
      cases hcb
  cases haddr : a.addr with
  | none =>
    rw [haddr] at hassoc
    cases hassoc
    exact h.fail
  | some addr =>
    rw [haddr] at hassoc
    obtain ⟨msg, hmsg, hassoc⟩ := Option.bind_eq_some_iff.mp hassoc
    cases hassoc
    cases hsends : a.sends with
    | false => exact hlater.fail
    | true =>
      have hserved : Served once { c with cb := .associated, sent := c.sent ++ [msg] } greeting
          ([] ++ [msg]) := hlater.success (.associated hmsg) (fun _ => rfl) trivial rfl
      cases a.watched with
      | false => exact hserved.fail
      | true => exact Or.inl ⟨_, _, hserved⟩

lemma Served.handleS5 {buffer : Bytes} {n : Nat} {a : Answers} (h : Served once c greeting oks)
    (hcb : c.cb = .onRequest) (hs5 : handleS5 env c buffer n a = some c') : Held once c' := by
  cases h.early hcb
  unfold Handshake.handleS5 at hs5
  split at hs5
  · next hflag =>
    obtain ⟨hunset, rfl⟩ : c.flag = .unset ∧ greeting = [] :=
      (h.asking hcb).resolve_right hflag
    obtain ⟨method, hmethod, hs5⟩ := Option.bind_eq_some_iff.mp hs5
    cases method with
    | none =>
      cases hs5
      exact h.fail
    | some method =>
      have hheld := h.greeted a.sends hunset (authSocks5_method hmethod)
      simp only at hs5
      split at hs5
      · next hok =>
        cases hs5
        rwa [if_pos hok] at hheld
      · next hok =>
        cases hs5
        rwa [if_neg hok] at hheld
  · split at hs5
    · cases hs5
      exact h.fail
    obtain ⟨cmd, -, hs5⟩ := Option.bind_eq_some_iff.mp hs5
    split at hs5
    · obtain ⟨⟨r, addr⟩, hget, hs5⟩ := Option.bind_eq_some_iff.mp hs5
      simp only at hs5
      split at hs5
      · cases hs5
        exact h.connectTo _ a
      · next hneg =>
        cases hs5
        exact h.refused ((s5GetAddr_code hget).resolve_left hneg)
    split at hs5
    · obtain ⟨⟨r, addr⟩, hget, hs5⟩ := Option.bind_eq_some_iff.mp hs5
      simp only at hs5
      split at hs5
      · obtain ⟨r, hassoc, hs5⟩ := Option.bind_eq_some_iff.mp hs5
        cases hs5
        exact h.associate hassoc
      · next hneg =>
        cases hs5
        exact h.refused ((s5GetAddr_code hget).resolve_left hneg)
    · cases hs5
      exact h.error (.s5 (by decide))

lemma Served.kept (h : Served once c greeting []) (buff sqBuff : Bool) :
    Served once { c with buff := buff, sqBuff := sqBuff } greeting [] :=
  ⟨h.served, h.text, h.greets, h.succeeds, h.early, h.asking, fun _ => Or.inl rfl⟩

lemma Served.saveAndConnect (h : Served once c greeting []) (dst : Dst) (a : Answers) :
    Held once (saveAndConnect env c dst a) := by
  unfold Handshake.saveAndConnect saveBuffer
  by_cases hauto : env.autoReconnect = true
  · rw [if_pos hauto]
    cases a.room with
    | false => exact (h.kept true false).close
    | true => exact (h.kept true true).connectTo (some dst) a
  · rw [if_neg hauto]
    exact (h.kept true c.sqBuff).connectTo (some dst) a

lemma fail_cb (cb : Cb) : { c with cb := cb }.fail sends = c.fail sends := by
  unfold Client.fail Client.resp
  cases respError .other c.flag with
  | none => rfl
  | some msg => cases sends <;> rfl

/-- The callback does not matter for a request. -/
lemma connectTo_cb (cb : Cb) (dst : Option Dst) (a : Answers) :
    connectTo env { c with cb := cb } dst a = connectTo env c dst a := by
  cases dst with
  | none => exact fail_cb cb
  | some dst =>
    unfold Handshake.connectTo connectHook
    cases a.dial.group with
    | none => exact fail_cb cb
    | some filtered =>
      simp only
      split
      · unfold Client.resp
        cases respError .ok c.flag with
        | none => rfl
        | some msg =>
          cases a.dial.sends with
          | false => exact fail_cb cb
          | true => rfl
      · split
        · rfl
        · exact fail_cb cb

/-- The protocol is known by the first byte. -/
lemma Served.flagged (h : Served once c greeting []) (flag : Flag) (dst : Option Dst)
    (a : Answers) : Held once (Handshake.connectTo env { c with flag := flag } dst a) := by
  have hlater : Served once { c with cb := .onIgnore, flag := flag } greeting [] := by
    refine h.later rfl ?_ ?_ fun _ => Or.inl rfl
    · intro hcb
      cases hcb
    · intro hcb
      cases hcb
  rw [← connectTo_cb .onIgnore]
  exact hlater.connectTo dst a

lemma Served.onRequest {buffer : Bytes} {n : Nat} {a : Answers} (h : Served once c greeting oks)
    (hcb : c.cb = .onRequest) (hreq : onRequest env c buffer n a = some c') : Held once c' := by
  have hs5 {x : Client} (hx : Handshake.handleS5 env c buffer n a = some x) : Held once x :=
    h.handleS5 hcb hx
  cases h.early hcb
  unfold Handshake.onRequest at hreq
  obtain ⟨first, -, hreq⟩ := Option.bind_eq_some_iff.mp hreq
  split at hreq
  · exact hs5 hreq
  split at hreq
  · obtain ⟨dst, -, hreq⟩ := Option.bind_eq_some_iff.mp hreq
    cases hreq
    exact h.flagged .s4 dst a
  split at hreq
  · obtain ⟨dst, -, hreq⟩ := Option.bind_eq_some_iff.mp hreq
    cases hreq
    exact h.flagged .http dst a
  split at hreq
  · obtain ⟨⟨r, addr⟩, -, hreq⟩ := Option.bind_eq_some_iff.mp hreq
    cases hreq
    split
    · exact h.close
    · exact h.saveAndConnect _ a
  obtain ⟨hello, -, hreq⟩ := Option.bind_eq_some_iff.mp hreq
  split at hreq
  · obtain ⟨dst, -, hreq⟩ := Option.bind_eq_some_iff.mp hreq
    cases dst with
    | none =>
      cases hreq
      exact h.fail
    | some dst =>
      cases hreq
      exact h.saveAndConnect dst a
  split at hreq
  · cases hreq
    exact h.saveAndConnect _ a
  · cases hreq
    exact h.close

lemma Served.resume (h : Served once c greeting oks) : Served once c.resume greeting oks := by
  refine ⟨h.served, h.text, h.greets, h.succeeds, h.early, h.asking, fun ho => ?_⟩
  refine (h.single ho).imp_right fun hone => ⟨hone.1, hone.2.imp_right fun hb => ?_⟩
  show (c.buff || c.sqBuff) = true
  rw [hb, Bool.true_or]

lemma Served.again (env : Params) (h : Served once c greeting oks) (a : Dial)
    (hsafe : once → oks = [] ∨ oks.length = 1 ∧ c.buff = true)
    (hok : (connectAgain env c a).2 = true) : Held once (connectAgain env c a).1 := by
  unfold connectAgain at hok ⊢
  cases haddr : c.addr with
  | none =>
    rw [haddr] at hok
    cases hok
  | some dst =>
    simp only [haddr] at hok ⊢
    exact h.hook env dst a hsafe hok

lemma Served.reconnect (env : Params) (h : Served once c greeting oks) (a : Dial)
    (hsafe : once → oks = [] ∨ oks.length = 1 ∧ (c.buff = true ∨ c.sqBuff = true))
    (hok : (Handshake.reconnect env c a).2 = true) :
    Held once (Handshake.reconnect env c a).1 := by
  refine h.resume.again env a (fun ho => ?_) hok
  refine (hsafe ho).imp_right fun hone => ⟨hone.1, ?_⟩
  show (c.buff || c.sqBuff) = true
  rcases hone.2 with hb | hb
  · rw [hb, Bool.true_or]
  · rw [hb, Bool.or_true]

lemma Served.answerError (h : Served once c greeting oks) (he : e ≠ .ok) :
    Held once (c.answer e sends) := by
  have hclose : c.answer e sends = (c.resp e sends).1.close := if_neg fun hok => he hok.2
  rw [hclose]
  exact h.resp_error he

lemma Served.waits (h : Served once c greeting oks) (hcb : c.cb = .onIgnore) (ho : once) :
    oks = [] ∨ oks.length = 1 ∧ (c.buff = true ∨ c.sqBuff = true) := by
  refine (h.single ho).imp_right fun hone => ⟨hone.1, Or.inl ?_⟩
  refine hone.2.resolve_left fun hans => ?_
  rw [hcb] at hans
  exact hans

lemma Served.refuse (h : Served once c greeting oks) (hcb : c.cb = .onIgnore) (e : Errno)
    (ev : Event) : Held once (onConnectError env c e ev) := by
  have he : (if e = .ok then Errno.connrefused else e) ≠ .ok := by
    split
    · intro hno
      cases hno
    · next hne => exact hne
  unfold onConnectError
  cases ev.retry with
  | none => exact h.answerError he
  | some a =>
    simp only
    by_cases hretried : (if e = .ok then Errno.connrefused else e).retried = true
    · simp only [if_pos hretried]
      split
      · next hconn => exact h.reconnect env a (h.waits hcb) hconn
      · next hconn =>
        rw [reconnect_fails ((Bool.not_eq_true _).mp hconn)]
        exact h.resume.answerError he
    · simp only [if_neg hretried]
      exact h.answerError he

lemma Served.open (h : Served once c greeting oks) (hcb : c.cb = .onIgnore) (ev : Event) :
    Held once (c.open ev) := by
  have hlater (hsingle : once → oks = [] ∨ oks.length = 1) :
      Served once { c with cb := .onTunnel } greeting oks := by
    refine h.later rfl ?_ ?_ fun ho => ?_
    · intro hno
      cases hno
    · intro hno
      cases hno
    · exact (hsingle ho).imp_right fun hone => ⟨hone, Or.inl trivial⟩
  have hcount : once → oks = [] ∨ oks.length = 1 := fun ho =>
    (h.single ho).imp_right And.left
  unfold Client.open
  split
  · exact h.close
  split
  · exact Or.inl ⟨_, _, hlater hcount⟩
  · next hbuff =>
    have hfirst : once → oks = [] := by
      intro ho
      refine (h.single ho).resolve_right fun hone => ?_
      rcases hone.2 with hans | hb
      · rw [hcb] at hans
        exact hans
      · exact hbuff hb
    unfold Client.answer Client.resp
    cases hmsg : respError .ok c.flag with
    | none => exact Or.inl ⟨_, _, hlater hcount⟩
    | some msg =>
      cases ev.sends with
      | false => exact (hlater hcount).close
      | true => exact Or.inl ⟨_, _, (hlater hcount).success (.reply hmsg) hfirst trivial rfl⟩

lemma Served.connect (h : Served once c greeting oks) (hcb : c.cb = .onIgnore) (ev : Event) :
    Held once (onConnect env c ev) := by
  unfold onConnect
  cases ev.error with
  | none => exact h.open hcb ev
  | some e => exact h.refuse hcb e ev

/-- What is said on the other side does not matter to the client. -/
lemma Served.talks (h : Served once c greeting oks) (remoteCb : RemoteCb) (connState : Flag)
    (talk : List Talk) : Served once
      { c with remoteCb := remoteCb, connState := connState, talk := talk } greeting oks :=
  ⟨h.served, h.text, h.greets, h.succeeds, h.early, h.asking, h.single⟩

lemma Served.socksConn (h : Served once c greeting oks) (hcb : c.cb = .onIgnore)
    (sends watched : Bool) (ev : Event) : Held once (onSocksConn env c sends watched ev) := by
  unfold onSocksConn
  split
  · exact h.connect hcb ev
  split
  · exact (h.talks c.remoteCb c.connState _).close
  · exact Or.inl ⟨_, _, h.talks .onSocksRecv c.connState _⟩

lemma Served.socksRecv {msg : Bytes} {sends : Bool} {e : Errno} {ev : Event}
    (h : Served once c greeting oks) (hcb : c.cb = .onIgnore)
    (hrecv : onSocksRecv env c msg sends e ev = some c') : Held once c' := by
  have hheard := h.talks c.remoteCb c.connState (c.talk ++ [.heard msg])
  unfold onSocksRecv at hrecv
  split at hrecv
  · cases hrecv
    exact h.refuse hcb e ev
  obtain ⟨ver, -, hrecv⟩ := Option.bind_eq_some_iff.mp hrecv
  obtain ⟨code, -, hrecv⟩ := Option.bind_eq_some_iff.mp hrecv
  split at hrecv
  · cases hrecv
    exact hheard.refuse hcb e ev
  split at hrecv
  · cases haddr : c.addr with
    | none =>
      simp only [haddr] at hrecv
      cases hrecv
    | some dst =>
      simp only [haddr] at hrecv
      obtain ⟨req, -, hrecv⟩ := Option.bind_eq_some_iff.mp hrecv
      split at hrecv
      · cases hrecv
        rw [← haddr]
        exact hheard.refuse hcb e ev
      · cases hrecv
        rw [← haddr]
        exact Or.inl ⟨_, _, h.talks c.remoteCb .s5 _⟩
  · cases hrecv
    exact (h.talks .onConnect c.connState _).open hcb ev

lemma Served.delayed (h : Served once c greeting oks) (hcb : c.cb = .recvAndConnect)
    (received : Int) (saved : Bool) (a : Dial) :
    Held once (recvAndConnect env c received saved a) := by
  have hlater : Served once { c with buff := true, sqBuff := saved } greeting oks := by
    refine h.later rfl h.served ?_ fun ho => ?_
    · intro hno
      rw [hcb] at hno
      cases hno
    · exact (h.single ho).imp_right fun hone => ⟨hone.1, Or.inr rfl⟩
  unfold recvAndConnect
  split
  · exact h.close
  · have hsafe : once → oks = [] ∨ oks.length = 1 ∧ true = true := fun ho =>
      (h.single ho).imp_right fun hone => ⟨hone.1, rfl⟩
    simp only
    split
    · next hconn => exact hlater.again env a hsafe hconn
    · next hconn =>
      rw [again_fails ((Bool.not_eq_true _).mp hconn)]
      exact hlater.close

/-- The buffers of an open tunnel come and go. -/
lemma Served.flows (h : Served once c greeting oks) (hcb : c.cb = .onTunnel) (buff sqBuff : Bool) :
    Served once { c with buff := buff, sqBuff := sqBuff } greeting oks := by
  refine h.later rfl h.served ?_ fun ho => ?_
  · intro hno
    rw [hcb] at hno
    cases hno
  · refine (h.single ho).imp_right fun hone => ⟨hone.1, Or.inl ?_⟩
    rw [hcb]
    trivial

/-- Only a tunnel with a saved request, or with data on its way, is given up for another one. -/
def Careful (c : Client) : Act → Prop
  | .reconnect _ _ => c.buff = true ∨ c.sqBuff = true
  | _ => True

lemma Served.tries {kept : Bool} {a : Dial} (h : Served once c greeting oks)
    (hcb : c.cb = .onTunnel) (hcareful : once → Careful c (.reconnect kept a)) :
    Held once (tryReconnect env c kept a) := by
  have hsafe : once → oks = [] ∨ oks.length = 1 ∧ (c.buff = true ∨ c.sqBuff = true) := fun ho =>
    (h.single ho).imp_right fun hone => ⟨hone.1, hcareful ho⟩
  unfold tryReconnect
  simp only
  split
  · next hconn => exact h.reconnect env a hsafe hconn
  · next hconn =>
    rw [reconnect_fails ((Bool.not_eq_true _).mp hconn)]
    split
    · exact Or.inl ⟨_, _, h.flows hcb (c.buff || c.sqBuff) false⟩
    · exact h.resume.close

lemma Served.transp (env : Params) (h : Served once c greeting []) (remote self : Option SockAddr)
    (a : Dial) (hok : (transpConn env c remote self a).2 = true) :
    Held once (transpConn env c remote self a).1 := by
  unfold transpConn at hok ⊢
  split
  · next remote self =>
    simp only at hok
    split
    · next hself =>
      rw [if_pos hself] at hok
      cases hok
    · next hself =>
      rw [if_neg hself] at hok
      exact h.hook env (dstOf remote) a (fun _ => Or.inl rfl) hok
  · exact Or.inl ⟨_, _, h⟩

lemma Served.accept (h : Served once c greeting []) (remote self : Option SockAddr) (a : Dial) :
    Held once (onAccept env c remote self a) := by
  unfold onAccept
  simp only
  split
  · next hconn => exact h.transp env remote self a hconn
  · next hconn =>
    rw [transp_fails ((Bool.not_eq_true _).mp hconn)]
    split
    · exact Or.inl ⟨_, _, h⟩
    · exact h.close

lemma served_new : Served once {} [] [] :=
  ⟨by decide, rfl, Or.inl rfl, by simp, fun _ => rfl, fun _ => Or.inl ⟨rfl, rfl⟩,
    fun _ => Or.inl rfl⟩

/-- One step. -/
lemma Held.step {act : Act} (h : Held once c) (hcareful : once → Careful c act)
    (hstep : step env c act = some c') : Held once c' := by
  have served (hcb : c.cb ≠ .closed) : ∃ greeting oks, Served once c greeting oks :=
    h.resolve_right fun hclosed => hcb hclosed.1
  have served_in {cb : Cb} (hcb : c.cb = cb) (hne : cb ≠ .closed) :
      ∃ greeting oks, Served once c greeting oks := served (hcb ▸ hne)
  cases act with
  | accepted remote self a =>
    obtain ⟨⟨rfl, -⟩, hc⟩ := Option.ite_none_right_eq_some.mp hstep
    cases hc
    exact served_new.accept remote self a
  | request buffer n a =>
    obtain ⟨⟨hcb, -⟩, hreq⟩ := Option.ite_none_right_eq_some.mp hstep
    obtain ⟨greeting, oks, hserved⟩ := served_in hcb (by decide)
    exact hserved.onRequest hcb hreq
  | connected ev =>
    obtain ⟨⟨hcb, -⟩, hc⟩ := Option.ite_none_right_eq_some.mp hstep
    obtain ⟨greeting, oks, hserved⟩ := served_in hcb (by decide)
    cases hc
    exact hserved.connect hcb ev
  | socksConnected sends watched ev =>
    obtain ⟨⟨hcb, -⟩, hc⟩ := Option.ite_none_right_eq_some.mp hstep
    obtain ⟨greeting, oks, hserved⟩ := served_in hcb (by decide)
    cases hc
    exact hserved.socksConn hcb sends watched ev
  | socksAnswered msg sends e ev =>
    obtain ⟨⟨hcb, -⟩, hrecv⟩ := Option.ite_none_right_eq_some.mp hstep
    obtain ⟨greeting, oks, hserved⟩ := served_in hcb (by decide)
    exact hserved.socksRecv hcb hrecv
  | delayed received saved a =>
    obtain ⟨hcb, hc⟩ := Option.ite_none_right_eq_some.mp hstep
    obtain ⟨greeting, oks, hserved⟩ := served_in hcb (by decide)
    cases hc
    exact hserved.delayed hcb received saved a
  | reconnect kept a =>
    obtain ⟨hcb, hc⟩ := Option.ite_none_right_eq_some.mp hstep
    obtain ⟨greeting, oks, hserved⟩ := served_in hcb (by decide)
    cases hc
    exact hserved.tries hcb hcareful
  | flushed =>
    obtain ⟨hcb, hc⟩ := Option.ite_none_right_eq_some.mp hstep
    obtain ⟨greeting, oks, hserved⟩ := served_in hcb (by decide)
    cases hc
    exact Or.inl ⟨_, _, hserved.flows hcb false c.sqBuff⟩
  | released =>
    obtain ⟨hcb, hc⟩ := Option.ite_none_right_eq_some.mp hstep
    obtain ⟨greeting, oks, hserved⟩ := served_in hcb (by decide)
    cases hc
    exact Or.inl ⟨_, _, hserved.flows hcb c.buff false⟩
  | drop =>
    obtain ⟨hcb, hc⟩ := Option.ite_none_left_eq_some.mp hstep
    obtain ⟨greeting, oks, hserved⟩ := served hcb
    cases hc
    exact hserved.close

end Replies

/-- What a client is told: at most an answer to its greeting, then that all is well, and an error
only as the last message before its connection is closed. -/
theorem told_in_order (env : Params) (acts : List Act) (c : Client)
    (hrun : run (step env) {} acts = some c) :
    ∃ greeting oks errors, Told c greeting oks errors ∧ ∀ msg ∈ oks, ¬ IsError msg := by
  have hheld : Held False c := run_invariant
    (fun _ _ _ hheld hstep => Held.step hheld (fun hno => hno.elim) hstep)
    (Or.inl ⟨[], [], served_new⟩) hrun
  rcases hheld with ⟨greeting, oks, h⟩ | ⟨-, greeting, oks, errors, htold, -⟩
  · refine ⟨greeting, oks, [], ⟨?_, ?_, h.succeeds, Or.inl rfl, h.early⟩, ?_⟩
    · rw [List.append_nil]
      exact h.text
    · exact h.greets.imp_right Or.inl
    · exact fun msg hmsg => (h.succeeds msg hmsg).not_error
  · exact ⟨greeting, oks, errors, htold, fun msg hmsg => (htold.succeeds msg hmsg).not_error⟩

/-- SOCKS5 with an address, and a group that connects to it. -/
def plainEnv : Params :=
  { resolve := true, ipv6 := true, getaddrinfo := fun _ => none, socks5 := true }

def plainDial : Dial := ⟨some ⟨false, none⟩, true, true⟩

def plainAnswers : Answers := ⟨true, true, plainDial, ⟨none, true, true⟩⟩

def plainActs : List Act :=
  [.request [0x05, 0x01, 0x00] 3 plainAnswers,
    .request [0x05, 0x01, 0x00, 0x01, 10, 0, 0, 1, 0, 80] 10 plainAnswers,
    .connected ⟨none, none, true, true⟩]

def plainClient : Client :=
  { cb := .onTunnel, flag := .s5, addr := some ⟨some (.v4 (octets4 10 0 0 1)), octets2 0 80⟩,
    sent := [[0x05, 0x00], s5Error 0x00],
    dialled := [⟨none, ⟨some (.v4 (octets4 10 0 0 1)), octets2 0 80⟩⟩] }

lemma plain_run : run (step plainEnv) {} plainActs = some plainClient := by decide

theorem told_in_order_plain : ∃ greeting oks errors,
    Told plainClient greeting oks errors ∧ ∀ msg ∈ oks, ¬ IsError msg :=
  told_in_order plainEnv plainActs plainClient plain_run

end Handshake
