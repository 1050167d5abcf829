import NoZapret.Closing
import NoZapret.Library.Stack

/-!
# Buffers in the event loop

The callbacks as far as they take buffers from the pool and give them back, and what
`loop_event` does when one of them fails. Buffers have addresses; what a slot holds is told by
them. A callback asks its answers what the system calls say and how the bytes are judged.
-/

namespace Buffers

open Resources Pool
open Closing (openable setPair)

/-- `struct buffer` without its bytes -/
structure Buffer where
  size : Nat
  lock : Int := 0
  offset : Int := 0
  next : Option Nat := none

inductive Cb where
  | ctrl
  | accept
  | request
  | connect
  | tunnel
  | udpTunnel
  | ignore
  | recvAndConnect
  | socksConn
  | socksRecv
  deriving DecidableEq, Repr

/-- What `struct eval` holds beside its descriptor and its pair. -/
structure Slot where
  cb : Cb
  /-- `flag == FLAG_CONN` -/
  conn : Bool := false
  buff : Option Nat := none
  sqBuff : Option Nat := none
  recvCount : Nat := 0
  deriving DecidableEq, Repr

/-- `params` -/
structure Params where
  bfsize : Nat
  autoReconnect : Bool

structure State where
  w : World
  slots : Nat → Slot := fun _ => { cb := .ctrl }
  buffers : Nat → Buffer := fun _ => { size := 0 }
  rootBuff : Option Nat := none
  buffCount : Int := 0
  /-- what `malloc` has handed out and `free` has not taken back -/
  heap : Ledger Nat := {}
  /-- the slot whose callback has returned -1 -/
  failed : Option Nat := none

/-- `MAX_BUFF_INP` -/
def maxBuffInp : Int := 8

namespace State

def setSlot (st : State) (v : Nat) (s : Slot) : State :=
  { st with slots := Function.update st.slots v s }

def setBuffer (st : State) (i : Nat) (b : Buffer) : State :=
  { st with buffers := Function.update st.buffers i b }

def setBuff (st : State) (v : Nat) (b : Option Nat) : State :=
  st.setSlot v { st.slots v with buff := b }

def setSqBuff (st : State) (v : Nat) (b : Option Nat) : State :=
  st.setSlot v { st.slots v with sqBuff := b }

def setCb (st : State) (v : Nat) (cb : Cb) : State := st.setSlot v { st.slots v with cb := cb }

/-- `recv_count += n` -/
def received (st : State) (v n : Nat) : State :=
  st.setSlot v { st.slots v with recvCount := (st.slots v).recvCount + n }

def setWorld (st : State) (w : World) : State := { st with w := w }

def pair (st : State) (v : Nat) : Option Nat := (st.w.items v).pair

end State

/-- `buff_pop`; `a` is the address that `malloc` answers, which is never one in use. -/
def buffPop (st : State) (size : Nat) (a : Option Nat) : Option (Nat × State) :=
  match st.rootBuff with
  | some i => some (i, { st with
      rootBuff := (st.buffers i).next
      buffCount := st.buffCount - 1 })
  | none =>
    match a with
    | none => none
    | some i =>
      if i ∈ st.heap.held then none
      else some (i, { st.setBuffer i { size := size } with heap := st.heap.acquire i })

def buffPush (st : State) (i : Nat) : State :=
  if maxBuffInp ≤ st.buffCount then { st with heap := st.heap.release i }
  else { st.setBuffer i { st.buffers i with lock := 0, offset := 0, next := st.rootBuff } with
    rootBuff := some i
    buffCount := st.buffCount + 1 }

/-- `buff_push(pool, val->buff)`, `val->buff = 0` -/
def dropBuff (st : State) (v : Nat) : State :=
  match (st.slots v).buff with
  | none => st
  | some i => (buffPush st i).setBuff v none

/-- `free_first_req` -/
def freeFirstReq (st : State) (v : Nat) : State :=
  match (st.slots v).sqBuff with
  | none => st
  | some i => (buffPush st i).setSqBuff v none

/-- `add_event`; the slot is cleared even when it cannot be registered. -/
def addEvent (st : State) (cb : Cb) (fd : Int) (ok : Bool) : Option Nat × State :=
  let r := Pool.addEvent st.w fd ok
  match st.w.free with
  | [] => (r.1, st.setWorld r.2)
  | v :: _ => (r.1, (st.setWorld r.2).setSlot v { cb := cb })

/-- The buffers of a slot that is deleted. -/
def release (st : State) (v : Nat) : State := freeFirstReq (dropBuff st v) v

/-- `del_event`, with the bound of `Pool.delEventFrom` -/
def delEventFrom : Nat → State → Nat → State
  | 0, st, _ => st
  | fuel + 1, st, v =>
    let e := st.w.items v
    if e.fd = -1 then st
    else
      let st := { release st v with w := remove st.w v }
      match e.pair with
      | none => st
      | some p => delEventFrom fuel { st with w := unpair st.w v p } p

def delEvent (st : State) (v : Nat) : State :=
  delEventFrom (st.w.used.length + st.w.free.length + 1) st v

/-- `create_conn`; `fd` is what `socket` answers, which is never a descriptor in use. -/
def createConn (st : State) (v : Nat) (next : Cb) (fd : Option Int) (a : Closing.Connect) :
    Bool × State :=
  match fd.filter (openable st.w) with
  | none => (false, st)
  | some sfd =>
    let st := st.setWorld (st.w.opened sfd)
    if !a.ready then (false, st.setWorld (st.w.close sfd))
    else
      match addEvent st next sfd a.epoll with
      | (none, st) => (false, st.setWorld (st.w.close sfd))
      | (some p, st) =>
        if !a.modified then (false, st)
        else
          let st := st.setWorld (setPair (setPair st.w v p) p v)
          (true, (st.setSlot p { st.slots p with conn := true }).setCb v .ignore)

/-- What the calls of `udp_associate` answer, in their order. -/
structure Associate where
  ufd : Option Int
  /-- the rest of `remote_sock`, and `socket_mod` -/
  ready : Bool
  epoll : Bool
  named : Bool
  cfd : Option Int
  modded : Bool
  bound : Bool
  epollClient : Bool
  /-- all from the second `getsockname` on -/
  replied : Bool
  deriving DecidableEq, Repr

def udpAssociate (st : State) (v : Nat) (a : Associate) : Bool × State :=
  match a.ufd.filter (openable st.w) with
  | none => (false, st)
  | some ufd =>
    let st := st.setWorld (st.w.opened ufd)
    if !a.ready then (false, st.setWorld (st.w.close ufd))
    else
      match addEvent st .udpTunnel ufd a.epoll with
      | (none, st) => (false, st.setWorld (st.w.close ufd))
      | (some p, st) =>
        if !a.named then (false, st)
        else
          match a.cfd.filter (openable st.w) with
          | none => (false, delEvent st p)
          | some cfd =>
            let st := st.setWorld (st.w.opened cfd)
            if !a.modded then (false, delEvent (st.setWorld (st.w.close cfd)) p)
            else if !a.bound then
              let st := delEvent st p
              (false, st.setWorld (st.w.close cfd))
            else
              match addEvent st .udpTunnel cfd a.epollClient with
              | (none, st) =>
                let st := delEvent st p
                (false, st.setWorld (st.w.close cfd))
              | (some c, st) =>
                let st := st.setWorld (setPair (setPair (setPair st.w v c) c p) p v)
                (a.replied, (st.setSlot c { st.slots c with conn := true }).setCb v .ignore)

/-- What `connect_hook` asks. -/
structure Hook where
  /-- `find_dp` -/
  found : Bool
  /-- `(dp->hosts || dp->proto) && params.delay_conn` -/
  late : Bool
  /-- `resp_error` -/
  told : Bool
  /-- `dp->out_type == MODE_SOCKS5` -/
  socks : Bool
  fd : Option Int
  connect : Closing.Connect

def connectHook (st : State) (v : Nat) (h : Hook) : Bool × State :=
  if !h.found then (false, st)
  else if h.late && (st.slots v).buff.isNone then
    if !h.told then (false, st) else (true, st.setCb v .recvAndConnect)
  else createConn st v (if h.socks then .socksConn else .connect) h.fd h.connect

/-- What `on_trigger` and `reconnect` ask. -/
structure Trigger where
  /-- there is a group left, and without `AUTO_NORECONN` -/
  group : Bool
  room : Option Nat
  hook : Hook

/-- `client->buff`, which is taken from the pool if there is none. -/
def takeBuff (st : State) (c size : Nat) (room : Option Nat) : Option (Nat × State) :=
  match (st.slots c).buff with
  | some i => some (i, st)
  | none => (buffPop st size room).map fun r => (r.1, r.2.setBuff c (some r.1))

/-- The saved request comes back into `buff`; `none` is an access through a null pointer. -/
def restore (st : State) (c : Nat) (room : Option Nat) : Option State :=
  match (st.slots c).sqBuff with
  | none => some st
  | some j => (takeBuff st c (st.buffers j).size room).map fun r =>
    r.2.setBuffer r.1 { r.2.buffers r.1 with lock := (r.2.buffers j).lock, offset := 0 }

/-- `reconnect`; `none` is a failed assertion or an access through a null pointer. -/
def reconnect (st : State) (v : Nat) (room : Option Nat) (h : Hook) : Option (Bool × State) :=
  if !(st.slots v).conn then none
  else
    match st.pair v with
    | none => none
    | some c =>
      (restore st c room).map fun st =>
        match connectHook st c h with
        | (false, st) => (false, st)
        | (true, st) =>
          (true, delEvent (st.setWorld (st.w.setItem v { st.w.items v with pair := none })) v)

def onTrigger (st : State) (v : Nat) (alive : Bool) (t : Trigger) : Option (Bool × State) :=
  match st.pair v with
  | none => none
  | some c =>
    let beforeReq := (st.slots c).recvCount == 0 && (st.slots v).recvCount == 0
    let canReconn := ((st.slots c).sqBuff.isSome || beforeReq) && alive
    if t.group && canReconn then reconnect st v t.room t.hook else some (false, st)

/-- What `handle_err` and `on_fin` ask. -/
structure Failure where
  /-- `errno` is one of the four -/
  known : Bool
  /-- `mark` of the client, and no second round -/
  mark : Bool
  trigger : Trigger

def onFin (st : State) (v : Nat) (f : Failure) : Option (Bool × State) :=
  match if (st.slots v).conn then some v else st.pair v with
  | none => some (false, st)
  | some r =>
    if (st.pair r).isNone then none
    else if !f.mark then some (false, st)
    else onTrigger st r (st.slots v).conn f.trigger

def handleErr (st : State) (v : Nat) (f : Failure) : Option (Bool × State) :=
  if !f.known then some (false, st)
  else if (st.slots v).conn then onTrigger st v true f.trigger
  else onFin st v f

/-- What `recv` answers, and how the bytes are judged. -/
inductive Recv where
  | eof (f : Failure)
  | again
  | failed (f : Failure)
  /-- `settled` is `cancel_setup`; a response may call for another group -/
  | bytes (n : Nat) (settled : Bool) (response : Option Trigger) (room : Option Nat)

def code (r : Bool × State) : Int × State := (if r.1 then 0 else -1, r.2)

/-- The client's bytes behind the saved request; `val->sq_buff` is there. -/
def extend (st : State) (v j n : Nat) : State :=
  let lock := (st.buffers j).lock + n
  let st := st.setBuffer j { st.buffers j with lock := lock }
  if (st.buffers j).size ≤ lock then freeFirstReq st v else st

def saveRequest (st : State) (v i n : Nat) (room : Option Nat) : Int × State :=
  match (st.slots v).sqBuff with
  | some j => (n, extend st v j n)
  | none =>
    match buffPop st (st.buffers i).size room with
    | none => (-1, st)
    | some (j, st) => (n, extend (st.setSqBuff v (some j)) v j n)

/-- `tcp_recv_hook` into the buffer `i` -/
def tcpRecvHook (p : Params) (st : State) (v i : Nat) : Recv → Option (Int × State)
  | .eof f => (onFin st v f).map code
  | .again => some (0, st)
  | .failed f => (handleErr st v f).map code
  | .bytes n settled response room =>
    let st := st.received v n
    if (st.slots v).conn then
      match st.pair v with
      | none => none
      | some c =>
        if !settled then some (-1, st)
        else if (st.slots c).sqBuff.isNone then some (n, st)
        else
          match response with
          | none => some (n, freeFirstReq st c)
          | some t =>
            (onTrigger st v true t).bind fun r =>
              if r.1 then some (0, r.2) else (r.2.pair v).map fun c => (n, freeFirstReq r.2 c)
    else if p.autoReconnect && ((st.slots v).sqBuff.isSome || (st.slots v).recvCount == n) then
      some (saveRequest st v i n room)
    else some (n, st)

/-- What `send` or `desync` answers. -/
inductive Send where
  | again
  /-- `setup_conn` -/
  | refused
  | failed (f : Failure)
  /-- `desync` leaves `n` in `*n` -/
  | sent (sn : Nat) (n : Int) (wait : Bool)

/-- What is left in `*n`. -/
def Send.length (n : Int) : Send → Int
  | .sent _ m _ => m
  | _ => n

def Send.wait : Send → Bool
  | .sent _ _ wait => wait
  | _ => false

/-- `tcp_send_hook` to the slot `q` -/
def tcpSendHook (st : State) (q : Nat) (a : Send) : Option (Int × State) :=
  if (st.slots q).conn && (st.pair q).isNone then none
  else
    match a with
    | .again => some (0, st)
    | .refused => some (-1, st)
    | .failed f => (handleErr st q f).map code
    | .sent sn _ _ => if (st.pair q).isNone then none else some (sn, st)

structure Turn where
  recv : Recv
  send : Send
  /-- both `mod_etype`, if the bytes are not all sent -/
  modified : Bool

/-- The loop of `on_tunnel` over its turns -/
def tunnelLoop (p : Params) (v q i : Nat) : List Turn → State → Option (Bool × State)
  | [], _ => none
  | t :: ts, st =>
    (tcpRecvHook p st v i t.recv).bind fun r =>
      if r.1 = 0 then some (true, dropBuff r.2 v)
      else if r.1 < 0 then some (false, r.2)
      else
        (tcpSendHook r.2 q t.send).bind fun s =>
          let n := t.send.length r.1
          if s.1 < 0 then some (false, s.2)
          else if s.1 < n || t.send.wait then
            some (t.modified,
              s.2.setBuffer i { s.2.buffers i with lock := n, offset := s.1 })
          else if n = (s.2.buffers i).size then tunnelLoop p v q i ts s.2
          else some (true, dropBuff s.2 v)

/-- What `on_tunnel` asks once it has chosen its direction. -/
structure Relay where
  send : Send
  /-- both `mod_etype` behind it -/
  modified : Bool
  room : Option Nat
  turns : List Turn

def receive (p : Params) (st : State) (v q : Nat) (a : Relay) : Option (Bool × State) :=
  match buffPop st p.bfsize a.room with
  | none => some (false, st)
  | some (i, st) => tunnelLoop p v q i a.turns (st.setBuff v (some i))

/-- `on_tunnel` from `if (val->buff)` on -/
def relay (p : Params) (st : State) (v q : Nat) (a : Relay) : Option (Bool × State) :=
  match (st.slots v).buff with
  | none => receive p st v q a
  | some i =>
    let n := (st.buffers i).lock - (st.buffers i).offset
    (tcpSendHook st q a.send).bind fun s =>
      if s.1 < 0 then some (false, s.2)
      else
        let st := s.2.setBuffer i { s.2.buffers i with lock := a.send.length (s.2.buffers i).lock }
        if s.1 < n || a.send.wait then
          (st.slots v).buff.map fun i => (a.modified,
            st.setBuffer i { st.buffers i with offset := (st.buffers i).offset + s.1 })
        else
          let st := dropBuff st v
          if !a.modified then some (false, st) else receive p st v q a

/-- What an event for `on_tunnel` says. -/
inductive Tide where
  /-- `POLLTIMEOUT`; `due` is that timeouts are counted, `last` that this is one too many -/
  | timeout (due last : Bool) (t : Trigger)
  | writable
  | other

/-- The other direction -/
def relayPair (p : Params) (st : State) (q : Nat) (a : Relay) : Option (Bool × State) :=
  (st.pair q).bind fun v => relay p st q v a

def onTunnel (p : Params) (st : State) (v : Nat) (e : Tide) (a : Relay) : Option (Bool × State) :=
  match st.pair v with
  | none => some (false, st)
  | some q =>
    match e with
    | .timeout due last t =>
      if (st.slots v).buff.isNone && (st.slots q).buff.isNone then
        if due && last then onTrigger st v true t else some (true, st)
      else if (st.slots v).buff.isNone then relayPair p st q a
      else relay p st v q a
    | .writable =>
      if (st.slots v).buff.isNone && (st.slots q).buff.isSome then relayPair p st q a
      else relay p st v q a
    | .other => relay p st v q a

/-- An event for `on_connect`. -/
inductive Connected where
  /-- `POLLERR`; `known` is that the error is one of the three -/
  | failed (known : Bool) (t : Trigger)
  | done (modified told : Bool) (e : Tide) (a : Relay)

def onConnect (p : Params) (st : State) (v : Nat) : Connected → Option (Bool × State)
  | .failed known t => if known then onTrigger st v true t else some (false, st)
  | .done modified told e a =>
    (st.pair v).bind fun c =>
      if !modified then some (false, st)
      else
        let st := (st.setCb v .tunnel).setCb c .tunnel
        if (st.slots c).buff.isSome then onTunnel p st v e a else some (told, st)

/-- `save_buffer`; `none` is a failed assertion. -/
def saveBuffer (p : Params) (st : State) (v i n : Nat) (room room' : Option Nat) :
    Option (Bool × State) :=
  match buffPop st p.bfsize room with
  | none => none
  | some (j, st) =>
    let st := st.setBuff v (some j)
    if j ≠ i then none
    else
      let st := st.setBuffer j { st.buffers j with lock := n }
      let st := st.setSlot v { st.slots v with recvCount := n }
      if p.autoReconnect then
        match buffPop st p.bfsize room' with
        | none => some (false, st)
        | some (k, st) =>
          some (true, (st.setSqBuff v (some k)).setBuffer k { st.buffers k with lock := n })
      else some (true, st)

/-- What a client's first message is. -/
inductive Message where
  /-- nothing, or nothing that is served -/
  | refused
  /-- the greeting of SOCKS5 -/
  | greeting
  | connect (h : Hook)
  | associate (a : Associate)
  /-- `n` bytes of it are payload -/
  | payload (n : Nat) (room room' : Option Nat) (h : Hook)

def onRequest (p : Params) (st : State) (v : Nat) (room : Option Nat) (m : Message) :
    Option (Bool × State) :=
  match buffPop st p.bfsize room with
  | none => some (false, st)
  | some (i, st) =>
    let st := buffPush st i
    match m with
    | .refused => some (false, st)
    | .greeting => some (true, st)
    | .connect h => some (connectHook st v h)
    | .associate a => some (udpAssociate st v a)
    | .payload n room room' h =>
      (saveBuffer p st v i n room room').map fun r =>
        if r.1 then connectHook r.2 v h else (false, r.2)

def recvAndConnect (p : Params) (st : State) (v : Nat) (room : Option Nat) (a : Recv) (h : Hook) :
    Option (Bool × State) :=
  match buffPop st p.bfsize room with
  | none => some (false, st)
  | some (i, st) =>
    (tcpRecvHook p (st.setBuff v (some i)) v i a).bind fun r =>
      if (r.2.slots v).buff ≠ some i then none
      else
        let st := r.2.setBuffer i { r.2.buffers i with lock := r.1 }
        if r.1 ≤ 0 then some (false, st) else some (connectHook st v h)

/-- `on_udp_tunnel`, which receives into a buffer that it has given back. -/
def onUdpTunnel (p : Params) (st : State) (v : Nat) (room : Option Nat) (n : Nat) (ok : Bool) :
    Option (Bool × State) :=
  match buffPop st p.bfsize room with
  | none => some (false, st)
  | some (i, st) =>
    let st := buffPush st i
    let pair := if (st.slots v).conn then st.pair v else (st.pair v).bind st.pair
    pair.map fun _ => (ok, st.received v n)

/-- One turn of `on_accept` -/
structure Accepted where
  fd : Option Int
  /-- `setsockopt` -/
  ready : Bool
  epoll : Bool
  /-- `transp_conn`, where it is asked for, up to its `connect_hook` -/
  transparent : Option (Bool × Hook)
  /-- no other mode is on -/
  only : Bool

def acceptOne (st : State) (a : Accepted) : State :=
  match a.fd.filter (openable st.w) with
  | none => st
  | some c =>
    let st := st.setWorld (st.w.opened c)
    if !a.ready then st.setWorld (st.w.close c)
    else
      match addEvent st .request c a.epoll with
      | (none, st) => st.setWorld (st.w.close c)
      | (some r, st) =>
        match a.transparent with
        | none => st
        | some (known, h) =>
          let hooked := if known then connectHook st r h else (false, st)
          if !hooked.1 && a.only then delEvent hooked.2 r else hooked.2

/-- What an event brings. -/
inductive Answers where
  | ctrl
  /-- the flag is whether `accept` ends with `EAGAIN` -/
  | accept (as : List Accepted) (again : Bool)
  | request (room : Option Nat) (m : Message)
  | connect (a : Connected)
  | tunnel (e : Tide) (a : Relay)
  | udp (room : Option Nat) (n : Nat) (ok : Bool)
  | ignore (hup : Bool)
  | recv (room : Option Nat) (a : Recv) (h : Hook)
  /-- the greeting in `on_socks_conn`, and its answer in `on_socks_recv` -/
  | socks (ok : Bool)
  /-- `after_conn_cb` in either of them -/
  | after (a : Connected)

/-- The callback of a slot; it is -1 that is `false`. -/
def callback (p : Params) (st : State) (v : Nat) (a : Answers) : Option (Bool × State) :=
  match (st.slots v).cb, a with
  | .ctrl, .ctrl => some (true, st)
  | .accept, .accept as again => some (again, as.foldl acceptOne st)
  | .request, .request room m => onRequest p st v room m
  | .connect, .connect a => onConnect p st v a
  | .tunnel, .tunnel e a => onTunnel p st v e a
  | .udpTunnel, .udp room n ok => onUdpTunnel p st v room n ok
  | .ignore, .ignore hup => some (!hup, st)
  | .recvAndConnect, .recv room a h => recvAndConnect p st v room a h
  | .socksConn, .socks ok => some (ok, if ok then st.setCb v .socksRecv else st)
  | .socksConn, .after a => onConnect p st v a
  | .socksRecv, .socks true => some (true, st)
  | .socksRecv, .after (.failed known t) => onConnect p st v (.failed known t)
  | .socksRecv, .after (.done modified told e a) =>
    onConnect p (st.setCb v .connect) v (.done modified told e a)
  | _, _ => none

inductive Act where
  /-- `init_pool` and `start_event_loop` register the control pipe and the listener -/
  | listen (cb : Cb) (fd : Int) (epoll : Bool)
  | event (v : Nat) (a : Answers)
  /-- `del_event` after a callback that has failed -/
  | close

/-- Between two events no callback has failed; events come for slots in use. -/
def step (p : Params) (st : State) : Act → Option State
  | .listen cb fd epoll =>
    if st.failed = none ∧ 0 < fd ∧ (cb = .ctrl ∨ cb = .accept) then
      some (addEvent st cb fd epoll).2
    else none
  | .event v a =>
    if st.failed = none ∧ v ∈ st.w.used then
      (callback p st v a).map fun r => if r.1 then r.2 else { r.2 with failed := some v }
    else none
  | .close => st.failed.map fun v => { delEvent st v with failed := none }

def start (max : Nat) : State where
  w := { free := List.range max }

end Buffers
