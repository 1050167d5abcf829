import NoZapret.Groups
import NoZapret.Tunnel

/-!
# A SOCKS5 UDP association

`on_udp_tunnel` with `s5_get_addr`, `udp_hook` and `desync_udp`, one datagram at a time. The
outgoing socket is connected when the first datagram has been parsed; every later `send`
goes to the peer of that `connect`.
-/

namespace UdpTunnel

open Block Packets Groups Runs

inductive Ip where
  | v4 (a : Bytes)
  | v6 (a : Bytes)
  deriving DecidableEq, Repr

/-- `union sockaddr_u`; the port is `sin_port` as it is stored, in network order. -/
structure Addr where
  ip : Ip
  sinPort : Nat
  deriving DecidableEq, Repr

def ntohs (x : Nat) : Nat := x % 256 * 256 + x / 256 % 256

def mapped : Bytes := List.replicate 10 0 ++ [0xff, 0xff]

def Ip.isV6 : Ip → Bool
  | .v4 _ => false
  | .v6 _ => true

/-- `map_fix(addr, 6)` -/
def mapFix6 (a : Addr) : Addr :=
  match a.ip with
  | .v4 b => { a with ip := .v6 (mapped ++ b) }
  | .v6 _ => a

/-- `map_fix(addr, 0)` -/
def mapFix0 (a : Addr) : Addr :=
  match a.ip with
  | .v4 _ => a
  | .v6 b => if b.take 12 = mapped then { a with ip := .v4 (b.drop 12) } else a

/-- One host in either form. -/
def SameDest (a b : Addr) : Prop := mapFix6 a = mapFix6 b

instance (a b : Addr) : Decidable (SameDest a b) :=
  inferInstanceAs (Decidable (mapFix6 a = mapFix6 b))

def Addr.dst (a : Addr) : Dst :=
  match a.ip with
  | .v4 b => { inet := true, ip := b, port := a.sinPort }
  | .v6 b => { inet := false, mapped := b.take 12 == mapped, ip := b, port := a.sinPort }

/-- What `desync_udp` reads of a group. -/
structure UdpGroup extends Group where
  rounds : Nat × Nat := (0, 0)
  udpFakeCount : Nat := 0
  fakeData : Option Bytes := none
  /-- `fake_offset.pos` where `fake_offset.m` is set -/
  fakeOffset : Option Int := none

structure Env where
  groups : List UdpGroup
  blockQuic : Bool := false
  resolve : Bool := true
  ipv6 : Bool := true
  /-- `baddr` is an IPv6 address -/
  baddr6 : Bool := true

/-- A system call; `soft` is a failure with `EMSGSIZE` or `ECONNREFUSED`. -/
inductive Outcome where
  | ok
  | soft
  | hard
  deriving DecidableEq, Repr

/-- A datagram of the client in the buffer, and what the calls made for it return. -/
structure Datagram where
  src : Addr
  data : Bytes
  n : Nat
  fits : n ≤ data.length
  /-- `getaddrinfo` -/
  resolved : Option Ip := none
  /-- the two calls of `connect` -/
  joins : Bool := true
  connects : Bool := true
  /-- `send` and `setttl`, in the order they are called -/
  calls : List Outcome := []
  /-- `errno` where `udp_hook` fails without a call -/
  errno : Outcome := .hard

structure Packet where
  dest : Addr
  payload : Bytes
  decoy : Bool
  deriving DecidableEq, Repr

/-- The `eval`s of both sockets, the peer of the outgoing one, and what was sent. -/
structure State where
  client : Addr
  peer : Option Addr := none
  dp : Option UdpGroup := none
  roundCount : Nat := 0
  roundSent : Nat := 0
  remoteCount : Nat := 0
  remoteSent : Nat := 0
  closed : Bool := false
  log : List Packet := []
  /-- the answers to the client, with the address in their header -/
  answers : List (Addr × Bytes) := []

namespace State

def close (st : State) : State := { st with closed := true }

/-- `!pair->addr.in.sin_port` -/
def unconnected (st : State) : Bool := st.peer.all fun a => a.sinPort == 0

/-- The counters for a datagram from the client. -/
def received (st : State) (n : Nat) : State :=
  if st.roundSent = 0 then
    { st with roundCount := st.roundCount + 1, roundSent := n, remoteSent := 0 }
  else st

/-- The same for one from the remote side. -/
def receivedBack (st : State) (n : Nat) : State :=
  if st.remoteSent = 0 then
    { st with remoteCount := st.remoteCount + 1, remoteSent := n, roundSent := 0 }
  else st

end State

def port (b : Bytes) (i : Int) : Option Nat := do
  return (← rd b i).toNat + 256 * (← rd b (i + 1)).toNat

/-- The address and the length of the header, or an error. For another address type the
port is read in front of the buffer. -/
def s5GetAddr (env : Env) (d : Datagram) : Option (Option (Addr × Nat)) := do
  if d.n < 8 then return none
  let atp ← rd d.data 3
  if atp = 1 then
    if d.n < 10 then return none
    return some (⟨.v4 (← slice d.data 4 4), ← port d.data 8⟩, 10)
  else if atp = 3 then
    let len := (← rd d.data 4).toNat
    if d.n < len + 7 then return none
    if !env.resolve || len < 3 then return none
    let some ip := d.resolved | return none
    return some (⟨ip, ← port d.data (len + 5)⟩, len + 7)
  else if atp = 4 then
    if d.n < 22 then return none
    if !env.ipv6 then return none
    return some (⟨.v6 (← slice d.data 4 16), ← port d.data 20⟩, 22)
  else none

/-- `send` of one datagram: the outcome, what has left, and the calls still to come. -/
def send (peer : Addr) (payload : Bytes) (decoy : Bool) (calls : List Outcome) :
    Outcome × List Packet × List Outcome :=
  match calls.head?.getD .ok with
  | .ok => (.ok, [⟨peer, payload, decoy⟩], calls.tail)
  | e => (e, [], calls.tail)

/-- The loop over the decoys. -/
def sendFakes (peer : Addr) (pkt : Bytes) : Nat → List Outcome →
    Outcome × List Packet × List Outcome
  | 0, calls => (.ok, [], calls)
  | count + 1, calls =>
    match send peer pkt true calls with
    | (.ok, sent, calls) =>
      let (e, more, calls) := sendFakes peer pkt count calls
      (e, sent ++ more, calls)
    | r => r

/-- `udp_data`, or what `--fake-data` gives, from `fake_offset` on. -/
def fakePacket (dp : UdpGroup) : Option Bytes :=
  let pkt := dp.fakeData.getD (List.replicate 64 0)
  match dp.fakeOffset with
  | none => some pkt
  | some pos => if pos < pkt.length then slice pkt pos (pkt.length - pos) else some []

def desyncUdp (dp : UdpGroup) (peer : Addr) (payload : Bytes) (calls : List Outcome) :
    Option (Outcome × List Packet) := do
  if dp.udpFakeCount = 0 then
    let (e, sent, _) := send peer payload false calls
    return (e, sent)
  let pkt ← fakePacket dp
  -- setttl
  if calls.head?.getD .ok ≠ .ok then return (calls.head?.getD .ok, [])
  match sendFakes peer pkt dp.udpFakeCount calls.tail with
  | (.ok, fakes, calls) =>
    if calls.head?.getD .ok ≠ .ok then return (calls.head?.getD .ok, fakes)
    let (e, sent, _) := send peer payload false calls.tail
    return (e, fakes ++ sent)
  | (e, fakes, _) => return (e, fakes)

/-- The group of the association, chosen for the peer when the first datagram leaves. -/
def chooseDp (env : Env) (st : State) (peer : Addr) : Option UdpGroup :=
  match st.dp with
  | some dp => some dp
  | none => env.groups.find? fun dp => dp.detect == 0 && checkL34 dp.toGroup .dgram peer.dst

def State.failed (st : State) (e : Outcome) : State :=
  match e with
  | .ok | .soft => st
  | .hard => st.close

/-- A round outside `dp->rounds` is sent as it is. -/
def hookSends (dp : UdpGroup) (r : Nat) (peer : Addr) (payload : Bytes) (calls : List Outcome) :
    Option (Outcome × List Packet) :=
  if Tunnel.checkRound dp.rounds r then desyncUdp dp peer payload calls
  else
    let (e, sent, _) := send peer payload false calls
    some (e, sent)

def udpHook (env : Env) (st : State) (d : Datagram) (peer : Addr) (payload : Bytes) :
    Option State :=
  match chooseDp env st peer with
  | none => some (st.failed d.errno)
  | some dp => do
    let (e, sent) ← hookSends dp st.roundCount peer payload d.calls
    return { st with dp := some dp, log := st.log ++ sent }.failed e

/-- The address in the family of `baddr`, where there is one. -/
def localForm (env : Env) (addr : Addr) : Addr := if env.baddr6 then mapFix6 addr else addr

/-- The outgoing socket is connected unless it is so already. -/
def connectPeer (env : Env) (st : State) (d : Datagram) (addr : Addr) : Option State :=
  if st.unconnected then
    if env.baddr6 != (localForm env addr).ip.isV6 || !d.connects then none
    else some { st with peer := some (localForm env addr) }
  else some st

def forward (env : Env) (st : State) (d : Datagram) : Option State := do
  if (← rd d.data 2) ≠ 0 then return st
  match ← s5GetAddr env d with
  | none => return st.close
  | some (addr, offs) =>
    if env.blockQuic && ntohs addr.sinPort == 443 then return st
    match connectPeer env st d addr with
    | none => return st.close
    | some st =>
      let peer ← st.peer
      udpHook env st d peer (← slice d.data offs ((d.n : Int) - offs))

/-- A datagram from the client, from the address that its first one came from. -/
def fromClient (env : Env) (st : State) (d : Datagram) : Option State :=
  let st := st.received d.n
  if st.client.sinPort = 0 then
    if d.src.ip ≠ st.client.ip then some st
    else if !d.joins then some st.close
    else forward env { st with client := d.src } d
  else forward env st d

inductive Act where
  | datagram (d : Datagram)
  | answer (src : Addr) (payload : Bytes) (e : Outcome)

def step (env : Env) (st : State) (act : Act) : Option State :=
  if st.closed then none
  else
    match act with
    | .datagram d => fromClient env st d
    | .answer src payload e =>
      let st := st.receivedBack payload.length
      match e with
      | .ok => some { st with answers := st.answers ++ [(mapFix0 src, payload)] }
      | e => some (st.failed e)

/-- After `udp_associate`: the client's address without a port, and no peer. -/
def associate (ip : Ip) : State := { client := ⟨ip, 0⟩ }

/-- The header names this destination, and the payload follows it. -/
def Names (env : Env) (d : Datagram) (addr : Addr) (payload : Bytes) : Prop :=
  ∃ offs : Nat, s5GetAddr env d = some (some (addr, offs)) ∧
    slice d.data offs ((d.n : Int) - offs) = some payload

/-- What the step sends, other than decoys, is the payload of its datagram to the
destination in its header. -/
def Own (env : Env) (st : State) : Act → Prop
  | .datagram d => ∀ st', step env st (.datagram d) = some st' → ∃ sent, st'.log = st.log ++ sent ∧
      ∀ p ∈ sent, p.decoy = false → ∃ addr, Names env d addr p.payload ∧ SameDest p.dest addr
  | .answer _ _ _ => True

section Sends

variable {peer : Addr} {payload pkt : Bytes} {calls rest : List Outcome} {e : Outcome}
  {sent : List Packet} {decoy : Bool}

/-- Everything goes to the peer, and what is not a decoy is the payload. -/
def Only (peer : Addr) (payload : Bytes) (sent : List Packet) : Prop :=
  ∀ p ∈ sent, p.dest = peer ∧ (p.decoy = false → p.payload = payload)

lemma Only.append {more : List Packet} (h : Only peer payload sent)
    (h' : Only peer payload more) : Only peer payload (sent ++ more) := by
  intro p hp
  rcases List.mem_append.mp hp with hp | hp
  · exact h p hp
  · exact h' p hp

end Sends

section Step

variable {env : Env} {st st' : State} {d : Datagram} {peer addr : Addr} {payload : Bytes}

/-- With `--block-quic` neither the peer nor a packet that has left is on port 443. -/
structure NoQuic (st : State) : Prop where
  peer : ∀ a, st.peer = some a → ntohs a.sinPort ≠ 443
  log : ∀ p ∈ st.log, ntohs p.dest.sinPort ≠ 443

lemma NoQuic.congr (h : NoQuic st) (hlog : st'.log = st.log) (hpeer : st'.peer = st.peer) :
    NoQuic st' := by
  constructor
  · rw [hpeer]
    exact h.peer
  · rw [hlog]
    exact h.log

def oneGroup : Env := { groups := [{ id := 0 }] }

def clientAddr : Addr := ⟨.v4 [127, 0, 0, 1], 1⟩

/-- "A" for 1.2.3.4, port 53. -/
def first : Datagram :=
  { src := clientAddr, data := [0, 0, 0, 1, 1, 2, 3, 4, 0, 53, 65], n := 11, fits := by decide }

/-- "B" for 5.6.7.8, port 53. -/
def second : Datagram :=
  { src := clientAddr, data := [0, 0, 0, 1, 5, 6, 7, 8, 0, 53, 66], n := 11, fits := by decide }

end Step

end UdpTunnel
