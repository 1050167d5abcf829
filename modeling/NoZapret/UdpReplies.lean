import NoZapret.SocksAddr

/-!
# Datagrams for the client

The replies in `on_udp_tunnel`. A datagram is received behind a gap of `S_SIZE_I6` bytes, and the
address of its sender is written in front of it, at the end of the gap.
-/

namespace UdpReplies

open Block Packets SocksAddr

section Set

/-- What `s5_set_addr` writes, from the type of the address on. -/
def header (addr : SockAddr) : Bytes :=
  match addr.family with
  | .inet => 0x01 :: (addr.sinAddr.bytes ++ addr.sinPort.bytes)
  | .inet6 => 0x04 :: (addr.sin6Addr.bytes ++ addr.sinPort.bytes)

/-- `S_SIZE_I4` and `S_SIZE_I6` -/
def size (addr : SockAddr) : Nat :=
  match addr.family with
  | .inet => 10
  | .inet6 => 22

variable {addr : SockAddr} {pos : Int} {n : Nat} {atEnd : Bool}

lemma size_le (addr : SockAddr) : 10 ≤ size addr ∧ size addr ≤ 22 := by
  unfold size
  split <;> omega

lemma wr_text {p q : Bytes} {x y z t v : UInt8} :
    wr (p ++ x :: y :: z :: t :: q) ((p.length : Int) + 3) v = some (p ++ x :: y :: z :: v :: q) := by
  have hat : ((p.length : Int) + 3).toNat = p.length + 3 := by omega
  unfold wr
  rw [if_pos (by simp only [List.length_append, List.length_cons]; omega), hat,
    List.set_append_right _ _ (by omega)]
  simp

lemma blit_octets {k : Nat} {m : Int} {p f r : Bytes} {o : Octets k} (new : Octets k)
    (hm : (f.length : Int) = m) :
    blit (p ++ (f ++ (o.bytes ++ r))) ((p.length : Int) + m) new.bytes =
      some (p ++ (f ++ (new.bytes ++ r))) := by
  have h := blit_text (p := p ++ f) (r := r) (new.size.trans o.size.symm)
  rw [List.length_append, List.append_assoc, List.append_assoc, Int.natCast_add, hm] at h
  exact h

lemma set_text {p rest : Bytes} {x y z : UInt8} {gap : Bytes}
    (hgap : gap.length + 3 = size addr) (hn : size addr ≤ n)
    (hpos : (if atEnd then pos - size addr else pos) = p.length) :
    s5SetAddr (p ++ x :: y :: z :: (gap ++ rest)) pos n addr atEnd =
      some ((size addr : Int), p ++ x :: y :: z :: (header addr ++ rest)) := by
  have hten := (size_le addr).1
  match gap, hgap with
  | [], hgap => simp only [List.length_nil] at hgap; omega
  | t :: gap, hgap =>
    unfold s5SetAddr
    rw [if_neg (by omega)]
    unfold size at hpos hgap hn
    cases hfamily : addr.family with
    | inet =>
      simp only [hfamily, List.length_cons] at hpos hgap hn
      obtain ⟨ip, gap, rfl⟩ := exists_octets (show 4 ≤ gap.length by omega)
      rw [List.length_append, ip.size] at hgap
      obtain ⟨port, gap, rfl⟩ := exists_octets (show 2 ≤ gap.length by omega)
      rw [List.length_append, port.size] at hgap
      obtain rfl : gap = [] := List.length_eq_zero_iff.mp (by omega)
      have hip := blit_octets (m := 4) (p := p) (f := [x, y, z, 0x01]) (o := ip)
        (r := port.bytes ++ rest) addr.sinAddr rfl
      have hport := blit_octets (m := 8) (p := p) (f := [x, y, z, 0x01] ++ addr.sinAddr.bytes)
        (o := port) (r := rest) addr.sinPort (by simp [addr.sinAddr.size])
      simp only [List.cons_append, List.nil_append] at hip hport
      have hcast : ((10 : Nat) : Int) = 10 := rfl
      rw [hcast] at hpos
      simp only [Option.bind_eq_bind, hpos, List.cons_append, List.append_assoc, List.nil_append,
        wr_text, Option.bind_some, hip, hport, size, header, hfamily]
      rfl
    | inet6 =>
      simp only [hfamily, List.length_cons] at hpos hgap hn
      obtain ⟨ip, gap, rfl⟩ := exists_octets (show 16 ≤ gap.length by omega)
      rw [List.length_append, ip.size] at hgap
      obtain ⟨port, gap, rfl⟩ := exists_octets (show 2 ≤ gap.length by omega)
      rw [List.length_append, port.size] at hgap
      obtain rfl : gap = [] := List.length_eq_zero_iff.mp (by omega)
      have hip := blit_octets (m := 4) (p := p) (f := [x, y, z, 0x04]) (o := ip)
        (r := port.bytes ++ rest) addr.sin6Addr rfl
      have hport := blit_octets (m := 20) (p := p)
        (f := [x, y, z, 0x04] ++ addr.sin6Addr.bytes) (o := port) (r := rest) addr.sinPort
        (by simp [addr.sin6Addr.size])
      simp only [List.cons_append, List.nil_append] at hip hport
      have hcast : ((22 : Nat) : Int) = 22 := rfl
      rw [hcast] at hpos
      simp only [Option.bind_eq_bind, hpos, List.cons_append, List.append_assoc, List.nil_append,
        wr_text, Option.bind_some, hip, hport, size, header, hfamily]
      rw [if_neg (by omega)]
      rfl

/-- What was written is an address again. -/
lemma header_encodes {env : Env} (hv6 : env.ipv6 = true) (addr : SockAddr) (x y z : UInt8)
    (rest : Bytes) :
    Encodes env (x :: y :: z :: (header addr ++ rest)) (size addr) addr.ip addr.sinPort := by
  unfold header size SockAddr.ip
  cases addr.family with
  | inet =>
    simp only [List.cons_append, List.append_assoc]
    exact .v4 addr.sinAddr addr.sinPort rest
  | inet6 =>
    simp only [List.cons_append, List.append_assoc]
    exact .v6 hv6 addr.sin6Addr addr.sinPort rest

lemma header_length (addr : SockAddr) : (header addr).length + 3 = size addr := by
  unfold header size
  cases addr.family <;>
    simp only [List.length_cons, List.length_append, addr.sinAddr.size, addr.sin6Addr.size,
      addr.sinPort.size]

end Set

/-- `s5_get_addr` takes this address and port from the front of a message. -/
def Spells (env : Env) (d : Bytes) (k : Nat) (ip : Ip) (port : Octets 2) : Prop :=
  ∀ addr, ∃ a, s5GetAddr env d d.length addr = some ((k : Int), a) ∧ a.ip = ip ∧ a.sinPort = port

lemma spells {env : Env} {d : Bytes} {k : Nat} {ip : Ip} {port : Octets 2}
    (h : Encodes env d k ip port) : Spells env d k ip port :=
  fun addr => h.get addr

/-- What `send` returns; `soft` is a failure with `EMSGSIZE` or `ECONNREFUSED`. -/
inductive Outcome where
  | ok
  | soft
  | hard
  deriving DecidableEq, Repr

/-- A datagram from the remote side and what becomes of its `send`. -/
structure Reply where
  sender : Ip
  port : Octets 2
  payload : Bytes
  sent : Outcome

/-- What `recvfrom` returns, up to where it would block. -/
inductive Arrival where
  | reply (r : Reply)
  | soft
  | hard

def Ip.family : Ip → Family
  | .v4 _ => .inet
  | .v6 _ => .inet6

/-- What waits in a socket: it has senders of its own family only. -/
structure Inbox where
  family : Family
  arrivals : List Arrival
  same : ∀ r, .reply r ∈ arrivals → Ip.family r.sender = family

/-- `recvfrom` -/
def receive (b : Bytes) (addr : SockAddr) (r : Reply) : Option (Bytes × SockAddr) := do
  return (← blit b 22 r.payload, { addr.store r.sender with sinPort := r.port })

/-- The datagram for the client, and the buffer and `addr` afterwards; `none` inside is the
`return -1`. -/
def answer (b : Bytes) (addr : SockAddr) (r : Reply) :
    Option (Option (Bytes × Bytes × SockAddr)) := do
  let (b, addr) ← receive b addr r
  let addr := mapFix addr false
  let b ← memset b 0 0 22
  let (offs, b) ← s5SetAddr b 22 22 addr true
  if offs < 0 ∨ offs > 22 then return none
  return some (← slice b (22 - offs) (offs + r.payload.length), b, addr)

/-- The loop of `on_udp_tunnel` for the remote socket: what it sends and what it returns. -/
def tunnelLoop (b : Bytes) (addr : SockAddr) : List Arrival → Option (List Bytes × Int)
  | [] => some ([], 0)
  | .soft :: rest => tunnelLoop b addr rest
  | .hard :: _ => some ([], -1)
  | .reply r :: rest => do
    match ← answer b addr r with
    | none => return ([], -1)
    | some (d, b, addr) =>
      if r.sent = .hard then return ([d], -1)
      let (ds, ret) ← tunnelLoop b addr rest
      return (d :: ds, ret)

/-- A mapped address as the one that is mapped. -/
def plain : Ip → Ip
  | .v4 ip => .v4 ip
  | .v6 ip => if ip.bytes.take 12 = mapped then .v4 (unmap ip) else .v6 ip

/-- A datagram for the client that is right for a reply. -/
def Carries (env : Env) (d : Bytes) (r : Reply) : Prop :=
  ∃ head : Bytes, d = head ++ r.payload ∧ head.take 3 = [0, 0, 0] ∧
    Spells env d head.length (plain r.sender) r.port

/-- The replies that are sent on. -/
def relayed : List Arrival → List Reply
  | [] => []
  | .soft :: rest => relayed rest
  | .hard :: _ => []
  | .reply r :: rest => r :: if r.sent = .hard then [] else relayed rest

/-- `s5_get_addr` reads what `s5_set_addr` wrote, on either side of its pointer. -/
def SetGet (env : Env) : Prop :=
  ∀ (b : Bytes) (pos : Int) (n : Nat) (addr : SockAddr) (atEnd : Bool) (start : Nat),
    (if atEnd then pos - size addr else pos) = start → size addr ≤ n →
    start + size addr ≤ b.length →
    ∃ b', s5SetAddr b pos n addr atEnd = some ((size addr : Int), b') ∧ b'.length = b.length ∧
      ∀ m : Nat, size addr ≤ m → start + m ≤ b.length →
        ∃ d, slice b' start m = some d ∧ Spells env d (size addr) addr.ip addr.sinPort

section Replies

variable {env : Env} {b : Bytes} {addr : SockAddr} {r : Reply} {f : Family}

/-- In a socket for IPv4 nothing ever reaches the rest of `sin6_addr`. -/
def Clean (f : Family) (addr : SockAddr) : Prop :=
  f = .inet → addr.sin6Addr.bytes.drop 8 = List.replicate 8 0

lemma Clean.zero (f : Family) : Clean f .zero := fun _ => by
  simp [SockAddr.zero, Octets.zero]

lemma take_ne_mapped {a : Octets 16} (h : a.bytes.drop 8 = List.replicate 8 0) :
    a.bytes.take 12 ≠ mapped := by
  intro htake
  have hget : a.bytes[10]? = some 0 := by
    have hdrop := congrArg (·[2]?) h
    exact List.getElem?_drop.symm.trans hdrop
  have hmapped : (a.bytes.take 12)[10]? = some 0xff := by
    rw [htake]
    rfl
  rw [List.getElem?_take_of_lt (by decide), hget] at hmapped
  exact absurd hmapped (by decide)

/-- The address after `map_fix` is the sender's. -/
lemma mapFix_received (hclean : Clean f addr) (hfamily : Ip.family r.sender = f) :
    ∃ a, mapFix { addr.store r.sender with sinPort := r.port } false = a ∧
      a.ip = plain r.sender ∧ a.sinPort = r.port ∧ Clean f a := by
  refine ⟨_, rfl, ?_⟩
  cases hs : r.sender with
  | v4 ip =>
    rw [hs] at hfamily
    have hzero := hclean hfamily.symm
    have hfront : (zeroFront addr.sin6Addr).bytes.drop 8 = List.replicate 8 0 := by
      rw [← hzero]
      simp [zeroFront]
    have hne := take_ne_mapped hfront
    have hfix : mapFix { addr.store (.v4 ip) with sinPort := r.port } false =
        { addr.store (.v4 ip) with sinPort := r.port } := by
      unfold mapFix
      rw [if_neg (fun h => Bool.false_ne_true h.2), if_neg fun h => hne h.1]
    rw [hfix]
    exact ⟨rfl, rfl, fun _ => hfront⟩
  | v6 ip =>
    rw [hs] at hfamily
    have hinet : ¬ f = .inet := by
      rw [← hfamily]
      exact fun h => by cases h
    have hplain : plain (.v6 ip) = if ip.bytes.take 12 = mapped then .v4 (unmap ip) else .v6 ip :=
      rfl
    rw [hplain]
    unfold mapFix
    rw [if_neg (fun h => Bool.false_ne_true h.2)]
    rcases Classical.em (ip.bytes.take 12 = mapped) with hmapped | hother
    · rw [if_pos ⟨hmapped, rfl⟩, if_pos hmapped]
      exact ⟨rfl, rfl, fun h => absurd h hinet⟩
    · rw [if_neg (fun h => hother h.1), if_neg hother]
      exact ⟨rfl, rfl, fun h => absurd h hinet⟩

/-- One reply is sent on as it should be. -/
lemma answer_text (hv6 : env.ipv6 = true) (hclean : Clean f addr)
    (hfamily : Ip.family r.sender = f) (hfit : 22 + r.payload.length ≤ b.length) :
    ∃ d b' a, answer b addr r = some (some (d, b', a)) ∧ b'.length = b.length ∧ Clean f a ∧
      Carries env d r := by
  obtain ⟨a, hmap, hip, hport, hclean'⟩ := mapFix_received hclean hfamily
  obtain ⟨hten, hgap⟩ := size_le a
  -- the gap, the room of the payload and the rest of the buffer
  obtain ⟨gap, room, rest, rfl, hlen, hroom⟩ : ∃ gap room rest : Bytes,
      b = gap ++ (room ++ rest) ∧ gap.length = 22 ∧ room.length = r.payload.length := by
    refine ⟨b.take 22, (b.drop 22).take r.payload.length, (b.drop 22).drop r.payload.length, ?_,
      List.length_take_of_le (by omega), ?_⟩
    · rw [List.take_append_drop, List.take_append_drop]
    · rw [List.length_take_of_le]
      rw [List.length_drop]
      omega
  have hrecv : blit (gap ++ (room ++ rest)) 22 r.payload = some (gap ++ (r.payload ++ rest)) := by
    have h := blit_text (p := gap) (r := rest) hroom.symm
    rw [hlen] at h
    exact h
  have hset : memset (gap ++ (r.payload ++ rest)) 0 0 22 =
      some (List.replicate 22 0 ++ (r.payload ++ rest)) := by
    have h := blit_text (p := []) (r := r.payload ++ rest)
      (show (List.replicate 22 (0 : UInt8)).length = gap.length by
        rw [hlen]
        rfl)
    exact h
  have hsplit : List.replicate 22 (0 : UInt8) ++ (r.payload ++ rest) =
      List.replicate (22 - size a) 0 ++
        0 :: 0 :: 0 :: (List.replicate (size a - 3) 0 ++ (r.payload ++ rest)) := by
    have h22 : 22 = (22 - size a) + (3 + (size a - 3)) := by omega
    conv_lhs => rw [h22, List.replicate_add, List.replicate_add]
    simp only [List.append_assoc]
    rfl
  have hwrite : s5SetAddr (List.replicate (22 - size a) 0 ++
        0 :: 0 :: 0 :: (List.replicate (size a - 3) 0 ++ (r.payload ++ rest))) 22 22 a true =
      some ((size a : Int), List.replicate (22 - size a) 0 ++
        0 :: 0 :: 0 :: (header a ++ (r.payload ++ rest))) := by
    refine set_text ?_ hgap ?_
    · rw [List.length_replicate]
      omega
    · rw [if_pos rfl, List.length_replicate]
      omega
  have hslice : slice (List.replicate (22 - size a) 0 ++
        0 :: 0 :: 0 :: (header a ++ (r.payload ++ rest))) (22 - (size a : Int))
        ((size a : Int) + r.payload.length) =
      some (0 :: 0 :: 0 :: (header a ++ r.payload)) := by
    have hhead := header_length a
    have h := slice_text (List.replicate (22 - size a) 0)
      (0 :: 0 :: 0 :: (header a ++ r.payload)) rest
    have hat : (((List.replicate (22 - size a) (0 : UInt8)).length : Nat) : Int) =
        22 - (size a : Int) := by
      rw [List.length_replicate]
      omega
    have hlong : ((0 :: 0 :: 0 :: (header a ++ r.payload)).length : Int) =
        (size a : Int) + r.payload.length := by
      simp only [List.length_cons, List.length_append]
      omega
    rw [hat, hlong] at h
    simpa only [List.cons_append, List.append_assoc] using h
  refine ⟨0 :: 0 :: 0 :: (header a ++ r.payload), List.replicate (22 - size a) 0 ++
    0 :: 0 :: 0 :: (header a ++ (r.payload ++ rest)), a, ?_, ?_, hclean',
    0 :: 0 :: 0 :: header a, rfl, rfl, ?_⟩
  · unfold answer receive
    simp only [Option.bind_eq_bind, hrecv, Option.bind_some, Option.pure_def, hmap, hset, hsplit,
      hwrite]
    rw [if_neg (by omega), hslice]
    rfl
  · have hhead := header_length a
    simp only [List.length_append, List.length_replicate, List.length_cons]
    omega
  · have henc := header_encodes hv6 a 0 0 0 r.payload
    rw [hip, hport] at henc
    have hhead := header_length a
    have hk : (0 :: 0 :: 0 :: header a : Bytes).length = size a := by
      simp only [List.length_cons]
      omega
    rw [hk]
    exact spells henc

lemma loop_carries (hv6 : env.ipv6 = true) :
    ∀ (arrivals : List Arrival) (b : Bytes) (addr : SockAddr), Clean f addr →
      (∀ r, .reply r ∈ arrivals → Ip.family r.sender = f ∧ 22 + r.payload.length ≤ b.length) →
      ∃ ds ret, tunnelLoop b addr arrivals = some (ds, ret) ∧
        List.Forall₂ (Carries env) ds (relayed arrivals)
  | [], _, _, _, _ => ⟨[], 0, rfl, .nil⟩
  | .soft :: rest, b, addr, hclean, hall =>
    loop_carries hv6 rest b addr hclean fun r hr => hall r (List.mem_cons_of_mem _ hr)
  | .hard :: rest, _, _, _, _ => ⟨[], -1, rfl, .nil⟩
  | .reply r :: rest, b, addr, hclean, hall => by
    obtain ⟨hfamily, hfit⟩ := hall r List.mem_cons_self
    obtain ⟨d, b', a, hanswer, hlen, hclean', hd⟩ := answer_text hv6 hclean hfamily hfit
    rcases Classical.em (r.sent = .hard) with hhard | hgo
    · refine ⟨[d], -1, ?_, ?_⟩
      · unfold tunnelLoop
        simp only [hanswer, Option.bind_eq_bind, Option.bind_some, if_pos hhard]
        rfl
      · unfold relayed
        rw [if_pos hhard]
        exact .cons hd .nil
    · obtain ⟨ds, ret, hloop, hds⟩ := loop_carries hv6 rest b' a hclean' fun r' hr' => by
        rw [hlen]
        exact hall r' (List.mem_cons_of_mem _ hr')
      refine ⟨d :: ds, ret, ?_, ?_⟩
      · unfold tunnelLoop
        simp only [hanswer, Option.bind_eq_bind, Option.bind_some, if_neg hgo, hloop]
        rfl
      · unfold relayed
        rw [if_neg hgo]
        exact .cons hd hds

lemma set_get (hv6 : env.ipv6 = true) : SetGet env := by
  intro b pos n addr atEnd start hpos hn hfits
  have hhead := header_length addr
  obtain ⟨p, x, y, z, gap, rest, rfl, hp, hgap⟩ : ∃ (p : Bytes) (x y z : UInt8) (gap rest : Bytes),
      b = p ++ x :: y :: z :: (gap ++ rest) ∧ p.length = start ∧ gap.length + 3 = size addr := by
    have hten := (size_le addr).1
    have hdrop : size addr ≤ (b.drop start).length := by
      rw [List.length_drop]
      omega
    match hd : b.drop start with
    | x :: y :: z :: body =>
      rw [hd] at hdrop
      simp only [List.length_cons] at hdrop
      refine ⟨b.take start, x, y, z, body.take (size addr - 3), body.drop (size addr - 3), ?_,
        List.length_take_of_le (by omega), ?_⟩
      · rw [List.take_append_drop, ← hd, List.take_append_drop]
      · rw [List.length_take_of_le (by omega)]
        omega
    | [] | [_] | [_, _] =>
      rw [hd] at hdrop
      simp only [List.length_cons, List.length_nil] at hdrop
      omega
  refine ⟨_, set_text hgap hn (hp ▸ hpos), ?_, ?_⟩
  · simp only [List.length_append, List.length_cons]
    omega
  · intro m hm hroom
    simp only [List.length_append, List.length_cons] at hroom hfits
    have hlong : (x :: y :: z :: (header addr ++ rest.take (m - size addr))).length = m := by
      simp only [List.length_cons, List.length_append, List.length_take]
      omega
    have hslice := slice_text p (x :: y :: z :: (header addr ++ rest.take (m - size addr)))
      (rest.drop (m - size addr))
    rw [hlong, hp] at hslice
    simp only [List.cons_append, List.append_assoc, List.take_append_drop] at hslice
    exact ⟨_, hslice, spells (header_encodes hv6 addr x y z _)⟩

end Replies

/-- Every reply is sent on with its sender, and addresses survive being written and read. -/
theorem replies_carry (env : Env) (hv6 : env.ipv6 = true) :
    (∀ (box : Inbox) (b : Bytes),
      (∀ r, .reply r ∈ box.arrivals → 22 + r.payload.length ≤ b.length) →
      ∃ ds ret, tunnelLoop b .zero box.arrivals = some (ds, ret) ∧
        List.Forall₂ (Carries env) ds (relayed box.arrivals)) ∧
      SetGet env := by
  constructor
  · intro box b hfit
    exact loop_carries hv6 box.arrivals b .zero (Clean.zero box.family) fun r hr =>
      ⟨box.same r hr, hfit r hr⟩
  · exact set_get hv6

/-- 10.0.0.1 as a socket for IPv6 sees it. -/
def mappedReply : Reply where
  sender := .v6 (mapV4 ⟨[10, 0, 0, 1], rfl⟩)
  port := ⟨[0, 53], rfl⟩
  payload := [1, 2, 3]
  sent := .ok

def mappedInbox : Inbox where
  family := .inet6
  arrivals := [.soft, .reply mappedReply]
  same := by
    intro r hr
    simp only [List.mem_cons, reduceCtorEq, Arrival.reply.injEq, List.not_mem_nil, or_false,
      false_or] at hr
    exact hr ▸ rfl

theorem replies_carry_mapped :
    (∃ ds ret, tunnelLoop (List.replicate 40 0) .zero mappedInbox.arrivals = some (ds, ret) ∧
      List.Forall₂ (Carries ⟨true, true, fun _ => none⟩) ds [mappedReply]) ∧
    SetGet ⟨true, true, fun _ => none⟩ := by
  obtain ⟨hreplies, hset⟩ := replies_carry ⟨true, true, fun _ => none⟩ rfl
  refine ⟨hreplies mappedInbox _ ?_, hset⟩
  intro r hr
  simp only [mappedInbox, List.mem_cons, reduceCtorEq, Arrival.reply.injEq, List.not_mem_nil,
    or_false, false_or] at hr
  rw [hr]
  decide

end UdpReplies
