import NoZapret.OptionValues

/-!
# Decoys before a UDP datagram

`desync_udp` with every outcome of its system calls. A socket has two limits, one for each family
of packets, and `setttl` sets both; the peer of the socket says which of them its packets get.
-/

namespace UdpDecoys

abbrev Bytes := List UInt8

/-- The connected socket: `v6` where its packets go by `IPV6_UNICAST_HOPS`. -/
structure Sock where
  v6 : Bool
  hops : Int
  ttl : Int
  deriving DecidableEq, Repr

/-- The limit that its packets get. -/
def Sock.limit (s : Sock) : Int := if s.v6 then s.hops else s.ttl

/-- `setsockopt` for IPv6 and for IPv4. -/
structure Options where
  ok6 : Bool
  ok4 : Bool
  deriving DecidableEq, Repr

def Options.failed (o : Options) : Bool := !o.ok6 && !o.ok4

/-- The option that counts for the packets of the socket. -/
def Options.reaches (o : Options) (s : Sock) : Bool := if s.v6 then o.ok6 else o.ok4

/-- `setttl`, which fails where `Options.failed` -/
def setttl (s : Sock) (o : Options) (ttl : Int) : Sock where
  v6 := s.v6
  hops := if o.ok6 then ttl else s.hops
  ttl := if o.ok4 then ttl else s.ttl

structure Part where
  m : Bool
  pos : Int

/-- `struct packet`: `data` is an address in the block that the packet is. -/
structure Packet where
  block : Bytes
  size : Int
  data : Int

def Packet.ofBytes (block : Bytes) : Packet := ⟨block, block.length, 0⟩

def fakeUdp : Packet := .ofBytes (List.replicate 64 0)

structure DesyncParams where
  ttl : Int
  udpFakeCount : Nat
  fakeData : Option Bytes
  fakeOffset : Part

structure Params where
  defTtl : Int

/-- What the calls of one `desync_udp` return. -/
structure Calls where
  lower : Options
  decoy : Nat → Bool
  restore : Options
  datagram : Bool

/-- What is handed to `send`, and the limit it goes out with. -/
inductive Sent where
  | decoy (pkt : Packet) (limit : Int)
  | datagram (limit : Int)

def Sent.isDatagram : Sent → Bool
  | .decoy _ _ => false
  | .datagram _ => true

/-- `restored` are the options of the second `setttl`, where it is called. -/
structure Done where
  ret : Int
  sock : Sock
  sent : List Sent
  restored : Option Options

def packet (dp : DesyncParams) : Packet :=
  let pkt := match dp.fakeData with
    | some data => .ofBytes data
    | none => fakeUdp
  if dp.fakeOffset.m then
    if pkt.size > dp.fakeOffset.pos then
      { pkt with size := pkt.size - dp.fakeOffset.pos, data := pkt.data + dp.fakeOffset.pos }
    else { pkt with size := 0 }
  else pkt

/-- `DEFAULT_TTL` where none is set -/
def bttl (dp : DesyncParams) : Int := if dp.ttl ≠ 0 then dp.ttl else 8

/-- The loop over `send`: whether all of them went out, and what was handed over. -/
def sendDecoys (pkt : Packet) (limit : Int) (calls : Calls) : Nat → Nat → Bool × List Sent
  | 0, _ => (true, [])
  | left + 1, i =>
    if calls.decoy i then
      let (ok, sent) := sendDecoys pkt limit calls left (i + 1)
      (ok, .decoy pkt limit :: sent)
    else (false, [.decoy pkt limit])

def sendDatagram (n : Nat) (calls : Calls) : Int := if calls.datagram then n else -1

def desyncUdp (p : Params) (dp : DesyncParams) (n : Nat) (calls : Calls) (s : Sock) : Done :=
  if dp.udpFakeCount ≠ 0 then
    let low := setttl s calls.lower (bttl dp)
    if calls.lower.failed then ⟨-1, low, [], none⟩
    else
      match sendDecoys (packet dp) low.limit calls dp.udpFakeCount 0 with
      | (false, sent) => ⟨-1, low, sent, none⟩
      | (true, sent) =>
        let back := setttl low calls.restore p.defTtl
        if calls.restore.failed then ⟨-1, back, sent, some calls.restore⟩
        else ⟨sendDatagram n calls, back, sent ++ [.datagram back.limit], some calls.restore⟩
  else ⟨sendDatagram n calls, s, [.datagram s.limit], none⟩

/-- The bytes from `data` on are bytes of the packet. -/
def Packet.Inside (pkt : Packet) : Prop :=
  0 ≤ pkt.data ∧ 0 ≤ pkt.size ∧ pkt.data + pkt.size ≤ pkt.block.length

/-- What a call may send and leave behind. -/
structure Right (p : Params) (d : Done) : Prop where
  inside : ∀ pkt limit, .decoy pkt limit ∈ d.sent → pkt.Inside
  once : (d.sent.filter Sent.isDatagram).length ≤ 1
  full : ∀ limit, .datagram limit ∈ d.sent → limit = p.defTtl
  back : d.sock.limit = p.defTtl ∨ ∃ o, d.restored = some o ∧ o.reaches d.sock = false

/-- Decoys are sent: their offset is not before the packet, and nothing fails while the limit is
lowered. -/
def Safe (p : Params) (dp : DesyncParams) (calls : Calls) (s : Sock) : Prop :=
  (dp.fakeOffset.m = true → 0 ≤ dp.fakeOffset.pos) ∧
    (bttl dp = p.defTtl ∨ calls.lower.reaches s = false ∨
      (∀ i < dp.udpFakeCount, calls.decoy i = true) ∧
        (calls.restore.failed = true ∨ calls.restore.reaches s = true))

section Limits

variable {p : Params} {dp : DesyncParams} {calls : Calls} {s : Sock} {o : Options} {n : Nat}

lemma setttl_limit (s : Sock) (o : Options) (x : Int) :
    (setttl s o x).limit = if o.reaches s then x else s.limit := by
  unfold Sock.limit setttl Options.reaches
  cases s.v6 <;> rfl

lemma setttl_reaches (s : Sock) (o o' : Options) (x : Int) :
    o'.reaches (setttl s o x) = o'.reaches s := rfl

lemma Options.reaches_of_failed (h : o.failed = true) (s : Sock) : o.reaches s = false := by
  obtain ⟨ok6, ok4⟩ := o
  unfold Options.reaches
  cases ok6 <;> cases ok4 <;> cases s.v6 <;> first | rfl | cases h

/-- The loop hands the same packet over until one fails. -/
lemma sendDecoys_cases (pkt : Packet) (limit : Int) (calls : Calls) (left i : Nat) :
    ∃ ok k, sendDecoys pkt limit calls left i = (ok, List.replicate k (.decoy pkt limit)) ∧
      (ok = true ↔ ∀ j < left, calls.decoy (i + j) = true) ∧ (0 < left → 0 < k) := by
  induction left generalizing i with
  | zero => exact ⟨true, 0, rfl, ⟨fun _ j hj => absurd hj (Nat.not_lt_zero j), fun _ => rfl⟩, id⟩
  | succ left ih =>
    cases hsent : calls.decoy i with
    | false =>
      refine ⟨false, 1, ?_, ⟨fun h => ?_, fun h => ?_⟩, fun _ => Nat.one_pos⟩
      · unfold sendDecoys
        rw [hsent, if_neg Bool.false_ne_true]
        rfl
      · cases h
      · exact absurd (hsent.symm.trans (h 0 (Nat.zero_lt_succ left))) Bool.false_ne_true
    | true =>
      obtain ⟨ok, k, hsend, hok, -⟩ := ih (i + 1)
      refine ⟨ok, k + 1, ?_, ?_, fun _ => Nat.zero_lt_succ k⟩
      · unfold sendDecoys
        rw [hsent, if_pos rfl, hsend]
        rfl
      · rw [hok]
        constructor
        · intro h j hj
          cases j with
          | zero => exact hsent
          | succ j =>
            have := h j (by omega)
            rwa [Nat.add_assoc, Nat.add_comm 1 j] at this
        · intro h j hj
          have := h (j + 1) (by omega)
          rwa [Nat.add_comm j 1, ← Nat.add_assoc] at this

lemma ofBytes_inside (b : Bytes) : (Packet.ofBytes b).Inside :=
  ⟨Int.le_refl 0, Int.natCast_nonneg _, by simp [Packet.ofBytes]⟩

/-- The packet is inside its data unless the offset is negative. -/
lemma packet_inside_iff :
    (packet dp).Inside ↔ (dp.fakeOffset.m = true → 0 ≤ dp.fakeOffset.pos) := by
  obtain ⟨b, hb⟩ : ∃ b, (match dp.fakeData with
      | some data => Packet.ofBytes data
      | none => fakeUdp) = .ofBytes b := by
    cases dp.fakeData with
    | none => exact ⟨_, rfl⟩
    | some data => exact ⟨data, rfl⟩
  unfold packet
  rw [hb]
  dsimp only
  have hlen := Int.natCast_nonneg b.length
  cases dp.fakeOffset.m with
  | false =>
    rw [if_neg Bool.false_ne_true]
    exact ⟨fun _ h => absurd h Bool.false_ne_true, fun _ => ofBytes_inside b⟩
  | true =>
    rw [if_pos rfl]
    rcases Int.lt_or_le dp.fakeOffset.pos b.length with hgt | hle
    · rw [if_pos (show (Packet.ofBytes b).size > dp.fakeOffset.pos from hgt)]
      simp only [Packet.ofBytes, Packet.Inside, forall_const]
      omega
    · rw [if_neg (show ¬ (Packet.ofBytes b).size > dp.fakeOffset.pos from Int.not_lt.mpr hle)]
      simp only [Packet.ofBytes, Packet.Inside, forall_const]
      omega

lemma right_of_quiet {ret : Int} {restored : Option Options} (h : s.limit = p.defTtl) :
    Right p ⟨ret, s, [], restored⟩ where
  inside := fun _ _ hmem => absurd hmem List.not_mem_nil
  once := Nat.zero_le 1
  full := fun _ hmem => absurd hmem List.not_mem_nil
  back := .inl h

/-- Without decoys the datagram goes out as the socket is. -/
lemma right_of_datagram {ret : Int} (h : s.limit = p.defTtl) :
    Right p ⟨ret, s, [.datagram s.limit], none⟩ where
  inside := by
    intro pkt limit hmem
    cases List.mem_singleton.mp hmem
  once := Nat.le_refl 1
  full := by
    intro limit hmem
    cases List.mem_singleton.mp hmem
    exact h
  back := .inl h

lemma decoys_once (k : Nat) (pkt : Packet) (limit : Int) (rest : List Sent) :
    (List.replicate k (Sent.decoy pkt limit) ++ rest).filter Sent.isDatagram =
      rest.filter Sent.isDatagram := by
  rw [List.filter_append, List.filter_replicate, Sent.isDatagram, if_neg Bool.false_ne_true,
    List.nil_append]

/-- What is sent before the end is decoys of one packet. -/
lemma right_decoys_iff {ret : Int} {k : Nat} {pkt : Packet} {limit : Int}
    {restored : Option Options} (hk : 0 < k) :
    Right p ⟨ret, s, List.replicate k (.decoy pkt limit), restored⟩ ↔
      pkt.Inside ∧ (s.limit = p.defTtl ∨ ∃ o, restored = some o ∧ o.reaches s = false) := by
  constructor
  · intro h
    exact ⟨h.inside pkt limit (List.mem_replicate.mpr ⟨by omega, rfl⟩), h.back⟩
  · rintro ⟨hinside, hback⟩
    refine ⟨?_, ?_, ?_, hback⟩
    · intro pkt' limit' hmem
      cases (List.mem_replicate.mp hmem).2
      exact hinside
    · have honce := decoys_once k pkt limit []
      rw [List.append_nil] at honce
      dsimp only
      rw [honce]
      exact Nat.zero_le 1
    · intro limit' hmem
      cases (List.mem_replicate.mp hmem).2

lemma right_all_iff {ret : Int} {k : Nat} {pkt : Packet} {limit : Int}
    {restored : Option Options} (hk : 0 < k) :
    Right p ⟨ret, s, List.replicate k (.decoy pkt limit) ++ [.datagram s.limit], restored⟩ ↔
      pkt.Inside ∧ s.limit = p.defTtl := by
  constructor
  · intro h
    refine ⟨h.inside pkt limit ?_, h.full _ ?_⟩
    · exact List.mem_append_left _ (List.mem_replicate.mpr ⟨by omega, rfl⟩)
    · exact List.mem_append_right _ (List.mem_singleton.mpr rfl)
  · rintro ⟨hinside, hlimit⟩
    refine ⟨?_, ?_, ?_, .inl hlimit⟩
    · intro pkt' limit' hmem
      rcases List.mem_append.mp hmem with hmem | hmem
      · cases (List.mem_replicate.mp hmem).2
        exact hinside
      · cases List.mem_singleton.mp hmem
    · dsimp only
      rw [decoys_once]
      exact Nat.le_refl 1
    · intro limit' hmem
      rcases List.mem_append.mp hmem with hmem | hmem
      · cases (List.mem_replicate.mp hmem).2
      · cases List.mem_singleton.mp hmem
        exact hlimit

end Limits

/-- Decoys stay inside the packet and the limit is put back, in the cases without either defect. -/
theorem decoys_right_iff (p : Params) (dp : DesyncParams) (n : Nat) (calls : Calls) (s : Sock)
    (hentry : s.limit = p.defTtl) :
    Right p (desyncUdp p dp n calls s) ↔
      dp.udpFakeCount = 0 ∨ calls.lower.failed = true ∨ Safe p dp calls s := by
  unfold desyncUdp
  rcases Nat.eq_zero_or_pos dp.udpFakeCount with hzero | hcount
  · rw [if_neg fun h => h hzero]
    exact ⟨fun _ => .inl hzero, fun _ => right_of_datagram hentry⟩
  rw [if_pos (by omega)]
  have hlow := setttl_limit s calls.lower (bttl dp)
  cases hlower : calls.lower.failed with
  | true =>
    dsimp only
    rw [if_pos rfl]
    rw [Options.reaches_of_failed hlower s, if_neg Bool.false_ne_true] at hlow
    exact ⟨fun _ => .inr (.inl rfl), fun _ => right_of_quiet (hlow.trans hentry)⟩
  | false =>
    dsimp only
    rw [if_neg Bool.false_ne_true]
    obtain ⟨ok, k, hsend, hok, hk⟩ := sendDecoys_cases (packet dp)
      (setttl s calls.lower (bttl dp)).limit calls dp.udpFakeCount 0
    simp only [Nat.zero_add] at hok
    rw [hsend]
    have hsafe : Safe p dp calls s ↔ (packet dp).Inside ∧
        ((setttl s calls.lower (bttl dp)).limit = p.defTtl ∨
          ok = true ∧ (calls.restore.failed = true ∨ calls.restore.reaches s = true)) := by
      rw [hok, Safe, packet_inside_iff, hlow]
      cases calls.lower.reaches s with
      | true => simp
      | false => simp [hentry]
    have hplain : (dp.udpFakeCount = 0 ∨ false = true ∨ Safe p dp calls s) ↔ Safe p dp calls s := by
      constructor
      · rintro (h | h | h)
        · omega
        · cases h
        · exact h
      · exact fun h => .inr (.inr h)
    rw [hplain, hsafe]
    cases ok with
    | false =>
      dsimp only
      rw [right_decoys_iff (hk hcount)]
      simp
    | true =>
      dsimp only
      have hback := setttl_limit (setttl s calls.lower (bttl dp)) calls.restore p.defTtl
      rw [setttl_reaches] at hback
      cases hrestore : calls.restore.failed with
      | true =>
        have hmiss := Options.reaches_of_failed hrestore s
        rw [if_pos rfl, right_decoys_iff (hk hcount)]
        simp [setttl_reaches, hmiss]
      | false =>
        rw [if_neg Bool.false_ne_true, right_all_iff (hk hcount), hback]
        cases calls.restore.reaches s with
        | true => simp
        | false => simp

def quiet : Calls := ⟨⟨true, true⟩, fun _ => true, ⟨true, true⟩, true⟩

def twoDecoys : DesyncParams := ⟨3, 2, some [1, 2, 3], ⟨true, 1⟩⟩

theorem decoys_right_iff_two :
    Right ⟨64⟩ (desyncUdp ⟨64⟩ twoDecoys 5 quiet ⟨true, 64, 64⟩) ↔
      twoDecoys.udpFakeCount = 0 ∨ quiet.lower.failed = true ∨
        Safe ⟨64⟩ twoDecoys quiet ⟨true, 64, 64⟩ :=
  decoys_right_iff ⟨64⟩ twoDecoys 5 quiet ⟨true, 64, 64⟩ rfl

/-- `--udp-fake 1` -/
def oneDecoy : DesyncParams := ⟨0, 1, none, ⟨false, 0⟩⟩

/-- The `send` of the decoy fails. -/
def refused : Calls := ⟨⟨true, true⟩, fun _ => false, ⟨true, true⟩, true⟩

/-- `--udp-fake 1 --fake-offset -1` -/
def shifted : DesyncParams := ⟨0, 1, none, ⟨true, -1⟩⟩

/-- A refused decoy leaves the socket at 8, and an offset that is accepted points before the
packet. -/
theorem decoys_unsafe :
    ¬ (∀ (p : Params) (dp : DesyncParams) (n : Nat) (calls : Calls) (s : Sock),
      dp.fakeOffset.m = false → s.limit = p.defTtl → Right p (desyncUdp p dp n calls s)) ∧
    ¬ (∀ (p : Params) (dp : DesyncParams) (n : Nat) (calls : Calls) (s : Sock),
      (∃ str r, OptionValues.parseOffset false str = some (r, dp.fakeOffset.pos)) →
      s.limit = p.defTtl → Right p (desyncUdp p dp n calls s)) := by
  constructor
  · intro h
    rcases (h ⟨64⟩ oneDecoy 5 refused ⟨true, 64, 64⟩ rfl rfl).back with hback | ⟨o, ho, -⟩
    · exact absurd hback (by decide)
    · cases ho
  · intro h
    have haccepted : OptionValues.parseOffset false ['-', '1'] = some (false, -1) := by
      have hval : OptionValues.strtol 0 ['-', '1'] = (-1, []) := rfl
      simp [OptionValues.parseOffset, hval, OptionValues.offsetFields, OptionValues.offsetFlag]
    have hright := h ⟨64⟩ shifted 5 quiet ⟨true, 64, 64⟩ ⟨['-', '1'], false, haccepted⟩ rfl
    have hinside := hright.inside (packet shifted) 8 (List.mem_cons_self)
    exact absurd hinside.1 (by decide)

end UdpDecoys
