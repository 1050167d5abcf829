import NoZapret.Library.Prefix
import NoZapret.Packets

/-!
# Addresses in SOCKS messages

`s5_get_addr`, `s5_set_addr` and `map_fix`. A `union sockaddr_u` is taken apart into its fields:
`sin_zero` lies over the front of `sin6_addr`, and what lies over `sin_addr` in an IPv6 address is
the flow label, which nothing reads.
-/

namespace SocksAddr

open Block Packets

/-- So many bytes. -/
@[ext] structure Octets (n : Nat) where
  bytes : Bytes
  size : bytes.length = n
  deriving DecidableEq, Repr

def Octets.zero (n : Nat) : Octets n := ⟨List.replicate n 0, List.length_replicate⟩

inductive Family where
  | inet
  | inet6
  deriving DecidableEq, Repr

/-- `union sockaddr_u`; the port is as it is stored, in network order. -/
structure SockAddr where
  family : Family
  sinPort : Octets 2
  sinAddr : Octets 4
  sin6Addr : Octets 16
  deriving DecidableEq, Repr

/-- `union sockaddr_u addr = {0}`, but for the family, which nothing reads before it is set. -/
def SockAddr.zero : SockAddr := ⟨.inet, .zero 2, .zero 4, .zero 16⟩

def octets (b : Bytes) (i : Int) (n : Nat) : Option (Octets n) :=
  match h : slice b i n with
  | none => none
  | some xs => some ⟨xs, by exact_mod_cast slice_length h⟩

/-- An address without its port. -/
inductive Ip where
  | v4 (ip : Octets 4)
  | v6 (ip : Octets 16)
  deriving DecidableEq, Repr

/-- The address that a `sockaddr_u` holds. -/
def SockAddr.ip (a : SockAddr) : Ip :=
  match a.family with
  | .inet => .v4 a.sinAddr
  | .inet6 => .v6 a.sin6Addr

def zeroFront (ip : Octets 16) : Octets 16 :=
  ⟨List.replicate 8 0 ++ ip.bytes.drop 8, by simp [ip.size]⟩

/-- An address copied over `addr`, as much of it as there is. -/
def SockAddr.store (a : SockAddr) : Ip → SockAddr
  | .v4 ip => { a with family := .inet, sinAddr := ip, sin6Addr := zeroFront a.sin6Addr }
  | .v6 ip => { a with family := .inet6, sin6Addr := ip }

/-- `params` and `getaddrinfo`, as far as addresses are concerned. -/
structure Env where
  resolve : Bool
  ipv6 : Bool
  getaddrinfo : Bytes → Option Ip

/-- `resolve`; a name ends at its first zero. -/
def resolve (env : Env) (name : Bytes) (addr : SockAddr) : Option SockAddr :=
  (env.getaddrinfo (name.takeWhile (· != 0))).map addr.store

/-- `s5_get_addr`: what it returns and leaves in `addr`; `none` is an access outside the buffer. -/
def s5GetAddr (env : Env) (buffer : Bytes) (n : Nat) (addr : SockAddr) :
    Option (Int × SockAddr) := do
  if n < 8 then return (-1, addr)
  let atp ← rd buffer 3
  let o ← (if atp = 0x01 then some 10
    else if atp = 0x03 then (rd buffer 4).map fun len => len.toNat + 7
    else if atp = 0x04 then some 22
    else some 0)
  if n < o then return (-1, addr)
  let port := octets buffer ((o : Int) - 2) 2
  if atp = 0x01 then
    let ip ← octets buffer 4 4
    return (o, { addr with family := .inet, sinAddr := ip, sinPort := ← port })
  if atp = 0x03 then
    if !env.resolve then return (-8, addr)
    let len ← rd buffer 4
    if len < 3 then return (-4, addr)
    match resolve env (← slice buffer 5 len.toNat) addr with
    | none => return (-4, addr)
    | some addr => return (o, { addr with sinPort := ← port })
  if atp = 0x04 then
    if !env.ipv6 then return (-8, addr)
    let ip ← octets buffer 4 16
    return (o, { addr with family := .inet6, sin6Addr := ip, sinPort := ← port })
  return (o, { addr with sinPort := ← port })

/-- `s5_set_addr`, where `buffer` is the address `at` of a block: what it returns and the block. -/
def s5SetAddr (b : Bytes) (pos : Int) (n : Nat) (addr : SockAddr) (atEnd : Bool) :
    Option (Int × Bytes) := do
  if n < 10 then return (-1, b)
  match addr.family with
  | .inet =>
    let r := if atEnd then pos - 10 else pos
    let b ← wr b (r + 3) 0x01
    let b ← blit b (r + 4) addr.sinAddr.bytes
    return (10, ← blit b (r + 8) addr.sinPort.bytes)
  | .inet6 =>
    if n < 22 then return (-1, b)
    let r := if atEnd then pos - 22 else pos
    let b ← wr b (r + 3) 0x04
    let b ← blit b (r + 4) addr.sin6Addr.bytes
    return (22, ← blit b (r + 20) addr.sinPort.bytes)

/-- `::ffff:0:0/96` -/
def mapped : Bytes := List.replicate 10 0 ++ [0xff, 0xff]

def mapV4 (ip : Octets 4) : Octets 16 := ⟨mapped ++ ip.bytes, by simp [mapped, ip.size]⟩

def unmap (ip : Octets 16) : Octets 4 := ⟨ip.bytes.drop 12, by simp [ip.size]⟩

/-- `map_fix` -/
def mapFix (addr : SockAddr) (f6 : Bool) : SockAddr :=
  if addr.family = .inet ∧ f6 = true then
    { addr with family := .inet6, sin6Addr := mapV4 addr.sinAddr }
  else if addr.sin6Addr.bytes.take 12 = mapped ∧ f6 = false then
    { addr with family := .inet, sinAddr := unmap addr.sin6Addr }
  else addr

/-- A message with an address that is accepted: how long it is up to the port, the address and the
port. -/
inductive Encodes (env : Env) : Bytes → Nat → Ip → Octets 2 → Prop
  | v4 {ver cmd zero : UInt8} (ip : Octets 4) (port : Octets 2) (rest : Bytes) :
      Encodes env (ver :: cmd :: zero :: 0x01 :: (ip.bytes ++ (port.bytes ++ rest))) 10 (.v4 ip) port
  | name {ver cmd zero len : UInt8} {domain : Bytes} {ip : Ip} (hlen : domain.length = len.toNat)
      (hlong : 3 ≤ domain.length) (hresolve : env.resolve = true)
      (hip : env.getaddrinfo (domain.takeWhile (· != 0)) = some ip) (port : Octets 2)
      (rest : Bytes) :
      Encodes env (ver :: cmd :: zero :: 0x03 :: len :: (domain ++ (port.bytes ++ rest)))
        (domain.length + 7) ip port
  | v6 {ver cmd zero : UInt8} (hv6 : env.ipv6 = true) (ip : Octets 16) (port : Octets 2)
      (rest : Bytes) :
      Encodes env (ver :: cmd :: zero :: 0x04 :: (ip.bytes ++ (port.bytes ++ rest))) 22 (.v6 ip) port

/-- `s5_get_addr` reads the buffer only and accepts what is encoded in it, and nothing else. -/
def Exact (env : Env) (b : Bytes) : Prop :=
  ∀ addr, ∃ r a, s5GetAddr env b b.length addr = some (r, a) ∧
    (0 ≤ r ↔ ∃ k ip port, Encodes env b k ip port) ∧
    ∀ k ip port, Encodes env b k ip port → r = k ∧ a.ip = ip ∧ a.sinPort = port

section Get

variable {env : Env} {b : Bytes} {k : Nat} {ip : Ip} {port : Octets 2} {addr : SockAddr}

lemma octets_text {n : Nat} (front rest : Bytes) (o : Octets n) :
    octets (front ++ (o.bytes ++ rest)) front.length n = some o := by
  have hslice := slice_text front o.bytes rest
  rw [o.size] at hslice
  unfold octets
  split
  · next h =>
    rw [hslice] at h
    cases h
  · next xs h =>
    rw [hslice, Option.some.injEq] at h
    exact congrArg some (Octets.ext h.symm)

lemma store_ip (a : SockAddr) (ip : Ip) : (a.store ip).ip = ip := by
  cases ip <;> rfl

lemma Encodes.length (h : Encodes env b k ip port) : 10 ≤ k ∧ k ≤ b.length := by
  cases h with
  | v4 ip port rest =>
    simp only [List.length_cons, List.length_append, ip.size, port.size]
    omega
  | name hlen hlong hresolve hip port rest =>
    simp only [List.length_cons, List.length_append, port.size]
    omega
  | v6 hv6 ip port rest =>
    simp only [List.length_cons, List.length_append, ip.size, port.size]
    omega

/-- What is encoded is read. -/
lemma Encodes.get (h : Encodes env b k ip port) (addr : SockAddr) :
    ∃ a, s5GetAddr env b b.length addr = some ((k : Int), a) ∧ a.ip = ip ∧ a.sinPort = port := by
  obtain ⟨hten, hfits⟩ := h.length
  unfold s5GetAddr
  rw [if_neg (by omega)]
  cases h with
  | @v4 ver cmd zero ip port rest =>
    have hip := octets_text [ver, cmd, zero, 0x01] (port.bytes ++ rest) ip
    have hport := octets_text ([ver, cmd, zero, 0x01] ++ ip.bytes) rest port
    rw [List.append_assoc, List.length_append, ip.size] at hport
    refine ⟨{ addr with family := .inet, sinAddr := ip, sinPort := port }, ?_, rfl, rfl⟩
    have hatp : rd (ver :: cmd :: zero :: 0x01 :: (ip.bytes ++ (port.bytes ++ rest))) 3 =
        some 0x01 := rfl
    have hip : octets (ver :: cmd :: zero :: 0x01 :: (ip.bytes ++ (port.bytes ++ rest))) 4 4 = _ :=
      hip
    have hport : octets (ver :: cmd :: zero :: 0x01 :: (ip.bytes ++ (port.bytes ++ rest))) 8 2 = _ :=
      hport
    simp only [hatp, Option.bind_eq_bind, Option.bind_some, if_true, hip]
    rw [if_neg (by omega)]
    change (octets _ 8 2).bind _ = _
    rw [hport]
    rfl
  | @name ver cmd zero len domain ip hlen hlong hresolve hip port rest =>
    have hname := slice_text [ver, cmd, zero, 0x03, len] domain (port.bytes ++ rest)
    have hport := octets_text ([ver, cmd, zero, 0x03, len] ++ domain) rest port
    rw [List.append_assoc, List.length_append] at hport
    have hatp : rd (ver :: cmd :: zero :: 0x03 :: len :: (domain ++ (port.bytes ++ rest))) 3 =
        some 0x03 := rfl
    have hread : rd (ver :: cmd :: zero :: 0x03 :: len :: (domain ++ (port.bytes ++ rest))) 4 =
        some len := rfl
    have hname : slice (ver :: cmd :: zero :: 0x03 :: len :: (domain ++ (port.bytes ++ rest))) 5
        len.toNat = some domain := by
      rw [← hlen]
      exact hname
    have hport : octets (ver :: cmd :: zero :: 0x03 :: len :: (domain ++ (port.bytes ++ rest)))
        (((len.toNat + 7 : Nat) : Int) - 2) 2 = some port := by
      have hat : ((len.toNat + 7 : Nat) : Int) - 2 = ((5 + domain.length : Nat) : Int) := by omega
      rw [hat]
      exact hport
    have hthree : ¬ len < 3 := by
      rw [UInt8.lt_iff_toNat_lt]
      have h3 : (3 : UInt8).toNat = 3 := rfl
      omega
    have hresolved : SocksAddr.resolve env domain addr = some (addr.store ip) := by
      rw [SocksAddr.resolve, hip, Option.map_some]
    refine ⟨{ addr.store ip with sinPort := port }, ?_, store_ip addr ip, rfl⟩
    simp only [hatp, hread, Option.bind_eq_bind, Option.bind_some, Option.map_some, hresolve, hname,
      hresolved, hport, hthree, show ¬ (0x03 : UInt8) = 0x01 by decide, if_false, if_true,
      Bool.not_true, Bool.false_eq_true]
    rw [if_neg (by omega), hlen]
    rfl
  | @v6 ver cmd zero hv6 ip port rest =>
    have hip := octets_text [ver, cmd, zero, 0x04] (port.bytes ++ rest) ip
    have hport := octets_text ([ver, cmd, zero, 0x04] ++ ip.bytes) rest port
    rw [List.append_assoc, List.length_append, ip.size] at hport
    refine ⟨{ addr with family := .inet6, sin6Addr := ip, sinPort := port }, ?_, rfl, rfl⟩
    have hatp : rd (ver :: cmd :: zero :: 0x04 :: (ip.bytes ++ (port.bytes ++ rest))) 3 =
        some 0x04 := rfl
    have hip : octets (ver :: cmd :: zero :: 0x04 :: (ip.bytes ++ (port.bytes ++ rest))) 4 16 = _ :=
      hip
    have hport : octets (ver :: cmd :: zero :: 0x04 :: (ip.bytes ++ (port.bytes ++ rest))) 20 2 =
        _ := hport
    simp only [hatp, Option.bind_eq_bind, Option.bind_some, if_true, hip, hv6, Bool.not_true,
      Bool.false_eq_true, show ¬ (0x04 : UInt8) = 0x01 by decide,
      show ¬ (0x04 : UInt8) = 0x03 by decide, if_false]
    rw [if_neg (by omega)]
    change (octets _ 20 2).bind _ = _
    rw [hport]
    rfl

lemma exists_octets {n : Nat} {xs : Bytes} (h : n ≤ xs.length) :
    ∃ (o : Octets n) (rest : Bytes), xs = o.bytes ++ rest :=
  ⟨⟨xs.take n, List.length_take_of_le h⟩, xs.drop n, (List.take_append_drop n xs).symm⟩

/-- Refused whatever `addr` was. -/
def Refuses (env : Env) (b : Bytes) : Prop :=
  ∀ addr, ∃ r a, s5GetAddr env b b.length addr = some (r, a) ∧ r < 0

lemma short_refuses (h : b.length < 8) : Refuses env b := by
  intro addr
  refine ⟨-1, addr, ?_, by decide⟩
  unfold s5GetAddr
  rw [if_pos h]
  rfl

variable {ver cmd zero : UInt8} {body : Bytes}

lemma v4_cases (hn : 4 ≤ body.length) :
    (∃ k ip port, Encodes env (ver :: cmd :: zero :: 0x01 :: body) k ip port) ∨
      Refuses env (ver :: cmd :: zero :: 0x01 :: body) := by
  rcases Nat.lt_or_ge body.length 6 with hshort | hlong
  · right
    intro addr
    refine ⟨-1, addr, ?_, by decide⟩
    have hatp : rd (ver :: cmd :: zero :: 0x01 :: body) 3 = some 0x01 := rfl
    unfold s5GetAddr
    simp only [hatp, Option.bind_eq_bind, Option.bind_some, if_true, List.length_cons]
    rw [if_neg (by omega), if_pos (by omega)]
    rfl
  · left
    obtain ⟨ip, body, rfl⟩ := exists_octets (show 4 ≤ body.length by omega)
    rw [List.length_append, ip.size] at hlong
    obtain ⟨port, rest, rfl⟩ := exists_octets (show 2 ≤ body.length by omega)
    exact ⟨10, _, port, .v4 ip port rest⟩

lemma v6_cases (hn : 4 ≤ body.length) :
    (∃ k ip port, Encodes env (ver :: cmd :: zero :: 0x04 :: body) k ip port) ∨
      Refuses env (ver :: cmd :: zero :: 0x04 :: body) := by
  have hatp : rd (ver :: cmd :: zero :: 0x04 :: body) 3 = some 0x04 := rfl
  rcases Nat.lt_or_ge body.length 18 with hshort | hlong
  · right
    intro addr
    refine ⟨-1, addr, ?_, by decide⟩
    unfold s5GetAddr
    simp only [hatp, Option.bind_eq_bind, Option.bind_some, if_true, if_false, List.length_cons,
      show ¬ (0x04 : UInt8) = 0x01 by decide, show ¬ (0x04 : UInt8) = 0x03 by decide]
    rw [if_neg (by omega), if_pos (by omega)]
    rfl
  · cases hv6 : env.ipv6 with
    | false =>
      right
      intro addr
      refine ⟨-8, addr, ?_, by decide⟩
      unfold s5GetAddr
      simp only [hatp, Option.bind_eq_bind, Option.bind_some, if_true, if_false, List.length_cons,
        show ¬ (0x04 : UInt8) = 0x01 by decide, show ¬ (0x04 : UInt8) = 0x03 by decide, hv6,
        Bool.not_false]
      rw [if_neg (by omega), if_neg (by omega)]
      rfl
    | true =>
      left
      obtain ⟨ip, body, rfl⟩ := exists_octets (show 16 ≤ body.length by omega)
      rw [List.length_append, ip.size] at hlong
      obtain ⟨port, rest, rfl⟩ := exists_octets (show 2 ≤ body.length by omega)
      exact ⟨22, _, port, .v6 hv6 ip port rest⟩

lemma name_cases {len : UInt8} (hn : 3 ≤ body.length) :
    (∃ k ip port, Encodes env (ver :: cmd :: zero :: 0x03 :: len :: body) k ip port) ∨
      Refuses env (ver :: cmd :: zero :: 0x03 :: len :: body) := by
  have hatp : rd (ver :: cmd :: zero :: 0x03 :: len :: body) 3 = some 0x03 := rfl
  have hread : rd (ver :: cmd :: zero :: 0x03 :: len :: body) 4 = some len := rfl
  have hne : ¬ (0x03 : UInt8) = 0x01 := by decide
  rcases Nat.lt_or_ge body.length (len.toNat + 2) with hshort | hfits
  · right
    intro addr
    refine ⟨-1, addr, ?_, by decide⟩
    unfold s5GetAddr
    simp only [hatp, hread, Option.bind_eq_bind, Option.bind_some, Option.map_some, if_true,
      if_false, List.length_cons, hne]
    rw [if_neg (by omega), if_pos (by omega)]
    rfl
  obtain ⟨domain, tail, hlen, rfl⟩ : ∃ domain tail : Bytes, domain.length = len.toNat ∧
      body = domain ++ tail :=
    ⟨body.take len.toNat, body.drop len.toNat, List.length_take_of_le (by omega),
      (List.take_append_drop _ _).symm⟩
  rw [List.length_append] at hn hfits
  have hname : slice (ver :: cmd :: zero :: 0x03 :: len :: (domain ++ tail)) 5 len.toNat =
      some domain := by
    rw [← hlen]
    exact slice_text [ver, cmd, zero, 0x03, len] domain tail
  have hlt : len < 3 ↔ domain.length < 3 := by
    rw [UInt8.lt_iff_toNat_lt, hlen]
    rfl
  cases hresolve : env.resolve with
  | false =>
    right
    intro addr
    refine ⟨-8, addr, ?_, by decide⟩
    unfold s5GetAddr
    simp only [hatp, hread, Option.bind_eq_bind, Option.bind_some, Option.map_some, if_true,
      if_false, List.length_cons, List.length_append, hne, hresolve, Bool.not_false]
    rw [if_neg (by omega), if_neg (by omega)]
    rfl
  | true =>
    rcases Nat.lt_or_ge domain.length 3 with hshort | hlong
    · right
      intro addr
      refine ⟨-4, addr, ?_, by decide⟩
      unfold s5GetAddr
      simp only [hatp, hread, Option.bind_eq_bind, Option.bind_some, Option.map_some, if_true,
        if_false, List.length_cons, List.length_append, hne, hresolve, Bool.not_true,
        Bool.false_eq_true, hlt.mpr hshort]
      rw [if_neg (by omega), if_neg (by omega)]
      rfl
    · cases hip : env.getaddrinfo (domain.takeWhile (· != 0)) with
      | none =>
        right
        intro addr
        have hunresolved : SocksAddr.resolve env domain addr = none := by
          rw [SocksAddr.resolve, hip, Option.map_none]
        refine ⟨-4, addr, ?_, by decide⟩
        unfold s5GetAddr
        simp only [hatp, hread, Option.bind_eq_bind, Option.bind_some, Option.map_some, if_true,
          if_false, List.length_cons, List.length_append, hne, hresolve, Bool.not_true,
          Bool.false_eq_true, hlt, hname, hunresolved]
        rw [if_neg (by omega), if_neg (by omega), if_neg (by omega)]
        rfl
      | some ip =>
        left
        obtain ⟨port, rest, rfl⟩ := exists_octets (show 2 ≤ tail.length by omega)
        exact ⟨_, ip, port, .name hlen hlong hresolve hip port rest⟩

/-- For an unknown type the port is taken from the two bytes before the buffer. -/
lemma unknown_outside (hn : 8 ≤ b.length) {atp : UInt8} (hatp : b[3]? = some atp)
    (h1 : atp ≠ 1) (h3 : atp ≠ 3) (h4 : atp ≠ 4) : s5GetAddr env b b.length addr = none := by
  have hrd : rd b 3 = some atp := (rd_nat b 3).trans hatp
  have hport : octets b (-2) 2 = none := by
    unfold octets slice
    split
    · rfl
    · next h =>
      rw [if_neg (by omega)] at h
      cases h
  unfold s5GetAddr
  simp only [hrd, Option.bind_eq_bind, Option.bind_some, h1, h3, h4, if_false]
  rw [if_neg (by omega), if_neg (by omega)]
  exact congrArg (Option.bind · _) hport

end Get

/-- `s5_get_addr` is exact but for a message of an unknown type. -/
theorem address_exact_iff (env : Env) (b : Bytes) :
    Exact env b ↔
      b.length < 8 ∨ b[3]? = some 0x01 ∨ b[3]? = some 0x03 ∨ b[3]? = some 0x04 := by
  have of_cases (h : (∃ k ip port, Encodes env b k ip port) ∨ Refuses env b) : Exact env b := by
    intro addr
    rcases h with ⟨k, ip, port, he⟩ | hrefuses
    · obtain ⟨a, hget, -, -⟩ := he.get addr
      refine ⟨k, a, hget, ⟨fun _ => ⟨k, ip, port, he⟩, fun _ => Int.natCast_nonneg k⟩, ?_⟩
      intro k' ip' port' he'
      obtain ⟨a', hget', hip, hport⟩ := he'.get addr
      rw [hget, Option.some.injEq, Prod.mk.injEq] at hget'
      obtain ⟨hk, rfl⟩ := hget'
      exact ⟨hk, hip, hport⟩
    · obtain ⟨r, a, hget, hneg⟩ := hrefuses addr
      have hno (k : Nat) (ip : Ip) (port : Octets 2) : ¬ Encodes env b k ip port := by
        intro he
        obtain ⟨a', hget', -, -⟩ := he.get addr
        rw [hget, Option.some.injEq, Prod.mk.injEq] at hget'
        omega
      refine ⟨r, a, hget, ⟨fun h => by omega, ?_⟩, fun k ip port he => absurd he (hno k ip port)⟩
      rintro ⟨k, ip, port, he⟩
      exact absurd he (hno k ip port)
  constructor
  · intro hexact
    by_contra hcon
    obtain ⟨hn, h1, h3, h4⟩ : ¬ b.length < 8 ∧ b[3]? ≠ some 0x01 ∧ b[3]? ≠ some 0x03 ∧
        b[3]? ≠ some 0x04 := by
      simpa only [not_or] using hcon
    have hatp : b[3]? = some b[3] := List.getElem?_eq_getElem (by omega)
    have hnone : s5GetAddr env b b.length .zero = none :=
      unknown_outside (by omega) hatp (fun h => h1 (h ▸ hatp)) (fun h => h3 (h ▸ hatp))
        (fun h => h4 (h ▸ hatp))
    obtain ⟨r, a, hget, -⟩ := hexact .zero
    rw [hnone] at hget
    cases hget
  · intro h
    rcases Nat.lt_or_ge b.length 8 with hshort | hn
    · exact of_cases (.inr (short_refuses hshort))
    · match b, hn with
      | ver :: cmd :: zero :: atp :: lead :: body, hn =>
        simp only [List.length_cons] at hn h
        rcases h with h | h | h | h
        · omega
        · cases h
          exact of_cases (v4_cases (by simp only [List.length_cons]; omega))
        · cases h
          exact of_cases (name_cases (by omega))
        · cases h
          exact of_cases (v6_cases (by simp only [List.length_cons]; omega))

def unknownType : Bytes := [5, 1, 0, 0, 0, 0, 0, 0]

theorem unknown_type_inexact :
    ¬ ∀ (env : Env) (b : Bytes), Exact env b := by
  intro h
  obtain ⟨r, a, hget, -⟩ := h ⟨true, true, fun _ => none⟩ unknownType .zero
  have hnone : s5GetAddr ⟨true, true, fun _ => none⟩ unknownType 8 .zero = none := by
    decide
  cases hnone.symm.trans hget

end SocksAddr
