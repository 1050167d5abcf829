import Mathlib.Algebra.Order.Ring.Int
import NoZapret.SocksAddr

/-!
# Addresses in the other requests

`s4_get_addr`, `http_get_addr` and `tls_get_addr`. The buffer is longer than the `n` bytes that have
been received; what stands behind them is left from earlier. As in `SocksAddr`, `none` is an access
outside the buffer.
-/

namespace RequestAddr

open Block Packets SocksAddr

/-- What is left in `dst`; without an address its family is still 0. -/
structure Dst where
  ip : Option Ip
  port : Octets 2
  deriving DecidableEq, Repr

def dstOf (addr : SockAddr) : Dst := ⟨some addr.ip, addr.sinPort⟩

/-- The address that is left in `dst`; `s5_set_addr` takes one without a family for IPv6. -/
def Dst.sockAddr (dst : Dst) : SockAddr :=
  match dst.ip with
  | some (.v4 ip) => { SockAddr.zero with family := .inet, sinPort := dst.port, sinAddr := ip }
  | some (.v6 ip) => { SockAddr.zero with family := .inet6, sinPort := dst.port, sin6Addr := ip }
  | none => { SockAddr.zero with family := .inet6, sinPort := dst.port }

def htons (port : Nat) : Octets 2 :=
  ⟨[UInt8.ofNat (port / 256), UInt8.ofNat (port % 256)], rfl⟩

def ntohl (ip : Octets 4) : Nat := ip.bytes.foldl (fun x c => x * 256 + c.toNat) 0

/-- A name that `resolve` is asked for, of an acceptable length. -/
def resolved (env : Env) (buffer : Bytes) (pos len : Int) : Option (Option Ip) := do
  if len < 3 ∨ 255 < len then return none
  return env.getaddrinfo ((← slice buffer pos len).takeWhile (· != 0))

def s4GetAddr (env : Env) (buffer : Bytes) (n : Nat) : Option (Option Dst) := do
  if n < 9 then return none
  if (← rd buffer 1) ≠ 0x01 then return none
  let port ← octets buffer 2 2
  let ip ← octets buffer 4 4
  if 255 < ntohl ip then return some ⟨some (.v4 ip), port⟩
  if !env.resolve then return none
  if (← rd buffer (n - 1)) ≠ 0 then return none
  let some idEnd ← findIn buffer (· == 0) 8 (buffer.length - 8) | none
  match ← resolved env buffer (idEnd + 1) (n - idEnd - 2) with
  | none => return none
  | some ip => return some ⟨some ip, port⟩

def httpGetAddr (env : Env) (buffer : Bytes) (n : Nat) : Option (Option Dst) := do
  let ref ← parseHttp buffer n true
  let some host := ref.hs | return none
  match ← resolved env buffer host ref.len with
  | none => return none
  | some ip => return some ⟨some ip, htons (ref.port.getD 0)⟩

def tlsGetAddr (env : Env) (buffer : Bytes) (n : Nat) : Option (Option Dst) := do
  let ref ← parseTls buffer n
  let some host := ref.hs | return none
  if ref.len < 3 ∨ 255 < ref.len then return none
  if !env.resolve then return some ⟨none, htons 443⟩
  match ← resolved env buffer host ref.len with
  | none => return none
  | some ip => return some ⟨some ip, htons 443⟩

def octets4 (a b c d : UInt8) : Octets 4 := ⟨[a, b, c, d], rfl⟩

def octets2 (p q : UInt8) : Octets 2 := ⟨[p, q], rfl⟩

/-- A `struct s4_req` and what follows it. -/
def s4Req (ver cmd p q a b c d : UInt8) (user : Bytes) : Bytes :=
  ver :: cmd :: p :: q :: a :: b :: c :: d :: user

/-- A SOCKS4 request that is accepted: an address, or a name behind an address `0.0.0.x`. -/
inductive Encodes4 (env : Env) : Bytes → Dst → Prop
  | ip {ver p q a b c d : UInt8} {user : Bytes} (hip : 255 < ntohl (octets4 a b c d))
      (huser : user ≠ []) :
      Encodes4 env (s4Req ver 0x01 p q a b c d user)
        ⟨some (.v4 (octets4 a b c d)), octets2 p q⟩
  | name {ver p q x : UInt8} {user domain : Bytes} {ip : Ip} (hresolve : env.resolve = true)
      (huser : 0 ∉ user) (hshort : 3 ≤ domain.length) (hlong : domain.length ≤ 255)
      (hip : env.getaddrinfo (domain.takeWhile (· != 0)) = some ip) :
      Encodes4 env (s4Req ver 0x01 p q 0 0 0 x (user ++ 0 :: (domain ++ [0])))
        ⟨some ip, octets2 p q⟩

section Front

variable {b r : Bytes} {i : Int} {env : Env}

lemma octets_bytes {m : Nat} : (octets b i m).map Octets.bytes = slice b i m := by
  unfold octets
  split
  · next h => exact h.symm
  · next xs h => exact h.symm

lemma octets_front {m : Nat} (h : r <+: b) (hm : i + m ≤ r.length) :
    octets b i m = octets r i m := by
  have hinj : Function.Injective (Octets.bytes : Octets m → Bytes) := fun x y h => Octets.ext h
  apply Option.map_injective hinj
  rw [octets_bytes, octets_bytes, slice_front h hm]

/-- What stands behind the message does not matter. -/
lemma s5GetAddr_front (env : Env) (addr : SockAddr) (h : r <+: b) :
    s5GetAddr env b r.length addr = s5GetAddr env r r.length addr := by
  unfold s5GetAddr
  split
  · rfl
  · next hmin =>
    have hatp : rd b 3 = rd r 3 := rd_front h (by omega)
    have hlen : rd b 4 = rd r 4 := rd_front h (by omega)
    have hv4 : octets b 4 4 = octets r 4 4 := octets_front h (by omega)
    have hport : ∀ o : Nat, o ≤ r.length → octets b ((o : Int) - 2) 2 =
        octets r ((o : Int) - 2) 2 := fun o ho => octets_front h (by omega)
    rw [hatp, hlen, hv4]
    simp only [Option.bind_eq_bind]
    cases rd r 3 with
    | none => rfl
    | some atp =>
      simp only [Option.bind_some]
      by_cases h1 : atp = 0x01
      · simp only [if_pos h1, Option.bind_some]
        split
        · rfl
        · next ho => rw [hport 10 (Nat.not_lt.mp ho)]
      by_cases h3 : atp = 0x03
      · simp only [if_neg h1, if_pos h3]
        cases rd r 4 with
        | none => rfl
        | some len =>
          simp only [Option.map_some, Option.bind_some]
          split
          · rfl
          · next ho =>
            have hname : slice b 5 len.toNat = slice r 5 len.toNat := slice_front h (by omega)
            rw [hport _ (Nat.not_lt.mp ho), hname]
      by_cases h4 : atp = 0x04
      · simp only [if_neg h1, if_neg h3, if_pos h4, Option.bind_some]
        split
        · rfl
        · next ho =>
          have hv6 : octets b 4 16 = octets r 4 16 := octets_front h (by omega)
          rw [hport 22 (Nat.not_lt.mp ho), hv6]
      · simp only [if_neg h1, if_neg h3, if_neg h4, Option.bind_some]
        rw [hport 0 (Nat.zero_le _)]

/-- The errors of `s5_get_addr`. -/
lemma s5GetAddr_code {n : Nat} {addr a : SockAddr} {k : Int}
    (hget : s5GetAddr env b n addr = some (k, a)) : 0 ≤ k ∨ k = -1 ∨ k = -4 ∨ k = -8 := by
  unfold s5GetAddr at hget
  split at hget
  · cases hget
    exact Or.inr (Or.inl rfl)
  obtain ⟨atp, -, hget⟩ := Option.bind_eq_some_iff.mp hget
  obtain ⟨o, -, hget⟩ := Option.bind_eq_some_iff.mp hget
  split at hget
  · cases hget
    exact Or.inr (Or.inl rfl)
  split at hget
  · obtain ⟨ip, -, hget⟩ := Option.bind_eq_some_iff.mp hget
    obtain ⟨port, -, hget⟩ := Option.bind_eq_some_iff.mp hget
    cases hget
    exact Or.inl (Int.natCast_nonneg o)
  split at hget
  · split at hget
    · cases hget
      exact Or.inr (Or.inr (Or.inr rfl))
    obtain ⟨len, -, hget⟩ := Option.bind_eq_some_iff.mp hget
    split at hget
    · cases hget
      exact Or.inr (Or.inr (Or.inl rfl))
    obtain ⟨name, -, hget⟩ := Option.bind_eq_some_iff.mp hget
    split at hget
    · cases hget
      exact Or.inr (Or.inr (Or.inl rfl))
    · obtain ⟨port, -, hget⟩ := Option.bind_eq_some_iff.mp hget
      cases hget
      exact Or.inl (Int.natCast_nonneg o)
  split at hget
  · split at hget
    · cases hget
      exact Or.inr (Or.inr (Or.inr rfl))
    obtain ⟨ip, -, hget⟩ := Option.bind_eq_some_iff.mp hget
    obtain ⟨port, -, hget⟩ := Option.bind_eq_some_iff.mp hget
    cases hget
    exact Or.inl (Int.natCast_nonneg o)
  · obtain ⟨port, -, hget⟩ := Option.bind_eq_some_iff.mp hget
    cases hget
    exact Or.inl (Int.natCast_nonneg o)

/-- What is accepted is encoded. -/
lemma s5GetAddr_encodes {addr a : SockAddr} {k : Int}
    (hget : s5GetAddr env r r.length addr = some (k, a)) (hk : 0 ≤ k) :
    ∃ k' ip port, Encodes env r k' ip port ∧ dstOf a = ⟨some ip, port⟩ := by
  have of_cases (h : (∃ k ip port, Encodes env r k ip port) ∨ Refuses env r) :
      ∃ k' ip port, Encodes env r k' ip port ∧ dstOf a = ⟨some ip, port⟩ := by
    rcases h with ⟨k', ip, port, he⟩ | hrefuses
    · obtain ⟨a', hget', hip, hport⟩ := he.get addr
      rw [hget, Option.some.injEq, Prod.mk.injEq] at hget'
      obtain ⟨-, rfl⟩ := hget'
      exact ⟨k', ip, port, he, by rw [dstOf, hip, hport]⟩
    · obtain ⟨k', a', hget', hneg⟩ := hrefuses addr
      rw [hget, Option.some.injEq, Prod.mk.injEq] at hget'
      omega
  rcases Nat.lt_or_ge r.length 8 with hshort | hn
  · exact of_cases (.inr (short_refuses hshort))
  · match r, hn with
    | ver :: cmd :: zero :: atp :: lead :: body, hn =>
      simp only [List.length_cons] at hn
      by_cases h1 : atp = 0x01
      · subst h1
        exact of_cases (v4_cases (by simp only [List.length_cons]; omega))
      by_cases h3 : atp = 0x03
      · subst h3
        exact of_cases (name_cases (by omega))
      by_cases h4 : atp = 0x04
      · subst h4
        exact of_cases (v6_cases (by simp only [List.length_cons]; omega))
      · have hnone : s5GetAddr env (ver :: cmd :: zero :: atp :: lead :: body)
            (ver :: cmd :: zero :: atp :: lead :: body).length addr = none :=
          unknown_outside (by simp only [List.length_cons]; omega) rfl h1 h3 h4
        rw [hnone] at hget
        cases hget

end Front

section Socks4

variable {env : Env} {msg stale user domain : Bytes} {ver cmd p q a b c d : UInt8} {dst : Dst}

lemma ntohl_octets4 : ntohl (octets4 a b c d) =
    ((a.toNat * 256 + b.toNat) * 256 + c.toNat) * 256 + d.toNat := by
  simp [ntohl, octets4]

lemma ntohl_low (h : ¬ 255 < ntohl (octets4 a b c d)) : a = 0 ∧ b = 0 ∧ c = 0 := by
  rw [ntohl_octets4] at h
  refine ⟨UInt8.toNat_inj.mp ?_, UInt8.toNat_inj.mp ?_, UInt8.toNat_inj.mp ?_⟩
  · show a.toNat = 0
    omega
  · show b.toNat = 0
    omega
  · show c.toNat = 0
    omega

lemma ntohl_zeros : ntohl (octets4 0 0 0 d) ≤ 255 := by
  rw [ntohl_octets4]
  have hd := d.toNat_lt
  show ((0 * 256 + 0) * 256 + 0) * 256 + d.toNat ≤ 255
  omega

lemma Encodes4.length (h : Encodes4 env msg dst) : 9 ≤ msg.length := by
  cases h with
  | @ip ver p q a b c d user hip huser =>
    have hpos := List.length_pos_iff.mpr huser
    simp only [s4Req, List.length_cons]
    omega
  | name hresolve huser hshort hlong hip =>
    simp only [s4Req, List.length_cons, List.length_append]
    omega

lemma encodes4_iff : Encodes4 env (s4Req ver cmd p q a b c d user) dst ↔
    cmd = 0x01 ∧ dst.port = octets2 p q ∧
      ((255 < ntohl (octets4 a b c d) ∧ user ≠ [] ∧ dst.ip = some (.v4 (octets4 a b c d))) ∨
      (¬ 255 < ntohl (octets4 a b c d) ∧ env.resolve = true ∧ ∃ name domain ip,
        user = name ++ 0 :: domain ++ [0] ∧ 0 ∉ name ∧ 3 ≤ domain.length ∧
        domain.length ≤ 255 ∧ env.getaddrinfo (domain.takeWhile (· != 0)) = some ip ∧
        dst.ip = some ip)) := by
  constructor
  · intro h
    generalize hmsg : s4Req ver cmd p q a b c d user = msg at h
    cases h with
    | ip hip huser =>
      simp only [s4Req, List.cons.injEq] at hmsg
      obtain ⟨-, rfl, rfl, rfl, rfl, rfl, rfl, rfl, rfl⟩ := hmsg
      exact ⟨rfl, rfl, Or.inl ⟨hip, huser, rfl⟩⟩
    | name hresolve huser hshort hlong hip =>
      simp only [s4Req, List.cons.injEq] at hmsg
      obtain ⟨-, rfl, rfl, rfl, rfl, rfl, rfl, rfl, rfl⟩ := hmsg
      exact ⟨rfl, rfl, Or.inr ⟨Nat.not_lt.mpr ntohl_zeros, hresolve, _, _, _,
        (List.append_assoc _ (0 :: _) [0]).symm, huser, hshort, hlong, hip, rfl⟩⟩
  · obtain ⟨ip, port⟩ := dst
    rintro ⟨rfl, hport, ⟨hbig, huser, hip⟩ |
      ⟨hlow, hresolve, name, domain, ip', rfl, hname, hshort, hlong, hget, hip⟩⟩
    · cases hport
      cases hip
      exact .ip hbig huser
    · cases hport
      cases hip
      obtain ⟨rfl, rfl, rfl⟩ := ntohl_low hlow
      rw [List.append_assoc]
      exact .name hresolve hname hshort hlong hget

/-- The first zero of a text is where it is. -/
lemma split_zero {u d u' d' : Bytes} (hu : 0 ∉ u) (hu' : 0 ∉ u')
    (h : u ++ 0 :: d = u' ++ 0 :: d') : u = u' ∧ d = d' := by
  induction u generalizing u' with
  | nil =>
    cases u' with
    | nil => exact ⟨rfl, List.tail_eq_of_cons_eq h⟩
    | cons c u' =>
      cases h
      simp at hu'
  | cons c u ih =>
    cases u' with
    | nil =>
      cases h
      simp at hu
    | cons c' u' =>
      obtain ⟨hc, htail⟩ := List.cons.inj h
      obtain ⟨rfl, rfl⟩ := ih (fun hmem => hu (List.mem_cons_of_mem _ hmem))
        (fun hmem => hu' (List.mem_cons_of_mem _ hmem)) htail
      exact ⟨by rw [hc], rfl⟩

/-- The last byte of a request, and what it ends with. -/
lemma rd_last (msg stale : Bytes) (x : UInt8) :
    rd (msg ++ [x] ++ stale) ((msg ++ [x]).length - 1 : Int) = some x := by
  have hat : (((msg ++ [x]).length : Nat) : Int) - 1 = (msg.length : Nat) := by
    rw [List.length_append, List.length_singleton]
    omega
  rw [hat, rd_nat, List.append_assoc, List.getElem?_append_right (Nat.le_refl _), Nat.sub_self]
  rfl

lemma s4GetAddr_short (h : msg.length < 9) :
    s4GetAddr env (msg ++ stale) msg.length = some none := by
  unfold s4GetAddr
  rw [if_pos h]
  rfl

section Fields

variable {x : UInt8} {body : Bytes}

/-- The fixed fields, of a request that is long enough; it ends with `x`. -/
lemma s4GetAddr_fields :
    s4GetAddr env (s4Req ver cmd p q a b c d (body ++ [x]) ++ stale)
        (s4Req ver cmd p q a b c d (body ++ [x])).length =
      if cmd ≠ 0x01 then some none
      else if 255 < ntohl (octets4 a b c d) then
        some (some ⟨some (.v4 (octets4 a b c d)), octets2 p q⟩)
      else if !env.resolve then some none
      else if x ≠ 0 then some none
      else
        (findIn (s4Req ver cmd p q a b c d (body ++ [x]) ++ stale) (· == 0) 8
          ((s4Req ver cmd p q a b c d (body ++ [x]) ++ stale).length - 8)).bind fun idEnd =>
        idEnd.bind fun idEnd =>
        (resolved env (s4Req ver cmd p q a b c d (body ++ [x]) ++ stale) (idEnd + 1)
          ((s4Req ver cmd p q a b c d (body ++ [x])).length - idEnd - 2)).map fun ip =>
        ip.map fun ip => ⟨some ip, octets2 p q⟩ := by
  have hlen : ¬ (s4Req ver cmd p q a b c d (body ++ [x])).length < 9 := by
    simp only [s4Req, List.length_cons, List.length_append]
    omega
  have hcmd : rd (s4Req ver cmd p q a b c d (body ++ [x]) ++ stale) 1 = some cmd := rfl
  have hport : octets (s4Req ver cmd p q a b c d (body ++ [x]) ++ stale) 2 2 =
      some (octets2 p q) :=
    octets_text [ver, cmd] (a :: b :: c :: d :: (body ++ [x] ++ stale)) (octets2 p q)
  have hip : octets (s4Req ver cmd p q a b c d (body ++ [x]) ++ stale) 4 4 =
      some (octets4 a b c d) :=
    octets_text [ver, cmd, p, q] (body ++ [x] ++ stale) (octets4 a b c d)
  have hlast := rd_last (s4Req ver cmd p q a b c d body) stale x
  have hmsg : s4Req ver cmd p q a b c d body ++ [x] = s4Req ver cmd p q a b c d (body ++ [x]) := rfl
  rw [hmsg] at hlast
  unfold s4GetAddr
  rw [if_neg hlen, hcmd, hport, hip]
  simp only [Option.bind_eq_bind, Option.bind_some, hlast]
  congr 4
  congr 1
  funext found
  cases found with
  | none => rfl
  | some idEnd =>
    simp only [Option.bind_some]
    cases resolved env (s4Req ver cmd p q a b c d (body ++ [x]) ++ stale) (idEnd + 1)
        ((s4Req ver cmd p q a b c d (body ++ [x])).length - idEnd - 2) with
    | none => rfl
    | some ip => cases ip <;> rfl

/-- The name is the part between the first zero and the last byte, which is zero too. -/
lemma s4GetAddr_name (hlow : ¬ 255 < ntohl (octets4 a b c d)) (hresolve : env.resolve = true)
    (huser : 0 ∉ user) :
    s4GetAddr env (s4Req ver 0x01 p q a b c d (user ++ 0 :: domain ++ [0]) ++ stale)
        (s4Req ver 0x01 p q a b c d (user ++ 0 :: domain ++ [0])).length =
      some (if domain.length < 3 ∨ 255 < domain.length then none
        else (env.getaddrinfo (domain.takeWhile (· != 0))).map
          fun ip => ⟨some ip, octets2 p q⟩) := by
  have hfirst : FirstHit (s4Req ver 0x01 p q a b c d (user ++ 0 :: domain ++ [0]) ++ stale)
      (· == 0) 8 (s4Req ver 0x01 p q a b c d (user ++ 0 :: domain ++ [0]) ++ stale).length
      (8 + user.length) := by
    have htext : s4Req ver 0x01 p q a b c d (user ++ 0 :: domain ++ [0]) ++ stale =
        [ver, 0x01, p, q, a, b, c, d] ++ (user ++ 0 :: (domain ++ [0] ++ stale)) := by
      simp [s4Req]
    rw [htext]
    refine firstHit_text ?_ rfl
    intro x hx
    have hne : x ≠ 0 := fun h => huser (h ▸ hx)
    simp [hne]
  have hname : slice (s4Req ver 0x01 p q a b c d (user ++ 0 :: domain ++ [0]) ++ stale)
      ((8 + user.length : Nat) + 1) domain.length = some domain := by
    have htext := slice_text ([ver, 0x01, p, q, a, b, c, d] ++ user ++ [0]) domain ([0] ++ stale)
    have hfront : (([ver, 0x01, p, q, a, b, c, d] ++ user ++ [0]).length : Int) =
        (8 + user.length : Nat) + 1 := by
      simp only [List.length_append, List.length_cons, List.length_nil]
      omega
    rw [hfront] at htext
    rw [← htext]
    congr 1
    simp [s4Req]
  have hfind : findIn (s4Req ver 0x01 p q a b c d (user ++ 0 :: domain ++ [0]) ++ stale) (· == 0) 8
      ((s4Req ver 0x01 p q a b c d (user ++ 0 :: domain ++ [0]) ++ stale).length - 8) =
      some (some ((8 + user.length : Nat) : Int)) := findIn_of_firstHit hfirst (Nat.le_refl _)
  have hlen : ((s4Req ver 0x01 p q a b c d (user ++ 0 :: domain ++ [0])).length : Int) -
      (8 + user.length : Nat) - 2 = domain.length := by
    simp only [s4Req, List.length_cons, List.length_append, List.length_nil]
    omega
  rw [s4GetAddr_fields, if_neg (by simp), if_neg hlow, if_neg (by simp [hresolve]),
    if_neg (by simp), hfind, Option.bind_some, Option.bind_some, hlen, resolved]
  by_cases hbad : domain.length < 3 ∨ 255 < domain.length
  · rw [if_pos (by omega), if_pos hbad]
    rfl
  · rw [if_neg (by omega), if_neg hbad, hname]
    rfl

/-- Without a zero before the last byte there is no name. -/
lemma s4GetAddr_nameless (hlow : ¬ 255 < ntohl (octets4 a b c d)) (hresolve : env.resolve = true)
    (huser : 0 ∉ user) :
    s4GetAddr env (s4Req ver 0x01 p q a b c d (user ++ [0]) ++ stale)
        (s4Req ver 0x01 p q a b c d (user ++ [0])).length = some none := by
  have hfirst : FirstHit (s4Req ver 0x01 p q a b c d (user ++ [0]) ++ stale) (· == 0) 8
      (s4Req ver 0x01 p q a b c d (user ++ [0]) ++ stale).length (8 + user.length) := by
    have htext : s4Req ver 0x01 p q a b c d (user ++ [0]) ++ stale =
        [ver, 0x01, p, q, a, b, c, d] ++ (user ++ 0 :: stale) := by
      simp [s4Req]
    rw [htext]
    refine firstHit_text ?_ rfl
    intro x hx
    have hne : x ≠ 0 := fun h => huser (h ▸ hx)
    simp [hne]
  have hfind : findIn (s4Req ver 0x01 p q a b c d (user ++ [0]) ++ stale) (· == 0) 8
      ((s4Req ver 0x01 p q a b c d (user ++ [0]) ++ stale).length - 8) =
      some (some ((8 + user.length : Nat) : Int)) := findIn_of_firstHit hfirst (Nat.le_refl _)
  have hlen : ((s4Req ver 0x01 p q a b c d (user ++ [0])).length : Int) -
      (8 + user.length : Nat) - 2 = -1 := by
    simp only [s4Req, List.length_cons, List.length_append, List.length_nil]
    omega
  rw [s4GetAddr_fields, if_neg (by simp), if_neg hlow, if_neg (by simp [hresolve]),
    if_neg (by simp), hfind, Option.bind_some, Option.bind_some, hlen, resolved]
  rfl

end Fields

/-- `s4_get_addr` reads the buffer only, and accepts what a SOCKS4 or SOCKS4a request encodes and
nothing else, whatever stands behind the request. -/
theorem s4_request_exact (env : Env) (msg stale : Bytes) :
    ∃ r, s4GetAddr env (msg ++ stale) msg.length = some r ∧
      ∀ dst, r = some dst ↔ Encodes4 env msg dst := by
  rcases Nat.lt_or_ge msg.length 9 with hshort | hlong
  · refine ⟨none, s4GetAddr_short hshort, fun dst => ⟨?_, fun h => ?_⟩⟩
    · intro h
      cases h
    · have hlen := h.length
      omega
  obtain ⟨ver, cmd, p, q, a, b, c, d, body, x, rfl⟩ : ∃ ver cmd p q a b c d body x,
      msg = s4Req ver cmd p q a b c d (body ++ [x]) := by
    match msg, hlong with
    | ver :: cmd :: p :: q :: a :: b :: c :: d :: user, hlong =>
      have hne : user ≠ [] := by
        rintro rfl
        simp only [List.length_cons, List.length_nil] at hlong
        omega
      exact ⟨ver, cmd, p, q, a, b, c, d, user.dropLast, user.getLast hne, by
        rw [List.dropLast_append_getLast]
        rfl⟩
  have refuse (h : ∀ dst, ¬ Encodes4 env (s4Req ver cmd p q a b c d (body ++ [x])) dst)
      (dst : Dst) :
      none = some dst ↔ Encodes4 env (s4Req ver cmd p q a b c d (body ++ [x])) dst := by
    refine ⟨fun hno => ?_, fun hdst => absurd hdst (h dst)⟩
    cases hno
  simp only [encodes4_iff] at refuse ⊢
  by_cases hcmd : cmd = 0x01
  case neg => exact ⟨none, by rw [s4GetAddr_fields, if_pos hcmd], refuse fun dst h => hcmd h.1⟩
  subst hcmd
  by_cases hbig : 255 < ntohl (octets4 a b c d)
  · refine ⟨_, by rw [s4GetAddr_fields, if_neg (by simp), if_pos hbig], fun dst => ?_⟩
    constructor
    · intro h
      cases h
      exact ⟨rfl, rfl, Or.inl ⟨hbig, by simp, rfl⟩⟩
    · obtain ⟨ip, port⟩ := dst
      rintro ⟨-, hport, ⟨-, -, hip⟩ | ⟨hlow, -⟩⟩
      · cases hport
        cases hip
        rfl
      · exact absurd hbig hlow
  by_cases hresolve : env.resolve = true
  case neg =>
    refine ⟨none, ?_, refuse ?_⟩
    · rw [s4GetAddr_fields, if_neg (by simp), if_neg hbig, if_pos (by simp [hresolve])]
    · rintro dst ⟨-, -, ⟨h, -⟩ | ⟨-, h, -⟩⟩
      · exact hbig h
      · exact hresolve h
  by_cases hlast : x = 0
  case neg =>
    refine ⟨none, ?_, refuse ?_⟩
    · rw [s4GetAddr_fields, if_neg (by simp), if_neg hbig, if_neg (by simp [hresolve]),
        if_pos hlast]
    · rintro dst ⟨-, -, ⟨h, -⟩ | ⟨-, -, name, domain, ip, htext, -⟩⟩
      · exact hbig h
      · exact hlast (List.append_inj_right' htext rfl |> List.singleton_inj.mp)
  subst hlast
  by_cases hzero : (0 : UInt8) ∈ body
  · obtain ⟨user, domain, rfl, huser⟩ := List.eq_append_cons_of_mem hzero
    refine ⟨_, s4GetAddr_name hbig hresolve huser, fun dst => ?_⟩
    obtain ⟨target, port⟩ := dst
    constructor
    · intro h
      split at h
      · cases h
      · next hlen =>
        obtain ⟨ip, hip, hdst⟩ := Option.map_eq_some_iff.mp h
        cases hdst
        exact ⟨rfl, rfl, Or.inr ⟨hbig, hresolve, user, domain, ip, rfl, huser, by omega, by omega,
          hip, rfl⟩⟩
    · rintro ⟨-, hport,
        ⟨h, -⟩ | ⟨-, -, name, domain', ip, htext, hname, hshort, hlong, hip, htarget⟩⟩
      · exact absurd h hbig
      · cases hport
        cases htarget
        obtain ⟨rfl, rfl⟩ := split_zero huser hname (List.append_inj_left' htext rfl)
        rw [if_neg (by omega), hip]
        rfl
  · refine ⟨none, s4GetAddr_nameless hbig hresolve hzero, refuse ?_⟩
    rintro dst ⟨-, -, ⟨h, -⟩ | ⟨-, -, name, domain, ip, htext, -⟩⟩
    · exact hbig h
    · apply hzero
      rw [List.append_inj_left' htext rfl]
      simp

end Socks4

end RequestAddr
