import NoZapret.Packets

/-!
# Internet addresses

The addresses of both families, and what is documented of the `inet_pton` of the C library, which
reads their text.
-/

namespace Inet

open Packets

inductive Family where
  | inet
  | inet6
  deriving DecidableEq, Repr

/-- The bytes of a `struct in_addr` and of a `struct in6_addr`. -/
def Family.size : Family → Nat
  | .inet => 4
  | .inet6 => 16

/-- A `union sockaddr_u` without its port. -/
structure Addr where
  family : Family
  data : Bytes
  length_eq : data.length = family.size

def isxdigit (c : UInt8) : Bool :=
  isdigit c || (ch 'a' ≤ c && c ≤ ch 'f') || (ch 'A' ≤ c && c ≤ ch 'F')

/-- `inet_pton`. An accepted text has no other characters than hexadecimal digits, colons and
dots, and fits `INET6_ADDRSTRLEN`. -/
structure Pton where
  pton : Family → Bytes → Option Bytes
  length_eq : ∀ {f t d}, pton f t = some d → d.length = f.size
  short : ∀ {f t d}, pton f t = some d → t.length < 46
  plain : ∀ {f t d}, pton f t = some d → ∀ c ∈ t, isxdigit c = true ∨ c = ch ':' ∨ c = ch '.'

/-- The address of a text, of whatever family it is. -/
def Pton.addr (I : Pton) (text : Bytes) : Option Addr :=
  match h4 : I.pton .inet text with
  | some d => some ⟨.inet, d, I.length_eq h4⟩
  | none =>
    match h6 : I.pton .inet6 text with
    | some d => some ⟨.inet6, d, I.length_eq h6⟩
    | none => none

end Inet
