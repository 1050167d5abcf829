import NoZapret.ClientHello

/-!
# Parameters of the native engine

The part of `params.h` that the request path reads: the list of split points of
one group, its decoy settings and the global switches. `parse_offset` leaves
`r` at 0 when no repeat count is written (it runs before the mode is stored, so
its own default of 2 never applies), and a part with `r = 0` runs once.
-/

namespace Params

open Packets

inductive Demode where
  | none
  | split
  | disorder
  | oob
  | disoob
  | fake
  deriving DecidableEq, Repr

/-- The `OFFSET_*` bits of `part.flag`. -/
structure OffsetFlag where
  toEnd : Bool := false
  mid : Bool := false
  rand : Bool := false
  sni : Bool := false
  host : Bool := false
  start : Bool := false
  deriving DecidableEq, Repr

/-- `part.flag != 0` -/
def OffsetFlag.any (f : OffsetFlag) : Bool :=
  f.toEnd || f.mid || f.rand || f.sni || f.host || f.start

structure Part where
  m : Demode
  flag : OffsetFlag
  pos : Int
  r : Nat
  s : Nat
  deriving DecidableEq, Repr

/-- The desync half of `struct desync_params`. -/
structure DesyncParams where
  ttl : Nat := 0
  md5sig : Bool := false
  fakeData : Option Bytes := none
  fakeOffset : Option Part := none
  fakeSniList : List Bytes := []
  fakeRand : Bool := false
  fakeOrig : Bool := false
  fakeTlsSize : Int := 0
  oobChar : Option UInt8 := none
  parts : List Part := []
  modHttp : HttpMods := ⟨false, false, false⟩
  tlsrec : List Part := []
  tlsminor : Option UInt8 := none
  rounds : Nat × Nat := (0, 0)
  deriving DecidableEq, Repr

structure Globals where
  awaitInt : Nat := 10
  waitSend : Bool := false
  defTtl : Nat := 64
  logEnabled : Bool := false
  deriving DecidableEq, Repr

/-- One run of the loop body: the part and `part.r - r`. -/
abbrev Rep := Part × Nat

/-- The repetitions of one part. The source's loop enters the body once for
`r = 0` and `r` times otherwise, with `part.r - r` counting up from 0. -/
def reps (p : Part) : List Rep := (List.range (max 1 p.r)).map fun k => (p, k)

/-- `for (; r > 0 || i < parts_n; r--)`, unrolled. -/
def expand (parts : List Part) : List Rep := parts.flatMap reps

/-- A mode whose repetitions alternate between a decoy and the real bytes. -/
def Demode.paired : Demode → Bool
  | .disorder | .disoob | .fake => true
  | .none | .split | .oob => false

/-- A mode that sends with `MSG_OOB`. -/
def Demode.urgent : Demode → Bool
  | .oob | .disoob => true
  | .none | .split | .disorder | .fake => false

/-- `is_first_of_pair` -/
def firstOfPair (rep : Rep) : Bool := rep.1.m.paired && rep.2 % 2 == 0

/-- Only plain splits: what `-s` adds. -/
def SplitOnly (parts : List Part) : Prop := ∀ p ∈ parts, p.m = .split

instance (parts : List Part) : Decidable (SplitOnly parts) :=
  inferInstanceAs (Decidable (∀ p ∈ parts, p.m = .split))

lemma mem_expand {parts : List Part} {rep : Rep} (h : rep ∈ expand parts) : rep.1 ∈ parts := by
  simp only [expand, List.mem_flatMap, reps, List.mem_map] at h
  obtain ⟨p, hp, k, -, rfl⟩ := h
  exact hp

lemma splitOnly_rep {parts : List Part} (h : SplitOnly parts) :
    ∀ rep ∈ expand parts, rep.1.m = .split :=
  fun _ hr => h _ (mem_expand hr)

end Params
