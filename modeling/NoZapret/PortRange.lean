import NoZapret.Groups
import NoZapret.OptionValues

/-!
# Ranges of ports

What `--pf` stores in a group and what `check_l34` makes of it. Both bounds and the port of a
destination are kept with the low byte first, and are compared so.
-/

namespace PortRange

open Groups OptionValues

/-- On a little-endian machine. -/
def htons (v : Nat) : Nat := v % 256 * 256 + v / 256 % 256

/-- `--pf` in `parse_args`. -/
def pfCase (g : Group) (optarg : List Char) : Option Group :=
  let (val, rest) := strtol 0 optarg
  if val ≤ 0 ∨ 0xffff < val then none
  else
    let g := { g with pf := (htons val.toNat, g.pf.2) }
    match rest with
    | '-' :: rest =>
      let (val, rest) := strtol 0 rest
      if val ≤ 0 ∨ 0xffff < val ∨ rest ≠ [] then none
      else some { g with pf := (g.pf.1, htons val.toNat) }
    | rest => if rest ≠ [] then none else some { g with pf := (g.pf.1, htons val.toNat) }

/-- The number of a port. -/
def Port (v : Nat) : Prop := 1 ≤ v ∧ v ≤ 65535

/-- The value reads `a` or `a-b`. -/
def Reads (optarg : List Char) (a b : Nat) : Prop :=
  (strtol 0 optarg = ((a : Int), []) ∧ a = b) ∨
    ∃ rest, strtol 0 optarg = ((a : Int), '-' :: rest) ∧ strtol 0 rest = ((b : Int), [])

/-- To the port `p`, and whatever else the group filters by, the option is the range. -/
def Numeric (optarg : List Char) (a b p : Nat) : Prop :=
  ∀ (g g' : Group) (st : SockType) (dst : Dst), pfCase g optarg = some g' → dst.port = htons p →
    checkL34 g' st dst = (checkL34 { g' with pf := (0, 0) } st dst && decide (a ≤ p ∧ p ≤ b))

/-- The high bytes compare one way and the low bytes the other way. -/
def Opposed (v w : Nat) : Prop :=
  (v / 256 < w / 256 ∧ w % 256 < v % 256) ∨ (w / 256 < v / 256 ∧ v % 256 < w % 256)

/-- No bound that is opposed to the port decides. -/
structure Decided (a b p : Nat) : Prop where
  left : Opposed a p → ¬ Opposed p b → ¬ p ≤ b
  right : ¬ Opposed a p → Opposed p b → ¬ a ≤ p
  both : Opposed a p → Opposed p b → (a ≤ p ↔ ¬ p ≤ b)

section Stored

variable {a b p v w : Nat} {optarg : List Char} {g g' : Group}

lemma htons_pos (hv : Port v) : htons v ≠ 0 := by
  obtain ⟨hlo, hhi⟩ := hv
  unfold htons
  omega

/-- Unless the bytes are opposed, the stored numbers compare as the ports do. -/
lemma htons_le (hv : v ≤ 65535) (hw : w ≤ 65535) (h : ¬ Opposed v w) :
    htons v ≤ htons w ↔ v ≤ w := by
  unfold Opposed at h
  unfold htons
  omega

lemma htons_le_opposed (hv : v ≤ 65535) (hw : w ≤ 65535) (h : Opposed v w) :
    htons v ≤ htons w ↔ ¬ v ≤ w := by
  unfold Opposed at h
  unfold htons
  omega

lemma pfCase_reads (hval : Reads optarg a b) (ha : Port a) (hb : Port b) :
    pfCase g optarg = some { g with pf := (htons a, htons b) } := by
  obtain ⟨ha1, ha2⟩ := ha
  obtain ⟨hb1, hb2⟩ := hb
  obtain ⟨h, rfl⟩ | ⟨rest, h, hrest⟩ := hval
  · simp only [pfCase, h, Int.toNat_natCast]
    rw [if_neg (by omega)]
    rfl
  · simp only [pfCase, h, hrest, Int.toNat_natCast]
    rw [if_neg (by omega), if_neg (by simp; omega)]

/-- The values that are accepted. -/
theorem pfCase_some : (pfCase g optarg).isSome ↔ ∃ a b, Reads optarg a b ∧ Port a ∧ Port b := by
  constructor
  · intro h
    unfold pfCase at h
    cases hval : strtol 0 optarg with
    | mk val rest =>
      simp only [hval] at h
      split at h
      · cases h
      rename_i hrange
      have hcast : ((val.toNat : Nat) : Int) = val := by omega
      split at h
      · rename_i rest'
        cases hval' : strtol 0 rest' with
        | mk val' rest'' =>
          simp only [hval'] at h
          split at h
          · cases h
          rename_i hrange'
          simp only [not_or, not_not] at hrange'
          obtain ⟨hlo, hhi, rfl⟩ := hrange'
          have hcast' : ((val'.toNat : Nat) : Int) = val' := by omega
          refine ⟨val.toNat, val'.toNat, .inr ⟨rest', ?_, ?_⟩, ⟨by omega, by omega⟩,
            ⟨by omega, by omega⟩⟩
          · rw [hval, hcast]
          · rw [hval', hcast']
      · split at h
        · cases h
        rename_i hrest
        refine ⟨val.toNat, val.toNat, .inl ⟨?_, rfl⟩, ⟨by omega, by omega⟩, ⟨by omega, by omega⟩⟩
        rw [hval, hcast, not_not.mp hrest]
  · rintro ⟨a, b, hval, ha, hb⟩
    rw [pfCase_reads hval ha hb]
    rfl

/-- The part of `check_l34` that is about the port. -/
lemma checkL34_port (st : SockType) (dst : Dst) (h : g.pf.1 ≠ 0) :
    checkL34 g st dst = (checkL34 { g with pf := (0, 0) } st dst &&
      decide (g.pf.1 ≤ dst.port ∧ dst.port ≤ g.pf.2)) := by
  have hport : (!(g.pf.1 != 0 && (decide (dst.port < g.pf.1) || decide (g.pf.2 < dst.port)))) =
      decide (g.pf.1 ≤ dst.port ∧ dst.port ≤ g.pf.2) := by
    rw [bne_iff_ne.mpr h, Bool.true_and, eq_comm, Bool.decide_and, Bool.not_or,
      ← decide_not, ← decide_not]
    simp only [Nat.not_lt]
  simp only [checkL34, hport]
  simp only [bne_self_eq_false, Bool.false_and, Bool.not_false, Bool.and_true]
  rw [Bool.and_assoc, Bool.and_comm (decide _), ← Bool.and_assoc]

lemma numeric_iff_stored (hval : Reads optarg a b) (ha : Port a) (hb : Port b) :
    Numeric optarg a b p ↔
      ((htons a ≤ htons p ∧ htons p ≤ htons b) ↔ (a ≤ p ∧ p ≤ b)) := by
  constructor
  · intro h
    have hfree := h { id := 0 } _ .stream ⟨true, false, [], htons p⟩ (pfCase_reads hval ha hb) rfl
    rw [checkL34_port _ _ (htons_pos ha)] at hfree
    have hothers : checkL34 { id := 0 } .stream ⟨true, false, [], htons p⟩ = true := by
      simp [checkL34]
    rw [hothers, Bool.true_and, Bool.true_and] at hfree
    exact decide_eq_decide.mp hfree
  · rintro h g g' st dst hg hport
    rw [pfCase_reads hval ha hb, Option.some.injEq] at hg
    subst hg
    rw [checkL34_port _ _ (htons_pos ha), hport]
    simp only [h]

lemma decided_iff (ha : Port a) (hb : Port b) (hp : p ≤ 65535) :
    ((htons a ≤ htons p ∧ htons p ≤ htons b) ↔ (a ≤ p ∧ p ≤ b)) ↔ Decided a b p := by
  obtain ⟨-, ha⟩ := ha
  obtain ⟨-, hb⟩ := hb
  by_cases hleft : Opposed a p
  · rw [htons_le_opposed ha hp hleft]
    by_cases hright : Opposed p b
    · rw [htons_le_opposed hp hb hright]
      constructor
      · intro h
        exact ⟨fun _ hn => absurd hright hn, fun hn => absurd hleft hn, fun _ _ => by omega⟩
      · intro h
        have hboth := h.both hleft hright
        omega
    · rw [htons_le hp hb hright]
      constructor
      · intro h
        exact ⟨fun _ _ => by omega, fun hn => absurd hleft hn, fun _ hr => absurd hr hright⟩
      · intro h
        have hside := h.left hleft hright
        omega
  · rw [htons_le ha hp hleft]
    by_cases hright : Opposed p b
    · rw [htons_le_opposed hp hb hright]
      constructor
      · intro h
        exact ⟨fun hl => absurd hl hleft, fun _ _ => by omega, fun hl => absurd hl hleft⟩
      · intro h
        have hside := h.right hleft hright
        omega
    · rw [htons_le hp hb hright]
      constructor
      · intro h
        exact ⟨fun hl => absurd hl hleft, fun _ hr => absurd hr hright, fun hl => absurd hl hleft⟩
      · intro h
        exact Iff.rfl

end Stored

section Ranges

variable {a b : Nat}

/-- In a range of more than one port some port is taken for one outside, or the other way. -/
lemma exists_mistaken (ha : Port a) (hb : Port b) (hab : a < b) :
    ∃ p ≤ 65535, ¬ ((htons a ≤ htons p ∧ htons p ≤ htons b) ↔ (a ≤ p ∧ p ≤ b)) := by
  obtain ⟨ha1, ha2⟩ := ha
  obtain ⟨hb1, hb2⟩ := hb
  unfold htons
  by_cases hhigh : a / 256 = b / 256
  · by_cases htop : a / 256 = 255
    -- the low byte of `b` behind a smaller high byte
    · exact ⟨254 * 256 + b % 256, by omega, by omega⟩
    -- the low byte of `a` behind a larger high byte
    · exact ⟨(a / 256 + 1) * 256 + a % 256, by omega, by omega⟩
  · by_cases hlast : b % 256 = 255
    · by_cases hfirst : a % 256 = 0
      · exact ⟨1, by omega, by omega⟩
      · exact ⟨(a / 256 + 1) * 256, by omega, by omega⟩
    · exact ⟨a / 256 * 256 + 255, by omega, by omega⟩

lemma range_iff (ha : Port a) (hb : Port b) :
    (∀ p ≤ 65535, (htons a ≤ htons p ∧ htons p ≤ htons b) ↔ (a ≤ p ∧ p ≤ b)) ↔
      a = b ∨ (b < a ∧ htons b < htons a) := by
  constructor
  · intro h
    rcases Nat.lt_trichotomy a b with hab | hab | hab
    · obtain ⟨p, hp, hmistaken⟩ := exists_mistaken ha hb hab
      exact absurd (h p hp) hmistaken
    · exact .inl hab
    · have hself := h a ha.2
      exact .inr ⟨hab, by omega⟩
  · rintro (rfl | ⟨hab, hstored⟩) p hp
    · have hle := ha.2
      unfold htons
      omega
    · omega

end Ranges

/-- For one port: the bytes of the port and of the bounds decide. For one value of the option:
all ports are taken right only for a single port, and for some of the empty ranges. -/
theorem port_range_iff (optarg : List Char) (a b : Nat) (hval : Reads optarg a b) (ha : Port a)
    (hb : Port b) :
    (∀ p ≤ 65535, Numeric optarg a b p ↔ Decided a b p) ∧
      ((∀ p ≤ 65535, Numeric optarg a b p) ↔ a = b ∨ (b < a ∧ htons b < htons a)) := by
  constructor
  · intro p hp
    rw [numeric_iff_stored hval ha hb, decided_iff ha hb hp]
  · simp only [numeric_iff_stored hval ha hb]
    exact range_iff ha hb

theorem port_range_iff_443 :
    Reads ['4', '4', '3'] 443 443 ∧ ∀ p ≤ 65535, Numeric ['4', '4', '3'] 443 443 p := by
  have hreads : Reads ['4', '4', '3'] 443 443 := .inl ⟨by decide, rfl⟩
  refine ⟨hreads, ?_⟩
  exact (port_range_iff ['4', '4', '3'] 443 443 hreads ⟨by decide, by decide⟩
    ⟨by decide, by decide⟩).2.mpr (.inl rfl)

/-- `--pf 1-2` lets port 257 pass. -/
theorem port_257_in_1_2 : ¬ ∀ (optarg : List Char) (a b : Nat), Reads optarg a b → Port a → Port b →
    ∀ p ≤ 65535, Numeric optarg a b p := by
  intro h
  have hreads : Reads ['1', '-', '2'] 1 2 := .inr ⟨['2'], by decide, by decide⟩
  have hnumeric := h _ 1 2 hreads ⟨by decide, by decide⟩ ⟨by decide, by decide⟩ 257 (by decide)
  have hpass := hnumeric { id := 0 } { id := 0, pf := (256, 512) } .stream ⟨true, false, [], 257⟩
    (by rfl) (by decide)
  revert hpass
  decide

end PortRange
