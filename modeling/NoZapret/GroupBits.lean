import Mathlib.Data.List.Nodup
import NoZapret.Groups
import NoZapret.ParseArgs

/-!
# The bits of the groups

`main.c`: what `add_group` counts, and where `parse_args` calls it: before the options, at an
`--auto` that opens a group, and behind them when every group is limited.
-/

namespace GroupBits

open Getopt Options OptionValues Loops ParseArgs
open Groups (Mask bitOf bitOf_eq)

/-- `1 << dp->id`: from the width of an `int` on it is undefined. -/
def newBit (id : Nat) : Option Mask := if id < 32 then some (bitOf id) else none

/-- The bits of some groups in one mask. -/
def union (bits : List (Option Mask)) : Option Mask :=
  bits.foldl (fun m b => do return (← m) ||| (← b)) (some 0)

structure Count where
  /-- `params.dp_n` -/
  dpN : Nat := 0
  /-- `params.dp_full_mask` -/
  fullMask : Option Mask := some 0
  /-- of the groups in the list -/
  bits : List (Option Mask) := []
  /-- `dp->hosts || dp->proto || dp->pf[0] || dp->detect || dp->ipset` -/
  limited : Bool := false
  allLimited : Bool := true

def Count.addGroup (c : Count) : Count :=
  { c with
    dpN := c.dpN + 1
    fullMask := do return (← c.fullMask) ||| (← newBit c.dpN)
    bits := c.bits ++ [newBit c.dpN]
    limited := false }

/-- Whether the value of `--auto` sets `dp->detect`; `p=` ends an accepted one. -/
def detects : List Char → Bool
  | [] => false
  | c :: cs =>
    if c = 'p' then false
    else if ['t', 'r', 's', 'c'].contains c then true
    else
      match _hcomma : strchr ',' (c :: cs) with
      | none => false
      | some comma => detects (comma.drop 1)
termination_by cs => cs.length
decreasing_by
  obtain ⟨tail, rfl, hlt⟩ := strchr_some _hcomma
  exact hlt

/-- What the cases of `parse_args` change of the count. -/
def Count.take (c : Count) (curr : Nat) (item : Item) (pos : Cursor) : Count :=
  match item.val with
  | 'A' =>
    if pos.optind < curr then c
    else
      { Count.addGroup { c with allLimited := c.allLimited && c.limited } with
        limited := detects (optarg item) }
  | 'B' =>
    if pos.optind < curr ∨ (optarg item).head? ≠ some 'i' then c else { c with limited := true }
  | 'K' | 'H' | 'j' | 'V' => { c with limited := true }
  | _ => c

structure Parsing where
  loop : Loop
  count : Count

/-- The option loop with the count. -/
def parseStep (sys : System) (argv : List String) (p : Parsing) : Outcome Parsing (Int × Count) :=
  match step sys argv p.loop, getoptLong options argv p.loop.pos with
  | .running t, .item item pos => .running ⟨t, p.count.take p.loop.curr item pos⟩
  | .running t, _ => .running ⟨t, p.count⟩
  | .returned status, _ => .returned (status, p.count)
  | .crashed, _ => .crashed

def parseStart : Parsing := ⟨start, Count.addGroup {}⟩

/-- `if (all_limited)` behind the loop. -/
def Count.finish (c : Count) : Count := if c.allLimited then c.addGroup else c

/-- `parse_args` returns 0 for these arguments and leaves this count. -/
def Parses (sys : System) (args : List String) (c : Count) : Prop :=
  ∃ n k, exec (parseStep sys ("byedpi" :: args)) n parseStart = .returned (0, k) ∧ k.finish = c

/-- Each group has a bit of its own, and a test of it against a union of bits is for this group. -/
structure Distinct (c : Count) : Prop where
  power : ∀ b ∈ c.bits, ∃ i < 64, b = some (BitVec.twoPow 64 i)
  differ : c.bits.Nodup
  fullMask : c.fullMask = union c.bits
  test : ∀ (tried : List Mask) (bit : Mask), (∀ b ∈ tried, some b ∈ c.bits) → some bit ∈ c.bits →
    (bit &&& tried.foldl (· ||| ·) 0 ≠ 0 ↔ bit ∈ tried)
  fits : c.bits.length ≤ 64

section Loop

variable {sys : System} {argv args : List String} {c : Count} {p q : Parsing}

lemma parseStep_map (p : Parsing) :
    step sys argv p.loop = (parseStep sys argv p).map Parsing.loop Prod.fst := by
  unfold parseStep
  cases step sys argv p.loop with
  | running t => cases getoptLong options argv p.loop.pos <;> rfl
  | returned status => rfl
  | crashed => rfl

/-- The count follows the loop and does not change it. -/
theorem accepts_iff : Accepts sys args ↔ ∃ c, Parses sys args c := by
  have hmap : ∀ n, exec (step sys ("byedpi" :: args)) n start =
      (exec (parseStep sys ("byedpi" :: args)) n parseStart).map Parsing.loop Prod.fst :=
    fun n => exec_map parseStep_map n parseStart
  constructor
  · rintro ⟨n, hn⟩
    rw [hmap] at hn
    cases h : exec (parseStep sys ("byedpi" :: args)) n parseStart with
    | running p =>
      rw [h] at hn
      cases hn
    | returned r =>
      rw [h] at hn
      obtain ⟨status, k⟩ := r
      cases hn
      exact ⟨k.finish, n, k, h, rfl⟩
    | crashed =>
      rw [h] at hn
      cases hn
  · rintro ⟨c, n, k, hn, -⟩
    refine ⟨n, ?_⟩
    rw [hmap, hn]
    rfl

/-- The groups are numbered in order, and the mask has the bits that were given out. -/
structure Numbered (c : Count) : Prop where
  bits : c.bits = (List.range c.dpN).map newBit
  fullMask : c.fullMask = union c.bits

lemma union_append (bits : List (Option Mask)) (b : Option Mask) :
    union (bits ++ [b]) = do return (← union bits) ||| (← b) := by
  simp only [union, List.foldl_append, List.foldl_cons, List.foldl_nil]

lemma Numbered.addGroup (h : Numbered c) : Numbered c.addGroup := by
  refine ⟨?_, ?_⟩
  · simp only [Count.addGroup, List.range_succ, List.map_append, List.map_cons, List.map_nil, h.bits]
  · simp only [Count.addGroup, union_append, h.fullMask]

lemma Numbered.limit (h : Numbered c) (limited allLimited : Bool) :
    Numbered { c with limited := limited, allLimited := allLimited } :=
  ⟨h.bits, h.fullMask⟩

lemma Numbered.take (h : Numbered c) (curr : Nat) (item : Item) (pos : Cursor) :
    Numbered (c.take curr item pos) := by
  unfold Count.take
  split
  · split
    · exact h
    · exact ((h.limit c.limited (c.allLimited && c.limited)).addGroup).limit _ _
  · split
    · exact h
    · exact h.limit true _
  · exact h.limit true _
  · exact h.limit true _
  · exact h.limit true _
  · exact h.limit true _
  · exact h

lemma Numbered.finish (h : Numbered c) : Numbered c.finish := by
  unfold Count.finish
  split
  · exact h.addGroup
  · exact h

lemma numbered_start : Numbered parseStart.count := ⟨rfl, rfl⟩

lemma Numbered.step (h : Numbered p.count) (hstep : parseStep sys argv p = .running q) :
    Numbered q.count := by
  unfold parseStep at hstep
  split at hstep
  · cases hstep
    exact h.take _ _ _
  · cases hstep
    exact h
  · cases hstep
  · cases hstep

lemma parseStep_returned {status : Int} (h : parseStep sys argv p = .returned (status, c)) :
    c = p.count := by
  unfold parseStep at h
  split at h
  · cases h
  · cases h
  · cases h
    rfl
  · cases h

lemma parses_numbered (h : Parses sys args c) : Numbered c := by
  obtain ⟨n, k, hn, rfl⟩ := h
  obtain ⟨m, p, hp, hlast⟩ := exec_last hn
  have hnum := @exec_inv _ _ _ _ _ _ (fun p : Parsing => Numbered p.count)
    (fun _ _ => Numbered.step) numbered_start hp
  rw [parseStep_returned hlast]
  exact hnum.finish

end Loop

section Bits

variable {c : Count}

lemma newBit_small {i : Nat} (hi : i < 31) : newBit i = some (BitVec.twoPow 64 i) := by
  rw [newBit, if_pos (by omega), bitOf_eq hi]

/-- The sign of the `int` is spread over the upper half. -/
lemma newBit_sign : ¬ ∃ i < 64, newBit 31 = some (BitVec.twoPow 64 i) := by
  decide +kernel

lemma twoPow_inj {i j : Nat} (hi : i < 64) (h : BitVec.twoPow 64 i = BitVec.twoPow 64 j) :
    i = j := by
  have hbit : (BitVec.twoPow 64 i).getLsbD i = (BitVec.twoPow 64 j).getLsbD i := by rw [h]
  rw [BitVec.getLsbD_twoPow, BitVec.getLsbD_twoPow, decide_eq_true hi, decide_eq_true rfl,
    Bool.true_and, eq_comm, Bool.and_eq_true, decide_eq_true_eq, decide_eq_true_eq] at hbit
  exact hbit.2.symm

lemma getLsbD_foldl (tried : List Mask) (m : Mask) (i : Nat) :
    (tried.foldl (· ||| ·) m).getLsbD i = (m.getLsbD i || tried.any fun b => b.getLsbD i) := by
  induction tried generalizing m with
  | nil => simp
  | cons b rest ih =>
    rw [List.foldl_cons, ih, BitVec.getLsbD_or, List.any_cons, Bool.or_assoc]

lemma twoPow_test {tried : List Mask} {i : Nat} (hi : i < 64)
    (hpower : ∀ b ∈ tried, ∃ j, b = BitVec.twoPow 64 j) :
    BitVec.twoPow 64 i &&& tried.foldl (· ||| ·) 0 ≠ 0 ↔ BitVec.twoPow 64 i ∈ tried := by
  have htest : (tried.foldl (· ||| ·) (0 : Mask)).getLsbD i = true ↔
      BitVec.twoPow 64 i ∈ tried := by
    rw [getLsbD_foldl, BitVec.ofNat_eq_ofNat, BitVec.getLsbD_zero, Bool.false_or, List.any_eq_true]
    constructor
    · rintro ⟨b, hb, hbit⟩
      obtain ⟨j, rfl⟩ := hpower b hb
      rw [BitVec.getLsbD_twoPow, Bool.and_eq_true, decide_eq_true_eq, decide_eq_true_eq] at hbit
      exact hbit.2 ▸ hb
    · intro hmem
      exact ⟨_, hmem, by simp [hi]⟩
  rw [BitVec.twoPow_and, ← htest]
  cases (tried.foldl (· ||| ·) (0 : Mask)).getLsbD i with
  | false => simp
  | true => simpa using Groups.twoPow_ne_zero hi

lemma Numbered.distinct (h : Numbered c) (hn : c.bits.length ≤ 31) : Distinct c := by
  have hdp : c.dpN ≤ 31 := by
    simpa [h.bits] using hn
  have hpower : ∀ b ∈ c.bits, ∃ i < 31, b = some (BitVec.twoPow 64 i) := by
    intro b hb
    rw [h.bits] at hb
    obtain ⟨i, hi, rfl⟩ := List.mem_map.mp hb
    have hlt := List.mem_range.mp hi
    exact ⟨i, by omega, newBit_small (by omega)⟩
  refine ⟨?_, ?_, h.fullMask, ?_, by omega⟩
  · intro b hb
    obtain ⟨i, hi, hbit⟩ := hpower b hb
    exact ⟨i, by omega, hbit⟩
  · rw [h.bits]
    refine List.Nodup.map_on ?_ List.nodup_range
    intro i hi j hj heq
    have hi' := List.mem_range.mp hi
    have hj' := List.mem_range.mp hj
    rw [newBit_small (by omega), newBit_small (by omega)] at heq
    exact twoPow_inj (by omega) (Option.some.inj heq)
  · intro tried bit htried hbit
    obtain ⟨i, hi, heq⟩ := hpower _ hbit
    cases heq
    refine twoPow_test (by omega) fun b hb => ?_
    obtain ⟨j, -, hj⟩ := hpower _ (htried b hb)
    exact ⟨j, Option.some.inj hj⟩

lemma Numbered.of_power (h : Numbered c)
    (hpower : ∀ b ∈ c.bits, ∃ i < 64, b = some (BitVec.twoPow 64 i)) : c.bits.length ≤ 31 := by
  by_contra hmany
  have hlen : c.bits.length = c.dpN := by simp [h.bits]
  refine newBit_sign (hpower (newBit 31) ?_)
  rw [h.bits]
  exact List.mem_map_of_mem (List.mem_range.mpr (by omega))

/-- The bits of accepted arguments are distinct up to 31 groups and never from there on. -/
theorem distinct_iff (sys : System) (args : List String) (c : Count) (h : Parses sys args c) :
    Distinct c ↔ c.bits.length ≤ 31 := by
  have hnum := parses_numbered h
  constructor
  · intro hdistinct
    exact hnum.of_power hdistinct.power
  · intro hn
    exact hnum.distinct hn

end Bits

section Many

variable {sys : System} {k i : Nat} {p : Parsing}

/-- `--auto n` as one word. -/
def autos (k : Nat) : List String := List.replicate k "-An"

lemma getoptLong_autos (hi : i < k) :
    getoptLong options ("byedpi" :: autos k) ⟨i + 1, []⟩ = .item ⟨'A', some "n"⟩ ⟨i + 2, []⟩ := by
  obtain ⟨m, hm⟩ : ∃ m, k - i = m + 1 := ⟨k - i - 1, by omega⟩
  simp only [getoptLong, autos, List.drop_succ_cons, List.drop_replicate, hm, List.replicate_succ]
  rfl

lemma getoptLong_autos_end : getoptLong options ("byedpi" :: autos k) ⟨k + 1, []⟩ = .done := by
  simp only [getoptLong, autos, List.drop_succ_cons, List.drop_replicate, Nat.sub_self,
    List.replicate_zero]
  rfl

lemma auto_accepts : commaLoop (autoTurn sys) ['n'] = .accept := by
  rw [commaLoop, autoTurn_letter (by decide)]
  rfl

lemma parseStep_item {argv : List String} {t : Loop} {item : Item} {pos : Cursor}
    (hloop : ParseArgs.step sys argv p.loop = .running t)
    (hitem : getoptLong options argv p.loop.pos = .item item pos) :
    parseStep sys argv p = .running ⟨t, p.count.take p.loop.curr item pos⟩ := by
  rw [parseStep, hloop, hitem]

/-- In front of the `i`th word. -/
structure Reading (i : Nat) (p : Parsing) : Prop where
  pos : p.loop.pos = ⟨i + 1, []⟩
  curr : p.loop.curr = 1
  groups : p.count.bits.length = i + 1
  limited : p.count.limited = false
  allLimited : p.count.allLimited = decide (i = 0)

lemma Reading.step (h : Reading i p) (hi : i < k) :
    ∃ q, parseStep sys ("byedpi" :: autos k) p = .running q ∧ Reading (i + 1) q := by
  obtain ⟨hpos, hcurr, hgroups, hlimited, hall⟩ := h
  have hitem : getoptLong options ("byedpi" :: autos k) p.loop.pos =
      .item ⟨'A', some "n"⟩ ⟨i + 2, []⟩ := by
    rw [hpos]
    exact getoptLong_autos hi
  have hvalue : optarg ⟨'A', some "n"⟩ = ['n'] := rfl
  have hloop : ParseArgs.step sys ("byedpi" :: autos k) p.loop =
      .running { p.loop with
        pos := ⟨i + 2, []⟩
        earlier := p.loop.earlier ++ [p.loop.dp.optind]
        dp := addGroup (i + 2) } := by
    rw [ParseArgs.step, hitem]
    simp only [auto, hcurr, hvalue, auto_accepts]
    rw [if_neg (by omega)]
  refine ⟨_, parseStep_item hloop hitem, rfl, hcurr, ?_, ?_, ?_⟩
  all_goals
    simp only [Count.take, hcurr]
    rw [if_neg (by omega)]
  · simp only [Count.addGroup, List.length_append, List.length_singleton, hgroups]
  · rw [hvalue, detects]
    rfl
  · simp only [Count.addGroup, hlimited, Bool.and_false]
    rfl

/-- However many groups there are, they are accepted. -/
theorem parses_autos (sys : System) (k : Nat) (hk : 0 < k) :
    ∃ c, Parses sys (autos k) c ∧ c.bits.length = k + 1 := by
  have hrun : ∀ i ≤ k, ∃ p, exec (parseStep sys ("byedpi" :: autos k)) i parseStart = .running p ∧
      Reading i p := by
    intro i hi
    induction i with
    | zero => exact ⟨parseStart, rfl, rfl, rfl, rfl, rfl, rfl⟩
    | succ i ih =>
      obtain ⟨p, hp, hreading⟩ := ih (by omega)
      obtain ⟨q, hq, hreading'⟩ := hreading.step (k := k) (by omega)
      exact ⟨q, exec_snoc hp hq, hreading'⟩
  obtain ⟨p, hp, hreading⟩ := hrun k (Nat.le_refl k)
  have hlast : parseStep sys ("byedpi" :: autos k) p = .returned (0, p.count) := by
    have hloop : ParseArgs.step sys ("byedpi" :: autos k) p.loop = .returned 0 := by
      rw [ParseArgs.step, hreading.pos, getoptLong_autos_end]
    rw [parseStep, hloop]
  have hfinish : p.count.finish = p.count := by
    rw [Count.finish, hreading.allLimited, if_neg (by simp; omega)]
  refine ⟨p.count, ⟨k + 1, p.count, ?_, hfinish⟩, hreading.groups⟩
  rw [exec_add hp]
  simp only [exec, hlast]

theorem distinct_iff_two : ∃ c, Parses bareSystem (autos 1) c ∧ c.bits.length = 2 ∧
    (Distinct c ↔ c.bits.length ≤ 31) := by
  obtain ⟨c, hc, hlen⟩ := parses_autos bareSystem 1 (by decide)
  exact ⟨c, hc, hlen, distinct_iff bareSystem (autos 1) c hc⟩

/-- The 32nd group has all the upper bits. -/
theorem upper_bits_shared : ¬ ∀ (sys : System) (args : List String) (c : Count),
    Parses sys args c → Distinct c := by
  intro h
  obtain ⟨c, hc, hlen⟩ := parses_autos bareSystem 31 (by decide)
  have hfew := (parses_numbered hc).of_power (h bareSystem (autos 31) c hc).power
  omega

end Many

end GroupBits
