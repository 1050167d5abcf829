import NoZapret.ParseArgs
import NoZapret.Validator

/-!
# The check of a strategy's arguments and the engine's parser

`Config.validateStrategyArgs` against `getopt_long` with the engine's table. The check knows
sixteen spellings and takes every word with a dash for an option; the parser takes the next
word as the value whatever it looks like.
-/

namespace Agreement

open Getopt Options ParseArgs OptionValues Strategies Validator

def isOptionName (word : String) : Bool :=
  options.any fun o => word = "--" ++ o.name || word = String.ofList ['-', o.val]

/-- How the parser takes the word behind these. -/
def stateBehind (before : List String) : State := (scan options .ready before).2

def TakesOptionName (args : List String) : Prop :=
  ∃ before word after c, args = before ++ word :: after ∧ stateBehind before = .waiting c ∧
    isOptionName word = true

def MissesValue (args : List String) : Prop := ∃ c, stateBehind args = .waiting c

/-- What the check says and what the parser does fit together. -/
structure Agree (sys : System) (args : List String) : Prop where
  sound : validateStrategyArgs args = .ok () → ¬ TakesOptionName args ∧ ¬ MissesValue args
  complete : Accepts sys args → validateStrategyArgs args = .ok ()

/-- A word that the check takes for an option with a value, and no value behind it. -/
def Unanswered (word : String) (after : List String) : Prop :=
  needsValue word = true ∧ ∀ next ∈ after.head?, startsWith next "-" = true

def Rejected (args : List String) : Prop :=
  ∃ before word after, args = before ++ word :: after ∧ Unanswered word after

/-- An option that the check does not know waits for its value in the next word, and there an
option's name is or nothing. -/
def Overlooked (args : List String) : Prop :=
  ∃ before word after c, args = before ++ word :: after ∧ needsValue word = false ∧
    stateBehind (before ++ [word]) = .waiting c ∧ ∀ next ∈ after.head?, isOptionName next = true

/-- A word without a value that the parser reads differently: it takes the word with the dash
behind it as the value, or this word itself as a value, or it stands behind `--`. -/
def Misread (args : List String) : Prop :=
  ∃ before word after, args = before ++ word :: after ∧ Unanswered word after ∧
    (stateBehind before = .ready → after ≠ [])

variable {sys : System} {args before after : List String} {word next : String}

lemma needsValue_dash (h : needsValue word = true) : startsWith word "-" = true := by
  simp only [needsValue, List.contains_eq_mem, List.mem_cons, List.not_mem_nil, or_false,
    decide_eq_true_eq] at h
  rcases h with rfl | rfl | rfl | rfl | rfl | rfl | rfl | rfl | rfl | rfl | rfl | rfl | rfl | rfl |
    rfl | rfl <;> decide

/-- The parser knows the sixteen spellings and waits for their value. -/
lemma needsValue_waits (h : needsValue word = true) :
    ∃ c, (readNext options .ready word).2 = .waiting c := by
  simp only [needsValue, List.contains_eq_mem, List.mem_cons, List.not_mem_nil, or_false,
    decide_eq_true_eq] at h
  rcases h with rfl | rfl | rfl | rfl | rfl | rfl | rfl | rfl | rfl | rfl | rfl | rfl | rfl | rfl |
    rfl | rfl <;> exact ⟨_, rfl⟩

lemma isOptionName_dash (h : isOptionName word = true) : startsWith word "-" = true := by
  simp only [isOptionName, List.any_eq_true, Bool.or_eq_true, decide_eq_true_eq] at h
  obtain ⟨o, -, rfl | rfl⟩ := h
  · simp [startsWith]
  · simp [startsWith]

lemma rejected_cons : Rejected (word :: args) ↔ Unanswered word args ∨ Rejected args := by
  constructor
  · rintro ⟨before, other, after, hargs, hun⟩
    cases before with
    | nil =>
      rw [List.nil_append] at hargs
      cases hargs
      exact .inl hun
    | cons first before =>
      rw [List.cons_append] at hargs
      cases hargs
      exact .inr ⟨before, other, after, rfl, hun⟩
  · rintro (hun | ⟨before, other, after, rfl, hun⟩)
    · exact ⟨[], word, args, rfl, hun⟩
    · exact ⟨word :: before, other, after, rfl, hun⟩

/-- A word that begins with no dash is not taken for an option. -/
lemma not_unanswered (h : startsWith word "-" = false) : ¬ Unanswered word args := by
  rintro ⟨hneeds, -⟩
  rw [needsValue_dash hneeds] at h
  cases h

lemma rejected_nil : ¬ Rejected [] := by
  rintro ⟨before, word, after, hargs, -⟩
  cases before <;> cases hargs

/-- The check looks at each of the words it knows, whatever it skips. -/
theorem validate_iff : validateStrategyArgs args = .ok () ↔ ¬ Rejected args := by
  induction args using validateStrategyArgs.induct with
  | case1 => simp [validateStrategyArgs, rejected_nil]
  | case2 word hneeds =>
    have hun : Unanswered word [] := ⟨(Bool.and_eq_true _ _ ▸ hneeds).2, by simp⟩
    rw [rejected_cons]
    simp [validateStrategyArgs, hneeds, hun]
  | case3 word hneeds =>
    have hun : ¬ Unanswered word [] := fun h =>
      hneeds (by rw [needsValue_dash h.1, h.1]; rfl)
    rw [rejected_cons]
    simp [validateStrategyArgs, hneeds, hun, rejected_nil]
  | case4 word next rest hneeds hdash =>
    have hun : Unanswered word (next :: rest) :=
      ⟨(Bool.and_eq_true _ _ ▸ hneeds).2, by simpa using hdash⟩
    rw [rejected_cons, validateStrategyArgs, if_pos hneeds, if_pos hdash]
    simp [hun]
  | case5 word next rest hneeds hdash ih =>
    -- the value is no option that the check knows
    have hun : ¬ Unanswered word (next :: rest) := fun h => hdash (h.2 next rfl)
    have hnext : ¬ Unanswered next rest := not_unanswered (by simpa using hdash)
    rw [rejected_cons, rejected_cons, validateStrategyArgs, if_pos hneeds, if_neg hdash, ih]
    simp [hun, hnext]
  | case6 word next rest hneeds ih =>
    have hun : ¬ Unanswered word (next :: rest) := fun h =>
      hneeds (by rw [needsValue_dash h.1, h.1]; rfl)
    rw [rejected_cons, validateStrategyArgs, if_neg hneeds, ih]
    simp [hun]

/-- An option that waits for its value, and an option's name or nothing behind it. -/
def Unserved (args : List String) : Prop :=
  ∃ before word after c, args = before ++ word :: after ∧
    stateBehind (before ++ [word]) = .waiting c ∧ ∀ next ∈ after.head?, isOptionName next = true

lemma stateBehind_waiting {c : Char} (h : stateBehind args = .waiting c) :
    ∃ before word, args = before ++ [word] := by
  rcases List.eq_nil_or_concat args with rfl | ⟨before, word, rfl⟩
  · cases h
  · exact ⟨before, word, List.concat_eq_append⟩

lemma unserved_iff : Unserved args ↔ TakesOptionName args ∨ MissesValue args := by
  constructor
  · rintro ⟨before, word, after, c, rfl, hwaiting, hnext⟩
    cases after with
    | nil => exact .inr ⟨c, hwaiting⟩
    | cons next after =>
      refine .inl ⟨before ++ [word], next, after, c, ?_, hwaiting, hnext next rfl⟩
      rw [List.append_assoc, List.singleton_append]
  · rintro (⟨before, next, after, c, rfl, hwaiting, hname⟩ | ⟨c, hwaiting⟩)
    · obtain ⟨before, word, rfl⟩ := stateBehind_waiting hwaiting
      refine ⟨before, word, next :: after, c, ?_, hwaiting, ?_⟩
      · rw [List.append_assoc, List.singleton_append]
      · rintro _ ⟨⟩
        exact hname
    · obtain ⟨before, word, rfl⟩ := stateBehind_waiting hwaiting
      exact ⟨before, word, [], c, rfl, hwaiting, by simp⟩

/-- The check notices an unserved option in each of the spellings it knows. -/
lemma overlooked_of_unserved (h : Unserved args) (hrej : ¬ Rejected args) : Overlooked args := by
  obtain ⟨before, word, after, c, hargs, hwaiting, hnext⟩ := h
  refine ⟨before, word, after, c, hargs, ?_, hwaiting, hnext⟩
  rw [← Bool.not_eq_true]
  intro hneeds
  exact hrej ⟨before, word, after, hargs, hneeds, fun next h => isOptionName_dash (hnext next h)⟩

lemma unserved_of_overlooked (h : Overlooked args) : Unserved args := by
  obtain ⟨before, word, after, c, hargs, -, hwaiting, hnext⟩ := h
  exact ⟨before, word, after, c, hargs, hwaiting, hnext⟩

lemma rejected_of_misread (h : Misread args) : Rejected args := by
  obtain ⟨before, word, after, hargs, hun, -⟩ := h
  exact ⟨before, word, after, hargs, hun⟩

/-- What the parser accepts has a word behind each option that waits for one. -/
lemma misread_of_rejected (h : Rejected args) (haccepts : Accepts sys args) : Misread args := by
  obtain ⟨before, word, after, rfl, hun⟩ := h
  refine ⟨before, word, after, rfl, hun, ?_⟩
  rintro hready rfl
  obtain ⟨c, hc⟩ := needsValue_waits hun.1
  have hcomplete := accepts_complete haccepts
  have hlast : (scan options .ready (before ++ [word])).2 = .waiting c := by
    rw [scan_append, scan_cons]
    change (readNext options (stateBehind before) word).2 = _
    rw [hready, hc]
  rw [hlast] at hcomplete
  cases hcomplete

/-- The check and the parser agree if and only if no option in a spelling the check does not
know goes unserved in arguments it passes, and the parser refuses arguments with a misread
word. -/
theorem agree_iff (sys : System) (args : List String) :
    Agree sys args ↔
      (Overlooked args → Rejected args) ∧ (Misread args → ¬ Accepts sys args) := by
  constructor
  · rintro ⟨hsound, hcomplete⟩
    constructor
    · intro hover
      by_contra hrej
      obtain ⟨htakes, hmisses⟩ := hsound (validate_iff.mpr hrej)
      rcases unserved_iff.mp (unserved_of_overlooked hover) with h | h
      · exact htakes h
      · exact hmisses h
    · intro hmis haccepts
      exact validate_iff.mp (hcomplete haccepts) (rejected_of_misread hmis)
  · rintro ⟨hover, hmis⟩
    constructor
    · intro hok
      have hrej := validate_iff.mp hok
      have hserved : ¬ Unserved args := fun h => hrej (hover (overlooked_of_unserved h hrej))
      rw [unserved_iff, not_or] at hserved
      exact hserved
    · intro haccepts
      rw [validate_iff]
      intro hrej
      exact hmis (misread_of_rejected hrej haccepts) haccepts

lemma accepts_negative : Accepts bareSystem ["--split", "-1"] := by
  have hitem : getoptLong options ["byedpi", "--split", "-1"] start.pos =
      .item ⟨'s', some "-1"⟩ ⟨3, []⟩ := rfl
  have hoffset : parseOffset false (optarg ⟨'s', some "-1"⟩) = some (false, -1) := by
    have hval : strtol 0 (optarg ⟨'s', some "-1"⟩) = (-1, []) := rfl
    simp [parseOffset, hval, offsetFields, offsetFlag]
  have hcheck : check bareSystem start.dp 's' (optarg ⟨'s', some "-1"⟩) = .accept := by
    change verdict (parseOffset false (optarg ⟨'s', some "-1"⟩)).isSome = .accept
    rw [hoffset]
    rfl
  have hstep : step bareSystem ["byedpi", "--split", "-1"] start =
      .running { start with pos := ⟨3, []⟩ } := by
    rw [step_item hitem]
    change other bareSystem _ 's' _ = _
    unfold other
    dsimp only
    rw [hcheck]
    rfl
  exact ⟨2, by rw [Loops.exec_running hstep]; rfl⟩

/-- `--ttl` takes the next option for its value, and the parser reads `-1` as a number. -/
theorem check_and_parser_disagree :
    ¬ Agree bareSystem ["--ttl", "--split", "1"] ∧ ¬ Agree bareSystem ["--split", "-1"] := by
  constructor
  · rintro ⟨hsound, -⟩
    refine (hsound rfl).1 ⟨["--ttl"], "--split", ["1"], 't', rfl, rfl, ?_⟩
    decide
  · rintro ⟨-, hcomplete⟩
    have hok := hcomplete accepts_negative
    cases hok

end Agreement
