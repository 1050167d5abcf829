import NoZapret.Strategies

/-!
# Copying a strategy to Custom

`useAsCustom` joins the arguments of a strategy with spaces, and `parseCustomArgs` splits them
again when the custom strategy is run. No argument has a quote by then, so every space splits.
-/

namespace UseAsCustom

open Strategies

/-- `joinToString(" ")` -/
def joinToString (args : List String) : String :=
  String.ofList ([' '].intercalate (args.map String.toList))

/-- The custom arguments that `useAsCustom` leaves. -/
def useAsCustom (name customArgs : String) (enableQuic : Bool) : String :=
  joinToString (getStrategyArgs name customArgs none enableQuic [])

/-- What runs as Custom afterwards is what the strategy ran with. -/
def CopyKeeps (name customArgs : String) (enableQuic : Bool)
    (customStrategies : List CustomStrategy) : Prop :=
  getStrategyArgs "Custom" (useAsCustom name customArgs enableQuic) none enableQuic [] =
    getStrategyArgs name customArgs none enableQuic customStrategies

/-- A built-in strategy with arguments of its own. -/
def tabled (name : String) : Bool := (getStrategyByName name).isSome && name != "Custom"

/-- An argument as the splitter leaves it. -/
def Unquoted (arg : String) : Prop := arg ≠ "" ∧ '\"' ∉ arg.toList

section Splitting

variable {cs ds current : List Char} {inQuotes : Bool} {arg : String} {args : List String}

lemma parseLoop_unquoted (hcurrent : '\"' ∉ current) :
    ∀ arg ∈ parseLoop cs current inQuotes, Unquoted arg := by
  induction cs generalizing current inQuotes with
  | nil =>
    intro arg harg
    unfold parseLoop at harg
    split at harg
    · cases harg
    · rename_i hne
      cases List.mem_singleton.mp harg
      refine ⟨fun h => hne ?_, by simpa using hcurrent⟩
      simpa using h
  | cons c cs ih =>
    unfold parseLoop
    by_cases hquote : c = '\"'
    · rw [if_pos hquote]
      exact ih hcurrent
    · rw [if_neg hquote]
      split
      · split
        · exact ih hcurrent
        · rename_i hne
          intro arg harg
          rcases List.mem_cons.mp harg with rfl | harg
          · refine ⟨fun h => hne ?_, by simpa using hcurrent⟩
            simpa using h
          · exact ih (by simp) arg harg
      · apply ih
        rw [List.mem_append, List.mem_singleton, not_or]
        exact ⟨hcurrent, fun h => hquote h.symm⟩

lemma parseCustomArgs_unquoted (s : String) : ∀ arg ∈ parseCustomArgs s, Unquoted arg :=
  parseLoop_unquoted (by simp)

/-- Without quotes a space ends a word. -/
lemma parseLoop_space (hcs : '\"' ∉ cs) :
    parseLoop (cs ++ ' ' :: ds) current false =
      parseLoop cs current false ++ parseLoop ds [] false := by
  induction cs generalizing current with
  | nil =>
    simp only [List.nil_append, parseLoop]
    cases current <;> simp
  | cons c cs ih =>
    rw [List.mem_cons, not_or] at hcs
    have hne : c ≠ '\"' := fun h => hcs.1 h.symm
    rw [List.cons_append, parseLoop, parseLoop, if_neg hne, if_neg hne]
    split
    · split
      · exact ih hcs.2
      · rw [ih hcs.2, List.cons_append]
    · exact ih hcs.2

lemma parse_joinToString (h : ∀ arg ∈ args, Unquoted arg) :
    parseCustomArgs (joinToString args) = args.flatMap parseCustomArgs := by
  unfold joinToString parseCustomArgs
  rw [String.toList_ofList]
  induction args with
  | nil => rfl
  | cons arg args ih =>
    have hrest := ih fun a ha => h a (List.mem_cons_of_mem _ ha)
    have harg := (h arg List.mem_cons_self).2
    cases args with
    | nil => simp [List.intercalate]
    | cons next args =>
      rw [List.flatMap_cons, ← hrest]
      simp only [List.map_cons, List.intercalate, List.intersperse_cons_cons, List.flatten_cons,
        List.singleton_append]
      exact parseLoop_space harg

lemma parseLoop_whole (hcs : '\"' ∉ cs) (hspace : ' ' ∉ cs) :
    parseLoop cs current false =
      if (current ++ cs).isEmpty then [] else [String.ofList (current ++ cs)] := by
  induction cs generalizing current with
  | nil => simp [parseLoop]
  | cons c cs ih =>
    rw [List.mem_cons, not_or] at hcs hspace
    have hquote : c ≠ '\"' := fun h => hcs.1 h.symm
    have hblank : ¬ (decide (c = ' ') && !false) = true := by
      simpa using fun h => hspace.1 h.symm
    rw [parseLoop, if_neg hquote, if_neg hblank, ih hcs.2 hspace.2, List.append_assoc,
      List.singleton_append]

lemma parseCustomArgs_whole (h : Unquoted arg) (hspace : ' ' ∉ arg.toList) :
    parseCustomArgs arg = [arg] := by
  rw [parseCustomArgs, parseLoop_whole h.2 hspace, if_neg]
  · simp
  · simpa using h.1

lemma parseLoop_spaceless (hcs : '\"' ∉ cs) (hcurrent : ' ' ∉ current) :
    ∀ arg ∈ parseLoop cs current false, ' ' ∉ arg.toList := by
  induction cs generalizing current with
  | nil =>
    intro arg harg
    unfold parseLoop at harg
    split at harg
    · cases harg
    · cases List.mem_singleton.mp harg
      simpa using hcurrent
  | cons c cs ih =>
    rw [List.mem_cons, not_or] at hcs
    have hne : c ≠ '\"' := fun h => hcs.1 h.symm
    unfold parseLoop
    rw [if_neg hne]
    split
    · split
      · exact ih hcs.2 hcurrent
      · intro arg harg
        rcases List.mem_cons.mp harg with rfl | harg
        · simpa using hcurrent
        · exact ih hcs.2 (by simp) arg harg
    · rename_i hblank
      apply ih hcs.2
      rw [List.mem_append, List.mem_singleton, not_or]
      refine ⟨hcurrent, fun h => hblank ?_⟩
      simp [← h]

lemma flatMap_whole (h : ∀ arg ∈ args, Unquoted arg) (hspace : ∀ arg ∈ args, ' ' ∉ arg.toList) :
    args.flatMap parseCustomArgs = args := by
  induction args with
  | nil => rfl
  | cons arg args ih =>
    rw [List.flatMap_cons, parseCustomArgs_whole (h arg List.mem_cons_self)
        (hspace arg List.mem_cons_self),
      ih (fun a ha => h a (List.mem_cons_of_mem _ ha))
        (fun a ha => hspace a (List.mem_cons_of_mem _ ha)), List.singleton_append]

/-- What comes back of joined arguments has no space. -/
lemma flatMap_spaceless (h : ∀ arg ∈ args, Unquoted arg) :
    ∀ word ∈ args.flatMap parseCustomArgs, ' ' ∉ word.toList := by
  intro word hword
  obtain ⟨arg, harg, hin⟩ := List.mem_flatMap.mp hword
  exact parseLoop_spaceless (h arg harg).2 (by simp) word hin

end Splitting

section Table

variable {name : String}

lemma tabled_mem (h : tabled name = true) :
    name ∈ (strategiesData.map (·.name)).erase "Custom" := by
  simp only [tabled, Bool.and_eq_true, bne_iff_ne] at h
  rw [List.mem_erase_of_ne h.2]
  obtain ⟨s, hs, hname⟩ := List.find?_isSome.mp h.1
  exact List.mem_map.mpr ⟨s, hs, beq_iff_eq.mp hname⟩

lemma parse_plain {text : List Char} (h : '\"' ∉ text) :
    ∀ arg ∈ parseCustomArgs (String.ofList text), Unquoted arg ∧ ' ' ∉ arg.toList := by
  intro arg harg
  refine ⟨parseCustomArgs_unquoted _ arg harg, ?_⟩
  exact parseLoop_spaceless (by rwa [String.toList_ofList]) (by simp) arg harg

lemma cons_plain {text : List Char} {args : List String}
    (h : (text ≠ [] ∧ '\"' ∉ text) ∧ ' ' ∉ text)
    (hargs : ∀ arg ∈ args, Unquoted arg ∧ ' ' ∉ arg.toList) :
    ∀ arg ∈ String.ofList text :: args, Unquoted arg ∧ ' ' ∉ arg.toList := by
  refine List.forall_mem_cons.mpr ⟨?_, hargs⟩
  simpa [Unquoted] using h

/-- The table looks at nothing but the name. -/
lemma baseArgs_tabled (customStrat : Option CustomStrategy) (userArgs : String)
    (h : tabled name = true) : baseArgs name customStrat userArgs = baseArgs name none "" := by
  have hnames : (strategiesData.map (·.name)).erase "Custom" = [
      "Auto (Recommended)", "Modern Ultra", "YouTube/Google Fix", "Discord/UDP Fix",
      "YouTube Light (Battery)", "YouTube TLS Split", "RU Discord (Alt)",
      "RU Universal (Powerful)", "Simple Split", "Simple Fake", "Torrent/P2P Fix",
      "RU Discord (Alt 2)", "Discord UDP (Intense)", "Discord Mobile (Optimized)",
      "Discord TLS Split", "Discord Light", "Simple Fake Discord Intense",
      "Simple Fake Discord Mobile", "Modern YouTube (Extreme)", "Universal Web (Safe)",
      "Strategy 1", "Strategy 2", "Strategy 3", "Strategy 4", "Strategy 5", "Strategy 6",
      "Strategy 7", "Strategy 8", "Strategy 9"] := by
    decide
  have hmem := tabled_mem h
  rw [hnames] at hmem
  simp only [List.mem_cons, List.not_mem_nil, or_false] at hmem
  rcases hmem with rfl | rfl | rfl | rfl | rfl | rfl | rfl | rfl | rfl | rfl | rfl | rfl | rfl |
    rfl | rfl | rfl | rfl | rfl | rfl | rfl | rfl | rfl | rfl | rfl | rfl | rfl | rfl | rfl | rfl
  all_goals rfl

/-- The table has no quotes, and no spaces in its arguments. -/
lemma baseArgs_plain (name : String) :
    ∀ arg ∈ baseArgs name none "", Unquoted arg ∧ ' ' ∉ arg.toList := by
  unfold baseArgs
  split
  all_goals first
    | with_reducible exact parse_plain (by decide)
    | repeat' with_reducible refine cons_plain (by decide) ?_
      exact fun _ harg => absurd harg List.not_mem_nil

/-- Custom and the names that the table does not have. -/
lemma baseArgs_untabled (customStrat : Option CustomStrategy) (userArgs : String)
    (h : tabled name = false) : ∃ s, baseArgs name customStrat userArgs = parseCustomArgs s ∧
      ∀ c, customStrat = some c → userArgs = c.userArgs → s = c.userArgs := by
  unfold baseArgs
  split
  all_goals first
    | exact absurd h (by decide)
    | exact ⟨userArgs, rfl, fun _ _ huser => huser⟩
    | skip
  cases customStrat with
  | some c =>
    refine ⟨c.userArgs, rfl, ?_⟩
    rintro _ ⟨⟩ -
    rfl
  | none =>
    dsimp only
    split
    · exact ⟨userArgs, rfl, nofun⟩
    · exact ⟨"", rfl, nofun⟩

lemma baseArgs_unquoted (name customArgs : String) :
    ∀ arg ∈ baseArgs name none customArgs, Unquoted arg := by
  cases htable : tabled name with
  | true =>
    rw [baseArgs_tabled none customArgs htable]
    exact fun arg harg => (baseArgs_plain name arg harg).1
  | false =>
    obtain ⟨s, hs, -⟩ := baseArgs_untabled none customArgs htable
    rw [hs]
    exact parseCustomArgs_unquoted s

end Table

section Copy

variable {name arg : String} {customArgs : String} {args : List String} {q : Bool}

lemma quicArgs_unquoted (h : ∀ arg ∈ args, Unquoted arg) : ∀ arg ∈ quicArgs q args, Unquoted arg := by
  intro arg harg
  by_cases hflag : arg = "--block-quic"
  · rw [hflag]
    exact ⟨by decide, by decide⟩
  · exact h arg ((mem_quicArgs hflag q args).mp harg)

lemma quicArgs_spaceless : (∀ arg ∈ quicArgs q args, ' ' ∉ arg.toList) ↔
    ∀ arg ∈ args, ' ' ∉ arg.toList := by
  constructor
  · intro h arg harg
    by_cases hflag : arg = "--block-quic"
    · rw [hflag]
      decide
    · exact h arg ((mem_quicArgs hflag q args).mpr harg)
  · intro h arg harg
    by_cases hflag : arg = "--block-quic"
    · rw [hflag]
      decide
    · exact h arg ((mem_quicArgs hflag q args).mp harg)

lemma quicArgs_quicArgs : quicArgs q (quicArgs q args) = quicArgs q args := by
  cases q with
  | false =>
    simp only [quicArgs, Bool.not_false, if_true]
    by_cases hmem : args.contains "--block-quic" = true
    · rw [if_pos hmem, if_pos hmem]
    · rw [if_neg hmem, if_pos (by simp)]
  | true => simp [quicArgs]

/-- Custom after the copy: the joined arguments, split at every space. -/
lemma copied_args : getStrategyArgs "Custom" (useAsCustom name customArgs q) none q [] =
    quicArgs q ((quicArgs q (baseArgs name none customArgs)).flatMap parseCustomArgs) := by
  have hown : getStrategyArgs name customArgs none q [] =
      quicArgs q (baseArgs name none customArgs) := rfl
  have hcustom : getStrategyArgs "Custom" (useAsCustom name customArgs q) none q [] =
      quicArgs q (parseCustomArgs (useAsCustom name customArgs q)) := rfl
  rw [hcustom, useAsCustom, hown, parse_joinToString (quicArgs_unquoted (baseArgs_unquoted name customArgs))]

/-- Arguments survive the copy when none of them has a space. -/
lemma copied_own : quicArgs q ((quicArgs q (baseArgs name none customArgs)).flatMap parseCustomArgs) =
      quicArgs q (baseArgs name none customArgs) ↔
    ∀ arg ∈ baseArgs name none customArgs, ' ' ∉ arg.toList := by
  have hown : ∀ arg ∈ quicArgs q (baseArgs name none customArgs), Unquoted arg :=
    quicArgs_unquoted (baseArgs_unquoted name customArgs)
  constructor
  · intro h
    rw [← quicArgs_spaceless (q := q), ← h, quicArgs_spaceless]
    exact flatMap_spaceless hown
  · intro h
    rw [flatMap_whole hown (quicArgs_spaceless.mpr h), quicArgs_quicArgs]

/-- When the copy has the arguments of the strategy. A name of the user's list is copied without
that list: the table or the previous custom arguments stand in for the strategy. -/
def Fits (name customArgs : String) (enableQuic : Bool) (customStrategies : List CustomStrategy) :
    Prop :=
  let own := quicArgs enableQuic (baseArgs name none customArgs)
  match findCustom customStrategies name with
  | none => ∀ arg ∈ baseArgs name none customArgs, ' ' ∉ arg.toList
  | some c =>
    if tabled name then fakeSniArgs c.fakeSni true own = own
    else quicArgs enableQuic (own.flatMap parseCustomArgs) =
      fakeSniArgs c.fakeSni true (quicArgs enableQuic (parseCustomArgs c.userArgs))

theorem copy_keeps_iff (name customArgs : String) (enableQuic : Bool)
    (customStrategies : List CustomStrategy) :
    CopyKeeps name customArgs enableQuic customStrategies ↔
      Fits name customArgs enableQuic customStrategies := by
  unfold CopyKeeps Fits
  rw [copied_args]
  cases hfind : findCustom customStrategies name with
  | none =>
    have hargs : getStrategyArgs name customArgs none enableQuic customStrategies =
        quicArgs enableQuic (baseArgs name none customArgs) := by
      simp only [getStrategyArgs, hfind]
      rfl
    rw [hargs]
    exact copied_own
  | some c =>
    have hargs : getStrategyArgs name customArgs none enableQuic customStrategies =
        fakeSniArgs c.fakeSni true (quicArgs enableQuic (baseArgs name (some c) c.userArgs)) := by
      simp only [getStrategyArgs, hfind, Option.map_some, Option.getD_some, Option.bind_some,
        Option.or_none, Option.isSome_some, Bool.or_true]
    rw [hargs]
    dsimp only
    by_cases htable : tabled name = true
    · have hown := baseArgs_tabled none customArgs htable
      have hspace : ∀ arg ∈ baseArgs name none customArgs, ' ' ∉ arg.toList := by
        rw [hown]
        exact fun arg harg => (baseArgs_plain name arg harg).2
      rw [if_pos htable, copied_own.mpr hspace, hown, baseArgs_tabled (some c) c.userArgs htable]
      exact eq_comm
    · rw [Bool.not_eq_true] at htable
      obtain ⟨s, hs, huser⟩ := baseArgs_untabled (some c) c.userArgs htable
      rw [if_neg (by simp [htable]), hs, huser c rfl rfl]

/-- A custom strategy is copied without its arguments, and a quoted argument comes apart. -/
theorem copy_loses_arguments :
    useAsCustom "Mine" "" true = "" ∧
    ¬ CopyKeeps "Mine" "" true [
      { id := "c1", name := "Mine", userArgs := "--split 1", createdAt := 0, updatedAt := 0 }] ∧
    ¬ CopyKeeps "Custom" "--comment \"a b\"" true [] := by
  refine ⟨by decide, ?_, ?_⟩
  · unfold CopyKeeps
    decide
  · unfold CopyKeeps
    decide

end Copy

end UseAsCustom
