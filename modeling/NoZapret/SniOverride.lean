import NoZapret.ParseArgs
import NoZapret.SniChoice
import NoZapret.SniCuts

/-!
# What an override of the fake SNI does to the user's arguments

For a custom strategy `getStrategyArgs` takes the fake SNI out of the user's arguments and puts
the override behind what is left. The engine's lists of fake SNIs are taken together here, group
after group.
-/

namespace SniOverride

open Getopt Options ParseArgs OptionValues Strategies QuicSwitch SniChoice

/-- The engine reads the override as its only fake SNI, and the user's other options. -/
structure Replaced (user args : List String) (override : String) : Prop where
  list : carried args = [override]
  complete : (scan options .ready args).2.complete = true
  others : rest (scan options .ready args).1 = rest (scan options .ready user).1

section Override

variable {q : Bool} {args words : List String} {name customArgs override : String}
  {fakeSni : Option String} {customStrategies : List CustomStrategy} {strategy : CustomStrategy}

lemma carried_eq_nil : carried args = [] ↔ ∀ i ∈ (scan options .ready args).1, i.val ≠ 'n' := by
  have htakes : ∀ o ∈ options, o.val = 'n' → o.hasArg = true := by decide
  unfold carried
  rw [List.filterMap_eq_nil_iff]
  constructor
  · intro h i hi hval
    have hnone := h i hi
    simp only [fakeSniOf, hval, if_true] at hnone
    obtain ⟨o, ho, hoval, hno⟩ := scan_none hi hnone
    rw [htakes o ho (by rw [hoval, hval])] at hno
    cases hno
  · intro h i hi
    exact if_neg (h i hi)

/-- An override behind the words is read, whatever it is, if an option may stand there and no
fake SNI comes before. -/
lemma list_iff : (∀ override, isBlank override = false →
      carried (args ++ ["--fake-sni", trim override]) = [trim override]) ↔
    Quiet .ready args := by
  have hput : ∀ x, carried (args ++ ["--fake-sni", x]) =
      carried args ++ heard (scan options .ready args).2 (some x) :=
    fun x => carried_put args (some x)
  unfold Quiet
  rw [← carried_eq_nil]
  constructor
  · intro h
    have ha := h "a" (by decide)
    have hb := h "b" (by decide)
    have htrima : trim "a" = "a" := by decide
    have htrimb : trim "b" = "b" := by decide
    have hcarrya : carried ["a"] = [] := by decide
    have hcarryb : carried ["b"] = [] := by decide
    rw [htrima, hput] at ha
    rw [htrimb, hput] at hb
    cases hend : (scan options .ready args).2 with
    | ready =>
      rw [hend] at ha
      refine ⟨?_, rfl⟩
      simpa [heard] using ha
    | waiting c =>
      rw [hend] at ha hb
      simp only [heard, hcarrya, hcarryb] at ha hb
      rw [ha] at hb
      simp at hb
    | ended =>
      rw [hend] at ha hb
      simp only [heard] at ha hb
      rw [ha] at hb
      simp at hb
    | failed =>
      rw [hend] at ha hb
      simp only [heard] at ha hb
      rw [ha] at hb
      simp at hb
  · rintro ⟨hnil, hend⟩ override -
    rw [hput, hnil, hend]
    rfl

lemma rest_override (h : Quiet .ready args) (x : String) :
    (scan options .ready (args ++ ["--fake-sni", x])).2.complete = true ∧
      rest (scan options .ready (args ++ ["--fake-sni", x])).1 =
        rest (scan options .ready args).1 := by
  have hsni : isSniOption "--fake-sni" = true := by decide
  rw [scan_append, h.2, rest_append, scan_word (readWord_sni hsni), scan_value]
  constructor
  · rw [scan_cons]
    change (scan options (readWord options "--fake-sni").2 [x]).2.complete = true
    rw [readWord_sni hsni]
    rfl
  · simp [rest]

lemma replaced_iff : (∀ override, isBlank override = false →
      Replaced words (args ++ ["--fake-sni", trim override]) (trim override)) ↔
    Quiet .ready args ∧
      rest (scan options .ready words).1 = rest (scan options .ready args).1 := by
  constructor
  · intro h
    have hquiet := list_iff.mp fun override hblank => (h override hblank).list
    refine ⟨hquiet, ?_⟩
    rw [← (rest_override hquiet (trim "a")).2]
    exact (h "a" (by decide)).others.symm
  · rintro ⟨hquiet, heq⟩ override hblank
    obtain ⟨hcomplete, hrest⟩ := rest_override hquiet (trim override)
    exact ⟨list_iff.mpr hquiet override hblank, hcomplete, by rw [hrest, heq]⟩

/-- A custom strategy's own arguments are used unless its name is a built-in one. -/
lemma baseArgs_custom (hname : getStrategyByName name = none) :
    baseArgs name (some strategy) customArgs = parseCustomArgs strategy.userArgs := by
  unfold baseArgs
  split
  all_goals first
    | exact absurd hname (by decide)
    | rfl

lemma args_override (hfind : findCustom customStrategies name = some strategy)
    (hname : getStrategyByName name = none)
    (hsni : strategy.fakeSni.or fakeSni = some override) (hblank : isBlank override = false) :
    getStrategyArgs name customArgs fakeSni q customStrategies =
      stripFakeSni (quicArgs q (parseCustomArgs strategy.userArgs)) ++
        ["--fake-sni", trim override] := by
  have heffective : (some strategy).bind (·.fakeSni) = strategy.fakeSni := rfl
  unfold getStrategyArgs
  simp only [hfind, baseArgs_custom hname, heffective, hsni, Option.isSome_some, Bool.or_true]
  exact fakeSniArgs_some hblank _

end Override

/-- For every custom strategy with these arguments and every override that is not blank. -/
def OverrideReplaces (enableQuic : Bool) (userArgs : String) : Prop :=
  ∀ name customArgs fakeSni customStrategies strategy override,
    findCustom customStrategies name = some strategy → getStrategyByName name = none →
    strategy.userArgs = userArgs → strategy.fakeSni.or fakeSni = some override →
    isBlank override = false →
    Replaced (parseCustomArgs userArgs)
      (getStrategyArgs name customArgs fakeSni enableQuic customStrategies) (trim override)

def mine (userArgs override : String) : CustomStrategy where
  id := "1"
  name := "Mine"
  userArgs := userArgs
  fakeSni := some override
  createdAt := 0
  updatedAt := 0

/-- An override replaces the fake SNI of accepted arguments, and nothing else of them, if and
only if they are plain. -/
theorem override_replaces_iff {sys : System} {userArgs : String} (enableQuic : Bool)
    (h : Accepts sys (parseCustomArgs userArgs)) :
    OverrideReplaces enableQuic userArgs ↔ Plain enableQuic (parseCustomArgs userArgs) := by
  have hcuts := cuts_args (q := enableQuic) (parseCustomArgs userArgs)
  constructor
  · intro hreplaces
    have hargs : ∀ override, isBlank override = false → Replaced (parseCustomArgs userArgs)
        (stripFakeSni (quicArgs enableQuic (parseCustomArgs userArgs)) ++
          ["--fake-sni", trim override]) (trim override) := by
      intro override hblank
      have hname : getStrategyByName "Mine" = none := by decide
      have hfind : findCustom [mine userArgs override] "Mine" = some (mine userArgs override) :=
        rfl
      have hreplaced := hreplaces "Mine" "" none [mine userArgs override]
        (mine userArgs override) override hfind hname rfl rfl hblank
      rw [args_override hfind hname rfl hblank] at hreplaced
      exact hreplaced
    obtain ⟨hquiet, heq⟩ := replaced_iff.mp hargs
    exact plain_of_quiet (reads_of_complete (accepts_complete h)) hcuts hquiet heq
  · intro hplain name customArgs fakeSni customStrategies strategy override hfind hname huser hsni
      hblank
    obtain ⟨hquiet, heq⟩ := quiet_of_plain hplain hcuts
    rw [args_override hfind hname hsni hblank, huser]
    exact replaced_iff.mpr ⟨hquiet, heq.symm⟩ override hblank

theorem override_replaces_iff_known : OverrideReplaces true "--fake-sni a.com" := by
  have hparse : parseCustomArgs "--fake-sni a.com" = ["--fake-sni", "a.com"] := by
    decide
  have haccepts : Accepts bareSystem (parseCustomArgs "--fake-sni a.com") := by
    rw [hparse]
    exact ⟨2, rfl⟩
  refine (override_replaces_iff true haccepts).mpr ?_
  rw [hparse]
  exact .sni (by decide) (.inl (by decide)) .nil

/-- The joined spelling stays beside the override. -/
theorem joined_sni_stays : Accepts bareSystem (parseCustomArgs "-nx.com") ∧
    carried (getStrategyArgs "Mine" "" none true [mine "-nx.com" "y.com"]) =
      ["x.com", "y.com"] ∧ ¬ OverrideReplaces true "-nx.com" := by
  have hparse : parseCustomArgs "-nx.com" = ["-nx.com"] := by
    decide
  have hlist : carried (getStrategyArgs "Mine" "" none true [mine "-nx.com" "y.com"]) =
      ["x.com", "y.com"] := by
    decide
  refine ⟨?_, hlist, ?_⟩
  · rw [hparse]
    exact ⟨2, rfl⟩
  · intro h
    have hreplaced := h "Mine" "" none [mine "-nx.com" "y.com"] (mine "-nx.com" "y.com") "y.com"
      rfl (by decide) rfl rfl (by decide)
    have hone := hreplaced.list
    rw [hlist] at hone
    simp at hone

end SniOverride
