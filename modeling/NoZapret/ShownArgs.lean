import NoZapret.Settings

/-!
# Shown and run arguments

The arguments that `StrategyInfoDialog` shows come from memory; the ones that the
VPN service and the strategy tester run come back from the data store. They differ
for a custom strategy without an override of its own: null is stored as an empty
text, and an empty override takes the fake-SNI options out.
-/

namespace ShownArgs

open Strategies Settings

/-- `startVpnInternal` -/
def startVpnArgs (prefs : Prefs) (now : Int) (lastStrategy lastArgs : String) : List String :=
  let enableQuic := prefs.enableQuic.getD false
  let parsedCustomStrategies := readCustomStrategies now (prefs.customStrategiesJson.getD [])
  let strategyFakeSniMap := readFakeSniMap prefs.strategyFakeSniMap
  let globalMode := prefs.globalMode.getD false
  let fakeSniPool := prefs.fakeSniPool.getD ["google.com", "yandex.ru"]
  let resolvedFakeSni := resolveFakeSni lastStrategy strategyFakeSniMap fakeSniPool globalMode
  getStrategyArgs lastStrategy lastArgs resolvedFakeSni enableQuic parsedCustomStrategies

/-- `StrategyTester`, which is given the QUIC flag. -/
def testStrategyArgs (prefs : Prefs) (now : Int) (strategyName customArgs : String)
    (enableQuic : Bool) : List String :=
  let strategyFakeSniMap := readFakeSniMap prefs.strategyFakeSniMap
  let globalMode := prefs.globalMode.getD false
  let fakeSniPool := prefs.fakeSniPool.getD ["google.com", "yandex.ru"]
  let resolvedFakeSni := resolveFakeSni strategyName strategyFakeSniMap fakeSniPool globalMode
  let parsedCustomStrats := readCustomStrategies now (prefs.customStrategiesJson.getD [])
  getStrategyArgs strategyName customArgs resolvedFakeSni enableQuic parsedCustomStrats

/-- `resolvedArgs` of `StrategyInfoDialog` -/
def dialogArgs (strategyName customArgs : String) (enableQuic : Bool) (fakeSni : Option String)
    (customStrategies : List CustomStrategy) : List String :=
  let customStrat := findCustom customStrategies strategyName
  let effectiveUserArgs := (customStrat.map (·.userArgs)).getD customArgs
  let effectiveFakeSni := (customStrat.bind (·.fakeSni)).or fakeSni
  getStrategyArgs strategyName effectiveUserArgs effectiveFakeSni enableQuic customStrategies

/-- The dialog as `MainActivity` opens it. -/
def shownArgs (s : State) (name customArgs : String) : List String :=
  dialogArgs name customArgs s.enableQuic (s.getFakeSniForStrategy name) s.customStrategies

lemma startVpnArgs_save (s : State) (now : Int) (name customArgs : String) :
    startVpnArgs s.save now name customArgs =
      getStrategyArgs name customArgs
        (resolveFakeSni name s.strategyFakeSniMap.entries s.fakeSniPool s.globalMode)
        s.enableQuic (s.customStrategies.map (stored now)) := by
  simp only [startVpnArgs, State.save, Option.getD_some, read_saveCustomStrategies,
    read_saveFakeSniMap, resolveFakeSni_pool (head?_eraseDups s.fakeSniPool)]

lemma testStrategyArgs_save (s : State) (now : Int) (name customArgs : String) :
    testStrategyArgs s.save now name customArgs s.enableQuic =
      startVpnArgs s.save now name customArgs := by
  simp only [testStrategyArgs, startVpnArgs, State.save, Option.getD_some]

/-- The dialog resolves the user's arguments and the override once more than needed. -/
lemma dialogArgs_eq (name customArgs : String) (enableQuic : Bool) (fakeSni : Option String)
    (customStrategies : List CustomStrategy) :
    dialogArgs name customArgs enableQuic fakeSni customStrategies =
      getStrategyArgs name customArgs fakeSni enableQuic customStrategies := by
  simp only [dialogArgs, getStrategyArgs]
  cases findCustom customStrategies name with
  | none => rfl
  | some c => cases hsni : c.fakeSni <;> simp [hsni]

/-- Without a custom strategy of that name or id, both sides resolve the same. -/
lemma args_eq_of_not_custom {s : State} {name : String} (now : Int) (customArgs : String)
    (h : findCustom s.customStrategies name = none) :
    startVpnArgs s.save now name customArgs = shownArgs s name customArgs := by
  have hstored : findCustom (s.customStrategies.map (stored now)) name = none := by
    rw [findCustom_stored, h]
    rfl
  rw [startVpnArgs_save, shownArgs, dialogArgs_eq]
  simp only [getStrategyArgs, h, hstored, State.getFakeSniForStrategy,
    getCustomStrategyByName_none h, Option.bind_none]

/-- The custom strategy takes the resolved fake SNI out of play when it is run, since
its override is never null then. -/
lemma args_of_custom {s : State} {name : String} {c : CustomStrategy} (now : Int)
    (customArgs : String) (h : findCustom s.customStrategies name = some c) :
    startVpnArgs s.save now name customArgs =
        fakeSniArgs (some (c.fakeSni.getD "")) true
          (quicArgs s.enableQuic (baseArgs name (some c) c.userArgs)) ∧
      shownArgs s name customArgs =
        fakeSniArgs (c.fakeSni.or (s.getFakeSniForStrategy name)) true
          (quicArgs s.enableQuic (baseArgs name (some c) c.userArgs)) := by
  have hstored : findCustom (s.customStrategies.map (stored now)) name = some (stored now c) := by
    rw [findCustom_stored, h]
    rfl
  have huser : (stored now c).userArgs = c.userArgs := rfl
  have hsni : (stored now c).fakeSni = some (c.fakeSni.getD "") := rfl
  constructor
  · rw [startVpnArgs_save, getStrategyArgs, hstored]
    simp [huser, hsni, baseArgs_stored]
  · rw [shownArgs, dialogArgs_eq, getStrategyArgs, h]
    simp

lemma args_eq_iff_of_custom {s : State} {name : String} {c : CustomStrategy} (now : Int)
    (customArgs : String) (h : findCustom s.customStrategies name = some c) :
    startVpnArgs s.save now name customArgs = shownArgs s name customArgs ↔
      (c.fakeSni = none → s.getFakeSniForStrategy name = none ∧
        ∀ arg ∈ baseArgs name (some c) c.userArgs, isSniOption arg = false) := by
  obtain ⟨hrun, hshown⟩ := args_of_custom now customArgs h
  rw [hrun, hshown]
  cases hsni : c.fakeSni with
  | some x => simp
  | none =>
    rw [Option.getD_none, Option.none_or, fakeSniArgs_empty_eq_iff _ fun x hx =>
      getFakeSniForStrategy_not_blank hx, quicArgs_clean_iff]
    simp

/-- What is shown is what is run, unless the strategy is a custom one without an
override for which a fake SNI is resolved or whose arguments have one of their own. -/
theorem shown_args_are_run_iff (s : State) (now : Int) (name customArgs : String) :
    (startVpnArgs s.save now name customArgs = shownArgs s name customArgs ∧
        testStrategyArgs s.save now name customArgs s.enableQuic = shownArgs s name customArgs) ↔
      ∀ c, findCustom s.customStrategies name = some c → c.fakeSni = none →
        s.getFakeSniForStrategy name = none ∧
          ∀ arg ∈ baseArgs name (some c) c.userArgs, isSniOption arg = false := by
  rw [testStrategyArgs_save, and_self_iff]
  cases h : findCustom s.customStrategies name with
  | none => simpa using args_eq_of_not_custom now customArgs h
  | some c =>
    rw [args_eq_iff_of_custom now customArgs h]
    simp only [Option.some.injEq, forall_eq']

/-- One custom strategy without an override, whose arguments have a fake SNI. -/
def ownSni : State where
  customStrategies := [
    { id := "c1", name := "Mine", userArgs := "--split 1 --fake-sni a.com"
      createdAt := 0, updatedAt := 0 }]
  strategyFakeSniMap := ⟨[], nofun⟩
  fakeSniPool := ["google.com"]
  globalMode := false
  enableQuic := true

/-- Shown with its fake SNI, run without it. -/
theorem null_override_drops_sni :
    shownArgs ownSni "Mine" "" = ["--split", "1", "--fake-sni", "a.com"] ∧
      startVpnArgs ownSni.save 0 "Mine" "" = ["--split", "1"] := by
  constructor <;> decide

end ShownArgs
