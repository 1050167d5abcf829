import NoZapret.Strategies

/-!
# What the settings keep and what is read back

`SettingsManager` holds the settings in memory and writes them to the data store;
the VPN service and the strategy tester read the store on their own. JSON is taken
as the values that `org.json` builds, not as text: what is written is what is parsed.
-/

namespace Settings

open Strategies

/-- A value under a key of a `JSONObject`. -/
inductive JsonValue where
  | str (s : String)
  | long (n : Int)
  deriving DecidableEq, Repr

abbrev JsonObject := List (String × JsonValue)

def JsonObject.has (obj : JsonObject) (key : String) : Bool := (obj.lookup key).isSome

/-- Throws when the key is missing; a number comes back as its digits. -/
def JsonObject.getString (obj : JsonObject) (key : String) : Option String :=
  (obj.lookup key).map fun
    | .str s => s
    | .long n => toString n

/-- `strategyFakeSniMap` in memory. Loading drops blank values, and
`setFakeSniForStrategy` stores validated names only. -/
structure FakeSniMap where
  entries : List (String × String)
  nonBlank : ∀ e ∈ entries, isBlank e.2 = false

lemma nil_nonBlank : ∀ e ∈ ([] : List (String × String)), isBlank e.2 = false := by simp

structure State where
  customStrategies : List CustomStrategy
  strategyFakeSniMap : FakeSniMap
  fakeSniPool : List String
  globalMode : Bool
  enableQuic : Bool

/-- The data store; a key that was never written is absent. -/
structure Prefs where
  customStrategiesJson : Option (List JsonObject)
  strategyFakeSniMap : Option (List (String × String))
  fakeSniPool : Option (List String)
  globalMode : Option Bool
  enableQuic : Option Bool

def customStrategyJson (item : CustomStrategy) : JsonObject := [
  ("id", .str item.id),
  ("name", .str item.name),
  ("description", .str item.description),
  ("backend", .str item.backend),
  ("userArgs", .str item.userArgs),
  ("fakeSni", .str (item.fakeSni.getD "")),
  ("customDns", .str (item.customDns.getD "")),
  ("category", .str item.category),
  ("createdAt", .long item.createdAt),
  ("updatedAt", .long item.updatedAt)]

def saveCustomStrategies (customStrategies : List CustomStrategy) : List JsonObject :=
  customStrategies.map customStrategyJson

/-- `saveCustomStrategies`, `saveStrategyFakeSniMap`, `saveFakeSniPool` (a set that
keeps the order) and `save`. -/
def State.save (s : State) : Prefs where
  customStrategiesJson := some (saveCustomStrategies s.customStrategies)
  strategyFakeSniMap := some s.strategyFakeSniMap.entries
  fakeSniPool := some s.fakeSniPool.eraseDups
  globalMode := some s.globalMode
  enableQuic := some s.enableQuic

def State.getCustomStrategyByName (s : State) (name : String) : Option CustomStrategy :=
  s.customStrategies.find? fun c => c.name == name

def State.getFakeSniForStrategy (s : State) (strategyName : String) : Option String :=
  match (s.getCustomStrategyByName strategyName).bind (·.fakeSni) with
  | some fakeSni => if isBlank fakeSni then none else some fakeSni
  | none =>
    resolveFakeSni strategyName s.strategyFakeSniMap.entries s.fakeSniPool s.globalMode

/-- One round of the loop over the array; `none` is an exception. The service and
the tester have the same loop. `now` is what the clock says. -/
def readCustomStrategy (now : Int) (obj : JsonObject) : Option CustomStrategy := do
  let id ← if obj.has "id" then obj.getString "id" else some ""
  let name ← if obj.has "name" then obj.getString "name" else some ""
  let description ← if obj.has "description" then obj.getString "description" else some ""
  let backend ← if obj.has "backend" then obj.getString "backend" else some "ByeDPI"
  let userArgs ← if obj.has "userArgs" then obj.getString "userArgs" else some ""
  let fakeSni ← if obj.has "fakeSni" then (obj.getString "fakeSni").map some else some none
  let customDns ← if obj.has "customDns" then (obj.getString "customDns").map some else some none
  let category ← if obj.has "category" then obj.getString "category" else some "User Custom"
  return {
    id, name, description, backend, userArgs, fakeSni, customDns, category
    createdAt := now, updatedAt := now }

/-- An exception ends the loop; what was added before it stays. -/
def readCustomStrategies (now : Int) : List JsonObject → List CustomStrategy
  | [] => []
  | obj :: rest =>
    match readCustomStrategy now obj with
    | some strat => strat :: readCustomStrategies now rest
    | none => []

def readFakeSniMap (json : Option (List (String × String))) : List (String × String) :=
  (json.getD []).filter fun e => !isBlank e.2

/-- What comes back of a strategy that was saved: an absent override is an empty one. -/
def stored (now : Int) (c : CustomStrategy) : CustomStrategy :=
  { c with
    fakeSni := some (c.fakeSni.getD ""), customDns := some (c.customDns.getD "")
    createdAt := now, updatedAt := now }

lemma read_customStrategyJson (now : Int) (c : CustomStrategy) :
    readCustomStrategy now (customStrategyJson c) = some (stored now c) := rfl

theorem read_saveCustomStrategies (now : Int) (cs : List CustomStrategy) :
    readCustomStrategies now (saveCustomStrategies cs) = cs.map (stored now) := by
  induction cs with
  | nil => rfl
  | cons c cs ih =>
    rw [saveCustomStrategies, List.map_cons, readCustomStrategies, read_customStrategyJson]
    exact congrArg _ ih

/-- The arguments of a strategy do not look at its overrides. -/
lemma baseArgs_stored (now : Int) (name : String) (c : CustomStrategy) (args : String) :
    baseArgs name (some (stored now c)) args = baseArgs name (some c) args := by
  delta baseArgs
  rfl

theorem findCustom_stored (now : Int) (cs : List CustomStrategy) (name : String) :
    findCustom (cs.map (stored now)) name = (findCustom cs name).map (stored now) :=
  List.find?_map

lemma read_saveFakeSniMap (m : FakeSniMap) : readFakeSniMap (some m.entries) = m.entries := by
  apply List.filter_eq_self.mpr
  intro e he
  simp [m.nonBlank e he]

lemma head?_eraseDups (pool : List String) : pool.eraseDups.head? = pool.head? := by
  cases pool with
  | nil => rfl
  | cons host pool => simp [List.eraseDups_cons]

lemma getCustomStrategyByName_none {s : State} {name : String}
    (h : findCustom s.customStrategies name = none) : s.getCustomStrategyByName name = none := by
  apply List.find?_eq_none.mpr
  intro c hc hname
  apply List.find?_eq_none.mp h c hc
  simp only [hname, Bool.true_or]

/-- The fake SNI that the settings show is never blank. -/
theorem getFakeSniForStrategy_not_blank {s : State} {name x : String}
    (h : s.getFakeSniForStrategy name = some x) : isBlank x = false := by
  simp only [State.getFakeSniForStrategy] at h
  split at h
  · split at h
    · cases h
    · rename_i hblank
      cases h
      simpa using hblank
  · exact resolveFakeSni_not_blank h

end Settings
