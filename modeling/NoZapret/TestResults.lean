import Mathlib.Data.List.Nodup
import NoZapret.OrgJson

/-!
# Test results over a restart

`saveTestResults` and `loadTestResults` of `MainViewModel`. The list of DNS checks is written
with every site that has one and once for the strategy, and a site without a list takes the one of
the strategy when it is read.
-/

namespace TestResults

open OrgJson

structure DnsTestResult where
  name : String
  ip : String
  success : Bool
  pingMs : Option (BitVec 64) := none
  error : Option String := none
  transport : Option String := none
  deriving DecidableEq

structure TlsTestResult where
  success : Bool
  ping : Option (BitVec 64) := none
  protocol : Option String := none
  cipherSuite : Option String := none
  error : Option String := none
  httpSuccess : Bool := false
  httpError : Option String := none
  dnsResults : List DnsTestResult := []
  deriving DecidableEq

/-- success, tested and total -/
abbrev Stat := BitVec 32 × BitVec 32 × BitVec 32

/-- The copy of a map, in the order in which it gives its entries. -/
structure Snapshot (α : Type) where
  entries : List (String × α)
  nodup : (entries.map Prod.fst).Nodup

variable {α : Type}

def Snapshot.get (m : Snapshot α) (name : String) : Option α := m.entries.lookup name

section Save

def dnsJson (dns : DnsTestResult) : Obj :=
  (((((Obj.put [] "name" (.str dns.name)).put "ip" (.str dns.ip)).put "success"
    (.bool dns.success)).putIf "pingMs" (dns.pingMs.map fun n => .num n.toInt)).putIf "error"
    (dns.error.map .str)).putIf "transport" (dns.transport.map .str)

/-- An empty list is not written. -/
def dnsArray (dns : List DnsTestResult) : Option Json :=
  if dns.isEmpty then none else some (.arr (dns.map fun d => .obj (dnsJson d)))

def resultJson (res : TlsTestResult) : Obj :=
  (((((((Obj.put [] "success" (.bool res.success)).putIf "ping"
    (res.ping.map fun n => .num n.toInt)).putIf "protocol" (res.protocol.map .str)).putIf
    "cipherSuite" (res.cipherSuite.map .str)).putIf "error" (res.error.map .str)).put
    "httpSuccess" (.bool res.httpSuccess)).putIf "httpError" (res.httpError.map .str)).putIf
    "dnsResults" (dnsArray res.dnsResults)

/-- The last list that is not empty. -/
def stratDnsResults (stratResults : List (String × TlsTestResult)) : List DnsTestResult :=
  stratResults.foldl (fun dns e => if e.2.dnsResults.isEmpty then dns else e.2.dnsResults) []

def resultsJson (stratResults : List (String × TlsTestResult)) : Obj :=
  stratResults.foldl (fun o e => o.put e.1 (.obj (resultJson e.2))) []

def statObj (stat : Stat) : Obj :=
  ((Obj.put [] "success" (.num stat.1.toInt)).put "tested" (.num stat.2.1.toInt)).put "total"
    (.num stat.2.2.toInt)

def statJson (stat : Stat) (stratResults : Option (Snapshot TlsTestResult)) : Obj :=
  match stratResults with
  | none => statObj stat
  | some rs =>
    if rs.entries.isEmpty then statObj stat
    else ((statObj stat).put "results" (.obj (resultsJson rs.entries))).putIf "dnsResults"
      (dnsArray (stratDnsResults rs.entries))

/-- What goes to `committed_stats`. -/
def saveTestResults (committedStats : Snapshot Stat)
    (testResults : Snapshot (Snapshot TlsTestResult)) : Obj :=
  committedStats.entries.foldl
    (fun root e => root.put e.1 (.obj (statJson e.2 (testResults.get e.1)))) []

end Save

section Load

variable (p : Platform)

def readDns (dObj : Obj) : Option DnsTestResult := do
  let name ← dObj.getString p "name"
  let ip ← dObj.getString p "ip"
  let success ← dObj.getBoolean "success"
  let pingMs ← dObj.optional "pingMs" (dObj.getLong p "pingMs")
  let error ← dObj.optional "error" (dObj.getString p "error")
  let transport ← dObj.optional "transport" (dObj.getString p "transport")
  return { name, ip, success, pingMs, error, transport }

def readDnsList (o : Obj) : Option (List DnsTestResult) :=
  if o.has "dnsResults" then
    (o.getJSONArray "dnsResults").bind fun dnsArr =>
      dnsArr.mapM fun v => v.toObject.bind (readDns p)
  else some []

def readResult (topDnsList : List DnsTestResult) (r : Obj) : Option TlsTestResult := do
  let siteDnsList ← readDnsList p r
  let finalDnsList := if siteDnsList.isEmpty then topDnsList else siteDnsList
  let success ← r.getBoolean "success"
  let ping ← r.optional "ping" (r.getLong p "ping")
  let protocol ← r.optional "protocol" (r.getString p "protocol")
  let cipherSuite ← r.optional "cipherSuite" (r.getString p "cipherSuite")
  let error ← r.optional "error" (r.getString p "error")
  let httpSuccess ← if r.has "httpSuccess" then r.getBoolean "httpSuccess" else some false
  let httpError ← r.optional "httpError" (r.getString p "httpError")
  return {
    success, ping, protocol, cipherSuite, error, httpSuccess, httpError
    dnsResults := finalDnsList }

def readStat (stat : Obj) : Option Stat := do
  let success ← stat.getInt p "success"
  let tested ← stat.getInt p "tested"
  let total ← stat.getInt p "total"
  return (success, tested, total)

def readSites (topDnsList : List DnsTestResult) (resultsObj : Obj) :
    Option (List (String × TlsTestResult)) :=
  resultsObj.mapM fun e => do
    let r ← resultsObj.getJSONObject e.1
    let res ← readResult p topDnsList r
    return (e.1, res)

/-- The results of a strategy, if it has any. -/
def readResults (stat : Obj) : Option (Option (List (String × TlsTestResult))) := do
  let topDnsList ← readDnsList p stat
  if stat.has "results" then
    let resultsObj ← stat.getJSONObject "results"
    let resultMap ← readSites p topDnsList resultsObj
    return some resultMap
  else return none

structure State where
  committedStats : String → Option Stat
  stats : String → Option Stat
  testResults : String → Option (List (String × TlsTestResult))

def State.initial : State := ⟨fun _ => none, fun _ => none, fun _ => none⟩

/-- One strategy; `false` is an exception, and what was taken over before it stays. -/
def loadStrategy (root : Obj) (name : String) (st : State) : State × Bool :=
  match root.getJSONObject name with
  | none => (st, false)
  | some stat =>
    match readStat p stat with
    | none => (st, false)
    | some triple =>
      let st := { st with
        committedStats := Function.update st.committedStats name (some triple)
        stats := Function.update st.stats name (some triple) }
      match readResults p stat with
      | none => (st, false)
      | some none => (st, true)
      | some (some resultMap) =>
        ({ st with testResults := Function.update st.testResults name (some resultMap) }, true)

def loadStrategies (root : Obj) : List String → State → State
  | [], st => st
  | name :: names, st =>
    match loadStrategy p root name st with
    | (st, true) => loadStrategies root names st
    | (st, false) => st

def loadTestResults (committed_stats : Option Obj) (st : State) : State :=
  match committed_stats with
  | none => st
  | some root => loadStrategies p root (root.map Prod.fst) st

end Load

/-- A result with this list if its own is empty. -/
def refill (dns : List DnsTestResult) (res : TlsTestResult) : TlsTestResult :=
  { res with dnsResults := if res.dnsResults.isEmpty then dns else res.dnsResults }

/-- What is read of the results of a strategy. -/
def refilled (stratResults : Option (Snapshot TlsTestResult)) :
    Option (List (String × TlsTestResult)) :=
  match stratResults with
  | none => none
  | some rs =>
    if rs.entries.isEmpty then none
    else some (rs.entries.map fun e => (e.1, refill (stratDnsResults rs.entries) e.2))

/-- What one strategy makes of the state. -/
def State.take (st : State) (name : String) (stat : Stat)
    (resultMap : Option (List (String × TlsTestResult))) : State where
  committedStats := Function.update st.committedStats name (some stat)
  stats := Function.update st.stats name (some stat)
  testResults :=
    match resultMap with
    | none => st.testResults
    | some m => Function.update st.testResults name (some m)

/-- The result for a site. -/
def State.result (st : State) (name site : String) : Option TlsTestResult :=
  (st.testResults name).bind fun m => m.lookup site

section RoundTrip

variable {p : Platform}

lemma mapM_map_some {β γ : Type} {xs : List α} {f : β → Option γ} {g : α → β} {k : α → γ}
    (h : ∀ x ∈ xs, f (g x) = some (k x)) : (xs.map g).mapM f = some (xs.map k) := by
  induction xs with
  | nil => rfl
  | cons x xs ih =>
    have hrest := ih fun y hy => h y (List.mem_cons_of_mem x hy)
    rw [List.map_cons, List.mapM_cons, h x List.mem_cons_self, hrest]
    rfl

lemma readDns_dnsJson (dns : DnsTestResult) : readDns p (dnsJson dns) = some dns := by
  have hname : (dnsJson dns).get "name" = some (.str dns.name) := by
    simp [dnsJson, Obj.get_putIf, Obj.get_put]
  have hip : (dnsJson dns).get "ip" = some (.str dns.ip) := by
    simp [dnsJson, Obj.get_putIf, Obj.get_put]
  have hsuccess : (dnsJson dns).get "success" = some (.bool dns.success) := by
    simp [dnsJson, Obj.get_putIf]
  have hping : (dnsJson dns).get "pingMs" = dns.pingMs.map fun n => .num n.toInt := by
    simp [dnsJson, Obj.get_putIf, Obj.get_put]
  have herror : (dnsJson dns).get "error" = dns.error.map .str := by
    simp [dnsJson, Obj.get_putIf, Obj.get_put]
  have htransport : (dnsJson dns).get "transport" = dns.transport.map .str := by
    simp [dnsJson, Obj.get_putIf, Obj.get_put]
  simp only [readDns, Obj.getString_str hname, Obj.getString_str hip,
    Obj.getBoolean_bool hsuccess, Obj.optional_long hping, Obj.optional_string herror,
    Obj.optional_string htransport, Option.bind_eq_bind, Option.bind_some]
  rfl

/-- An object with the array of a list has that list. -/
lemma readDnsList_dnsArray {o : Obj} {dns : List DnsTestResult}
    (h : o.get "dnsResults" = dnsArray dns) : readDnsList p o = some dns := by
  have hall : (dns.map fun d => Json.obj (dnsJson d)).mapM
      (fun v => v.toObject.bind (readDns p)) = some dns := by
    have hread : ∀ d ∈ dns, (Json.obj (dnsJson d)).toObject.bind (readDns p) = some (id d) :=
      fun d _ => readDns_dnsJson d
    rw [mapM_map_some hread, List.map_id]
  unfold readDnsList Obj.has Obj.getJSONArray
  rw [h]
  unfold dnsArray
  by_cases hempty : dns = []
  · rw [hempty]
    rfl
  · simp [hempty, Json.toArray, hall]

lemma readResult_resultJson (dns : List DnsTestResult) (res : TlsTestResult) :
    readResult p dns (resultJson res) = some (refill dns res) := by
  have hdns : (resultJson res).get "dnsResults" = dnsArray res.dnsResults := by
    simp [resultJson, Obj.get_putIf, Obj.get_put]
  have hsuccess : (resultJson res).get "success" = some (.bool res.success) := by
    simp [resultJson, Obj.get_putIf, Obj.get_put]
  have hping : (resultJson res).get "ping" = res.ping.map fun n => .num n.toInt := by
    simp [resultJson, Obj.get_putIf, Obj.get_put]
  have hprotocol : (resultJson res).get "protocol" = res.protocol.map .str := by
    simp [resultJson, Obj.get_putIf, Obj.get_put]
  have hcipherSuite : (resultJson res).get "cipherSuite" = res.cipherSuite.map .str := by
    simp [resultJson, Obj.get_putIf, Obj.get_put]
  have herror : (resultJson res).get "error" = res.error.map .str := by
    simp [resultJson, Obj.get_putIf, Obj.get_put]
  have hhttp : (resultJson res).get "httpSuccess" = some (.bool res.httpSuccess) := by
    simp [resultJson, Obj.get_putIf]
  have hhttpError : (resultJson res).get "httpError" = res.httpError.map .str := by
    simp [resultJson, Obj.get_putIf, Obj.get_put]
  have hhas : (resultJson res).has "httpSuccess" = true := by
    rw [Obj.has, hhttp]
    rfl
  simp only [readResult, readDnsList_dnsArray hdns, Obj.getBoolean_bool hsuccess,
    Obj.optional_long hping, Obj.optional_string hprotocol, Obj.optional_string hcipherSuite,
    Obj.optional_string herror, hhas, if_true, Obj.getBoolean_bool hhttp,
    Obj.optional_string hhttpError, Option.bind_eq_bind, Option.bind_some]
  rfl

lemma resultsJson_eq {rs : Snapshot TlsTestResult} :
    resultsJson rs.entries = rs.entries.map fun e => (e.1, .obj (resultJson e.2)) := by
  unfold resultsJson
  exact Obj.foldl_put rs.nodup fun e _ => Obj.get_nil

lemma statJson_get {stat : Stat} {stratResults : Option (Snapshot TlsTestResult)} {name : String}
    (hresults : name ≠ "results") (hdns : name ≠ "dnsResults") :
    (statJson stat stratResults).get name = (statObj stat).get name := by
  unfold statJson
  split
  · rfl
  · split
    · rfl
    · rw [Obj.get_putIf, if_neg hdns, Obj.get_put_of_ne hresults]

lemma readStat_statJson (stat : Stat) (stratResults : Option (Snapshot TlsTestResult)) :
    readStat p (statJson stat stratResults) = some stat := by
  have hsuccess : (statJson stat stratResults).get "success" = some (.num stat.1.toInt) := by
    rw [statJson_get (by decide) (by decide)]
    simp [statObj, Obj.get_put]
  have htested : (statJson stat stratResults).get "tested" = some (.num stat.2.1.toInt) := by
    rw [statJson_get (by decide) (by decide)]
    simp [statObj, Obj.get_put]
  have htotal : (statJson stat stratResults).get "total" = some (.num stat.2.2.toInt) := by
    rw [statJson_get (by decide) (by decide)]
    simp [statObj]
  simp only [readStat, Obj.getInt_num hsuccess, Obj.getInt_num htested, Obj.getInt_num htotal,
    Option.bind_eq_bind, Option.bind_some]
  rfl

/-- Without results nothing is read. -/
lemma readResults_statObj (stat : Stat) : readResults p (statObj stat) = some none := by
  have hdns : (statObj stat).get "dnsResults" = dnsArray [] := by
    simp [statObj, Obj.get_put, dnsArray]
  have hresults : (statObj stat).has "results" = false := by
    simp [Obj.has, statObj, Obj.get_put]
  simp only [readResults, readDnsList_dnsArray hdns, hresults, Option.bind_eq_bind,
    Option.bind_some]
  rfl

lemma readSites_resultsJson (dns : List DnsTestResult) (rs : Snapshot TlsTestResult) :
    readSites p dns (resultsJson rs.entries) =
      some (rs.entries.map fun e => (e.1, refill dns e.2)) := by
  have hnodup : ((resultsJson rs.entries).map Prod.fst).Nodup := by
    rw [resultsJson_eq, List.map_map]
    exact rs.nodup
  have hsite : ∀ e ∈ rs.entries,
      (resultsJson rs.entries).getJSONObject e.1 = some (resultJson e.2) := by
    intro e he
    have hmem : (e.1, Json.obj (resultJson e.2)) ∈ resultsJson rs.entries := by
      rw [resultsJson_eq]
      exact List.mem_map_of_mem he
    rw [Obj.getJSONObject, Obj.get_of_mem hnodup hmem]
    rfl
  unfold readSites
  conv_lhs => rw [resultsJson_eq]
  refine mapM_map_some ?_
  intro e he
  rw [← resultsJson_eq, hsite e he, Option.bind_eq_bind, Option.bind_some,
    readResult_resultJson]
  rfl

lemma readResults_statJson (stat : Stat) (stratResults : Option (Snapshot TlsTestResult)) :
    readResults p (statJson stat stratResults) = some (refilled stratResults) := by
  unfold statJson refilled
  split
  · exact readResults_statObj stat
  · rename_i rs
    split
    · exact readResults_statObj stat
    · have hdns : (((statObj stat).put "results" (.obj (resultsJson rs.entries))).putIf "dnsResults"
          (dnsArray (stratDnsResults rs.entries))).get "dnsResults" =
            dnsArray (stratDnsResults rs.entries) := by
        simp [statObj, Obj.get_putIf, Obj.get_put]
      have hresults : (((statObj stat).put "results" (.obj (resultsJson rs.entries))).putIf
          "dnsResults" (dnsArray (stratDnsResults rs.entries))).get "results" =
            some (.obj (resultsJson rs.entries)) := by
        simp [Obj.get_putIf]
      simp only [readResults, readDnsList_dnsArray hdns, Obj.has, Obj.getJSONObject, hresults,
        Option.bind_eq_bind, Option.bind_some, Option.isSome_some, if_true, Json.toObject,
        readSites_resultsJson]
      rfl

lemma loadStrategy_eq {root : Obj} {name : String} {stat : Stat}
    {stratResults : Option (Snapshot TlsTestResult)}
    (h : root.getJSONObject name = some (statJson stat stratResults)) (st : State) :
    loadStrategy p root name st = (st.take name stat (refilled stratResults), true) := by
  unfold loadStrategy
  simp only [h, readStat_statJson, readResults_statJson]
  cases refilled stratResults with
  | none => rfl
  | some m => rfl

lemma loadStrategies_eq {root : Obj} {es : List (String × Stat)}
    {testResults : Snapshot (Snapshot TlsTestResult)}
    (h : ∀ e ∈ es, root.getJSONObject e.1 = some (statJson e.2 (testResults.get e.1)))
    (st : State) : loadStrategies p root (es.map Prod.fst) st =
      es.foldl (fun st e => st.take e.1 e.2 (refilled (testResults.get e.1))) st := by
  induction es generalizing st with
  | nil => rfl
  | cons e es ih =>
    have hrest := ih fun d hd => h d (List.mem_cons_of_mem e hd)
    rw [List.map_cons, List.foldl_cons, ← hrest]
    unfold loadStrategies
    rw [loadStrategy_eq (h e List.mem_cons_self)]
    cases es with
    | nil => rfl
    | cons d es => rfl

lemma take_testResults (st : State) (name other : String) (stat : Stat)
    (resultMap : Option (List (String × TlsTestResult))) :
    (st.take name stat resultMap).testResults other =
      if other = name then resultMap.or (st.testResults name) else st.testResults other := by
  cases resultMap with
  | none =>
    by_cases hother : other = name
    · rw [if_pos hother, hother]
      rfl
    · rw [if_neg hother]
      rfl
  | some m => exact Function.update_apply st.testResults name (some m) other

lemma lookup_of_notMem {xs : List (String × α)} {name : String} (h : name ∉ xs.map Prod.fst) :
    xs.lookup name = none := by
  rw [List.lookup_eq_none_iff]
  intro x hx
  have hne : name ≠ x.1 := fun heq => h (heq ▸ List.mem_map_of_mem hx)
  exact bne_iff_ne.mpr hne

section Fold

variable {es : List (String × Stat)} (resultMap : String → Option (List (String × TlsTestResult)))

/-- The strategies one after the other. -/
def takeAll (es : List (String × Stat)) (st : State) : State :=
  es.foldl (fun st e => st.take e.1 e.2 (resultMap e.1)) st

lemma takeAll_committedStats (hnodup : (es.map Prod.fst).Nodup) (st : State) (name : String) :
    (takeAll resultMap es st).committedStats name =
      (es.lookup name).or (st.committedStats name) := by
  induction es generalizing st with
  | nil => rfl
  | cons e es ih =>
    rw [List.map_cons, List.nodup_cons] at hnodup
    have hrest := ih hnodup.2 (st.take e.1 e.2 (resultMap e.1))
    by_cases hname : name = e.1
    · subst hname
      have hnone := lookup_of_notMem hnodup.1
      rw [takeAll, List.foldl_cons]
      change (takeAll resultMap es _).committedStats _ = _
      rw [hrest, hnone, List.lookup_cons_self]
      exact Function.update_self ..
    · rw [takeAll, List.foldl_cons]
      change (takeAll resultMap es _).committedStats _ = _
      rw [hrest, List.lookup_cons, beq_false_of_ne hname]
      exact congrArg _ (Function.update_of_ne hname ..)

lemma takeAll_testResults (hnodup : (es.map Prod.fst).Nodup) (st : State) (name : String) :
    (takeAll resultMap es st).testResults name =
      ((es.lookup name).bind fun _ => resultMap name).or (st.testResults name) := by
  induction es generalizing st with
  | nil => rfl
  | cons e es ih =>
    rw [List.map_cons, List.nodup_cons] at hnodup
    have hrest := ih hnodup.2 (st.take e.1 e.2 (resultMap e.1))
    rw [take_testResults] at hrest
    rw [takeAll, List.foldl_cons]
    change (takeAll resultMap es _).testResults _ = _
    rw [hrest]
    by_cases hname : name = e.1
    · subst hname
      have hnone := lookup_of_notMem hnodup.1
      rw [hnone, if_pos rfl, List.lookup_cons_self]
      rfl
    · rw [if_neg hname, List.lookup_cons, beq_false_of_ne hname]

end Fold

lemma lookup_map_values {β : Type} {xs : List (String × α)} {f : α → β} {name : String} :
    (xs.map fun e => (e.1, f e.2)).lookup name = (xs.lookup name).map f := by
  induction xs with
  | nil => rfl
  | cons e xs ih =>
    rw [List.map_cons, List.lookup_cons, List.lookup_cons, ih]
    cases name == e.1 <;> rfl

lemma refilled_lookup (stratResults : Option (Snapshot TlsTestResult)) (site : String) :
    ((refilled stratResults).bind fun m => m.lookup site) = stratResults.bind fun rs =>
      (rs.get site).map (refill (stratDnsResults rs.entries)) := by
  unfold refilled
  split
  · rfl
  · rename_i rs
    split
    · rename_i hempty
      rw [Option.bind_some, Snapshot.get, List.isEmpty_iff.mp hempty]
      rfl
    · exact lookup_map_values

lemma loadTestResults_save (committedStats : Snapshot Stat)
    (testResults : Snapshot (Snapshot TlsTestResult)) (st : State) :
    loadTestResults p (some (saveTestResults committedStats testResults)) st =
      takeAll (fun name => refilled (testResults.get name)) committedStats.entries st := by
  have hroot : saveTestResults committedStats testResults = committedStats.entries.map fun e =>
      (e.1, .obj (statJson e.2 (testResults.get e.1))) :=
    Obj.foldl_put committedStats.nodup fun e _ => Obj.get_nil
  have hnames : (saveTestResults committedStats testResults).map Prod.fst =
      committedStats.entries.map Prod.fst := by
    rw [hroot, List.map_map]
    rfl
  unfold loadTestResults
  simp only [hnames]
  refine loadStrategies_eq ?_ st
  intro e he
  have hmem : (e.1, Json.obj (statJson e.2 (testResults.get e.1))) ∈
      saveTestResults committedStats testResults := by
    rw [hroot]
    exact List.mem_map_of_mem he
  rw [Obj.getJSONObject, Obj.get_of_mem (hnames ▸ committedStats.nodup) hmem]
  rfl

/-- What is loaded after a restart is what was saved, up to the lists that were empty. -/
theorem load_save (committedStats : Snapshot Stat)
    (testResults : Snapshot (Snapshot TlsTestResult)) (name : String) :
    (loadTestResults p (some (saveTestResults committedStats testResults))
        .initial).committedStats name = committedStats.get name ∧
      ∀ site, (loadTestResults p (some (saveTestResults committedStats testResults))
        .initial).result name site = (committedStats.get name).bind fun _ =>
          (testResults.get name).bind fun rs =>
            (rs.get site).map (refill (stratDnsResults rs.entries)) := by
  rw [loadTestResults_save]
  constructor
  · rw [takeAll_committedStats _ committedStats.nodup]
    exact Option.or_none
  · intro site
    unfold State.result
    rw [takeAll_testResults _ committedStats.nodup, State.initial, Option.or_none,
      Option.bind_assoc]
    exact congrArg _ (funext fun _ => refilled_lookup (testResults.get name) site)

end RoundTrip

section Examples

def platform : Platform := ⟨fun _ => "", fun _ => none, fun _ => none⟩

def checked : DnsTestResult := { name := "Quad9 Primary", ip := "9.9.9.9", success := true }

/-- The first site has a list, the second has none. -/
def twoSites : Snapshot TlsTestResult where
  entries := [("youtube.com", { success := true, dnsResults := [checked] }),
    ("discord.com", { success := false })]
  nodup := by decide

def oneStrategy : Snapshot (Snapshot TlsTestResult) where
  entries := [("Modern Ultra", twoSites)]
  nodup := by decide

def oneStat : Snapshot Stat where
  entries := [("Modern Ultra", 1, 2, 2)]
  nodup := by decide

/-- The second site comes back with the list of the first. -/
theorem list_not_kept :
    ¬ ∀ (p : Platform) (committedStats : Snapshot Stat)
      (testResults : Snapshot (Snapshot TlsTestResult)) (name site : String),
        (committedStats.get name).isSome →
          (loadTestResults p (some (saveTestResults committedStats testResults))
            .initial).result name site = (testResults.get name).bind fun rs => rs.get site := by
  intro h
  have hsame := h platform oneStat oneStrategy "Modern Ultra" "discord.com" rfl
  have hloaded : ((loadTestResults platform (some (saveTestResults oneStat oneStrategy))
      .initial).result "Modern Ultra" "discord.com").map (·.dnsResults) = some [checked] := by
    rw [loadTestResults_save]
    rfl
  rw [hsame] at hloaded
  exact absurd hloaded (by decide)

end Examples

end TestResults
