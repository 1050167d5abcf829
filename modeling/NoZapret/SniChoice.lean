import NoZapret.Options
import NoZapret.ShownArgs

/-!
# What a chosen fake SNI does to the arguments

`setFakeSniForStrategy` keeps a validated name in the strategy's entry of the map
and takes the entry out for a blank one. The service resolves the entry, and without
one the pool or the default arguments; the override of a custom strategy comes
before all of them.
-/

namespace SniChoice

open Getopt Options Settings ShownArgs Strategies

def removePrefix (start s : String) : String :=
  if startsWith s start then String.ofList (s.toList.drop start.length) else s

/-- ASCII and the Kelvin sign; other letters only give what the pattern rejects. -/
def lowercase (s : String) : String :=
  String.ofList (s.toList.map fun c => if c.toNat = 0x212A then 'k' else c.toLower)

def isLetter (c : Char) : Bool := ('a' ≤ c ∧ c ≤ 'z') ∨ ('A' ≤ c ∧ c ≤ 'Z')

def isDigit (c : Char) : Bool := '0' ≤ c ∧ c ≤ '9'

/-- `^[a-zA-Z0-9.-]+\.[a-zA-Z]{2,}$` -/
def isHostname (cs : List Char) : Bool :=
  let zone := cs.rtakeWhile (· ≠ '.')
  let labels := (cs.rdropWhile (· ≠ '.')).dropLast
  2 ≤ zone.length && zone.all isLetter && !labels.isEmpty &&
    labels.all fun c => isLetter c || isDigit c || c = '.' || c = '-'

/-- `^([0-9]{1,3}\.){3}[0-9]{1,3}$` -/
def isAddress (cs : List Char) : Bool :=
  let parts := cs.splitOn '.'
  parts.length = 4 && parts.all fun part =>
    1 ≤ part.length && part.length ≤ 3 && part.all isDigit

/-- The host of what was typed. -/
def domainName (raw : String) : String :=
  let trimmed := lowercase
    (removePrefix "//" (removePrefix "http://" (removePrefix "https://" (trim raw))))
  let withoutPath := trim (String.ofList
    (trimmed.toList.takeWhile fun c => c ≠ '/' ∧ c ≠ '?' ∧ c ≠ '#'))
  if withoutPath.toList.contains ':' && !startsWith withoutPath "[" then
    String.ofList (withoutPath.toList.takeWhile (· ≠ ':'))
  else withoutPath

def validateDomain (raw : String) : Option String :=
  let name := domainName raw
  let cs := name.toList
  if name = "" then none
  else if cs.contains ' ' || cs.contains '\t' || cs.contains '\n' then none
  else if !(isHostname cs || isAddress cs) && name != "localhost" then none
  else some name

section Domain

variable {raw d : String} {c : Char}

/-- The characters of a valid name are all visible. -/
def isSolid (c : Char) : Bool := isLetter c || isDigit c || c = '.' || c = '-'

lemma solid_visible (h : isSolid c = true) : isWhitespace c = false := by
  have hrange : 45 ≤ c.val.toNat ∧ c.val.toNat ≤ 122 := by
    simp only [isSolid, isLetter, isDigit, Bool.or_eq_true, decide_eq_true_eq, Char.le_def,
      UInt32.le_iff_toNat_le] at h
    rcases h with (((h | h) | h) | rfl) | rfl
    · change 97 ≤ c.val.toNat ∧ c.val.toNat ≤ 122 at h
      omega
    · change 65 ≤ c.val.toNat ∧ c.val.toNat ≤ 90 at h
      omega
    · change 48 ≤ c.val.toNat ∧ c.val.toNat ≤ 57 at h
      omega
    · decide
    · decide
  have hnat : c.toNat = c.val.toNat := rfl
  simp only [isWhitespace, Bool.or_eq_false_iff, Bool.and_eq_false_iff, decide_eq_false_iff_not,
    beq_eq_false_iff_ne]
  omega

lemma mem_hostname {cs : List Char} (h : isHostname cs = true) (hc : c ∈ cs) :
    isSolid c = true := by
  simp only [isHostname, Bool.and_eq_true, List.all_eq_true] at h
  obtain ⟨⟨⟨-, hzone⟩, hlabels⟩, hall⟩ := h
  have hne : cs.rdropWhile (· ≠ '.') ≠ [] := by
    intro hnil
    rw [hnil] at hlabels
    cases hlabels
  rw [← List.rdropWhile_append_rtakeWhile (p := (· ≠ '.')) (l := cs), List.mem_append,
    ← List.dropLast_append_getLast hne, List.mem_append, List.mem_singleton] at hc
  rcases hc with (hc | rfl) | hc
  · have hlabel := hall c hc
    simpa only [isSolid] using hlabel
  · have hdot : (cs.rdropWhile (· ≠ '.')).getLast hne = '.' := by
      by_contra hlast
      exact List.rdropWhile_last_not (· ≠ '.') cs hne (by simpa using hlast)
    rw [hdot]
    decide
  · simp [isSolid, hzone c hc]

lemma mem_address {cs : List Char} (h : isAddress cs = true) (hc : c ∈ cs) :
    isSolid c = true := by
  simp only [isAddress, Bool.and_eq_true, List.all_eq_true, decide_eq_true_eq] at h
  obtain ⟨hlength, hparts⟩ := h
  have hjoin : ['.'].intercalate (cs.splitOn '.') = cs := List.intercalate_splitOn '.'
  rw [← hjoin] at hc
  have hdigits : ∀ part ∈ cs.splitOn '.', ∀ d ∈ part, isSolid d = true := by
    intro part hpart d hd
    simp [isSolid, (hparts part hpart).2 d hd]
  match hsplit : cs.splitOn '.' with
  | [] | [_] | [_, _] | [_, _, _] | _ :: _ :: _ :: _ :: _ :: _ => simp [hsplit] at hlength
  | [p₁, p₂, p₃, p₄] =>
    rw [hsplit] at hc hdigits
    have hdot : isSolid '.' = true := by
      decide
    simp only [List.intercalate, List.intersperse_cons_cons, List.intersperse_singleton,
      List.flatten_cons, List.flatten_nil, List.mem_append, List.mem_singleton] at hc
    rcases hc with hc | rfl | hc | rfl | hc | rfl | hc | hc
    · exact hdigits p₁ (by simp) c hc
    · exact hdot
    · exact hdigits p₂ (by simp) c hc
    · exact hdot
    · exact hdigits p₃ (by simp) c hc
    · exact hdot
    · exact hdigits p₄ (by simp) c hc
    · cases hc

lemma validateDomain_solid (h : validateDomain raw = some d) :
    d ≠ "" ∧ ∀ c ∈ d.toList, isSolid c = true := by
  unfold validateDomain at h
  generalize domainName raw = name at h
  simp only at h
  split_ifs at h with hempty hspace hmatch
  cases h
  refine ⟨hempty, ?_⟩
  intro c hc
  by_cases hlocal : d = "localhost"
  · have hall : "localhost".toList.all isSolid = true := by
      decide
    rw [hlocal] at hc
    exact List.all_eq_true.mp hall c hc
  · have hname : isHostname d.toList = true ∨ isAddress d.toList = true := by
      rw [← Bool.or_eq_true]
      by_contra hno
      simp only [Bool.not_eq_true] at hno
      exact hmatch (by simp [hno, hlocal])
    rcases hname with hname | haddress
    · exact mem_hostname hname hc
    · exact mem_address haddress hc

/-- A validated name is not blank and needs no trimming. -/
lemma validateDomain_visible (h : validateDomain raw = some d) :
    isBlank d = false ∧ trim d = d := by
  obtain ⟨hne, hsolid⟩ := validateDomain_solid h
  have hvisible : ∀ c ∈ d.toList, isWhitespace c = false := fun c hc => solid_visible (hsolid c hc)
  have hdrop : d.toList.dropWhile isWhitespace = d.toList := by
    cases hd : d.toList with
    | nil => rfl
    | cons c cs => simp [hvisible c (by simp [hd])]
  have hrdrop : d.toList.rdropWhile isWhitespace = d.toList := by
    rw [List.rdropWhile_eq_self_iff]
    intro hl
    simp [hvisible _ (List.getLast_mem hl)]
  have htrim : trim d = d := by
    rw [trim, hdrop, hrdrop, String.ofList_toList]
  refine ⟨?_, htrim⟩
  rw [← htrim]
  apply isBlank_trim
  rwa [htrim]

end Domain

/-- `remove` -/
def removeKey (m : FakeSniMap) (key : String) : FakeSniMap where
  entries := m.entries.filter fun e => e.1 != key
  nonBlank e he := m.nonBlank e (List.mem_filter.mp he).1

/-- `strategyFakeSniMap[key] = value` -/
def put (m : FakeSniMap) (key value : String) (hvalue : isBlank value = false) : FakeSniMap where
  entries := (key, value) :: (removeKey m key).entries
  nonBlank e he := by
    rcases List.mem_cons.mp he with rfl | he
    · exact hvalue
    · exact (removeKey m key).nonBlank e he

/-- The settings after a success; `none` is a failure. -/
def setFakeSniForStrategy (s : Settings.State) (strategyName : String)
    (rawFakeSni : Option String) : Option Settings.State :=
  let trimmed := (rawFakeSni.map trim).getD ""
  if trimmed = "" then
    some { s with strategyFakeSniMap := removeKey s.strategyFakeSniMap strategyName }
  else
    match h : validateDomain trimmed with
    | none => none
    | some domain => some { s with
        strategyFakeSniMap := put s.strategyFakeSniMap strategyName domain
          (validateDomain_visible h).1 }

/-- The validated choice; nothing for a blank one. -/
def chosen (rawFakeSni : Option String) : Option String :=
  let trimmed := (rawFakeSni.map trim).getD ""
  if trimmed = "" then none else validateDomain trimmed

section Map

variable {m : FakeSniMap} {key name value : String}

lemma lookup_removeKey : (removeKey m key).entries.lookup name =
    if name = key then none else m.entries.lookup name := by
  change (m.entries.filter fun e => e.1 != key).lookup name = _
  generalize m.entries = entries
  induction entries with
  | nil => simp
  | cons e entries ih =>
    obtain ⟨k, v⟩ := e
    by_cases hk : k = key
    · subst hk
      by_cases hname : name = k
      · subst hname
        simpa using ih
      · rw [List.filter_cons_of_neg (by simp), List.lookup_cons, beq_false_of_ne hname, ih,
          if_neg hname]
    · rw [List.filter_cons_of_pos (by simpa using hk), List.lookup_cons, List.lookup_cons, ih]
      by_cases hname : name = k
      · subst hname
        simp [hk]
      · rw [beq_false_of_ne hname]

lemma lookup_put {hvalue : isBlank value = false} : (put m key value hvalue).entries.lookup name =
    if name = key then some value else m.entries.lookup name := by
  unfold put
  rw [List.lookup_cons, lookup_removeKey]
  by_cases hname : name = key
  · simp [hname]
  · rw [beq_false_of_ne hname, if_neg hname, if_neg hname]

/-- A success keeps everything but the strategy's entry, which becomes the choice. -/
structure Chosen (s s' : Settings.State) (name : String) (choice : Option String) : Prop where
  entry : s'.strategyFakeSniMap.entries.lookup name = choice
  rest : ∀ other, other ≠ name → s'.strategyFakeSniMap.entries.lookup other =
    s.strategyFakeSniMap.entries.lookup other
  customStrategies : s'.customStrategies = s.customStrategies
  fakeSniPool : s'.fakeSniPool = s.fakeSniPool
  globalMode : s'.globalMode = s.globalMode
  enableQuic : s'.enableQuic = s.enableQuic

lemma set_chosen {s s' : Settings.State} {raw : Option String}
    (h : setFakeSniForStrategy s name raw = some s') : Chosen s s' name (chosen raw) := by
  unfold setFakeSniForStrategy at h
  unfold chosen
  by_cases hempty : (raw.map trim).getD "" = ""
  · simp only [hempty, if_true, Option.some.injEq] at h ⊢
    subst h
    refine ⟨?_, ?_, rfl, rfl, rfl, rfl⟩
    · rw [lookup_removeKey, if_pos rfl]
    · intro other hother
      rw [lookup_removeKey, if_neg hother]
  · simp only [hempty, if_false] at h ⊢
    split at h
    · cases h
    · rename_i domain hdomain
      cases h
      refine ⟨?_, ?_, rfl, rfl, rfl, rfl⟩
      · rw [lookup_put, if_pos rfl, hdomain]
      · intro other hother
        rw [lookup_put, if_neg hother]

end Map

/-- The fake SNIs that the engine reads. -/
def carried (args : List String) : List String :=
  (scan options .ready args).1.filterMap fakeSniOf

/-- What is put in for a strategy once the choice is made. -/
def putIn (s : Settings.State) (name : String) (choice : Option String) : Option String :=
  match findCustom s.customStrategies name, choice with
  | some c, _ => ifEmptyNull (trim (c.fakeSni.getD ""))
  | none, some domain => some domain
  | none, none =>
    (if s.globalMode && !s.fakeSniPool.isEmpty then
      s.fakeSniPool.head?.bind fun host => ifEmptyNull (trim host)
    else defaultFakeSni name).map trim

/-- The other arguments. A fake SNI replaces those that the strategy has. -/
def others (s : Settings.State) (name customArgs : String) (choice : Option String) :
    List String :=
  let customStrat := findCustom s.customStrategies name
  let args := quicArgs s.enableQuic
    (baseArgs name customStrat ((customStrat.map (·.userArgs)).getD customArgs))
  if customStrat.isSome || (putIn s name choice).isSome then stripFakeSni args else args

def fakeSniOption : Option String → List String
  | none => []
  | some x => ["--fake-sni", x]

/-- What the engine hears of the option behind words that leave it in a state: behind
an option that waits for its value, only the second word can be one. -/
def heard : Getopt.State → Option String → List String
  | _, none => []
  | .ready, some x => [x]
  | .waiting c, some x => (if c = 'n' then ["--fake-sni"] else []) ++ carried [x]
  | .ended, some _ | .failed, some _ => []

/-- No fake SNI in another spelling, no value missing at the end, and no `--`. -/
def Plain (args : List String) : Prop :=
  carried args = [] ∧ (scan options .ready args).2 = .ready

/-- The engine gets the choice and nothing else for the strategy, and what it got
before for any other one. -/
structure TakesEffect (s s' : Settings.State) (now : Int) (name customArgs : String)
    (rawFakeSni : Option String) : Prop where
  own : carried (startVpnArgs s'.save now name customArgs) = (chosen rawFakeSni).toList
  rest : ∀ other, other ≠ name → ∀ otherArgs,
    startVpnArgs s'.save now other otherArgs = startVpnArgs s.save now other otherArgs

/-- What is put in is the choice, among arguments that are plain. Arguments that are
not count with what they spell themselves. -/
def Fits (s : Settings.State) (name customArgs : String) (choice : Option String) : Prop :=
  (Plain (others s name customArgs choice) ∧ putIn s name choice = choice) ∨
    (¬ Plain (others s name customArgs choice) ∧
      carried (others s name customArgs choice) ++
        heard (scan options .ready (others s name customArgs choice)).2 (putIn s name choice) =
          choice.toList)

section Effect

variable {s s' : Settings.State} {name : String} {raw choice : Option String} {now : Int}

lemma carried_put (words : List String) (x : Option String) :
    carried (words ++ fakeSniOption x) =
      carried words ++ heard (scan options .ready words).2 x := by
  have hname : readWord options "--fake-sni" = ([], .waiting 'n') := by
    decide
  unfold carried
  rw [scan_append, List.filterMap_append]
  cases x with
  | none => simp [fakeSniOption, heard]
  | some x =>
    congr 1
    cases hend : (scan options .ready words).2 with
    | ready =>
      have hnext : readNext options .ready "--fake-sni" = ([], .waiting 'n') := hname
      rw [fakeSniOption, scan_cons, hnext]
      simp [heard, scan_cons, readNext, fakeSniOf]
    | waiting c =>
      rw [fakeSniOption, scan_cons, List.filterMap_append, heard]
      congr 1
      by_cases hc : c = 'n' <;> simp [readNext, fakeSniOf, hc]
    | ended => rw [scan_ended, heard, List.filterMap_nil]
    | failed => rw [scan_failed, heard, List.filterMap_nil]

lemma fakeSniArgs_custom (sni : String) (args : List String) :
    fakeSniArgs (some sni) true args =
      stripFakeSni args ++ fakeSniOption (ifEmptyNull (trim sni)) := by
  by_cases hempty : trim sni = "" <;>
    simp [fakeSniArgs, ifEmptyNull, fakeSniOption, hempty]

/-- Without a custom strategy, what is put in is what the service resolves. -/
lemma putIn_resolved (hset : Chosen s s' name choice)
    (hclean : ∀ d, choice = some d → isBlank d = false ∧ trim d = d)
    (hsupports : supportsFakeSni name = true)
    (hcustom : findCustom s.customStrategies name = none) : putIn s name choice =
      (resolveFakeSni name s'.strategyFakeSniMap.entries s'.fakeSniPool s'.globalMode).map trim := by
  simp only [putIn, hcustom, resolveFakeSni, hsupports, hset.entry, hset.fakeSniPool,
    hset.globalMode, Bool.not_true, Bool.false_eq_true, if_false]
  cases choice with
  | none => rfl
  | some d =>
    obtain ⟨hblank, htrim⟩ := hclean d rfl
    have hne : d ≠ "" := by
      rw [← htrim]
      exact trim_ne_empty hblank
    simp [ifEmptyNull, htrim, hne]

/-- The service's arguments once the choice is made. -/
lemma args_chosen (hset : Chosen s s' name choice)
    (hclean : ∀ d, choice = some d → isBlank d = false ∧ trim d = d)
    (hsupports : supportsFakeSni name = true) (customArgs : String) :
    startVpnArgs s'.save now name customArgs =
      others s name customArgs choice ++ fakeSniOption (putIn s name choice) := by
  cases hcustom : findCustom s.customStrategies name with
  | some c =>
    have hcustom' : findCustom s'.customStrategies name = some c := by
      rw [hset.customStrategies, hcustom]
    rw [(args_of_custom now customArgs hcustom').1, fakeSniArgs_custom, hset.enableQuic]
    simp [others, putIn, hcustom]
  | none =>
    have hstored : findCustom (s'.customStrategies.map (stored now)) name = none := by
      rw [findCustom_stored, hset.customStrategies, hcustom]
      rfl
    have hput := putIn_resolved hset hclean hsupports hcustom
    rw [startVpnArgs_save, getStrategyArgs, hstored, hset.enableQuic]
    cases hresolved : resolveFakeSni name s'.strategyFakeSniMap.entries s'.fakeSniPool
      s'.globalMode with
    | none =>
      rw [hresolved] at hput
      simp [others, hput, hcustom, fakeSniOption, fakeSniArgs_none]
    | some x =>
      rw [hresolved] at hput
      have hargs := fakeSniArgs_some (resolveFakeSni_not_blank hresolved)
      simp [others, hput, hcustom, fakeSniOption, hsupports, hargs]

lemma chosen_visible {d : String} (h : chosen raw = some d) : isBlank d = false ∧ trim d = d := by
  unfold chosen at h
  simp only at h
  split at h
  · cases h
  · exact validateDomain_visible h

/-- Another strategy's entry, and with it what is resolved for it, stays. -/
lemma args_other {other : String} (hset : Chosen s s' name choice) (hother : other ≠ name)
    (otherArgs : String) :
    startVpnArgs s'.save now other otherArgs = startVpnArgs s.save now other otherArgs := by
  rw [startVpnArgs_save, startVpnArgs_save]
  simp only [resolveFakeSni, hset.rest other hother, hset.customStrategies, hset.fakeSniPool,
    hset.globalMode, hset.enableQuic]

lemma fits_iff (customArgs : String) : Fits s name customArgs choice ↔
    carried (others s name customArgs choice) ++
      heard (scan options .ready (others s name customArgs choice)).2 (putIn s name choice) =
        choice.toList := by
  unfold Fits
  by_cases hplain : Plain (others s name customArgs choice)
  · obtain ⟨hcarried, hready⟩ := hplain
    have hheard : heard .ready (putIn s name choice) = (putIn s name choice).toList := by
      cases putIn s name choice <;> rfl
    rw [hcarried, hready, hheard, List.nil_append]
    constructor
    · rintro (⟨-, heq⟩ | ⟨hnot, -⟩)
      · rw [heq]
      · exact absurd ⟨hcarried, hready⟩ hnot
    · intro heq
      refine Or.inl ⟨⟨hcarried, hready⟩, ?_⟩
      apply Option.ext
      intro d
      rw [← Option.mem_toList, heq, Option.mem_toList]
  · constructor
    · rintro (⟨h, -⟩ | ⟨-, heq⟩)
      · exact absurd h hplain
      · exact heq
    · intro heq
      exact Or.inr ⟨hplain, heq⟩

end Effect

theorem fake_sni_takes_effect_iff {s s' : Settings.State} {name : String} {raw : Option String}
    (now : Int) (customArgs : String) (hset : setFakeSniForStrategy s name raw = some s')
    (hsupports : supportsFakeSni name = true) :
    TakesEffect s s' now name customArgs raw ↔ Fits s name customArgs (chosen raw) := by
  have hchosen := set_chosen hset
  have hargs : startVpnArgs s'.save now name customArgs =
      others s name customArgs (chosen raw) ++ fakeSniOption (putIn s name (chosen raw)) :=
    args_chosen hchosen (fun d => chosen_visible) hsupports customArgs
  rw [fits_iff, ← carried_put, ← hargs]
  constructor
  · intro heffect
    exact heffect.own
  · intro hown
    exact ⟨hown, fun other hother otherArgs => args_other hchosen hother otherArgs⟩

/-- No custom strategy, no entry, and the pool is not used. -/
def fresh : Settings.State where
  customStrategies := []
  strategyFakeSniMap := ⟨[], nil_nonBlank⟩
  fakeSniPool := ["google.com", "yandex.ru"]
  globalMode := false
  enableQuic := true

theorem fake_sni_takes_effect_iff_simple :
    ∃ s', setFakeSniForStrategy fresh "Simple Fake" (some "https://A.com/x") = some s' ∧
      startVpnArgs s'.save 0 "Simple Fake" "" = ["--tlsrec", "1+s", "--fake-sni", "a.com"] ∧
      TakesEffect fresh s' 0 "Simple Fake" "" (some "https://A.com/x") := by
  refine ⟨_, rfl, ?_, ?_⟩
  · decide
  · refine (fake_sni_takes_effect_iff 0 "" rfl (by decide)).mpr ?_
    refine Or.inl ⟨⟨?_, ?_⟩, ?_⟩
    all_goals decide

/-- A disabled fake SNI leaves the built-in one, and a custom strategy whose override
was never set gets none. -/
theorem fake_sni_lost :
    (∃ s', setFakeSniForStrategy fresh "Simple Fake" (some "") = some s' ∧
        startVpnArgs s'.save 0 "Simple Fake" "" = ["--tlsrec", "1+s", "--fake-sni", "yandex.ru"] ∧
        ¬ TakesEffect fresh s' 0 "Simple Fake" "" (some "")) ∧
      ∃ s', setFakeSniForStrategy ownSni "Mine" (some "b.com") = some s' ∧
        startVpnArgs s'.save 0 "Mine" "" = ["--split", "1"] ∧
        ¬ TakesEffect ownSni s' 0 "Mine" "" (some "b.com") := by
  constructor
  · refine ⟨_, rfl, ?_, ?_⟩
    · decide
    · rintro ⟨hown, -⟩
      revert hown
      decide
  · refine ⟨_, rfl, ?_, ?_⟩
    · decide
    · rintro ⟨hown, -⟩
      revert hown
      decide

end SniChoice
