import Mathlib.Data.List.DropRight

/-!
# Strategies and their arguments

The part of `Config` that turns the name of a strategy into the arguments of
`byedpi`: the table of built-in strategies, `parseCustomArgs`, `supportsFakeSni`,
`getStrategyArgs` and `resolveFakeSni`. A fake SNI has three meanings here: null
leaves the arguments as they are, an empty one takes every fake-SNI option out, and
any other one replaces them.
-/

namespace Strategies

structure Strategy where
  id : String
  name : String
  category : String
  deriving DecidableEq, Repr

structure CustomStrategy where
  id : String
  name : String
  description : String := ""
  backend : String := "ByeDPI"
  userArgs : String := ""
  fakeSni : Option String := none
  customDns : Option String := none
  category : String := "User Custom"
  createdAt : Int
  updatedAt : Int
  deriving DecidableEq, Repr

/-- `STRATEGIES_DATA`, without the descriptions. -/
def strategiesData : List Strategy := [
  ⟨"auto", "Auto (Recommended)", "General"⟩,
  ⟨"modern_ultra", "Modern Ultra", "Modern"⟩,
  ⟨"youtube_google", "YouTube/Google Fix", "YouTube"⟩,
  ⟨"discord_udp", "Discord/UDP Fix", "Discord"⟩,
  ⟨"youtube_light", "YouTube Light (Battery)", "YouTube"⟩,
  ⟨"youtube_tls_split", "YouTube TLS Split", "YouTube"⟩,
  ⟨"ru_discord_alt", "RU Discord (Alt)", "Discord"⟩,
  ⟨"ru_universal_powerful", "RU Universal (Powerful)", "General"⟩,
  ⟨"simple_split", "Simple Split", "Simple"⟩,
  ⟨"simple_fake", "Simple Fake", "Simple"⟩,
  ⟨"torrent_p2p", "Torrent/P2P Fix", "Other"⟩,
  ⟨"ru_discord_alt2", "RU Discord (Alt 2)", "Discord"⟩,
  ⟨"discord_intense", "Discord UDP (Intense)", "Discord"⟩,
  ⟨"discord_mobile", "Discord Mobile (Optimized)", "Discord"⟩,
  ⟨"discord_tls_split", "Discord TLS Split", "Discord"⟩,
  ⟨"discord_light", "Discord Light", "Discord"⟩,
  ⟨"fake_discord_intense", "Simple Fake Discord Intense", "Simple Fake"⟩,
  ⟨"fake_discord_mobile", "Simple Fake Discord Mobile", "Simple Fake"⟩,
  ⟨"modern_youtube_extreme", "Modern YouTube (Extreme)", "YouTube"⟩,
  ⟨"universal_web_safe", "Universal Web (Safe)", "General"⟩,
  ⟨"custom", "Custom", "Custom"⟩,
  ⟨"s1", "Strategy 1", "Legacy"⟩,
  ⟨"s2", "Strategy 2", "Legacy"⟩,
  ⟨"s3", "Strategy 3", "Legacy"⟩,
  ⟨"s4", "Strategy 4", "Legacy"⟩,
  ⟨"s5", "Strategy 5", "Legacy"⟩,
  ⟨"s6", "Strategy 6", "Legacy"⟩,
  ⟨"s7", "Strategy 7", "Legacy"⟩,
  ⟨"s8", "Strategy 8", "Legacy"⟩,
  ⟨"s9", "Strategy 9", "Legacy"⟩]

def getStrategyByName (name : String) : Option Strategy :=
  strategiesData.find? fun s => s.name == name

/-- `Char.isWhitespace` of Kotlin on the JVM. -/
def isWhitespace (c : Char) : Bool :=
  let n := c.toNat
  (9 ≤ n && n ≤ 13) || (28 ≤ n && n ≤ 32) || n == 0xA0 || n == 0x1680 ||
    (0x2000 ≤ n && n ≤ 0x200A) || n == 0x2028 || n == 0x2029 || n == 0x202F || n == 0x205F ||
    n == 0x3000

def isBlank (s : String) : Bool := s.toList.all isWhitespace

def trim (s : String) : String :=
  String.ofList ((s.toList.dropWhile isWhitespace).rdropWhile isWhitespace)

def startsWith (s start : String) : Bool := start.toList.isPrefixOf s.toList

/-- `ifEmpty { null }` -/
def ifEmptyNull (s : String) : Option String := if s = "" then none else some s

def supportsFakeSni (name : String) : Bool :=
  ["Auto (Recommended)", "Modern Ultra", "YouTube/Google Fix", "RU Discord (Alt)", "Simple Fake",
      "Simple Fake Discord Intense", "Simple Fake Discord Mobile"].contains name ||
    match getStrategyByName name with
    | some strat =>
      strat.category == "Simple Fake" || strat.category == "Fake" || name == "Custom" ||
        startsWith name "custom_"
    | none => true

/-- The loop of `parseCustomArgs`; the word being built and the quotes are its state. -/
def parseLoop : List Char → List Char → Bool → List String
  | [], current, _ => if current.isEmpty then [] else [String.ofList current]
  | c :: cs, current, inQuotes =>
    if c = '\"' then parseLoop cs current !inQuotes
    else if c = ' ' && !inQuotes then
      if current.isEmpty then parseLoop cs current inQuotes
      else String.ofList current :: parseLoop cs [] inQuotes
    else parseLoop cs (current ++ [c]) inQuotes

def parseCustomArgs (args : String) : List String := parseLoop args.toList [] false

/-- The `when (name)` of `getStrategyArgs`. -/
def baseArgs (name : String) (customStrat : Option CustomStrategy) (effectiveCustomArgs : String) :
    List String :=
  match name with
  | "Auto (Recommended)" =>
    ["--tlsrec", "1+s", "--disorder", "1", "--split", "2", "--fake-sni", "google.com",
      "--fake-tls-mod", "orig", "--mod-http", "h,d", "--udp-fake", "3", "--wait-send",
      "--auto", "t,r,s,c", "--drop-sack", "--block-quic"]
  | "Modern Ultra" =>
    ["--tlsrec", "1+s", "--disorder", "1", "--split", "2", "--fake-sni", "google.com",
      "--fake-tls-mod", "orig", "--udp-fake", "5", "--drop-sack", "--auto", "t,r,s,c",
      "--block-quic"]
  | "YouTube/Google Fix" =>
    ["--tlsrec", "1+s", "--disorder", "1", "--split", "2", "--fake-sni", "google.com",
      "--fake-tls-mod", "orig", "--mod-http", "h,d", "--udp-fake", "10", "--drop-sack",
      "--wait-send", "--auto", "t,r,s,c", "--block-quic"]
  | "Discord/UDP Fix" =>
    ["--disorder", "1", "--split", "1", "--udp-fake", "3", "--wait-send", "--drop-sack"]
  | "YouTube Light (Battery)" =>
    ["--tlsrec", "1+s", "--split", "1", "--auto", "t,r,s,c", "--block-quic"]
  | "YouTube TLS Split" =>
    parseCustomArgs "--tlsrec 1+s --split 1 --wait-send --auto t,r,s,c --block-quic"
  | "RU Discord (Alt)" =>
    ["--disorder", "1", "--split", "1", "--fake-sni", "google.com", "--wait-send",
      "--udp-fake", "5", "--drop-sack"]
  | "RU Universal (Powerful)" =>
    ["--tlsrec", "1+s", "--disorder", "1", "--split", "1", "--wait-send", "--udp-fake", "5",
      "--auto", "t,r,s,c", "--drop-sack", "--block-quic"]
  | "Simple Split" => ["--split", "2", "--wait-send"]
  | "Simple Fake" => ["--tlsrec", "1+s", "--fake-sni", "yandex.ru"]
  | "Torrent/P2P Fix" => ["--split", "1", "--udp-fake", "10", "--wait-send", "--drop-sack"]
  | "RU Discord (Alt 2)" =>
    ["--disorder", "1", "--oob", "1", "--split", "2", "--fake-sni", "max.ru", "--udp-fake", "15",
      "--wait-send", "--drop-sack"]
  | "Discord UDP (Intense)" =>
    ["--disorder", "1", "--oob", "1", "--udp-fake", "40", "--wait-send", "--await-int", "10",
      "--drop-sack"]
  | "Discord Mobile (Optimized)" =>
    ["--split", "1", "--udp-fake", "2", "--wait-send", "--auto", "s"]
  | "Discord TLS Split" =>
    ["--tlsrec", "1+s", "--disorder", "1", "--split", "1", "--udp-fake", "5", "--wait-send",
      "--auto", "t,r,s,c"]
  | "Discord Light" => ["--tlsrec", "1+s", "--split", "1", "--udp-fake", "2", "--auto", "s"]
  | "Simple Fake Discord Intense" =>
    ["--tlsrec", "1+s", "--fake-sni", "yandex.ru", "--udp-fake", "10"]
  | "Simple Fake Discord Mobile" => ["--tlsrec", "1+s", "--fake-sni", "yandex.ru"]
  | "Modern YouTube (Extreme)" =>
    ["--tlsrec", "1+s", "--disorder", "1", "--split", "1", "--oob", "1", "--mod-http", "h,d",
      "--udp-fake", "30", "--wait-send", "--await-int", "20", "--drop-sack", "--auto", "t,r,s,c",
      "--block-quic"]
  | "Universal Web (Safe)" => ["--split", "1", "--tlsrec", "1+s", "--wait-send"]
  | "Custom" => parseCustomArgs effectiveCustomArgs
  | "Strategy 1" =>
    parseCustomArgs "--tlsrec 1+s --disorder 1 --split 2 --wait-send --auto t,s"
  | "Strategy 2" => parseCustomArgs "--tlsrec 1+s --split 2 --oob 1 --wait-send --auto t,r"
  | "Strategy 3" => parseCustomArgs "--disorder 1 --split 2 --wait-send --udp-fake 5"
  | "Strategy 4" => parseCustomArgs "--tlsrec 1+s --wait-send --auto t"
  | "Strategy 5" => parseCustomArgs "--split 2 --wait-send --drop-sack"
  | "Strategy 6" => parseCustomArgs "--tlsrec 1+s --disorder 1 --split 1 --wait-send"
  | "Strategy 7" => parseCustomArgs "--oob 1 --split 2 --wait-send"
  | "Strategy 8" => parseCustomArgs "--tlsrec 1+s --split 2 --udp-fake 10 --wait-send"
  | "Strategy 9" =>
    parseCustomArgs "--tlsrec 1+s --disorder 1 --oob 1 --split 2 --wait-send --auto t,r,s,c"
  | _ =>
    match customStrat with
    | some c => parseCustomArgs c.userArgs
    | none => if !isBlank effectiveCustomArgs then parseCustomArgs effectiveCustomArgs else []

def quicArgs (enableQuic : Bool) (args : List String) : List String :=
  if !enableQuic then
    if args.contains "--block-quic" then args else args ++ ["--block-quic"]
  else args.filter fun arg => arg != "--block-quic"

def isSniOption (arg : String) : Bool := arg == "--fake-sni" || arg == "-n"

/-- The `while` loop of `getStrategyArgs`: an option goes with its value, unless the
next argument looks like an option itself. -/
def stripFakeSni : List String → List String
  | [] => []
  | [arg] => if isSniOption arg then [] else [arg]
  | arg :: next :: rest =>
    if isSniOption arg then
      if startsWith next "-" then stripFakeSni (next :: rest) else stripFakeSni rest
    else arg :: stripFakeSni (next :: rest)

/-- The end of `getStrategyArgs`. -/
def fakeSniArgs (effectiveFakeSni : Option String) (supported : Bool) (args : List String) :
    List String :=
  match effectiveFakeSni.map trim with
  | none => args
  | some active =>
    if supported then
      stripFakeSni args ++ (if active != "" then ["--fake-sni", active] else [])
    else args

def findCustom (customStrategies : List CustomStrategy) (name : String) : Option CustomStrategy :=
  customStrategies.find? fun c => c.name == name || c.id == name

def getStrategyArgs (name customArgs : String) (fakeSni : Option String) (enableQuic : Bool)
    (customStrategies : List CustomStrategy) : List String :=
  let customStrat := findCustom customStrategies name
  let effectiveCustomArgs := (customStrat.map (·.userArgs)).getD customArgs
  let argsList := quicArgs enableQuic (baseArgs name customStrat effectiveCustomArgs)
  let effectiveFakeSni := (customStrat.bind (·.fakeSni)).or fakeSni
  fakeSniArgs effectiveFakeSni (supportsFakeSni name || customStrat.isSome) argsList

/-- The value behind the first `--fake-sni` of a strategy's default arguments. -/
def defaultFakeSni (strategyName : String) : Option String :=
  let defaultArgs := getStrategyArgs strategyName "" none true []
  (defaultArgs[defaultArgs.idxOf "--fake-sni" + 1]?).bind fun v => ifEmptyNull (trim v)

def resolveFakeSni (strategyName : String) (strategyFakeSniMap : List (String × String))
    (fakeSniPool : List String) (globalMode : Bool) : Option String :=
  if !supportsFakeSni strategyName then none
  else
    match strategyFakeSniMap.lookup strategyName with
    | some mappedValue => ifEmptyNull (trim mappedValue)
    | none =>
      if globalMode && !fakeSniPool.isEmpty then
        fakeSniPool.head?.bind fun host => ifEmptyNull (trim host)
      else defaultFakeSni strategyName

section Trim

lemma isBlank_iff (s : String) : isBlank s = true ↔ ∀ c ∈ s.toList, isWhitespace c = true := by
  simp [isBlank]

theorem trim_eq_empty_iff (s : String) : trim s = "" ↔ isBlank s = true := by
  simp only [trim, String.ofList_eq_empty_iff, List.rdropWhile_eq_nil_iff, isBlank_iff]
  constructor
  · intro h
    apply List.dropWhile_eq_nil_iff.mp
    -- what `dropWhile` leaves would begin with a character that is no white space
    by_contra hne
    have hhead := List.head_dropWhile_not isWhitespace hne
    rw [h _ (List.head_mem hne)] at hhead
    cases hhead
  · intro h c hc
    exact h c ((List.dropWhile_sublist _).subset hc)

lemma isBlank_trim {s : String} (h : trim s ≠ "") : isBlank (trim s) = false := by
  have hne : (s.toList.dropWhile isWhitespace).rdropWhile isWhitespace ≠ [] :=
    fun hnil => h (String.ofList_eq_empty_iff.mpr hnil)
  rw [← Bool.not_eq_true, isBlank_iff]
  intro hall
  rw [trim, String.toList_ofList] at hall
  exact List.rdropWhile_last_not isWhitespace _ hne (hall _ (List.getLast_mem hne))

lemma trim_ne_empty {s : String} (h : isBlank s = false) : trim s ≠ "" := by
  intro hempty
  rw [(trim_eq_empty_iff s).mp hempty] at h
  cases h

lemma ifEmptyNull_trim {s x : String} (h : ifEmptyNull (trim s) = some x) : isBlank x = false := by
  simp only [ifEmptyNull] at h
  split at h
  · cases h
  · rename_i hne
    cases h
    exact isBlank_trim hne

/-- A resolved fake SNI is never blank. -/
theorem resolveFakeSni_not_blank {name x : String} {sniMap : List (String × String)}
    {pool : List String} {globalMode : Bool}
    (h : resolveFakeSni name sniMap pool globalMode = some x) : isBlank x = false := by
  simp only [resolveFakeSni] at h
  split at h
  · cases h
  split at h
  · exact ifEmptyNull_trim h
  split at h
  · obtain ⟨host, -, hx⟩ := Option.bind_eq_some_iff.mp h
    exact ifEmptyNull_trim hx
  · obtain ⟨v, -, hx⟩ := Option.bind_eq_some_iff.mp h
    exact ifEmptyNull_trim hx

/-- Only the first host of the pool counts. -/
lemma resolveFakeSni_pool {name : String} {sniMap : List (String × String)}
    {pool pool' : List String} {globalMode : Bool} (h : pool.head? = pool'.head?) :
    resolveFakeSni name sniMap pool globalMode = resolveFakeSni name sniMap pool' globalMode := by
  have hempty : pool.isEmpty = pool'.isEmpty := by
    cases pool <;> cases pool' <;> simp_all
  simp only [resolveFakeSni, h, hempty]

end Trim

section FakeSni

/-- No fake-SNI option survives. -/
theorem stripFakeSni_clean (args : List String) :
    ∀ arg ∈ stripFakeSni args, isSniOption arg = false := by
  induction args using stripFakeSni.induct with
  | case1 => simp [stripFakeSni]
  | case2 arg hopt => simp [stripFakeSni, hopt]
  | case3 arg hopt => simp [stripFakeSni, hopt]
  | case4 arg next rest hopt hdash ih =>
    rw [stripFakeSni, if_pos hopt, if_pos hdash]
    exact ih
  | case5 arg next rest hopt hdash ih =>
    rw [stripFakeSni, if_pos hopt, if_neg hdash]
    exact ih
  | case6 arg next rest hopt ih =>
    rw [stripFakeSni, if_neg hopt]
    intro x hx
    rcases List.mem_cons.mp hx with rfl | hx
    · simpa using hopt
    · exact ih x hx

lemma stripFakeSni_of_clean {args : List String} (h : ∀ arg ∈ args, isSniOption arg = false) :
    stripFakeSni args = args := by
  induction args using stripFakeSni.induct with
  | case1 => rfl
  | case2 arg hopt => simp [h arg] at hopt
  | case3 arg hopt => simp [stripFakeSni, hopt]
  | case4 arg next rest hopt _ _ => simp [h arg] at hopt
  | case5 arg next rest hopt _ _ => simp [h arg] at hopt
  | case6 arg next rest hopt ih =>
    rw [stripFakeSni, if_neg hopt, ih fun x hx => h x (List.mem_cons_of_mem _ hx)]

theorem stripFakeSni_eq_self_iff (args : List String) :
    stripFakeSni args = args ↔ ∀ arg ∈ args, isSniOption arg = false := by
  constructor
  · intro h arg harg
    rw [← h] at harg
    exact stripFakeSni_clean args arg harg
  · exact stripFakeSni_of_clean

lemma mem_quicArgs {arg : String} (h : arg ≠ "--block-quic") (quic : Bool) (args : List String) :
    arg ∈ quicArgs quic args ↔ arg ∈ args := by
  simp only [quicArgs]
  cases quic with
  | false =>
    simp only [Bool.not_false, if_true]
    split <;> simp [h]
  | true => simp [h]

/-- The QUIC flag neither brings in nor takes out a fake-SNI option. -/
lemma quicArgs_clean_iff (quic : Bool) (args : List String) :
    (∀ arg ∈ quicArgs quic args, isSniOption arg = false) ↔
      ∀ arg ∈ args, isSniOption arg = false := by
  have hquic : isSniOption "--block-quic" = false := by decide
  constructor
  · intro h arg harg
    by_cases hb : arg = "--block-quic"
    · rw [hb, hquic]
    · exact h arg ((mem_quicArgs hb quic args).mpr harg)
  · intro h arg harg
    by_cases hb : arg = "--block-quic"
    · rw [hb, hquic]
    · exact h arg ((mem_quicArgs hb quic args).mp harg)

@[simp] lemma fakeSniArgs_none (supported : Bool) (args : List String) :
    fakeSniArgs none supported args = args := rfl

lemma fakeSniArgs_empty (args : List String) : fakeSniArgs (some "") true args = stripFakeSni args := by
  have htrim : trim "" = "" := by decide
  simp [fakeSniArgs, htrim]

lemma fakeSniArgs_some {x : String} (hx : isBlank x = false) (args : List String) :
    fakeSniArgs (some x) true args = stripFakeSni args ++ ["--fake-sni", trim x] := by
  simp [fakeSniArgs, trim_ne_empty hx]

/-- An empty fake SNI and an absent or a real one give the same arguments only when
there is nothing to take out and nothing to put in. -/
theorem fakeSniArgs_empty_eq_iff {sni : Option String} (args : List String)
    (hsni : ∀ x, sni = some x → isBlank x = false) :
    fakeSniArgs (some "") true args = fakeSniArgs sni true args ↔
      sni = none ∧ ∀ arg ∈ args, isSniOption arg = false := by
  cases sni with
  | none => simp [fakeSniArgs_empty, stripFakeSni_eq_self_iff]
  | some x => simp [fakeSniArgs_empty, fakeSniArgs_some (hsni x rfl)]

end FakeSni

end Strategies
