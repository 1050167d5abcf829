import Mathlib.Data.List.Nodup
import NoZapret.CustomNames
import NoZapret.Library.WriteBehind
import NoZapret.SniChoice

/-!
# The settings manager

`SettingsManager` keeps every setting in memory. An update changes the memory and launches
a coroutine that writes one key of the data store; the first coroutine of all loads what
the store holds. A set keeps the order of its elements, and a map is taken as its lookups.
-/

namespace SettingsManager

open Settings SniChoice Strategies WriteBehind

/-- The settings that are single values. -/
inductive Scalar where
  | selectedStrategy
  | customArgs
  | dnsServer
  | proxyHost
  | proxyPort
  | excludeSelf
  | globalMode
  | customHostList
  | themeMode
  | selectedLanguage
  | autoConnect
  | enableIpv6
  | enableQuic
  | customPrimaryColor
  | customThemeBase
  | runMode
  deriving DecidableEq, Repr

abbrev Scalar.Val : Scalar → Type
  | .excludeSelf | .globalMode | .autoConnect | .enableIpv6 | .enableQuic => Bool
  | .customPrimaryColor => BitVec 32
  | _ => String

/-- The value at the start, which loading also takes for a key that the store lacks. -/
def Scalar.initial : (k : Scalar) → k.Val
  | .selectedStrategy => "Auto (Recommended)"
  | .customArgs => ""
  | .dnsServer => "1.1.1.1"
  | .proxyHost => "127.0.0.1"
  | .proxyPort => "1080"
  | .excludeSelf => true
  | .globalMode => false
  | .customHostList => ""
  | .themeMode => "System"
  | .selectedLanguage => "System"
  | .autoConnect => false
  | .enableIpv6 => false
  | .enableQuic => false
  | .customPrimaryColor => 0xFF6750A4#32
  | .customThemeBase => "System"
  | .runMode => "VPN"

/-- The settings that are lists of names, switched on and off one by one. -/
inductive Listed where
  | pinnedStrategies
  | allowedApps
  | selectedPresets
  deriving DecidableEq, Repr

inductive Key where
  | scalar (k : Scalar)
  | listed (l : Listed)
  | fakeSniPool
  | presetOverrides
  | strategyFakeSniMap
  | customStrategiesJson
  deriving DecidableEq, Repr

structure StringSet where
  elems : List String
  nodup : elems.Nodup
  deriving DecidableEq

lemma eraseDups_nodup (xs : List String) : xs.eraseDups.Nodup := by
  induction hn : xs.length using Nat.strong_induction_on generalizing xs with
  | _ n ih =>
    cases xs with
    | nil => exact List.Pairwise.nil
    | cons x xs =>
      rw [List.eraseDups_cons, List.nodup_cons]
      constructor
      · simp [List.mem_eraseDups]
      · have hle : (xs.filter fun y => !y == x).length ≤ xs.length := List.length_filter_le _ xs
        refine ih _ ?_ _ rfl
        simp only [List.length_cons] at hn
        omega

def toSet (xs : List String) : StringSet := ⟨xs.eraseDups, eraseDups_nodup xs⟩

abbrev Key.Val : Key → Type
  | .scalar k => k.Val
  | .listed _ | .fakeSniPool => StringSet
  | .presetOverrides => String → Option (List String)
  | .strategyFakeSniMap => String → Option String
  | .customStrategiesJson => List JsonObject

structure Memory where
  scalar : (k : Scalar) → k.Val
  listed : Listed → List String
  presetDomains : String → Option (List String)
  fakeSniPool : List String
  customStrategies : List CustomStrategy
  strategyFakeSniMap : String → Option String

def Memory.initial : Memory where
  scalar := Scalar.initial
  listed _ := []
  presetDomains _ := none
  fakeSniPool := []
  customStrategies := []
  strategyFakeSniMap _ := none

/-- What a key stands for in the store. -/
def encode (m : Memory) : (k : Key) → k.Val
  | .scalar k => m.scalar k
  | .listed l => toSet (m.listed l)
  | .fakeSniPool => toSet m.fakeSniPool
  | .presetOverrides => m.presetDomains
  | .strategyFakeSniMap => m.strategyFakeSniMap
  | .customStrategiesJson => saveCustomStrategies m.customStrategies

def defaultFakeSniList : List String := ["google.com", "yandex.ru", "apple.com", "wikipedia.org"]

/-- `Config.PRESETS` -/
def presets : List (String × List String) := [
  ("Cloudflare", [
    "cloudflare.net", "cloudflare.com", "cloudflarecn.net", "cloudflare-ech.com"]),
  ("Discord", [
    "dis.gd", "discord.co", "discord.gg", "discord.app", "discord.com", "discord.dev",
    "discord.new", "discord.gift", "discord.gifts", "discord.media", "discord.store",
    "discord.design", "discordapp.com", "discordcdn.com", "discordsez.com", "discordsays.com",
    "discordmerch.com", "discordpartygames.com", "discordactivities.com",
    "stable.dl2.discordapp.net", "discord-attachments-uploads-prd.storage.googleapis.com"]),
  ("Torrent/Tools", [
    "rutracker.org", "nyaa.si", "rutor.org", "nnmclub.to", "speedtest.net", "ookla.com",
    "tntvillage.scambioetico.org", "piratebay.org", "thepiratebay.org", "1337x.to", "rarbg.to",
    "bt-chat.com", "torrentz.eu", "kickasstorrents.to", "extratorrent.cc", "torrentgalaxy.to",
    "yts.mx", "eztv.re", "limetorrents.pro", "zooqle.com", "tracker.opentrackr.org",
    "tracker.coppersurfer.tk", "tracker.leechers-paradise.org"]),
  ("Socials", [
    "snapchat.com", "snap.com", "linkedin.com", "facebook.com", "fb.com", "fb.me", "fbcdn.net",
    "messenger.com", "meta.com", "instagram.com", "static.cdninstagram.com", "proton.me",
    "medium.com", "x.com", "twitter.com", "soundcloud.com"]),
  ("Telegram", [
    "telegram.org", "core.telegram.org", "web.telegram.org", "webk.telegram.org", "my.telegram.org",
    "translations.telegram.org", "instantview.telegram.org", "blog.telegram.org",
    "comments.telegram.org", "verify.telegram.org", "login.telegram.org", "auth.telegram.org",
    "api.telegram.org", "promo.telegram.org", "desktop.telegram.org", "macos.telegram.org",
    "ios.telegram.org", "android.telegram.org", "reactions.telegram.org", "claims.telegram.org",
    "x.telegram.org", "help.telegram.org", "docs.telegram.org", "schema.telegram.org",
    "dev.telegram.org", "contest.telegram.org", "premium.telegram.org", "settings.telegram.org",
    "qr.telegram.org", "stickers.telegram.org", "emoji.telegram.org", "themes.telegram.org",
    "donate.telegram.org", "fragment.telegram.org", "ton.telegram.org", "wallet.telegram.org",
    "pay.telegram.org", "telegram.me", "telegram.dog", "telegra.ph", "telesco.pe",
    "web.telegram.me", "zws1.web.telegram.org", "zws2.web.telegram.org", "zws1.web.telegram.me",
    "zws2.web.telegram.me", "venus.web.telegram.org", "pluto.web.telegram.org",
    "aurora.web.telegram.org", "vesta.web.telegram.org", "voice.telegram.org", "cdn.telegram.org"]),
  ("YouTube", [
    "youtu.be", "youtube.com", "googlevideo.com", "ytimg.com", "ggpht.com", "googleapis.com",
    "googleusercontent.com", "youtubei.googleapis.com", "yt3.ggpht.com", "yt4.ggpht.com",
    "i.ytimg.com", "i9.ytimg.com", "nhacmp3.com.vn", "video.google.com"]),
  ("RU Services", [
    "sferum.ru", "max.ru", "vk.com", "yandex.ru", "rutube.ru", "ok.ru"])]

section Updates

/-! What an update makes of the memory. `none` is a failure, or nothing to be done: the
memory stays and nothing is saved. -/

variable (m : Memory)

def Memory.setScalar (k : Scalar) (value : k.Val) : Memory :=
  { m with scalar := Function.update m.scalar k value }

def Memory.setListed (l : Listed) (names : List String) : Memory :=
  { m with listed := Function.update m.listed l names }

def Memory.setPreset (name : String) (domains : List String) : Memory :=
  { m with presetDomains := Function.update m.presetDomains name (some domains) }

def Memory.setFakeSni (strategyName : String) (domain : Option String) : Memory :=
  { m with strategyFakeSniMap := Function.update m.strategyFakeSniMap strategyName domain }

def switch (names : List String) (name : String) (enabled : Bool) : List String :=
  if enabled then if names.contains name then names else names ++ [name] else names.erase name

def togglePreset (name : String) (enabled : Bool) : Option Memory :=
  some (m.setListed .selectedPresets (switch (m.listed .selectedPresets) name enabled))

def toggle (l : Listed) (name : String) : Option Memory :=
  some (m.setListed l
    (if (m.listed l).contains name then (m.listed l).erase name else m.listed l ++ [name]))

def togglePinStrategy (name : String) : Option Memory := toggle m .pinnedStrategies name

def toggleAllowedApp (pkg : String) : Option Memory := toggle m .allowedApps pkg

/-- The new name in the place of the old one, or at the end. -/
def replaceOrAdd (names : List String) (old new : String) : List String :=
  if names.contains old then names.set (names.idxOf old) new else names ++ [new]

def addDomainToPreset (name rawDomain : String) : Option Memory := do
  let domain ← validateDomain rawDomain
  let list := (m.presetDomains name).getD []
  if list.contains domain then none
  some (m.setPreset name (list ++ [domain]))

def removeDomainFromPreset (name domain : String) : Option Memory := do
  let list ← m.presetDomains name
  if list.contains domain then some (m.setPreset name (list.erase domain)) else none

def editDomainInPreset (name oldDomain newRawDomain : String) : Option Memory := do
  let newDomain ← validateDomain newRawDomain
  let list := (m.presetDomains name).getD []
  if newDomain != oldDomain && list.contains newDomain then none
  some (m.setPreset name (replaceOrAdd list oldDomain newDomain))

def clearPresetDomains (name : String) : Option Memory := do
  let _ ← m.presetDomains name
  some (m.setPreset name [])

def resetPresetDomainsToDefault (name : String) : Option Memory :=
  some (m.setPreset name ((presets.lookup name).getD []))

def addFakeSniHost (rawHost : String) : Option Memory := do
  let host ← validateDomain rawHost
  if m.fakeSniPool.contains host then none
  some { m with fakeSniPool := m.fakeSniPool ++ [host] }

def removeFakeSniHost (host : String) : Option Memory :=
  if m.fakeSniPool.length ≤ 1 then none
  else if m.fakeSniPool.contains host then
    some { m with fakeSniPool := m.fakeSniPool.erase host }
  else none

def editFakeSniHost (oldHost newRawHost : String) : Option Memory := do
  let newHost ← validateDomain newRawHost
  if newHost != oldHost && m.fakeSniPool.contains newHost then none
  some { m with fakeSniPool := replaceOrAdd m.fakeSniPool oldHost newHost }

def resetFakeSniPoolToDefault : Option Memory := some { m with fakeSniPool := defaultFakeSniList }

def setFakeSniForStrategy (strategyName : String) (rawFakeSni : Option String) : Option Memory := do
  let trimmed := (rawFakeSni.map trim).getD ""
  if trimmed = "" then some (m.setFakeSni strategyName none)
  else
    let domain ← validateDomain trimmed
    some (m.setFakeSni strategyName (some domain))

def resetFakeSniForStrategy (strategyName : String) : Option Memory :=
  some (m.setFakeSni strategyName none)

def withStrategies (customStrategies : List CustomStrategy) : Memory := { m with customStrategies }

end Updates

/-- What the platform makes of text: a character under `equals(ignoreCase = true)`, and a
string as a number in JSON. -/
structure Platform where
  fold : Char → Char
  toLong : String → Option Int

inductive Call where
  | update (k : Scalar) (value : k.Val)
  | togglePreset (name : String) (enabled : Bool)
  | togglePinStrategy (name : String)
  | toggleAllowedApp (pkg : String)
  | addDomainToPreset (name rawDomain : String)
  | removeDomainFromPreset (name domain : String)
  | editDomainInPreset (name oldDomain newRawDomain : String)
  | clearPresetDomains (name : String)
  | resetPresetDomainsToDefault (name : String)
  | addFakeSniHost (rawHost : String)
  | removeFakeSniHost (host : String)
  | editFakeSniHost (oldHost newRawHost : String)
  | resetFakeSniPoolToDefault
  | setFakeSniForStrategy (strategyName : String) (rawFakeSni : Option String)
  | resetFakeSniForStrategy (strategyName : String)
  | addCustomStrategy (strategy : CustomStrategy)
  | updateCustomStrategy (strategy : CustomStrategy) (now : Int)
  | deleteCustomStrategy (id : String)
  | duplicateCustomStrategy (id newId : String) (createdAt updatedAt : Int)

section Scalars

def updateSelectedStrategy (value : String) : Call := .update .selectedStrategy value
def updateCustomArgs (value : String) : Call := .update .customArgs value
def updateEnableQuic (value : Bool) : Call := .update .enableQuic value
def updateDnsServer (value : String) : Call := .update .dnsServer value
def updateProxyHost (value : String) : Call := .update .proxyHost value
def updateProxyPort (value : String) : Call := .update .proxyPort value
def updateExcludeSelf (value : Bool) : Call := .update .excludeSelf value
def updateGlobalMode (value : Bool) : Call := .update .globalMode value
def updateCustomHostList (value : String) : Call := .update .customHostList value
def updateThemeMode (value : String) : Call := .update .themeMode value
def updateSelectedLanguage (value : String) : Call := .update .selectedLanguage value
def updateAutoConnect (value : Bool) : Call := .update .autoConnect value
def updateEnableIpv6 (value : Bool) : Call := .update .enableIpv6 value
def updateCustomPrimaryColor (value : BitVec 32) : Call := .update .customPrimaryColor value
def updateCustomThemeBase (value : String) : Call := .update .customThemeBase value
def updateRunMode (value : String) : Call := .update .runMode value

end Scalars

/-- One setting. The lists are settings element by element, the maps name by name. -/
inductive Item where
  | scalar (k : Scalar)
  | listed (l : Listed) (name : String)
  | pool
  | preset (name : String)
  | fakeSni (strategyName : String)
  | strategies
  deriving DecidableEq, Repr

abbrev Item.Val : Item → Type
  | .scalar k => k.Val
  | .listed _ _ => Bool
  | .pool => List String
  | .preset _ => Option (List String)
  | .fakeSni _ => Option String
  | .strategies => List CustomStrategy

def Item.get (m : Memory) : (i : Item) → i.Val
  | .scalar k => m.scalar k
  | .listed l name => (m.listed l).contains name
  | .pool => m.fakeSniPool
  | .preset name => m.presetDomains name
  | .fakeSni strategyName => m.strategyFakeSniMap strategyName
  | .strategies => m.customStrategies

/-- The key under which a setting is saved. -/
def Item.key : Item → Key
  | .scalar k => .scalar k
  | .listed l _ => .listed l
  | .pool => .fakeSniPool
  | .preset _ => .presetOverrides
  | .fakeSni _ => .strategyFakeSniMap
  | .strategies => .customStrategiesJson

namespace Call

/-- The setting that a call is about. -/
def item : Call → Item
  | update k _ => .scalar k
  | togglePreset name _ => .listed .selectedPresets name
  | togglePinStrategy name => .listed .pinnedStrategies name
  | toggleAllowedApp pkg => .listed .allowedApps pkg
  | addDomainToPreset name _ | removeDomainFromPreset name _ | editDomainInPreset name _ _
  | clearPresetDomains name | resetPresetDomainsToDefault name => .preset name
  | addFakeSniHost _ | removeFakeSniHost _ | editFakeSniHost _ _
  | resetFakeSniPoolToDefault => .pool
  | setFakeSniForStrategy strategyName _ | resetFakeSniForStrategy strategyName =>
    .fakeSni strategyName
  | addCustomStrategy _ | updateCustomStrategy _ _ | deleteCustomStrategy _
  | duplicateCustomStrategy _ _ _ _ => .strategies

def apply (p : Platform) (m : Memory) : Call → Option Memory
  | update k value => some (m.setScalar k value)
  | togglePreset name enabled => SettingsManager.togglePreset m name enabled
  | togglePinStrategy name => SettingsManager.togglePinStrategy m name
  | toggleAllowedApp pkg => SettingsManager.toggleAllowedApp m pkg
  | addDomainToPreset name rawDomain => SettingsManager.addDomainToPreset m name rawDomain
  | removeDomainFromPreset name domain => SettingsManager.removeDomainFromPreset m name domain
  | editDomainInPreset name oldDomain newRawDomain =>
    SettingsManager.editDomainInPreset m name oldDomain newRawDomain
  | clearPresetDomains name => SettingsManager.clearPresetDomains m name
  | resetPresetDomainsToDefault name => SettingsManager.resetPresetDomainsToDefault m name
  | addFakeSniHost rawHost => SettingsManager.addFakeSniHost m rawHost
  | removeFakeSniHost host => SettingsManager.removeFakeSniHost m host
  | editFakeSniHost oldHost newRawHost => SettingsManager.editFakeSniHost m oldHost newRawHost
  | resetFakeSniPoolToDefault => SettingsManager.resetFakeSniPoolToDefault m
  | setFakeSniForStrategy strategyName rawFakeSni =>
    SettingsManager.setFakeSniForStrategy m strategyName rawFakeSni
  | resetFakeSniForStrategy strategyName => SettingsManager.resetFakeSniForStrategy m strategyName
  | addCustomStrategy strategy =>
    (CustomNames.addCustomStrategy p.fold m.customStrategies strategy).toOption.map (withStrategies m)
  | updateCustomStrategy strategy now =>
    (CustomNames.updateCustomStrategy p.fold m.customStrategies strategy now).toOption.map
      (withStrategies m)
  | deleteCustomStrategy id =>
    if m.customStrategies.any fun it => it.id == id then
      some (withStrategies m (CustomNames.deleteCustomStrategy m.customStrategies id))
    else none
  | duplicateCustomStrategy id newId createdAt updatedAt =>
    (CustomNames.duplicateCustomStrategy m.customStrategies id newId createdAt updatedAt).map
      (withStrategies m)

end Call

/-- What loading a strategy takes where the JSON has nothing. -/
structure Fresh where
  id : String
  createdAt : Int
  updatedAt : Int

section Load

abbrev Prefs := (k : Key) → Option k.Val

variable (p : Platform) (prefs : Prefs)

def optString (obj : JsonObject) (key fallback : String) : String :=
  (obj.getString key).getD fallback

def optLong (obj : JsonObject) (key : String) (fallback : Int) : Int :=
  match obj.lookup key with
  | some (.long n) => n
  | some (.str s) => (p.toLong s).getD fallback
  | none => fallback

/-- The text under a key, null when it is missing or blank. -/
def notBlank (obj : JsonObject) (key : String) : Option String :=
  (obj.getString key).filter fun s => !isBlank s

def loadStrategy (fresh : Fresh) (obj : JsonObject) : CustomStrategy where
  id := optString obj "id" fresh.id
  name := optString obj "name" "Custom Strategy"
  description := optString obj "description" ""
  backend := optString obj "backend" "ByeDPI"
  userArgs := optString obj "userArgs" ""
  fakeSni := notBlank obj "fakeSni"
  customDns := notBlank obj "customDns"
  category := optString obj "category" "User Custom"
  createdAt := optLong p obj "createdAt" fresh.createdAt
  updatedAt := optLong p obj "updatedAt" fresh.updatedAt

def loadedScalar (k : Scalar) : k.Val := (prefs (.scalar k)).getD k.initial

/-- The names that `addAll` appends. -/
def loadedNames (l : Listed) : List String :=
  match prefs (.listed l) with
  | some set => set.elems
  | none => if l = .selectedPresets then ["YouTube", "Telegram"] else []

def loadedPool : List String :=
  match prefs .fakeSniPool with
  | some set => if set.elems.isEmpty then defaultFakeSniList else set.elems
  | none => defaultFakeSniList

def overridesMap (name : String) : Option (List String) :=
  (prefs .presetOverrides).bind fun overrides => overrides name

/-- The known presets are put in; another one only where there is none. -/
def loadedPreset (m : Memory) (name : String) : Option (List String) :=
  match presets.lookup name with
  | some defaultSites => some ((overridesMap prefs name).getD defaultSites)
  | none => (m.presetDomains name).or (overridesMap prefs name)

def storedFakeSni (strategyName : String) : Option String :=
  ((prefs .strategyFakeSniMap).bind fun fakeSnis => fakeSnis strategyName).filter
    fun valStr => !isBlank valStr

def loadedFakeSni (m : Memory) (strategyName : String) : Option String :=
  (storedFakeSni prefs strategyName).or (m.strategyFakeSniMap strategyName)

def loadedStrategies (fresh : Nat → Fresh) : Option (List CustomStrategy) :=
  (prefs .customStrategiesJson).map fun array => array.mapIdx fun i obj => loadStrategy p (fresh i) obj

/-- The part of the `init` block that loads one key. -/
def load (fresh : Nat → Fresh) (m : Memory) : Key → Memory
  | .scalar k => m.setScalar k (loadedScalar prefs k)
  | .listed l => m.setListed l (m.listed l ++ loadedNames prefs l)
  | .fakeSniPool => { m with fakeSniPool := loadedPool prefs }
  | .presetOverrides => { m with presetDomains := loadedPreset prefs m }
  | .strategyFakeSniMap => { m with strategyFakeSniMap := loadedFakeSni prefs m }
  | .customStrategiesJson =>
    { m with customStrategies := (loadedStrategies p prefs fresh).getD m.customStrategies }

end Load

def loadOrder : List Key := [
  .scalar .selectedStrategy, .scalar .customArgs, .scalar .dnsServer, .scalar .proxyHost,
  .scalar .proxyPort, .scalar .excludeSelf, .scalar .globalMode, .scalar .customHostList,
  .scalar .themeMode, .scalar .selectedLanguage, .scalar .autoConnect, .scalar .enableIpv6,
  .scalar .enableQuic, .scalar .customPrimaryColor, .scalar .customThemeBase, .scalar .runMode,
  .listed .pinnedStrategies, .listed .allowedApps, .listed .selectedPresets, .fakeSniPool,
  .presetOverrides, .strategyFakeSniMap, .customStrategiesJson]

inductive Loading where
  | waiting
  | assigning (prefs : Prefs) (rest : List Key)

structure State where
  mem : Memory
  cells : (k : Key) → Cell k.Val
  loading : Loading
  /-- What the user chose last for a setting; the program does not keep it. -/
  user : (i : Item) → Option i.Val

/-- The app starts over a store. -/
def State.initial (stored : Prefs) : State where
  mem := .initial
  cells k := { writers := [], stored := stored k, written := false }
  loading := .waiting
  user _ := none

inductive Act where
  | call (c : Call)
  | start (k : Key) (i : Nat)
  | read (k : Key) (i : Nat)
  | tear (k : Key) (i : Nat) (got : Option k.Val)
  | edit (k : Key) (i : Nat)
  | first
  | assign (fresh : Nat → Fresh)

/-- `save` takes the value along; the other coroutines read it when they run. -/
def launched (m : Memory) : (k : Key) → Writer k.Val
  | .scalar k => .holding (encode m (.scalar k))
  | .listed l => .holding (encode m (.listed l))
  | _ => .launched

def State.setCell (s : State) (k : Key) (c : Cell k.Val) : State :=
  { s with cells := Function.update s.cells k c }

def State.call (p : Platform) (s : State) (c : Call) : State :=
  match c.apply p s.mem with
  | none => s
  | some mem =>
    let k := c.item.key
    { s with
      mem
      cells := Function.update s.cells k ((s.cells k).disturb.launch (launched mem k))
      user := Function.update s.user c.item (some (c.item.get mem)) }

def step (p : Platform) (s : State) : Act → Option State
  | .call c => some (s.call p c)
  | .start k i => ((s.cells k).start i).map (s.setCell k)
  | .read k i => ((s.cells k).read i (encode s.mem k)).map (s.setCell k)
  | .tear k i got => ((s.cells k).tear i got).map (s.setCell k)
  | .edit k i => ((s.cells k).write i).map (s.setCell k)
  | .first =>
    match s.loading with
    | .waiting => some { s with loading := .assigning (fun k => (s.cells k).stored) loadOrder }
    | .assigning _ _ => none
  | .assign fresh =>
    match s.loading with
    | .assigning prefs (k :: rest) => some { s with
        mem := load p prefs fresh s.mem k
        cells := Function.update s.cells k (s.cells k).disturb
        loading := .assigning prefs rest }
    | _ => none

section Frames

variable {p : Platform} {m m' : Memory} {c : Call} {l : Listed} {name : String}

/-- What a call about a setting can do to the memory. -/
def Changes (m m' : Memory) : Item → Prop
  | .scalar k => ∃ value, m' = m.setScalar k value
  | .listed l name => ∃ names, m' = m.setListed l names ∧
      ((m.listed l).Nodup → names.Nodup ∧ ∀ other, other ≠ name → (other ∈ names ↔ other ∈ m.listed l))
  | .pool => ∃ fakeSniPool, m' = { m with fakeSniPool }
  | .preset name => ∃ domains, m' = m.setPreset name domains
  | .fakeSni strategyName => ∃ domain, m' = m.setFakeSni strategyName domain
  | .strategies => ∃ customStrategies, m' = withStrategies m customStrategies

lemma nodup_add {names : List String} (h : names.Nodup) (hnot : name ∉ names) :
    (names ++ [name]).Nodup ∧ ∀ other, other ≠ name → (other ∈ names ++ [name] ↔ other ∈ names) := by
  constructor
  · rw [List.nodup_append]
    refine ⟨h, List.nodup_singleton name, ?_⟩
    intro a ha b hb heq
    rw [List.mem_singleton] at hb
    exact hnot (hb ▸ heq ▸ ha)
  · intro other hother
    simp [hother]

lemma nodup_erase {names : List String} (h : names.Nodup) :
    (names.erase name).Nodup ∧ ∀ other, other ≠ name → (other ∈ names.erase name ↔ other ∈ names) :=
  ⟨h.erase name, fun _ hother => List.mem_erase_of_ne hother⟩

lemma toggle_changes (h : toggle m l name = some m') : Changes m m' (.listed l name) := by
  cases h
  refine ⟨_, rfl, ?_⟩
  intro hnodup
  split
  · exact nodup_erase hnodup
  · rename_i hnot
    exact nodup_add hnodup (by simpa using hnot)

lemma togglePreset_changes {enabled : Bool} (h : togglePreset m name enabled = some m') :
    Changes m m' (.listed .selectedPresets name) := by
  cases h
  refine ⟨_, rfl, ?_⟩
  intro hnodup
  unfold switch
  split
  · split
    · exact ⟨hnodup, fun _ _ => Iff.rfl⟩
    · rename_i hnot
      exact nodup_add hnodup (by simpa using hnot)
  · exact nodup_erase hnodup

/-- A call changes nothing but its own setting. -/
theorem apply_changes (h : c.apply p m = some m') : Changes m m' c.item := by
  cases c with
  | update k value =>
    cases h
    exact ⟨value, rfl⟩
  | togglePreset name enabled => exact togglePreset_changes h
  | togglePinStrategy name => exact toggle_changes h
  | toggleAllowedApp pkg => exact toggle_changes h
  | addDomainToPreset name rawDomain =>
    simp only [Call.apply, addDomainToPreset, Option.bind_eq_bind, Option.bind_eq_some_iff] at h
    obtain ⟨domain, -, h⟩ := h
    split at h
    · cases h
    · cases h
      exact ⟨_, rfl⟩
  | removeDomainFromPreset name domain =>
    simp only [Call.apply, removeDomainFromPreset, Option.bind_eq_bind,
      Option.bind_eq_some_iff] at h
    obtain ⟨list, -, h⟩ := h
    split at h
    · cases h
      exact ⟨_, rfl⟩
    · cases h
  | editDomainInPreset name oldDomain newRawDomain =>
    simp only [Call.apply, editDomainInPreset, Option.bind_eq_bind, Option.bind_eq_some_iff] at h
    obtain ⟨newDomain, -, h⟩ := h
    split at h
    · cases h
    · cases h
      exact ⟨_, rfl⟩
  | clearPresetDomains name =>
    simp only [Call.apply, clearPresetDomains, Option.bind_eq_bind, Option.bind_eq_some_iff] at h
    obtain ⟨list, -, h⟩ := h
    cases h
    exact ⟨_, rfl⟩
  | resetPresetDomainsToDefault name =>
    cases h
    exact ⟨_, rfl⟩
  | addFakeSniHost rawHost =>
    simp only [Call.apply, addFakeSniHost, Option.bind_eq_bind, Option.bind_eq_some_iff] at h
    obtain ⟨host, -, h⟩ := h
    split at h
    · cases h
    · cases h
      exact ⟨_, rfl⟩
  | removeFakeSniHost host =>
    simp only [Call.apply, removeFakeSniHost] at h
    split at h
    · cases h
    · split at h
      · cases h
        exact ⟨_, rfl⟩
      · cases h
  | editFakeSniHost oldHost newRawHost =>
    simp only [Call.apply, editFakeSniHost, Option.bind_eq_bind, Option.bind_eq_some_iff] at h
    obtain ⟨newHost, -, h⟩ := h
    split at h
    · cases h
    · cases h
      exact ⟨_, rfl⟩
  | resetFakeSniPoolToDefault =>
    cases h
    exact ⟨_, rfl⟩
  | setFakeSniForStrategy strategyName rawFakeSni =>
    simp only [Call.apply, setFakeSniForStrategy] at h
    split at h
    · cases h
      exact ⟨_, rfl⟩
    · obtain ⟨domain, -, h⟩ := Option.bind_eq_some_iff.mp h
      cases h
      exact ⟨_, rfl⟩
  | resetFakeSniForStrategy strategyName =>
    cases h
    exact ⟨_, rfl⟩
  | addCustomStrategy strategy =>
    obtain ⟨cs, -, rfl⟩ := Option.map_eq_some_iff.mp h
    exact ⟨cs, rfl⟩
  | updateCustomStrategy strategy now =>
    obtain ⟨cs, -, rfl⟩ := Option.map_eq_some_iff.mp h
    exact ⟨cs, rfl⟩
  | deleteCustomStrategy id =>
    simp only [Call.apply] at h
    split at h
    · cases h
      exact ⟨_, rfl⟩
    · cases h
  | duplicateCustomStrategy id newId createdAt updatedAt =>
    obtain ⟨cs, -, rfl⟩ := Option.map_eq_some_iff.mp h
    exact ⟨cs, rfl⟩

/-- A change of one setting leaves what the other keys stand for. -/
lemma encode_changes {i : Item} (h : Changes m m' i) {k : Key} (hk : k ≠ i.key) :
    encode m' k = encode m k := by
  cases i with
  | scalar j =>
    obtain ⟨value, rfl⟩ := h
    cases k with
    | scalar k => exact Function.update_of_ne (fun heq => hk (congrArg Key.scalar heq)) _ _
    | _ => rfl
  | listed l name =>
    obtain ⟨names, rfl, -⟩ := h
    cases k with
    | listed l' =>
      have hl : l' ≠ l := fun heq => hk (congrArg Key.listed heq)
      exact congrArg toSet (Function.update_of_ne hl _ _)
    | _ => rfl
  | pool =>
    obtain ⟨pool, rfl⟩ := h
    cases k with
    | fakeSniPool => exact absurd rfl hk
    | _ => rfl
  | preset name =>
    obtain ⟨domains, rfl⟩ := h
    cases k with
    | presetOverrides => exact absurd rfl hk
    | _ => rfl
  | fakeSni strategyName =>
    obtain ⟨domain, rfl⟩ := h
    cases k with
    | strategyFakeSniMap => exact absurd rfl hk
    | _ => rfl
  | strategies =>
    obtain ⟨cs, rfl⟩ := h
    cases k with
    | customStrategiesJson => exact absurd rfl hk
    | _ => rfl

/-- So does loading a key. -/
lemma encode_load {prefs : Prefs} {fresh : Nat → Fresh} {k k' : Key} (hk : k' ≠ k) :
    encode (load p prefs fresh m k) k' = encode m k' := by
  cases k with
  | scalar k => exact encode_changes (i := .scalar k) ⟨_, rfl⟩ hk
  | listed l =>
    cases k' with
    | listed l' =>
      have hl : l' ≠ l := fun heq => hk (congrArg Key.listed heq)
      exact congrArg toSet (Function.update_of_ne hl _ _)
    | _ => rfl
  | fakeSniPool => exact encode_changes (i := .pool) ⟨_, rfl⟩ hk
  | presetOverrides =>
    cases k' with
    | presetOverrides => exact absurd rfl hk
    | _ => rfl
  | strategyFakeSniMap =>
    cases k' with
    | strategyFakeSniMap => exact absurd rfl hk
    | _ => rfl
  | customStrategiesJson => exact encode_changes (i := .strategies) ⟨_, rfl⟩ hk

end Frames

end SettingsManager
