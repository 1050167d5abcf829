import NoZapret.Library.Runs
import NoZapret.OrgJson
import NoZapret.SettingsManager

/-!
# Importing a configuration

`importConfiguration` of `MainViewModel` takes over one field after the other, and an exception
keeps the fields after it out. A single value goes through an update of `SettingsManager`; a list
is filled in memory and goes nowhere else.
-/

namespace ImportConfiguration

open OrgJson Runs SettingsManager WriteBehind

/-- What the fields are set on: an update, and a list that is cleared and filled. -/
structure Target (σ : Type) where
  update : σ → (k : Scalar) → k.Val → σ
  fill : σ → Listed → List String → σ

inductive Field where
  | scalar (name : String) (k : Scalar) (get : Obj → String → Option k.Val)
  | names (name : String) (l : Listed)

def Field.key : Field → Key
  | scalar _ k _ => .scalar k
  | names _ l => .listed l

/-- The fields in the order in which they are read. -/
def fields (p : OrgJson.Platform) : List Field := [
  .scalar "strategy" .selectedStrategy (Obj.getString p),
  .scalar "customArgs" .customArgs (Obj.getString p),
  .scalar "dns" .dnsServer (Obj.getString p),
  .scalar "proxyHost" .proxyHost (Obj.getString p),
  .scalar "proxyPort" .proxyPort (Obj.getString p),
  .scalar "excludeSelf" .excludeSelf Obj.getBoolean,
  .scalar "globalMode" .globalMode Obj.getBoolean,
  .scalar "theme" .themeMode (Obj.getString p),
  .scalar "language" .selectedLanguage (Obj.getString p),
  .scalar "primaryColor" .customPrimaryColor (Obj.getInt p),
  .scalar "themeBase" .customThemeBase (Obj.getString p),
  .scalar "autoConnect" .autoConnect Obj.getBoolean,
  .scalar "enableIpv6" .enableIpv6 Obj.getBoolean,
  .scalar "runMode" .runMode (Obj.getString p),
  .scalar "customHosts" .customHostList (Obj.getString p),
  .names "presets" .selectedPresets,
  .names "allowedApps" .allowedApps,
  .names "pinned" .pinnedStrategies]

section Import

variable {σ : Type} (T : Target σ) (p : OrgJson.Platform) (config : Obj)

/-- A field that is not named is passed over; `none` is an exception. The elements of an array
all have a text. -/
def Field.apply (s : σ) : Field → Option σ
  | scalar name k get =>
    if config.has name then (get config name).map fun v => T.update s k v else some s
  | names name l =>
    if config.has name then
      (config.getJSONArray name).map fun xs => T.fill s l (xs.map (Json.toString p))
    else some s

def applyAll : List Field → σ → σ × Bool
  | [], s => (s, true)
  | f :: fs, s =>
    match f.apply T p config s with
    | some s' => applyAll fs s'
    | none => (s, false)

/-- What is left, and whether success is reported. The content is `none` where the file cannot be
read, and `parse` is the constructor of `JSONObject`. -/
def importConfiguration (parse : String → Option Obj) (content : Option String) (s : σ) :
    σ × Bool :=
  match content.bind parse with
  | none => (s, false)
  | some config => applyAll T p config (fields p) s

end Import

/-- The memory, and the store once the coroutines have written. -/
structure Settings where
  mem : Memory
  prefs : Prefs

/-- An update also saves. -/
def settled : Target Settings where
  update s k v := ⟨s.mem.setScalar k v, Function.update s.prefs (.scalar k) (some v)⟩
  fill s l names := ⟨s.mem.setListed l names, s.prefs⟩

/-- With the coroutines that are still to write. -/
def live (q : SettingsManager.Platform) : Target State where
  update s k v := s.call q (.update k v)
  fill s l names := { s with
    mem := s.mem.setListed l names
    cells := Function.update s.cells (.listed l) (s.cells (.listed l)).disturb }

/-- What the app has in memory when it has started over a store. -/
def restart (q : SettingsManager.Platform) (fresh : Nat → Fresh) (prefs : Prefs) : Memory :=
  loadOrder.foldl (fun m k => load q prefs fresh m k) .initial

section Claims

variable (p : OrgJson.Platform) (config : Obj)

/-- The value that the file gives is there, in memory and for a single value in the store. -/
def Field.Holds (s : Settings) : Field → Prop
  | scalar name k get => config.has name = true → ∀ v, get config name = some v →
      s.mem.scalar k = v ∧ s.prefs (.scalar k) = some v
  | names name l => config.has name = true → ∀ xs, config.getJSONArray name = some xs →
      s.mem.listed l = xs.map (Json.toString p)

/-- The store holds the list that the file gives. -/
def Field.Stored (s : Settings) : Field → Prop
  | scalar _ _ _ => True
  | names name l => config.has name = true → ∀ xs, config.getJSONArray name = some xs →
      loadedNames s.prefs l = xs.map (Json.toString p)

/-- The getter of a field that is named throws nothing. -/
def Field.readable : Field → Bool
  | scalar name _ get => !config.has name || (get config name).isSome
  | names name _ => !config.has name || (config.getJSONArray name).isSome

/-- A setting that is named has the value of the file, now and after a restart. -/
def Field.Lasts (q : SettingsManager.Platform) (fresh : Nat → Fresh) (t : Settings) : Field → Prop
  | scalar name k get => config.has name = true → ∃ v, get config name = some v ∧
      t.mem.scalar k = v ∧ (restart q fresh t.prefs).scalar k = v
  | names name l => config.has name = true → ∃ xs, config.getJSONArray name = some xs ∧
      t.mem.listed l = xs.map (Json.toString p) ∧
      (restart q fresh t.prefs).listed l = xs.map (Json.toString p)

/-- A failure leaves everything as it was, and a success lasts. -/
def AtomicAndLasting (q : SettingsManager.Platform) (fresh : Nat → Fresh)
    (parse : String → Option Obj) (content : Option String) (s : Settings) : Prop :=
  match importConfiguration settled p parse content s with
  | (t, false) => t = s
  | (t, true) => ∀ config, content.bind parse = some config →
      ∀ f ∈ fields p, f.Lasts p config q fresh t

/-- Where no field fails, the store already holds every list that is named; where one fails, the
fields before it change nothing. -/
def Harmless (parse : String → Option Obj) (content : Option String) (s : Settings) : Prop :=
  ∀ config, content.bind parse = some config →
    if (fields p).all fun f => f.readable config then ∀ f ∈ fields p, f.Stored p config s
    else ∀ f ∈ (fields p).takeWhile fun f => f.readable config, f.Holds p config s

end Claims

section Fields

variable {p : OrgJson.Platform} {config : Obj} {s t : Settings} {f : Field} {fs : List Field}

lemma restart_scalar (q : SettingsManager.Platform) (fresh : Nat → Fresh) (prefs : Prefs)
    (k : Scalar) : (restart q fresh prefs).scalar k = loadedScalar prefs k := by
  cases k <;> rfl

lemma restart_listed (q : SettingsManager.Platform) (fresh : Nat → Fresh) (prefs : Prefs)
    (l : Listed) : (restart q fresh prefs).listed l = loadedNames prefs l := by
  cases l <;> rfl

lemma fields_nodup : ((fields p).map Field.key).Nodup := by
  have hkeys : (fields p).map Field.key = (fields ⟨fun _ => "", fun _ => none, fun _ => none⟩).map
      Field.key := rfl
  rw [hkeys]
  decide

variable {σ : Type} {T : Target σ}

lemma apply_isSome (x : σ) : (f.apply T p config x).isSome = f.readable config := by
  cases f with
  | scalar name k get =>
    simp only [Field.apply, Field.readable]
    cases config.has name <;> simp
  | names name l =>
    simp only [Field.apply, Field.readable]
    cases config.has name <;> simp

lemma applyAll_success (x : σ) :
    (applyAll T p config fs x).2 = fs.all fun f => f.readable config := by
  induction fs generalizing x with
  | nil => rfl
  | cons f fs ih =>
    have hf : (f.apply T p config x).isSome = f.readable config := apply_isSome x
    unfold applyAll
    rw [List.all_cons, ← hf]
    cases f.apply T p config x with
    | none => rfl
    | some x' => exact ih x'

/-- The first field that throws ends it. -/
lemma applyAll_takeWhile (x : σ) : (applyAll T p config fs x).1 =
    (applyAll T p config (fs.takeWhile fun f => f.readable config) x).1 := by
  induction fs generalizing x with
  | nil => rfl
  | cons f fs ih =>
    have hf : (f.apply T p config x).isSome = f.readable config := apply_isSome x
    rw [List.takeWhile_cons, ← hf]
    cases happly : f.apply T p config x with
    | none => simp [applyAll, happly]
    | some x' => simpa [applyAll, happly] using ih x'

/-- A field leaves what is under the other keys, and the lists in the store. -/
structure Frame (k : Key) (s t : Settings) : Prop where
  scalar : ∀ j, Key.scalar j ≠ k → t.mem.scalar j = s.mem.scalar j
  listed : ∀ l, Key.listed l ≠ k → t.mem.listed l = s.mem.listed l
  prefs : ∀ j, Key.scalar j ≠ k → t.prefs (.scalar j) = s.prefs (.scalar j)
  names : ∀ l, t.prefs (.listed l) = s.prefs (.listed l)

lemma Frame.refl (k : Key) (s : Settings) : Frame k s s :=
  ⟨fun _ _ => rfl, fun _ _ => rfl, fun _ _ => rfl, fun _ => rfl⟩

lemma apply_frame (h : f.apply settled p config s = some t) :
    f.Holds p config t ∧ Frame f.key s t := by
  cases f with
  | scalar name k get =>
    simp only [Field.apply] at h
    split at h
    · obtain ⟨v, hv, rfl⟩ := Option.map_eq_some_iff.mp h
      refine ⟨?_, ?_, ?_, ?_, ?_⟩
      · intro _ w hw
        rw [hv] at hw
        cases hw
        exact ⟨Function.update_self .., Function.update_self ..⟩
      · intro j hj
        exact Function.update_of_ne (fun heq => hj (congrArg Key.scalar heq)) _ _
      · intro l _
        rfl
      · intro j hj
        exact Function.update_of_ne hj _ _
      · intro l
        rfl
    · rename_i hnamed
      cases h
      exact ⟨fun hhas => absurd hhas hnamed, Frame.refl _ _⟩
  | names name l =>
    simp only [Field.apply] at h
    split at h
    · obtain ⟨xs, hxs, rfl⟩ := Option.map_eq_some_iff.mp h
      refine ⟨?_, ?_, ?_, ?_, ?_⟩
      · intro _ ys hys
        rw [hxs] at hys
        cases hys
        exact Function.update_self ..
      · intro j _
        rfl
      · intro l' hl
        exact Function.update_of_ne (fun heq => hl (congrArg Key.listed heq)) _ _
      · intro j _
        rfl
      · intro l'
        rfl
    · rename_i hnamed
      cases h
      exact ⟨fun hhas => absurd hhas hnamed, Frame.refl _ _⟩

lemma Frame.holds {k : Key} {g : Field} (h : Frame k s t) (hne : g.key ≠ k)
    (hg : g.Holds p config s) : g.Holds p config t := by
  cases g with
  | scalar name j get =>
    intro hhas v hv
    rw [h.scalar j hne, h.prefs j hne]
    exact hg hhas v hv
  | names name l =>
    intro hhas xs hxs
    rw [h.listed l hne]
    exact hg hhas xs hxs

/-- After fields with keys of their own every one of them holds. -/
lemma applyAll_holds (hread : ∀ f ∈ fs, f.readable config = true)
    (hnodup : (fs.map Field.key).Nodup) (s : Settings) :
    (∀ f ∈ fs, f.Holds p config (applyAll settled p config fs s).1) ∧
      (∀ g : Field, g.key ∉ fs.map Field.key → g.Holds p config s →
        g.Holds p config (applyAll settled p config fs s).1) ∧
      ∀ l, (applyAll settled p config fs s).1.prefs (.listed l) = s.prefs (.listed l) := by
  induction fs generalizing s with
  | nil => exact ⟨by simp, fun _ _ hg => hg, fun _ => rfl⟩
  | cons f fs ih =>
    rw [List.map_cons, List.nodup_cons] at hnodup
    obtain ⟨s', hs'⟩ : ∃ s', f.apply settled p config s = some s' := by
      rw [← Option.isSome_iff_exists, apply_isSome]
      exact hread f List.mem_cons_self
    obtain ⟨hholds, hframe⟩ := apply_frame hs'
    have hreadrest : ∀ g ∈ fs, g.readable config = true := fun g hg =>
      hread g (List.mem_cons_of_mem f hg)
    obtain ⟨hrest, hothers, hlists⟩ := ih hreadrest hnodup.2 s'
    simp only [applyAll, hs']
    refine ⟨?_, ?_, ?_⟩
    · intro g hg
      rcases List.mem_cons.mp hg with rfl | hg
      · exact hothers g hnodup.1 hholds
      · exact hrest g hg
    · intro g hg hgs
      rw [List.map_cons, List.mem_cons, not_or] at hg
      exact hothers g hg.2 (hframe.holds hg.1 hgs)
    · intro l
      rw [hlists, hframe.names]

/-- A field that holds already changes nothing. -/
lemma apply_same (hread : f.readable config = true) (h : f.Holds p config s) :
    f.apply settled p config s = some s := by
  cases f with
  | scalar name k get =>
    simp only [Field.apply]
    split
    · rename_i hnamed
      simp only [Field.readable, hnamed, Bool.not_true, Bool.false_or] at hread
      obtain ⟨v, hv⟩ := Option.isSome_iff_exists.mp hread
      obtain ⟨hmem, hprefs⟩ := h hnamed v hv
      have hmem' : s.mem.setScalar k v = s.mem := by
        rw [← hmem, Memory.setScalar, Function.update_eq_self]
      have hprefs' : Function.update s.prefs (.scalar k) (some v) = s.prefs := by
        rw [← hprefs, Function.update_eq_self]
      rw [hv, Option.map_some]
      exact congrArg some (congrArg₂ Settings.mk hmem' hprefs')
    · rfl
  | names name l =>
    simp only [Field.apply]
    split
    · rename_i hnamed
      simp only [Field.readable, hnamed, Bool.not_true, Bool.false_or] at hread
      obtain ⟨xs, hxs⟩ := Option.isSome_iff_exists.mp hread
      have hmem : s.mem.setListed l (xs.map (Json.toString p)) = s.mem := by
        rw [← h hnamed xs hxs, Memory.setListed, Function.update_eq_self]
      rw [hxs, Option.map_some]
      exact congrArg some (congrArg₂ Settings.mk hmem rfl)
    · rfl

lemma applyAll_same (hread : ∀ f ∈ fs, f.readable config = true)
    (h : ∀ f ∈ fs, f.Holds p config s) : (applyAll settled p config fs s).1 = s := by
  induction fs with
  | nil => rfl
  | cons f fs ih =>
    simp only [applyAll, apply_same (hread f List.mem_cons_self) (h f List.mem_cons_self)]
    exact ih (fun g hg => hread g (List.mem_cons_of_mem f hg)) fun g hg =>
      h g (List.mem_cons_of_mem f hg)

/-- What holds lasts unless it is a list that the store does not have. -/
lemma lasts_iff {q : SettingsManager.Platform} {fresh : Nat → Fresh}
    (hread : f.readable config = true) (hholds : f.Holds p config t)
    (hlists : ∀ l, t.prefs (.listed l) = s.prefs (.listed l)) :
    f.Lasts p config q fresh t ↔ f.Stored p config s := by
  cases f with
  | scalar name k get =>
    simp only [Field.Lasts, Field.Stored, iff_true]
    intro hnamed
    simp only [Field.readable, hnamed, Bool.not_true, Bool.false_or] at hread
    obtain ⟨v, hv⟩ := Option.isSome_iff_exists.mp hread
    obtain ⟨hmem, hprefs⟩ := hholds hnamed v hv
    refine ⟨v, hv, hmem, ?_⟩
    rw [restart_scalar, loadedScalar, hprefs]
    rfl
  | names name l =>
    have hloaded : loadedNames t.prefs l = loadedNames s.prefs l := by
      unfold loadedNames
      rw [hlists]
    simp only [Field.Lasts, Field.Stored, restart_listed, hloaded]
    constructor
    · intro h hnamed xs hxs
      obtain ⟨ys, hys, -, hloads⟩ := h hnamed
      rw [hxs] at hys
      cases hys
      exact hloads
    · intro h hnamed
      simp only [Field.readable, hnamed, Bool.not_true, Bool.false_or] at hread
      obtain ⟨xs, hxs⟩ := Option.isSome_iff_exists.mp hread
      exact ⟨xs, hxs, hholds hnamed xs hxs, h hnamed xs hxs⟩

/-- An import fails without a trace exactly when each field before the failure held already. -/
lemma failed_iff (hnodup : (fs.map Field.key).Nodup) :
    (applyAll settled p config fs s).1 = s ↔
      ∀ f ∈ fs.takeWhile fun f => f.readable config, f.Holds p config s := by
  have hread : ∀ f ∈ fs.takeWhile fun f => f.readable config, f.readable config = true :=
    fun f hf => List.mem_takeWhile_imp hf
  have hsub : ((fs.takeWhile fun f => f.readable config).map Field.key).Sublist
      (fs.map Field.key) := (List.takeWhile_sublist _).map Field.key
  rw [applyAll_takeWhile]
  constructor
  · intro hsame f hf
    have hholds := (applyAll_holds (p := p) hread (hnodup.sublist hsub) s).1 f hf
    rwa [hsame] at hholds
  · intro h
    exact applyAll_same hread h

/-- An import is atomic and lasting exactly where it is harmless. -/
theorem import_iff (q : SettingsManager.Platform) (fresh : Nat → Fresh) (p : OrgJson.Platform)
    (parse : String → Option Obj) (content : Option String) (s : Settings) :
    AtomicAndLasting p q fresh parse content s ↔ Harmless p parse content s := by
  unfold AtomicAndLasting Harmless importConfiguration
  cases hcontent : content.bind parse with
  | none => simp
  | some config =>
    have hflag : (applyAll settled p config (fields p) s).2 =
      (fields p).all fun f => f.readable config := applyAll_success s
    simp only [Option.some.injEq, forall_eq']
    cases hall : (fields p).all fun f => f.readable config with
    | true =>
      rw [hall] at hflag
      have hread : ∀ f ∈ fields p, f.readable config = true := List.all_eq_true.mp hall
      obtain ⟨hholds, -, hlists⟩ := applyAll_holds (p := p) hread fields_nodup s
      generalize applyAll settled p config (fields p) s = r at *
      obtain ⟨t, ok⟩ := r
      subst hflag
      simp only [if_true]
      exact forall₂_congr fun f hf => lasts_iff (hread f hf) (hholds f hf) hlists
    | false =>
      rw [hall] at hflag
      have hfailed : (applyAll settled p config (fields p) s).1 = s ↔ _ := failed_iff fields_nodup
      generalize applyAll settled p config (fields p) s = r at *
      obtain ⟨t, ok⟩ := r
      subst hflag
      simp only [Bool.false_eq_true, if_false]
      exact hfailed

end Fields

section Coroutines

/-! The memory and the store that `settled` speaks of are those that the coroutines come to,
in whatever order they write. -/

variable {q : SettingsManager.Platform} {p : OrgJson.Platform} {config : Obj} {s t : State}
  {fs : List Field}

structure Matches (s : State) (a : Settings) : Prop where
  mem : s.mem = a.mem
  due : ∀ k, (s.cells k).Due (a.prefs k)

lemma Matches.update {a : Settings} {k : Scalar} (h : Matches s a) (v : k.Val)
    (hidle : (s.cells (.scalar k)).writers = []) :
    Matches ((live q).update s k v) (settled.update a k v) := by
  have hmem : (s.mem.setScalar k v).scalar k = v := Function.update_self ..
  refine ⟨congrArg (·.setScalar k v) h.mem, ?_⟩
  intro j
  by_cases hj : j = .scalar k
  · subst hj
    have hdue := Cell.due_launch hidle v
    simp only [live, settled, State.call, Call.apply, Call.item, Item.key, launched, encode,
      Function.update_self, hmem]
    exact hdue
  · simp only [live, settled, State.call, Call.apply, Call.item, Item.key,
      Function.update_of_ne hj]
    exact h.due j

lemma Matches.fill {a : Settings} (h : Matches s a) (l : Listed) (names : List String) :
    Matches ((live q).fill s l names) (settled.fill a l names) := by
  refine ⟨congrArg (·.setListed l names) h.mem, ?_⟩
  intro j
  by_cases hj : j = .listed l
  · subst hj
    simp only [live, settled, Function.update_self]
    exact (h.due _).disturb
  · simp only [live, settled, Function.update_of_ne hj]
    exact h.due j

/-- One field on both sides; the cells of the other keys stay. -/
lemma matches_apply (q : SettingsManager.Platform) (p : OrgJson.Platform) (config : Obj)
    {a : Settings} {f : Field} (h : Matches s a)
    (hidle : (s.cells f.key).writers = []) :
    match f.apply (live q) p config s, f.apply settled p config a with
    | some s', some a' => Matches s' a' ∧ ∀ k, k ≠ f.key → s'.cells k = s.cells k
    | none, none => True
    | _, _ => False := by
  cases f with
  | scalar name k get =>
    simp only [Field.apply]
    cases config.has name with
    | false => exact ⟨h, fun _ _ => rfl⟩
    | true =>
      simp only [if_true]
      cases get config name with
      | none => trivial
      | some v => exact ⟨h.update v hidle, fun j hj => Function.update_of_ne hj _ _⟩
  | names name l =>
    simp only [Field.apply]
    cases config.has name with
    | false => exact ⟨h, fun _ _ => rfl⟩
    | true =>
      simp only [if_true]
      cases config.getJSONArray name with
      | none => trivial
      | some xs => exact ⟨h.fill l _, fun j hj => Function.update_of_ne hj _ _⟩

lemma matches_applyAll {a : Settings} (h : Matches s a) (hnodup : (fs.map Field.key).Nodup)
    (hidle : ∀ f ∈ fs, (s.cells f.key).writers = []) :
    Matches (applyAll (live q) p config fs s).1 (applyAll settled p config fs a).1 := by
  induction fs generalizing s a with
  | nil => exact h
  | cons f fs ih =>
    rw [List.map_cons, List.nodup_cons] at hnodup
    have hstep := matches_apply q p config h (hidle f List.mem_cons_self)
    unfold applyAll
    split at hstep
    · rename_i s' a' hs' ha'
      rw [hs', ha']
      refine ih hstep.1 hnodup.2 ?_
      intro g hg
      have hne : g.key ≠ f.key := fun heq => hnodup.1 (heq ▸ List.mem_map_of_mem hg)
      rw [hstep.2 g.key hne]
      exact hidle g (List.mem_cons_of_mem f hg)
    · rename_i hs' ha'
      rw [hs', ha']
      exact h
    · exact hstep.elim

lemma matches_edits {a : Settings} {acts : List Act} (h : Matches s a)
    (hedits : ∀ act ∈ acts, ∃ k i, act = .edit k i) (hrun : run (step q) s acts = some t) :
    Matches t a := by
  induction acts generalizing s with
  | nil =>
    cases hrun
    exact h
  | cons act acts ih =>
    obtain ⟨k, i, rfl⟩ := hedits act List.mem_cons_self
    have hrest : ∀ act ∈ acts, ∃ k i, act = .edit k i := fun act hact =>
      hedits act (List.mem_cons_of_mem _ hact)
    unfold run at hrun
    split at hrun
    · cases hrun
    · rename_i s' hstep
      obtain ⟨cell, hcell, rfl⟩ := Option.map_eq_some_iff.mp hstep
      refine ih (s := s.setCell k cell) ⟨h.mem, ?_⟩ hrest hrun
      intro j
      by_cases hj : j = k
      · subst hj
        simp only [State.setCell, Function.update_self]
        exact (h.due j).write hcell
      · simp only [State.setCell, Function.update_of_ne hj]
        exact h.due j

/-- With nothing being saved when the import begins, `settled` has what all its coroutines leave. -/
theorem live_settles {parse : String → Option Obj} {content : Option String} {acts : List Act}
    (hidle : ∀ k, (s.cells k).writers = [])
    (hedits : ∀ act ∈ acts, ∃ k i, act = .edit k i)
    (hrun : run (step q) (importConfiguration (live q) p parse content s).1 acts = some t)
    (hdone : ∀ k, (t.cells k).writers = []) :
    (⟨t.mem, fun k => (t.cells k).stored⟩ : Settings) =
      (importConfiguration settled p parse content
        ⟨s.mem, fun k => (s.cells k).stored⟩).1 := by
  have hstart : Matches s ⟨s.mem, fun k => (s.cells k).stored⟩ :=
    ⟨rfl, fun k => Cell.due_idle (hidle k)⟩
  have himport : Matches (importConfiguration (live q) p parse content s).1
      (importConfiguration settled p parse content ⟨s.mem, fun k => (s.cells k).stored⟩).1 := by
    unfold importConfiguration
    cases content.bind parse with
    | none => exact hstart
    | some config => exact matches_applyAll hstart fields_nodup fun f _ => hidle f.key
  have hend := matches_edits himport hedits hrun
  generalize (importConfiguration settled p parse content
    ⟨s.mem, fun k => (s.cells k).stored⟩).1 = a at hend
  obtain ⟨mem, prefs⟩ := a
  have hprefs : (fun k => (t.cells k).stored) = prefs :=
    funext fun k => (hend.due k).stored (hdone k)
  rw [hprefs, hend.mem]

end Coroutines

section Examples

def platform : OrgJson.Platform := ⟨fun _ => "", fun _ => none, fun _ => none⟩

def calls : SettingsManager.Platform := ⟨Char.toLower, fun _ => none⟩

/-- The second field is a number where a boolean is asked for. -/
def content : String := "\x7b\"strategy\": \"None\", \"excludeSelf\": 1\x7d"

def parsed : String → Option Obj := fun _ =>
  some [("strategy", .str "None"), ("excludeSelf", .num 1)]

/-- The strategy is taken over and saved, and then failure is reported. -/
theorem strategy_taken :
    ¬ ∀ (q : SettingsManager.Platform) (fresh : Nat → Fresh) (p : OrgJson.Platform)
      (parse : String → Option Obj) (content : Option String) (s : Settings),
        AtomicAndLasting p q fresh parse content s := by
  intro h
  have hsame := h calls (fun _ => ⟨"", 0, 0⟩) platform parsed (some content)
    ⟨.initial, fun _ => none⟩
  have hstrategy : (importConfiguration settled platform parsed (some content)
      ⟨.initial, fun _ => none⟩).1.mem.scalar .selectedStrategy = "None" := rfl
  have hfailed : (importConfiguration settled platform parsed (some content)
      ⟨.initial, fun _ => none⟩).2 = false := rfl
  unfold AtomicAndLasting at hsame
  split at hsame
  · rename_i t heq
    rw [heq, hsame] at hstrategy
    exact absurd hstrategy (by decide)
  · rename_i t heq
    rw [heq] at hfailed
    cases hfailed

end Examples

end ImportConfiguration
