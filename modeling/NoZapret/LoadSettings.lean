import NoZapret.Library.Runs
import NoZapret.SettingsManager

/-!
# Loading against the user

The `init` block reads the store once and then assigns or appends field by field, whatever
the user has set in the meantime.
-/

namespace LoadSettings

open Runs SettingsManager WriteBehind

/-- What the user changed has the user's value, and no list names anything twice. -/
structure Kept (s : State) : Prop where
  values : ∀ i v, s.user i = some v → i.get s.mem = v
  nodup : ∀ l, (s.mem.listed l).Nodup

/-- What is loaded for a key is the user's value where the user changed something, and no
appended name is there already or was switched off. -/
def Harmless (p : Platform) (prefs : Prefs) (fresh : Nat → Fresh) (s : State) : Key → Prop
  | .scalar k => ∀ v, s.user (.scalar k) = some v → loadedScalar prefs k = v
  | .listed l => ∀ name ∈ loadedNames prefs l,
      name ∉ s.mem.listed l ∧ s.user (.listed l name) = none
  | .fakeSniPool => ∀ v, s.user .pool = some v → loadedPool prefs = v
  | .presetOverrides => ∀ name v, s.user (.preset name) = some v →
      ∀ defaultSites, presets.lookup name = some defaultSites →
        some ((overridesMap prefs name).getD defaultSites) = v
  | .strategyFakeSniMap => ∀ strategyName v, s.user (.fakeSni strategyName) = some v →
      ∀ valStr, storedFakeSni prefs strategyName = some valStr → some valStr = v
  | .customStrategiesJson => ∀ v, s.user .strategies = some v →
      ∀ customStrategies, loadedStrategies p prefs fresh = some customStrategies →
        customStrategies = v

def Spares (p : Platform) (s : State) : Act → Prop
  | .assign fresh => ∀ prefs k rest, s.loading = .assigning prefs (k :: rest) →
      Harmless p prefs fresh s k
  | _ => True

section Items

variable {p : Platform} {prefs : Prefs} {fresh : Nat → Fresh} {m m' : Memory} {i j : Item} {k : Key}
  {l : Listed}

lemma nodup_changes (h : Changes m m' i) (hnodup : ∀ l, (m.listed l).Nodup) (l : Listed) :
    (m'.listed l).Nodup := by
  cases i with
  | listed l' name =>
    obtain ⟨names, rfl, hnames⟩ := h
    by_cases hl : l = l'
    · subst hl
      simpa only [Memory.setListed, Function.update_self] using (hnames (hnodup l)).1
    · simpa only [Memory.setListed, Function.update_of_ne hl] using hnodup l
  | _ =>
    obtain ⟨_, rfl⟩ := h
    exact hnodup l

/-- A call leaves the settings that it is not about. -/
lemma get_changes (h : Changes m m' i) (hnodup : ∀ l, (m.listed l).Nodup) (hj : j ≠ i) :
    j.get m' = j.get m := by
  cases i with
  | scalar k =>
    obtain ⟨value, rfl⟩ := h
    cases j with
    | scalar k' => exact Function.update_of_ne (fun heq => hj (congrArg Item.scalar heq)) _ _
    | _ => rfl
  | listed l name =>
    obtain ⟨names, rfl, hnames⟩ := h
    cases j with
    | listed l' other =>
      by_cases hl : l' = l
      · subst hl
        have hother : other ≠ name := fun heq => hj (congrArg (Item.listed l') heq)
        have hiff := (hnames (hnodup l')).2 other hother
        simp only [Item.get, Memory.setListed, Function.update_self]
        rw [Bool.eq_iff_iff, List.contains_iff_mem, List.contains_iff_mem, hiff]
      · simp only [Item.get, Memory.setListed, Function.update_of_ne hl]
    | _ => rfl
  | pool =>
    obtain ⟨pool, rfl⟩ := h
    cases j with
    | pool => exact absurd rfl hj
    | _ => rfl
  | preset name =>
    obtain ⟨domains, rfl⟩ := h
    cases j with
    | preset other => exact Function.update_of_ne (fun heq => hj (congrArg Item.preset heq)) _ _
    | _ => rfl
  | fakeSni strategyName =>
    obtain ⟨domain, rfl⟩ := h
    cases j with
    | fakeSni other => exact Function.update_of_ne (fun heq => hj (congrArg Item.fakeSni heq)) _ _
    | _ => rfl
  | strategies =>
    obtain ⟨cs, rfl⟩ := h
    cases j with
    | strategies => exact absurd rfl hj
    | _ => rfl

/-- Loading a key leaves the settings under the other keys. -/
lemma get_load (hj : j.key ≠ k) : j.get (load p prefs fresh m k) = j.get m := by
  cases k with
  | scalar k =>
    cases j with
    | scalar k' => exact Function.update_of_ne (fun heq => hj (congrArg Key.scalar heq)) _ _
    | _ => rfl
  | listed l =>
    cases j with
    | listed l' name =>
      have hl : l' ≠ l := fun heq => hj (congrArg Key.listed heq)
      simp only [Item.get, load, Memory.setListed, Function.update_of_ne hl]
    | _ => rfl
  | fakeSniPool =>
    cases j with
    | pool => exact absurd rfl hj
    | _ => rfl
  | presetOverrides =>
    cases j with
    | preset name => exact absurd rfl hj
    | _ => rfl
  | strategyFakeSniMap =>
    cases j with
    | fakeSni name => exact absurd rfl hj
    | _ => rfl
  | customStrategiesJson =>
    cases j with
    | strategies => exact absurd rfl hj
    | _ => rfl

lemma loadedNames_nodup : (loadedNames prefs l).Nodup := by
  unfold loadedNames
  split
  · rename_i set _
    exact set.nodup
  · split
    · decide
    · exact List.nodup_nil

lemma nodup_load (hnodup : ∀ l, (m.listed l).Nodup) : (∀ l, ((load p prefs fresh m k).listed l).Nodup) ↔
    ∀ l, k = .listed l → ∀ name ∈ loadedNames prefs l, name ∉ m.listed l := by
  cases k with
  | listed l =>
    have happend : (m.listed l ++ loadedNames prefs l).Nodup ↔
        ∀ name ∈ loadedNames prefs l, name ∉ m.listed l := by
      rw [List.nodup_append']
      simp only [hnodup l, loadedNames_nodup, true_and]
      exact List.disjoint_comm.trans Iff.rfl
    constructor
    · intro h l' hl'
      cases hl'
      have hself := h l
      simp only [load, Memory.setListed, Function.update_self] at hself
      exact happend.mp hself
    · intro h l'
      by_cases hl : l' = l
      · subst hl
        simp only [load, Memory.setListed, Function.update_self]
        exact happend.mpr (h l' rfl)
      · simp only [load, Memory.setListed, Function.update_of_ne hl]
        exact hnodup l'
  | _ => simp only [reduceCtorEq, false_imp_iff, implies_true, iff_true]; exact hnodup

end Items

section Steps

variable {p : Platform} {prefs : Prefs} {fresh : Nat → Fresh} {s s' t : State} {k : Key} {c : Call}
  {stored : Prefs} {acts : List Act}

/-- A preset that the user changed is there. -/
def Present (s : State) : Prop := ∀ name v, s.user (.preset name) = some v → v ≠ none

/-- Only the settings under the key can lose the user's value. -/
lemma values_load (h : Kept s) :
    (∀ i v, s.user i = some v → i.get (load p prefs fresh s.mem k) = v) ↔
      ∀ i v, i.key = k → s.user i = some v → i.get (load p prefs fresh s.mem k) = v := by
  constructor
  · intro hall i v _ hv
    exact hall i v hv
  · intro hkey i v hv
    by_cases hi : i.key = k
    · exact hkey i v hi hv
    · rw [get_load hi]
      exact h.values i v hv

lemma harmless_iff (h : Kept s) (hpresent : Present s) :
    ((∀ i v, s.user i = some v → i.get (load p prefs fresh s.mem k) = v) ∧
      ∀ l, ((load p prefs fresh s.mem k).listed l).Nodup) ↔ Harmless p prefs fresh s k := by
  rw [values_load h, nodup_load h.nodup]
  cases k with
  | scalar k =>
    simp only [Harmless, reduceCtorEq, false_imp_iff, implies_true, and_true]
    constructor
    · intro hval v hv
      simpa only [Item.get, load, Memory.setScalar, Function.update_self] using
        hval (.scalar k) v rfl hv
    · intro hload i v hi hv
      cases i with
      | scalar k' =>
        cases hi
        simpa only [Item.get, load, Memory.setScalar, Function.update_self] using hload v hv
      | _ => cases hi
  | listed l =>
    simp only [Key.listed.injEq, forall_eq', Harmless]
    have hget : ∀ name, Item.get (load p prefs fresh s.mem (.listed l)) (.listed l name) =
        (s.mem.listed l ++ loadedNames prefs l).contains name := by
      intro name
      simp only [Item.get, load, Memory.setListed, Function.update_self]
    constructor
    · rintro ⟨hval, hnew⟩ name hname
      refine ⟨hnew name hname, ?_⟩
      cases huser : s.user (.listed l name) with
      | none => rfl
      | some v =>
        have hbefore := h.values _ v huser
        have hafter := hval (.listed l name) v rfl huser
        rw [hget, ← hbefore] at hafter
        simp [Item.get, hname, hnew name hname] at hafter
    · intro hnew
      refine ⟨?_, fun name hname => (hnew name hname).1⟩
      intro i v hi hv
      cases i with
      | listed l' name =>
        cases hi
        have hname : name ∉ loadedNames prefs l := by
          intro hin
          rw [(hnew name hin).2] at hv
          cases hv
        rw [hget, ← h.values _ v hv]
        simp [Item.get, hname]
      | _ => cases hi
  | fakeSniPool =>
    simp only [Harmless, reduceCtorEq, false_imp_iff, implies_true, and_true]
    constructor
    · intro hval v hv
      exact hval .pool v rfl hv
    · intro hload i v hi hv
      cases i with
      | pool => exact hload v hv
      | _ => cases hi
  | presetOverrides =>
    simp only [Harmless, reduceCtorEq, false_imp_iff, implies_true, and_true]
    constructor
    · intro hval name v hv defaultSites hsites
      have hafter := hval (.preset name) v rfl hv
      simpa only [Item.get, load, loadedPreset, hsites] using hafter
    · intro hload i v hi hv
      cases i with
      | preset name =>
        simp only [Item.get, load, loadedPreset]
        split
        · rename_i defaultSites hsites
          exact hload name v hv defaultSites hsites
        · have hbefore : s.mem.presetDomains name = v := h.values _ v hv
          obtain ⟨domains, hdomains⟩ := Option.ne_none_iff_exists'.mp (hpresent name v hv)
          rw [hbefore, hdomains, Option.some_or]
      | _ => cases hi
  | strategyFakeSniMap =>
    simp only [Harmless, reduceCtorEq, false_imp_iff, implies_true, and_true]
    constructor
    · intro hval name v hv valStr hstored
      have hafter := hval (.fakeSni name) v rfl hv
      simpa only [Item.get, load, loadedFakeSni, hstored, Option.some_or] using hafter
    · intro hload i v hi hv
      cases i with
      | fakeSni name =>
        simp only [Item.get, load, loadedFakeSni]
        cases hstored : storedFakeSni prefs name with
        | none => exact h.values _ v hv
        | some valStr => exact hload name v hv valStr hstored
      | _ => cases hi
  | customStrategiesJson =>
    simp only [Harmless, reduceCtorEq, false_imp_iff, implies_true, and_true]
    constructor
    · intro hval v hv cs hcs
      have hafter := hval .strategies v rfl hv
      simpa only [Item.get, load, hcs, Option.getD_some] using hafter
    · intro hload i v hi hv
      cases i with
      | strategies =>
        simp only [Item.get, load]
        cases hcs : loadedStrategies p prefs fresh with
        | none => exact h.values _ v hv
        | some cs => exact hload v hv cs hcs
      | _ => cases hi

/-- A call leaves its own setting as the user wants it, and the others as they were. -/
lemma kept_call (h : Kept s) : Kept (s.call p c) := by
  unfold State.call
  cases hc : c.apply p s.mem with
  | none => exact h
  | some mem =>
    have hchanges := apply_changes hc
    constructor
    · intro i v hv
      by_cases hi : i = c.item
      · subst hi
        simp only [Function.update_self, Option.some.injEq] at hv
        exact hv
      · simp only [Function.update_of_ne hi] at hv
        rw [get_changes hchanges h.nodup hi]
        exact h.values i v hv
    · exact nodup_changes hchanges h.nodup

lemma present_call (h : Present s) : Present (s.call p c) := by
  unfold State.call
  cases hc : c.apply p s.mem with
  | none => exact h
  | some mem =>
    intro name v hv
    by_cases hi : .preset name = c.item
    · have hchanges := apply_changes hc
      generalize c.item = i at hi hchanges hv
      subst hi
      obtain ⟨domains, rfl⟩ := hchanges
      simp only [Function.update_self, Option.some.injEq, Item.get, Memory.setPreset] at hv
      subst hv
      exact Option.some_ne_none domains
    · simp only [Function.update_of_ne hi] at hv
      exact h name v hv

lemma step_kept_iff {a : Act} (h : Kept s) (hpresent : Present s) (hstep : step p s a = some s') :
    Kept s' ↔ Spares p s a := by
  cases a with
  | call c =>
    cases hstep
    exact iff_of_true (kept_call h) trivial
  | start k i =>
    obtain ⟨cell, -, rfl⟩ := Option.map_eq_some_iff.mp hstep
    exact iff_of_true ⟨h.values, h.nodup⟩ trivial
  | read k i =>
    obtain ⟨cell, -, rfl⟩ := Option.map_eq_some_iff.mp hstep
    exact iff_of_true ⟨h.values, h.nodup⟩ trivial
  | tear k i got =>
    obtain ⟨cell, -, rfl⟩ := Option.map_eq_some_iff.mp hstep
    exact iff_of_true ⟨h.values, h.nodup⟩ trivial
  | edit k i =>
    obtain ⟨cell, -, rfl⟩ := Option.map_eq_some_iff.mp hstep
    exact iff_of_true ⟨h.values, h.nodup⟩ trivial
  | first =>
    simp only [step] at hstep
    split at hstep
    · cases hstep
      exact iff_of_true ⟨h.values, h.nodup⟩ trivial
    · cases hstep
  | assign fresh =>
    simp only [step] at hstep
    split at hstep
    · rename_i prefs k rest hloading
      cases hstep
      constructor
      · rintro ⟨hvalues, hnodup⟩ prefs' k' rest' hloading'
        cases hloading.symm.trans hloading'
        exact (harmless_iff h hpresent).mp ⟨hvalues, hnodup⟩
      · intro hspares
        obtain ⟨hvalues, hnodup⟩ := (harmless_iff h hpresent).mpr (hspares prefs k rest hloading)
        exact ⟨hvalues, hnodup⟩
    · cases hstep

lemma step_present {a : Act} (h : Present s) (hstep : step p s a = some s') : Present s' := by
  cases a with
  | call c =>
    cases hstep
    exact present_call h
  | start k i | read k i | tear k i got | edit k i =>
    obtain ⟨cell, -, rfl⟩ := Option.map_eq_some_iff.mp hstep
    exact h
  | first =>
    simp only [step] at hstep
    split at hstep
    · cases hstep
      exact h
    · cases hstep
  | assign fresh =>
    simp only [step] at hstep
    split at hstep
    · cases hstep
      exact h
    · cases hstep

theorem user_values_kept_iff (hrun : run (step p) (.initial stored) acts = some t) :
    Along (step p) (fun _ _ s => Kept s) (.initial stored) acts ↔
      Meets (step p) (Spares p) (.initial stored) acts := by
  have hstart : Kept (.initial stored) ∧ Present (.initial stored) := by
    refine ⟨⟨?_, fun _ => List.nodup_nil⟩, ?_⟩
    · intro i v hv
      cases hv
    · intro name v hv
      cases hv
  have hkeep : ∀ s a s', Kept s ∧ Present s → Spares p s a → step p s a = some s' →
      Kept s' ∧ Present s' := by
    rintro s a s' ⟨h, hpresent⟩ hok hstep
    exact ⟨(step_kept_iff h hpresent hstep).mpr hok, step_present hpresent hstep⟩
  refine along_iff_meets hkeep ?_ hstart hrun
  rintro s a s' ⟨h, hpresent⟩ hstep
  exact step_kept_iff h hpresent hstep

end Steps

section Examples

def platform : Platform := ⟨Char.toLower, fun _ => none⟩

def fresh (i : Nat) : Fresh := ⟨s!"id{i}", 0, 0⟩

def empty : Prefs := fun _ => none

def loadAll : List Act := .first :: List.replicate loadOrder.length (.assign fresh)

/-- The user's value is in the store when the load reads it. -/
theorem user_values_kept_written :
    Along (step platform) (fun _ _ s => Kept s) (.initial empty)
      [.call (updateSelectedStrategy "Modern Ultra"), .edit (.scalar .selectedStrategy) 0, .first,
        .assign fresh] := by
  refine (user_values_kept_iff rfl).mpr ?_
  refine meets_cons trivial rfl (meets_cons trivial rfl (meets_cons trivial rfl (meets_cons ?_ rfl trivial)))
  intro prefs k rest hloading
  cases hloading
  intro v hv
  cases hv
  rfl

/-- The load finds nothing in the store and puts the default over the user's value. -/
theorem update_overwritten :
    ∃ t, run (step platform) (.initial empty) (.call (updateDnsServer "9.9.9.9") :: loadAll) = some t ∧
      (∃ prefs, t.loading = .assigning prefs []) ∧
      t.user (.scalar .dnsServer) = some "9.9.9.9" ∧ t.mem.scalar .dnsServer = "1.1.1.1" ∧ ¬ Kept t := by
  refine ⟨_, rfl, ⟨_, rfl⟩, rfl, rfl, ?_⟩
  intro h
  exact absurd (h.values (.scalar .dnsServer) "9.9.9.9" rfl) (by decide)

end Examples

end LoadSettings
