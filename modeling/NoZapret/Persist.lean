import NoZapret.Library.Runs
import NoZapret.SettingsManager

/-!
# What the data store holds in the end

Every update launches its own coroutine on `Dispatchers.IO`, and these write in any order.
A key ends up with the value in memory as long as an older value is only written ahead of
a coroutine that will write the present one.
-/

namespace Persist

open Runs SettingsManager WriteBehind

/-- No coroutine brings an older value last, and loading does not replace what an update
has written. -/
def InTime (p : Platform) (s : State) : Act → Prop
  | .edit k i => (s.cells k).Timely i (encode s.mem k)
  | .assign fresh => ∀ prefs k rest, s.loading = .assigning prefs (k :: rest) →
      (s.cells k).Spared (encode s.mem k) (encode (load p prefs fresh s.mem k) k)
  | _ => True

/-- Each key is safe for the value that is in memory. -/
def Safe (s : State) : Prop := ∀ k, (s.cells k).Safe (encode s.mem k)

section Steps

variable {p : Platform} {s s' t : State} {c : Call} {k : Key}

lemma safe_setCell {cell : Cell k.Val} (h : Safe s) (hcell : cell.Safe (encode s.mem k)) :
    Safe (s.setCell k cell) := by
  intro j
  by_cases hj : j = k
  · subst hj
    simpa only [State.setCell, Function.update_self] using hcell
  · simpa only [State.setCell, Function.update_of_ne hj] using h j

lemma launched_current (m : Memory) : (launched m k).Current (encode m k) := by
  cases k with
  | scalar k => rfl
  | listed l => rfl
  | _ => trivial

lemma safe_call (h : Safe s) : Safe (s.call p c) := by
  unfold State.call
  cases hc : c.apply p s.mem with
  | none => exact h
  | some mem =>
    intro j
    by_cases hj : j = c.item.key
    · subst hj
      simp only [Function.update_self]
      exact Cell.safe_launch (launched_current mem)
    · simp only [Function.update_of_ne hj, encode_changes (apply_changes hc) hj]
      exact h j

lemma step_safe {a : Act} (h : Safe s) (hok : InTime p s a) (hstep : step p s a = some s') :
    Safe s' := by
  cases a with
  | call c =>
    cases hstep
    exact safe_call h
  | start k i =>
    obtain ⟨cell, hcell, rfl⟩ := Option.map_eq_some_iff.mp hstep
    exact safe_setCell h (Cell.safe_start (h k) hcell)
  | read k i =>
    obtain ⟨cell, hcell, rfl⟩ := Option.map_eq_some_iff.mp hstep
    exact safe_setCell h (Cell.safe_read (h k) hcell)
  | tear k i got =>
    obtain ⟨cell, hcell, rfl⟩ := Option.map_eq_some_iff.mp hstep
    exact safe_setCell h (Cell.safe_tear (h k) hcell)
  | edit k i =>
    obtain ⟨cell, hcell, rfl⟩ := Option.map_eq_some_iff.mp hstep
    exact safe_setCell h (Cell.safe_write hok hcell)
  | first =>
    simp only [step] at hstep
    split at hstep
    · cases hstep
      exact h
    · cases hstep
  | assign fresh =>
    simp only [step] at hstep
    split at hstep
    · rename_i prefs k rest hloading
      cases hstep
      intro j
      by_cases hj : j = k
      · subst hj
        simp only [Function.update_self]
        exact Cell.safe_disturb (h j) (hok prefs j rest hloading)
      · simp only [Function.update_of_ne hj, encode_load hj]
        exact h j
    · cases hstep

lemma initial_safe (stored : Prefs) : Safe (.initial stored) := by
  intro k h
  cases h

theorem last_value_persisted {stored : Prefs} {acts : List Act}
    (hrun : run (step p) (.initial stored) acts = some t)
    (hok : Meets (step p) (InTime p) (.initial stored) acts)
    (hdone : ∀ k, (t.cells k).writers = []) (k : Key) (hwritten : (t.cells k).written = true) :
    (t.cells k).stored = some (encode t.mem k) := by
  have hsafe : Safe t := run_preserves (fun s a s' h hok hstep => step_safe h hok hstep)
    (initial_safe stored) hok hrun
  exact Cell.stored_of_safe (hsafe k) (hdone k) hwritten

end Steps

section Examples

def platform : Platform := ⟨Char.toLower, fun _ => none⟩

/-- Two updates of the DNS server in a row; the coroutine of the first writes first, or last. -/
def twice (first second : Nat) : List Act := [
  .call (updateDnsServer "8.8.8.8"), .call (updateDnsServer "9.9.9.9"),
  .edit (.scalar .dnsServer) first, .edit (.scalar .dnsServer) second]

def empty : Prefs := fun _ => none

/-- Both orders end with nothing left to write. -/
lemma twice_runs (late : Bool) :
    ∃ t, run (step platform) (.initial empty) (twice late.toNat 0) = some t ∧
      (∀ k, (t.cells k).writers = []) ∧ (t.cells (.scalar .dnsServer)).written = true ∧
      (t.cells (.scalar .dnsServer)).stored = some (if late then "8.8.8.8" else "9.9.9.9") ∧
      encode t.mem (.scalar .dnsServer) = "9.9.9.9" := by
  cases late
  all_goals
    refine ⟨_, rfl, ?_, rfl, rfl, rfl⟩
    rintro (⟨⟨⟩⟩ | ⟨⟨⟩⟩ | _ | _ | _ | _) <;> rfl

/-- The first update writes first, ahead of the second one. -/
theorem last_value_persisted_in_order :
    ∃ t, run (step platform) (.initial empty) (twice 0 0) = some t ∧
      (t.cells (.scalar .dnsServer)).stored = some (encode t.mem (.scalar .dnsServer)) := by
  obtain ⟨t, hrun, hdone, hwritten, -⟩ := twice_runs false
  refine ⟨t, hrun, last_value_persisted hrun ?_ hdone (.scalar .dnsServer) hwritten⟩
  refine meets_cons trivial rfl (meets_cons trivial rfl (meets_cons ?_ rfl (meets_cons ?_ rfl trivial)))
  · intro v hv
    exact Or.inr ⟨.holding "9.9.9.9", List.mem_singleton.mpr rfl, rfl⟩
  · intro v hv
    cases hv
    exact Or.inl rfl

/-- The first update writes last, and the store keeps its value. -/
theorem earlier_value_persisted :
    ∃ t, run (step platform) (.initial empty) (twice 1 0) = some t ∧
      (∀ k, (t.cells k).writers = []) ∧ (t.cells (.scalar .dnsServer)).written = true ∧
      (t.cells (.scalar .dnsServer)).stored ≠ some (encode t.mem (.scalar .dnsServer)) := by
  obtain ⟨t, hrun, hdone, hwritten, hstored, hmem⟩ := twice_runs true
  refine ⟨t, hrun, hdone, hwritten, ?_⟩
  rw [hstored, hmem]
  decide

end Examples

end Persist
