import Mathlib.Data.List.Basic

/-!
# Writing behind

A value in memory has one cell in a store. A change launches a writer, which takes the
value along or reads it later, and the writers of a cell finish in any order. A reader
that a change disturbs may get anything, or nothing. The cell is safe when it holds the
value in memory, or a writer that will bring it there is still to come.
-/

namespace WriteBehind

universe u
variable {V : Type u}

inductive Writer (V : Type u) where
  | launched
  | reading (disturbed : Bool)
  | holding (v : V)

structure Cell (V : Type u) where
  writers : List (Writer V)
  stored : Option V
  /-- Some writer has written to the cell. -/
  written : Bool

/-- Left alone, the writer writes the value that is in memory now. -/
def Writer.Current (now : V) : Writer V → Prop
  | .launched => True
  | .reading disturbed => disturbed = false
  | .holding v => v = now

def Writer.disturb : Writer V → Writer V
  | .reading _ => .reading true
  | w => w

section Places

variable {α : Type u} {w v : α} {ws : List α} {i : Nat}

/-- Who is in the list stays there when one place is emptied, or stood at that place. -/
lemma mem_eraseIdx_of_mem (hw : w ∈ ws) : w ∈ ws.eraseIdx i ∨ ws[i]? = some w := by
  obtain ⟨j, hj, rfl⟩ := List.mem_iff_getElem.mp hw
  by_cases hij : i = j
  · subst hij
    exact Or.inr (List.getElem?_eq_getElem hj)
  · refine Or.inl (List.mem_eraseIdx_iff_getElem?.mpr ⟨j, fun h => hij h.symm, ?_⟩)
    exact List.getElem?_eq_getElem hj

lemma mem_set_of_mem (hw : w ∈ ws) : w ∈ ws.set i v ∨ ws[i]? = some w := by
  obtain ⟨j, hj, rfl⟩ := List.mem_iff_getElem.mp hw
  by_cases hij : i = j
  · subst hij
    exact Or.inr (List.getElem?_eq_getElem hj)
  · refine Or.inl (List.mem_iff_getElem.mpr ⟨j, by simpa using hj, ?_⟩)
    rw [List.getElem_set_ne hij]

end Places

namespace Cell

variable (c : Cell V) (i : Nat)

def launch (w : Writer V) : Cell V := { c with writers := c.writers ++ [w] }

/-- The value in memory changes. -/
def disturb : Cell V := { c with writers := c.writers.map Writer.disturb }

def start : Option (Cell V) :=
  match c.writers[i]? with
  | some .launched => some { c with writers := c.writers.set i (.reading false) }
  | _ => none

def read (now : V) : Option (Cell V) :=
  match c.writers[i]? with
  | some (.reading false) => some { c with writers := c.writers.set i (.holding now) }
  | _ => none

/-- A disturbed reader ends with some value, or gives up. -/
def tear (got : Option V) : Option (Cell V) :=
  match c.writers[i]?, got with
  | some (.reading true), some v => some { c with writers := c.writers.set i (.holding v) }
  | some (.reading true), none => some { c with writers := c.writers.eraseIdx i }
  | _, _ => none

def write : Option (Cell V) :=
  match c.writers[i]? with
  | some (.holding v) =>
    some { writers := c.writers.eraseIdx i, stored := some v, written := true }
  | _ => none

def Safe (now : V) : Prop :=
  c.written = true → c.stored = some now ∨ ∃ w ∈ c.writers, w.Current now

/-- The writer holds the value in memory, or another one will write that value. -/
def Timely (now : V) : Prop :=
  ∀ v, c.writers[i]? = some (.holding v) → v = now ∨ ∃ w ∈ c.writers.eraseIdx i, w.Current now

/-- A change without a writer of its own is the value that is there already, with nobody
reading it, or meets a writer that has not read yet. -/
def Spared (now now' : V) : Prop :=
  c.written = true →
    (now' = now ∧ .reading false ∉ c.writers) ∨ .launched ∈ c.writers

variable {c : Cell V} {c' : Cell V} {i : Nat} {now now' : V}

lemma safe_launch {w : Writer V} (hw : w.Current now) : (c.launch w).Safe now := by
  intro _
  exact Or.inr ⟨w, by simp [launch], hw⟩

/-- One writer moves on and stays as current as it was. -/
lemma safe_set {w : Writer V} (h : c.Safe now)
    (hw : ∀ w', c.writers[i]? = some w' → w'.Current now → w.Current now) :
    ({ c with writers := c.writers.set i w } : Cell V).Safe now := by
  intro hwritten
  rcases h hwritten with hstored | ⟨w', hmem, hcurrent⟩
  · exact Or.inl hstored
  · right
    rcases mem_set_of_mem (i := i) (v := w) hmem with hin | hat
    · exact ⟨w', hin, hcurrent⟩
    · have hlt : i < c.writers.length := (List.getElem?_eq_some_iff.mp hat).1
      exact ⟨w, List.mem_set hlt w, hw w' hat hcurrent⟩

lemma safe_start (h : c.Safe now) (hc : c.start i = some c') : c'.Safe now := by
  unfold start at hc
  split at hc
  · cases hc
    exact safe_set h fun _ _ _ => rfl
  · cases hc

lemma safe_read (h : c.Safe now) (hc : c.read i now = some c') : c'.Safe now := by
  unfold read at hc
  split at hc
  · cases hc
    exact safe_set h fun _ _ _ => rfl
  · cases hc

lemma safe_tear {got : Option V} (h : c.Safe now) (hc : c.tear i got = some c') : c'.Safe now := by
  unfold tear at hc
  split at hc
  · rename_i v hat
    cases hc
    refine safe_set h ?_
    intro w' hw' hcurrent
    rw [hat] at hw'
    cases hw'
    cases hcurrent
  · rename_i hat
    cases hc
    intro hwritten
    rcases h hwritten with hstored | ⟨w, hmem, hcurrent⟩
    · exact Or.inl hstored
    · rcases mem_eraseIdx_of_mem (i := i) hmem with hin | hw
      · exact Or.inr ⟨w, hin, hcurrent⟩
      · rw [hat] at hw
        cases hw
        cases hcurrent
  · cases hc

lemma safe_write (htimely : c.Timely i now) (hc : c.write i = some c') : c'.Safe now := by
  unfold write at hc
  split at hc
  · rename_i v hat
    cases hc
    intro _
    rcases htimely v hat with rfl | hother
    · exact Or.inl rfl
    · exact Or.inr hother
  · cases hc

lemma safe_disturb (h : c.Safe now) (hspared : c.Spared now now') : c.disturb.Safe now' := by
  intro hwritten
  rcases hspared hwritten with ⟨rfl, hnobody⟩ | hlaunched
  · rcases h hwritten with hstored | ⟨w, hmem, hcurrent⟩
    · exact Or.inl hstored
    · refine Or.inr ⟨w.disturb, List.mem_map_of_mem hmem, ?_⟩
      cases w with
      | launched => trivial
      | reading disturbed =>
        cases hcurrent
        exact absurd hmem hnobody
      | holding v => exact hcurrent
  · exact Or.inr ⟨.launched, List.mem_map.mpr ⟨.launched, hlaunched, rfl⟩, trivial⟩

/-- With no writer left, what was written is what is in memory. -/
lemma stored_of_safe (h : c.Safe now) (hnone : c.writers = []) (hwritten : c.written = true) :
    c.stored = some now := by
  rcases h hwritten with hstored | ⟨w, hmem, -⟩
  · exact hstored
  · rw [hnone] at hmem
    cases hmem

/-- Every writer that is left brings this value, and with none left the cell has it. -/
structure Due (c : Cell V) (last : Option V) : Prop where
  writers : ∀ w ∈ c.writers, ∃ v, w = .holding v ∧ last = some v
  stored : c.writers = [] → c.stored = last

variable {last : Option V}

lemma due_idle (hidle : c.writers = []) : c.Due c.stored := by
  refine ⟨?_, fun _ => rfl⟩
  intro w hw
  rw [hidle] at hw
  cases hw

lemma Due.disturb (h : c.Due last) : c.disturb.Due last := by
  refine ⟨?_, ?_⟩
  · intro w hw
    obtain ⟨w', hw', rfl⟩ := List.mem_map.mp hw
    obtain ⟨v, rfl, hlast⟩ := h.writers w' hw'
    exact ⟨v, rfl, hlast⟩
  · intro hnone
    exact h.stored (List.map_eq_nil_iff.mp hnone)

lemma due_launch (hidle : c.writers = []) (v : V) :
    (c.disturb.launch (.holding v)).Due (some v) := by
  have hwriters : (c.disturb.launch (.holding v)).writers = [.holding v] := by
    simp [launch, Cell.disturb, hidle]
  refine ⟨?_, ?_⟩
  · intro w hw
    rw [hwriters] at hw
    exact ⟨v, List.mem_singleton.mp hw, rfl⟩
  · intro hnone
    rw [hwriters] at hnone
    cases hnone

lemma Due.write (h : c.Due last) (hc : c.write i = some c') : c'.Due last := by
  unfold Cell.write at hc
  split at hc
  · rename_i v hat
    cases hc
    obtain ⟨w, hw, hlast⟩ := h.writers _ (List.mem_of_getElem? hat)
    cases hw
    exact ⟨fun w hw => h.writers w (List.mem_of_mem_eraseIdx hw), fun _ => hlast.symm⟩
  · cases hc

end Cell

end WriteBehind
