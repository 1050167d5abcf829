import Mathlib.Tactic.Lemma

/-!
# Outlines

A nested mapping written as lines: the keys of one mapping at one indentation, and what is under
a key further in. `read` finds the mapping that lines stand for; lines that step back before
the first of them stand for none.
-/

namespace Outline

structure Line (κ α : Type) where
  indent : Nat
  key : κ
  value : Option α
  deriving DecidableEq

/-- The entries of a mapping. A key without a value is a branch, if only an empty one. -/
inductive Forest (κ α : Type) where
  | nil
  | leaf (key : κ) (value : α) (rest : Forest κ α)
  | branch (key : κ) (sub rest : Forest κ α)
  deriving DecidableEq

variable {κ α : Type}

/-- Where a mapping under a key at `d` would be. -/
def deeper (d : Nat) (ls : List (Line κ α)) : Nat := max (d + 1) (ls.head?.elim 0 Line.indent)

/-- The mapping at `d` and the lines behind it. -/
def readAt : Nat → Nat → List (Line κ α) → Option (Forest κ α × List (Line κ α))
  | 0, _, _ => none
  | _ + 1, _, [] => some (.nil, [])
  | fuel + 1, d, l :: ls =>
    if l.indent < d then some (.nil, l :: ls)
    else if d < l.indent then none
    else match l.value with
      | some v => do
        let (rest, left) ← readAt fuel d ls
        return (.leaf l.key v rest, left)
      | none => do
        let (sub, ls) ← readAt fuel (deeper d ls) ls
        let (rest, left) ← readAt fuel d ls
        return (.branch l.key sub rest, left)

def read (ls : List (Line κ α)) : Option (Forest κ α) := do
  let (f, left) ← readAt (ls.length + 1) (ls.head?.elim 0 Line.indent) ls
  if left.isEmpty then some f else none

/-- The lines of a mapping at `d`, every level `step` further in than the one around it. -/
def Forest.lines (step : Nat) : Nat → Forest κ α → List (Line κ α)
  | _, .nil => []
  | d, .leaf k v rest => ⟨d, k, some v⟩ :: rest.lines step d
  | d, .branch k sub rest => ⟨d, k, none⟩ :: (sub.lines step (d + step) ++ rest.lines step d)

variable {ls used left : List (Line κ α)} {f : Forest κ α} {d step fuel : Nat}

/-- What is read lies at `d` or further in, and the next line does not. -/
lemma readAt_indent (h : readAt fuel d ls = some (f, left)) :
    ∃ used, ls = used ++ left ∧ (∀ l ∈ used, d ≤ l.indent) ∧
      ∀ l ∈ left.head?, l.indent < d := by
  induction fuel generalizing d ls f left with
  | zero => cases h
  | succ fuel ih =>
    cases ls with
    | nil =>
      cases h
      exact ⟨[], rfl, by simp, by simp⟩
    | cons l ls =>
      unfold readAt at h
      split at h
      · rename_i hbefore
        cases h
        exact ⟨[], rfl, by simp, by simpa using hbefore⟩
      · rename_i hbefore
        split at h
        · cases h
        · split at h
          · simp only [Option.bind_eq_bind, Option.bind_eq_some_iff] at h
            obtain ⟨⟨rest, left'⟩, hrest, heq⟩ := h
            cases heq
            obtain ⟨used, rfl, hused, hleft⟩ := ih hrest
            refine ⟨l :: used, rfl, ?_, hleft⟩
            rintro m (_ | ⟨_, hm⟩)
            · omega
            · exact hused m hm
          · simp only [Option.bind_eq_bind, Option.bind_eq_some_iff] at h
            obtain ⟨⟨sub, ls'⟩, hsub, ⟨rest, left'⟩, hrest, heq⟩ := h
            cases heq
            obtain ⟨inner, rfl, hinner, -⟩ := ih hsub
            obtain ⟨used, rfl, hused, hleft⟩ := ih hrest
            refine ⟨l :: (inner ++ used), by simp, ?_, hleft⟩
            rintro m (_ | ⟨_, hm⟩)
            · omega
            · rcases List.mem_append.mp hm with hm | hm
              · have hle := hinner m hm
                unfold deeper at hle
                omega
              · exact hused m hm

/-- No line steps back before the first one. -/
theorem read_indent {l : Line κ α} (h : read (l :: ls) = some f) :
    ∀ m ∈ ls, l.indent ≤ m.indent := by
  simp only [read, Option.bind_eq_bind, Option.bind_eq_some_iff] at h
  obtain ⟨⟨g, left⟩, hread, h⟩ := h
  obtain ⟨used, hused, hindent, -⟩ := readAt_indent hread
  split at h
  · rename_i hempty
    have hleft : left = [] := List.isEmpty_iff.mp hempty
    rw [hleft, List.append_nil] at hused
    intro m hm
    exact hindent m (hused ▸ List.mem_cons_of_mem l hm)
  · cases h

lemma lt_deeper : d < deeper d ls := by
  unfold deeper
  omega

/-- Behind the lines of a mapping at `d` no line is further in. -/
lemma lines_head (f : Forest κ α) (hleft : ∀ l ∈ left.head?, l.indent < d) :
    ∀ l ∈ (f.lines step d ++ left).head?, l.indent < d + 1 := by
  intro l hl
  cases f with
  | nil => exact Nat.lt_succ_of_lt (hleft l hl)
  | leaf k v rest =>
    cases hl
    exact Nat.lt_succ_self d
  | branch k sub rest =>
    cases hl
    exact Nat.lt_succ_self d

lemma deeper_lines (hstep : 0 < step) (f : Forest κ α) (hne : f ≠ .nil) :
    deeper d (f.lines step (d + step) ++ ls) = d + step := by
  have hmax : max (d + 1) (d + step) = d + step := by
    omega
  cases f with
  | nil => exact absurd rfl hne
  | leaf k v rest => exact hmax
  | branch k sub rest => exact hmax

/-- Nothing is read where the lines are not far enough in. -/
lemma readAt_none (hfuel : 0 < fuel) (h : ∀ l ∈ ls.head?, l.indent < d) :
    readAt fuel d ls = some (.nil, ls) := by
  obtain ⟨fuel, rfl⟩ : ∃ n, fuel = n + 1 := ⟨fuel - 1, by omega⟩
  cases ls with
  | nil => rfl
  | cons l ls =>
    unfold readAt
    rw [if_pos (h l rfl)]

lemma readAt_lines (hstep : 0 < step) (f : Forest κ α) (hleft : ∀ l ∈ left.head?, l.indent < d)
    (hfuel : (f.lines step d).length < fuel) :
    readAt fuel d (f.lines step d ++ left) = some (f, left) := by
  induction f generalizing d left fuel with
  | nil => exact readAt_none hfuel hleft
  | leaf k v rest ih =>
    obtain ⟨fuel, rfl⟩ : ∃ n, fuel = n + 1 := ⟨fuel - 1, by omega⟩
    simp only [Forest.lines, List.length_cons] at hfuel
    have hrest := ih hleft (Nat.lt_of_succ_lt_succ hfuel)
    simp only [Forest.lines, List.cons_append, readAt, Nat.lt_irrefl, if_false, hrest,
      Option.bind_eq_bind, Option.bind_some]
    rfl
  | branch k sub rest ihsub ihrest =>
    obtain ⟨fuel, rfl⟩ : ∃ n, fuel = n + 1 := ⟨fuel - 1, by omega⟩
    simp only [Forest.lines, List.length_cons, List.length_append] at hfuel
    have hrest : readAt fuel d (rest.lines step d ++ left) = some (rest, left) :=
      ihrest hleft (by omega)
    have hnext : ∀ l ∈ (rest.lines step d ++ left).head?, l.indent < d + 1 :=
      lines_head rest hleft
    have hsub : readAt fuel (deeper d (sub.lines step (d + step) ++ (rest.lines step d ++ left)))
        (sub.lines step (d + step) ++ (rest.lines step d ++ left)) =
          some (sub, rest.lines step d ++ left) := by
      by_cases hne : sub = .nil
      · subst hne
        refine readAt_none (by omega) ?_
        intro l hl
        exact Nat.lt_of_lt_of_le (hnext l hl) lt_deeper
      · rw [deeper_lines hstep sub hne]
        refine ihsub ?_ (by omega)
        intro l hl
        have hl' := hnext l hl
        omega
    simp only [Forest.lines, List.cons_append, List.append_assoc, readAt, Nat.lt_irrefl, if_false,
      hsub, hrest, Option.bind_eq_bind, Option.bind_some]
    rfl

/-- What is written is read. -/
theorem read_lines (hstep : 0 < step) (f : Forest κ α) (d : Nat) :
    read (f.lines step d) = some f := by
  have hread : readAt ((f.lines step d).length + 1) d (f.lines step d ++ []) = some (f, []) :=
    readAt_lines hstep f (by simp) (Nat.lt_succ_self _)
  rw [List.append_nil] at hread
  unfold read
  cases f with
  | nil => rfl
  | leaf k v rest =>
    simp only [Forest.lines, List.head?_cons, Option.elim_some] at hread ⊢
    rw [hread]
    rfl
  | branch k sub rest =>
    simp only [Forest.lines, List.head?_cons, Option.elim_some] at hread ⊢
    rw [hread]
    rfl

end Outline
