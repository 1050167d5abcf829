import Mathlib.Data.List.Basic

/-!
# Guarded runs

A system is a partial step function: `step s a = none` when action `a` is not
enabled in `s`. A condition on steps is a predicate on the state before the
step and the action; `Meets` says that every step of a run satisfies it. The
two rules below carry an invariant, and a bound on the number of steps, from
one conditioned step to a whole run.
-/

namespace Runs

universe u v
variable {S : Type u} {A : Type v}

def run (step : S → A → Option S) : S → List A → Option S
  | s, [] => some s
  | s, a :: as =>
    match step s a with
    | none => none
    | some s' => run step s' as

/-- Every step that the run takes meets `ok` in the state it starts from. -/
def Meets (step : S → A → Option S) (ok : S → A → Prop) : S → List A → Prop
  | _, [] => True
  | s, a :: as => ok s a ∧ ∀ s', step s a = some s' → Meets step ok s' as

/-- Replaying a concrete run checks its condition. -/
instance decidableMeets (step : S → A → Option S) (ok : S → A → Prop)
    [dec : ∀ s a, Decidable (ok s a)] : ∀ s as, Decidable (Meets step ok s as)
  | _, [] => isTrue trivial
  | s, a :: as =>
    match dec s a with
    | isFalse h => isFalse fun hm => h hm.1
    | isTrue h =>
      match hs : step s a with
      | none => isTrue ⟨h, fun s' hs' => by simp [hs] at hs'⟩
      | some t =>
        match decidableMeets step ok t as with
        | isTrue ht => isTrue ⟨h, fun s' hs' => Option.some.inj (hs.symm.trans hs') ▸ ht⟩
        | isFalse ht => isFalse fun hm => ht (hm.2 t hs)

/-- The state after some run all of whose steps meet `ok`. -/
def ReachesWithin (step : S → A → Option S) (ok : S → A → Prop) (s t : S) : Prop :=
  ∃ as, Meets step ok s as ∧ run step s as = some t

variable {step : S → A → Option S} {ok : S → A → Prop}

@[simp] lemma run_nil (s : S) : run step s [] = some s := rfl

lemma run_cons {s s' : S} {a : A} {as : List A} (h : step s a = some s') :
    run step s (a :: as) = run step s' as := by
  simp only [run, h]

lemma run_cons_some {s t : S} {a : A} {as : List A} (h : run step s (a :: as) = some t) :
    ∃ s', step s a = some s' ∧ run step s' as = some t := by
  cases hs : step s a with
  | none => simp [run, hs] at h
  | some s' => exact ⟨s', rfl, by rwa [run_cons hs] at h⟩

lemma run_append {s t : S} {as : List A} (h : run step s as = some t) (bs : List A) :
    run step s (as ++ bs) = run step t bs := by
  induction as generalizing s with
  | nil =>
    cases h
    rfl
  | cons a as ih =>
    obtain ⟨s', hss', hrest⟩ := run_cons_some h
    rw [List.cons_append, run_cons hss']
    exact ih hrest

theorem run_preserves {inv : S → Prop}
    (hstep : ∀ s a s', inv s → ok s a → step s a = some s' → inv s')
    {s t : S} {as : List A} (hs : inv s) (hok : Meets step ok s as)
    (hrun : run step s as = some t) : inv t := by
  induction as generalizing s with
  | nil =>
    cases hrun
    exact hs
  | cons a as ih =>
    obtain ⟨s', hss', hrest⟩ := run_cons_some hrun
    exact ih (hstep s a s' hs hok.1 hss') (hok.2 s' hss') hrest

theorem run_invariant {inv : S → Prop}
    (hstep : ∀ s a s', inv s → step s a = some s' → inv s')
    {s t : S} {as : List A} (hs : inv s) (hrun : run step s as = some t) : inv t := by
  induction as generalizing s with
  | nil =>
    cases hrun
    exact hs
  | cons a as ih =>
    obtain ⟨s', hss', hrest⟩ := run_cons_some hrun
    exact ih (hstep s a s' hs hss') hrest

lemma meets_cons {s s' : S} {a : A} {as : List A} (hok : ok s a) (h : step s a = some s')
    (hrest : Meets step ok s' as) : Meets step ok s (a :: as) := by
  refine ⟨hok, ?_⟩
  intro t ht
  cases h.symm.trans ht
  exact hrest

lemma meets_of_forall (h : ∀ s a, ok s a) : ∀ (s : S) (as : List A), Meets step ok s as
  | _, [] => trivial
  | s, a :: as => ⟨h s a, fun s' _ => meets_of_forall h s' as⟩

lemma meets_of_mem {p : A → Prop} (s : S) {as : List A} (h : ∀ a ∈ as, p a) :
    Meets step (fun _ a => p a) s as := by
  induction as generalizing s with
  | nil => trivial
  | cons a as ih =>
    exact ⟨h a List.mem_cons_self, fun s' _ => ih s' fun b hb => h b (List.mem_cons_of_mem a hb)⟩

lemma meets_mono {ok' : S → A → Prop} (h : ∀ s a, ok s a → ok' s a) {s : S} {as : List A}
    (hok : Meets step ok s as) : Meets step ok' s as := by
  induction as generalizing s with
  | nil => exact hok
  | cons a as ih => exact ⟨h s a hok.1, fun s' hs' => ih (hok.2 s' hs')⟩

/-- A condition that every step meeting another one meets, under an invariant of those. -/
theorem meets_of_inv {inv : S → Prop} {ok' : S → A → Prop}
    (hinv : ∀ s a s', inv s → ok s a → step s a = some s' → inv s')
    (h : ∀ s a, inv s → ok s a → ok' s a) {s : S} {as : List A} (hs : inv s)
    (hok : Meets step ok s as) : Meets step ok' s as := by
  induction as generalizing s with
  | nil => trivial
  | cons a as ih =>
    refine ⟨h s a hs hok.1, ?_⟩
    intro s' hs'
    exact ih (hinv s a s' hs hok.1 hs') (hok.2 s' hs')

/-- If a step outside the condition, and no other step, leaves a mark, and no step takes
a mark away, the mark at the end tells whether the run met the condition. -/
theorem marked_iff_not_meets {inv marked : S → Prop}
    (hinv : ∀ s a s', inv s → step s a = some s' → inv s')
    (hmark : ∀ s a s', inv s → step s a = some s' → (marked s' ↔ marked s ∨ ¬ ok s a))
    {s t : S} {as : List A} (hs : inv s) (hrun : run step s as = some t) :
    marked t ↔ marked s ∨ ¬ Meets step ok s as := by
  induction as generalizing s with
  | nil =>
    cases hrun
    simp only [Meets, not_true_eq_false, or_false]
  | cons a as ih =>
    obtain ⟨s', hss', hrest⟩ := run_cons_some hrun
    have hmeets : Meets step ok s (a :: as) ↔ ok s a ∧ Meets step ok s' as := by
      constructor
      · rintro ⟨hok, hnext⟩
        exact ⟨hok, hnext s' hss'⟩
      · rintro ⟨hok, hnext⟩
        exact meets_cons hok hss' hnext
    rw [ih (hinv s a s' hs hss') hrest, hmark s a s' hs hss', hmeets, or_assoc]
    by_cases hok : ok s a <;> simp [hok]

/-- Every step that the run takes satisfies `P`. -/
def Along (step : S → A → Option S) (P : S → A → S → Prop) : S → List A → Prop
  | _, [] => True
  | s, a :: as => ∀ s', step s a = some s' → P s a s' ∧ Along step P s' as

lemma along_last {P : S → A → S → Prop} {s s' t : S} {a : A} {as : List A}
    (h : Along step P s (as ++ [a])) (hrun : run step s as = some s') (hstep : step s' a = some t) :
    P s' a t := by
  induction as generalizing s with
  | nil =>
    cases hrun
    exact (h t hstep).1
  | cons b as ih =>
    obtain ⟨r, hr, hrest⟩ := run_cons_some hrun
    exact ih (h r hr).2 hrest

/-- Steps that meet a condition, and do under an invariant of such steps what they should. -/
theorem along_of_meets {inv : S → Prop} {P : S → A → S → Prop}
    (hinv : ∀ s a s', inv s → ok s a → step s a = some s' → inv s')
    (hstep : ∀ s a s', inv s → ok s a → step s a = some s' → P s a s')
    {s : S} {as : List A} (hs : inv s) (hok : Meets step ok s as) : Along step P s as := by
  induction as generalizing s with
  | nil => trivial
  | cons a as ih =>
    intro s' hs'
    exact ⟨hstep s a s' hs hok.1 hs', ih (hinv s a s' hs hok.1 hs') (hok.2 s' hs')⟩

/-- Where an invariant holds as long as the steps meet a condition, and under it a step
does what it should exactly when it meets the condition, a whole run does. -/
theorem along_iff_meets {inv : S → Prop} {P : S → A → S → Prop}
    (hinv : ∀ s a s', inv s → ok s a → step s a = some s' → inv s')
    (hstep : ∀ s a s', inv s → step s a = some s' → (P s a s' ↔ ok s a))
    {s t : S} {as : List A} (hs : inv s) (hrun : run step s as = some t) :
    Along step P s as ↔ Meets step ok s as := by
  induction as generalizing s with
  | nil => exact Iff.rfl
  | cons a as ih =>
    obtain ⟨s', hss', hrest⟩ := run_cons_some hrun
    constructor
    · intro halong
      obtain ⟨hP, hnext⟩ := halong s' hss'
      have hok : ok s a := (hstep s a s' hs hss').mp hP
      exact meets_cons hok hss' ((ih (hinv s a s' hs hok hss') hrest).mp hnext)
    · rintro ⟨hok, hnext⟩ s'' hs''
      cases hss'.symm.trans hs''
      have hs' : inv s' := hinv s a s' hs hok hss'
      exact ⟨(hstep s a s' hs hss').mpr hok, (ih hs' hrest).mpr (hnext s' hss')⟩

/-- If every conditioned step from an unfinished state is enabled and either
finishes or lowers the measure, then the run has finished by the time it has
one more action than the measure it started with. -/
theorem finishes_within {inv done : S → Prop} (μ : S → Nat)
    (hstep : ∀ s a, inv s → ¬ done s → ok s a →
      ∃ s', step s a = some s' ∧ inv s' ∧ (done s' ∨ μ s' < μ s))
    {s : S} {as : List A} (hs : inv s) (hnot : ¬ done s) (hok : Meets step ok s as)
    (hlen : μ s < as.length) :
    ∃ n ≤ μ s + 1, ∃ t, run step s (as.take n) = some t ∧ done t := by
  induction as generalizing s with
  | nil => simp at hlen
  | cons a as ih =>
    obtain ⟨s', hss', hinv, hprog⟩ := hstep s a hs hnot hok.1
    by_cases hdone : done s'
    · exact ⟨1, by omega, s', by simp [run, hss'], hdone⟩
    have hlt : μ s' < μ s := hprog.resolve_left hdone
    have hlen' : μ s' < as.length := by
      simp only [List.length_cons] at hlen
      omega
    obtain ⟨n, hn, t, hrun, ht⟩ := ih hinv hdone (hok.2 s' hss') hlen'
    exact ⟨n + 1, by omega, t, by rw [List.take_succ_cons, run_cons hss', hrun], ht⟩

/-- Where every step lowers a measure, a run has no more steps than it began with. -/
theorem run_length_le (μ : S → Nat) (hstep : ∀ s a s', step s a = some s' → μ s' < μ s)
    {s t : S} {as : List A} (hrun : run step s as = some t) : as.length + μ t ≤ μ s := by
  induction as generalizing s with
  | nil =>
    cases hrun
    simp only [List.length_nil]
    omega
  | cons a as ih =>
    obtain ⟨s', hss', hrest⟩ := run_cons_some hrun
    have hlt : μ s' < μ s := hstep s a s' hss'
    have hle : as.length + μ t ≤ μ s' := ih hrest
    simp only [List.length_cons]
    omega

end Runs
