import NoZapret.TestRuns

/-!
# Earlier runs and the status of a later one

`onResult` asks whether its run is active and then reads and writes the status; the
`finally` block asks whether its run is the current one. Between the question and the write
a request may start another run.
-/

namespace EarlierRuns

open Runs TestRuns

variable {R : Type}

/-- A later run has published its first status. -/
def Superseded (s : State R) (j : Nat) : Prop := ∃ k, j < k ∧ (s.job k).published = true

/-- The run whose statement a step is, if it writes the status. -/
def author (s : State R) : Act R → Option Nat
  | .begin j | .leave j => some j
  | .write i => (s.callbacks[i]?).map fun c => c.run
  | .flush => s.writing.bind fun post => post.final
  | _ => none

/-- An earlier run leaves the status, and what is committed for a strategy was reported by
the run that published it last. -/
structure Undisturbed (s : State R) (a : Act R) (s' : State R) : Prop where
  status : ∀ j, author s a = some j → Superseded s j → s'.statusFlow.status = s.statusFlow.status
  committed : a = .collect → ∀ name ∈ s.ui.commits s.seen, ∀ stat,
    s'.ui.committedStats name = some stat →
      ∀ j, stat.reporter = some j → s.publisher name = some j

/-- No callback is past its question. -/
def Quiet (s : State R) : Prop := ∀ c ∈ s.callbacks, c.progress = .called

/-- A run publishes its first status when no callback of an earlier one is past its
question, and commits follow a status of the last run of their strategy. -/
def Orderly (s : State R) : Act R → Prop
  | .startTest strategy _ => s.alreadyTesting strategy = false → Quiet s
  | .begin j => (s.job j).batch = true → (s.job j).isActive = true → (s.job j).strategies ≠ [] →
      Quiet s
  | .collect => ∀ name ∈ s.ui.commits s.seen, ∀ stat, s.ui.source s.seen name = some stat →
      stat.publisher = s.publisher name
  | _ => True

instance [DecidableEq R] (s : State R) : ∀ a, Decidable (Orderly s a)
  | .startTest strategy _ => inferInstanceAs (Decidable (s.alreadyTesting strategy = false →
      ∀ c ∈ s.callbacks, c.progress = .called))
  | .begin j => inferInstanceAs (Decidable ((s.job j).batch = true → (s.job j).isActive = true →
      (s.job j).strategies ≠ [] → ∀ c ∈ s.callbacks, c.progress = .called))
  | .collect => decidable_of_iff (∀ name ∈ s.ui.commits s.seen, ∀ stat ∈ s.ui.source s.seen name,
      stat.publisher = s.publisher name) Iff.rfl
  | .startBatch _ _ | .stopTest | .onResult _ _ _ _ _ | .check _ | .read _ | .write _ | .leave _
  | .flush | .take => isTrue trivial

/-- Reported by the run that published it, if at all. -/
def Own (publisher reporter : Option Nat) : Prop := ∀ j, reporter = some j → publisher = some j

/-- The status belongs to the newest run that has published one, and so does each copy
that a callback or the main thread is about to write. -/
structure Separate (s : State R) : Prop where
  past : ∀ c ∈ s.callbacks, c.progress ≠ .called → ¬ Superseded s c.run
  newest : ∀ k, (s.job k).published = true → ∃ j, s.statusFlow.publisher = some j ∧ k ≤ j
  published : ∀ j, s.statusFlow.publisher = some j → (s.job j).published = true
  copying : ∀ c ∈ s.callbacks, ∀ post, c.progress = .copying post →
    post.publisher = some c.run ∧ Own post.publisher post.reporter
  writing : ∀ post, s.writing = some post →
    post.publisher = s.statusFlow.publisher ∧ Own post.publisher post.reporter
  flow : Own s.statusFlow.publisher s.statusFlow.reporter
  seen : Own s.seen.publisher s.seen.reporter
  stats : ∀ name stat, s.ui.stats name = some stat → Own stat.publisher stat.reporter

section Steps

variable {s s' : State R} {i j k : Nat} {c : Callback R} {post : Post R} {strategy : String}
  {strategies sites : List String}

lemma own_firstPost : Own (firstPost (R := R) j strategy sites).publisher
    (firstPost (R := R) j strategy sites).reporter := by
  rintro k ⟨⟩

lemma superseded_congr (h : ∀ k, (s'.job k).published = (s.job k).published) :
    Superseded s' j ↔ Superseded s j := by
  simp only [Superseded, h]

/-- A step that publishes nothing and lets no callback past its question. -/
lemma separate_congr (h : Separate s) (hpublished : ∀ k, (s'.job k).published = (s.job k).published)
    (hcallbacks : ∀ c ∈ s'.callbacks, c ∈ s.callbacks ∨ c.progress = .called)
    (hflow : s'.statusFlow = s.statusFlow)
    (hwriting : ∀ post, s'.writing = some post →
      post.publisher = s.statusFlow.publisher ∧ Own post.publisher post.reporter)
    (hseen : Own s'.seen.publisher s'.seen.reporter) (hui : s'.ui = s.ui) : Separate s' := by
  constructor
  · intro c hc hpast
    rw [superseded_congr hpublished]
    rcases hcallbacks c hc with hold | hcalled
    · exact h.past c hold hpast
    · exact absurd hcalled hpast
  · intro k hk
    rw [hpublished] at hk
    rw [hflow]
    exact h.newest k hk
  · intro j hj
    rw [hflow] at hj
    rw [hpublished]
    exact h.published j hj
  · intro c hc post hpost
    rcases hcallbacks c hc with hold | hcalled
    · exact h.copying c hold post hpost
    · rw [hcalled] at hpost
      cases hpost
  · rw [hflow]
    exact hwriting
  · rw [hflow]
    exact h.flow
  · exact hseen
  · rw [hui]
    exact h.stats

/-- A run that has not published yet, or the newest one, publishes a status. -/
lemma separate_publish (h : Separate s)
    (hpublished : ∀ k, (s'.job k).published = true ↔ k = j ∨ (s.job k).published = true)
    (hnewest : ∀ k, (s.job k).published = true → k ≤ j)
    (hquiet : Quiet s ∨ (s.job j).published = true) (hcallbacks : s'.callbacks = s.callbacks)
    (hflow : s'.statusFlow = firstPost j strategy sites) (hwriting : s'.writing = none)
    (hseen : s'.seen = s.seen) (hui : s'.ui = s.ui) : Separate s' := by
  constructor
  · intro c hc hpast
    rw [hcallbacks] at hc
    rcases hquiet with hquiet | hj
    · exact absurd (hquiet c hc) hpast
    · rintro ⟨k, hlt, hk⟩
      refine h.past c hc hpast ⟨k, hlt, ?_⟩
      rcases (hpublished k).mp hk with rfl | hold
      · exact hj
      · exact hold
  · intro k hk
    rw [hflow]
    refine ⟨j, rfl, ?_⟩
    rcases (hpublished k).mp hk with rfl | hold
    · exact Nat.le_refl k
    · exact hnewest k hold
  · intro k hk
    rw [hflow] at hk
    cases hk
    exact (hpublished j).mpr (Or.inl rfl)
  · rw [hcallbacks]
    exact h.copying
  · intro post hpost
    rw [hwriting] at hpost
    cases hpost
  · rw [hflow]
    exact own_firstPost
  · rw [hseen]
    exact h.seen
  · rw [hui]
    exact h.stats

lemma runs_of_published (hs : Sound s) (hk : (s.job k).published = true) : k < s.runs := by
  by_contra hge
  rw [(hs.fresh k (by omega)).2] at hk
  cases hk

lemma published_cancel (hs : Sound s) (k : Nat) :
    (s.cancelCurrent.job k).published = (s.job k).published :=
  ((cancelCurrent_cancelled hs).job k).2.1

/-- The only active run is the newest one. -/
lemma newest_of_active (hs : Sound s) (hactive : (s.job j).isActive = true) : j + 1 = s.runs := by
  simp only [Job.isActive, Bool.and_eq_true, Bool.not_eq_true', bne_iff_ne, ne_eq] at hactive
  exact (hs.current j (hs.live j hactive.2 hactive.1)).1

lemma not_superseded_of_newest (hs : Sound s) (hj : j + 1 = s.runs) : ¬ Superseded s j := by
  rintro ⟨k, hlt, hk⟩
  have hk' := runs_of_published hs hk
  omega

lemma setJob_published (job : Job) (hjob : job.published = (s.job j).published) (k : Nat) :
    ((s.setJob j job).job k).published = (s.job k).published := by
  by_cases hkj : k = j
  · subst hkj
    simpa only [State.setJob, Function.update_self] using hjob
  · simp only [State.setJob, Function.update_of_ne hkj]

lemma separate_start (h : Separate s) (hs : Sound s) (hidle : s.writing = none) (hquiet : Quiet s)
    {job : Job} (hjob : job.published = true) :
    Separate { s.cancelCurrent.launch job with
      statusFlow := firstPost s.runs strategy sites
      publisher := Function.update s.publisher strategy (some s.runs) } := by
  have hrest : s.cancelCurrent.seen = s.seen ∧ s.cancelCurrent.ui = s.ui := by
    unfold State.cancelCurrent
    split <;> exact ⟨rfl, rfl⟩
  refine separate_publish (j := s.runs) h ?_ ?_ (Or.inl hquiet) cancelCurrent_callbacks rfl ?_
    hrest.1 hrest.2
  · intro k
    by_cases hk : k = s.runs
    · subst hk
      simp [State.launch, hjob]
    · simp only [State.launch, cancelCurrent_runs, Function.update_of_ne hk, published_cancel hs,
        hk, false_or]
  · intro k hk
    exact Nat.le_of_lt (runs_of_published hs hk)
  · rw [← hidle]
    exact cancelCurrent_writing

lemma separate_launch (h : Separate s) (hs : Sound s) (hidle : s.writing = none) {job : Job}
    (hjob : job.published = false) : Separate (s.cancelCurrent.launch job) := by
  have hrest : s.cancelCurrent.seen = s.seen ∧ s.cancelCurrent.ui = s.ui ∧
      s.cancelCurrent.statusFlow = s.statusFlow := by
    unfold State.cancelCurrent
    split <;> exact ⟨rfl, rfl, rfl⟩
  refine separate_congr h ?_ ?_ hrest.2.2 ?_ ?_ hrest.2.1
  · intro k
    by_cases hk : k = s.runs
    · subst hk
      simp only [State.launch, cancelCurrent_runs, Function.update_self, hjob,
        (hs.fresh s.runs (Nat.le_refl _)).2]
    · simp only [State.launch, cancelCurrent_runs, Function.update_of_ne hk, published_cancel hs]
  · intro c hc
    left
    rwa [← cancelCurrent_callbacks]
  · intro post hpost
    have hnone : s.cancelCurrent.writing = some post := hpost
    rw [cancelCurrent_writing, hidle] at hnone
    cases hnone
  · have hseen := h.seen
    rw [← hrest.1] at hseen
    exact hseen

lemma separate_finish (h : Separate s) (hidle : s.writing = none) : Separate (s.finish j) := by
  unfold State.finish
  split
  · refine separate_congr h (setJob_published _ rfl) (fun c hc => Or.inl hc) rfl ?_ h.seen rfl
    rintro post ⟨⟩
    exact ⟨rfl, h.flow⟩
  · refine separate_congr h (setJob_published _ rfl) (fun c hc => Or.inl hc) rfl ?_ h.seen rfl
    intro post hpost
    have hnone : s.writing = some post := hpost
    rw [hidle] at hnone
    cases hnone

lemma separate_advance (h : Separate s) (hs : Sound s) (hidle : s.writing = none)
    (hquiet : (s.job j).batch = true → (s.job j).isActive = true → (s.job j).strategies ≠ [] →
      Quiet s ∨ (s.job j).published = true) : Separate (s.advance j) := by
  unfold State.advance
  dsimp only
  split
  · rename_i strategy rest hrest
    split
    · rename_i hactive
      have hlast := newest_of_active hs hactive
      have hbound : ∀ k, (s.job k).published = true → k ≤ j := by
        intro k hk
        have := runs_of_published hs hk
        omega
      split
      · rename_i hbatch
        refine separate_publish h ?_ hbound
          (hquiet hbatch hactive (by rw [hrest]; exact List.cons_ne_nil _ _)) rfl rfl hidle rfl rfl
        intro k
        by_cases hkj : k = j
        · subst hkj
          simp only [State.setJob, Function.update_self, true_or]
        · simp only [State.setJob, Function.update_of_ne hkj, hkj, false_or]
      · rename_i hbatch
        have hphase : (s.job j).phase ≠ .done := by
          simp only [Job.isActive, Bool.and_eq_true, bne_iff_ne, ne_eq] at hactive
          exact hactive.2
        have hpublished := hs.single j hphase (by simpa using hbatch)
        refine separate_congr h (setJob_published _ hpublished.symm) (fun c hc => Or.inl hc) rfl ?_
          h.seen rfl
        intro post hpost
        have hnone : s.writing = some post := hpost
        rw [hidle] at hnone
        cases hnone
    · exact separate_finish h hidle
  · exact separate_finish h hidle

lemma advance_flow (hs : Sound s) (hold : Superseded s j) :
    (s.advance j).statusFlow = s.statusFlow := by
  have hfinish : (s.finish j).statusFlow = s.statusFlow := by
    unfold State.finish
    split <;> rfl
  unfold State.advance
  dsimp only
  split
  · split
    · rename_i hactive
      exact absurd hold (not_superseded_of_newest hs (newest_of_active hs hactive))
    · exact hfinish
  · exact hfinish

/-- A callback that is past its question and not superseded belongs to the run whose status
is in the flow. -/
lemma publisher_of_past (h : Separate s) (hs : Sound s) (hc : c ∈ s.callbacks)
    (hpast : c.progress ≠ .called) : s.statusFlow.publisher = some c.run := by
  obtain ⟨⟨waiting, htesting⟩, -⟩ := hs.callbacks c hc
  obtain ⟨j, hj, hle⟩ := h.newest c.run (hs.testing _ _ _ htesting).1
  rcases Nat.eq_or_lt_of_le hle with rfl | hlt
  · exact hj
  · exact absurd ⟨j, hlt, h.published j hj⟩ (h.past c hc hpast)

lemma separate_set (h : Separate s) {p : Progress R} (hlast : ¬ Superseded s c.run)
    (hcopying : ∀ post, p = .copying post →
      post.publisher = some c.run ∧ Own post.publisher post.reporter) :
    Separate { s with callbacks := s.callbacks.set i { c with progress := p } } := by
  refine ⟨?_, h.newest, h.published, ?_, h.writing, h.flow, h.seen, h.stats⟩
  · intro c' hc' hpast
    rcases List.mem_or_eq_of_mem_set hc' with hold | rfl
    · exact h.past c' hold hpast
    · exact hlast
  · intro c' hc' post hpost
    rcases List.mem_or_eq_of_mem_set hc' with hold | rfl
    · exact h.copying c' hold post hpost
    · exact hcopying post hpost

lemma separate_write (h : Separate s) (hs : Sound s) (hi : s.callbacks[i]? = some c)
    (hprogress : c.progress = .copying post) (sent : List (Nat × String × String × R)) :
    Separate { s with
      callbacks := s.callbacks.eraseIdx i, statusFlow := c.post post, sent } := by
  have hc : c ∈ s.callbacks := List.mem_of_getElem? hi
  have hpast : c.progress ≠ .called := by
    rw [hprogress]
    intro hcalled
    cases hcalled
  have hflow := publisher_of_past h hs hc hpast
  have hpost := (h.copying c hc post hprogress).1
  constructor
  · intro c' hc' hpast'
    exact h.past c' (List.mem_of_mem_eraseIdx hc') hpast'
  · intro k hk
    obtain ⟨j, hj, hle⟩ := h.newest k hk
    exact ⟨j, (hpost.trans (hflow.symm.trans hj)), hle⟩
  · intro j hj
    exact h.published j (hflow.trans (hpost.symm.trans hj))
  · intro c' hc' post' hpost'
    exact h.copying c' (List.mem_of_mem_eraseIdx hc') post' hpost'
  · intro post' hpost'
    obtain ⟨hsame, hown⟩ := h.writing post' hpost'
    exact ⟨hsame.trans (hflow.trans hpost.symm), hown⟩
  · rintro j ⟨⟩
    exact hpost
  · exact h.seen
  · exact h.stats

variable [DecidableEq R] {a : Act R}

lemma step_separate (h : Separate s) (hs : Sound s) (hok : Orderly s a) (hstep : step s a = some s') :
    Separate s' := by
  cases a with
  | startTest strategy sites =>
    obtain ⟨hidle, hnext⟩ := onMain_some hstep
    cases hnext
    unfold State.handleStartTest
    split
    · exact h
    · rename_i hnot
      exact separate_start h hs hidle (hok (by simpa using hnot)) rfl
  | startBatch strategies sites =>
    obtain ⟨hidle, hnext⟩ := onMain_some hstep
    cases hnext
    unfold State.handleStartBatch
    split
    · exact h
    · exact separate_launch h hs hidle rfl
  | stopTest =>
    obtain ⟨-, hnext⟩ := onMain_some hstep
    cases hnext
    have hrest : s.cancelCurrent.seen = s.seen ∧ s.cancelCurrent.ui = s.ui ∧
        s.cancelCurrent.statusFlow = s.statusFlow := by
      unfold State.cancelCurrent
      split <;> exact ⟨rfl, rfl, rfl⟩
    refine separate_congr h (published_cancel hs) ?_ hrest.2.2 ?_ ?_ hrest.2.1
    · intro c hc
      left
      rwa [← cancelCurrent_callbacks]
    · rintro post ⟨⟩
      exact ⟨rfl, h.flow⟩
    · have hseen := h.seen
      rw [← hrest.1] at hseen
      exact hseen
  | begin j =>
    obtain ⟨hidle, hnext⟩ := onMain_some hstep
    split at hnext
    · split at hnext
      · cases hnext
        refine separate_congr h (setJob_published _ rfl) (fun c hc => Or.inl hc) rfl ?_ h.seen rfl
        intro post hpost
        have hnone : s.writing = some post := hpost
        rw [hidle] at hnone
        cases hnone
      · cases hnext
        exact separate_advance h hs hidle fun hbatch hactive hne => Or.inl (hok hbatch hactive hne)
    · cases hnext
  | onResult j site result success tested =>
    simp only [step] at hstep
    split at hstep
    · split at hstep
      · cases hstep
        refine separate_congr h (setJob_published _ rfl) ?_ rfl h.writing h.seen rfl
        intro c hc
        rcases List.mem_append.mp hc with hold | hnew
        · exact Or.inl hold
        · rw [List.mem_singleton] at hnew
          subst hnew
          exact Or.inr rfl
      · cases hstep
    · cases hstep
  | check i =>
    simp only [step] at hstep
    split at hstep
    · rename_i c hi
      split at hstep
      · split at hstep
        · rename_i hactive
          cases hstep
          exact separate_set h (not_superseded_of_newest hs (newest_of_active hs hactive))
            (by rintro _ ⟨⟩)
        · cases hstep
          exact separate_congr h (fun _ => rfl) (fun c hc => Or.inl (List.mem_of_mem_eraseIdx hc)) rfl
            h.writing h.seen rfl
      · cases hstep
    · cases hstep
  | read i =>
    simp only [step] at hstep
    split at hstep
    · rename_i c hi
      split at hstep
      · rename_i hchecked
        cases hstep
        have hc : c ∈ s.callbacks := List.mem_of_getElem? hi
        have hpast : c.progress ≠ .called := by
          rw [hchecked]
          intro hcalled
          cases hcalled
        refine separate_set h (h.past c hc hpast) ?_
        rintro post ⟨⟩
        exact ⟨publisher_of_past h hs hc hpast, h.flow⟩
      · cases hstep
    · cases hstep
  | write i =>
    simp only [step] at hstep
    split at hstep
    · rename_i c hi
      split at hstep
      · rename_i post hprogress
        cases hstep
        exact separate_write h hs hi hprogress _
      · cases hstep
    · cases hstep
  | leave j =>
    obtain ⟨hidle, hnext⟩ := onMain_some hstep
    split at hnext
    · rename_i strategy waiting hphase
      split at hnext
      · cases hnext
      · cases hnext
        exact separate_advance h hs hidle fun _ _ _ => Or.inr (hs.testing j _ _ hphase).1
    · cases hnext
  | flush =>
    simp only [step] at hstep
    split at hstep
    · rename_i post hwriting
      cases hstep
      obtain ⟨hsame, hown⟩ := h.writing post hwriting
      have hpublished : ∀ k, (s.ended post.final k).published = (s.job k).published := by
        intro k
        cases post.final with
        | none => rfl
        | some j => exact setJob_published (j := j) { s.job j with phase := .done } rfl k
      refine ⟨?_, ?_, ?_, h.copying, ?_, hown, h.seen, h.stats⟩
      · intro c hc hpast
        exact fun hold => h.past c hc hpast ((superseded_congr hpublished).mp hold)
      · intro k hk
        obtain ⟨j, hj, hle⟩ := h.newest k ((hpublished k).symm.trans hk)
        exact ⟨j, hsame.trans hj, hle⟩
      · intro j hj
        exact (hpublished j).trans (h.published j (hsame.symm.trans hj))
      · rintro _ ⟨⟩
    · cases hstep
  | take =>
    obtain ⟨-, hnext⟩ := onMain_some hstep
    split at hnext
    · cases hnext
      exact separate_congr h (fun _ => rfl) (fun c hc => Or.inl hc) rfl h.writing h.flow rfl
    · cases hnext
  | collect =>
    obtain ⟨-, hnext⟩ := onMain_some hstep
    split at hnext
    · cases hnext
      refine ⟨h.past, h.newest, h.published, h.copying, h.writing, h.flow, h.seen, ?_⟩
      intro name stat hstat
      rw [Ui.collect_stats] at hstat
      split at hstat
      · exact h.stats name stat hstat
      · unfold Ui.source at hstat
        split at hstat
        · cases hstat
          exact h.seen
        · exact h.stats name stat hstat
    · cases hnext

lemma step_undisturbed (h : Separate s) (hs : Sound s) (hok : Orderly s a)
    (hstep : step s a = some s') : Undisturbed s a s' := by
  constructor
  · intro j hauthor hold
    cases a with
    | begin k =>
      cases hauthor
      obtain ⟨-, hnext⟩ := onMain_some hstep
      split at hnext
      · split at hnext
        · cases hnext
          rfl
        · cases hnext
          rw [advance_flow hs hold]
      · cases hnext
    | leave k =>
      cases hauthor
      obtain ⟨-, hnext⟩ := onMain_some hstep
      split at hnext
      · split at hnext
        · cases hnext
        · cases hnext
          rw [advance_flow hs hold]
      · cases hnext
    | write i =>
      simp only [step] at hstep
      split at hstep
      · rename_i c hi
        split at hstep
        · rename_i post hprogress
          simp only [author, hi, Option.map_some, Option.some.injEq] at hauthor
          subst hauthor
          refine absurd hold (h.past c (List.mem_of_getElem? hi) ?_)
          rw [hprogress]
          intro hcalled
          cases hcalled
        · cases hstep
      · cases hstep
    | flush =>
      obtain ⟨post, hwriting, hfinal⟩ := Option.bind_eq_some_iff.mp hauthor
      have hcurrent := (hs.writing post j hwriting hfinal).1
      exact absurd hold (not_superseded_of_newest hs (hs.current j hcurrent).1)
    | _ => cases hauthor
  · rintro rfl name hname stat hstat j hj
    obtain ⟨-, hnext⟩ := onMain_some hstep
    split at hnext
    · cases hnext
      rw [Ui.collect_committed hname, Option.some.injEq] at hstat
      cases hsource : s.ui.source s.seen name with
      | none =>
        rw [hsource] at hstat
        cases hstat
        cases hj
      | some stat' =>
        rw [hsource, Option.getD_some] at hstat
        subst hstat
        have hown : Own stat'.publisher stat'.reporter := by
          unfold Ui.source at hsource
          split at hsource
          · cases hsource
            exact h.seen
          · exact h.stats name stat' hsource
        rw [← hok name hname stat' hsource]
        exact hown j hj
    · cases hnext

omit [DecidableEq R] in
lemma initial_separate : Separate ({} : State R) := by
  constructor
  · rintro c ⟨⟩
  · rintro k ⟨⟩
  · rintro j ⟨⟩
  · rintro c ⟨⟩
  · rintro post ⟨⟩
  · rintro j ⟨⟩
  · rintro j ⟨⟩
  · rintro name stat ⟨⟩

theorem later_run_undisturbed {acts : List (Act R)} (hok : Meets step Orderly ({} : State R) acts) :
    Along step Undisturbed ({} : State R) acts := by
  have hkeep : ∀ (s : State R) a s', Separate s ∧ Sound s → Orderly s a → step s a = some s' →
      Separate s' ∧ Sound s' := by
    rintro s a s' ⟨h, hs⟩ hok hstep
    exact ⟨step_separate h hs hok hstep, step_sound hs hstep⟩
  refine along_of_meets hkeep ?_ ⟨initial_separate, initial_sound⟩ hok
  rintro s a s' ⟨h, hs⟩ hok hstep
  exact step_undisturbed h hs hok hstep

end Steps

section Examples

/-- One site is checked under a strategy. -/
def checkSite (j : Nat) (strategy : String) : List (Act Bool) :=
  [.startTest strategy ["a.com"], .begin j, .onResult j "a.com" true 1 1, .check 0, .read 0]

/-- The first run ends and is collected before the second one starts. -/
def apart : List (Act Bool) :=
  checkSite 0 "Simple Split" ++ [.write 0, .leave 0, .flush, .take, .collect] ++
    checkSite 1 "Simple Fake" ++ [.write 0, .leave 1, .flush, .take, .collect]

theorem later_run_undisturbed_apart : Along step Undisturbed ({} : State Bool) apart :=
  later_run_undisturbed (by decide)

/-- The callback of the first run has read the status when the second run starts. -/
def overtaken : List (Act Bool) :=
  checkSite 0 "Simple Split" ++ [.startTest "Simple Fake" ["a.com"]]

/-- It then puts its own status over that of the second run. -/
theorem later_run_overwritten :
    ∃ s s', run step ({} : State Bool) overtaken = some s ∧ step s (.write 0) = some s' ∧
      s.statusFlow.status.strategyName = "Simple Fake" ∧
      s'.statusFlow.status.strategyName = "Simple Split" ∧
      ¬ Along step Undisturbed ({} : State Bool) (overtaken ++ [.write 0]) := by
  refine ⟨_, _, rfl, rfl, by decide, by decide, ?_⟩
  intro h
  have hsame := (along_last h rfl rfl).status 0 rfl ⟨1, by decide, by decide⟩
  exact absurd hsame (by decide)

end Examples

end EarlierRuns
