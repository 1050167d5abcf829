import NoZapret.Library.WriteBehind
import NoZapret.TestRuns

/-!
# Results on their way to the screen

A result travels in the status, one at a time, and the collector may skip a status. Where
a result is at any time is a lookup through the status, the value being collected and the
results on the screen.
-/

namespace TestDelivery

open Runs TestRuns

variable {R : Type}

/-- What the screen has, or is about to have, under a strategy and a site. -/
def shown (s : State R) (strategy site : String) : Option R :=
  (if s.collecting then s.seen.status.reports strategy site else none).or
    (s.ui.testResults strategy site)

/-- The status comes after it. -/
def pipeline (s : State R) (strategy site : String) : Option R :=
  (s.statusFlow.status.reports strategy site).or (shown s strategy site)

/-- The final status of a run that was not cancelled was collected, and every result that
was passed to `onResult` is on the screen. -/
def Delivered (s : State R) : Prop :=
  s.collecting = false → ∀ r, s.seen.final = some r → ∀ strategy site result,
    (r, strategy, site, result) ∈ s.called → s.ui.testResults strategy site = some result

/-- A new status takes the place of one that was taken, that has no result, or that has
the same one. -/
def Kept (s : State R) (status : Status R) : Prop :=
  s.seen.status = s.statusFlow.status ∨ s.statusFlow.status.lastResult = none ∨
    (status.strategyName = s.statusFlow.status.strategyName ∧
      status.lastSite = s.statusFlow.status.lastSite ∧
      status.lastResult = s.statusFlow.status.lastResult)

/-- An active run copies a status of its own strategy, and no other result is written for a
strategy and a site that the current run has reported. -/
def Agrees (s : State R) (c : Callback R) (post : Post R) : Prop :=
  ((s.job c.run).cancelled = false →
    post.status.strategyName = c.strategy ∧ c.strategy ≠ "") ∧
  ∀ e ∈ s.sent, s.currentTestJob = some e.1 → e.2.1 = post.status.strategyName →
    e.2.2.1 = c.site → e.2.2.2 = c.result

/-- The status that a callback is about to write a copy of. -/
def copied (c : Callback R) : Option (Post R) :=
  match c.progress with
  | .copying post => some post
  | _ => none

def Spares (s : State R) : Act R → Prop
  | .leave j => (s.job j).batch = true → (s.job j).isActive = true → (s.job j).strategies ≠ [] →
      s.seen.status = s.statusFlow.status ∨ s.statusFlow.status.lastResult = none
  | .write i => ∀ c ∈ s.callbacks[i]?, ∀ post ∈ copied c,
      Kept s (c.post post).status ∧ Agrees s c post
  | .flush => ∀ post ∈ s.writing, Kept s post.status
  | _ => True

section Decidable

variable [DecidableEq R]

instance (s : State R) (status : Status R) : Decidable (Kept s status) :=
  inferInstanceAs (Decidable (_ ∨ _ ∨ _))

instance (s : State R) (c : Callback R) (post : Post R) : Decidable (Agrees s c post) :=
  inferInstanceAs (Decidable (_ ∧ ∀ e ∈ s.sent, _ → _ → _ → _))

instance (s : State R) : ∀ a, Decidable (Spares s a)
  | .leave j => inferInstanceAs (Decidable ((s.job j).batch = true → (s.job j).isActive = true →
      (s.job j).strategies ≠ [] → _ ∨ _))
  | .write i => inferInstanceAs (Decidable (∀ c ∈ s.callbacks[i]?, ∀ post ∈ copied c,
      Kept s (c.post post).status ∧ Agrees s c post))
  | .flush => inferInstanceAs (Decidable (∀ post ∈ s.writing, Kept s post.status))
  | .startTest _ _ | .startBatch _ _ | .stopTest | .begin _ | .onResult _ _ _ _ _ | .check _
  | .read _ | .take | .collect => isTrue trivial

end Decidable

structure Delivering (s : State R) : Prop where
  seen : s.collecting = false → ∀ strategy site result,
    s.seen.status.reports strategy site = some result →
      s.ui.testResults strategy site = some result
  current : ∀ r, s.currentTestJob = some r → ∀ strategy site result,
    (r, strategy, site, result) ∈ s.sent → pipeline s strategy site = some result
  writing : ∀ post, s.writing = some post → ∀ r, s.currentTestJob = some r →
    post.final = some r ∧ ∀ strategy site result other, (r, strategy, site, result) ∈ s.sent →
      post.status.reports strategy site = some other → other = result
  final : ∀ r, s.statusFlow.final = some r → (s.job r).phase = .done ∧ r < s.runs ∧
    ∀ strategy site result, (r, strategy, site, result) ∈ s.called →
      pipeline s strategy site = some result
  taken : ∀ r, s.seen.final = some r → (s.job r).phase = .done ∧ r < s.runs ∧
    ∀ strategy site result, (r, strategy, site, result) ∈ s.called →
      shown s strategy site = some result
  pending : ∀ r strategy site result, (r, strategy, site, result) ∈ s.called →
    (s.job r).cancelled = false → (r, strategy, site, result) ∈ s.sent ∨
      ∃ c ∈ s.callbacks, c.run = r ∧ c.strategy = strategy ∧ c.site = site ∧ c.result = result
  called : ∀ e ∈ s.called, e.1 < s.runs
  sent : ∀ e ∈ s.sent, e.1 < s.runs ∧ (s.job e.1).phase ≠ .launched

section Steps

variable {s s' : State R} {i j r : Nat} {c : Callback R} {post : Post R} {status : Status R}
  {strategy site : String} {result : R}

lemma reports_congr {status' : Status R} (hname : status'.strategyName = status.strategyName)
    (hsite : status'.lastSite = status.lastSite) (hresult : status'.lastResult = status.lastResult) :
    status'.reports strategy site = status.reports strategy site := by
  simp only [Status.reports, hname, hsite, hresult]

lemma reports_of_none (h : status.lastResult = none) : status.reports strategy site = none := by
  simp only [Status.reports, h, ite_self]

/-- What was taken is shown. -/
lemma shown_of_seen (h : Delivering s) (hreports : s.seen.status.reports strategy site = some result) :
    shown s strategy site = some result := by
  unfold shown
  cases hcollecting : s.collecting with
  | true => simp only [if_true, hreports, Option.some_or]
  | false => simp only [Bool.false_eq_true, if_false, Option.none_or, h.seen hcollecting _ _ _ hreports]

/-- A replaced status loses nothing that the new one does not have. -/
lemma kept_pipeline (h : Delivering s) (hkept : Kept s status)
    (hpipe : pipeline s strategy site = some result)
    (hagree : ∀ other, status.reports strategy site = some other → other = result) :
    (status.reports strategy site).or (shown s strategy site) = some result := by
  cases hnew : status.reports strategy site with
  | some other => rw [hagree other hnew, Option.some_or]
  | none =>
    rw [Option.none_or]
    unfold pipeline at hpipe
    cases hold : s.statusFlow.status.reports strategy site with
    | none => rwa [hold, Option.none_or] at hpipe
    | some other =>
      rw [hold, Option.some_or] at hpipe
      rcases hkept with hseen | hempty | ⟨hname, hsite, hresult⟩
      · exact shown_of_seen h (by rw [hseen, hold, hpipe])
      · rw [reports_of_none hempty] at hold
        cases hold
      · rw [reports_congr hname hsite hresult, hold] at hnew
        cases hnew

/-- A step that neither collects nor sends; what it publishes has no result. -/
lemma delivering_congr (h : Delivering s)
    (hfinal : ∀ r, s'.statusFlow.final = some r → s'.statusFlow = s.statusFlow)
    (hseen : s'.seen = s.seen) (hui : s'.ui = s.ui) (hcollecting : s'.collecting = s.collecting)
    (hsent : s'.sent = s.sent)
    (hcurrent : ∀ r, s'.currentTestJob = some r → ∀ strategy site result,
      (r, strategy, site, result) ∈ s.sent → pipeline s' strategy site = some result)
    (hwriting : ∀ post, s'.writing = some post → ∀ r, s'.currentTestJob = some r →
      post.final = some r ∧ ∀ strategy site result other, (r, strategy, site, result) ∈ s.sent →
        post.status.reports strategy site = some other → other = result)
    (hruns : s.runs ≤ s'.runs)
    (hdone : ∀ r < s.runs, (s.job r).phase = .done → (s'.job r).phase = .done ∧
      ∀ strategy site result, (r, strategy, site, result) ∈ s'.called →
        (r, strategy, site, result) ∈ s.called)
    (hlaunched : ∀ r < s.runs, (s.job r).phase ≠ .launched → (s'.job r).phase ≠ .launched)
    (hcalled : ∀ e ∈ s'.called, e.1 < s'.runs)
    (hpending : ∀ r strategy site result, (r, strategy, site, result) ∈ s'.called →
      (s'.job r).cancelled = false → (r, strategy, site, result) ∈ s.sent ∨
        ∃ c ∈ s'.callbacks, c.run = r ∧ c.strategy = strategy ∧ c.site = site ∧ c.result = result) :
    Delivering s' := by
  have hshown : ∀ strategy site, shown s' strategy site = shown s strategy site := by
    intro strategy site
    simp only [shown, hseen, hui, hcollecting]
  constructor
  · rw [hseen, hui, hcollecting]
    exact h.seen
  · rw [hsent]
    exact hcurrent
  · rw [hsent]
    exact hwriting
  · intro r hr
    have hflow := hfinal r hr
    rw [hflow] at hr
    obtain ⟨hphase, hlt, hall⟩ := h.final r hr
    obtain ⟨hphase', hsame⟩ := hdone r hlt hphase
    refine ⟨hphase', by omega, ?_⟩
    intro strategy site result hin
    simp only [pipeline, hflow, hshown]
    exact hall strategy site result (hsame strategy site result hin)
  · intro r hr
    rw [hseen] at hr
    obtain ⟨hphase, hlt, hall⟩ := h.taken r hr
    obtain ⟨hphase', hsame⟩ := hdone r hlt hphase
    refine ⟨hphase', by omega, ?_⟩
    intro strategy site result hin
    rw [hshown]
    exact hall strategy site result (hsame strategy site result hin)
  · rw [hsent]
    exact hpending
  · exact hcalled
  · intro e he
    rw [hsent] at he
    obtain ⟨hlt, hphase⟩ := h.sent e he
    exact ⟨by omega, hlaunched e.1 hlt hphase⟩

/-- The parts of the state that a cancelled request leaves. -/
lemma cancelCurrent_rest : s.cancelCurrent.statusFlow = s.statusFlow ∧ s.cancelCurrent.seen = s.seen ∧
    s.cancelCurrent.ui = s.ui ∧ s.cancelCurrent.collecting = s.collecting ∧
    s.cancelCurrent.sent = s.sent ∧ s.cancelCurrent.called = s.called := by
  unfold State.cancelCurrent
  split <;> exact ⟨rfl, rfl, rfl, rfl, rfl, rfl⟩

/-- Cancelling only ever cancels. -/
lemma cancelCurrent_active (h : (s.cancelCurrent.job r).cancelled = false) :
    (s.job r).cancelled = false := by
  unfold State.cancelCurrent at h
  split at h
  · rename_i j _
    by_cases hrj : r = j
    · subst hrj
      simp only [Function.update_self, Job.cancel, Bool.or_eq_false_iff] at h
      exact h.1
    · simpa only [Function.update_of_ne hrj] using h
  · exact h

lemma reports_firstPost {sites : List String} {name : String} :
    (firstPost (R := R) j name sites).status.reports strategy site = none :=
  reports_of_none rfl

/-- The request of a new run, whatever it publishes. -/
lemma delivering_start (h : Delivering s) (hs : Sound s) (hidle : s.writing = none) {job : Job}
    (hs' : s' = { s.cancelCurrent.launch job with
      statusFlow := s'.statusFlow, publisher := s'.publisher })
    (hfinal : ∀ r, s'.statusFlow.final = some r → s'.statusFlow = s.statusFlow) : Delivering s' := by
  obtain ⟨-, hseen, hui, hcollecting, hsent, hcalled⟩ := cancelCurrent_rest (s := s)
  have hjob : ∀ r < s.runs, s'.job r = s.cancelCurrent.job r := by
    intro r hr
    rw [hs']
    simp only [State.launch, cancelCurrent_runs, Function.update_of_ne (show r ≠ s.runs by omega)]
  have hruns : s'.runs = s.runs + 1 := by
    rw [hs']
    exact congrArg (· + 1) cancelCurrent_runs
  have hcurrent : s'.currentTestJob = some s.runs := by
    rw [hs']
    exact congrArg some cancelCurrent_runs
  have hcalled' : s'.called = s.called := by
    rw [hs']
    exact hcalled
  have hphase : ∀ r < s.runs, (s'.job r).phase = (s.job r).phase := by
    intro r hr
    rw [hjob r hr]
    exact ((cancelCurrent_cancelled hs).job r).1
  refine delivering_congr h hfinal ?_ ?_ ?_ ?_ ?_ ?_ (by omega) ?_ ?_ ?_ ?_
  · rw [hs']
    exact hseen
  · rw [hs']
    exact hui
  · rw [hs']
    exact hcollecting
  · rw [hs']
    exact hsent
  · intro r hr strategy site result hin
    rw [hcurrent] at hr
    cases hr
    have hlt : s.runs < s.runs := (h.sent _ hin).1
    omega
  · intro post hpost
    rw [hs'] at hpost
    have hnone : s.cancelCurrent.writing = some post := hpost
    rw [cancelCurrent_writing, hidle] at hnone
    cases hnone
  · intro r hr hdone
    rw [hphase r hr, hcalled']
    exact ⟨hdone, fun _ _ _ hin => hin⟩
  · intro r hr
    rw [hphase r hr]
    exact id
  · intro e he
    rw [hcalled'] at he
    have hlt := h.called e he
    omega
  · intro r strategy site result hin hactive
    rw [hcalled'] at hin
    rw [hjob r (h.called _ hin)] at hactive
    rw [hs']
    simp only [State.launch, cancelCurrent_callbacks]
    exact h.pending r strategy site result hin (cancelCurrent_active hactive)

/-- A job moves on; its run is known and has not called anything back in this step. -/
lemma delivering_setJob (h : Delivering s) {job : Job} (hidle : s.writing = none)
    (hphase : (s.job j).phase ≠ .done) (hjob : job.phase ≠ .launched)
    (hcancelled : job.cancelled = (s.job j).cancelled) : Delivering (s.setJob j job) := by
  refine delivering_congr h (fun _ _ => rfl) rfl rfl rfl rfl h.current ?_ (Nat.le_refl _) ?_ ?_
    h.called ?_
  · intro post hpost
    have hnone : s.writing = some post := hpost
    rw [hidle] at hnone
    cases hnone
  · intro r _ hdone
    have hrj : r ≠ j := by
      rintro rfl
      exact hphase hdone
    simp only [State.setJob, Function.update_of_ne hrj]
    exact ⟨hdone, fun _ _ _ hin => hin⟩
  · intro r _ hlaunched
    by_cases hrj : r = j
    · subst hrj
      simpa only [State.setJob, Function.update_self] using hjob
    · simpa only [State.setJob, Function.update_of_ne hrj] using hlaunched
  · intro r strategy site result hin hactive
    refine h.pending r strategy site result hin ?_
    by_cases hrj : r = j
    · subst hrj
      simpa only [State.setJob, Function.update_self, hcancelled] using hactive
    · simpa only [State.setJob, Function.update_of_ne hrj] using hactive

lemma delivering_finish (h : Delivering s) (hidle : s.writing = none)
    (hphase : (s.job j).phase ≠ .done) : Delivering (s.finish j) := by
  unfold State.finish
  split
  · rename_i hcurrent
    have hset : Delivering (s.setJob j { s.job j with phase := .ending }) :=
      delivering_setJob h hidle hphase (fun hlaunched => by cases hlaunched) rfl
    refine ⟨hset.seen, hset.current, ?_, hset.final, hset.taken, hset.pending, hset.called, hset.sent⟩
    rintro post ⟨⟩ r hr
    have hrj : j = r := Option.some.inj (hcurrent.symm.trans hr)
    subst hrj
    refine ⟨rfl, ?_⟩
    intro strategy site result other hin hreports
    have hpipe := h.current j hcurrent strategy site result hin
    have hsame : s.statusFlow.status.reports strategy site = some other := hreports
    rw [pipeline, hsame, Option.some_or, Option.some.injEq] at hpipe
    exact hpipe
  · exact delivering_setJob h hidle hphase (fun hlaunched => by cases hlaunched) rfl

/-- The body of a run goes on; a new status leaves no result of the run behind. -/
lemma delivering_advance (h : Delivering s) (hs : Sound s) (hidle : s.writing = none)
    (hphase : (s.job j).phase ≠ .done)
    (hkept : (s.job j).batch = true → (s.job j).isActive = true → (s.job j).strategies ≠ [] →
      (s.seen.status = s.statusFlow.status ∨ s.statusFlow.status.lastResult = none) ∨
        (s.job j).phase = .launched) : Delivering (s.advance j) := by
  unfold State.advance
  dsimp only
  split
  · rename_i name rest hrest
    split
    · rename_i hactive
      have hset : Delivering (s.setJob j { s.job j with
          strategies := rest
          phase := .testing name (sitesToTest (s.job j).sites)
          published := true }) :=
        delivering_setJob h hidle hphase (fun hlaunched => by cases hlaunched) rfl
      split
      · rename_i hbatch
        refine ⟨hset.seen, ?_, hset.writing, ?_, hset.taken, hset.pending, hset.called, hset.sent⟩
        · intro r hr strategy site result hin
          have hcurrent : s.currentTestJob = some r := hr
          have hpipe := h.current r hcurrent strategy site result hin
          rcases hkept hbatch hactive (by rw [hrest]; exact List.cons_ne_nil _ _) with hkept | hlaunched
          · have hkept' : Kept s (firstPost (R := R) j name (s.job j).sites).status := by
              rcases hkept with hseen | hnone
              · exact Or.inl hseen
              · exact Or.inr (Or.inl hnone)
            have hagree : ∀ other, (firstPost (R := R) j name (s.job j).sites).status.reports
                strategy site = some other → other = result := by
              intro other hother
              rw [reports_firstPost] at hother
              cases hother
            exact kept_pipeline (s := s) h hkept' hpipe hagree
          · simp only [Job.isActive, Bool.and_eq_true, Bool.not_eq_true'] at hactive
            have hj := hs.live j hphase hactive.1
            cases hcurrent.symm.trans hj
            exact absurd hlaunched (h.sent _ hin).2
        · rintro r ⟨⟩
      · exact hset
    · exact delivering_finish h hidle hphase
  · exact delivering_finish h hidle hphase

/-- A callback goes on, or is dropped because its run was cancelled. -/
lemma delivering_callbacks (h : Delivering s) {callbacks : List (Callback R)}
    (hcallbacks : ∀ c ∈ s.callbacks, (s.job c.run).cancelled = false → ∃ c' ∈ callbacks,
      c'.run = c.run ∧ c'.strategy = c.strategy ∧ c'.site = c.site ∧ c'.result = c.result) :
    Delivering { s with callbacks } := by
  refine ⟨h.seen, h.current, h.writing, h.final, h.taken, ?_, h.called, h.sent⟩
  intro r strategy site result hin hactive
  rcases h.pending r strategy site result hin hactive with hsent | ⟨c, hc, rfl, hrest⟩
  · exact Or.inl hsent
  · obtain ⟨c', hc', hrun, hstrategy, hsite, hresult⟩ := hcallbacks c hc hactive
    exact Or.inr ⟨c', hc', hrun, hstrategy.trans hrest.1, hsite.trans hrest.2.1,
      hresult.trans hrest.2.2⟩

lemma callbacks_set_kept {p : Progress R} (hi : s.callbacks[i]? = some c) :
    ∀ c₀ ∈ s.callbacks, ∃ c' ∈ s.callbacks.set i { c with progress := p },
      c'.run = c₀.run ∧ c'.strategy = c₀.strategy ∧ c'.site = c₀.site ∧ c'.result = c₀.result := by
  intro c₀ hc₀
  obtain ⟨n, hn, rfl⟩ := List.mem_iff_getElem.mp hc₀
  by_cases hin : i = n
  · subst hin
    rw [List.getElem?_eq_getElem hn, Option.some.injEq] at hi
    subst hi
    exact ⟨_, List.mem_set hn _, rfl, rfl, rfl, rfl⟩
  · refine ⟨_, List.mem_iff_getElem.mpr ⟨n, by simpa using hn, ?_⟩, rfl, rfl, rfl, rfl⟩
    rw [List.getElem_set_ne hin]

lemma post_reports (h : (c.post post).status.reports strategy site = some result) :
    strategy = post.status.strategyName ∧ site = c.site ∧ result = c.result := by
  unfold Status.reports at h
  split at h
  · rename_i hsame
    cases h
    exact ⟨hsame.1.symm, hsame.2.1.symm, rfl⟩
  · cases h

lemma delivering_write (h : Delivering s) (hs : Sound s) (hi : s.callbacks[i]? = some c)
    (hkept : Kept s (c.post post).status) (hagrees : Agrees s c post) :
    Delivering { s with
      callbacks := s.callbacks.eraseIdx i, statusFlow := c.post post
      sent := (c.run, c.strategy, c.site, c.result) :: s.sent } := by
  have hc : c ∈ s.callbacks := List.mem_of_getElem? hi
  obtain ⟨⟨waiting, htesting⟩, hsite⟩ := hs.callbacks c hc
  have hlt : c.run < s.runs := by
    by_contra hge
    have hfresh := (hs.fresh c.run (by omega)).1
    rw [htesting] at hfresh
    cases hfresh
  refine ⟨h.seen, ?_, ?_, ?_, h.taken, ?_, h.called, ?_⟩
  · intro r hr strategy site result hin
    rcases List.mem_cons.mp hin with heq | hold
    · -- the result that is written now
      cases heq
      obtain ⟨hname, hne⟩ := hagrees.1 (hs.current c.run hr).2
      have hreports : (c.post post).status.reports c.strategy c.site = some c.result := by
        simp only [Callback.post, Status.reports, hname, hne, hsite, ne_eq, not_false_eq_true,
          and_self, if_true]
      simp only [pipeline, hreports, Option.some_or]
    · refine kept_pipeline (s := s) h hkept (h.current r hr strategy site result hold) ?_
      intro other hother
      obtain ⟨hname, hsame, hresult⟩ := post_reports hother
      rw [hresult]
      exact (hagrees.2 _ hold hr hname hsame).symm
  · intro post' hpost' r hr
    obtain ⟨hfinal, hall⟩ := h.writing post' hpost' r hr
    refine ⟨hfinal, ?_⟩
    intro strategy site result other hin
    rcases List.mem_cons.mp hin with heq | hold
    · cases heq
      have hending := (hs.writing post' c.run hpost' hfinal).2
      rw [htesting] at hending
      cases hending
    · exact hall strategy site result other hold
  · rintro r ⟨⟩
  · intro r strategy site result hin hactive
    rcases h.pending r strategy site result hin hactive with hsent | ⟨c', hc', hrun, hrest⟩
    · exact Or.inl (List.mem_cons_of_mem _ hsent)
    · rcases WriteBehind.mem_eraseIdx_of_mem (i := i) hc' with hleft | hat
      · exact Or.inr ⟨c', hleft, hrun, hrest⟩
      · rw [hi, Option.some.injEq] at hat
        subst hat
        obtain ⟨rfl, rfl, rfl⟩ := hrest
        subst hrun
        exact Or.inl (List.mem_cons_self ..)
  · intro e he
    rcases List.mem_cons.mp he with rfl | hold
    · exact ⟨hlt, fun hlaunched => by cases htesting.symm.trans hlaunched⟩
    · exact h.sent e hold

lemma ended_phase {final : Option Nat} (hphase : (s.job r).phase = .done) :
    (s.ended final r).phase = .done := by
  cases final with
  | none => exact hphase
  | some j =>
    by_cases hrj : r = j
    · subst hrj
      simp only [State.ended, Function.update_self]
    · simpa only [State.ended, Function.update_of_ne hrj] using hphase

lemma ended_cancelled {final : Option Nat} :
    (s.ended final r).cancelled = (s.job r).cancelled := by
  cases final with
  | none => rfl
  | some j =>
    by_cases hrj : r = j
    · subst hrj
      simp only [State.ended, Function.update_self]
    · simp only [State.ended, Function.update_of_ne hrj]

/-- The main thread writes: the final status of the run, if it is still the current one. -/
lemma delivering_flush (h : Delivering s) (hs : Sound s) (hwriting : s.writing = some post)
    (hkept : Kept s post.status) :
    Delivering { s with
      statusFlow := post, writing := none, isRunning := false, job := s.ended post.final } := by
  have hpipe : ∀ r, s.currentTestJob = some r → ∀ strategy site result,
      (r, strategy, site, result) ∈ s.sent →
        (post.status.reports strategy site).or (shown s strategy site) = some result := by
    intro r hr strategy site result hin
    refine kept_pipeline h hkept (h.current r hr strategy site result hin) ?_
    intro other hother
    exact (h.writing post hwriting r hr).2 strategy site result other hin hother
  refine ⟨h.seen, hpipe, by rintro _ ⟨⟩, ?_, ?_, ?_, h.called, ?_⟩
  · intro r hr
    obtain ⟨hcurrent, hending⟩ := hs.writing post r hwriting hr
    have hlast := hs.current r hcurrent
    refine ⟨?_, by dsimp only; omega, ?_⟩
    · have hfinal : post.final = some r := hr
      simp only [State.ended, hfinal, Function.update_self]
    · intro strategy site result hin
      rcases h.pending r strategy site result hin hlast.2 with hsent | ⟨c, hc, rfl, -⟩
      · exact hpipe r hcurrent strategy site result hsent
      · obtain ⟨⟨waiting, htesting⟩, -⟩ := hs.callbacks c hc
        rw [hending] at htesting
        cases htesting
  · intro r hr
    obtain ⟨hphase, hlt, hall⟩ := h.taken r hr
    exact ⟨ended_phase hphase, hlt, hall⟩
  · intro r strategy site result hin hactive
    exact h.pending r strategy site result hin (ended_cancelled.symm.trans hactive)
  · intro e he
    obtain ⟨hlt, hphase⟩ := h.sent e he
    refine ⟨hlt, ?_⟩
    cases hfinal : post.final with
    | none => exact hphase
    | some j =>
      by_cases hej : e.1 = j
      · subst hej
        simp [State.ended]
      · simpa only [State.ended, Function.update_of_ne hej] using hphase

lemma delivering_take (h : Delivering s) (hcollecting : s.collecting = false) :
    Delivering { s with seen := s.statusFlow, collecting := true } := by
  have hpipe : ∀ strategy site, pipeline s strategy site =
      (s.statusFlow.status.reports strategy site).or (s.ui.testResults strategy site) := by
    intro strategy site
    simp only [pipeline, shown, hcollecting, Bool.false_eq_true, if_false, Option.none_or]
  refine ⟨by rintro ⟨⟩, ?_, h.writing, ?_, ?_, h.pending, h.called, h.sent⟩
  · intro r hr strategy site result hin
    have hbefore := h.current r hr strategy site result hin
    rw [hpipe] at hbefore
    simp only [pipeline, shown, if_true]
    cases hreports : s.statusFlow.status.reports strategy site with
    | none => rwa [hreports, Option.none_or] at hbefore
    | some other => rwa [hreports, Option.some_or] at hbefore
  · intro r hr
    obtain ⟨hphase, hlt, hall⟩ := h.final r hr
    refine ⟨hphase, hlt, ?_⟩
    intro strategy site result hin
    have hbefore := hall strategy site result hin
    rw [hpipe] at hbefore
    simp only [pipeline, shown, if_true]
    cases hreports : s.statusFlow.status.reports strategy site with
    | none => rwa [hreports, Option.none_or] at hbefore
    | some other => rwa [hreports, Option.some_or] at hbefore
  · intro r hr
    obtain ⟨hphase, hlt, hall⟩ := h.final r hr
    refine ⟨hphase, hlt, ?_⟩
    intro strategy site result hin
    have hbefore := hall strategy site result hin
    rw [hpipe] at hbefore
    simpa only [shown, if_true] using hbefore

lemma delivering_collect (h : Delivering s) (hcollecting : s.collecting = true) :
    Delivering { s with ui := s.ui.collect s.seen, collecting := false } := by
  have hshown : ∀ strategy site,
      shown { s with ui := s.ui.collect s.seen, collecting := false } strategy site =
        shown s strategy site := by
    intro strategy site
    simp only [shown, hcollecting, if_true, Bool.false_eq_true, if_false, Option.none_or,
      Ui.collect_testResults]
  refine ⟨?_, ?_, h.writing, ?_, ?_, h.pending, h.called, h.sent⟩
  · intro _ strategy site result hreports
    dsimp only at hreports ⊢
    rw [Ui.collect_testResults, hreports, Option.some_or]
  · intro r hr strategy site result hin
    rw [pipeline, hshown]
    exact h.current r hr strategy site result hin
  · intro r hr
    obtain ⟨hphase, hlt, hall⟩ := h.final r hr
    refine ⟨hphase, hlt, ?_⟩
    intro strategy site result hin
    rw [pipeline, hshown]
    exact hall strategy site result hin
  · intro r hr
    obtain ⟨hphase, hlt, hall⟩ := h.taken r hr
    refine ⟨hphase, hlt, ?_⟩
    intro strategy site result hin
    rw [hshown]
    exact hall strategy site result hin

lemma delivering_onResult {waiting : List String} {success tested total : Nat} (h : Delivering s)
    (hs : Sound s) (hphase : (s.job j).phase = .testing strategy waiting) :
    Delivering { s.setJob j { s.job j with phase := .testing strategy (waiting.erase site) } with
      callbacks := s.callbacks ++ [{ run := j, strategy, site, result, success, tested, total }]
      called := (j, strategy, site, result) :: s.called } := by
  have hlt : j < s.runs := by
    by_contra hge
    rw [(hs.fresh j (by omega)).1] at hphase
    cases hphase
  refine delivering_congr h (fun _ _ => rfl) rfl rfl rfl rfl h.current h.writing (Nat.le_refl _) ?_ ?_
    ?_ ?_
  · intro r _ hdone
    have hrj : r ≠ j := by
      rintro rfl
      rw [hphase] at hdone
      cases hdone
    simp only [State.setJob, Function.update_of_ne hrj]
    refine ⟨hdone, ?_⟩
    intro strategy' site' result' hin
    rcases List.mem_cons.mp hin with heq | hold
    · cases heq
      exact absurd rfl hrj
    · exact hold
  · intro r _ hlaunched
    by_cases hrj : r = j
    · subst hrj
      simp only [State.setJob, Function.update_self]
      intro hagain
      cases hagain
    · simpa only [State.setJob, Function.update_of_ne hrj] using hlaunched
  · intro e he
    rcases List.mem_cons.mp he with rfl | hold
    · exact hlt
    · exact h.called e hold
  · intro r strategy' site' result' hin hactive
    rcases List.mem_cons.mp hin with heq | hold
    · cases heq
      exact Or.inr ⟨_, List.mem_append_right _ (List.mem_singleton.mpr rfl), rfl, rfl, rfl, rfl⟩
    · have hactive' : (s.job r).cancelled = false := by
        by_cases hrj : r = j
        · subst hrj
          simpa only [State.setJob, Function.update_self] using hactive
        · simpa only [State.setJob, Function.update_of_ne hrj] using hactive
      rcases h.pending r strategy' site' result' hold hactive' with hsent | ⟨c, hc, hrest⟩
      · exact Or.inl hsent
      · exact Or.inr ⟨c, List.mem_append_left _ hc, hrest⟩

variable [DecidableEq R] {a : Act R}

lemma step_delivering (h : Delivering s) (hs : Sound s) (hok : Spares s a)
    (hstep : step s a = some s') : Delivering s' := by
  cases a with
  | startTest name sites =>
    obtain ⟨hidle, hnext⟩ := onMain_some hstep
    cases hnext
    unfold State.handleStartTest
    split
    · exact h
    · exact delivering_start h hs hidle rfl (by rintro r ⟨⟩)
  | startBatch strategies sites =>
    obtain ⟨hidle, hnext⟩ := onMain_some hstep
    cases hnext
    unfold State.handleStartBatch
    split
    · exact h
    · refine delivering_start h hs hidle rfl ?_
      intro r _
      exact cancelCurrent_rest.1
  | stopTest =>
    obtain ⟨-, hnext⟩ := onMain_some hstep
    cases hnext
    obtain ⟨hflow, hseen, hui, hcollecting, hsent, hcalled⟩ := cancelCurrent_rest (s := s)
    have hcancelled := cancelCurrent_cancelled hs
    have hruns : s.cancelCurrent.runs = s.runs := cancelCurrent_runs
    refine delivering_congr h (fun _ _ => hflow) hseen hui hcollecting hsent ?_ ?_ hruns.ge ?_ ?_ ?_ ?_
    · intro r hr
      have hnone : s.cancelCurrent.currentTestJob = some r := hr
      rw [hcancelled.current] at hnone
      cases hnone
    · intro post _ r hr
      have hnone : s.cancelCurrent.currentTestJob = some r := hr
      rw [hcancelled.current] at hnone
      cases hnone
    · intro r _ hdone
      refine ⟨((hcancelled.job r).1).trans hdone, ?_⟩
      intro strategy site result hin
      exact hcalled ▸ hin
    · intro r _ hlaunched
      exact fun hnot => hlaunched ((hcancelled.job r).1.symm.trans hnot)
    · intro e he
      exact hruns.symm ▸ h.called e (hcalled ▸ he)
    · intro r strategy site result hin hactive
      rcases h.pending r strategy site result (hcalled ▸ hin) (cancelCurrent_active hactive) with
        hsent | ⟨c, hc, hrest⟩
      · exact Or.inl hsent
      · exact Or.inr ⟨c, cancelCurrent_callbacks.symm ▸ hc, hrest⟩
  | begin j =>
    obtain ⟨hidle, hnext⟩ := onMain_some hstep
    split at hnext
    · rename_i hlaunched
      have hphase : (s.job j).phase ≠ .done := by
        rw [hlaunched]
        intro hdone
        cases hdone
      split at hnext
      · cases hnext
        exact delivering_setJob h hidle hphase (fun hlaunched => by cases hlaunched) rfl
      · cases hnext
        exact delivering_advance h hs hidle hphase fun _ _ _ => Or.inr hlaunched
    · cases hnext
  | onResult j site result success tested =>
    simp only [step] at hstep
    split at hstep
    · rename_i name waiting hphase
      split at hstep
      · cases hstep
        exact delivering_onResult h hs hphase
      · cases hstep
    · cases hstep
  | check i =>
    simp only [step] at hstep
    split at hstep
    · rename_i c hi
      split at hstep
      · split at hstep
        · cases hstep
          exact delivering_callbacks h fun c₀ hc₀ _ => callbacks_set_kept hi c₀ hc₀
        · rename_i hnot
          cases hstep
          refine delivering_callbacks h ?_
          intro c₀ hc₀ hactive
          rcases WriteBehind.mem_eraseIdx_of_mem (i := i) hc₀ with hleft | hat
          · exact ⟨c₀, hleft, rfl, rfl, rfl, rfl⟩
          · rw [hi, Option.some.injEq] at hat
            subst hat
            obtain ⟨⟨waiting, htesting⟩, -⟩ := hs.callbacks c hc₀
            simp [Job.isActive, hactive, htesting] at hnot
      · cases hstep
    · cases hstep
  | read i =>
    simp only [step] at hstep
    split at hstep
    · rename_i c hi
      split at hstep
      · cases hstep
        exact delivering_callbacks h fun c₀ hc₀ _ => callbacks_set_kept hi c₀ hc₀
      · cases hstep
    · cases hstep
  | write i =>
    simp only [step] at hstep
    split at hstep
    · rename_i c hi
      split at hstep
      · rename_i post hprogress
        cases hstep
        obtain ⟨hkept, hagrees⟩ := hok c hi post (by simp only [copied, hprogress, Option.mem_some])
        exact delivering_write h hs hi hkept hagrees
      · cases hstep
    · cases hstep
  | leave j =>
    obtain ⟨hidle, hnext⟩ := onMain_some hstep
    split at hnext
    · rename_i name waiting hphase
      split at hnext
      · cases hnext
      · cases hnext
        refine delivering_advance h hs hidle (fun hdone => by cases hphase.symm.trans hdone) ?_
        intro hbatch hactive hne
        exact Or.inl (hok hbatch hactive hne)
    · cases hnext
  | flush =>
    simp only [step] at hstep
    split at hstep
    · rename_i post hwriting
      cases hstep
      exact delivering_flush h hs hwriting (hok post hwriting)
    · cases hstep
  | take =>
    obtain ⟨-, hnext⟩ := onMain_some hstep
    split at hnext
    · rename_i htake
      cases hnext
      exact delivering_take h htake.1
    · cases hnext
  | collect =>
    obtain ⟨-, hnext⟩ := onMain_some hstep
    split at hnext
    · rename_i hcollecting
      cases hnext
      exact delivering_collect h hcollecting
    · cases hnext

omit [DecidableEq R] in
lemma initial_delivering : Delivering ({} : State R) := by
  constructor
  · rintro - strategy site result hreports
    rw [reports_of_none rfl] at hreports
    cases hreports
  · rintro r ⟨⟩
  · rintro post ⟨⟩
  · rintro r ⟨⟩
  · rintro r ⟨⟩
  · rintro r strategy site result ⟨⟩
  · rintro e ⟨⟩
  · rintro e ⟨⟩

theorem results_delivered {acts : List (Act R)} {t : State R}
    (hrun : run step ({} : State R) acts = some t) (hok : Meets step Spares ({} : State R) acts) :
    Delivered t := by
  have hkeep : ∀ (s : State R) a s', Delivering s ∧ Sound s → Spares s a → step s a = some s' →
      Delivering s' ∧ Sound s' := by
    rintro s a s' ⟨h, hs⟩ hok hstep
    exact ⟨step_delivering h hs hok hstep, step_sound hs hstep⟩
  have hinv := run_preserves hkeep ⟨initial_delivering, initial_sound⟩ hok hrun
  intro hcollecting r hr strategy site result hin
  have hshown := (hinv.1.taken r hr).2.2 strategy site result hin
  simpa only [shown, hcollecting, Bool.false_eq_true, if_false, Option.none_or] using hshown

end Steps

section Examples

def start : List (Act Bool) := [.startTest "Simple Split" ["a.com", "b.com"], .begin 0]

/-- One check, from `onResult` to its write. -/
def report (site : String) (tested : Nat) : List (Act Bool) :=
  [.onResult 0 site true tested tested, .check 0, .read 0, .write 0]

def finish : List (Act Bool) := [.leave 0, .flush, .take, .collect]

/-- The first result is collected before the second one is written. -/
def inTime : List (Act Bool) :=
  start ++ report "a.com" 1 ++ [.take, .collect] ++ report "b.com" 2 ++ finish

theorem results_delivered_in_time :
    ∃ t, run step ({} : State Bool) inTime = some t ∧ t.seen.final = some 0 ∧ Delivered t := by
  have hok : Meets step Spares ({} : State Bool) inTime := by
    decide
  exact ⟨_, rfl, rfl, results_delivered (R := Bool) rfl hok⟩

/-- The second result is written before the collector has taken the first one. -/
def skipped : List (Act Bool) := start ++ report "a.com" 1 ++ report "b.com" 2 ++ finish

theorem result_lost :
    ∃ t, run step ({} : State Bool) skipped = some t ∧ t.seen.final = some 0 ∧
      (t.job 0).cancelled = false ∧ (0, "Simple Split", "a.com", true) ∈ t.called ∧
      t.ui.testResults "Simple Split" "a.com" = none ∧ ¬ Delivered t := by
  refine ⟨_, rfl, rfl, rfl, by decide, by decide, ?_⟩
  intro h
  have hresult := h rfl 0 rfl "Simple Split" "a.com" true (by decide)
  exact absurd hresult (by decide)

end Examples

end TestDelivery
