import NoZapret.Library.Runs
import NoZapret.Strategies

/-!
# Test runs and what the screen collects of them

`TestingService` with its requests, the coroutines of its runs and their `onResult`
callbacks on IO threads, and the collector of `observeTestingService`. Requests, the body of
a run, its `finally` block and the collector share the main thread; a callback goes on
between any two steps of the others. A status flow keeps its last value only.
-/

namespace TestRuns

open Strategies

variable {R : Type}

/-- `TestStatus` -/
structure Status (R : Type) where
  strategyName : String := ""
  success : Nat := 0
  tested : Nat := 0
  total : Nat := 0
  isRunning : Bool := false
  lastSite : String := ""
  lastResult : Option R := none
  deriving DecidableEq, Repr

/-- The result under a strategy and a site that the status has for the screen. -/
def Status.reports (status : Status R) (strategy site : String) : Option R :=
  if status.strategyName = strategy ∧ status.lastSite = site ∧ strategy ≠ "" ∧ site ≠ "" then
    status.lastResult
  else none

/-- A status with the run that published its strategy, the run that reported its last
result, and the run whose `finally` block wrote it. The program keeps the status only. -/
structure Post (R : Type) where
  status : Status R := {}
  publisher : Option Nat := none
  reporter : Option Nat := none
  final : Option Nat := none
  deriving DecidableEq, Repr

inductive Phase where
  | launched
  /-- in `testStrategy`, with the sites whose check has not reported -/
  | testing (strategy : String) (waiting : List String)
  | ending
  | done
  deriving DecidableEq, Repr

structure Job where
  batch : Bool
  /-- the strategies still to be tested -/
  strategies : List String
  sites : List String
  phase : Phase := .launched
  cancelled : Bool := false
  published : Bool
  deriving DecidableEq, Repr

def Job.isActive (job : Job) : Bool := !job.cancelled && job.phase != .done

/-- Cancelling a finished job does nothing. -/
def Job.cancel (job : Job) : Job := { job with cancelled := job.cancelled || job.phase != .done }

inductive Progress (R : Type) where
  | called
  /-- `isActive` was true -/
  | checked
  /-- the status was read -/
  | copying (post : Post R)
  deriving DecidableEq, Repr

/-- A call of `onResult` by a run that tests a strategy. -/
structure Callback (R : Type) where
  run : Nat
  strategy : String
  site : String
  result : R
  success : Nat
  tested : Nat
  total : Nat
  progress : Progress R := .called
  deriving DecidableEq, Repr

/-- One entry of `stats`, with where its numbers come from. -/
structure Stat where
  success : Nat := 0
  tested : Nat := 0
  total : Nat := 0
  publisher : Option Nat := none
  reporter : Option Nat := none
  deriving DecidableEq, Repr

def Post.stat (post : Post R) : Stat where
  success := post.status.success
  tested := post.status.tested
  total := post.status.total
  publisher := post.publisher
  reporter := post.reporter

/-- What `observeTestingService` keeps. -/
structure Ui (R : Type) where
  lastReportedStrategy : String := ""
  currentlyTesting : List String := []
  stats : String → Option Stat := fun _ => none
  committedStats : String → Option Stat := fun _ => none
  testResults : String → String → Option R := fun _ _ => none

namespace Ui

variable (ui : Ui R) (post : Post R) (strategy : String)

def commit : Ui R :=
  let stat := (ui.stats strategy).getD {}
  { ui with committedStats := Function.update ui.committedStats strategy (some stat) }

def setStats : Ui R :=
  { ui with stats := Function.update ui.stats post.status.strategyName (some post.stat) }

def record : Ui R :=
  let status := post.status
  match status.lastResult with
  | some result =>
    let strategy := status.strategyName
    if status.lastSite = "" then ui
    else
      let currentMap := Function.update (ui.testResults strategy) status.lastSite (some result)
      { ui with testResults := Function.update ui.testResults strategy currentMap }
  | none => ui

/-- Another strategy is reported: the last one is over. -/
def changeStrategy : Ui R :=
  let last := ui.lastReportedStrategy
  if last ≠ "" ∧ last ≠ strategy then
    { ui.commit last with currentlyTesting := ui.currentlyTesting.erase last }
  else ui

def collectRunning : Ui R :=
  let strategy := post.status.strategyName
  let ui := ui.changeStrategy strategy
  let ui := { ui with
    currentlyTesting := if ui.currentlyTesting.contains strategy then ui.currentlyTesting
      else ui.currentlyTesting ++ [strategy] }
  { ui.setStats post with lastReportedStrategy := strategy }.record post

def collectFinal : Ui R :=
  let ui := ((ui.setStats post).record post).commit post.status.strategyName
  let ui := if ui.lastReportedStrategy ≠ "" then ui.commit ui.lastReportedStrategy else ui
  { ui.currentlyTesting.foldl commit ui with currentlyTesting := [], lastReportedStrategy := "" }

def collect : Ui R :=
  if post.status.strategyName = "" then ui
  else if post.status.isRunning then ui.collectRunning post
  else ui.collectFinal post

/-- The strategies whose results are committed. -/
def commits : List String :=
  let strategy := post.status.strategyName
  let last := ui.lastReportedStrategy
  if strategy = "" then []
  else if post.status.isRunning then if last ≠ "" ∧ last ≠ strategy then [last] else []
  else strategy :: ((if last ≠ "" then [last] else []) ++ ui.currentlyTesting)

/-- The numbers that are there to be committed. -/
def source (name : String) : Option Stat :=
  if name = post.status.strategyName then some post.stat else ui.stats name

section Collect

variable {ui : Ui R} {post : Post R} {strategy name site : String}

@[simp] lemma commit_stats : (ui.commit strategy).stats = ui.stats := rfl

@[simp] lemma commit_testResults : (ui.commit strategy).testResults = ui.testResults := rfl

@[simp] lemma record_stats : (ui.record post).stats = ui.stats := by
  unfold record
  dsimp only
  split
  · split <;> rfl
  · rfl

@[simp] lemma record_committedStats : (ui.record post).committedStats = ui.committedStats := by
  unfold record
  dsimp only
  split
  · split <;> rfl
  · rfl

@[simp] lemma record_lastReportedStrategy :
    (ui.record post).lastReportedStrategy = ui.lastReportedStrategy := by
  unfold record
  dsimp only
  split
  · split <;> rfl
  · rfl

@[simp] lemma record_currentlyTesting :
    (ui.record post).currentlyTesting = ui.currentlyTesting := by
  unfold record
  dsimp only
  split
  · split <;> rfl
  · rfl

@[simp] lemma changeStrategy_stats : (ui.changeStrategy strategy).stats = ui.stats := by
  unfold changeStrategy
  dsimp only
  split <;> rfl

@[simp] lemma changeStrategy_testResults :
    (ui.changeStrategy strategy).testResults = ui.testResults := by
  unfold changeStrategy
  dsimp only
  split <;> rfl

/-- Committing a list of strategies. -/
lemma foldl_commit (names : List String) (ui : Ui R) :
    (names.foldl commit ui).stats = ui.stats ∧
      (names.foldl commit ui).testResults = ui.testResults ∧
      ∀ name, (names.foldl commit ui).committedStats name =
        if name ∈ names then some ((ui.stats name).getD {}) else ui.committedStats name := by
  induction names generalizing ui with
  | nil => simp
  | cons first names ih =>
    obtain ⟨hstats, hresults, hcommitted⟩ := ih (ui.commit first)
    refine ⟨hstats, hresults, ?_⟩
    intro name
    rw [List.foldl_cons, hcommitted name]
    by_cases hin : name ∈ names
    · simp [hin]
    · by_cases hfirst : name = first
      · subst hfirst
        simp [hin, commit]
      · simp [hin, hfirst, commit]

lemma collect_stats : (ui.collect post).stats name =
    if post.status.strategyName = "" then ui.stats name else ui.source post name := by
  unfold collect source
  split
  · rfl
  · split
    · simp [collectRunning, setStats, Function.update_apply]
    · simp only [collectFinal, (foldl_commit _ _).1]
      split <;> simp [setStats, Function.update_apply]

/-- A commit takes the numbers that are there. -/
lemma collect_committed (h : name ∈ ui.commits post) :
    (ui.collect post).committedStats name = some ((ui.source post name).getD {}) := by
  unfold commits at h
  unfold collect
  dsimp only at h
  split at h
  · cases h
  · rename_i hname
    rw [if_neg hname]
    split at h
    · rename_i hrunning
      rw [if_pos hrunning]
      split at h
      · rename_i hlast
        rw [List.mem_singleton] at h
        subst h
        simp [collectRunning, changeStrategy, hlast, setStats, source, commit]
      · cases h
    · rename_i hfinal
      rw [if_neg hfinal]
      have hstats : (ui.setStats post).stats = fun name => ui.source post name := by
        funext name
        simp [setStats, source, Function.update_apply]
      have hlast : (ui.setStats post).lastReportedStrategy = ui.lastReportedStrategy := rfl
      have htesting : (ui.setStats post).currentlyTesting = ui.currentlyTesting := rfl
      simp only [collectFinal]
      by_cases hempty : ui.lastReportedStrategy = ""
      · simp only [hempty, ne_eq, not_true_eq_false, if_false, List.nil_append, List.mem_cons] at h
        simp [commit, hlast, htesting, hempty, (foldl_commit _ _).2.2, hstats]
        grind
      · simp only [hempty, ne_eq, not_false_eq_true, if_true, List.mem_cons, List.cons_append,
          List.nil_append] at h
        simp [commit, hlast, htesting, hempty, (foldl_commit _ _).2.2, hstats]
        grind

lemma record_testResults (ui : Ui R) (strategy site : String)
    (h : post.status.strategyName ≠ "") :
    (ui.record post).testResults strategy site =
      (post.status.reports strategy site).or (ui.testResults strategy site) := by
  unfold record Status.reports
  dsimp only
  cases hresult : post.status.lastResult with
  | none => simp
  | some result =>
    by_cases hsite : post.status.lastSite = ""
    · have hreports : ¬ (post.status.strategyName = strategy ∧ post.status.lastSite = site ∧
          strategy ≠ "" ∧ site ≠ "") := by
        rintro ⟨-, rfl, -, hne⟩
        exact hne hsite
      rw [if_neg hreports, Option.none_or]
      simp only [hsite, if_true]
    · simp only [hsite, if_false, Function.update_apply]
      by_cases hstrategy : strategy = post.status.strategyName
      · subst hstrategy
        by_cases hsame : site = post.status.lastSite
        · subst hsame
          simp [h, hsite]
        · have hreports : ¬ post.status.lastSite = site := fun heq => hsame heq.symm
          simp only [Function.update_of_ne hsame, hreports, if_true, if_false, false_and, and_false,
            Option.none_or]
      · have hreports : ¬ post.status.strategyName = strategy := fun heq => hstrategy heq.symm
        simp only [hstrategy, hreports, if_false, false_and, Option.none_or]

/-- A result is recorded under the strategy and the site that the status names. -/
lemma collect_testResults : (ui.collect post).testResults strategy site =
    (post.status.reports strategy site).or (ui.testResults strategy site) := by
  unfold collect
  split
  · rename_i hempty
    have hreports : post.status.reports strategy site = none := by
      unfold Status.reports
      rw [if_neg]
      rintro ⟨hname, -, hne, -⟩
      exact hne (hname ▸ hempty)
    rw [hreports, Option.none_or]
  · rename_i hname
    split
    · rw [collectRunning, record_testResults _ _ _ hname]
      simp [setStats]
    · simp only [collectFinal, (foldl_commit _ _).2.1]
      have hrecord := record_testResults (ui.setStats post) strategy site hname
      split
      · exact hrecord
      · exact hrecord

end Collect

end Ui

structure State (R : Type) where
  /-- how many runs were launched; the jobs are numbered -/
  runs : Nat := 0
  job : Nat → Job := fun _ =>
    { batch := false, strategies := [], sites := [], phase := .done, published := false }
  currentTestJob : Option Nat := none
  isRunning : Bool := false
  statusFlow : Post R := {}
  callbacks : List (Callback R) := []
  /-- what the main thread is about to write -/
  writing : Option (Post R) := none
  ui : Ui R := {}
  /-- the value the collector took last -/
  seen : Post R := {}
  collecting : Bool := false
  /-- who published a strategy last, and what was passed to `onResult` and written -/
  publisher : String → Option Nat := fun _ => none
  called : List (Nat × String × String × R) := []
  sent : List (Nat × String × String × R) := []

inductive Act (R : Type) where
  | startTest (strategy : String) (sites : List String)
  | startBatch (strategies sites : List String)
  | stopTest
  | begin (j : Nat)
  | onResult (j : Nat) (site : String) (result : R) (success tested : Nat)
  | check (i : Nat)
  | read (i : Nat)
  | write (i : Nat)
  | leave (j : Nat)
  | flush
  | take
  | collect
  deriving DecidableEq, Repr

/-- The sites that `testStrategy` checks. -/
def sitesToTest (sites : List String) : List String :=
  sites.filter fun site => !isBlank site && !site.toList.contains '/'

def firstPost (j : Nat) (strategy : String) (sites : List String) : Post R where
  status := { strategyName := strategy, total := sites.length, isRunning := true }
  publisher := some j

/-- `copy(isRunning = false)` -/
def Post.stopped (post : Post R) (final : Option Nat) : Post R :=
  { post with status := { post.status with isRunning := false }, final }

/-- What `onResult` makes of the status it has read. -/
def Callback.post (c : Callback R) (post : Post R) : Post R where
  status := { post.status with
    lastSite := c.site, lastResult := some c.result
    success := c.success, tested := c.tested, total := c.total }
  publisher := post.publisher
  reporter := some c.run

namespace State

variable (s : State R) (j : Nat)

def setJob (job : Job) : State R := { s with job := Function.update s.job j job }

def cancelCurrent : State R :=
  match s.currentTestJob with
  | some j => { s with currentTestJob := none, job := Function.update s.job j (s.job j).cancel }
  | none => s

/-- The new job of a request. -/
def launch (job : Job) : State R :=
  { s with
    runs := s.runs + 1, job := Function.update s.job s.runs job
    currentTestJob := some s.runs, isRunning := true }

def alreadyTesting (strategy : String) : Bool :=
  s.isRunning && s.statusFlow.status.strategyName == strategy && s.statusFlow.status.isRunning

def handleStartTest (strategy : String) (sites : List String) : State R :=
  if s.alreadyTesting strategy then s
  else
    { s.cancelCurrent.launch
        { batch := false, strategies := [strategy], sites, published := true } with
      statusFlow := firstPost s.runs strategy sites
      publisher := Function.update s.publisher strategy (some s.runs) }

def handleStartBatch (strategies sites : List String) : State R :=
  if s.isRunning && s.statusFlow.status.isRunning then s
  else s.cancelCurrent.launch { batch := true, strategies, sites, published := false }

/-- The `finally` block, up to the value it reads. -/
def finish : State R :=
  if s.currentTestJob = some j then
    { s.setJob j { s.job j with phase := .ending } with
      writing := some (s.statusFlow.stopped (some j)) }
  else s.setJob j { s.job j with phase := .done }

/-- The jobs when the main thread has written; that was the end of a `finally` block or not. -/
def ended (final : Option Nat) : Nat → Job :=
  match final with
  | some j => Function.update s.job j { s.job j with phase := .done }
  | none => s.job

/-- The body of a run goes on to its next strategy. A single test published at its start. -/
def advance : State R :=
  let job := s.job j
  match job.strategies with
  | strategy :: rest =>
    if job.isActive then
      let s := s.setJob j { job with
        strategies := rest, phase := .testing strategy (sitesToTest job.sites), published := true }
      if job.batch then
        { s with
          statusFlow := firstPost j strategy job.sites
          publisher := Function.update s.publisher strategy (some j) }
      else s
    else s.finish j
  | [] => s.finish j

end State

open State

/-- Steps of the main thread wait until it has written. -/
def onMain (s : State R) (next : Option (State R)) : Option (State R) :=
  if s.writing.isNone then next else none

variable [DecidableEq R]

def step (s : State R) : Act R → Option (State R)
  | .startTest strategy sites => onMain s (some (s.handleStartTest strategy sites))
  | .startBatch strategies sites => onMain s (some (s.handleStartBatch strategies sites))
  -- so does `onDestroy`
  | .stopTest => onMain s <|
    some { s.cancelCurrent with isRunning := false, writing := some (s.statusFlow.stopped none) }
  | .begin j => onMain s <|
    if (s.job j).phase = .launched then
      -- a coroutine that is cancelled before it starts never runs
      if (s.job j).cancelled then some (s.setJob j { s.job j with phase := .done })
      else some (s.advance j)
    else none
  | .onResult j site result success tested =>
    match (s.job j).phase with
    | .testing strategy waiting =>
      if site ∈ waiting then
        let total := (sitesToTest (s.job j).sites).length
        some { s.setJob j { s.job j with phase := .testing strategy (waiting.erase site) } with
          callbacks := s.callbacks ++ [{ run := j, strategy, site, result, success, tested, total }]
          called := (j, strategy, site, result) :: s.called }
      else none
    | _ => none
  | .check i =>
    match s.callbacks[i]? with
    | some c =>
      if c.progress = .called then
        if (s.job c.run).isActive then
          some { s with callbacks := s.callbacks.set i { c with progress := .checked } }
        else some { s with callbacks := s.callbacks.eraseIdx i }
      else none
    | none => none
  | .read i =>
    match s.callbacks[i]? with
    | some c =>
      if c.progress = .checked then
        some { s with callbacks := s.callbacks.set i { c with progress := .copying s.statusFlow } }
      else none
    | none => none
  | .write i =>
    match s.callbacks[i]? with
    | some c =>
      match c.progress with
      | .copying post =>
        some { s with
          callbacks := s.callbacks.eraseIdx i, statusFlow := c.post post
          sent := (c.run, c.strategy, c.site, c.result) :: s.sent }
      | _ => none
    | none => none
  | .leave j => onMain s <|
    match (s.job j).phase with
    | .testing _ _ => if s.callbacks.any fun c => c.run == j then none else some (s.advance j)
    | _ => none
  | .flush =>
    match s.writing with
    | some post =>
      some { s with
        statusFlow := post, writing := none, isRunning := false, job := s.ended post.final }
    | none => none
  | .take => onMain s <|
    if s.collecting = false ∧ s.statusFlow.status ≠ s.seen.status then
      some { s with seen := s.statusFlow, collecting := true }
    else none
  | .collect => onMain s <|
    if s.collecting then some { s with ui := s.ui.collect s.seen, collecting := false } else none

/-- What holds of every run, whatever the schedule: only the newest run is not cancelled
before it is done, and a callback belongs to a run that is testing. -/
structure Sound (s : State R) : Prop where
  current : ∀ j, s.currentTestJob = some j → j + 1 = s.runs ∧ (s.job j).cancelled = false
  live : ∀ j, (s.job j).phase ≠ .done → (s.job j).cancelled = false → s.currentTestJob = some j
  fresh : ∀ j, s.runs ≤ j → (s.job j).phase = .done ∧ (s.job j).published = false
  testing : ∀ j strategy waiting, (s.job j).phase = .testing strategy waiting →
    (s.job j).published = true ∧ ∀ site ∈ waiting, site ≠ ""
  single : ∀ j, (s.job j).phase ≠ .done → (s.job j).batch = false → (s.job j).published = true
  callbacks : ∀ c ∈ s.callbacks,
    (∃ waiting, (s.job c.run).phase = .testing c.strategy waiting) ∧ c.site ≠ ""
  writing : ∀ post j, s.writing = some post → post.final = some j →
    s.currentTestJob = some j ∧ (s.job j).phase = .ending

section Steps

omit [DecidableEq R]

variable {s s' : State R} {i j k : Nat} {c : Callback R} {site strategy : String}

lemma onMain_some {next : Option (State R)} (h : onMain s next = some s') :
    s.writing = none ∧ next = some s' := by
  unfold onMain at h
  split at h
  · rename_i hidle
    exact ⟨Option.isNone_iff_eq_none.mp hidle, h⟩
  · cases h

lemma site_ne_empty {sites : List String} (h : site ∈ sitesToTest sites) : site ≠ "" := by
  rintro rfl
  simp only [sitesToTest, List.mem_filter, Bool.and_eq_true] at h
  exact absurd h.2.1 (by decide)

/-- What a cancelled request leaves of the jobs. -/
structure Cancelled (s s' : State R) : Prop where
  current : s'.currentTestJob = none
  job : ∀ j, (s'.job j).phase = (s.job j).phase ∧ (s'.job j).published = (s.job j).published ∧
    (s'.job j).batch = (s.job j).batch
  cancelled : ∀ j, (s.job j).phase ≠ .done → (s'.job j).cancelled = true

lemma cancelCurrent_cancelled (h : Sound s) : Cancelled s s.cancelCurrent := by
  unfold State.cancelCurrent
  cases hcurrent : s.currentTestJob with
  | none =>
    refine ⟨hcurrent, fun j => ⟨rfl, rfl, rfl⟩, ?_⟩
    intro j hphase
    cases hcancelled : (s.job j).cancelled with
    | true => rfl
    | false =>
      have hlive := h.live j hphase hcancelled
      rw [hcurrent] at hlive
      cases hlive
  | some r =>
    refine ⟨rfl, ?_, ?_⟩
    · intro j
      by_cases hj : j = r
      · subst hj
        simp only [Function.update_self, Job.cancel, and_self]
      · simp only [Function.update_of_ne hj, and_self]
    · intro j hphase
      by_cases hj : j = r
      · subst hj
        simp [Job.cancel, hphase]
      · simp only [Function.update_of_ne hj]
        cases hcancelled : (s.job j).cancelled with
        | true => rfl
        | false =>
          have hlive := h.live j hphase hcancelled
          rw [hcurrent, Option.some.injEq] at hlive
          exact absurd hlive.symm hj

@[simp] lemma cancelCurrent_runs : s.cancelCurrent.runs = s.runs := by
  unfold State.cancelCurrent
  split <;> rfl

@[simp] lemma cancelCurrent_callbacks : s.cancelCurrent.callbacks = s.callbacks := by
  unfold State.cancelCurrent
  split <;> rfl

@[simp] lemma cancelCurrent_writing : s.cancelCurrent.writing = s.writing := by
  unfold State.cancelCurrent
  split <;> rfl

lemma sound_cancel (h : Sound s) (hidle : s.writing = none) : Sound s.cancelCurrent := by
  obtain ⟨hcurrent, hjob, hcancelled⟩ := cancelCurrent_cancelled h
  constructor
  · intro j hj
    rw [hcurrent] at hj
    cases hj
  · intro j hphase hnot
    rw [(hjob j).1] at hphase
    rw [hcancelled j hphase] at hnot
    cases hnot
  · intro j hj
    rw [(hjob j).1, (hjob j).2.1]
    exact h.fresh j (by simpa using hj)
  · intro j strategy waiting hphase
    rw [(hjob j).1] at hphase
    rw [(hjob j).2.1]
    exact h.testing j strategy waiting hphase
  · intro j hphase hbatch
    rw [(hjob j).1] at hphase
    rw [(hjob j).2.2] at hbatch
    rw [(hjob j).2.1]
    exact h.single j hphase hbatch
  · intro c hc
    rw [cancelCurrent_callbacks] at hc
    rw [(hjob c.run).1]
    exact h.callbacks c hc
  · intro post j hpost
    rw [cancelCurrent_writing, hidle] at hpost
    cases hpost

/-- A request that starts a run, over jobs that are all cancelled or done. -/
lemma sound_launch (h : Sound s) (hidle : s.writing = none) (hnone : s.currentTestJob = none) {job : Job}
    (hphase : job.phase = .launched) (hnot : job.cancelled = false)
    (hsingle : job.batch = false → job.published = true) : Sound (s.launch job) := by
  have hold : ∀ c ∈ s.callbacks, c.run ≠ s.runs := by
    rintro c hc hrun
    obtain ⟨⟨waiting, htesting⟩, -⟩ := h.callbacks c hc
    rw [(h.fresh c.run hrun.ge).1] at htesting
    cases htesting
  constructor
  · intro j hj
    cases hj
    simp [State.launch, hnot]
  · intro j hj hcancelled
    by_cases hjr : j = s.runs
    · subst hjr
      rfl
    · simp only [State.launch, Function.update_of_ne hjr] at hj hcancelled
      have hlive := h.live j hj hcancelled
      rw [hnone] at hlive
      cases hlive
  · intro j hj
    simp only [State.launch] at hj
    simp only [State.launch, Function.update_of_ne (show j ≠ s.runs by omega)]
    exact h.fresh j (by omega)
  · intro j strategy waiting htesting
    by_cases hjr : j = s.runs
    · subst hjr
      simp only [State.launch, Function.update_self, hphase] at htesting
      cases htesting
    · simp only [State.launch, Function.update_of_ne hjr] at htesting ⊢
      exact h.testing j strategy waiting htesting
  · intro j hj hbatch
    by_cases hjr : j = s.runs
    · subst hjr
      simp only [State.launch, Function.update_self] at hbatch ⊢
      exact hsingle hbatch
    · simp only [State.launch, Function.update_of_ne hjr] at hj hbatch ⊢
      exact h.single j hj hbatch
  · intro c hc
    simp only [State.launch, Function.update_of_ne (hold c hc)]
    exact h.callbacks c hc
  · intro post j hpost
    have hnot : s.writing = some post := hpost
    rw [hidle] at hnot
    cases hnot

/-- A job that is not done moves on; no callback of it is under way. -/
lemma sound_setJob (h : Sound s) (hidle : s.writing = none) {job : Job}
    (hphase : (s.job j).phase ≠ .done) (hcallbacks : ∀ c ∈ s.callbacks, c.run ≠ j)
    (hcancelled : job.cancelled = (s.job j).cancelled)
    (htesting : ∀ strategy waiting, job.phase = .testing strategy waiting →
      job.published = true ∧ ∀ site ∈ waiting, site ≠ "")
    (hsingle : job.batch = false → job.published = true) : Sound (s.setJob j job) := by
  have hlt : j < s.runs := by
    by_contra hge
    exact hphase (h.fresh j (by omega)).1
  constructor
  · intro k hk
    have hcurrent := h.current k hk
    by_cases hkj : k = j
    · subst hkj
      simpa only [State.setJob, Function.update_self, hcancelled] using hcurrent
    · simpa only [State.setJob, Function.update_of_ne hkj] using hcurrent
  · intro k hk hnot
    by_cases hkj : k = j
    · subst hkj
      simp only [State.setJob, Function.update_self, hcancelled] at hnot
      exact h.live k hphase hnot
    · simp only [State.setJob, Function.update_of_ne hkj] at hk hnot
      exact h.live k hk hnot
  · intro k hk
    have hge : s.runs ≤ k := hk
    simp only [State.setJob, Function.update_of_ne (show k ≠ j by omega)]
    exact h.fresh k hk
  · intro k strategy waiting hk
    by_cases hkj : k = j
    · subst hkj
      simp only [State.setJob, Function.update_self] at hk ⊢
      exact htesting strategy waiting hk
    · simp only [State.setJob, Function.update_of_ne hkj] at hk ⊢
      exact h.testing k strategy waiting hk
  · intro k hk hbatch
    by_cases hkj : k = j
    · subst hkj
      simp only [State.setJob, Function.update_self] at hbatch ⊢
      exact hsingle hbatch
    · simp only [State.setJob, Function.update_of_ne hkj] at hk hbatch ⊢
      exact h.single k hk hbatch
  · intro c hc
    simp only [State.setJob, Function.update_of_ne (hcallbacks c hc)]
    exact h.callbacks c hc
  · intro post k hpost
    have hnot : s.writing = some post := hpost
    rw [hidle] at hnot
    cases hnot

lemma sound_finish (h : Sound s) (hidle : s.writing = none) (hphase : (s.job j).phase ≠ .done)
    (hcallbacks : ∀ c ∈ s.callbacks, c.run ≠ j) : Sound (s.finish j) := by
  unfold State.finish
  split
  · rename_i hcurrent
    have hset : Sound (s.setJob j { s.job j with phase := .ending }) :=
      sound_setJob h hidle hphase hcallbacks rfl (by rintro _ _ ⟨⟩) (h.single j hphase)
    refine ⟨hset.current, hset.live, hset.fresh, hset.testing, hset.single, hset.callbacks, ?_⟩
    rintro post k hpost hfinal
    cases hpost
    cases hfinal
    exact ⟨hcurrent, by simp only [State.setJob, Function.update_self]⟩
  · exact sound_setJob h hidle hphase hcallbacks rfl (by rintro _ _ ⟨⟩) (h.single j hphase)

lemma sound_advance (h : Sound s) (hidle : s.writing = none) (hphase : (s.job j).phase ≠ .done)
    (hcallbacks : ∀ c ∈ s.callbacks, c.run ≠ j) : Sound (s.advance j) := by
  unfold State.advance
  dsimp only
  split
  · rename_i strategy rest hrest
    split
    · have hset : Sound (s.setJob j { s.job j with
          strategies := rest
          phase := .testing strategy (sitesToTest (s.job j).sites)
          published := true }) := by
        refine sound_setJob h hidle hphase hcallbacks rfl ?_ fun _ => rfl
        rintro _ _ ⟨⟩
        exact ⟨rfl, fun site hsite => site_ne_empty hsite⟩
      split
      · exact ⟨hset.current, hset.live, hset.fresh, hset.testing, hset.single, hset.callbacks,
          hset.writing⟩
      · exact hset
    · exact sound_finish h hidle hphase hcallbacks
  · exact sound_finish h hidle hphase hcallbacks

/-- A step that leaves the jobs and takes callbacks away at most. -/
lemma sound_callbacks (h : Sound s) (hruns : s'.runs = s.runs) (hjob : s'.job = s.job)
    (hcurrent : s'.currentTestJob = s.currentTestJob) (hwriting : s'.writing = s.writing)
    (hcallbacks : ∀ c ∈ s'.callbacks, ∃ c₀ ∈ s.callbacks,
      c₀.run = c.run ∧ c₀.strategy = c.strategy ∧ c₀.site = c.site) : Sound s' := by
  refine ⟨?_, ?_, ?_, ?_, ?_, ?_, ?_⟩
  · rw [hcurrent, hruns, hjob]
    exact h.current
  · rw [hcurrent, hjob]
    exact h.live
  · rw [hruns, hjob]
    exact h.fresh
  · rw [hjob]
    exact h.testing
  · rw [hjob]
    exact h.single
  · intro c hc
    obtain ⟨c₀, hc₀, hrun, hstrategy, hsite⟩ := hcallbacks c hc
    rw [hjob, ← hrun, ← hstrategy, ← hsite]
    exact h.callbacks c₀ hc₀
  · rw [hcurrent, hwriting, hjob]
    exact h.writing

lemma callbacks_set {ws : List (Callback R)} {p : Progress R} (hi : ws[i]? = some c) :
    ∀ c' ∈ ws.set i { c with progress := p }, ∃ c₀ ∈ ws,
      c₀.run = c'.run ∧ c₀.strategy = c'.strategy ∧ c₀.site = c'.site := by
  intro c' hc'
  rcases List.mem_or_eq_of_mem_set hc' with hin | rfl
  · exact ⟨c', hin, rfl, rfl, rfl⟩
  · exact ⟨c, List.mem_of_getElem? hi, rfl, rfl, rfl⟩

lemma callbacks_eraseIdx {ws : List (Callback R)} : ∀ c' ∈ ws.eraseIdx i, ∃ c₀ ∈ ws,
    c₀.run = c'.run ∧ c₀.strategy = c'.strategy ∧ c₀.site = c'.site := by
  intro c' hc'
  exact ⟨c', List.mem_of_mem_eraseIdx hc', rfl, rfl, rfl⟩

lemma sound_start (job : Job) (h : Sound s) (hidle : s.writing = none)
    (hphase : job.phase = .launched) (hnot : job.cancelled = false)
    (hsingle : job.batch = false → job.published = true) : Sound (s.cancelCurrent.launch job) := by
  have hcancel : Sound s.cancelCurrent := sound_cancel h hidle
  refine sound_launch hcancel ?_ (cancelCurrent_cancelled h).current hphase hnot hsingle
  rwa [cancelCurrent_writing]

lemma sound_onResult {waiting : List String} {result : R} {success tested total : Nat}
    (h : Sound s) (hphase : (s.job j).phase = .testing strategy waiting) (hsite : site ∈ waiting) :
    Sound { s.setJob j { s.job j with phase := .testing strategy (waiting.erase site) } with
      callbacks := s.callbacks ++ [{ run := j, strategy, site, result, success, tested, total }]
      called := (j, strategy, site, result) :: s.called } := by
  obtain ⟨hpublished, hsites⟩ := h.testing j strategy waiting hphase
  constructor
  · intro k hk
    have hcurrent := h.current k hk
    by_cases hkj : k = j
    · subst hkj
      simpa only [State.setJob, Function.update_self] using hcurrent
    · simpa only [State.setJob, Function.update_of_ne hkj] using hcurrent
  · intro k hk hnot
    by_cases hkj : k = j
    · subst hkj
      simp only [State.setJob, Function.update_self] at hnot
      exact h.live k (by rw [hphase]; nofun) hnot
    · simp only [State.setJob, Function.update_of_ne hkj] at hk hnot
      exact h.live k hk hnot
  · intro k hk
    by_cases hkj : k = j
    · subst hkj
      rw [(h.fresh k hk).1] at hphase
      cases hphase
    · simp only [State.setJob, Function.update_of_ne hkj]
      exact h.fresh k hk
  · intro k strategy' waiting' hk
    by_cases hkj : k = j
    · subst hkj
      simp only [State.setJob, Function.update_self] at hk ⊢
      cases hk
      exact ⟨hpublished, fun site' hsite' => hsites site' (List.mem_of_mem_erase hsite')⟩
    · simp only [State.setJob, Function.update_of_ne hkj] at hk ⊢
      exact h.testing k strategy' waiting' hk
  · intro k hk hbatch
    by_cases hkj : k = j
    · subst hkj
      simpa only [State.setJob, Function.update_self] using hpublished
    · simp only [State.setJob, Function.update_of_ne hkj] at hk hbatch ⊢
      exact h.single k hk hbatch
  · intro c hc
    rcases List.mem_append.mp hc with hc | hc
    · obtain ⟨⟨waiting', htesting⟩, hne⟩ := h.callbacks c hc
      by_cases hkj : c.run = j
      · rw [hkj, hphase] at htesting
        cases htesting
        simp only [State.setJob, hkj, Function.update_self]
        exact ⟨⟨_, rfl⟩, hne⟩
      · simp only [State.setJob, Function.update_of_ne hkj]
        exact ⟨⟨waiting', htesting⟩, hne⟩
    · rw [List.mem_singleton] at hc
      subst hc
      simp only [State.setJob, Function.update_self]
      exact ⟨⟨_, rfl⟩, hsites site hsite⟩
  · intro post k hpost hfinal
    obtain ⟨hcurrent, hending⟩ := h.writing post k hpost hfinal
    refine ⟨hcurrent, ?_⟩
    have hkj : k ≠ j := by
      rintro rfl
      rw [hphase] at hending
      cases hending
    simpa only [State.setJob, Function.update_of_ne hkj] using hending

lemma sound_flush {post : Post R} (h : Sound s) (hwriting : s.writing = some post) :
    Sound { s with
      statusFlow := post, writing := none, isRunning := false, job := s.ended post.final } := by
  unfold State.ended
  cases hfinal : post.final with
  | none => exact ⟨h.current, h.live, h.fresh, h.testing, h.single, h.callbacks, by rintro _ _ ⟨⟩⟩
  | some j =>
    obtain ⟨hcurrent, hending⟩ := h.writing post j hwriting hfinal
    have hold : ∀ c ∈ s.callbacks, c.run ≠ j := by
      rintro c hc rfl
      obtain ⟨⟨waiting, htesting⟩, -⟩ := h.callbacks c hc
      rw [hending] at htesting
      cases htesting
    constructor
    · intro k hk
      have hk' := h.current k hk
      by_cases hkj : k = j
      · subst hkj
        simpa only [Function.update_self] using hk'
      · simpa only [Function.update_of_ne hkj] using hk'
    · intro k hk hnot
      by_cases hkj : k = j
      · subst hkj
        exact hcurrent
      · simp only [Function.update_of_ne hkj] at hk hnot
        exact h.live k hk hnot
    · intro k hk
      by_cases hkj : k = j
      · subst hkj
        simpa only [Function.update_self, true_and] using (h.fresh k hk).2
      · simpa only [Function.update_of_ne hkj] using h.fresh k hk
    · intro k strategy waiting hk
      by_cases hkj : k = j
      · subst hkj
        simp only [Function.update_self] at hk
        cases hk
      · simp only [Function.update_of_ne hkj] at hk ⊢
        exact h.testing k strategy waiting hk
    · intro k hk hbatch
      by_cases hkj : k = j
      · subst hkj
        simp only [Function.update_self] at hk
        exact absurd rfl hk
      · simp only [Function.update_of_ne hkj] at hk hbatch ⊢
        exact h.single k hk hbatch
    · intro c hc
      simp only [Function.update_of_ne (hold c hc)]
      exact h.callbacks c hc
    · rintro _ _ ⟨⟩

end Steps

omit [DecidableEq R] in
lemma initial_sound : Sound ({} : State R) := by
  constructor
  · rintro j ⟨⟩
  · intro j hphase
    exact absurd rfl hphase
  · intro j _
    exact ⟨rfl, rfl⟩
  · rintro j strategy waiting ⟨⟩
  · intro j hphase
    exact absurd rfl hphase
  · rintro c ⟨⟩
  · rintro post j ⟨⟩

lemma step_sound {s s' : State R} {a : Act R} (h : Sound s) (hstep : step s a = some s') :
    Sound s' := by
  cases a with
  | startTest strategy sites =>
    obtain ⟨hidle, hnext⟩ := onMain_some hstep
    cases hnext
    unfold State.handleStartTest
    split
    · exact h
    · have hstart := sound_start ⟨false, [strategy], sites, .launched, false, true⟩ h hidle rfl rfl
        fun _ => rfl
      exact ⟨hstart.current, hstart.live, hstart.fresh, hstart.testing, hstart.single,
        hstart.callbacks, hstart.writing⟩
  | startBatch strategies sites =>
    obtain ⟨hidle, hnext⟩ := onMain_some hstep
    cases hnext
    unfold State.handleStartBatch
    split
    · exact h
    · exact sound_start _ h hidle rfl rfl (by rintro ⟨⟩)
  | stopTest =>
    obtain ⟨hidle, hnext⟩ := onMain_some hstep
    cases hnext
    have hcancel := sound_cancel h hidle
    refine ⟨hcancel.current, hcancel.live, hcancel.fresh, hcancel.testing, hcancel.single,
      hcancel.callbacks, ?_⟩
    rintro post j hpost hfinal
    cases hpost
    cases hfinal
  | begin j =>
    obtain ⟨hidle, hnext⟩ := onMain_some hstep
    split at hnext
    · rename_i hphase
      have hnot : (s.job j).phase ≠ .done := by
        rw [hphase]
        nofun
      have hcallbacks : ∀ c ∈ s.callbacks, c.run ≠ j := by
        rintro c hc rfl
        obtain ⟨⟨waiting, htesting⟩, -⟩ := h.callbacks c hc
        rw [hphase] at htesting
        cases htesting
      split at hnext
      · cases hnext
        exact sound_setJob h hidle hnot hcallbacks rfl (by rintro _ _ ⟨⟩) (h.single j hnot)
      · cases hnext
        exact sound_advance h hidle hnot hcallbacks
    · cases hnext
  | onResult j site result success tested =>
    simp only [step] at hstep
    split at hstep
    · rename_i strategy waiting hphase
      split at hstep
      · rename_i hsite
        cases hstep
        exact sound_onResult h hphase hsite
      · cases hstep
    · cases hstep
  | check i =>
    simp only [step] at hstep
    split at hstep
    · rename_i c hi
      split at hstep
      · split at hstep
        · cases hstep
          exact sound_callbacks h rfl rfl rfl rfl (callbacks_set hi)
        · cases hstep
          exact sound_callbacks h rfl rfl rfl rfl callbacks_eraseIdx
      · cases hstep
    · cases hstep
  | read i =>
    simp only [step] at hstep
    split at hstep
    · rename_i c hi
      split at hstep
      · cases hstep
        exact sound_callbacks h rfl rfl rfl rfl (callbacks_set hi)
      · cases hstep
    · cases hstep
  | write i =>
    simp only [step] at hstep
    split at hstep
    · split at hstep
      · cases hstep
        exact sound_callbacks h rfl rfl rfl rfl callbacks_eraseIdx
      · cases hstep
    · cases hstep
  | leave j =>
    obtain ⟨hidle, hnext⟩ := onMain_some hstep
    split at hnext
    · rename_i strategy waiting hphase
      split at hnext
      · cases hnext
      · rename_i hnone
        cases hnext
        have hcallbacks : ∀ c ∈ s.callbacks, c.run ≠ j := by
          intro c hc hrun
          exact hnone (List.any_eq_true.mpr ⟨c, hc, by simpa using hrun⟩)
        exact sound_advance h hidle (by rw [hphase]; nofun) hcallbacks
    · cases hnext
  | flush =>
    simp only [step] at hstep
    split at hstep
    · rename_i post hwriting
      cases hstep
      exact sound_flush h hwriting
    · cases hstep
  | take =>
    obtain ⟨-, hnext⟩ := onMain_some hstep
    split at hnext
    · cases hnext
      exact ⟨h.current, h.live, h.fresh, h.testing, h.single, h.callbacks, h.writing⟩
    · cases hnext
  | collect =>
    obtain ⟨-, hnext⟩ := onMain_some hstep
    split at hnext
    · cases hnext
      exact ⟨h.current, h.live, h.fresh, h.testing, h.single, h.callbacks, h.writing⟩
    · cases hnext

end TestRuns
