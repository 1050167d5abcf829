import NoZapret.VpnService

/-!
# Whether a stopped VPN stays stopped

`tunnelLaunch` takes no lock and asks for cancellation only while it waits for
the proxy. What it does behind that wait it does in any case, so what a stop
leaves behind is decided by where the coroutines stand when it is about to
close the interface.
-/

namespace VpnRevival

open Runs VpnService

/-- On the way to a new `vpnWorkJob`. -/
def starting : Pc → Bool
  | .lockStart | .compare | .restart | .connect | .native | .settings | .establish | .launch _
  | .lockResume | .resume | .halt .restart | .engines .restart | .draining .restart _
  | .close .restart => true
  | _ => false

/-- Between the end of `waitForProxy` and the publication of `running`. -/
def writing : Pc → Bool
  | .running | .announce => true
  | _ => false

/-- Before the end of `waitForProxy`, which looks at the cancellation. -/
def waiting : Pc → Bool
  | .tunnelReady | .waitForProxy => true
  | _ => false

/-- Between the publication and `tunnel.start`. -/
def launching : Pc → Bool
  | .healthCancel | .healthLaunch | .tunnelStart => true
  | _ => false

def rests (p : Pc) : Bool := !starting p && !writing p && !waiting p && !launching p

/-- Closed now, or by the next `vpnInterface?.close()`. -/
def interfaces (st : State) : List Nat := st.vpnInterface.toList ++ st.closed

/-- No coroutine goes on to publish `running`, or to start the tunnel on a
descriptor that is closed by then. -/
structure Calm (st : State) : Prop where
  writers : ∀ d, writing (st.pc d) = false
  waiters : ∀ d, waiting (st.pc d) = true → st.cancels d = true
  launchers : ∀ d fd, launching (st.pc d) = true → st.fdOf d = some fd → fd ∉ interfaces st

/-- `ACTION_START` or `ACTION_RESUME`. -/
def asksStart : Act → Bool
  | .request _ .start | .request _ .resume => true
  | _ => false

/-- From `st` on, where `c` is about to close the interface: after the state
that `c` publishes last none with `running` is published, and `tunnel.start`
gets no closed descriptor. -/
structure StaysStopped (st : State) (c : Coro) : Prop where
  shown : ∀ as st1 a as' st2, (∀ act ∈ as ++ .go c a :: as', asksStart act = false) →
    run step st as = some st1 → st1.pc c = .publish →
    run step st1 (.go c a :: as') = some st2 →
      ∃ l, st2.published = l ++ { isError := st1.flags.isError } :: st1.published ∧
        ∀ v ∈ l, v.isRunning = false
  tunnel : ∀ as st1 d fd, (∀ act ∈ as, asksStart act = false) → run step st as = some st1 →
    st1.pc d = .tunnelStart → st1.fdOf d = some fd → fd ∉ st1.closed

/-- What a step leaves of a state, when it neither starts nor writes. -/
structure Follows (st st' : State) : Prop where
  pc : ∀ d, st'.pc d = st.pc d ∨ rests (st'.pc d) = true ∨
    (launching (st.pc d) = true ∧ launching (st'.pc d) = true)
  cancels : ∀ d, st.cancels d = true → st'.cancels d = true
  workFd : st'.workFd = st.workFd
  interfaces : ∀ fd ∈ interfaces st', fd ∈ interfaces st
  running : st'.flags.isRunning = true → st.flags.isRunning = true
  shown : ∃ l, st'.published = l ++ st.published ∧
    ∀ v ∈ l, v.isRunning = true → st.flags.isRunning = true

section Follows

variable {st s st' : State} {c : Coro} {p q : Pc} {a : Answer}

lemma follows_refl (st : State) : Follows st st :=
  ⟨fun _ => .inl rfl, fun _ h => h, rfl, fun _ h => h, id, [], rfl, by simp⟩

lemma Follows.trans (h : Follows st s) (h' : Follows s st') : Follows st st' := by
  refine ⟨?_, fun d hd => h'.cancels d (h.cancels d hd), h'.workFd.trans h.workFd,
    fun fd hfd => h.interfaces fd (h'.interfaces fd hfd), fun hr => h.running (h'.running hr), ?_⟩
  · intro d
    rcases h'.pc d with heq | hrest | ⟨hs, hl⟩
    · rw [heq]
      exact h.pc d
    · exact .inr (.inl hrest)
    · rcases h.pc d with heq | hrest | ⟨hst, -⟩
      · exact .inr (.inr ⟨heq ▸ hs, hl⟩)
      · simp [rests, hs] at hrest
      · exact .inr (.inr ⟨hst, hl⟩)
  · obtain ⟨l, hl, hlr⟩ := h.shown
    obtain ⟨l', hl', hlr'⟩ := h'.shown
    refine ⟨l' ++ l, by rw [hl', hl, List.append_assoc], ?_⟩
    intro v hv hrun
    rcases List.mem_append.mp hv with hv | hv
    · exact h.running (hlr' v hv hrun)
    · exact hlr v hv hrun

/-- A state that differs in who holds the lock, who stops, and where `c` stands. -/
lemma follows_at (hq : rests q = true ∨ (launching (st.pc c) = true ∧ launching q = true))
    (holder : Option Coro) (isStopping : Bool) :
    Follows st { st.goto c q with holder := holder, isStopping := isStopping } := by
  refine ⟨?_, ?_, rfl, fun _ h => h, id, [], rfl, by simp⟩
  · intro d
    by_cases hd : d = c
    · subst hd
      simpa [State.goto] using Or.inr hq
    · simp [State.goto, hd]
  · rintro (n | j | j | j) hd <;> exact hd

lemma follows_goto (hq : rests q = true) : Follows st (st.goto c q) :=
  follows_at (.inl hq) st.holder st.isStopping

lemma follows_release : Follows st (st.release c) :=
  follows_at (.inl rfl) none st.isStopping

lemma follows_flags {flags : VpnState} (hf : flags.isRunning = true → st.flags.isRunning = true) :
    Follows st { st with flags := flags } := by
  refine ⟨fun _ => .inl rfl, ?_, rfl, fun _ h => h, hf, [], rfl, by simp⟩
  rintro (n | j | j | j) hd <;> exact hd

lemma follows_update {r z k d e : Bool} (hr : r = true → st.flags.isRunning = true) :
    Follows st (st.update r z k d e) := by
  refine ⟨fun _ => .inl rfl, ?_, rfl, fun _ h => h, hr, [⟨r, z, k, d, e⟩], rfl, ?_⟩
  · rintro (n | j | j | j) hd <;> exact hd
  · simpa using hr

lemma follows_fail : Follows st st.fail := follows_flags id

lemma cancels_more (works healths : List Nat) {d : Coro} (h : st.cancels d = true) :
    State.cancels { st with
      cancelledWorks := works ++ st.cancelledWorks
      cancelledHealths := healths ++ st.cancelledHealths } d = true := by
  rcases d with n | j | j | j
  · exact h
  all_goals
    simp only [State.cancels, Bool.or_eq_true, List.contains_iff_mem, List.mem_append] at h ⊢
    tauto

lemma follows_cancelJobs : Follows st st.cancelJobs := by
  refine ⟨fun _ => .inl rfl, ?_, rfl, fun _ h => h, id, [], rfl, by simp⟩
  intro d hd
  exact cancels_more _ _ hd

lemma follows_cancelHealth : Follows st st.cancelHealth := by
  refine ⟨fun _ => .inl rfl, ?_, rfl, fun _ h => h, id, [], rfl, by simp⟩
  intro d hd
  exact cancels_more [] _ hd

lemma follows_acquire (hq : rests q = true) (h : st.acquire c q = some st') : Follows st st' := by
  unfold State.acquire at h
  split at h
  · cases h
    exact follows_at (.inl hq) (some c) st.isStopping
  · split at h
    · cases h
    · split at h
      · cases h
        exact follows_release
      · cases h
        exact follows_goto rfl

lemma follows_suspend (hs : Follows st s) (h : st.suspend c s = some st') : Follows st st' := by
  unfold State.suspend at h
  split at h
  · cases h
    exact follows_release
  · cases h
    exact hs

lemma follows_exited : Follows st (st.exited c a) := by
  unfold State.exited
  split
  · split
    · exact follows_fail.trans (follows_goto rfl)
    · exact follows_goto rfl
  · exact follows_goto rfl

lemma follows_close : Follows st { st with
    closed := st.vpnInterface.toList ++ st.closed, vpnInterface := none
    flags := { isError := st.flags.isError } } := by
  refine ⟨fun _ => .inl rfl, ?_, rfl, ?_, (fun hr => by cases hr), [], rfl, by simp⟩
  · rintro (n | j | j | j) hd <;> exact hd
  · intro fd hfd
    simpa [VpnRevival.interfaces] using hfd

lemma follows_cancelService : Follows st { st.goto c .ended with cancelled := true } := by
  refine ⟨(follows_goto rfl).pc, ?_, rfl, fun _ h => h, id, [], rfl, by simp⟩
  rintro (n | j | j | j) - <;> rfl

lemma follows_healthLaunch (hpc : st.pc c = .healthLaunch) :
    Follows st { (st.goto (.health st.healths) .delay).goto c .tunnelStart with
      healthCheckJob := some st.healths, healths := st.healths + 1 } := by
  refine ⟨?_, ?_, rfl, fun _ h => h, id, [], rfl, by simp⟩
  · intro d
    by_cases hd : d = c
    · subst hd
      right
      right
      simp [State.goto, hpc, launching]
    · by_cases hh : d = .health st.healths
      · subst hh
        right
        left
        simp only [State.goto, Function.update_of_ne hd, Function.update_self]
        rfl
      · left
        simp [State.goto, hd, hh]
  · rintro (n | j | j | j) hd <;> exact hd

/-- A step of a coroutine that neither starts nor writes, nor waits uncancelled. -/
theorem go_follows (hstart : starting (st.pc c) = false) (hwrite : writing (st.pc c) = false)
    (hwait : waiting (st.pc c) = true → st.cancels c = true) (h : go st c a = some st') :
    Follows st st' := by
  cases hpc : st.pc c <;> rw [hpc] at hstart hwrite hwait <;> try cases hstart
  all_goals simp only [go, hpc, stopAsync, stopInternal, pauseResume, workers, reduceCtorEq] at h
  case lockStop | lockPause | lockDestroy => exact follows_acquire rfl h
  case gate =>
    split at h
    · cases h
      exact follows_release
    · split at h <;> cases h
      · exact follows_release.trans (follows_flags (fun hr => by cases hr))
      · refine ((follows_update ?_).trans (follows_at (.inl rfl) _ true))
        exact id
  case publish =>
    cases h
    exact (follows_update (fun hr => by cases hr)).trans (follows_goto rfl)
  case unlock =>
    cases h
    exact follows_at (.inl rfl) none false
  case halt w =>
    cases w with
    | restart => cases hstart
    | stop =>
      cases h
      exact follows_cancelJobs.trans (follows_goto rfl)
  case engines w =>
    cases w with
    | restart => cases hstart
    | stop => exact follows_suspend (follows_goto rfl) h
  case draining w n =>
    cases w with
    | restart => cases hstart
    | stop =>
      refine follows_suspend ?_ h
      split <;> exact follows_goto rfl
  case close w =>
    cases w with
    | restart => cases hstart
    | stop =>
      cases h
      exact follows_close.trans (follows_goto rfl)
  case pause =>
    cases h
    exact ((follows_update (fun hr => by cases hr)).trans follows_cancelJobs).trans
      (follows_goto rfl)
  case pauseEngines => exact follows_suspend (follows_goto rfl) h
  case pauseDraining n =>
    refine follows_suspend ?_ h
    split <;> exact follows_goto rfl
  case paused =>
    cases h
    exact (follows_update (fun hr => by cases hr)).trans follows_release
  case cleanup =>
    cases h
    exact follows_at (.inl rfl) none st.isStopping
  case cancelService =>
    cases h
    exact follows_cancelService
  case proxyReady =>
    cases h
    split <;> exact follows_goto rfl
  case proxyRunning | tunnelRunning =>
    cases h
    exact follows_exited
  case tunnelReady =>
    cases h
    rw [if_pos (hwait rfl)]
    exact follows_goto rfl
  case waitForProxy =>
    rw [if_pos (hwait rfl)] at h
    cases h
    exact follows_goto rfl
  case running | announce => cases hwrite
  case healthCancel =>
    cases h
    refine follows_cancelHealth.trans (follows_at (.inr ⟨?_, rfl⟩) st.holder st.isStopping)
    change launching (st.pc c) = true
    rw [hpc]
    rfl
  case healthLaunch =>
    cases h
    exact follows_healthLaunch hpc
  case tunnelStart =>
    cases h
    exact follows_goto rfl
  case delay =>
    cases h
    split <;> exact follows_goto rfl
  case check =>
    split at h <;> cases h
    · exact follows_fail.trans (follows_goto rfl)
    · exact follows_goto rfl

lemma launching_only (h : launching p = true) :
    starting p = false ∧ writing p = false ∧ waiting p = false := by
  cases p <;> first | exact ⟨rfl, rfl, rfl⟩ | cases h

/-- A request that does not ask to start, or a query. -/
lemma request_follows {act : Act} (hask : asksStart act = false) (hgo : ∀ c a, act ≠ .go c a)
    (h : step st act = some st') : Follows st st' := by
  cases act with
  | go c a => exact absurd rfl (hgo c a)
  | query =>
    cases h
    refine ⟨fun _ => .inl rfl, ?_, rfl, fun _ h => h, id, [st.flags], rfl, by simp⟩
    rintro (n | j | j | j) hd <;> exact hd
  | request n kind =>
    simp only [step] at h
    split at h
    · cases h
      refine follows_at (.inl ?_) st.holder _
      cases kind <;> cases hask <;> split <;> rfl
    · cases h

/-- Nothing starts in a calm state: neither does anything later. -/
structure Settled (st : State) : Prop where
  starters : ∀ d, starting (st.pc d) = false
  calm : Calm st

theorem step_settled {act : Act} (hs : Settled st) (hask : asksStart act = false)
    (h : step st act = some st') : Settled st' ∧ Follows st st' := by
  have hfollows : Follows st st' := by
    by_cases hgo : ∃ c a, act = .go c a
    · obtain ⟨c, a, rfl⟩ := hgo
      exact go_follows (hs.starters c) (hs.calm.writers c) (hs.calm.waiters c) h
    · exact request_follows hask (fun c a heq => hgo ⟨c, a, heq⟩) h
  refine ⟨⟨?_, ?_, ?_, ?_⟩, hfollows⟩
  · intro d
    rcases hfollows.pc d with heq | hrest | ⟨-, hl⟩
    · rw [heq]
      exact hs.starters d
    · simp only [rests, Bool.and_eq_true, Bool.not_eq_true'] at hrest
      exact hrest.1.1.1
    · exact (launching_only hl).1
  · intro d
    rcases hfollows.pc d with heq | hrest | ⟨-, hl⟩
    · rw [heq]
      exact hs.calm.writers d
    · simp only [rests, Bool.and_eq_true, Bool.not_eq_true'] at hrest
      exact hrest.1.1.2
    · exact (launching_only hl).2.1
  · intro d hd
    rcases hfollows.pc d with heq | hrest | ⟨-, hl⟩
    · rw [heq] at hd
      exact hfollows.cancels d (hs.calm.waiters d hd)
    · simp [rests, hd] at hrest
    · rw [(launching_only hl).2.2] at hd
      cases hd
  · intro d fd hd hfd hmem
    have hfd' : st.fdOf d = some fd := by
      rw [← hfd]
      cases d <;> simp [State.fdOf, hfollows.workFd]
    refine hs.calm.launchers d fd ?_ hfd' (hfollows.interfaces fd hmem)
    rcases hfollows.pc d with heq | hrest | ⟨hl, -⟩
    · rw [← heq]
      exact hd
    · simp [rests, hd] at hrest
    · exact hl

theorem run_settled {as : List Act} (hs : Settled st) (hask : ∀ act ∈ as, asksStart act = false)
    (hrun : run step st as = some st') : Settled st' ∧ Follows st st' := by
  induction as generalizing st with
  | nil =>
    cases hrun
    exact ⟨hs, follows_refl _⟩
  | cons act as ih =>
    obtain ⟨s, hstep, hrest⟩ := run_cons_some hrun
    obtain ⟨hs', hf⟩ := step_settled hs (hask act (by simp)) hstep
    obtain ⟨hlast, hf'⟩ := ih hs' (fun b hb => hask b (by simp [hb])) hrest
    exact ⟨hlast, hf.trans hf'⟩

end Follows

section Revival

variable {st : State} {c d : Coro} {fd : Nat}

/-- Some run without a start publishes a running state next. -/
def Revives (st : State) : Prop :=
  ∃ as st' v, (∀ act ∈ as, asksStart act = false) ∧ run step st as = some st' ∧
    st'.published = v :: st.published ∧ v.isRunning = true

lemma announces (hpc : st.pc d = .announce) : Revives st := by
  obtain ⟨st', hst', hpub⟩ : ∃ st', workers st d .yes .announce = some st' ∧
      st'.published = ⟨true, false, false, false, false⟩ :: st.published := ⟨_, rfl, rfl⟩
  have hstep : step st (.go d .yes) = some st' := by
    simp only [step, go, hpc, hst']
  exact ⟨[.go d .yes], st', _, by simp [asksStart], by rw [run_cons hstep, run_nil], hpub, rfl⟩

/-- A step that publishes nothing leaves the rest to come. -/
lemma Revives.before {st' : State} (h : Revives st')
    (hstep : step st (.go d .yes) = some st') (hpub : st'.published = st.published) :
    Revives st := by
  obtain ⟨as, st2, v, hask, hrun, hv, hr⟩ := h
  refine ⟨.go d .yes :: as, st2, v, ?_, by rw [run_cons hstep, hrun], by rw [hv, hpub], hr⟩
  simpa [asksStart] using hask

lemma writes_on (h : writing (st.pc d) = true) : Revives st := by
  cases hpc : st.pc d <;> rw [hpc] at h <;> try cases h
  case announce => exact announces hpc
  case running =>
    obtain ⟨st', hst', hpc', hpub⟩ : ∃ st', workers st d .yes .running = some st' ∧
        st'.pc = Function.update st.pc d .announce ∧ st'.published = st.published :=
      ⟨_, rfl, rfl, rfl⟩
    have hstep : step st (.go d .yes) = some st' := by
      simp only [step, go, hpc, hst']
    have hann : st'.pc d = .announce := by rw [hpc', Function.update_self]
    exact Revives.before (announces hann) hstep hpub

lemma waits_on (h : waiting (st.pc d) = true) (hc : st.cancels d = false) : Revives st := by
  have hlast : ∀ {st : State}, st.pc d = .waitForProxy → st.cancels d = false → Revives st := by
    intro st hpc hc
    have hstep : step st (.go d .yes) = some (st.goto d .running) := by
      simp [step, go, hpc, workers, hc]
    have hwrite : writing ((st.goto d .running).pc d) = true := by
      simp [State.goto, writing]
    exact Revives.before (writes_on hwrite) hstep rfl
  cases hpc : st.pc d <;> rw [hpc] at h <;> try cases h
  case waitForProxy => exact hlast hpc hc
  case tunnelReady =>
    have hstep : step st (.go d .yes) = some (st.goto d .waitForProxy) := by
      simp [step, go, hpc, workers, hc]
    have hcancels : (st.goto d .waitForProxy).cancels d = false := by
      cases d <;> exact hc
    refine Revives.before (hlast ?_ hcancels) hstep rfl
    simp [State.goto]

/-- Some run without a start calls `tunnel.start` for `d`. -/
def Launches (st : State) (d : Coro) : Prop :=
  ∃ as st', (∀ act ∈ as, asksStart act = false) ∧ run step st as = some st' ∧
    st'.pc d = .tunnelStart ∧ st'.fdOf d = st.fdOf d ∧ st'.closed = st.closed

lemma Launches.before {st' : State} (h : Launches st' d)
    (hstep : step st (.go d .yes) = some st') (hfd : st'.fdOf d = st.fdOf d)
    (hclosed : st'.closed = st.closed) : Launches st d := by
  obtain ⟨as, st2, hask, hrun, hpc, hfd2, hclosed2⟩ := h
  refine ⟨.go d .yes :: as, st2, ?_, by rw [run_cons hstep, hrun], hpc, hfd2.trans hfd,
    hclosed2.trans hclosed⟩
  simpa [asksStart] using hask

/-- Nothing keeps a launching coroutine from starting the tunnel. -/
lemma launches_on (h : launching (st.pc d) = true) : Launches st d := by
  have hlast : ∀ {st : State}, st.pc d = .healthLaunch → Launches st d := by
    intro st hpc
    obtain ⟨st', hst', hpc', hfd, hclosed⟩ : ∃ st', workers st d .yes .healthLaunch = some st' ∧
        st'.pc d = .tunnelStart ∧ st'.fdOf d = st.fdOf d ∧ st'.closed = st.closed := by
      refine ⟨_, rfl, ?_, ?_, rfl⟩
      · simp [State.goto]
      · cases d <;> rfl
    have hstep : step st (.go d .yes) = some st' := by
      simp only [step, go, hpc, hst']
    exact Launches.before ⟨[], st', by simp, rfl, hpc', rfl, rfl⟩ hstep hfd hclosed
  cases hpc : st.pc d <;> rw [hpc] at h <;> try cases h
  case tunnelStart => exact ⟨[], st, by simp, rfl, hpc, rfl, rfl⟩
  case healthLaunch => exact hlast hpc
  case healthCancel =>
    have hstep : step st (.go d .yes) = some (st.cancelHealth.goto d .healthLaunch) := by
      simp [step, go, hpc, workers]
    refine Launches.before (hlast ?_) hstep ?_ rfl
    · simp [State.goto]
    · cases d <;> rfl

/-- The two steps with which a stop closes the interface and publishes its end. -/
lemma stop_ends (hclose : st.pc c = .close .stop) :
    ∃ st1 st2, step st (.go c .no) = some st1 ∧ st1.pc c = .publish ∧
      step st1 (.go c .no) = some st2 ∧
      st2.published = { isError := st1.flags.isError } :: st1.published ∧
      st1.closed = interfaces st ∧
      ∀ d, d ≠ c → st1.pc d = st.pc d ∧ st1.fdOf d = st.fdOf d ∧ st2.pc d = st.pc d ∧
        st2.cancels d = st.cancels d := by
  obtain ⟨st1, hst1, hpc1, hclosed, hothers⟩ : ∃ st1,
      stopInternal st c .no (.close .stop) = some st1 ∧ st1.pc c = .publish ∧
        st1.closed = interfaces st ∧ ∀ d, d ≠ c → st1.pc d = st.pc d ∧
          st1.fdOf d = st.fdOf d ∧ st1.cancels d = st.cancels d := by
    refine ⟨_, rfl, by simp [State.goto], rfl, ?_⟩
    intro d hd
    refine ⟨by simp [State.goto, hd], ?_, ?_⟩ <;> cases d <;> rfl
  obtain ⟨st2, hst2, hpub, hothers'⟩ : ∃ st2, stopAsync st1 c .publish = some st2 ∧
      st2.published = { isError := st1.flags.isError } :: st1.published ∧
        ∀ d, d ≠ c → st2.pc d = st1.pc d ∧ st2.cancels d = st1.cancels d := by
    refine ⟨_, rfl, rfl, ?_⟩
    intro d hd
    refine ⟨by simp [State.goto, State.update, hd], ?_⟩
    cases d <;> rfl
  have hstep1 : step st (.go c .no) = some st1 := by
    simp only [step, go, hclose, hst1]
  have hstep2 : step st1 (.go c .no) = some st2 := by
    simp only [step, go, hpc1, hst2]
  refine ⟨st1, st2, hstep1, hpc1, hstep2, hpub, hclosed, ?_⟩
  intro d hd
  obtain ⟨h1, h2, h3⟩ := hothers d hd
  obtain ⟨h4, h5⟩ := hothers' d hd
  exact ⟨h1, h2, h4.trans h1, h5.trans h3⟩

/-- A stop after which nothing revives finds the service calm. -/
lemma calm_of_stays (hclose : st.pc c = .close .stop) (hstays : StaysStopped st c) : Calm st := by
  obtain ⟨st1, st2, hstep1, hpc1, hstep2, hpub, hclosed, hothers⟩ := stop_ends hclose
  have hdead : ¬ Revives st2 := by
    rintro ⟨as, st3, v, hask, hrun, hv, hr⟩
    obtain ⟨l, hl, hoff⟩ := hstays.shown [.go c .no] st1 .no as st3
      (by simpa [asksStart] using hask) (by rw [run_cons hstep1, run_nil]) hpc1
      (by rw [run_cons hstep2, hrun])
    have hcons : l ++ { isError := st1.flags.isError } :: st1.published =
        [v] ++ { isError := st1.flags.isError } :: st1.published := by
      rw [← hl, hv, hpub]
      rfl
    have hl' : l = [v] := List.append_cancel_right hcons
    have hfalse := hoff v (by simp [hl'])
    rw [hr] at hfalse
    cases hfalse
  have hne : ∀ d, (writing (st.pc d) = true ∨ waiting (st.pc d) = true ∨
      launching (st.pc d) = true) → d ≠ c := by
    rintro d hd rfl
    rw [hclose] at hd
    simp [writing, waiting, launching] at hd
  refine ⟨?_, ?_, ?_⟩
  · intro d
    by_contra hd
    have hd : writing (st.pc d) = true := by simpa using hd
    obtain ⟨-, -, hpc2, -⟩ := hothers d (hne d (.inl hd))
    exact hdead (writes_on (hpc2 ▸ hd))
  · intro d hd
    by_contra hc
    have hc : st.cancels d = false := by simpa using hc
    obtain ⟨-, -, hpc2, hc2⟩ := hothers d (hne d (.inr (.inl hd)))
    exact hdead (waits_on (hpc2 ▸ hd) (hc2 ▸ hc))
  · intro d fd hd hfd hmem
    obtain ⟨hpcd, hfd1, -, -⟩ := hothers d (hne d (.inr (.inr hd)))
    have hlaunch : launching (st1.pc d) = true := by
      rw [hpcd]
      exact hd
    obtain ⟨as, st3, hask, hrun, hpc3, hfd3, hclosed3⟩ := launches_on hlaunch
    refine hstays.tunnel (.go c .no :: as) st3 d fd (by simpa [asksStart] using hask)
      (by rw [run_cons hstep1, hrun]) hpc3 ?_ ?_
    · rw [hfd3, hfd1, hfd]
    · rw [hclosed3, hclosed]
      exact hmem

/-- In a calm state nothing that is still running revives the service. -/
lemma stays_of_settled (hs : Settled st) : StaysStopped st c := by
  constructor
  · intro as st1 a as' st2 hask hrun hpub hrun'
    have hask1 : ∀ act ∈ as, asksStart act = false := fun act hact => hask act (by simp [hact])
    have hask2 : ∀ act ∈ as', asksStart act = false := fun act hact => hask act (by simp [hact])
    obtain ⟨hs1, -⟩ := run_settled hs hask1 hrun
    obtain ⟨s, hstep, hrest⟩ := run_cons_some hrun'
    obtain ⟨hs2, -⟩ := step_settled hs1 rfl hstep
    obtain ⟨-, hfollows⟩ := run_settled hs2 hask2 hrest
    obtain ⟨l, hl, hoff⟩ := hfollows.shown
    simp only [step, go, hpub, stopAsync] at hstep
    cases hstep
    refine ⟨l, hl, ?_⟩
    intro v hv
    by_contra hr
    have hrun := hoff v hv (by simpa using hr)
    cases hrun
  · intro as st1 d fd hask hrun hpc hfd hmem
    obtain ⟨hs1, -⟩ := run_settled hs hask hrun
    refine hs1.calm.launchers d fd (by rw [hpc]; rfl) hfd ?_
    exact List.mem_append_right _ hmem

end Revival

/-- A stop that is about to close the interface, with no start or resume waiting
for the lock, is final exactly when no `tunnelLaunch` is behind its wait for the
proxy (or still in it, uncancelled) without having got as far as a running
tunnel. -/
theorem stays_stopped_iff (st : State) (c : Coro) (hclose : st.pc c = .close .stop)
    (hstart : ∀ d, starting (st.pc d) = false) : StaysStopped st c ↔ Calm st := by
  constructor
  · exact calm_of_stays hclose
  · intro hcalm
    exact stays_of_settled ⟨hstart, hcalm⟩

/-- A start in VPN mode up to the proxy's answer. -/
def proxyAnswered : List Act :=
  [.request 0 .start, .go (.request 0) .no, .go (.request 0) .no, .go (.request 0) .no,
    .go (.request 0) .no, .go (.request 0) .no, .go (.request 0) .yes, .go (.request 0) .yes,
    .go (.request 0) .yes, .go (.proxyLaunch 0) .yes, .go (.tunnelLaunch 0) .yes,
    .go (.tunnelLaunch 0) .yes]

/-- `ACTION_STOP` up to the closing of the interface. -/
def stopping : List Act :=
  [.request 1 .stop, .go (.request 1) .no, .go (.request 1) .no, .go (.request 1) .no,
    .go (.request 1) .no, .go (.request 1) .no]

lemma settled_of_rests (h : ∀ d, rests (st.pc d) = true) :
    (∀ d, starting (st.pc d) = false) ∧ Calm st := by
  have hparts : ∀ d, starting (st.pc d) = false ∧ writing (st.pc d) = false ∧
      waiting (st.pc d) = false ∧ launching (st.pc d) = false := by
    intro d
    have hd := h d
    simp only [rests, Bool.and_eq_true, Bool.not_eq_true'] at hd
    obtain ⟨⟨⟨hstart, hwrite⟩, hwait⟩, hlaunch⟩ := hd
    exact ⟨hstart, hwrite, hwait, hlaunch⟩
  refine ⟨fun d => (hparts d).1, fun d => (hparts d).2.1, ?_, ?_⟩
  · intro d hwait
    rw [(hparts d).2.2.1] at hwait
    cases hwait
  · intro d fd hlaunch
    rw [(hparts d).2.2.2] at hlaunch
    cases hlaunch

/-- The stop comes once the tunnel runs. -/
lemma tunnel_rests :
    ∃ st, run step {} (proxyAnswered ++ List.replicate 5 (.go (.tunnelLaunch 0) .yes) ++
        stopping) = some st ∧ st.pc (.request 1) = .close .stop ∧
          ∀ d, rests (st.pc d) = true := by
  refine ⟨_, rfl, rfl, ?_⟩
  intro d
  match d with
  | .request 0 | .request 1 | .request (n + 2) => rfl
  | .proxyLaunch 0 | .proxyLaunch (n + 1) => rfl
  | .tunnelLaunch 0 | .tunnelLaunch (n + 1) => rfl
  | .health 0 | .health (n + 1) => rfl

/-- Nothing comes back then. -/
theorem stays_stopped_iff_tunnel :
    ∃ st, run step {} (proxyAnswered ++ List.replicate 5 (.go (.tunnelLaunch 0) .yes) ++
        stopping) = some st ∧ StaysStopped st (.request 1) := by
  obtain ⟨st, hrun, hclose, hrests⟩ := tunnel_rests
  obtain ⟨hstart, hcalm⟩ := settled_of_rests hrests
  exact ⟨st, hrun, (stays_stopped_iff st (.request 1) hclose hstart).mpr hcalm⟩

/-- The proxy answers just before the stop: `tunnelLaunch` publishes a running
VPN behind the stop's last state and starts the tunnel on the closed descriptor. -/
theorem late_launch_revives :
    ∃ st, run step {} (proxyAnswered ++ stopping) = some st ∧
      st.pc (.request 1) = .close .stop ∧ (∀ d, starting (st.pc d) = false) ∧
        ¬ StaysStopped st (.request 1) := by
  refine ⟨_, rfl, rfl, ?_, ?_⟩
  · intro d
    match d with
    | .request 0 | .request 1 | .request (n + 2) => rfl
    | .proxyLaunch 0 | .proxyLaunch (n + 1) => rfl
    | .tunnelLaunch 0 | .tunnelLaunch (n + 1) => rfl
    | .health n => rfl
  · intro hstays
    have hcalm := calm_of_stays rfl hstays
    have hwriter := hcalm.writers (.tunnelLaunch 0)
    cases hwriter

end VpnRevival
