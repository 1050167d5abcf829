import NoZapret.VpnLock

/-!
# Stopping the service

`stopVpnInternal` cancels `vpnWorkJob` and `healthCheckJob` and then suspends. A
stop that runs in a coroutine of one of these jobs throws there and leaves
`isStopping` set. `stopClean` says that a stop runs in a coroutine that nothing
cancels, and that `tunnelLaunch` does not write between its last publication and
its end; then every stop that passes the gate is complete when it ends.
-/

namespace VpnStop

open Mutex Runs VpnService VpnLock

/-- In `stopVpnInternal`, called by `stopVpnAsync`, where it can still throw. -/
def suspendable : Pc → Bool
  | .halt .stop | .engines .stop | .draining .stop _ => true
  | _ => false

/-- Is the coroutine part of a job that `stopVpnInternal` cancels now? -/
def ownJob (st : State) : Coro → Bool
  | .request _ => false
  | .proxyLaunch j | .tunnelLaunch j => st.vpnWorkJob == some j
  | .health j => st.healthCheckJob == some j

/-- The condition on a step. -/
def stopClean (st : State) : Act → Bool
  | .go c _ =>
    match st.pc c with
    | .gate => st.isStopping || st.idle || (!st.cancels c && !ownJob st c)
    | .cancelService => !st.holder.any fun d => suspendable (st.pc d)
    | .running | .announce => !st.holder.any fun d => st.pc d == .unlock
    | _ => true
  | .request _ _ | .query => true

/-- What `updateVpnState` published last shows no phase of a connection. -/
def shownOff (st : State) : Prop := ∀ v, st.published.head? = some v → v.off = true

structure StopInv (st : State) : Prop where
  ordered : Ordered st
  spared : ∀ c, suspendable (st.pc c) = true → st.cancels c = false ∧ ownJob st c = false
  cleared : ∀ c, st.pc c = .publish ∨ st.pc c = .unlock → st.vpnInterface = none
  done : ∀ c, st.pc c = .unlock → st.flags.off = true ∧ shownOff st
  quiet : (∃ c, st.pc c = .publish ∨ st.pc c = .connect) ∨
    (st.idle = true → st.flags.off = true ∧ shownOff st)

/-- The four phases without `isError`. -/
def phases (v : VpnState) : Bool × Bool × Bool × Bool :=
  (v.isRunning, v.isPaused, v.isConnecting, v.isDisconnecting)

/-- What a step outside the lock can do, made at program point `p`. -/
structure Outside (st st' : State) (p : Pc) : Prop where
  vpnInterface : st'.vpnInterface = st.vpnInterface
  closed : st'.closed = st.closed
  isStopping : st'.isStopping = true → st.isStopping = true
  vpnWorkJob : st'.vpnWorkJob = st.vpnWorkJob
  cancelledWorks : st'.cancelledWorks = st.cancelledWorks
  cancelled : st'.cancelled = st.cancelled ∨ p = .cancelService
  cancelledHealths : st'.cancelledHealths = st.cancelledHealths ∨
    st'.cancelledHealths = st.healthCheckJob.toList ++ st.cancelledHealths
  healthCheckJob : st'.healthCheckJob = st.healthCheckJob ∨ st'.healthCheckJob = some st.healths
  shown : (phases st'.flags = phases st.flags ∧
      (st'.published = st.published ∨ st'.published = st.flags :: st.published)) ∨
    ((p = .running ∨ p = .announce) ∧ st'.flags.isRunning = true)

section Outside

variable {st st' : State} {c : Coro} {p q : Pc} {a : Answer}

lemma outside_refl (st : State) (p : Pc) : Outside st st p :=
  ⟨rfl, rfl, id, rfl, rfl, .inl rfl, .inl rfl, .inl rfl, .inl ⟨rfl, .inl rfl⟩⟩

/-- Where a coroutine stands and who holds the lock are not part of this. -/
lemma Outside.moved {pc : Coro → Pc} {holder : Option Coro} (h : Outside st st' p) :
    Outside st { st' with pc := pc, holder := holder } p :=
  ⟨h.vpnInterface, h.closed, h.isStopping, h.vpnWorkJob, h.cancelledWorks, h.cancelled,
    h.cancelledHealths, h.healthCheckJob, h.shown⟩

lemma outside_goto (st : State) (c : Coro) (p q : Pc) : Outside st (st.goto c q) p :=
  (outside_refl st p).moved

lemma outside_fail (st : State) (c : Coro) (p q : Pc) : Outside st (st.fail.goto c q) p :=
  ⟨rfl, rfl, id, rfl, rfl, .inl rfl, .inl rfl, .inl rfl, .inl ⟨rfl, .inl rfl⟩⟩

lemma outside_acquire (h : st.acquire c q = some st') : Outside st st' p := by
  unfold State.acquire at h
  split at h
  · cases h
    exact (outside_refl st p).moved
  · split at h
    · cases h
    · split at h
      · cases h
        exact (outside_refl st p).moved
      · cases h
        exact outside_goto st c p .ended

lemma outside_exited : Outside st (st.exited c a) p := by
  unfold State.exited
  split
  · split
    · exact outside_fail st c p .lockStop
    · exact outside_goto st c p .lockStop
  · exact outside_goto st c p .ended

theorem go_outside (hc : (st.pc c).locked = false) (h : go st c a = some st') :
    Outside st st' (st.pc c) := by
  cases hpc : st.pc c <;> rw [hpc] at hc <;> try cases hc
  all_goals simp only [go, hpc, stopAsync, handleStart, pauseResume, workers, reduceCtorEq] at h
  case lockStop | lockStart | lockResume | lockPause | lockDestroy => exact outside_acquire h
  case cancelService =>
    cases h
    exact ⟨rfl, rfl, id, rfl, rfl, .inr rfl, .inl rfl, .inl rfl, .inl ⟨rfl, .inl rfl⟩⟩
  case proxyReady | tunnelReady | delay | tunnelStart =>
    cases h
    exact outside_goto st c _ _
  case proxyRunning | tunnelRunning =>
    cases h
    exact outside_exited
  case waitForProxy =>
    split at h
    · cases h
      exact outside_goto st c _ _
    · split at h <;> cases h
      · exact outside_goto st c _ _
      · exact outside_fail st c _ _
  case running =>
    cases h
    exact ⟨rfl, rfl, id, rfl, rfl, .inl rfl, .inl rfl, .inl rfl, .inr ⟨.inl rfl, rfl⟩⟩
  case announce =>
    cases h
    exact ⟨rfl, rfl, id, rfl, rfl, .inl rfl, .inl rfl, .inl rfl, .inr ⟨.inr rfl, rfl⟩⟩
  case healthCancel =>
    cases h
    exact ⟨rfl, rfl, id, rfl, rfl, .inl rfl, .inr rfl, .inl rfl, .inl ⟨rfl, .inl rfl⟩⟩
  case healthLaunch =>
    cases h
    exact ⟨rfl, rfl, id, rfl, rfl, .inl rfl, .inl rfl, .inr rfl, .inl ⟨rfl, .inl rfl⟩⟩
  case check =>
    split at h <;> cases h
    · exact outside_fail st c _ _
    · exact outside_goto st c _ _

/-- A coroutine that no job of the service owns stays spared. -/
lemma Outside.spared (h : Outside st st' p) (hf : Fresh st) {d : Coro} (hd : st.pc d ≠ .absent)
    (hp : p ≠ .cancelService) (hcan : st.cancels d = false) (hown : ownJob st d = false) :
    st'.cancels d = false ∧ ownJob st' d = false := by
  have hc := h.cancelled.resolve_right hp
  cases d with
  | request n => exact ⟨by simpa only [State.cancels, hc] using hcan, rfl⟩
  | proxyLaunch j | tunnelLaunch j =>
    simp only [State.cancels, ownJob, hc, h.cancelledWorks, h.vpnWorkJob] at hcan hown ⊢
    exact ⟨hcan, hown⟩
  | health j =>
    simp only [State.cancels, ownJob, hc, Bool.or_eq_false_iff, beq_eq_false_iff_ne, ne_eq,
      List.contains_eq_mem, decide_eq_false_iff_not] at hcan hown ⊢
    refine ⟨⟨hcan.1, ?_⟩, ?_⟩
    · rcases h.cancelledHealths with heq | heq
      · rw [heq]
        exact hcan.2
      · rw [heq, List.mem_append, not_or, Option.mem_toList]
        exact ⟨hown, hcan.2⟩
    · rcases h.healthCheckJob with heq | heq
      · rw [heq]
        exact hown
      · rw [heq]
        intro hj
        obtain rfl := Option.some.inj hj
        exact hd (hf.health _ (Nat.le_refl _))

end Outside

section Preserved

variable {st st' : State} {c : Coro} {p : Pc} {a : Answer}

/-- A program point that `StopInv` speaks of. -/
def deep : Pc → Bool
  | .publish | .unlock | .connect => true
  | p => suspendable p

lemma deep_locked (h : deep p = true) : p.locked = true := by
  cases p <;> first | rfl | cases h

lemma suspendable_deep (h : suspendable p = true) : deep p = true := by
  cases p <;> first | exact h | cases h

lemma idle_of_phases (h : phases st'.flags = phases st.flags)
    (hi : st'.vpnInterface = st.vpnInterface) : st'.idle = st.idle := by
  simp only [phases, Prod.mk.injEq] at h
  simp only [State.idle, h.1, h.2.1, h.2.2.1, hi]

lemma off_of_phases {v w : VpnState} (h : phases v = phases w) : v.off = w.off := by
  simp only [phases, Prod.mk.injEq] at h
  simp only [VpnState.off, h.1, h.2.1, h.2.2.1, h.2.2.2]

lemma shownOff_cons {v : VpnState} (hpub : st'.published = v :: st.published)
    (hv : v.off = true) : shownOff st' := by
  intro w hw
  rw [hpub] at hw
  cases hw
  exact hv

/-- A step outside the lock keeps the invariant. -/
lemma outside_inv (hs : StopInv st) (ho : Ordered st') (hout : Outside st st' p)
    (hnew : ∀ d, deep (st'.pc d) = true → st'.pc d = st.pc d)
    (hold : ∀ d, st.pc d = .publish ∨ st.pc d = .connect → st'.pc d = st.pc d)
    (hcan : p = .cancelService → ∀ d, suspendable (st.pc d) = false)
    (hrun : p = .running ∨ p = .announce → ∀ d, st.pc d ≠ .unlock) : StopInv st' := by
  refine ⟨ho, ?_, ?_, ?_, ?_⟩
  · intro d hd
    have heq := hnew d (suspendable_deep hd)
    rw [heq] at hd
    obtain ⟨h1, h2⟩ := hs.spared d hd
    refine hout.spared hs.ordered.fresh ?_ ?_ h1 h2
    · rintro habs
      rw [habs] at hd
      cases hd
    · intro hp
      rw [hcan hp d] at hd
      cases hd
  · intro d hd
    have heq := hnew d (by rcases hd with h | h <;> rw [h] <;> rfl)
    rw [heq] at hd
    exact hout.vpnInterface.trans (hs.cleared d hd)
  · intro d hd
    have heq := hnew d (by rw [hd]; rfl)
    rw [heq] at hd
    obtain ⟨hoff, hshown⟩ := hs.done d hd
    rcases hout.shown with ⟨hph, hpub⟩ | ⟨hp, -⟩
    · refine ⟨(off_of_phases hph).trans hoff, ?_⟩
      rcases hpub with hsame | hcons
      · intro v hv
        exact hshown v (hsame ▸ hv)
      · exact shownOff_cons hcons hoff
    · exact absurd hd (hrun hp d)
  · rcases hs.quiet with ⟨d, hd⟩ | hq
    · left
      refine ⟨d, ?_⟩
      rw [hold d hd]
      exact hd
    · right
      intro hidle
      rcases hout.shown with ⟨hph, hpub⟩ | ⟨-, hrunning⟩
      · rw [idle_of_phases hph hout.vpnInterface] at hidle
        obtain ⟨hoff, hshown⟩ := hq hidle
        refine ⟨(off_of_phases hph).trans hoff, ?_⟩
        rcases hpub with hsame | hcons
        · intro v hv
          exact hshown v (hsame ▸ hv)
        · exact shownOff_cons hcons hoff
      · simp [State.idle, hrunning] at hidle

lemma acquire_landing {q : Pc} (hq : deep q = false) (h : st.acquire c q = some st') :
    deep (st'.pc c) = false := by
  unfold State.acquire at h
  split at h
  · cases h
    simpa [State.goto] using hq
  · split at h
    · cases h
    · split at h <;> cases h <;> simp [State.goto, State.release, deep, suspendable]

/-- A coroutine that comes from outside does not land deep inside. -/
lemma go_landing (hc : (st.pc c).locked = false) (h : go st c a = some st') :
    deep (st'.pc c) = false := by
  have hland : ∀ {s : State} {q : Pc}, deep q = false → s.pc = Function.update st.pc c q →
      deep (s.pc c) = false := by
    intro s q hq hpc
    rw [hpc, Function.update_self]
    exact hq
  cases hpc : st.pc c <;> rw [hpc] at hc <;> try cases hc
  all_goals simp only [go, hpc, stopAsync, handleStart, pauseResume, workers, reduceCtorEq] at h
  case lockStop | lockStart | lockResume | lockPause | lockDestroy => exact acquire_landing rfl h
  case cancelService | healthCancel | tunnelStart | running =>
    cases h
    exact hland rfl rfl
  case proxyReady | tunnelReady | delay | announce =>
    cases h
    refine hland ?_ rfl
    split <;> rfl
  case proxyRunning | tunnelRunning =>
    cases h
    unfold State.exited
    split
    · split <;> exact hland rfl rfl
    · exact hland rfl rfl
  case waitForProxy =>
    split at h
    · cases h
      exact hland rfl rfl
    · split at h <;> cases h <;> exact hland rfl rfl
  case healthLaunch =>
    cases h
    simp [State.goto, deep, suspendable]
  case check => split at h <;> cases h <;> exact hland rfl rfl

/-- What remains to be shown for a step of the coroutine inside the lock. -/
structure Settles (st' : State) (p : Pc) (c : Coro) : Prop where
  spared : suspendable p = true → st'.cancels c = false ∧ ownJob st' c = false
  cleared : p = .publish ∨ p = .unlock → st'.vpnInterface = none
  done : p = .unlock → st'.flags.off = true ∧ shownOff st'
  quiet : (p = .publish ∨ p = .connect) ∨ (st'.idle = true → st'.flags.off = true ∧ shownOff st')

/-- A program point that only the quiet clause concerns. -/
lemma settles_plain (hp : deep p = false)
    (hq : st'.idle = true → st'.flags.off = true ∧ shownOff st') : Settles st' p c := by
  refine ⟨?_, ?_, ?_, .inr hq⟩
  · intro h
    rw [suspendable_deep h] at hp
    cases hp
  · rintro (rfl | rfl) <;> cases hp
  · rintro rfl
    cases hp

lemma inside_inv (hs : StopInv st) (ho : Ordered st') (hin : (st.pc c).locked = true)
    (hmoved : Moved st st' c) (hset : Settles st' (st'.pc c) c) : StopInv st' := by
  have honly : ∀ d, deep (st'.pc d) = true → d = c := by
    intro d hd
    by_contra hne
    rcases hmoved.others d hne with heq | ⟨-, hnew⟩
    · rw [heq] at hd
      exact hne (hs.ordered.exclusive.unique (deep_locked hd) hin)
    · have hl := deep_locked hd
      rw [launched_out hnew] at hl
      cases hl
  refine ⟨ho, ?_, ?_, ?_, ?_⟩
  · intro d hd
    obtain rfl := honly d (suspendable_deep hd)
    exact hset.spared hd
  · intro d hd
    obtain rfl := honly d (by rcases hd with h | h <;> rw [h] <;> rfl)
    exact hset.cleared hd
  · intro d hd
    obtain rfl := honly d (by rw [hd]; rfl)
    exact hset.done hd
  · rcases hset.quiet with hpc | hq
    · exact .inl ⟨c, hpc⟩
    · exact .inr hq

/-- The quiet clause, when the coroutine inside is not about to publish. -/
lemma quiet_here (hs : StopInv st) (hin : (st.pc c).locked = true) (h1 : st.pc c ≠ .publish)
    (h2 : st.pc c ≠ .connect) : st.idle = true → st.flags.off = true ∧ shownOff st := by
  rcases hs.quiet with ⟨d, hd⟩ | hq
  · obtain rfl : d = c := hs.ordered.exclusive.unique (deep_locked
      (by rcases hd with h | h <;> rw [h] <;> rfl)) hin
    exact absurd hd (by simp [h1, h2])
  · exact hq

lemma cancelJobs_spared (hcan : st.cancels c = false) (hown : ownJob st c = false) :
    st.cancelJobs.cancels c = false ∧ ownJob st.cancelJobs c = false := by
  cases c with
  | request n => exact ⟨hcan, rfl⟩
  | proxyLaunch j | tunnelLaunch j | health j =>
    simp only [State.cancels, ownJob, State.cancelJobs, Bool.or_eq_false_iff, beq_eq_false_iff_ne,
      ne_eq, List.contains_eq_mem, decide_eq_false_iff_not, List.mem_append, not_or,
      Option.mem_toList] at hcan hown ⊢
    exact ⟨⟨hcan.1, hown, hcan.2⟩, by simp⟩

lemma settles_suspend {s : State} (hq : st.idle = true → st.flags.off = true ∧ shownOff st)
    (hnext : Settles s (s.pc c) c) (h : st.suspend c s = some st') : Settles st' (st'.pc c) c := by
  unfold State.suspend at h
  split at h
  · cases h
    refine settles_plain ?_ hq
    simp [State.release, State.goto, deep, suspendable]
  · cases h
    exact hnext

lemma settles_goto {s : State} {q : Pc} (hpc : s.pc = Function.update st.pc c q)
    (h : Settles s q c) : Settles s (s.pc c) c := by
  rw [hpc, Function.update_self]
  exact h

/-- Every step inside the lock settles. -/
theorem go_settles (hs : StopInv st) (hin : (st.pc c).locked = true)
    (hok : stopClean st (.go c a) = true) (h : go st c a = some st') :
    Settles st' (st'.pc c) c := by
  have hq := quiet_here hs hin
  have hspared := hs.spared c
  have hcleared := hs.cleared c
  have hdone := hs.done c
  simp only [stopClean] at hok
  cases hpc : st.pc c <;> rw [hpc] at hin hok hq hspared hcleared hdone <;> try cases hin
  case gate =>
    have hq := hq (by decide) (by decide)
    simp only [go, hpc, stopAsync] at h
    split at h
    · cases h
      exact settles_goto rfl (settles_plain rfl hq)
    · next hgate =>
      split at h
      · next hidle =>
        cases h
        exact settles_goto rfl (settles_plain rfl fun _ => ⟨rfl, (hq hidle).2⟩)
      · next hidle =>
        cases h
        have hfree : st.cancels c = false ∧ ownJob st c = false := by
          simpa [hgate, hidle] using hok
        exact settles_goto rfl ⟨fun _ => hfree, by simp, by simp, .inr fun hi => absurd hi hidle⟩
  case publish =>
    simp only [go, hpc, stopAsync] at h
    cases h
    have hshown : shownOff ((st.update false false false false st.flags.isError).goto c .unlock) :=
      shownOff_cons rfl rfl
    exact settles_goto rfl ⟨by simp [suspendable], fun _ => hcleared (.inl rfl),
      fun _ => ⟨rfl, hshown⟩, .inr fun _ => ⟨rfl, hshown⟩⟩
  case unlock =>
    simp only [go, hpc, stopAsync] at h
    cases h
    exact settles_goto rfl (settles_plain rfl fun _ => hdone rfl)
  case halt w =>
    simp only [go, hpc, stopInternal] at h
    cases h
    refine settles_goto rfl ⟨?_, by simp, by simp, .inr (hq (by simp) (by simp))⟩
    intro hsus
    cases w with
    | stop =>
      obtain ⟨h1, h2⟩ := hspared rfl
      have hcancels : st.cancelJobs.cancels c = false ∧ ownJob st.cancelJobs c = false :=
        cancelJobs_spared h1 h2
      exact hcancels
    | restart => cases hsus
  case engines w =>
    simp only [go, hpc, stopInternal] at h
    refine settles_suspend (hq (by simp) (by simp)) (settles_goto rfl ?_) h
    refine ⟨?_, by simp, by simp, .inr (hq (by simp) (by simp))⟩
    intro hsus
    cases w with
    | stop => exact hspared rfl
    | restart => cases hsus
  case draining w n =>
    simp only [go, hpc, stopInternal] at h
    refine settles_suspend (hq (by simp) (by simp)) ?_ h
    split
    · refine settles_goto rfl ⟨?_, by simp, by simp, .inr (hq (by simp) (by simp))⟩
      intro hsus
      cases w with
      | stop => exact hspared rfl
      | restart => cases hsus
    · exact settles_goto rfl (settles_plain rfl (hq (by simp) (by simp)))
  case close w =>
    simp only [go, hpc, stopInternal] at h
    cases h
    refine settles_goto rfl ?_
    cases w with
    | stop => exact ⟨by simp [suspendable], fun _ => rfl, by simp, .inl (.inl rfl)⟩
    | restart => exact ⟨by simp [suspendable], by simp, by simp, .inl (.inr rfl)⟩
  case compare =>
    have hq := hq (by decide) (by decide)
    simp only [go, hpc, handleStart] at h
    split at h
    · cases h
      refine settles_goto rfl (settles_plain rfl ?_)
      intro hi
      obtain ⟨hoff, -⟩ := hq hi
      exact ⟨hoff, shownOff_cons rfl hoff⟩
    · cases h
      exact settles_goto rfl (settles_plain rfl hq)
  case restart =>
    simp only [go, hpc, handleStart] at h
    split at h
    · cases h
      exact settles_goto rfl (settles_plain rfl (hq (by decide) (by decide)))
    · cases h
      exact settles_goto rfl ⟨by simp [suspendable], by simp, by simp, .inl (.inr rfl)⟩
  case connect =>
    simp only [go, hpc, handleStart] at h
    cases h
    exact settles_goto rfl (settles_plain rfl fun hi => by cases hi)
  case native =>
    simp only [go, hpc, handleStart] at h
    refine settles_suspend (hq (by decide) (by decide)) ?_ h
    exact settles_goto rfl (settles_plain rfl (hq (by decide) (by decide)))
  case settings =>
    simp only [go, hpc, startInternal] at h
    refine settles_suspend (hq (by decide) (by decide)) ?_ h
    cases a <;> exact settles_goto rfl (settles_plain rfl (hq (by decide) (by decide)))
  case establish =>
    simp only [go, hpc, startInternal] at h
    cases a with
    | yes =>
      cases h
      exact settles_goto rfl (settles_plain rfl fun hi => by simp [State.idle] at hi)
    | no | fails =>
      cases h
      exact settles_goto rfl (settles_plain rfl (hq (by decide) (by decide)))
  case launch fd =>
    simp only [go, hpc, startInternal] at h
    have hq := hq (by simp) (by simp)
    cases a with
    | yes | no =>
      cases h
      exact settles_goto rfl (settles_plain rfl hq)
    | fails =>
      cases h
      exact settles_goto rfl (settles_plain rfl hq)
  case resume =>
    simp only [go, hpc, pauseResume] at h
    split at h
    · cases h
      exact settles_goto rfl (settles_plain rfl fun hi => by cases hi)
    · cases h
      exact settles_goto rfl (settles_plain rfl (hq (by decide) (by decide)))
  case pause =>
    simp only [go, hpc, pauseResume] at h
    cases h
    exact settles_goto rfl (settles_plain rfl fun hi => by cases hi)
  case pauseEngines =>
    simp only [go, hpc, pauseResume] at h
    refine settles_suspend (hq (by decide) (by decide)) ?_ h
    exact settles_goto rfl (settles_plain rfl (hq (by decide) (by decide)))
  case pauseDraining n =>
    simp only [go, hpc, pauseResume] at h
    refine settles_suspend (hq (by simp) (by simp)) ?_ h
    split <;> exact settles_goto rfl (settles_plain rfl (hq (by simp) (by simp)))
  case paused =>
    simp only [go, hpc, pauseResume] at h
    cases h
    exact settles_goto rfl (settles_plain rfl fun hi => by cases hi)
  case cleanup =>
    simp only [go, hpc, pauseResume] at h
    cases h
    exact settles_goto rfl (settles_plain rfl (hq (by decide) (by decide)))

lemma request_outside {n : Nat} {kind : Kind} (h : step st (.request n kind) = some st') :
    Outside st st' .absent := by
  simp only [step] at h
  split at h
  · cases h
    refine ⟨rfl, rfl, ?_, rfl, rfl, .inl rfl, .inl rfl, .inl rfl, .inl ⟨rfl, .inl rfl⟩⟩
    intro hst
    exact (Bool.and_eq_true_iff.mp hst).1
  · cases h

lemma query_outside (h : step st .query = some st') : Outside st st' .absent := by
  cases h
  exact ⟨rfl, rfl, id, rfl, rfl, .inl rfl, .inl rfl, .inl rfl, .inl ⟨rfl, .inr rfl⟩⟩

theorem step_inv {act : Act} (hs : StopInv st) (hok : stopClean st act = true)
    (h : step st act = some st') : StopInv st' := by
  have ho := step_ordered hs.ordered h
  cases act with
  | request n kind =>
    obtain ⟨habs, -, -, hout, hsame⟩ := request_moved hs.ordered.fresh h
    refine outside_inv hs ho (request_outside h) ?_ ?_ (by simp) (by simp)
    · intro d hd
      by_cases hn : d = .request n
      · subst hn
        rw [deep_locked hd] at hout
        cases hout
      · exact hsame d hn
    · intro d hd
      by_cases hn : d = .request n
      · subst hn
        rw [habs] at hd
        simp at hd
      · exact hsame d hn
  | go c a =>
    have hmoved := go_moved hs.ordered.fresh (hs.ordered.exclusive c) h
    cases hin : (st.pc c).locked with
    | true => exact inside_inv hs ho hin hmoved (go_settles hs hin hok h)
    | false =>
      refine outside_inv hs ho (go_outside hin h) ?_ ?_ ?_ ?_
      · intro d hd
        by_cases hdc : d = c
        · subst hdc
          rw [go_landing hin h] at hd
          cases hd
        · rcases hmoved.others d hdc with heq | ⟨-, hnew⟩
          · exact heq
          · have hl := deep_locked hd
            rw [launched_out hnew] at hl
            cases hl
      · intro d hd
        have hdc : d ≠ c := by
          rintro rfl
          rw [deep_locked (by rcases hd with h | h <;> rw [h] <;> rfl)] at hin
          cases hin
        rcases hmoved.others d hdc with heq | ⟨habs, -⟩
        · exact heq
        · rw [habs] at hd
          simp at hd
      · intro hp d
        by_contra hsus
        have hsus : suspendable (st.pc d) = true := by simpa using hsus
        have hholder := hs.ordered.exclusive d (deep_locked (suspendable_deep hsus))
        simp [stopClean, hp, hholder, hsus] at hok
      · intro hp d hd
        have hholder := hs.ordered.exclusive d (by rw [hd]; rfl)
        rcases hp with hp | hp <;> simp [stopClean, hp, hholder, hd] at hok
  | query =>
    cases h
    exact outside_inv hs ho (query_outside rfl) (fun _ _ => rfl) (fun _ _ => rfl) (by simp) (by simp)

end Preserved

lemma stopInv_init : StopInv {} := by
  have hshown : shownOff {} := by
    intro v hv
    cases hv
    rfl
  refine ⟨ordered_init, ?_, fun _ _ => rfl, fun _ _ => ⟨rfl, hshown⟩, .inr fun _ => ⟨rfl, hshown⟩⟩
  intro c hc
  cases hc

/-- All of a stop is done. `i` is the interface that was up when it passed the gate. -/
structure Complete (i : Option Nat) (st : State) : Prop where
  vpnInterface : st.vpnInterface = none
  closed : ∀ j, i = some j → j ∈ st.closed
  flags : st.flags.off = true
  shown : shownOff st
  isStopping : st.isStopping = false

/-- Between the gate and the closing of the interface. -/
def beforeClose : Pc → Bool
  | .gate | .halt .stop | .engines .stop | .draining .stop _ | .close .stop => true
  | _ => false

/-- `c` is in a stop that has passed the gate or is about to. -/
structure Underway (i : Option Nat) (c : Coro) (s : State) : Prop where
  point : beforeClose (s.pc c) = true ∨ s.pc c = .publish ∨ s.pc c = .unlock
  first : s.pc c = .gate → s.isStopping = false
  up : beforeClose (s.pc c) = true → s.vpnInterface = i
  shut : s.pc c = .publish ∨ s.pc c = .unlock → ∀ j, i = some j → j ∈ s.closed

section Stop

variable {s s' : State} {c : Coro} {i : Option Nat} {a : Answer}

lemma Underway.locked (h : Underway i c s) : (s.pc c).locked = true := by
  rcases h.point with hb | hp | hp
  · cases hpc : s.pc c <;> rw [hpc] at hb <;> first | rfl | cases hb
  · rw [hp]
    rfl
  · rw [hp]
    rfl

lemma underway_goto {p : Pc} (hpc : s'.pc = Function.update s.pc c p) (hp : beforeClose p = true)
    (hg : p ≠ .gate) (hi : s'.vpnInterface = i) : Underway i c s' := by
  have hat : s'.pc c = p := by rw [hpc, Function.update_self]
  refine ⟨.inl (hat ▸ hp), fun h => absurd (hat.symm.trans h) hg, fun _ => hi, ?_⟩
  rw [hat]
  rintro (rfl | rfl) <;> cases hp

lemma suspend_spared {next : State} (hcan : s.cancels c = false)
    (h : s.suspend c next = some s') : s' = next := by
  simp only [State.suspend, hcan, Bool.false_eq_true, if_false, Option.some.injEq] at h
  exact h.symm

/-- One step of the stop itself: it is complete, or still under way. -/
theorem stop_go (hs : StopInv s) (hu : Underway i c s) (h : go s c a = some s') :
    (s'.pc c = .ended ∧ Complete i s') ∨ Underway i c s' := by
  have hq := quiet_here hs hu.locked
  have hspared := hs.spared c
  have hpoint := hu.point
  have hup := hu.up
  have hshut := hu.shut
  have hfirst := hu.first
  cases hpc : s.pc c <;> rw [hpc] at hpoint hup hshut hfirst hq hspared <;>
    try (simp [beforeClose] at hpoint; done)
  case gate =>
    simp only [go, hpc, stopAsync, hfirst rfl, Bool.false_eq_true, if_false] at h
    split at h
    · next hidle =>
      obtain ⟨-, hshown⟩ := hq (by decide) (by decide) hidle
      have hnone : s.vpnInterface = none := by
        simp only [State.idle, Bool.and_eq_true, Option.isNone_iff_eq_none] at hidle
        exact hidle.2
      cases h
      left
      refine ⟨by simp [State.release, State.goto], hnone, ?_, rfl, hshown, hfirst rfl⟩
      intro j hj
      rw [← hup rfl, hnone] at hj
      cases hj
    · cases h
      exact .inr (underway_goto rfl rfl (by simp) (hup rfl))
  case publish =>
    simp only [go, hpc, stopAsync] at h
    cases h
    right
    have hat : ((s.update false false false false s.flags.isError).goto c .unlock).pc c = .unlock :=
      Function.update_self _ _ _
    refine ⟨.inr (.inr hat), fun hg => absurd (hat.symm.trans hg) (by simp), ?_,
      fun _ => hshut (.inl rfl)⟩
    intro hb
    rw [hat] at hb
    cases hb
  case unlock =>
    simp only [go, hpc, stopAsync] at h
    cases h
    obtain ⟨hoff, hshown⟩ := hs.done c hpc
    left
    exact ⟨by simp [State.release, State.goto], hs.cleared c (.inr hpc), hshut (.inr rfl), hoff,
      hshown, rfl⟩
  case halt w =>
    cases w with
    | restart => simp [beforeClose] at hpoint
    | stop =>
      simp only [go, hpc, stopInternal] at h
      cases h
      exact .inr (underway_goto rfl rfl (by simp) (hup rfl))
  case engines w =>
    cases w with
    | restart => simp [beforeClose] at hpoint
    | stop =>
      simp only [go, hpc, stopInternal] at h
      obtain rfl := suspend_spared (hspared rfl).1 h
      exact .inr (underway_goto rfl rfl (by simp) (hup rfl))
  case draining w n =>
    cases w with
    | restart => simp [beforeClose] at hpoint
    | stop =>
      simp only [go, hpc, stopInternal] at h
      obtain rfl := suspend_spared (hspared rfl).1 h
      right
      split <;> exact underway_goto rfl rfl (by simp) (hup rfl)
  case close w =>
    cases w with
    | restart => simp [beforeClose] at hpoint
    | stop =>
      simp only [go, hpc, stopInternal] at h
      cases h
      right
      have hat : (s.goto c .publish).pc c = .publish := Function.update_self _ _ _
      refine ⟨.inr (.inl hat), fun hg => absurd (hat.symm.trans hg) (by simp), ?_, ?_⟩
      · intro hb
        rw [show _ = Pc.publish from hat] at hb
        cases hb
      · intro _ j hj
        rw [← hup rfl] at hj
        simp [hj]

/-- A step of anything else leaves a stop where it is. -/
lemma underway_other {act : Act} (hs : StopInv s) (hu : Underway i c s)
    (hne : ∀ a, act ≠ .go c a) (h : step s act = some s') : Underway i c s' := by
  have hmine := hs.ordered.exclusive c hu.locked
  have hkeep : ∀ {p : Pc}, Outside s s' p → s'.pc c = s.pc c → Underway i c s' := by
    intro p hout hpc
    refine ⟨hpc ▸ hu.point, ?_, ?_, ?_⟩
    · intro hg
      have hfirst := hu.first (hpc ▸ hg)
      cases hst : s'.isStopping with
      | false => rfl
      | true =>
        rw [hout.isStopping hst] at hfirst
        cases hfirst
    · exact fun hb => hout.vpnInterface.trans (hu.up (hpc ▸ hb))
    · exact fun hp => hout.closed ▸ hu.shut (hpc ▸ hp)
  have hhere : s.pc c ≠ .absent := by
    intro habs
    have hl := hu.locked
    rw [habs] at hl
    cases hl
  cases act with
  | request n kind =>
    obtain ⟨habs, -, -, -, hsame⟩ := request_moved hs.ordered.fresh h
    refine hkeep (request_outside h) (hsame c ?_)
    rintro rfl
    exact hhere habs
  | go d a =>
    have hdc : c ≠ d := by
      rintro rfl
      exact hne a rfl
    have hmoved := go_moved hs.ordered.fresh (hs.ordered.exclusive d) h
    have hout : (s.pc d).locked = false := by
      cases hl : (s.pc d).locked with
      | false => rfl
      | true => exact absurd (hs.ordered.exclusive.unique hu.locked hl) hdc
    rcases hmoved.others c hdc with heq | ⟨habs, -⟩
    · exact hkeep (go_outside hout h) heq
    · exact absurd habs hhere
  | query => exact hkeep (query_outside h) (by cases h; rfl)

/-- A stop that has begun and not ended is under way. -/
def Begun (i : Option Nat) (c : Coro) (s : State) : Prop :=
  StopInv s ∧ (s.pc c = .ended ∨ Underway i c s)

lemma step_begun {act : Act} (hb : Begun i c s) (hok : stopClean s act = true)
    (h : step s act = some s') : Begun i c s' := by
  obtain ⟨hs, hended | hu⟩ := hb
  · refine ⟨step_inv hs hok h, .inl ?_⟩
    cases act with
    | request n kind =>
      obtain ⟨habs, -, -, -, hsame⟩ := request_moved hs.ordered.fresh h
      rw [hsame c (by rintro rfl; rw [habs] at hended; cases hended)]
      exact hended
    | go d a =>
      have hdc : c ≠ d := by
        rintro rfl
        simp [step, go, hended] at h
      have hmoved := go_moved hs.ordered.fresh (hs.ordered.exclusive d) h
      rcases hmoved.others c hdc with heq | ⟨habs, -⟩
      · exact heq.trans hended
      · rw [habs] at hended
        cases hended
    | query =>
      cases h
      exact hended
  · refine ⟨step_inv hs hok h, ?_⟩
    by_cases hact : ∃ a, act = .go c a
    · obtain ⟨a, rfl⟩ := hact
      rcases stop_go hs hu h with ⟨hended, -⟩ | hu'
      · exact .inl hended
      · exact .inr hu'
    · exact .inr (underway_other hs hu (fun a heq => hact ⟨a, heq⟩) h)

/-- What the coroutine of a stop does to its end, by its own steps. -/
def Ends (i : Option Nat) (c : Coro) (s : State) : Prop := s.pc c = .ended ∧ Complete i s

lemma underway_runs (hs : StopInv s) (hu : Underway i c s) (answers : List Answer)
    (hok : Meets (fun s a => go s c a) (fun s a => stopClean s (.go c a) = true) s answers)
    (hlen : 42 ≤ answers.length) :
    ∃ m ≤ 42, ∃ s', run (fun s a => go s c a) s (answers.take m) = some s' ∧ Ends i c s' := by
  have hstep : ∀ (s : State) (a : Answer), (StopInv s ∧ (Ends i c s ∨ Underway i c s)) →
      ¬ Ends i c s → stopClean s (.go c a) = true → ∃ s', go s c a = some s' ∧
        (StopInv s' ∧ (Ends i c s' ∨ Underway i c s')) ∧
        (Ends i c s' ∨ rank (s'.pc c) < rank (s.pc c)) := by
    rintro s a ⟨hs, hor⟩ hnot hclean
    have hu := hor.resolve_left hnot
    have hans : answerClean s c a = true := by
      have hpoint := hu.point
      unfold answerClean
      split
      · next hpc => rw [hpc] at hpoint; simp [beforeClose] at hpoint
      · next hpc => rw [hpc] at hpoint; simp [beforeClose] at hpoint
      · rfl
    obtain ⟨s', hgo, hnear⟩ := go_nearer (hs.ordered.exclusive c hu.locked) hu.locked a hans
    have hs' : StopInv s' := by
      have hact : step s (.go c a) = some s' := hgo
      exact step_inv hs hclean hact
    rcases stop_go hs hu hgo with hends | hu'
    · exact ⟨s', hgo, ⟨hs', .inl hends⟩, .inl hends⟩
    · refine ⟨s', hgo, ⟨hs', .inr hu'⟩, .inr ?_⟩
      rcases hnear with hfree | ⟨-, -, hlt⟩
      · rw [hs'.ordered.exclusive c hu'.locked] at hfree
        cases hfree
      · exact hlt
  have hnot : ¬ Ends i c s := by
    rintro ⟨hended, -⟩
    have hl := hu.locked
    rw [hended] at hl
    cases hl
  have hle := rank_le (s.pc c)
  obtain ⟨m, hm, s', hrun, hends⟩ := finishes_within (fun s => rank (s.pc c)) hstep
    ⟨hs, .inr hu⟩ hnot hok (by omega)
  exact ⟨m, by omega, s', hrun, hends⟩

end Stop

/-- In a run whose steps are clean, a stop that stands at the open gate in `st` is
complete when it ends, and until then its own next 42 steps complete it. -/
theorem stop_all_or_nothing (as as' : List Act) (st st1 : State) (c : Coro)
    (hok : Meets step (fun s act => stopClean s act = true) {} as)
    (hrun : run step {} as = some st) (hgate : st.pc c = .gate) (hopen : st.isStopping = false)
    (hok' : Meets step (fun s act => stopClean s act = true) st as')
    (hrun' : run step st as' = some st1) (hnot : st1.pc c ≠ .ended) :
    (∀ a st2, step st1 (.go c a) = some st2 → st2.pc c = .ended → Complete st.vpnInterface st2) ∧
      ∀ answers : List Answer,
        Meets (fun s a => go s c a) (fun s a => stopClean s (.go c a) = true) st1 answers →
        42 ≤ answers.length → ∃ m ≤ 42, ∃ st2,
          run (fun s a => go s c a) st1 (answers.take m) = some st2 ∧ st2.pc c = .ended ∧
            Complete st.vpnInterface st2 := by
  have hinv : StopInv st :=
    run_preserves (fun _ _ _ hs hok h => step_inv hs hok h) stopInv_init hok hrun
  have hstart : Underway st.vpnInterface c st := by
    refine ⟨.inl (by rw [hgate]; rfl), fun _ => hopen, fun _ => rfl, ?_⟩
    rw [hgate]
    simp
  have hbegun : Begun st.vpnInterface c st1 :=
    run_preserves (fun _ _ _ hb hok h => step_begun hb hok h) ⟨hinv, .inr hstart⟩ hok' hrun'
  obtain ⟨hs1, hor⟩ := hbegun
  have hu := hor.resolve_left hnot
  constructor
  · intro a st2 hstep hended
    rcases stop_go hs1 hu hstep with ⟨-, hcomplete⟩ | hu'
    · exact hcomplete
    · have hl := hu'.locked
      rw [hended] at hl
      cases hl
  · exact fun answers hmeets hlen => underway_runs hs1 hu answers hmeets hlen

/-- A VPN start that gets as far as the running tunnel. -/
def started : List Act :=
  [.request 0 .start, .go (.request 0) .no, .go (.request 0) .no, .go (.request 0) .no,
    .go (.request 0) .no, .go (.request 0) .no, .go (.request 0) .yes, .go (.request 0) .yes,
    .go (.request 0) .yes, .go (.proxyLaunch 0) .yes, .go (.tunnelLaunch 0) .yes,
    .go (.tunnelLaunch 0) .yes, .go (.tunnelLaunch 0) .yes, .go (.tunnelLaunch 0) .yes,
    .go (.tunnelLaunch 0) .yes, .go (.tunnelLaunch 0) .yes, .go (.tunnelLaunch 0) .yes]

/-- `ACTION_STOP` while the tunnel runs. -/
theorem stop_all_or_nothing_action :
    ∃ st, run step {} (started ++ [.request 1 .stop, .go (.request 1) .yes]) = some st ∧
      st.vpnInterface = some 0 ∧ ∃ m ≤ 42, ∃ st2,
        run (fun s a => go s (.request 1) a) st ((List.replicate 42 Answer.no).take m) = some st2 ∧
          st2.pc (.request 1) = .ended ∧ Complete (some 0) st2 := by
  refine ⟨_, rfl, rfl, ?_⟩
  have h := stop_all_or_nothing (started ++ [.request 1 .stop, .go (.request 1) .yes]) [] _ _
    (.request 1) (by decide) rfl rfl rfl (by decide) rfl (by decide)
  exact h.2 (List.replicate 42 .no) (by decide) (by decide)

/-- The proxy exits while the tunnel runs: its coroutine passes the gate, cancels
the job it belongs to and throws. The interface stays open, the VPN counts as
running, and `isStopping` turns every later stop away. -/
theorem proxy_exit_stops_half_way :
    ∃ st, run step {} (started ++ [.go (.proxyLaunch 0) .fails, .go (.proxyLaunch 0) .yes]) =
        some st ∧ st.pc (.proxyLaunch 0) = .gate ∧ st.isStopping = false ∧
      ∃ st2, run step st [.go (.proxyLaunch 0) .yes, .go (.proxyLaunch 0) .yes,
          .go (.proxyLaunch 0) .yes] = some st2 ∧
        st2.pc (.proxyLaunch 0) = .ended ∧ st2.vpnInterface = some 0 ∧ st2.closed = [] ∧
        st2.flags.isRunning = true ∧ st2.flags.isDisconnecting = true ∧ st2.isStopping = true := by
  exact ⟨_, rfl, rfl, rfl, _, rfl, rfl, rfl, rfl, rfl, rfl, rfl⟩

end VpnStop
