import Mathlib.Logic.Function.Basic
import NoZapret.Library.Mutex
import NoZapret.Library.Runs

/-!
# The native proxy engine

The entry points of `native-lib.cpp` that start, stop and clean up `byedpi_main`,
as a step relation over the threads that call them. A step is one section under
`g_proxy_mutex`, or one piece between two of them; `wait_for` gives the mutex back
while it waits. `byedpi_main` may come back at any time with any result, however
long ago it was told to stop.

As long as no wait of `jniForceClose` runs out and no cleanup finds a proxy running,
`g_proxy_running` works as a lock that the thread inside `jniStartProxy` holds.
-/

namespace NativeLib

open Mutex Runs

abbrev Thread := Nat

inductive Call where
  | startProxy (args : List String)
  | stopProxy
  | forceClose
  /-- of `ByeDpiProxy` or of `StrategyTester` -/
  | cleanup
  deriving DecidableEq, Repr

/-- What a thread is about to do. -/
inductive Pc where
  /-- not in the library; what its last call returned -/
  | out (result : Option Int)
  | startProxy (args : List String)
  -- byedpi_main, without the mutex
  | parsing (args : List String)
  | serving (args : List String)
  | returned (result : Int)
  | stopProxy
  | forceClose
  | closing
  | waiting
  | cleanup
  deriving DecidableEq, Repr

/-- `byedpi_main` has been called and has not returned. -/
def Pc.executing : Pc → Bool
  | .parsing _ | .serving _ => true
  | _ => false

/-- Between the two writes of `g_proxy_running` in `jniStartProxy`. -/
def Pc.engine : Pc → Bool
  | .parsing _ | .serving _ | .returned _ => true
  | _ => false

structure State where
  /-- `g_proxy_running` -/
  running : Bool := false
  serverFd : Int := -1
  /-- the thread whose event loop `current_pool` belongs to -/
  currentPool : Option Thread := none
  /-- the threads whose pool was told to break -/
  brk : List Thread := []
  shutdowns : List Int := []
  /-- the arguments whose groups `params` holds; none once they are freed -/
  params : Option (List String) := none
  /-- how often `clear_params` has run -/
  clears : Nat := 0
  pc : Thread → Pc := fun _ => .out none

/-- What the outside decides: `byedpi_main` listens or comes back, a wait runs out. -/
inductive Answer where
  | listens (fd : Nat)
  | exits (result : Int)
  | timeout
  deriving DecidableEq, Repr

inductive Act where
  | call (t : Thread) (c : Call)
  | go (t : Thread) (a : Answer)
  deriving DecidableEq, Repr

def Act.thread : Act → Thread
  | .call t _ | .go t _ => t

def State.goto (st : State) (t : Thread) (p : Pc) : State :=
  { st with pc := Function.update st.pc t p }

def State.clearParams (st : State) : State :=
  { st with params := none, clears := st.clears + 1 }

/-- `shutdown(fd, SHUT_RDWR)` -/
def State.shutdown (st : State) (fd : Int) : State :=
  { st with shutdowns := fd :: st.shutdowns }

/-- `byedpi_stop`: `on_cancel(SIGINT)` -/
def State.byedpiStop (st : State) : State :=
  let st := if 0 < st.serverFd then { st.shutdown st.serverFd with serverFd := -1 } else st
  { st with brk := st.currentPool.toList ++ st.brk }

/-- The two sections of `jniStartProxy` under the mutex. -/
def jniStartProxy (st : State) (t : Thread) : Pc → Option State
  | .startProxy args =>
    if st.running then some (st.goto t (.out (some (-1))))
    else some ({ st.clearParams with running := true }.goto t (.parsing args))
  | .returned result =>
    some ({ st with serverFd := -1, running := false }.goto t (.out (some result)))
  | _ => none

/-- `parse_args` and `listen_socket`, then `start_event_loop`; it clears the
parameters itself on every way out. -/
def byedpiMain (st : State) (t : Thread) (a : Answer) : Pc → Option State
  | .parsing args =>
    match a with
    | .listens fd =>
      some ({ st with serverFd := fd, currentPool := some t, params := some args }.goto t
        (.serving args))
    | .exits result => some (st.clearParams.goto t (.returned result))
    | .timeout => none
  | .serving _ =>
    match a with
    | .exits result =>
      some ({ st.clearParams with serverFd := -1, currentPool := none }.goto t (.returned result))
    | _ => none
  | _ => none

def jniForceClose (st : State) (t : Thread) (a : Answer) : Pc → Option State
  | .forceClose =>
    let st := st.byedpiStop
    let st := if 0 ≤ st.serverFd then st.shutdown st.serverFd else st
    some (st.goto t .closing)
  | .closing => some (st.goto t (if st.running then .waiting else .out (some 0)))
  | .waiting =>
    if !st.running then some (st.goto t (.out (some 0)))
    else if a = .timeout then some ({ st with running := false }.goto t (.out (some 0)))
    else none
  | _ => none

def jniCleanup (st : State) (t : Thread) : State :=
  st.clearParams.goto t (.out none)

def go (st : State) (t : Thread) (a : Answer) : Option State :=
  match st.pc t with
  | .out _ => none
  | .startProxy _ | .returned _ => jniStartProxy st t (st.pc t)
  | .parsing _ | .serving _ => byedpiMain st t a (st.pc t)
  | .stopProxy => some (st.byedpiStop.goto t (.out none))
  | .forceClose | .closing | .waiting => jniForceClose st t a (st.pc t)
  | .cleanup => some (jniCleanup st t)

def Call.entry : Call → Pc
  | .startProxy args => .startProxy args
  | .stopProxy => .stopProxy
  | .forceClose => .forceClose
  | .cleanup => .cleanup

def step (st : State) : Act → Option State
  | .call t c =>
    match st.pc t with
    | .out _ => some (st.goto t c.entry)
    | _ => none
  | .go t a => go st t a

/-- The wait of `jniForceClose` does not run out, and no cleanup begins its work,
while `g_proxy_running` is set. -/
def clean (st : State) : Act → Bool
  | .call _ _ => true
  | .go t a =>
    match st.pc t with
    | .waiting => a != .timeout || !st.running
    | .cleanup => !st.running
    | _ => true

section Effect

@[simp] lemma byedpiStop_running (st : State) : st.byedpiStop.running = st.running := by
  simp only [State.byedpiStop, State.shutdown]
  split <;> rfl

@[simp] lemma byedpiStop_params (st : State) : st.byedpiStop.params = st.params := by
  simp only [State.byedpiStop, State.shutdown]
  split <;> rfl

@[simp] lemma byedpiStop_clears (st : State) : st.byedpiStop.clears = st.clears := by
  simp only [State.byedpiStop, State.shutdown]
  split <;> rfl

@[simp] lemma byedpiStop_pc (st : State) : st.byedpiStop.pc = st.pc := by
  simp only [State.byedpiStop, State.shutdown]
  split <;> rfl

@[simp] lemma entry_not_engine (c : Call) : c.entry.engine = false := by
  cases c <;> rfl

lemma engine_of_executing {p : Pc} (h : p.executing = true) : p.engine = true := by
  cases p <;> first | rfl | cases h

/-- What a clean step of thread `t` that goes on at `p` does to the flag, the
parameters and the count of clears. -/
inductive Effect (st st' : State) (t : Thread) (p : Pc) : Prop where
  | outside (before : (st.pc t).engine = false) (after : p.engine = false)
      (running : st'.running = st.running) (params : st'.params = st.params)
      (clears : st'.clears = st.clears)
  | enter (args : List String) (free : st.running = false) (running : st'.running = true)
      (params : st'.params = none) (after : p = .parsing args)
  | serve (args : List String) (before : st.pc t = .parsing args) (after : p = .serving args)
      (running : st'.running = st.running) (params : st'.params = some args)
      (clears : st'.clears = st.clears)
  | leave (result : Int) (before : (st.pc t).executing = true) (after : p = .returned result)
      (running : st'.running = st.running)
  | exit (result : Int) (before : st.pc t = .returned result) (after : p.engine = false)
      (running : st'.running = false) (params : st'.params = st.params)
      (clears : st'.clears = st.clears)
  | cleanup (before : (st.pc t).engine = false) (after : p.engine = false)
      (free : st.running = false) (running : st'.running = false)

lemma forceClose_effect {st st' : State} {t : Thread} {a : Answer} {p : Pc} (hp : st.pc t = p)
    (hin : p.engine = false) (hok : p = .waiting → a ≠ .timeout ∨ st.running = false)
    (h : jniForceClose st t a p = some st') :
    ∃ p', st'.pc = Function.update st.pc t p' ∧ Effect st st' t p' := by
  have hbefore : (st.pc t).engine = false := by rw [hp]; exact hin
  cases p with
  | forceClose =>
    simp only [jniForceClose, Option.some.injEq] at h
    subst h
    refine ⟨.closing, ?_, .outside hbefore rfl ?_ ?_ ?_⟩ <;>
      simp only [State.goto, State.shutdown] <;> split <;> simp
  | closing =>
    simp only [jniForceClose, Option.some.injEq] at h
    subst h
    refine ⟨_, rfl, .outside hbefore ?_ rfl rfl rfl⟩
    split <;> rfl
  | waiting =>
    simp only [jniForceClose] at h
    cases hr : st.running with
    | false =>
      simp only [hr, Bool.not_false, if_true, Option.some.injEq] at h
      subst h
      exact ⟨_, rfl, .outside hbefore rfl rfl rfl rfl⟩
    | true =>
      have ha : a ≠ .timeout := (hok rfl).resolve_right (by simp [hr])
      simp [hr, ha] at h
  | _ => simp [jniForceClose] at h

lemma byedpiMain_effect {st st' : State} {t : Thread} {a : Answer} {p : Pc} (hp : st.pc t = p)
    (h : byedpiMain st t a p = some st') :
    ∃ p', st'.pc = Function.update st.pc t p' ∧ Effect st st' t p' := by
  cases p with
  | parsing args =>
    have hin : (st.pc t).executing = true := by rw [hp]; rfl
    cases a with
    | listens fd =>
      simp only [byedpiMain, Option.some.injEq] at h
      subst h
      exact ⟨_, rfl, .serve args hp rfl rfl rfl rfl⟩
    | exits result =>
      simp only [byedpiMain, Option.some.injEq] at h
      subst h
      exact ⟨_, rfl, .leave result hin rfl rfl⟩
    | timeout => simp [byedpiMain] at h
  | serving args =>
    have hin : (st.pc t).executing = true := by rw [hp]; rfl
    cases a with
    | exits result =>
      simp only [byedpiMain, Option.some.injEq] at h
      subst h
      exact ⟨_, rfl, .leave result hin rfl rfl⟩
    | _ => simp [byedpiMain] at h
  | _ => simp [byedpiMain] at h

lemma startProxy_effect {st st' : State} {t : Thread} {p : Pc} (hp : st.pc t = p)
    (h : jniStartProxy st t p = some st') :
    ∃ p', st'.pc = Function.update st.pc t p' ∧ Effect st st' t p' := by
  cases p with
  | startProxy args =>
    have hbefore : (st.pc t).engine = false := by rw [hp]; rfl
    simp only [jniStartProxy] at h
    cases hr : st.running with
    | false =>
      simp only [hr, Bool.false_eq_true, if_false, Option.some.injEq] at h
      subst h
      exact ⟨_, rfl, .enter args hr rfl rfl rfl⟩
    | true =>
      simp only [hr, if_true, Option.some.injEq] at h
      subst h
      exact ⟨_, rfl, .outside hbefore rfl rfl rfl rfl⟩
  | returned result =>
    simp only [jniStartProxy, Option.some.injEq] at h
    subst h
    exact ⟨_, rfl, .exit result hp rfl rfl rfl rfl⟩
  | _ => simp [jniStartProxy] at h

theorem step_effect {st st' : State} {act : Act} (hok : clean st act = true)
    (h : step st act = some st') :
    ∃ p, st'.pc = Function.update st.pc act.thread p ∧ Effect st st' act.thread p := by
  cases act with
  | call t c =>
    cases hp : st.pc t with
    | out result =>
      simp only [step, hp, Option.some.injEq] at h
      subst h
      exact ⟨_, rfl, .outside (by simp [Act.thread, hp, Pc.engine]) (entry_not_engine c)
        rfl rfl rfl⟩
    | _ => simp [step, hp] at h
  | go t a =>
    cases hp : st.pc t with
    | out result => simp [step, go, hp] at h
    | startProxy args =>
      simp only [step, go, hp] at h
      exact startProxy_effect hp h
    | returned result =>
      simp only [step, go, hp] at h
      exact startProxy_effect hp h
    | parsing args =>
      simp only [step, go, hp] at h
      exact byedpiMain_effect hp h
    | serving args =>
      simp only [step, go, hp] at h
      exact byedpiMain_effect hp h
    | stopProxy =>
      simp only [step, go, hp, Option.some.injEq] at h
      subst h
      refine ⟨.out none, ?_, .outside ?_ rfl ?_ ?_ ?_⟩ <;>
        simp [State.goto, Act.thread, hp, Pc.engine]
    | forceClose =>
      simp only [step, go, hp] at h
      exact forceClose_effect hp rfl nofun h
    | closing =>
      simp only [step, go, hp] at h
      exact forceClose_effect hp rfl nofun h
    | waiting =>
      simp only [step, go, hp] at h
      refine forceClose_effect hp rfl (fun _ => ?_) h
      simpa [clean, hp] using hok
    | cleanup =>
      have hfree : st.running = false := by simpa [clean, hp] using hok
      simp only [step, go, hp, Option.some.injEq] at h
      subst h
      exact ⟨_, rfl, .cleanup (by simp [Act.thread, hp, Pc.engine]) rfl hfree hfree⟩

end Effect

/-- `g_proxy_running` is set exactly while `owner` is between its two writes, and
an event loop finds in `params` what it was started with. -/
structure Owned (st : State) (owner : Option Thread) : Prop where
  flag : st.running = owner.isSome
  alone : Exclusive Pc.engine owner st.pc
  parsed : ∀ t args, st.pc t = .serving args → st.params = some args

lemma owned_init : Owned {} none := by
  refine ⟨rfl, ?_, ?_⟩
  · intro t ht
    cases ht
  · intro t args ht
    cases ht

lemma Owned.free {st : State} {owner : Option Thread} (h : Owned st owner)
    (hfree : st.running = false) : owner = none := by
  have hflag := h.flag
  rw [hfree] at hflag
  exact Option.not_isSome_iff_eq_none.mp (by simp [← hflag])

lemma Owned.none_executing {st : State} {owner : Option Thread} (h : Owned st owner)
    (hfree : st.running = false) (t : Thread) : (st.pc t).executing = false := by
  have hnone := h.free hfree
  subst hnone
  have hout := h.alone.out_of_free t
  cases hp : (st.pc t).executing with
  | false => rfl
  | true =>
    rw [engine_of_executing hp] at hout
    cases hout

lemma Owned.one_executing {st : State} {owner : Option Thread} (h : Owned st owner)
    {t u : Thread} (ht : (st.pc t).executing = true) (hu : (st.pc u).executing = true) : t = u :=
  h.alone.unique (engine_of_executing ht) (engine_of_executing hu)

/-- The move that an effect makes on `g_proxy_running`, seen as a lock. -/
lemma effect_move {st st' : State} {t : Thread} {p : Pc} {owner : Option Thread}
    (h : Owned st owner) (heff : Effect st st' t p) :
    ∃ owner', st'.running = owner'.isSome ∧
      Move Pc.engine owner owner' t (st.pc t) p := by
  cases heff with
  | outside before after running _ _ =>
    exact ⟨owner, running.trans h.flag, .keep rfl (by simp [after])⟩
  | enter args free running _ after =>
    subst after
    exact ⟨some t, running, .take (h.free free) rfl rfl⟩
  | serve args before after running _ _ =>
    exact ⟨owner, running.trans h.flag, .keep rfl (by simp [before, Pc.engine])⟩
  | leave result before after running =>
    exact ⟨owner, running.trans h.flag, .keep rfl fun _ => engine_of_executing before⟩
  | exit result before after running _ _ =>
    have hmine : owner = some t := h.alone t (by rw [before]; rfl)
    exact ⟨none, running, .give hmine rfl after⟩
  | cleanup before after free running =>
    have hnone := h.free free
    exact ⟨owner, by rw [running, hnone]; rfl, .keep rfl (by simp [after])⟩

lemma effect_parsed {st st' : State} {t : Thread} {p : Pc} {owner : Option Thread}
    (h : Owned st owner) (heff : Effect st st' t p)
    (hpc : st'.pc = Function.update st.pc t p) (u : Thread) (args : List String)
    (hu : st'.pc u = .serving args) : st'.params = some args := by
  rw [hpc] at hu
  by_cases hut : u = t
  · subst hut
    rw [Function.update_self] at hu
    subst hu
    cases heff with
    | outside _ after _ _ _ => cases after
    | enter _ _ _ _ after => cases after
    | serve _ _ after _ params _ =>
      cases after
      exact params
    | leave _ _ after _ => cases after
    | exit _ _ after _ _ _ => cases after
    | cleanup _ after _ _ => cases after
  · rw [Function.update_of_ne hut] at hu
    have hbusy : (st.pc u).executing = true := by rw [hu]; rfl
    have hkept := h.parsed u args hu
    -- whoever else is inside would be the same thread, so the parameters stay
    cases heff with
    | outside _ _ _ params _ => exact params.trans hkept
    | enter _ free _ _ _ => simp [h.none_executing free u] at hbusy
    | serve _ before _ _ _ _ =>
      exact absurd (h.one_executing hbusy (by rw [before]; rfl)) hut
    | leave _ before _ _ => exact absurd (h.one_executing hbusy before) hut
    | exit _ before _ _ params _ => exact params.trans hkept
    | cleanup _ _ free _ => simp [h.none_executing free u] at hbusy

theorem step_owned {st st' : State} {act : Act} {owner : Option Thread} (h : Owned st owner)
    (hok : clean st act = true) (hstep : step st act = some st') :
    ∃ owner', Owned st' owner' := by
  obtain ⟨p, hpc, heff⟩ := step_effect hok hstep
  obtain ⟨owner', hflag, hmove⟩ := effect_move h heff
  refine ⟨owner', hflag, ?_, effect_parsed h heff hpc⟩
  apply h.alone.step
  · rw [hpc, Function.update_self]
    exact hmove
  · intro u hu hin
    rwa [hpc, Function.update_of_ne hu] at hin

theorem run_owned {as : List Act} {st : State}
    (hok : Meets step (fun st act => clean st act = true) {} as)
    (hrun : run step {} as = some st) : ∃ owner, Owned st owner := by
  have hstep : ∀ (s : State) (act : Act) (s' : State), (∃ owner, Owned s owner) →
      clean s act = true → step s act = some s' → ∃ owner, Owned s' owner := by
    intro s act s' hs hact h
    obtain ⟨owner, hs⟩ := hs
    exact step_owned hs hact h
  exact run_preserves hstep ⟨none, owned_init⟩ hok hrun

/-- While the run is clean, an event loop works with the parameters that its own
arguments gave. -/
theorem serving_keeps_params {as : List Act} {st : State} {t : Thread} {args : List String}
    (hok : Meets step (fun st act => clean st act = true) {} as)
    (hrun : run step {} as = some st) (hserving : st.pc t = .serving args) :
    st.params = some args := by
  obtain ⟨owner, h⟩ := run_owned hok hrun
  exact h.parsed t args hserving

/-- A step that clears the parameters finds nobody else in `byedpi_main`. -/
lemma Owned.clear_alone {st st' : State} {act : Act} {owner : Option Thread} (h : Owned st owner)
    (hok : clean st act = true) (hstep : step st act = some st') (hclear : st'.clears ≠ st.clears)
    {u : Thread} (hu : (st.pc u).executing = true) : u = act.thread := by
  obtain ⟨p, -, heff⟩ := step_effect hok hstep
  cases heff with
  | outside _ _ _ _ clears => exact absurd clears hclear
  | enter _ free _ _ _ => simp [h.none_executing free u] at hu
  | serve _ _ _ _ _ clears => exact absurd clears hclear
  | leave _ before _ _ => exact h.one_executing hu before
  | exit _ _ _ _ _ clears => exact absurd clears hclear
  | cleanup _ _ free _ => simp [h.none_executing free u] at hu

/-- At most one `byedpi_main` executes, and nobody but itself clears the parameters
before it has returned. -/
theorem one_engine_at_a_time (as : List Act) (st : State)
    (hok : Meets step (fun st act => clean st act = true) {} as)
    (hrun : run step {} as = some st) :
    (∀ t u, (st.pc t).executing = true → (st.pc u).executing = true → t = u) ∧
      ∀ act st', clean st act = true → step st act = some st' → st'.clears ≠ st.clears →
        ∀ u, (st.pc u).executing = true → u = act.thread := by
  obtain ⟨owner, h⟩ := run_owned hok hrun
  constructor
  · intro t u ht hu
    exact h.one_executing ht hu
  · intro act st' hact hstep hclear u hu
    exact h.clear_alone hact hstep hclear hu

/-- A proxy that listens, and a second start that is turned away. -/
theorem one_engine_at_a_time_twice :
    ∃ st, run step {} [.call 0 (.startProxy ["byedpi", "-p", "1080"]), .go 0 .timeout,
        .go 0 (.listens 7), .call 1 (.startProxy ["byedpi", "-p", "1081"]), .go 1 .timeout]
          = some st ∧
      (∀ t u, (st.pc t).executing = true → (st.pc u).executing = true → t = u) ∧
      ∀ act st', clean st act = true → step st act = some st' → st'.clears ≠ st.clears →
        ∀ u, (st.pc u).executing = true → u = act.thread := by
  refine ⟨_, rfl, ?_⟩
  exact one_engine_at_a_time [.call 0 (.startProxy ["byedpi", "-p", "1080"]), .go 0 .timeout,
    .go 0 (.listens 7), .call 1 (.startProxy ["byedpi", "-p", "1081"]), .go 1 .timeout]
    _ (by decide) rfl

/-- The engine does not come back within the wait: the flag is cleared by hand, the
next start clears the parameters under it, and two engines execute. A cleanup then
clears them under both. -/
theorem late_engine_loses_params :
    ∃ st st', run step {} [.call 0 (.startProxy ["byedpi", "-p", "1080"]), .go 0 .timeout,
        .go 0 (.listens 7), .call 1 .forceClose, .go 1 .timeout, .go 1 .timeout, .go 1 .timeout,
        .call 1 (.startProxy ["byedpi", "-p", "1081"]), .go 1 .timeout] = some st ∧
      (st.pc 0).executing = true ∧ (st.pc 1).executing = true ∧ st.params = none ∧
      run step st [.call 2 .cleanup, .go 2 .timeout] = some st' ∧ st'.clears ≠ st.clears := by
  refine ⟨_, _, rfl, rfl, rfl, rfl, rfl, ?_⟩
  decide

end NativeLib
