import NoZapret.Library.Runs

/-!
# A stop request against one start of the engine

`jniStartProxy` from the moment `g_proxy_running` is true, and one
`byedpi_stop` in another thread. Neither takes a lock, so every access to
`server_fd`, `current_pool`, `brk` and the listening socket is a step of its
own. What parsing, `listen_socket`, the pool and the kernel answer is part of
the action.
-/

namespace StopSignal

open Runs

/-- What the engine's thread is about to do; `fd` is its listening socket. -/
inductive Main where
  /-- `parse_args`, `init` and `listen_socket` -/
  | parsing
  /-- `server_fd = srvfd` -/
  | listening (fd : Nat)
  /-- `init_pool` -/
  | pooling (fd : Nat)
  /-- `current_pool = pool` -/
  | publishing (fd : Nat)
  /-- `add_event(pool, &on_accept, …)` -/
  | adding (fd : Nat)
  /-- `while (!pool->brk)` -/
  | looping (fd : Nat)
  | polling (fd : Nat)
  /-- `current_pool = NULL` -/
  | leaving (fd : Nat)
  | destroying (fd : Nat)
  /-- `server_fd = -1` -/
  | resetting (fd : Nat)
  | closing (fd : Nat)
  | finished
  deriving DecidableEq, Repr

/-- What the thread inside `on_cancel` is about to do. -/
inductive Stop where
  /-- `int fd = server_fd` -/
  | entry
  | shutdown (fd : Int)
  /-- `if (server_fd == fd)` -/
  | compare (fd : Int)
  | reset
  /-- `if (current_pool)` -/
  | readPool
  /-- `current_pool->brk = 1` -/
  | writeBrk
  | wakeup
  | done
  /-- `current_pool` was `NULL` at its second reading -/
  | fault
  deriving DecidableEq, Repr

structure State where
  main : Main := .parsing
  stop : Stop := .entry
  serverFd : Int := -1
  /-- `current_pool` is set -/
  currentPool : Bool := false
  brk : Bool := false
  woken : Bool := false
  /-- the listening socket has been shut down -/
  shut : Bool := false
  accepted : Nat := 0
  deriving DecidableEq, Repr

inductive Answer where
  | listens (fd : Nat)
  | succeeds
  | fails
  /-- an event of the listening socket, of the control pipe, of another slot -/
  | listener
  | control
  | other
  deriving DecidableEq, Repr

inductive Act where
  | main (a : Answer)
  | stop
  deriving DecidableEq, Repr

/-- The socket that the engine's thread holds open. -/
def Main.socket : Main → Option Nat
  | .parsing | .finished => none
  | .listening fd | .pooling fd | .publishing fd | .adding fd | .looping fd | .polling fd
  | .leaving fd | .destroying fd | .resetting fd | .closing fd => some fd

/-- `run` and `start_event_loop`. `on_accept` sets `brk` when `accept` fails. -/
def mainStep (st : State) (a : Answer) : Option State :=
  match st.main, a with
  | .parsing, .listens fd => some { st with main := .listening fd }
  | .parsing, .fails => some { st with main := .finished }
  | .listening fd, _ => some { st with main := .pooling fd, serverFd := fd }
  | .pooling fd, .succeeds => some { st with main := .publishing fd, brk := false, woken := false }
  | .pooling fd, .fails => some { st with main := .resetting fd }
  | .publishing fd, _ => some { st with main := .adding fd, currentPool := true }
  | .adding fd, .succeeds => some { st with main := .looping fd }
  | .adding fd, .fails => some { st with main := .leaving fd }
  | .looping fd, _ => some { st with main := if st.brk then .leaving fd else .polling fd }
  | .polling fd, .listener =>
    if st.shut then some { st with main := .looping fd, brk := true }
    else some { st with main := .looping fd, accepted := st.accepted + 1 }
  | .polling fd, .control => if st.woken then some { st with main := .looping fd } else none
  | .polling fd, .other => some { st with main := .looping fd }
  | .polling fd, .fails => some { st with main := .leaving fd }
  | .leaving fd, _ => some { st with main := .destroying fd, currentPool := false }
  | .destroying fd, _ => some { st with main := .resetting fd }
  | .resetting fd, _ => some { st with main := .closing fd, serverFd := -1 }
  | .closing _, _ => some { st with main := .finished }
  | _, _ => none

/-- `on_cancel` -/
def stopStep (st : State) : Option State :=
  match st.stop with
  | .entry =>
    some { st with stop := if 0 < st.serverFd then .shutdown st.serverFd else .readPool }
  | .shutdown fd =>
    some { st with
      stop := .compare fd
      shut := st.shut || decide (st.main.socket.map Int.ofNat = some fd) }
  | .compare fd => some { st with stop := if st.serverFd = fd then .reset else .readPool }
  | .reset => some { st with stop := .readPool, serverFd := -1 }
  | .readPool => some { st with stop := if st.currentPool then .writeBrk else .done }
  | .writeBrk =>
    if st.currentPool then some { st with stop := .wakeup, brk := true }
    else some { st with stop := .fault }
  | .wakeup => some { st with stop := .done, woken := st.woken || st.currentPool }
  | .done | .fault => none

def step (st : State) : Act → Option State
  | .main a => mainStep st a
  | .stop => stopStep st

/-- Before `current_pool = pool`. -/
def Main.pending : Main → Bool
  | .parsing | .listening _ | .pooling _ | .publishing _ => true
  | _ => false

/-- While `current_pool` is set and the loop has not been left. -/
def Main.inPool : Main → Bool
  | .adding _ | .looping _ | .polling _ => true
  | _ => false

/-- Inside `loop_event`. -/
def Main.serving : Main → Bool
  | .looping _ | .polling _ => true
  | _ => false

/-- On the way out: this run serves no more. -/
def Main.over : Main → Bool
  | .leaving _ | .destroying _ | .resetting _ | .closing _ | .finished => true
  | _ => false

/-- The loop has been told: it finds `brk` set or its socket shut down. -/
def State.told (st : State) : Bool := st.brk || st.shut

/-- However the two threads go on, the loop is not serving untold once the stop
has returned. -/
def Heard (st : State) : Prop :=
  ∀ as st', run step st as = some st' → st'.stop = .done → st'.main.serving = true →
    st'.told = true

/-- The socket is shut down, or `current_pool` has been assigned (or never will be). -/
def Signalled (st : State) : Prop := st.shut = true ∨ st.main.pending = false

/-- What a step of the engine's thread does. -/
inductive Moved (st st' : State) : Prop where
  | starting (before : st.main.pending = true) (after : st'.main.pending = true)
      (currentPool : st'.currentPool = st.currentPool) (brk : st.brk = false → st'.brk = false)
  | published (before : st.main.pending = true) (after : st'.main.inPool = true)
      (currentPool : st'.currentPool = true)
  | looping (before : st.main.inPool = true) (after : st'.main.inPool = true)
      (currentPool : st'.currentPool = st.currentPool) (brk : st.brk = true → st'.brk = true)
  | leaving (after : st'.main.over = true)

section Step

variable {st st' : State}

lemma mainStep_moved {a : Answer} (h : mainStep st a = some st') :
    Moved st st' ∧ st'.stop = st.stop ∧ st'.shut = st.shut := by
  cases hm : st.main with
  | parsing =>
    cases a <;> simp only [mainStep, hm, Option.some.injEq, reduceCtorEq] at h
    case listens fd =>
      subst h
      exact ⟨.starting (by rw [hm]; rfl) rfl rfl id, rfl, rfl⟩
    case fails =>
      subst h
      exact ⟨.leaving rfl, rfl, rfl⟩
  | listening fd =>
    simp only [mainStep, hm, Option.some.injEq] at h
    subst h
    exact ⟨.starting (by rw [hm]; rfl) rfl rfl id, rfl, rfl⟩
  | pooling fd =>
    cases a <;> simp only [mainStep, hm, Option.some.injEq, reduceCtorEq] at h
    case succeeds =>
      subst h
      exact ⟨.starting (by rw [hm]; rfl) rfl rfl fun _ => rfl, rfl, rfl⟩
    case fails =>
      subst h
      exact ⟨.leaving rfl, rfl, rfl⟩
  | publishing fd =>
    simp only [mainStep, hm, Option.some.injEq] at h
    subst h
    exact ⟨.published (by rw [hm]; rfl) rfl rfl, rfl, rfl⟩
  | adding fd =>
    cases a <;> simp only [mainStep, hm, Option.some.injEq, reduceCtorEq] at h
    case succeeds =>
      subst h
      exact ⟨.looping (by rw [hm]; rfl) rfl rfl id, rfl, rfl⟩
    case fails =>
      subst h
      exact ⟨.leaving rfl, rfl, rfl⟩
  | looping fd =>
    simp only [mainStep, hm, Option.some.injEq] at h
    subst h
    cases hb : st.brk with
    | true => exact ⟨.leaving (by simp [Main.over]), rfl, rfl⟩
    | false =>
      refine ⟨.looping (by rw [hm]; rfl) (by simp [Main.inPool]) rfl ?_, rfl, rfl⟩
      intro hbrk
      rw [hb] at hbrk
      cases hbrk
  | polling fd =>
    have hin : st.main.inPool = true := by rw [hm]; rfl
    cases a <;> simp only [mainStep, hm, Option.some.injEq, reduceCtorEq] at h
    case listener =>
      split at h <;> cases h
      · exact ⟨.looping hin rfl rfl fun _ => rfl, rfl, rfl⟩
      · exact ⟨.looping hin rfl rfl id, rfl, rfl⟩
    case control =>
      split at h <;> cases h
      exact ⟨.looping hin rfl rfl id, rfl, rfl⟩
    case other =>
      subst h
      exact ⟨.looping hin rfl rfl id, rfl, rfl⟩
    case fails =>
      subst h
      exact ⟨.leaving rfl, rfl, rfl⟩
  | leaving fd | destroying fd | resetting fd | closing fd =>
    simp only [mainStep, hm, Option.some.injEq] at h
    subst h
    exact ⟨.leaving rfl, rfl, rfl⟩
  | finished => simp [mainStep, hm] at h

/-- What a step of the stopping thread does. -/
structure Stopped (st st' : State) : Prop where
  main : st'.main = st.main
  currentPool : st'.currentPool = st.currentPool
  shut : st.shut = true → st'.shut = true
  brk : st'.brk = st.brk ∨ st.currentPool = true
  keeps : st.brk = true → st'.brk = true
  asks : st.stop = .readPool ∨ st.stop = .writeBrk → st.currentPool = true →
    st'.stop = .writeBrk ∨ st'.brk = true

lemma stopStep_stopped (h : stopStep st = some st') : Stopped st st' := by
  cases hs : st.stop with
  | readPool =>
    simp only [stopStep, hs, Option.some.injEq] at h
    subst h
    refine ⟨rfl, rfl, id, .inl rfl, id, ?_⟩
    intro _ hpool
    left
    simp [hpool]
  | writeBrk =>
    simp only [stopStep, hs] at h
    split at h <;> cases h
    · next hpool => exact ⟨rfl, rfl, id, .inr hpool, fun _ => rfl, fun _ _ => .inr rfl⟩
    · next hpool => exact ⟨rfl, rfl, id, .inl rfl, id, fun _ hp => absurd hp hpool⟩
  | shutdown fd =>
    simp only [stopStep, hs, Option.some.injEq] at h
    subst h
    refine ⟨rfl, rfl, ?_, .inl rfl, id, by simp [hs]⟩
    intro hshut
    simp [hshut]
  | entry | compare fd | reset | wakeup =>
    simp only [stopStep, hs, Option.some.injEq] at h
    subst h
    exact ⟨rfl, rfl, id, .inl rfl, id, by simp [hs]⟩
  | done | fault => simp [stopStep, hs] at h

/-- Before `current_pool` is assigned it is `NULL` and no pool is told to break. -/
structure Fresh (st : State) : Prop where
  pending : st.main.pending = true → st.currentPool = false ∧ st.brk = false
  inPool : st.main.inPool = true → st.currentPool = true

lemma pending_out {m : Main} (h : m.pending = true) : m.inPool = false ∧ m.over = false := by
  cases m <;> first | exact ⟨rfl, rfl⟩ | cases h

lemma over_out {m : Main} (h : m.over = true) : m.pending = false ∧ m.inPool = false := by
  cases m <;> first | exact ⟨rfl, rfl⟩ | cases h

lemma over_serves {m : Main} (h : m.over = true) : m.serving = false := by
  cases m <;> first | rfl | cases h

lemma pending_or (m : Main) (h : m.pending = false) : m.over = true ∨ m.inPool = true := by
  cases m <;> first | exact .inl rfl | exact .inr rfl | cases h

theorem step_fresh {act : Act} (hf : Fresh st) (h : step st act = some st') : Fresh st' := by
  cases act with
  | main a =>
    obtain ⟨hmoved, -, -⟩ := mainStep_moved h
    cases hmoved with
    | starting before after currentPool brk =>
      obtain ⟨hpool, hbrk⟩ := hf.pending before
      refine ⟨fun _ => ⟨currentPool.trans hpool, brk hbrk⟩, ?_⟩
      intro hin
      rw [(pending_out after).1] at hin
      cases hin
    | published before after currentPool =>
      refine ⟨?_, fun _ => currentPool⟩
      intro hp
      rw [(pending_out hp).1] at after
      cases after
    | looping before after currentPool brk =>
      refine ⟨?_, fun _ => currentPool.trans (hf.inPool before)⟩
      intro hp
      rw [(pending_out hp).1] at after
      cases after
    | leaving after =>
      obtain ⟨hp, hin⟩ := over_out after
      constructor
      · intro h
        rw [hp] at h
        cases h
      · intro h
        rw [hin] at h
        cases h
  | stop =>
    have hs := stopStep_stopped h
    constructor
    · intro hp
      rw [hs.main] at hp
      obtain ⟨hpool, hbrk⟩ := hf.pending hp
      refine ⟨hs.currentPool.trans hpool, ?_⟩
      rcases hs.brk with hsame | htrue
      · exact hsame.trans hbrk
      · rw [hpool] at htrue
        cases htrue
    · intro hin
      rw [hs.main] at hin
      exact hs.currentPool.trans (hf.inPool hin)

/-- From the test of `current_pool` on: the loop is told, will be, or is over. -/
def Reaches (st : State) : Prop :=
  st.shut = true ∨ st.main.over = true ∨ (st.main.inPool = true ∧
    (st.stop = .readPool ∨ st.stop = .writeBrk ∨ st.brk = true))

theorem step_reaches {act : Act} (hf : Fresh st) (hr : Reaches st)
    (h : step st act = some st') : Reaches st' := by
  cases act with
  | main a =>
    obtain ⟨hmoved, hstop, hshut⟩ := mainStep_moved h
    rcases hr with hs | hover | ⟨hin, hor⟩
    · exact .inl (hshut.trans hs)
    · obtain ⟨hp, hin⟩ := over_out hover
      cases hmoved with
      | starting before | published before => rw [hp] at before; cases before
      | looping before => rw [hin] at before; cases before
      | leaving after => exact .inr (.inl after)
    · cases hmoved with
      | starting before | published before =>
        rw [(pending_out before).1] at hin
        cases hin
      | looping before after currentPool brk =>
        refine .inr (.inr ⟨after, ?_⟩)
        rw [hstop]
        exact hor.imp_right (Or.imp_right brk)
      | leaving after => exact .inr (.inl after)
  | stop =>
    have hs := stopStep_stopped h
    rcases hr with hshut | hover | ⟨hin, hor⟩
    · exact .inl (hs.shut hshut)
    · exact .inr (.inl (by rw [hs.main, hover]))
    · refine .inr (.inr ⟨by rw [hs.main, hin], ?_⟩)
      rcases hor with hread | hwrite | hbrk
      · exact .inr (hs.asks (.inl hread) (hf.inPool hin))
      · exact .inr (hs.asks (.inr hwrite) (hf.inPool hin))
      · exact .inr (.inr (hs.keeps hbrk))

theorem run_reaches {as : List Act} (hf : Fresh st) (hr : Reaches st)
    (hrun : run step st as = some st') : Reaches st' := by
  induction as generalizing st with
  | nil =>
    cases hrun
    exact hr
  | cons act as ih =>
    obtain ⟨s, hstep, hrest⟩ := run_cons_some hrun
    exact ih (step_fresh hf hstep) (step_reaches hf hr hstep) hrest

theorem run_fresh {as : List Act} (hf : Fresh st) (hrun : run step st as = some st') :
    Fresh st' := by
  induction as generalizing st with
  | nil =>
    cases hrun
    exact hf
  | cons act as ih =>
    obtain ⟨s, hstep, hrest⟩ := run_cons_some hrun
    exact ih (step_fresh hf hstep) hrest

lemma fresh_init : Fresh {} := ⟨fun _ => ⟨rfl, rfl⟩, fun h => by cases h⟩

end Step

section Window

variable {st : State}

/-- An engine that has not assigned `current_pool` yet gets into its loop. -/
lemma pending_serves (hp : st.main.pending = true) :
    ∃ as st', run step st as = some st' ∧ st'.main.serving = true ∧ st'.stop = st.stop ∧
      st'.shut = st.shut ∧ (st.brk = false → st'.brk = false) := by
  cases hm : st.main <;> rw [hm] at hp <;> try cases hp
  case parsing =>
    refine ⟨[.main (.listens 1), .main .other, .main .succeeds, .main .other, .main .succeeds],
      { st with
        main := .looping 1, serverFd := 1, currentPool := true, brk := false, woken := false },
      ?_, rfl, rfl, rfl, fun _ => rfl⟩
    simp only [run, step, mainStep, hm]
    rfl
  case listening fd =>
    refine ⟨[.main .other, .main .succeeds, .main .other, .main .succeeds],
      { st with
        main := .looping fd, serverFd := fd, currentPool := true, brk := false, woken := false },
      ?_, rfl, rfl, rfl, fun _ => rfl⟩
    simp only [run, step, mainStep, hm]
  case pooling fd =>
    refine ⟨[.main .succeeds, .main .other, .main .succeeds],
      { st with main := .looping fd, currentPool := true, brk := false, woken := false },
      ?_, rfl, rfl, rfl, fun _ => rfl⟩
    simp only [run, step, mainStep, hm]
  case publishing fd =>
    refine ⟨[.main .other, .main .succeeds], { st with main := .looping fd, currentPool := true },
      ?_, rfl, rfl, rfl, id⟩
    simp only [run, step, mainStep, hm]

/-- A stop that has neither shut the socket down nor finds a pool is lost. -/
lemma signalled_of_heard (hf : Fresh st) (htest : st.stop = .readPool) (hh : Heard st) :
    Signalled st := by
  by_contra hnot
  simp only [Signalled, not_or, Bool.not_eq_true, Bool.not_eq_false] at hnot
  obtain ⟨hshut, hpending⟩ := hnot
  obtain ⟨hpool, hbrk⟩ := hf.pending hpending
  have hstep : step st .stop = some { st with stop := .done } := by
    simp [step, stopStep, htest, hpool]
  have hpending' : ({ st with stop := .done } : State).main.pending = true := hpending
  obtain ⟨as, st', hrun, hserving, hstop, hshut', hbrk'⟩ := pending_serves hpending'
  have htold := hh (.stop :: as) st' (by rw [run_cons hstep, hrun]) hstop hserving
  simp only [State.told, hbrk' hbrk, hshut', hshut] at htold
  cases htold

lemma heard_of_signalled (hf : Fresh st) (htest : st.stop = .readPool) (hs : Signalled st) :
    Heard st := by
  intro as st' hrun hdone hserving
  have hstart : Reaches st := by
    rcases hs with hshut | hpending
    · exact .inl hshut
    · rcases pending_or st.main hpending with hover | hin
      · exact .inr (.inl hover)
      · exact .inr (.inr ⟨hin, .inl htest⟩)
  rcases run_reaches hf hstart hrun with hshut | hover | ⟨-, hor⟩
  · simp [State.told, hshut]
  · rw [over_serves hover] at hserving
    cases hserving
  · rcases hor with hread | hwrite | hbrk
    · rw [hdone] at hread
      cases hread
    · rw [hdone] at hwrite
      cases hwrite
    · simp [State.told, hbrk]

end Window

/-- In every interleaving that has brought the stop to its test of `current_pool`:
the stop is heard exactly when the listening socket is shut down by then or
`current_pool` has been assigned. -/
theorem stop_heard_iff (as : List Act) (st : State) (hrun : run step {} as = some st)
    (htest : st.stop = .readPool) : Heard st ↔ Signalled st := by
  have hf : Fresh st := run_fresh fresh_init hrun
  exact ⟨signalled_of_heard hf htest, heard_of_signalled hf htest⟩

/-- A stop that comes once `server_fd` is set shuts the socket down and is heard. -/
theorem stop_heard_iff_listening :
    ∃ st, run step {} [.main (.listens 5), .main .other, .stop, .stop, .stop, .stop] = some st ∧
      Heard st := by
  refine ⟨_, rfl, ?_⟩
  exact (stop_heard_iff [.main (.listens 5), .main .other, .stop, .stop, .stop, .stop] _ rfl
    rfl).mpr (.inl rfl)

/-- A stop that comes while the arguments are parsed finds no descriptor and no
pool; the engine then serves, and nothing has told it to leave. -/
theorem early_stop_is_lost :
    ∃ st, run step {} [.stop, .stop, .main (.listens 5), .main .other, .main .succeeds,
        .main .other, .main .succeeds, .main .other, .main .listener] = some st ∧
      st.stop = .done ∧ st.main.serving = true ∧ st.told = false ∧ st.accepted = 1 := by
  exact ⟨_, rfl, rfl, rfl, rfl, rfl⟩

end StopSignal
