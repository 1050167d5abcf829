import Mathlib.Logic.Function.Basic
import NoZapret.Library.Mutex
import NoZapret.Library.Runs

/-!
# The VPN service

`DpiVpnService` as a step relation over its coroutines. A step runs one coroutine
from one point where it can suspend, or where another thread can come in between,
to the next. `vpnLock` is not reentrant; in a cancelled coroutine `withContext` and
`delay` throw, and so does `lock` while it waits, and `withLock` gives the lock
back on the way out. What preferences, `establish` and the native engines answer
is part of the action.
-/

namespace VpnService

open Mutex

inductive Coro where
  /-- launched by `onStartCommand`, `onRevoke` or `onDestroy` -/
  | request (n : Nat)
  /-- the children of the `vpnWorkJob` with this number -/
  | proxyLaunch (job : Nat)
  | tunnelLaunch (job : Nat)
  /-- the `healthCheckJob` with this number -/
  | health (job : Nat)
  deriving DecidableEq, Repr

inductive Kind where
  | start
  | stop
  | pause
  | resume
  | destroy
  deriving DecidableEq, Repr

/-- Who runs `stopVpnInternal`: `stopVpnAsync`, or `handleStart` before a restart. -/
inductive Why where
  | stop
  | restart
  deriving DecidableEq, Repr

/-- What a coroutine is about to do. -/
inductive Pc where
  | absent
  | ended
  -- stopVpnAsync
  | lockStop
  | gate
  | publish
  | unlock
  -- stopVpnInternal
  | halt (why : Why)
  | engines (why : Why)
  | draining (why : Why) (waits : Nat)
  | close (why : Why)
  -- handleStart
  | lockStart
  | compare
  | restart
  | connect
  | native
  -- startVpnInternal
  | settings
  | establish
  | launch (fd : Option Nat)
  -- resumeVpn
  | lockResume
  | resume
  -- pauseVpn
  | lockPause
  | pause
  | pauseEngines
  | pauseDraining (waits : Nat)
  | paused
  -- onDestroy
  | lockDestroy
  | cleanup
  | cancelService
  -- proxyLaunch
  | proxyReady
  | proxyRunning
  -- tunnelLaunch
  | tunnelReady
  | waitForProxy
  | running
  | announce
  | healthCancel
  | healthLaunch
  | tunnelStart
  | tunnelRunning
  -- startHealthCheck
  | delay
  | check
  deriving DecidableEq, Repr

/-- Inside `vpnLock.withLock`. -/
def Pc.locked : Pc → Bool
  | .gate | .publish | .unlock | .halt _ | .engines _ | .draining _ _ | .close _ | .compare
  | .restart | .connect | .native | .settings | .establish | .launch _ | .resume | .pause
  | .pauseEngines | .pauseDraining _ | .paused | .cleanup => true
  | _ => false

/-- Before a `vpnLock.withLock`. -/
def Pc.locking : Pc → Bool
  | .lockStop | .lockStart | .lockResume | .lockPause | .lockDestroy => true
  | _ => false

structure VpnState where
  isRunning : Bool := false
  isPaused : Bool := false
  isConnecting : Bool := false
  isDisconnecting : Bool := false
  isError : Bool := false
  deriving DecidableEq, Repr

/-- None of the four phases of a connection. -/
def VpnState.off (v : VpnState) : Bool :=
  !v.isRunning && !v.isPaused && !v.isConnecting && !v.isDisconnecting

structure State where
  flags : VpnState := {}
  /-- what `updateVpnState` has published, the last one first -/
  published : List VpnState := [{}]
  isStopping : Bool := false
  vpnInterface : Option Nat := none
  /-- how many interfaces `establish` has returned -/
  established : Nat := 0
  closed : List Nat := []
  vpnWorkJob : Option Nat := none
  healthCheckJob : Option Nat := none
  works : Nat := 0
  healths : Nat := 0
  /-- the interface whose descriptor a `vpnWorkJob` was launched with -/
  workFd : Nat → Option Nat := fun _ => none
  cancelledWorks : List Nat := []
  cancelledHealths : List Nat := []
  /-- `serviceJob.cancel()` -/
  cancelled : Bool := false
  holder : Option Coro := none
  pc : Coro → Pc := fun _ => .absent

inductive Answer where
  | yes
  | no
  | fails
  deriving DecidableEq, Repr

inductive Act where
  | request (n : Nat) (kind : Kind)
  | go (c : Coro) (a : Answer)
  /-- `queryReceiver` -/
  | query
  deriving DecidableEq, Repr

def State.cancels (st : State) : Coro → Bool
  | .request _ => st.cancelled
  | .proxyLaunch j | .tunnelLaunch j => st.cancelled || st.cancelledWorks.contains j
  | .health j => st.cancelled || st.cancelledHealths.contains j

def State.goto (st : State) (c : Coro) (p : Pc) : State :=
  { st with pc := Function.update st.pc c p }

/-- The end of a `withLock` block, normal or not, and of the coroutine with it. -/
def State.release (st : State) (c : Coro) : State :=
  { st.goto c .ended with holder := none }

/-- `vpnLock.withLock {`; waiting in a cancelled coroutine throws. -/
def State.acquire (st : State) (c : Coro) (p : Pc) : Option State :=
  match st.holder with
  | none => some { st.goto c p with holder := some c }
  | some d =>
    if !st.cancels c then none
    else if d = c then some (st.release c) else some (st.goto c .ended)

/-- `updateVpnState` -/
def State.update (st : State) (running paused connecting disconnecting error : Bool) : State :=
  let v : VpnState := ⟨running, paused, connecting, disconnecting, error⟩
  { st with flags := v, published := v :: st.published }

def State.cancelHealth (st : State) : State :=
  { st with cancelledHealths := st.healthCheckJob.toList ++ st.cancelledHealths }

/-- `healthCheckJob?.cancel(); healthCheckJob = null; vpnWorkJob?.cancel(); vpnWorkJob = null` -/
def State.cancelJobs (st : State) : State :=
  { st with
    cancelledHealths := st.healthCheckJob.toList ++ st.cancelledHealths, healthCheckJob := none
    cancelledWorks := st.vpnWorkJob.toList ++ st.cancelledWorks, vpnWorkJob := none }

/-- A suspension inside `withLock`: goes on, or throws in a cancelled coroutine. -/
def State.suspend (st : State) (c : Coro) (next : State) : Option State :=
  if st.cancels c then some (st.release c) else some next

/-- `if (isRunning && !isPaused && !isStopping.get())`, as the workers ask it. -/
def State.live (st : State) : Bool :=
  st.flags.isRunning && !st.flags.isPaused && !st.isStopping

def State.fail (st : State) : State := { st with flags := { st.flags with isError := true } }

/-- The first `if` of `stopVpnAsync` behind the gate. -/
def State.idle (st : State) : Bool :=
  !st.flags.isRunning && !st.flags.isPaused && !st.flags.isConnecting && st.vpnInterface.isNone

/-- An engine exited: with an error when the answer says so. -/
def State.exited (st : State) (c : Coro) (a : Answer) : State :=
  if st.live then (if a = .fails then st.fail else st).goto c .lockStop else st.goto c .ended

def stopAsync (st : State) (c : Coro) : Pc → Option State
  | .lockStop => st.acquire c .gate
  | .gate =>
    if st.isStopping then some (st.release c)
    else if st.idle then
      some { st.release c with flags := { isError := st.flags.isError } }
    else
      let st := { st with isStopping := true }
      some ((st.update st.flags.isRunning st.flags.isPaused st.flags.isConnecting true
        st.flags.isError).goto c (.halt .stop))
  | .publish => some ((st.update false false false false st.flags.isError).goto c .unlock)
  | .unlock => some { st.release c with isStopping := false }
  | _ => none

/-- `stopVpnInternal`; a `yes` in the wait loop means that an engine still runs. -/
def stopInternal (st : State) (c : Coro) (a : Answer) : Pc → Option State
  | .halt w => some (st.cancelJobs.goto c (.engines w))
  | .engines w => st.suspend c (st.goto c (.draining w 0))
  | .draining w n =>
    st.suspend c (if a = .yes ∧ n < 30 then st.goto c (.draining w (n + 1)) else st.goto c (.close w))
  | .close w =>
    some { st.goto c (match w with | .stop => .publish | .restart => .connect) with
      closed := st.vpnInterface.toList ++ st.closed, vpnInterface := none
      flags := { isError := st.flags.isError } }
  | _ => none

/-- `handleStart`; the answers are `configChanged` and whether an engine runs. -/
def handleStart (st : State) (c : Coro) (a : Answer) : Pc → Option State
  | .lockStart => st.acquire c .compare
  | .compare =>
    if st.flags.isRunning && !st.flags.isPaused && a != .yes then
      some ({ st with published := st.flags :: st.published }.release c)
    else some (st.goto c .restart)
  | .restart =>
    if st.flags.isRunning || st.flags.isPaused || st.vpnInterface.isSome || a == .yes then
      some (st.goto c (.halt .restart))
    else some (st.goto c .connect)
  | .connect => some ((st.update false false true false false).goto c .native)
  | .native => st.suspend c (st.goto c .settings)
  | _ => none

/-- `startVpnInternal`. Reading the settings may throw outside the `try`, which
ends the coroutine; behind it, every failure goes to `stopVpnAsync`. -/
def startInternal (st : State) (c : Coro) (a : Answer) : Pc → Option State
  | .settings =>
    st.suspend c (match a with
      | .yes => st.goto c .establish
      | .no => st.goto c (.launch none)
      | .fails => st.release c)
  | .establish =>
    match a with
    | .yes =>
      some { st.goto c (.launch (some st.established)) with
        vpnInterface := some st.established, established := st.established + 1 }
    | .no | .fails => some (st.fail.goto c .lockStop)
  | .launch fd =>
    match a with
    | .fails => some (st.fail.goto c .lockStop)
    | .yes | .no =>
      let st := (st.goto (.proxyLaunch st.works) .proxyReady).goto (.tunnelLaunch st.works)
        .tunnelReady
      some ({ st with
        vpnWorkJob := some st.works, works := st.works + 1
        workFd := Function.update st.workFd st.works fd }.release c)
  | _ => none

def pauseResume (st : State) (c : Coro) (a : Answer) : Pc → Option State
  | .lockResume => st.acquire c .resume
  | .resume =>
    if st.flags.isPaused then
      some ((st.update false false true false st.flags.isError).goto c .settings)
    else some (st.release c)
  | .lockPause => st.acquire c .pause
  | .pause =>
    some ((st.update false true false true st.flags.isError).cancelJobs.goto c .pauseEngines)
  | .pauseEngines => st.suspend c (st.goto c (.pauseDraining 0))
  | .pauseDraining n =>
    st.suspend c (if a = .yes ∧ n < 20 then st.goto c (.pauseDraining (n + 1)) else st.goto c .paused)
  | .paused => some ((st.update false true false false st.flags.isError).release c)
  | .lockDestroy => st.acquire c .cleanup
  | .cleanup => some { st.goto c .cancelService with holder := none }
  | .cancelService => some { st.goto c .ended with cancelled := true }
  | _ => none

/-- The descriptor that `tunnelLaunch` holds; none in proxy mode. -/
def State.fdOf (st : State) : Coro → Option Nat
  | .tunnelLaunch j => st.workFd j
  | _ => none

/-- The children of `vpnWorkJob`, and `startHealthCheck`. None of this is under
the lock. -/
def workers (st : State) (c : Coro) (a : Answer) : Pc → Option State
  | .proxyReady => some (st.goto c (if st.cancels c then .ended else .proxyRunning))
  | .proxyRunning => some (st.exited c a)
  | .tunnelReady => some (st.goto c (if st.cancels c then .ended else .waitForProxy))
  | .waitForProxy =>
    if st.cancels c then some (st.goto c .ended)
    else if a = .yes then some (st.goto c .running)
    else some (st.fail.goto c .lockStop)
  | .running =>
    some { st.goto c .announce with
      flags := { isRunning := true, isDisconnecting := st.flags.isDisconnecting } }
  | .announce =>
    some ((st.update true false false false false).goto c
      (if (st.fdOf c).isSome then .healthCancel else .ended))
  | .healthCancel => some (st.cancelHealth.goto c .healthLaunch)
  | .healthLaunch =>
    some { (st.goto (.health st.healths) .delay).goto c .tunnelStart with
      healthCheckJob := some st.healths, healths := st.healths + 1 }
  | .tunnelStart => some (st.goto c .tunnelRunning)
  | .tunnelRunning => some (st.exited c a)
  | .delay => some (st.goto c (if st.cancels c then .ended else .check))
  | .check =>
    if st.live && a != .yes then some (st.fail.goto c .lockStop) else some (st.goto c .delay)
  | _ => none

/-- The part of the service that a program point belongs to. -/
def go (st : State) (c : Coro) (a : Answer) : Option State :=
  match st.pc c with
  | .absent | .ended => none
  | .lockStop | .gate | .publish | .unlock => stopAsync st c (st.pc c)
  | .halt _ | .engines _ | .draining _ _ | .close _ => stopInternal st c a (st.pc c)
  | .lockStart | .compare | .restart | .connect | .native => handleStart st c a (st.pc c)
  | .settings | .establish | .launch _ => startInternal st c a (st.pc c)
  | .lockResume | .resume | .lockPause | .pause | .pauseEngines | .pauseDraining _ | .paused
  | .lockDestroy | .cleanup | .cancelService => pauseResume st c a (st.pc c)
  | _ => workers st c a (st.pc c)

/-- Where the coroutine that a request launches begins. -/
def Kind.entry : Kind → Pc
  | .start => .lockStart
  | .stop => .lockStop
  | .pause => .lockPause
  | .resume => .lockResume
  | .destroy => .lockDestroy

/-- `handleStart` clears `isStopping` before it launches its coroutine. -/
def step (st : State) : Act → Option State
  | .request n kind =>
    if st.pc (.request n) = .absent then
      some { st.goto (.request n) (if st.cancelled then .ended else kind.entry) with
        isStopping := st.isStopping && kind != .start }
    else none
  | .go c a => go st c a
  | .query => some { st with published := st.flags :: st.published }

end VpnService
