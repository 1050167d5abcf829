import NoZapret.Library.Runs

/-!
# Cancelling an update

`UpdateManager.downloadAndInstall` on an IO thread against `cancelDownload` on the main
thread. A step of either is one access to what they share: the state flow, the active
call, the call itself. What the network, the package manager and the installer answer is
chosen with the step.
-/

namespace UpdateCancel

open Runs

inductive UpdateState where
  | idle
  | checking
  | updateAvailable
  | connecting
  | downloading
  | verifying
  | readyToInstall
  | installPermissionRequired
  | installerLaunched
  | installing
  | completed
  | failed
  | cancelled
  deriving DecidableEq, Repr

inductive Call where
  | direct
  | proxy
  deriving DecidableEq, Repr

/-- Where the download is. -/
inductive Pc where
  /-- the look for a download in progress -/
  | start
  | connect
  | direct
  | directExecute
  /-- is the local proxy reachable? -/
  | fallback
  | proxy
  | proxyExecute
  | response (successful : Bool)
  | body
  | read
  /-- the look at the state after a piece of the stream -/
  | piece (bytes : Nat)
  | progress (bytes : Nat)
  | stalled
  /-- the look at the state after the stream -/
  | streamed
  | complete
  | verify
  | install
  | launch
  | launched
  /-- the look at the state after an exception -/
  | caught
  | fail
  | finally
  | cleanup
  | returned
  deriving DecidableEq, Repr

/-- Where `cancelDownload` is: the call is cancelled, then forgotten. -/
inductive Canceller where
  | idle
  | called
  | forgotten
  deriving DecidableEq, Repr

structure State where
  updateState : UpdateState
  activeCall : Option Call := none
  directCancelled : Bool := false
  proxyCancelled : Bool := false
  pc : Pc := .start
  downloadedBytes : Nat := 0
  lastReadBytes : Nat := 0
  /-- `installApk` was called -/
  installed : Bool := false
  canceller : Canceller := .idle
  /-- `cancelDownload` has set CANCELLED -/
  cancelSet : Bool := false
  deriving DecidableEq, Repr

/-- What a step is told. -/
inductive Answer where
  | next
  | response (successful : Bool)
  | reachable (yes : Bool)
  | body (present : Bool)
  /-- a piece of the stream -/
  | piece (bytes : Nat)
  | endOfStream
  /-- more than 20 s without progress -/
  | late (yes : Bool)
  | short (yes : Bool)
  /-- the package is one, has the right name and could be renamed -/
  | valid (yes : Bool)
  | missing
  | noPermission
  | installable
  | started (yes : Bool)
  | exception
  deriving DecidableEq, Repr

inductive Act where
  | work (answer : Answer)
  | cancelCall
  | forgetCall
  | setCancelled
  deriving DecidableEq, Repr

namespace State

def goto (st : State) (pc : Pc) : State := { st with pc }

def put (st : State) (updateState : UpdateState) (pc : Pc) : State := { st with updateState, pc }

end State

/-- Inside the `try` of `downloadAndInstall`, where what is called may throw. -/
def Pc.throws : Pc → Bool
  | .proxyExecute | .body | .read | .progress _ | .complete | .verify | .install => true
  | _ => false

/-- One step of `downloadAndInstall`. A call that was cancelled does not respond. -/
def work (st : State) : Pc → Answer → Option State
  | .start, .next =>
    some (if st.updateState = .connecting ∨ st.updateState = .downloading then st.goto .returned
      else st.goto .connect)
  | .connect, .next => some (st.put .connecting .direct)
  | .direct, .next => some { st with activeCall := some .direct, pc := .directExecute }
  | .directExecute, .response successful =>
    if st.directCancelled then none
    else some (st.goto (if successful then .response true else .fallback))
  | .directExecute, .exception => some (st.goto .fallback)
  | .fallback, .reachable yes => some (st.goto (if yes then .proxy else .caught))
  | .proxy, .next => some { st with activeCall := some .proxy, pc := .proxyExecute }
  | .proxyExecute, .response successful =>
    if st.proxyCancelled then none else some (st.goto (.response successful))
  | .response successful, .next =>
    some (if successful then st.put .downloading .body else st.put .failed .finally)
  | .body, .body present =>
    some (if present then { st with downloadedBytes := 0, lastReadBytes := 0, pc := .read }
      else st.put .failed .finally)
  | .read, .piece bytes => if bytes = 0 then none else some (st.goto (.piece bytes))
  | .read, .endOfStream => some (st.goto .streamed)
  | .piece bytes, .next =>
    some (st.goto (if st.updateState = .cancelled then .finally else .progress bytes))
  | .progress bytes, .late yes =>
    let st := { st with downloadedBytes := st.downloadedBytes + bytes }
    some (if st.downloadedBytes > st.lastReadBytes then
        { st with lastReadBytes := st.downloadedBytes, pc := .read }
      else st.goto (if yes then .stalled else .read))
  | .stalled, .next => some (st.put .failed .finally)
  | .streamed, .next =>
    some (st.goto (if st.updateState = .cancelled then .finally else .complete))
  | .complete, .short yes =>
    some (if yes then st.put .failed .finally else st.put .verifying .verify)
  | .verify, .valid yes =>
    some (if yes then st.put .readyToInstall .install else st.put .failed .finally)
  | .install, .missing => some (st.put .failed .finally)
  | .install, .noPermission => some (st.put .installPermissionRequired .finally)
  | .install, .installable => some (st.put .installing .launch)
  | .launch, .next => some { st with installed := true, pc := .launched }
  | .launched, .started yes =>
    some (st.put (if yes then .installerLaunched else .failed) .finally)
  | .caught, .next => some (st.goto (if st.updateState = .cancelled then .finally else .fail))
  | .fail, .next => some (st.put .failed .finally)
  | .finally, .next => some { st with activeCall := none, pc := .cleanup }
  | .cleanup, .next => some (st.goto .returned)
  | pc, .exception => if pc.throws then some (st.goto .caught) else none
  | _, _ => none

/-- `cancelDownload` may be called any number of times, one after the other. -/
def step (st : State) : Act → Option State
  | .work answer => work st st.pc answer
  | .cancelCall =>
    if st.canceller = .idle then
      some { st with
        directCancelled := st.directCancelled || st.activeCall == some .direct
        proxyCancelled := st.proxyCancelled || st.activeCall == some .proxy
        canceller := .called }
    else none
  | .forgetCall =>
    if st.canceller = .called then some { st with activeCall := none, canceller := .forgotten }
    else none
  | .setCancelled =>
    if st.canceller = .forgotten then
      some { st with updateState := .cancelled, cancelSet := true, canceller := .idle }
    else none

/-- What a cancelled download must not lead to. -/
def UpdateState.goesOn : UpdateState → Bool
  | .downloading | .verifying | .readyToInstall | .installPermissionRequired | .installing
  | .installerLaunched | .failed => true
  | _ => false

/-- Once CANCELLED is set a step shows nothing else of the download and installs nothing. -/
def StaysCancelled (st : State) (_ : Act) (st' : State) : Prop :=
  st.cancelSet = true → st'.updateState.goesOn = false ∧ st'.installed = st.installed

/-- The download looks at the state again before it changes it, unless a call responds. -/
def Pc.heeds : Pc → Bool
  | .direct | .directExecute | .fallback | .proxy | .proxyExecute | .body | .read | .piece _
  | .progress _ | .streamed | .caught | .finally | .cleanup | .returned => true
  | _ => false

/-- CANCELLED is set while the download will look at the state again, and no call
responds after it: neither the direct one with success nor the one through the proxy. -/
def InTime (st : State) : Act → Prop
  | .setCancelled => st.pc.heeds = true
  | .work (.response successful) =>
    st.cancelSet = true → st.pc = .directExecute ∧ successful = false
  | .work (.body present) => st.cancelSet = true → present = true
  | _ => True

instance (st : State) : ∀ act, Decidable (InTime st act)
  | .setCancelled => inferInstanceAs (Decidable (st.pc.heeds = true))
  | .work (.response successful) => inferInstanceAs (Decidable (st.cancelSet = true →
      st.pc = .directExecute ∧ successful = false))
  | .work (.body present) => inferInstanceAs (Decidable (st.cancelSet = true → present = true))
  | .work .next | .work (.reachable _) | .work (.piece _) | .work .endOfStream | .work (.late _)
  | .work (.short _) | .work (.valid _) | .work .missing | .work .noPermission
  | .work .installable | .work (.started _) | .work .exception | .cancelCall | .forgetCall =>
    isTrue trivial

/-- A piece is never empty, so that there is progress with every one. -/
structure Counts (st : State) : Prop where
  progress : st.lastReadBytes ≤ st.downloadedBytes
  pieces : ∀ bytes, st.pc = .piece bytes ∨ st.pc = .progress bytes → 0 < bytes

/-- A cancelled download stands where it will look at the state again. -/
def Heeding (st : State) : Prop :=
  st.cancelSet = true → st.updateState = .cancelled ∧ st.pc.heeds = true

variable {st st' : State} {answer : Answer} {act : Act}

lemma work_frame (h : work st st.pc answer = some st') :
    st'.cancelSet = st.cancelSet ∧ st'.canceller = st.canceller := by
  unfold work at h
  split at h
  all_goals
    first
    | cases h
    | (split at h <;> cases h)
  all_goals try split
  all_goals exact ⟨rfl, rfl⟩

lemma counts_elsewhere (hcount : st.lastReadBytes ≤ st.downloadedBytes)
    (hpc : ∀ bytes, st.pc ≠ .piece bytes ∧ st.pc ≠ .progress bytes) : Counts st := by
  constructor
  · exact hcount
  · rintro bytes (h | h)
    · exact absurd h (hpc bytes).1
    · exact absurd h (hpc bytes).2

lemma work_counts (hc : Counts st) (h : work st st.pc answer = some st') : Counts st' := by
  obtain ⟨hprogress, hpieces⟩ := hc
  generalize hat : st.pc = pc at h
  cases pc with
  | read =>
    cases answer <;> simp only [work, Pc.throws, if_true, reduceCtorEq] at h
    case piece bytes =>
      split at h
      · cases h
      · next hne =>
        cases h
        refine ⟨hprogress, ?_⟩
        rintro n (hn | hn)
        · cases hn
          omega
        · cases hn
    all_goals
      cases h
      exact counts_elsewhere hprogress (by simp [State.goto])
  | piece bytes =>
    cases answer <;> simp only [work, Pc.throws, reduceCtorEq] at h
    case next =>
      cases h
      refine ⟨hprogress, ?_⟩
      have hpos := hpieces bytes (Or.inl hat)
      simp only [State.goto]
      split <;> rintro n (hn | hn) <;> cases hn
      exact hpos
    all_goals simp at h
  | progress bytes =>
    cases answer <;> simp only [work, Pc.throws, if_true, reduceCtorEq] at h
    case late yes =>
      cases h
      split
      · exact counts_elsewhere (Nat.le_refl _) (by simp)
      · refine counts_elsewhere (Nat.le_trans hprogress (Nat.le_add_right _ _)) ?_
        cases yes <;> simp [State.goto]
    case exception =>
      cases h
      exact counts_elsewhere hprogress (by simp [State.goto])
  | body =>
    cases answer <;> simp only [work, Pc.throws, if_true, reduceCtorEq] at h
    case body present =>
      cases present <;> cases h
      · exact counts_elsewhere hprogress (by simp [State.put])
      · exact counts_elsewhere (Nat.le_refl 0) (by simp)
    case exception =>
      cases h
      exact counts_elsewhere hprogress (by simp [State.goto])
  | _ =>
    -- everything else leaves the counts alone and goes to none of the two
    cases answer <;>
      simp only [work, Pc.throws, if_true, if_false, reduceCtorEq, Bool.false_eq_true] at h <;>
      (try split at h) <;> cases h
    all_goals
      refine counts_elsewhere ?_ ?_
      · (try split) <;> exact hprogress
      · intro n
        (try split) <;> simp [State.goto, State.put]

/-- A cancelled download that will look at the state again does so before it changes it. -/
lemma work_heeding (hc : Counts st) (hset : st.cancelSet = true) (hstate : st.updateState = .cancelled)
    (hheeds : st.pc.heeds = true) (hok : InTime st (.work answer))
    (h : work st st.pc answer = some st') :
    st'.updateState = .cancelled ∧ st'.pc.heeds = true ∧ st'.installed = st.installed := by
  obtain ⟨hprogress, hpieces⟩ := hc
  generalize hat : st.pc = pc at h hheeds
  cases pc <;> try cases hheeds
  case directExecute =>
    cases answer <;> simp only [work, reduceCtorEq] at h
    case response successful =>
      obtain ⟨-, rfl⟩ := hok hset
      split at h <;> cases h
      exact ⟨hstate, rfl, rfl⟩
    case exception =>
      cases h
      exact ⟨hstate, rfl, rfl⟩
  case proxyExecute =>
    cases answer <;> simp only [work, Pc.throws, reduceCtorEq, if_true] at h
    case response successful =>
      have hno := (hok hset).1
      rw [hat] at hno
      cases hno
    case exception =>
      cases h
      exact ⟨hstate, rfl, rfl⟩
  case body =>
    cases answer <;> simp only [work, Pc.throws, reduceCtorEq, if_true] at h
    case body present =>
      obtain rfl := hok hset
      cases h
      exact ⟨hstate, rfl, rfl⟩
    case exception =>
      cases h
      exact ⟨hstate, rfl, rfl⟩
  case progress bytes =>
    have hpos := hpieces bytes (Or.inr hat)
    cases answer <;> simp only [work, Pc.throws, reduceCtorEq, if_true] at h
    case late yes =>
      rw [if_pos (by omega)] at h
      cases h
      exact ⟨hstate, rfl, rfl⟩
    case exception =>
      cases h
      exact ⟨hstate, rfl, rfl⟩
  all_goals
    cases answer <;>
      simp only [work, Pc.throws, hstate, if_true, if_false, reduceCtorEq, Bool.false_eq_true] at h <;>
      (try split at h) <;> cases h
    all_goals
      refine ⟨?_, ?_, rfl⟩
      · first
        | exact hstate
        | rfl
      · rfl

lemma step_inv (h : Counts st ∧ Heeding st) (hok : InTime st act) (hst : step st act = some st') :
    Counts st' ∧ Heeding st' := by
  obtain ⟨hcounts, hheeding⟩ := h
  cases act with
  | work answer =>
    refine ⟨work_counts hcounts hst, ?_⟩
    intro hset
    rw [(work_frame hst).1] at hset
    obtain ⟨hstate, hheeds⟩ := hheeding hset
    obtain ⟨hstate', hheeds', -⟩ := work_heeding hcounts hset hstate hheeds hok hst
    exact ⟨hstate', hheeds'⟩
  | cancelCall =>
    simp only [step] at hst
    split at hst <;> cases hst
    exact ⟨⟨hcounts.progress, hcounts.pieces⟩, hheeding⟩
  | forgetCall =>
    simp only [step] at hst
    split at hst <;> cases hst
    exact ⟨⟨hcounts.progress, hcounts.pieces⟩, hheeding⟩
  | setCancelled =>
    simp only [step] at hst
    split at hst <;> cases hst
    exact ⟨⟨hcounts.progress, hcounts.pieces⟩, fun _ => ⟨rfl, hok⟩⟩

lemma step_stays (h : Counts st ∧ Heeding st) (hok : InTime st act) (hst : step st act = some st') :
    StaysCancelled st act st' := by
  intro hset
  obtain ⟨hstate, hheeds⟩ := h.2 hset
  cases act with
  | work answer =>
    obtain ⟨hstate', -, hinstalled⟩ := work_heeding h.1 hset hstate hheeds hok hst
    rw [hstate']
    exact ⟨rfl, hinstalled⟩
  | cancelCall | forgetCall | setCancelled =>
    simp only [step] at hst
    split at hst <;> cases hst
    simp [hstate, UpdateState.goesOn]

/-- A download of which CANCELLED is set in time shows no more of itself and is not installed. -/
theorem cancelled_not_installed (updateState : UpdateState) {acts : List Act}
    (hok : Meets step InTime { updateState } acts) :
    Along step StaysCancelled { updateState } acts := by
  have hkeep : ∀ st act st', Counts st ∧ Heeding st → InTime st act → step st act = some st' →
      Counts st' ∧ Heeding st' := fun st act st' h hok hst => step_inv h hok hst
  apply along_of_meets hkeep
  · exact fun st act st' h hok hst => step_stays h hok hst
  · refine ⟨counts_elsewhere (Nat.le_refl 0) (by simp), ?_⟩
    intro hset
    cases hset
  · exact hok

/-- CANCELLED set while the stream is being read. -/
theorem cancelled_not_installed_reading :
    Along step StaysCancelled { updateState := .updateAvailable }
      ([.work .next, .work .next, .work .next, .work (.response true), .work .next,
        .work (.body true), .work (.piece 5), .cancelCall, .forgetCall, .setCancelled, .work .next,
        .work .next, .work .next]) :=
  cancelled_not_installed .updateAvailable (by decide)

/-- A cancel during the direct call, up to the response of the call through the proxy. -/
def retry : List Act := [.work .next, .work .next, .work .next, .cancelCall, .forgetCall,
  .setCancelled, .work .exception, .work (.reachable true), .work .next, .work (.response true)]

/-- The direct call, cancelled, throws; the one through the proxy that is made next is not
cancelled, and the download goes on to the installer. -/
theorem proxy_retry_installs :
    (∃ st, run step { updateState := .updateAvailable } (retry ++ [.work .next,
        .work (.body true), .work (.piece 5), .work .next, .work (.late false), .work .endOfStream,
        .work .next, .work (.short false), .work (.valid true), .work .installable, .work .next,
        .work (.started true)]) = some st ∧
      st.cancelSet = true ∧ st.installed = true ∧ st.updateState = .installerLaunched) ∧
    ¬ Along step StaysCancelled { updateState := .updateAvailable } (retry ++ [.work .next]) := by
  refine ⟨⟨_, rfl, rfl, rfl, rfl⟩, ?_⟩
  intro h
  have hlast := along_last h rfl rfl
  exact absurd (hlast rfl).1 (by decide)

end UpdateCancel
