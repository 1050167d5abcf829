import Mathlib.Data.List.Nodup
import NoZapret.VpnLock

/-!
# The open VPN interfaces

`establish` hands out numbered interfaces; `vpnInterface` keeps one of them, and
`stopVpnInternal` closes what it finds there. `startVpnInternal` does not look at
what it overwrites.
-/

namespace VpnInterface

open Mutex Runs VpnService VpnLock

/-- The interfaces that are not closed yet. -/
def openInterfaces (st : State) : List Nat :=
  (List.range st.established).filter fun fd => !st.closed.contains fd

/-- `stopVpnAsync` returns. -/
def completes (st : State) : Act → Bool
  | .go c _ =>
    match st.pc c with
    | .gate => st.isStopping || st.idle
    | .unlock => true
    | _ => false
  | _ => false

/-- A step leaves one interface open at most, and none when it completes a stop. -/
structure OneInterface (st : State) (act : Act) (st' : State) : Prop where
  single : (openInterfaces st').length ≤ 1
  stopped : completes st act = true → ∀ fd, fd < st'.established → st'.closed.count fd = 1

/-- `establish` succeeds, or a stop turns back at the gate, only while no interface is kept. -/
def Vacant (st : State) : Act → Prop
  | .go c a =>
    (st.pc c = .establish → a = .yes → st.vpnInterface = none) ∧
      (st.pc c = .gate → st.isStopping = true → st.vpnInterface = none)
  | _ => True

instance (st : State) : (act : Act) → Decidable (Vacant st act)
  | .go c a =>
    inferInstanceAs (Decidable ((st.pc c = .establish → a = .yes → st.vpnInterface = none) ∧
      (st.pc c = .gate → st.isStopping = true → st.vpnInterface = none)))
  | .request _ _ | .query => isTrue trivial

/-- Behind the `close` of a stop. -/
def shut : Pc → Bool
  | .publish | .unlock => true
  | _ => false

lemma shut_locked {p : Pc} (h : shut p = true) : p.locked = true := by
  cases p <;> first | rfl | cases h

/-- A step of `c` that leaves the interfaces alone. -/
structure Kept (st st' : State) (c : Coro) : Prop where
  vpnInterface : st'.vpnInterface = st.vpnInterface
  established : st'.established = st.established
  closed : st'.closed = st.closed
  shut : shut (st'.pc c) = true → shut (st.pc c) = true

section Kept

variable {st s st' : State} {c : Coro} {p : Pc} {a : Answer}

lemma kept_at (hpc : s.pc c = p) (hp : shut p = false)
    (hi : s.vpnInterface = st.vpnInterface) (he : s.established = st.established)
    (hc : s.closed = st.closed) : Kept st s c := by
  refine ⟨hi, he, hc, ?_⟩
  rw [hpc, hp]
  nofun

lemma kept_goto (hpc : s.pc = Function.update st.pc c p) (hp : shut p = false)
    (hi : s.vpnInterface = st.vpnInterface) (he : s.established = st.established)
    (hc : s.closed = st.closed) : Kept st s c :=
  kept_at (by rw [hpc, Function.update_self]) hp hi he hc

lemma kept_acquire (hp : shut p = false) (h : st.acquire c p = some st') : Kept st st' c := by
  unfold State.acquire at h
  split at h
  · cases h
    exact kept_goto rfl hp rfl rfl rfl
  · split at h
    · cases h
    · split at h <;> cases h <;> exact kept_goto rfl rfl rfl rfl rfl

lemma kept_suspend (hs : Kept st s c) (h : st.suspend c s = some st') : Kept st st' c := by
  unfold State.suspend at h
  split at h <;> cases h
  · exact kept_goto rfl rfl rfl rfl rfl
  · exact hs

lemma kept_exited : Kept st (st.exited c a) c := by
  unfold State.exited
  split
  · split <;> exact kept_goto rfl rfl rfl rfl rfl
  · exact kept_goto rfl rfl rfl rfl rfl

/-- Only `establish` and `close` touch the interfaces. -/
theorem go_kept (he : st.pc c = .establish → a ≠ .yes) (hc : ∀ w, st.pc c ≠ .close w)
    (h : go st c a = some st') : Kept st st' c := by
  cases hpc : st.pc c <;>
    simp only [go, hpc, stopAsync, stopInternal, handleStart, startInternal, pauseResume,
      workers, reduceCtorEq] at h
  case lockStop | lockStart | lockResume | lockPause | lockDestroy => exact kept_acquire rfl h
  case gate =>
    split at h
    · cases h
      exact kept_goto rfl rfl rfl rfl rfl
    · split at h <;> cases h <;> exact kept_goto rfl rfl rfl rfl rfl
  case publish =>
    cases h
    exact ⟨rfl, rfl, rfl, fun _ => by rw [hpc]; rfl⟩
  case close w => exact absurd hpc (hc w)
  case engines | native | pauseEngines =>
    refine kept_suspend ?_ h
    exact kept_goto rfl rfl rfl rfl rfl
  case draining | pauseDraining =>
    refine kept_suspend ?_ h
    split <;> exact kept_goto rfl rfl rfl rfl rfl
  case settings =>
    refine kept_suspend ?_ h
    cases a <;> exact kept_goto rfl rfl rfl rfl rfl
  case establish =>
    cases a with
    | yes => exact absurd rfl (he hpc)
    | no | fails =>
      cases h
      exact kept_goto rfl rfl rfl rfl rfl
  case launch fd =>
    cases a with
    | fails =>
      cases h
      exact kept_goto rfl rfl rfl rfl rfl
    | yes | no =>
      cases h
      refine kept_at (p := .ended) ?_ rfl rfl rfl rfl
      exact Function.update_self _ _ _
  case compare | restart | resume | check =>
    split at h <;> cases h <;> exact kept_goto rfl rfl rfl rfl rfl
  case waitForProxy =>
    split at h
    · cases h
      exact kept_goto rfl rfl rfl rfl rfl
    · split at h <;> cases h <;> exact kept_goto rfl rfl rfl rfl rfl
  case proxyRunning | tunnelRunning =>
    cases h
    exact kept_exited
  case proxyReady | tunnelReady | delay | announce =>
    cases h
    split <;> exact kept_goto rfl rfl rfl rfl rfl
  case healthLaunch =>
    cases h
    refine kept_at (p := .tunnelStart) ?_ rfl rfl rfl rfl
    exact Function.update_self _ _ _
  all_goals
    cases h
    exact kept_goto rfl rfl rfl rfl rfl

end Kept

/-- What holds while the steps are vacant. -/
structure Ledger (st : State) : Prop where
  ordered : Ordered st
  kept : (List.range st.established).Perm (st.vpnInterface.toList ++ st.closed)
  shut : ∀ c, shut (st.pc c) = true → st.vpnInterface = none

lemma ledger_init : Ledger {} :=
  ⟨ordered_init, List.Perm.refl [], fun _ _ => rfl⟩

section Ledger

variable {st st' : State} {c : Coro} {a : Answer}

lemma Ledger.open_perm (hl : Ledger st) :
    (openInterfaces st).Perm st.vpnInterface.toList := by
  have hnodup : (st.vpnInterface.toList ++ st.closed).Nodup :=
    hl.kept.nodup_iff.mp (List.nodup_range)
  have hfilter := hl.kept.filter fun fd => !st.closed.contains fd
  rw [List.filter_append] at hfilter
  have hnone : st.closed.filter (fun fd => !st.closed.contains fd) = [] := by
    simp
  have hall : st.vpnInterface.toList.filter (fun fd => !st.closed.contains fd) =
      st.vpnInterface.toList := by
    rw [List.filter_eq_self]
    intro fd hfd
    have hdis := List.disjoint_of_nodup_append hnodup
    simpa using fun hc => hdis hfd hc
  rw [hnone, hall, List.append_nil] at hfilter
  exact hfilter

lemma Ledger.single (hl : Ledger st) : (openInterfaces st).length ≤ 1 := by
  rw [hl.open_perm.length_eq]
  cases st.vpnInterface <;> simp

/-- Each interface is closed once exactly when none is kept. -/
lemma Ledger.closed_iff (hl : Ledger st) :
    (∀ fd, fd < st.established → st.closed.count fd = 1) ↔ st.vpnInterface = none := by
  have hnodup : (st.vpnInterface.toList ++ st.closed).Nodup :=
    hl.kept.nodup_iff.mp List.nodup_range
  constructor
  · intro hall
    cases hi : st.vpnInterface with
    | none => rfl
    | some fd =>
      rw [hi] at hnodup
      have hmem : fd ∈ List.range st.established := by
        rw [hl.kept.mem_iff, hi]
        simp
      have hone := hall fd (List.mem_range.mp hmem)
      have hin : fd ∈ st.closed := List.count_pos_iff.mp (by omega)
      exact absurd hin (List.nodup_cons.mp hnodup).1
  · intro hnone fd hfd
    rw [hnone, Option.toList_none, List.nil_append] at hnodup
    have hmem : fd ∈ st.closed := by
      have := (hl.kept.mem_iff (a := fd)).mp (List.mem_range.mpr hfd)
      rwa [hnone, Option.toList_none, List.nil_append] at this
    exact List.count_eq_one_of_mem hnodup hmem

/-- The other coroutines stand where they stood, or have just been launched. -/
lemma shut_of_moved {d : Coro} (hm : Moved st st' c)
    (hc : shut (st'.pc c) = true → shut (st.pc c) = true) (hd : shut (st'.pc d) = true) :
    shut (st.pc d) = true := by
  have hlocked := shut_locked hd
  by_cases hdc : d = c
  · subst hdc
    exact hc hd
  rcases hm.others d hdc with hsame | ⟨-, hnew⟩
  · rwa [hsame] at hd
  · rw [launched_out hnew] at hlocked
    cases hlocked

lemma ledger_kept (hl : Ledger st) (ho : Ordered st') (hi : st'.vpnInterface = st.vpnInterface)
    (he : st'.established = st.established) (hc : st'.closed = st.closed)
    (hshut : ∀ d, shut (st'.pc d) = true → shut (st.pc d) = true) : Ledger st' := by
  refine ⟨ho, ?_, ?_⟩
  · rw [hi, he, hc]
    exact hl.kept
  · intro d hd
    exact hi.trans (hl.shut d (hshut d hd))

/-- Whoever is inside the lock is alone behind a `close`. -/
lemma shut_out (ho : Ordered st) (hin : (st.pc c).locked = true) (hnot : shut (st.pc c) = false)
    (d : Coro) : shut (st.pc d) = false := by
  cases hd : shut (st.pc d) with
  | false => rfl
  | true =>
    obtain rfl := ho.exclusive.unique hin (shut_locked hd)
    rw [hnot] at hd
    cases hd

lemma ledger_close {w : Why} (hl : Ledger st) (hpc : st.pc c = .close w)
    (h : go st c a = some st') : Ledger st' := by
  have hmoved := go_moved hl.ordered.fresh (hl.ordered.exclusive c) h
  have ho : Ordered st' := hmoved.ordered hl.ordered
  simp only [go, hpc, stopInternal] at h
  cases h
  exact ⟨ho, hl.kept, fun _ _ => rfl⟩

lemma ledger_establish (hl : Ledger st) (hpc : st.pc c = .establish)
    (hnone : st.vpnInterface = none) (h : go st c .yes = some st') : Ledger st' := by
  have hmoved := go_moved hl.ordered.fresh (hl.ordered.exclusive c) h
  have ho : Ordered st' := hmoved.ordered hl.ordered
  have hout := shut_out hl.ordered (c := c) (by rw [hpc]; rfl) (by rw [hpc]; rfl)
  have hkept := hl.kept
  rw [hnone, Option.toList_none, List.nil_append] at hkept
  simp only [go, hpc, startInternal] at h
  cases h
  refine ⟨ho, ?_, ?_⟩
  · rw [List.range_succ]
    exact (List.perm_append_singleton _ _).trans (hkept.cons _)
  · intro d hd
    have hsame := shut_of_moved hmoved (d := d) ?_ hd
    · rw [hout d] at hsame
      cases hsame
    · simp [State.goto, shut]

lemma ledger_step (st : State) (act : Act) (st' : State) (hl : Ledger st) (hok : Vacant st act)
    (h : step st act = some st') : Ledger st' := by
  cases act with
  | request n kind =>
    obtain ⟨-, -, -, hout, hsame⟩ := request_moved hl.ordered.fresh h
    have hshut : ∀ d, shut (st'.pc d) = true → shut (st.pc d) = true := by
      intro d hd
      by_cases hn : d = .request n
      · subst hn
        rw [shut_locked hd] at hout
        cases hout
      · rwa [hsame d hn] at hd
    have ho := step_ordered hl.ordered h
    simp only [step] at h
    split at h <;> cases h
    exact ledger_kept hl ho rfl rfl rfl hshut
  | query =>
    have ho := step_ordered hl.ordered h
    cases h
    exact ledger_kept hl ho rfl rfl rfl fun _ hd => hd
  | go c a =>
    by_cases hest : st.pc c = .establish ∧ a = .yes
    · obtain ⟨hpc, rfl⟩ := hest
      exact ledger_establish hl hpc (hok.1 hpc rfl) h
    by_cases hclose : ∃ w, st.pc c = .close w
    · obtain ⟨w, hpc⟩ := hclose
      exact ledger_close hl hpc h
    push Not at hest hclose
    have hk := go_kept hest hclose h
    have hmoved := go_moved hl.ordered.fresh (hl.ordered.exclusive c) h
    exact ledger_kept hl (hmoved.ordered hl.ordered) hk.vpnInterface hk.established hk.closed
      fun d hd => shut_of_moved hmoved hk.shut hd

lemma completes_cases {act : Act} (h : completes st act = true) :
    ∃ c a, act = .go c a ∧
      ((st.pc c = .gate ∧ (st.isStopping = true ∨ st.idle = true)) ∨ st.pc c = .unlock) := by
  cases act with
  | request n kind => cases h
  | query => cases h
  | go c a =>
    refine ⟨c, a, rfl, ?_⟩
    cases hpc : st.pc c <;> simp only [completes, hpc, Bool.false_eq_true] at h
    case gate => exact .inl ⟨rfl, by simpa using h⟩
    case unlock => exact .inr rfl

lemma vacant_of_completes {act : Act} (hl : Ledger st) (hok : Vacant st act)
    (h : completes st act = true) : st.vpnInterface = none := by
  obtain ⟨c, a, rfl, ⟨hpc, hstop | hidle⟩ | hpc⟩ := completes_cases h
  · exact hok.2 hpc hstop
  · simp only [State.idle, Bool.and_eq_true, Option.isNone_iff_eq_none] at hidle
    exact hidle.2
  · exact hl.shut c (by rw [hpc]; rfl)

/-- What a completed stop does last leaves the interfaces alone. -/
lemma completes_kept {act : Act} (hc : completes st act = true) (h : step st act = some st') :
    st'.vpnInterface = st.vpnInterface ∧ st'.established = st.established ∧
      st'.closed = st.closed := by
  obtain ⟨c, a, rfl, hpc⟩ := completes_cases hc
  have hk : Kept st st' c := by
    refine go_kept ?_ ?_ h
    · intro hest
      rcases hpc with ⟨hpc, -⟩ | hpc <;> cases hpc.symm.trans hest
    · intro w hclose
      rcases hpc with ⟨hpc, -⟩ | hpc <;> cases hpc.symm.trans hclose
  exact ⟨hk.vpnInterface, hk.established, hk.closed⟩

/-- An interface that is kept while the next one comes stays open beside it. -/
lemma two_open {fd : Nat} (hl : Ledger st) (hpc : st.pc c = .establish)
    (hi : st.vpnInterface = some fd) (h : go st c .yes = some st') :
    (openInterfaces st').length = 2 := by
  have hlen := hl.open_perm.length_eq
  have hfresh : st.established ∉ st.closed := by
    intro hmem
    have : st.established ∈ List.range st.established := by
      rw [hl.kept.mem_iff]
      exact List.mem_append_right _ hmem
    exact absurd (List.mem_range.mp this) (Nat.lt_irrefl _)
  simp only [go, hpc, startInternal] at h
  cases h
  unfold openInterfaces at hlen ⊢
  rw [hi] at hlen
  change ((List.range (st.established + 1)).filter _).length = 2
  rw [List.range_succ, List.filter_append, List.length_append]
  have hlast : [st.established].filter (fun fd => !st.closed.contains fd) = [st.established] := by
    simp [hfresh]
  exact congrArg₂ (· + ·) hlen (congrArg List.length hlast)

lemma oneInterface_iff (st : State) (act : Act) (st' : State) (hl : Ledger st)
    (h : step st act = some st') : OneInterface st act st' ↔ Vacant st act := by
  constructor
  · rintro ⟨hsingle, hstopped⟩
    cases act with
    | request n kind => trivial
    | query => trivial
    | go c a =>
      constructor
      · rintro hpc rfl
        cases hi : st.vpnInterface with
        | none => rfl
        | some fd =>
          have := two_open hl hpc hi h
          omega
      · intro hpc hstop
        have hc : completes st (.go c a) = true := by
          simp only [completes, hpc, hstop, Bool.true_or]
        obtain ⟨-, he, hclosed⟩ := completes_kept hc h
        have hall := hstopped hc
        rw [he, hclosed] at hall
        exact hl.closed_iff.mp hall
  · intro hok
    have hl' : Ledger st' := ledger_step st act st' hl hok h
    refine ⟨hl'.single, ?_⟩
    intro hc
    rw [hl'.closed_iff, (completes_kept hc h).1]
    exact vacant_of_completes hl hok hc

end Ledger

/-- In any run, one interface is open at most, and every one has been closed once when a
stop completes, exactly when `establish` and the stops that turn back at the gate find no
interface kept. -/
theorem one_interface_iff (acts : List Act) (st : State) (hrun : run step {} acts = some st) :
    Along step OneInterface {} acts ↔ Meets step Vacant {} acts :=
  along_iff_meets ledger_step oneInterface_iff ledger_init hrun

/-- A start in VPN mode up to the launch of the `vpnWorkJob`. -/
def connecting : List Act :=
  .request 0 .start :: List.replicate 5 (.go (.request 0) .no) ++
    List.replicate 3 (.go (.request 0) .yes)

/-- A stop of a connection; the engines are down at the first look. -/
def stopping : List Act := .request 9 .stop :: List.replicate 8 (.go (.request 9) .no)

theorem one_interface_iff_stop :
    ∃ st, run step {} (connecting ++ stopping) = some st ∧ st.pc (.request 9) = .ended ∧
      st.closed = [0] ∧ Along step OneInterface {} (connecting ++ stopping) :=
  ⟨_, rfl, rfl, rfl, (one_interface_iff (connecting ++ stopping) _ rfl).mpr (by decide)⟩

/-- A pause, and a resume that is about to establish. -/
def resuming : List Act :=
  .request 1 .pause :: List.replicate 5 (.go (.request 1) .no) ++
    .request 2 .resume :: List.replicate 3 (.go (.request 2) .yes)

/-- The interface that the pause kept is overwritten, and no stop closes it any more. -/
theorem resume_loses_interface :
    ∃ st st', run step {} (connecting ++ resuming ++ [.go (.request 2) .yes]) = some st ∧
      openInterfaces st = [0, 1] ∧
      ¬ Along step OneInterface {} (connecting ++ resuming ++ [.go (.request 2) .yes]) ∧
      run step st (.go (.request 2) .yes :: stopping) = some st' ∧
        st'.pc (.request 9) = .ended ∧ openInterfaces st' = [0] := by
  refine ⟨_, _, rfl, rfl, ?_, rfl, rfl, rfl⟩
  intro halong
  have hlast := (along_last halong rfl rfl).single
  exact absurd hlast (by decide)

end VpnInterface
