import NoZapret.VpnService

/-!
# The service lock

Only one coroutine is inside `vpnLock.withLock`. It gets out again by its own
steps, unless it calls `stopVpnAsync` from within `startVpnInternal`, which asks
for the same lock once more.
-/

namespace VpnLock

open Mutex Runs VpnService

/-- The numbers of jobs not yet launched are free. -/
structure Fresh (st : State) : Prop where
  proxy : ∀ j, st.works ≤ j → st.pc (.proxyLaunch j) = .absent
  tunnel : ∀ j, st.works ≤ j → st.pc (.tunnelLaunch j) = .absent
  health : ∀ j, st.healths ≤ j → st.pc (.health j) = .absent

/-- Where a coroutine begins that another one launches. -/
def launched : Pc → Bool
  | .proxyReady | .tunnelReady | .delay => true
  | _ => false

lemma launched_out {p : Pc} (h : launched p = true) : p.locked = false := by
  cases p <;> first | rfl | cases h

/-- What a step of `c` does to the lock and to the other coroutines. -/
structure Moved (st st' : State) (c : Coro) : Prop where
  move : Move Pc.locked st.holder st'.holder c (st.pc c) (st'.pc c)
  others : ∀ d, d ≠ c → st'.pc d = st.pc d ∨ (st.pc d = .absent ∧ launched (st'.pc d) = true)
  fresh : Fresh st'

section Moves

variable {st st1 st' : State} {c : Coro} {p : Pc} {a : Answer}

lemma fresh_goto (hf : Fresh st) (hc : st.pc c ≠ .absent) (hpc : st1.pc = Function.update st.pc c p)
    (hworks : st1.works = st.works) (hhealths : st1.healths = st.healths) : Fresh st1 := by
  constructor
  · intro j hj
    have habs := hf.proxy j (hworks ▸ hj)
    rw [hpc, Function.update_of_ne (by rintro rfl; exact hc habs)]
    exact habs
  · intro j hj
    have habs := hf.tunnel j (hworks ▸ hj)
    rw [hpc, Function.update_of_ne (by rintro rfl; exact hc habs)]
    exact habs
  · intro j hj
    have habs := hf.health j (hhealths ▸ hj)
    rw [hpc, Function.update_of_ne (by rintro rfl; exact hc habs)]
    exact habs

/-- A step that only moves `c` on, and not into the lock. -/
lemma moved_goto (hf : Fresh st) (hc : st.pc c ≠ .absent) (hpc : st1.pc = Function.update st.pc c p)
    (hworks : st1.works = st.works) (hhealths : st1.healths = st.healths)
    (hholder : st1.holder = st.holder) (hlock : p.locked = true → (st.pc c).locked = true) :
    Moved st st1 c := by
  refine ⟨.keep hholder ?_, ?_, fresh_goto hf hc hpc hworks hhealths⟩
  · rw [hpc, Function.update_self]
    exact hlock
  · intro d hd
    rw [hpc, Function.update_of_ne hd]
    exact .inl rfl

/-- A step that gives the lock back. -/
lemma moved_give (hf : Fresh st) (hc : st.pc c ≠ .absent) (hpc : st1.pc = Function.update st.pc c p)
    (hworks : st1.works = st.works) (hhealths : st1.healths = st.healths)
    (hmine : st.holder = some c) (hfree : st1.holder = none) (hp : p.locked = false) :
    Moved st st1 c := by
  refine ⟨.give hmine hfree ?_, ?_, fresh_goto hf hc hpc hworks hhealths⟩
  · rw [hpc, Function.update_self]
    exact hp
  · intro d hd
    rw [hpc, Function.update_of_ne hd]
    exact .inl rfl

lemma moved_acquire (hf : Fresh st) (hc : st.pc c ≠ .absent) (hp : p.locked = true)
    (h : st.acquire c p = some st') : Moved st st' c := by
  unfold State.acquire at h
  split at h
  · next hfree =>
    cases h
    refine ⟨.take hfree rfl ?_, ?_, fresh_goto hf hc rfl rfl rfl⟩
    · simp only [State.goto, Function.update_self]
      exact hp
    · intro d hd
      exact .inl (Function.update_of_ne hd _ _)
  · next d hd =>
    split at h
    · cases h
    · split at h
      · next heq =>
        cases h
        exact moved_give hf hc rfl rfl rfl (heq ▸ hd) rfl rfl
      · cases h
        exact moved_goto hf hc rfl rfl rfl rfl (fun hl => by cases hl)

/-- A suspension point inside the lock. -/
lemma moved_suspend (hf : Fresh st) (hc : st.pc c ≠ .absent) (hmine : st.holder = some c)
    (hnext : Moved st st1 c) (h : st.suspend c st1 = some st') : Moved st st' c := by
  unfold State.suspend at h
  split at h
  · cases h
    exact moved_give hf hc rfl rfl rfl hmine rfl rfl
  · cases h
    exact hnext

lemma stopAsync_moved (hf : Fresh st) (hc : st.pc c ≠ .absent)
    (hmine : (st.pc c).locked = true → st.holder = some c)
    (h : stopAsync st c (st.pc c) = some st') : Moved st st' c := by
  cases hpc : st.pc c <;> rw [hpc] at h hmine <;> simp only [stopAsync, reduceCtorEq] at h
  case lockStop => exact moved_acquire hf hc rfl h
  case gate =>
    split at h
    · cases h
      exact moved_give hf hc rfl rfl rfl (hmine rfl) rfl rfl
    · split at h
      · cases h
        exact moved_give hf hc rfl rfl rfl (hmine rfl) rfl rfl
      · cases h
        exact moved_goto hf hc rfl rfl rfl rfl (fun _ => by rw [hpc]; rfl)
  case publish =>
    cases h
    exact moved_goto hf hc rfl rfl rfl rfl (fun _ => by rw [hpc]; rfl)
  case unlock =>
    cases h
    exact moved_give hf hc rfl rfl rfl (hmine rfl) rfl rfl

lemma stopInternal_moved (hf : Fresh st) (hc : st.pc c ≠ .absent)
    (hmine : (st.pc c).locked = true → st.holder = some c)
    (h : stopInternal st c a (st.pc c) = some st') : Moved st st' c := by
  cases hpc : st.pc c <;> rw [hpc] at h hmine <;> simp only [stopInternal, reduceCtorEq] at h
  case halt w =>
    cases h
    exact moved_goto hf hc rfl rfl rfl rfl (fun _ => by rw [hpc]; rfl)
  case engines w =>
    refine moved_suspend hf hc (hmine rfl) ?_ h
    exact moved_goto hf hc rfl rfl rfl rfl (fun _ => by rw [hpc]; rfl)
  case draining w n =>
    refine moved_suspend hf hc (hmine rfl) ?_ h
    split <;> exact moved_goto hf hc rfl rfl rfl rfl (fun _ => by rw [hpc]; rfl)
  case close w =>
    cases h
    exact moved_goto hf hc rfl rfl rfl rfl (fun _ => by rw [hpc]; rfl)

lemma handleStart_moved (hf : Fresh st) (hc : st.pc c ≠ .absent)
    (hmine : (st.pc c).locked = true → st.holder = some c)
    (h : handleStart st c a (st.pc c) = some st') : Moved st st' c := by
  cases hpc : st.pc c <;> rw [hpc] at h hmine <;> simp only [handleStart, reduceCtorEq] at h
  case lockStart => exact moved_acquire hf hc rfl h
  case compare =>
    split at h
    · cases h
      exact moved_give hf hc rfl rfl rfl (hmine rfl) rfl rfl
    · cases h
      exact moved_goto hf hc rfl rfl rfl rfl (fun _ => by rw [hpc]; rfl)
  case restart =>
    split at h <;> cases h <;>
      exact moved_goto hf hc rfl rfl rfl rfl (fun _ => by rw [hpc]; rfl)
  case connect =>
    cases h
    exact moved_goto hf hc rfl rfl rfl rfl (fun _ => by rw [hpc]; rfl)
  case native =>
    refine moved_suspend hf hc (hmine rfl) ?_ h
    exact moved_goto hf hc rfl rfl rfl rfl (fun _ => by rw [hpc]; rfl)

lemma launch_moved {fd : Option Nat} (hf : Fresh st) (hpc : st.pc c = .launch fd)
    (hmine : st.holder = some c) (ha : a ≠ .fails) (h : startInternal st c a (.launch fd) = some st') :
    Moved st st' c := by
  have hproxy : c ≠ .proxyLaunch st.works := by
    rintro rfl
    rw [hf.proxy st.works (Nat.le_refl _)] at hpc
    cases hpc
  have htunnel : c ≠ .tunnelLaunch st.works := by
    rintro rfl
    rw [hf.tunnel st.works (Nat.le_refl _)] at hpc
    cases hpc
  have hst' : st'.pc = Function.update (Function.update (Function.update st.pc
      (.proxyLaunch st.works) .proxyReady) (.tunnelLaunch st.works) .tunnelReady) c .ended ∧
      st'.holder = none ∧ st'.works = st.works + 1 ∧ st'.healths = st.healths := by
    cases a with
    | fails => exact absurd rfl ha
    | yes | no =>
      cases h
      exact ⟨rfl, rfl, rfl, rfl⟩
  obtain ⟨hpc', hholder, hworks, hhealths⟩ := hst'
  have hat : ∀ d, d ≠ c → d ≠ .tunnelLaunch st.works → d ≠ .proxyLaunch st.works →
      st'.pc d = st.pc d := by
    intro d hd ht hp
    rw [hpc', Function.update_of_ne hd, Function.update_of_ne ht, Function.update_of_ne hp]
  refine ⟨.give hmine hholder ?_, ?_, ?_, ?_, ?_⟩
  · rw [hpc', Function.update_self]
    rfl
  · intro d hd
    by_cases ht : d = .tunnelLaunch st.works
    · subst ht
      right
      refine ⟨hf.tunnel _ (Nat.le_refl _), ?_⟩
      rw [hpc', Function.update_of_ne hd, Function.update_self]
      rfl
    · by_cases hp : d = .proxyLaunch st.works
      · subst hp
        right
        refine ⟨hf.proxy _ (Nat.le_refl _), ?_⟩
        rw [hpc', Function.update_of_ne hd, Function.update_of_ne ht, Function.update_self]
        rfl
      · exact .inl (hat d hd ht hp)
  · intro j hj
    have habs := hf.proxy j (by omega)
    rw [hat _ (by rintro rfl; rw [habs] at hpc; cases hpc) (by simp)
      (by simp only [ne_eq, Coro.proxyLaunch.injEq]; omega)]
    exact habs
  · intro j hj
    have habs := hf.tunnel j (by omega)
    rw [hat _ (by rintro rfl; rw [habs] at hpc; cases hpc)
      (by simp only [ne_eq, Coro.tunnelLaunch.injEq]; omega) (by simp)]
    exact habs
  · intro j hj
    have habs := hf.health j (by omega)
    rw [hat _ (by rintro rfl; rw [habs] at hpc; cases hpc) (by simp) (by simp)]
    exact habs

lemma startInternal_moved (hf : Fresh st) (hc : st.pc c ≠ .absent)
    (hmine : (st.pc c).locked = true → st.holder = some c)
    (h : startInternal st c a (st.pc c) = some st') : Moved st st' c := by
  cases hpc : st.pc c <;> rw [hpc] at h hmine <;> simp only [startInternal, reduceCtorEq] at h
  case settings =>
    refine moved_suspend hf hc (hmine rfl) ?_ h
    cases a with
    | yes | no => exact moved_goto hf hc rfl rfl rfl rfl (fun _ => by rw [hpc]; rfl)
    | fails => exact moved_give hf hc rfl rfl rfl (hmine rfl) rfl rfl
  case establish =>
    cases a with
    | yes | no | fails =>
      cases h
      exact moved_goto hf hc rfl rfl rfl rfl (fun _ => by rw [hpc]; rfl)
  case launch fd =>
    cases a with
    | yes => exact launch_moved (a := .yes) hf hpc (hmine rfl) (by decide) h
    | no => exact launch_moved (a := .no) hf hpc (hmine rfl) (by decide) h
    | fails =>
      cases h
      exact moved_goto hf hc rfl rfl rfl rfl (fun _ => by rw [hpc]; rfl)

lemma pauseResume_moved (hf : Fresh st) (hc : st.pc c ≠ .absent)
    (hmine : (st.pc c).locked = true → st.holder = some c)
    (h : pauseResume st c a (st.pc c) = some st') : Moved st st' c := by
  cases hpc : st.pc c <;> rw [hpc] at h hmine <;> simp only [pauseResume, reduceCtorEq] at h
  case lockResume => exact moved_acquire hf hc rfl h
  case resume =>
    split at h
    · cases h
      exact moved_goto hf hc rfl rfl rfl rfl (fun _ => by rw [hpc]; rfl)
    · cases h
      exact moved_give hf hc rfl rfl rfl (hmine rfl) rfl rfl
  case lockPause => exact moved_acquire hf hc rfl h
  case pause =>
    cases h
    exact moved_goto hf hc rfl rfl rfl rfl (fun _ => by rw [hpc]; rfl)
  case pauseEngines =>
    refine moved_suspend hf hc (hmine rfl) ?_ h
    exact moved_goto hf hc rfl rfl rfl rfl (fun _ => by rw [hpc]; rfl)
  case pauseDraining n =>
    refine moved_suspend hf hc (hmine rfl) ?_ h
    split <;> exact moved_goto hf hc rfl rfl rfl rfl (fun _ => by rw [hpc]; rfl)
  case paused =>
    cases h
    exact moved_give hf hc rfl rfl rfl (hmine rfl) rfl rfl
  case lockDestroy => exact moved_acquire hf hc rfl h
  case cleanup =>
    cases h
    exact moved_give hf hc rfl rfl rfl (hmine rfl) rfl rfl
  case cancelService =>
    cases h
    exact moved_goto hf hc rfl rfl rfl rfl (fun hl => by cases hl)

lemma exited_moved (hf : Fresh st) (hc : st.pc c ≠ .absent) : Moved st (st.exited c a) c := by
  unfold State.exited
  split
  · split <;> exact moved_goto hf hc rfl rfl rfl rfl (fun hl => by cases hl)
  · exact moved_goto hf hc rfl rfl rfl rfl (fun hl => by cases hl)

lemma healthLaunch_moved (hf : Fresh st) (hpc : st.pc c = .healthLaunch)
    (h : workers st c a .healthLaunch = some st') : Moved st st' c := by
  have hhealth : c ≠ .health st.healths := by
    rintro rfl
    rw [hf.health st.healths (Nat.le_refl _)] at hpc
    cases hpc
  cases h
  refine ⟨.keep rfl ?_, ?_, ?_, ?_, ?_⟩
  · simp only [State.goto, Function.update_self]
    exact fun hl => by cases hl
  · intro d hd
    simp only [State.goto, Function.update_of_ne hd]
    by_cases hh : d = .health st.healths
    · subst hh
      right
      rw [Function.update_self]
      exact ⟨hf.health _ (Nat.le_refl _), rfl⟩
    · exact .inl (Function.update_of_ne hh _ _)
  · intro j hj
    have habs := hf.proxy j hj
    have hne : (.proxyLaunch j : Coro) ≠ c := by
      rintro rfl
      rw [habs] at hpc
      cases hpc
    simp only [State.goto, Function.update_of_ne hne]
    rw [Function.update_of_ne (by simp)]
    exact habs
  · intro j hj
    have habs := hf.tunnel j hj
    have hne : (.tunnelLaunch j : Coro) ≠ c := by
      rintro rfl
      rw [habs] at hpc
      cases hpc
    simp only [State.goto, Function.update_of_ne hne]
    rw [Function.update_of_ne (by simp)]
    exact habs
  · intro j hj
    have hj' : st.healths + 1 ≤ j := hj
    have habs := hf.health j (by omega)
    have hne : (.health j : Coro) ≠ c := by
      rintro rfl
      rw [habs] at hpc
      cases hpc
    simp only [State.goto, Function.update_of_ne hne]
    rw [Function.update_of_ne (by simp only [ne_eq, Coro.health.injEq]; omega)]
    exact habs

lemma workers_moved (hf : Fresh st) (hc : st.pc c ≠ .absent)
    (h : workers st c a (st.pc c) = some st') : Moved st st' c := by
  have hout : ∀ {p : Pc} {s : State}, p.locked = false → s.pc = Function.update st.pc c p →
      s.works = st.works → s.healths = st.healths → s.holder = st.holder → Moved st s c := by
    intro p s hp h1 h2 h3 h4
    exact moved_goto hf hc h1 h2 h3 h4 (fun hl => by rw [hp] at hl; cases hl)
  cases hpc : st.pc c <;> rw [hpc] at h <;> simp only [workers, reduceCtorEq] at h
  case proxyReady | tunnelReady | delay =>
    cases h
    refine hout ?_ rfl rfl rfl rfl
    split <;> rfl
  case proxyRunning | tunnelRunning =>
    cases h
    exact exited_moved hf hc
  case waitForProxy =>
    split at h
    · cases h
      exact hout rfl rfl rfl rfl rfl
    · split at h <;> cases h <;> exact hout rfl rfl rfl rfl rfl
  case running =>
    cases h
    exact hout rfl rfl rfl rfl rfl
  case announce =>
    cases h
    refine hout ?_ rfl rfl rfl rfl
    split <;> rfl
  case healthCancel | tunnelStart =>
    cases h
    exact hout rfl rfl rfl rfl rfl
  case healthLaunch => exact healthLaunch_moved (a := a) hf hpc h
  case check =>
    split at h <;> cases h <;> exact hout rfl rfl rfl rfl rfl

/-- Every step of a coroutine keeps to the lock and leaves the others alone. -/
theorem go_moved (hf : Fresh st) (hmine : (st.pc c).locked = true → st.holder = some c)
    (h : go st c a = some st') : Moved st st' c := by
  have hc : st.pc c ≠ .absent := by
    intro habs
    simp [go, habs] at h
  unfold go at h
  split at h
  case h_1 | h_2 => cases h
  case h_3 | h_4 | h_5 | h_6 => exact stopAsync_moved hf hc hmine h
  case h_7 | h_8 | h_9 | h_10 => exact stopInternal_moved hf hc hmine h
  case h_11 | h_12 | h_13 | h_14 | h_15 => exact handleStart_moved hf hc hmine h
  case h_16 | h_17 | h_18 => exact startInternal_moved hf hc hmine h
  case h_29 => exact workers_moved hf hc h
  all_goals exact pauseResume_moved hf hc hmine h

/-- In every run, whoever is inside `withLock` holds the lock. -/
structure Ordered (st : State) : Prop where
  exclusive : Exclusive Pc.locked st.holder st.pc
  fresh : Fresh st

lemma ordered_init : Ordered {} :=
  ⟨fun _ hl => (nomatch hl), fun _ _ => rfl, fun _ _ => rfl, fun _ _ => rfl⟩

lemma Moved.ordered (h : Moved st st' c) (ho : Ordered st) : Ordered st' := by
  refine ⟨ho.exclusive.step h.move ?_, h.fresh⟩
  intro d hd hl
  rcases h.others d hd with hsame | ⟨-, hnew⟩
  · rwa [hsame] at hl
  · rw [launched_out hnew] at hl
    cases hl

lemma request_moved {n : Nat} {kind : Kind} (hf : Fresh st)
    (h : step st (.request n kind) = some st') :
    st.pc (.request n) = .absent ∧ st'.holder = st.holder ∧ Fresh st' ∧
      (st'.pc (.request n)).locked = false ∧ ∀ d, d ≠ .request n → st'.pc d = st.pc d := by
  simp only [step] at h
  split at h
  · next habs =>
    have hlocked : (if st.cancelled then Pc.ended else kind.entry).locked = false := by
      split
      · rfl
      · cases kind <;> rfl
    cases h
    have hsame : ∀ d, d ≠ .request n →
        (st.goto (.request n) (if st.cancelled then .ended else kind.entry)).pc d = st.pc d :=
      fun d hd => Function.update_of_ne hd _ _
    refine ⟨habs, rfl, ⟨?_, ?_, ?_⟩, ?_, hsame⟩
    · exact fun j hj => (hsame (.proxyLaunch j) (by simp)).trans (hf.proxy j hj)
    · exact fun j hj => (hsame (.tunnelLaunch j) (by simp)).trans (hf.tunnel j hj)
    · exact fun j hj => (hsame (.health j) (by simp)).trans (hf.health j hj)
    · simp only [State.goto, Function.update_self]
      exact hlocked
  · cases h

theorem step_ordered {act : Act} (ho : Ordered st) (h : step st act = some st') : Ordered st' := by
  cases act with
  | request n kind =>
    obtain ⟨-, hholder, hfresh, hout, hsame⟩ := request_moved ho.fresh h
    refine ⟨?_, hfresh⟩
    intro d hd
    by_cases hn : d = .request n
    · subst hn
      rw [hout] at hd
      cases hd
    · rw [hholder]
      exact ho.exclusive d (hsame d hn ▸ hd)
  | go c a => exact (go_moved ho.fresh (ho.exclusive c) h).ordered ho
  | query =>
    cases h
    exact ⟨ho.exclusive, ho.fresh.proxy, ho.fresh.tunnel, ho.fresh.health⟩

end Moves

/-- How many more steps the coroutine takes inside the lock at most. -/
def rank : Pc → Nat
  | .unlock | .launch _ | .paused | .cleanup => 1
  | .publish | .establish => 2
  | .close .stop | .settings => 3
  | .native | .resume => 4
  | .connect => 5
  | .close .restart => 6
  | .draining .stop n => 4 + (30 - n)
  | .draining .restart n => 7 + (30 - n)
  | .engines .stop => 35
  | .engines .restart => 38
  | .halt .stop => 36
  | .halt .restart => 39
  | .gate => 37
  | .restart => 40
  | .compare => 41
  | .pauseDraining n => 2 + (20 - n)
  | .pauseEngines => 23
  | .pause => 24
  | _ => 0

/-- The condition on a step of a coroutine: `startVpnInternal` does not fail in
its `try`. -/
def answerClean (st : State) (c : Coro) (a : Answer) : Bool :=
  match st.pc c with
  | .establish => a == .yes
  | .launch _ => a != .fails
  | _ => true

def startClean (st : State) : Act → Bool
  | .go c a => answerClean st c a
  | .request _ _ | .query => true

section Progress

variable {st st1 : State} {c : Coro} {p : Pc}

/-- A step of the holder: it gives the lock back or comes nearer to it. -/
def Nearer (st : State) (c : Coro) (st' : State) : Prop :=
  st'.holder = none ∨
    (st'.holder = some c ∧ (st'.pc c).locked = true ∧ rank (st'.pc c) < rank (st.pc c))

lemma nearer_goto (hmine : st.holder = some c) (hpc : st1.pc = Function.update st.pc c p)
    (hholder : st1.holder = st.holder) (hp : p.locked = true) (hlt : rank p < rank (st.pc c)) :
    Nearer st c st1 := by
  right
  rw [hpc, Function.update_self]
  exact ⟨hholder.trans hmine, hp, hlt⟩

lemma nearer_suspend (h : Nearer st c st1) : ∃ st', st.suspend c st1 = some st' ∧ Nearer st c st' := by
  unfold State.suspend
  split
  · exact ⟨_, rfl, .inl rfl⟩
  · exact ⟨_, rfl, h⟩

/-- Inside the lock a coroutine is never blocked, and only a few steps from the end. -/
theorem go_nearer (hmine : st.holder = some c) (hlocked : (st.pc c).locked = true) (a : Answer)
    (hok : answerClean st c a = true) : ∃ st', go st c a = some st' ∧ Nearer st c st' := by
  unfold answerClean at hok
  cases hpc : st.pc c <;> rw [hpc] at hlocked hok <;> try cases hlocked
  case gate =>
    simp only [go, hpc, stopAsync]
    split
    · exact ⟨_, rfl, .inl rfl⟩
    · split
      · exact ⟨_, rfl, .inl rfl⟩
      · exact ⟨_, rfl, nearer_goto hmine rfl rfl rfl (by rw [hpc]; decide)⟩
  case publish =>
    simp only [go, hpc, stopAsync]
    exact ⟨_, rfl, nearer_goto hmine rfl rfl rfl (by rw [hpc]; decide)⟩
  case unlock =>
    simp only [go, hpc, stopAsync]
    exact ⟨_, rfl, .inl rfl⟩
  case halt w =>
    simp only [go, hpc, stopInternal]
    exact ⟨_, rfl, nearer_goto hmine rfl rfl rfl (by rw [hpc]; cases w <;> decide)⟩
  case engines w =>
    simp only [go, hpc, stopInternal]
    exact nearer_suspend (nearer_goto hmine rfl rfl rfl (by rw [hpc]; cases w <;> decide))
  case draining w n =>
    simp only [go, hpc, stopInternal]
    apply nearer_suspend
    split
    · next hwait =>
      refine nearer_goto hmine rfl rfl rfl ?_
      rw [hpc]
      cases w <;> simp only [rank] <;> omega
    · refine nearer_goto hmine rfl rfl rfl ?_
      rw [hpc]
      cases w <;> simp only [rank] <;> omega
  case close w =>
    simp only [go, hpc, stopInternal]
    refine ⟨_, rfl, nearer_goto hmine rfl rfl ?_ ?_⟩
    · cases w <;> rfl
    · rw [hpc]
      cases w <;> decide
  case compare =>
    simp only [go, hpc, handleStart]
    split
    · exact ⟨_, rfl, .inl rfl⟩
    · exact ⟨_, rfl, nearer_goto hmine rfl rfl rfl (by rw [hpc]; decide)⟩
  case restart =>
    simp only [go, hpc, handleStart]
    split <;> exact ⟨_, rfl, nearer_goto hmine rfl rfl rfl (by rw [hpc]; decide)⟩
  case connect =>
    simp only [go, hpc, handleStart]
    exact ⟨_, rfl, nearer_goto hmine rfl rfl rfl (by rw [hpc]; decide)⟩
  case native =>
    simp only [go, hpc, handleStart]
    exact nearer_suspend (nearer_goto hmine rfl rfl rfl (by rw [hpc]; decide))
  case settings =>
    simp only [go, hpc, startInternal]
    apply nearer_suspend
    cases a with
    | yes | no => exact nearer_goto hmine rfl rfl rfl (by rw [hpc]; simp [rank])
    | fails => exact .inl rfl
  case establish =>
    simp only [beq_iff_eq] at hok
    subst hok
    simp only [go, hpc, startInternal]
    exact ⟨_, rfl, nearer_goto hmine rfl rfl rfl (by rw [hpc]; simp [rank])⟩
  case launch fd =>
    simp only [go, hpc, startInternal]
    cases a with
    | yes | no => exact ⟨_, rfl, .inl rfl⟩
    | fails => cases hok
  case resume =>
    simp only [go, hpc, pauseResume]
    split
    · exact ⟨_, rfl, nearer_goto hmine rfl rfl rfl (by rw [hpc]; decide)⟩
    · exact ⟨_, rfl, .inl rfl⟩
  case pause =>
    simp only [go, hpc, pauseResume]
    exact ⟨_, rfl, nearer_goto hmine rfl rfl rfl (by rw [hpc]; decide)⟩
  case pauseEngines =>
    simp only [go, hpc, pauseResume]
    exact nearer_suspend (nearer_goto hmine rfl rfl rfl (by rw [hpc]; decide))
  case pauseDraining n =>
    simp only [go, hpc, pauseResume]
    apply nearer_suspend
    split
    · refine nearer_goto hmine rfl rfl rfl ?_
      rw [hpc]
      simp only [rank]
      omega
    · refine nearer_goto hmine rfl rfl rfl ?_
      rw [hpc]
      simp only [rank]
      omega
  case paused =>
    simp only [go, hpc, pauseResume]
    exact ⟨_, rfl, .inl rfl⟩
  case cleanup =>
    simp only [go, hpc, pauseResume]
    exact ⟨_, rfl, .inl rfl⟩

lemma rank_le (p : Pc) : rank p ≤ 41 := by
  cases p with
  | draining w n => cases w <;> simp only [rank] <;> omega
  | pauseDraining n =>
    simp only [rank]
    omega
  | halt w | engines w | close w => cases w <;> decide
  | _ => simp [rank]

end Progress

/-- While no start has failed inside the lock, the holder is inside it. -/
structure Held (st : State) : Prop where
  ordered : Ordered st
  held : ∀ c, st.holder = some c → (st.pc c).locked = true

theorem step_held {st st' : State} {act : Act} (hs : Held st) (hok : startClean st act = true)
    (h : step st act = some st') : Held st' := by
  refine ⟨step_ordered hs.ordered h, ?_⟩
  cases act with
  | request n kind =>
    obtain ⟨habs, hholder, -, -, hsame⟩ := request_moved hs.ordered.fresh h
    intro d hd
    have hin := hs.held d (hholder ▸ hd)
    by_cases hn : d = .request n
    · subst hn
      rw [habs] at hin
      cases hin
    · rw [hsame d hn]
      exact hin
  | go c a =>
    have hmoved := go_moved hs.ordered.fresh (hs.ordered.exclusive c) h
    intro d hd
    by_cases hdc : d = c
    · subst hdc
      cases hmoved.move with
      | keep same stay =>
        have hmine : st.holder = some d := same ▸ hd
        obtain ⟨s, hgo, hnear⟩ := go_nearer hmine (hs.held d hmine) a hok
        obtain rfl := Option.some.inj (hgo.symm.trans h)
        rcases hnear with hfree | ⟨-, hlocked, -⟩
        · rw [hfree] at hd
          cases hd
        · exact hlocked
      | take free mine entered => exact entered
      | give mine free out =>
        rw [free] at hd
        cases hd
    · cases hmoved.move with
      | keep same stay =>
        have hin := hs.held d (same ▸ hd)
        rcases hmoved.others d hdc with heq | ⟨habs, -⟩
        · rw [heq]
          exact hin
        · rw [habs] at hin
          cases hin
      | take free mine entered => exact absurd (Option.some.inj (hd.symm.trans mine)) hdc
      | give mine free out =>
        rw [free] at hd
        cases hd
  | query =>
    cases h
    exact hs.held

lemma locking_out {p : Pc} (h : p.locking = true) : p.locked = false := by
  cases p <;> first | rfl | cases h

/-- If `c` holds the lock, it is inside. -/
def Inside (c : Coro) (s : State) : Prop := s.holder = some c → (s.pc c).locked = true

/-- While no start fails inside the lock, no coroutine asks for the lock it holds,
and the holder gives it back after at most 42 steps of its own. -/
theorem lock_never_reentered (as : List Act) (st : State)
    (hok : Meets step (fun st act => startClean st act = true) {} as)
    (hrun : run step {} as = some st) :
    (∀ c, (st.pc c).locking = true → st.holder ≠ some c) ∧
      ∀ c, st.holder = some c → ∀ answers : List Answer,
        Meets (fun st a => go st c a) (fun st a => answerClean st c a = true) st answers →
        42 ≤ answers.length → ∃ m ≤ 42, ∃ st',
          run (fun st a => go st c a) st (answers.take m) = some st' ∧ st'.holder ≠ some c := by
  have hinit : Held {} := ⟨ordered_init, fun c hc => by cases hc⟩
  have hheld : Held st :=
    run_preserves (fun _ _ _ hs hok h => step_held hs hok h) hinit hok hrun
  constructor
  · intro c hlocking hmine
    have hin := hheld.held c hmine
    rw [locking_out hlocking] at hin
    cases hin
  · intro c hmine answers hclean hlen
    have hstep : ∀ (s : State) (a : Answer), Inside c s → ¬ s.holder ≠ some c →
        answerClean s c a = true → ∃ s', go s c a = some s' ∧ Inside c s' ∧
          (s'.holder ≠ some c ∨ rank (s'.pc c) < rank (s.pc c)) := by
      intro s a hin hnot hans
      have hmine : s.holder = some c := not_not.mp hnot
      obtain ⟨s', hgo, hnear⟩ := go_nearer hmine (hin hmine) a hans
      refine ⟨s', hgo, ?_, ?_⟩
      · rcases hnear with hfree | ⟨-, hlocked, -⟩
        · exact fun hc => by rw [hfree] at hc; cases hc
        · exact fun _ => hlocked
      · rcases hnear with hfree | ⟨-, -, hlt⟩
        · exact .inl (by simp [hfree])
        · exact .inr hlt
    have hle := rank_le (st.pc c)
    obtain ⟨m, hm, s, hs, hdone⟩ := finishes_within (fun s => rank (s.pc c)) hstep
      (hheld.held c) (by simp [hmine]) hclean (by omega)
    exact ⟨m, by omega, s, hs, hdone⟩

/-- A start in proxy mode that has just taken the lock. -/
theorem lock_never_reentered_start :
    ∃ st, run step {} [.request 0 .start, .go (.request 0) .no] = some st ∧
      (∀ c, (st.pc c).locking = true → st.holder ≠ some c) ∧
      ∃ m ≤ 42, ∃ st', run (fun st a => go st (.request 0) a) st
        ((List.replicate 42 Answer.no).take m) = some st' ∧ st'.holder ≠ some (.request 0) := by
  refine ⟨_, rfl, ?_⟩
  have h := lock_never_reentered [.request 0 .start, .go (.request 0) .no] _ (by decide) rfl
  exact ⟨h.1, h.2 (.request 0) rfl (List.replicate 42 .no) (by decide) (by decide)⟩

/-- `establish()` returns null: the start asks for the lock it holds, and nothing
it is answered brings it on. -/
theorem failed_establish_locks_up :
    ∃ st, run step {} [.request 0 .start, .go (.request 0) .no, .go (.request 0) .no,
        .go (.request 0) .no, .go (.request 0) .no, .go (.request 0) .no, .go (.request 0) .yes,
        .go (.request 0) .no] = some st ∧
      (st.pc (.request 0)).locking = true ∧ st.holder = some (.request 0) ∧
      ∀ a, go st (.request 0) a = none := by
  exact ⟨_, rfl, rfl, rfl, fun _ => rfl⟩

end VpnLock
