import NoZapret.Library.Runs

/-!
# The engine of a test

`testStrategy` from the launch of the native proxy on: the coroutine of the test, the child
coroutine that blocks in `jniStartProxy`, and a cancellation that may come at any time.
`withContext` ends only behind its children, and nothing but the engine ends the blocked
child.
-/

namespace TestProxy

open Runs

/-- The child coroutine; `serving` is an engine that listens on port 1081. -/
inductive Engine where
  | launched
  | starting
  | serving
  | exited
  deriving DecidableEq, Repr

inductive Pc where
  /-- the test of the loop that waits for the proxy -/
  | polling (wait : Nat)
  /-- `delay(250.milliseconds)` -/
  | pausing (wait : Nat)
  /-- `cancelAndJoin` of a proxy that is not ready -/
  | givingUp
  | dns
  | checking (left : Nat)
  | stopping
  | closing
  | joining
  | releasing (releaseWait : Nat)
  | lastPause
  /-- `catch (e: Exception)` and `finally` -/
  | caught
  /-- `withContext` waits for the child; without a result it throws -/
  | leaving (result : Option Bool)
  | done (result : Option Bool)
  deriving DecidableEq, Repr

structure State where
  /-- `sitesToTest.size` -/
  total : Nat
  pc : Pc := .polling 0
  engine : Engine := .launched
  cancelled : Bool := false
  /-- `byedpi_stop` was executed -/
  stopped : Bool := false
  /-- it found the engine serving -/
  told : Bool := false
  deriving DecidableEq, Repr

/-- How a connection, a check or a question of the coroutine turns out. -/
inductive Answer where
  | yes
  | no
  /-- an `Exception` -/
  | throws
  /-- another `Throwable` -/
  | error
  deriving DecidableEq, Repr

inductive EngineAct where
  | starts
  | refused
  | listens
  | exits
  deriving DecidableEq, Repr

inductive Act where
  | test (a : Answer)
  | engine (e : EngineAct)
  | cancel
  deriving DecidableEq, Repr

namespace State

def goto (st : State) (p : Pc) : State := { st with pc := p }

/-- A suspension point throws in a cancelled coroutine. -/
def suspend (st : State) (p : Pc) : State := st.goto (if st.cancelled then .caught else p)

/-- The body of a child that was not dispatched never runs. -/
def cancelProxy (st : State) : State :=
  { st with engine := if st.engine = .launched then .exited else st.engine }

/-- `byedpi_stop` -/
def stop (st : State) : State :=
  { st with stopped := true, told := st.told || st.engine == .serving }

/-- `proxyJob.cancelAndJoin()` -/
def cancelAndJoin (st : State) (p : Pc) : Option State :=
  let st := st.cancelProxy
  if st.cancelled then some (st.goto .caught)
  else if st.engine = .exited then some (st.goto p)
  else none

/-- Work of the test that may fail. -/
def attempt (st : State) (a : Answer) (p : Pc) : State :=
  match a with
  | .throws => st.goto .caught
  | .error => st.cancelProxy.goto (.leaving none)
  | .yes | .no => st.suspend p

end State

def testStrategy (st : State) (a : Answer) : Option State :=
  match st.pc with
  | .polling wait =>
    if wait < 40 ∧ st.cancelled = false then
      some (st.goto (if st.engine = .serving ∧ a = .yes then .dns else .pausing wait))
    else some (st.goto .givingUp)
  | .pausing wait => some (st.suspend (.polling (wait + 1)))
  | .givingUp => st.cancelAndJoin (.leaving (some false))
  | .dns => some (st.attempt a (.checking st.total))
  | .checking 0 => some (st.suspend .stopping)
  -- the scope of the checks looks at a cancellation when they are done
  | .checking (left + 1) =>
    some (match a with
      | .throws => st.goto .caught
      | .error => st.cancelProxy.goto (.leaving none)
      | .yes | .no => st.goto (.checking left))
  | .stopping => some (st.stop.goto .closing)
  | .closing => some (st.stop.goto .joining)
  | .joining => st.cancelAndJoin (.releasing 0)
  | .releasing releaseWait =>
    if a = .yes ∧ releaseWait < 20 then some (st.suspend (.releasing (releaseWait + 1)))
    else some (st.goto .lastPause)
  | .lastPause => some (st.suspend (.leaving (some true)))
  | .caught => some (st.goto (.leaving (some false)))
  | .leaving result =>
    if st.engine = .exited then some (st.goto (.done (if st.cancelled then none else result)))
    else none
  | .done _ => none

/-- `proxy.start` in the child. -/
def proxyStart (st : State) (e : EngineAct) : Option State :=
  match st.engine, e with
  | .launched, .starts => some { st with engine := .starting }
  | .starting, .refused => some { st with engine := .exited }
  | .starting, .listens => some { st with engine := .serving }
  | .serving, .exits => some { st with engine := .exited }
  | _, _ => none

def step (st : State) : Act → Option State
  | .test a => testStrategy st a
  | .engine e => proxyStart st e
  | .cancel => if st.cancelled then none else some { st.cancelProxy with cancelled := true }

/-- What goes on by itself: an engine that serves comes back when it was told to. -/
def Due (st : State) : Act → Prop
  | .test _ => True
  | .engine .exits => st.told = true
  | .engine _ => True
  | .cancel => False

/-- Nothing more happens by itself. -/
def Over (st : State) : Prop := ∀ act, Due st act → step st act = none

/-- The test has come back, and has stopped its engine before. -/
def CleansUp (st : State) : Prop := (∃ result, st.pc = .done result) ∧ st.stopped = true

/-- Before `proxy.stop()`. -/
def Pc.early : Pc → Bool
  | .polling _ | .pausing _ | .dns | .checking _ => true
  | _ => false

/-- The proxy is ready in time, and no check throws. -/
def Pc.smooth (a : Answer) : Pc → Prop
  | .polling wait => wait < 40
  | .dns | .checking (_ + 1) => a = .yes ∨ a = .no
  | _ => True

/-- Nor does a cancellation come before `proxy.stop()`. -/
def Smooth (st : State) : Act → Prop
  | .test a => st.pc.smooth a
  | .engine _ => True
  | .cancel => st.pc.early = false

instance (a : Answer) : DecidablePred (Pc.smooth a)
  | .polling wait => inferInstanceAs (Decidable (wait < 40))
  | .dns | .checking (_ + 1) => inferInstanceAs (Decidable (a = .yes ∨ a = .no))
  | .pausing _ | .givingUp | .checking 0 | .stopping | .closing | .joining | .releasing _
  | .lastPause | .caught | .leaving _ | .done _ => inferInstanceAs (Decidable True)

instance (st : State) : DecidablePred (Smooth st)
  | .test a => inferInstanceAs (Decidable (st.pc.smooth a))
  | .engine _ => inferInstanceAs (Decidable True)
  | .cancel => inferInstanceAs (Decidable (st.pc.early = false))

section Bound

def Pc.rank (total : Nat) : Pc → Nat
  | .done _ => 0
  | .leaving _ => 1
  | .caught => 2
  | .givingUp | .lastPause => 3
  | .releasing releaseWait => 4 + (20 - releaseWait)
  | .joining => 25
  | .closing => 26
  | .stopping => 27
  | .checking left => 28 + left
  | .dns => 29 + total
  | .polling wait => 30 + total + 3 * (40 - wait)
  | .pausing wait => 31 + total + 3 * (40 - (wait + 1))

def Engine.rank : Engine → Nat
  | .launched => 3
  | .starting => 2
  | .serving => 1
  | .exited => 0

/-- An upper bound for the steps to come. -/
def fuel (st : State) : Nat :=
  st.pc.rank st.total + st.engine.rank + (!st.cancelled).toNat

variable {st st' : State} {a : Answer} {p : Pc}

lemma fuel_goto (hr : p.rank st.total < st.pc.rank st.total) : fuel (st.goto p) < fuel st := by
  simp only [fuel, State.goto]
  omega

lemma fuel_suspend (hr : p.rank st.total < st.pc.rank st.total) (h2 : 2 < st.pc.rank st.total) :
    fuel (st.suspend p) < fuel st := by
  refine fuel_goto ?_
  split
  · exact h2
  · exact hr

lemma fuel_cancelProxy (st : State) : fuel st.cancelProxy ≤ fuel st := by
  have hle : st.cancelProxy.engine.rank ≤ st.engine.rank := by
    unfold State.cancelProxy
    cases st.engine <;> simp [Engine.rank]
  simp only [fuel, State.cancelProxy] at hle ⊢
  omega

lemma fuel_cancelAndJoin (hr : p.rank st.total < st.pc.rank st.total)
    (h2 : 2 < st.pc.rank st.total) (h : st.cancelAndJoin p = some st') : fuel st' < fuel st := by
  have hle := fuel_cancelProxy st
  simp only [State.cancelAndJoin] at h
  split at h
  · cases h
    exact Nat.lt_of_lt_of_le (fuel_goto h2) hle
  · split at h <;> cases h
    exact Nat.lt_of_lt_of_le (fuel_goto hr) hle

lemma fuel_attempt (hr : p.rank st.total < st.pc.rank st.total) (h2 : 2 < st.pc.rank st.total) :
    fuel (st.attempt a p) < fuel st := by
  have h1 : (Pc.leaving none).rank st.total < st.pc.rank st.total := by
    change 1 < _
    omega
  cases a with
  | throws => exact fuel_goto h2
  | error => exact Nat.lt_of_lt_of_le (fuel_goto h1) (fuel_cancelProxy st)
  | yes => exact fuel_suspend hr h2
  | no => exact fuel_suspend hr h2

lemma fuel_test (h : testStrategy st a = some st') : fuel st' < fuel st := by
  unfold testStrategy at h
  split at h
  · next wait hpc =>
    split at h
    · next hwait =>
      cases h
      refine fuel_goto ?_
      rw [hpc]
      split <;> simp only [Pc.rank] <;> omega
    · cases h
      refine fuel_goto ?_
      rw [hpc]
      simp only [Pc.rank]
      omega
  · next wait hpc =>
    cases h
    refine fuel_suspend ?_ ?_ <;> rw [hpc] <;> simp only [Pc.rank] <;> omega
  · next hpc =>
    refine fuel_cancelAndJoin ?_ ?_ h <;> rw [hpc] <;> simp only [Pc.rank] <;> omega
  · next hpc =>
    cases h
    refine fuel_attempt ?_ ?_ <;> rw [hpc] <;> simp only [Pc.rank] <;> omega
  · next hpc =>
    cases h
    refine fuel_suspend ?_ ?_ <;> rw [hpc] <;> simp only [Pc.rank] <;> omega
  · next left hpc =>
    have hlt : ∀ q : Pc, q.rank st.total ≤ 28 + left → fuel (st.goto q) < fuel st := by
      intro q hq
      refine fuel_goto ?_
      rw [hpc]
      change _ < 28 + (left + 1)
      omega
    cases h
    cases a with
    | throws => exact hlt .caught (by simp only [Pc.rank]; omega)
    | error =>
      have hleave : fuel (st.goto (.leaving none)) < fuel st :=
        hlt (.leaving none) (by simp only [Pc.rank]; omega)
      exact Nat.lt_of_le_of_lt (fuel_cancelProxy (st.goto (.leaving none))) hleave
    | yes => exact hlt (.checking left) (by simp only [Pc.rank]; omega)
    | no => exact hlt (.checking left) (by simp only [Pc.rank]; omega)
  · next hpc =>
    cases h
    have hlt : fuel (st.stop.goto .closing) < fuel st.stop := by
      refine fuel_goto ?_
      simp only [State.stop, hpc, Pc.rank]
      omega
    exact hlt
  · next hpc =>
    cases h
    have hlt : fuel (st.stop.goto .joining) < fuel st.stop := by
      refine fuel_goto ?_
      simp only [State.stop, hpc, Pc.rank]
      omega
    exact hlt
  · next hpc =>
    refine fuel_cancelAndJoin ?_ ?_ h <;> rw [hpc] <;> simp only [Pc.rank] <;> omega
  · next releaseWait hpc =>
    split at h
    · cases h
      refine fuel_suspend ?_ ?_ <;> rw [hpc] <;> simp only [Pc.rank] <;> omega
    · cases h
      refine fuel_goto ?_
      rw [hpc]
      simp only [Pc.rank]
      omega
  · next hpc =>
    cases h
    refine fuel_suspend ?_ ?_ <;> rw [hpc] <;> simp only [Pc.rank] <;> omega
  · next hpc =>
    cases h
    refine fuel_goto ?_
    rw [hpc]
    simp only [Pc.rank]
    omega
  · next result hpc =>
    split at h <;> cases h
    refine fuel_goto ?_
    rw [hpc]
    simp only [Pc.rank]
    omega
  · cases h

lemma fuel_step (st : State) (act : Act) (st' : State) (h : step st act = some st') :
    fuel st' < fuel st := by
  cases act with
  | test a => exact fuel_test h
  | engine e =>
    simp only [step, proxyStart] at h
    split at h <;> cases h <;> simp only [fuel, *, Engine.rank] <;> omega
  | cancel =>
    simp only [step] at h
    split at h <;> cases h
    next hc =>
    have hle := fuel_cancelProxy st
    simp only [Bool.not_eq_true] at hc
    have hcp : st.cancelProxy.cancelled = false := hc
    simp only [fuel, hc, hcp, Bool.not_false, Bool.toNat_true, Bool.not_true, Bool.toNat_false]
      at hle ⊢
    omega

end Bound

section Cleanup

variable {st st' : State} {a : Answer} {p : Pc}

/-- Between the two calls that stop the engine and the end of the body. -/
def Pc.late : Pc → Bool
  | .closing | .joining | .releasing _ | .lastPause => true
  | _ => false

def Pc.final : Pc → Bool
  | .caught | .leaving _ | .done _ => true
  | _ => false

structure Inv (st : State) : Prop where
  ready : st.pc = .dns ∨ (∃ left, st.pc = .checking left) ∨ st.pc = .stopping →
    st.engine = .serving ∨ st.engine = .exited
  late : st.pc.late = true → st.stopped = true
  stopped : st.stopped = true →
    (st.engine = .serving ∧ st.told = true ∨ st.engine = .exited) ∧
      (st.pc.late = true ∨ st.pc.final = true)

/-- `proxy.stop()` was not executed and will not be. -/
def Astray (st : State) : Prop :=
  st.stopped = false ∧
    (st.pc.early = true ∧ st.cancelled = true ∨ st.pc = .givingUp ∨ st.pc.final = true)

lemma inv_start (total : Nat) : Inv { total := total } := by
  refine ⟨?_, ?_, ?_⟩
  · rintro (h | ⟨left, h⟩ | h) <;> cases h
  · intro h
    cases h
  · intro h
    cases h

lemma inv_goto (hi : Inv st)
    (hready : p = .dns ∨ (∃ left, p = .checking left) ∨ p = .stopping →
      st.engine = .serving ∨ st.engine = .exited)
    (hlate : p.late = true → st.stopped = true)
    (hstop : st.stopped = true → p.late = true ∨ p.final = true) : Inv (st.goto p) :=
  ⟨hready, hlate, fun h => ⟨(hi.stopped h).1, hstop h⟩⟩

lemma inv_final (hi : Inv st) (hp : p.final = true) : Inv (st.goto p) := by
  refine inv_goto hi ?_ ?_ fun _ => .inr hp
  · rintro (rfl | ⟨left, rfl⟩ | rfl) <;> cases hp
  · intro hl
    cases p <;> simp only [Pc.late, Pc.final, Bool.false_eq_true] at hl hp

lemma inv_suspend (hi : Inv st) (h : Inv (st.goto p)) : Inv (st.suspend p) := by
  unfold State.suspend
  split
  · exact inv_final hi rfl
  · exact h

lemma inv_cancelProxy (hi : Inv st) : Inv st.cancelProxy := by
  unfold State.cancelProxy
  constructor
  · intro h
    rcases hi.ready h with he | he
    · exact .inl (by simp only [he, reduceCtorEq, if_false])
    · exact .inr (by simp only [he, reduceCtorEq, if_false])
  · exact hi.late
  · intro h
    refine ⟨?_, (hi.stopped h).2⟩
    rcases (hi.stopped h).1 with ⟨he, ht⟩ | he
    · exact .inl ⟨by simp only [he, reduceCtorEq, if_false], ht⟩
    · exact .inr (by simp only [he, reduceCtorEq, if_false])

lemma not_stopped (hi : Inv st) (hl : st.pc.late = false) (hf : st.pc.final = false) :
    st.stopped = false := by
  by_contra h
  rcases (hi.stopped (eq_true_of_ne_false h)).2 with h | h
  · exact absurd h (by simp only [hl, Bool.false_eq_true, not_false_iff])
  · exact absurd h (by simp only [hf, Bool.false_eq_true, not_false_iff])

lemma inv_before (hi : Inv st) (hs : st.stopped = false) (hp : p.late = false)
    (hready : p = .dns ∨ (∃ left, p = .checking left) ∨ p = .stopping →
      st.engine = .serving ∨ st.engine = .exited) : Inv (st.goto p) := by
  refine inv_goto hi hready ?_ ?_
  · intro h
    exact absurd h (by simp only [hp, Bool.false_eq_true, not_false_iff])
  · intro h
    exact absurd h (by simp only [hs, Bool.false_eq_true, not_false_iff])

lemma inv_late (hi : Inv st) (hs : st.stopped = true) (hp : p.late = true) :
    Inv (st.goto p) := by
  refine inv_goto hi ?_ (fun _ => hs) fun _ => .inl hp
  rintro (rfl | ⟨left, rfl⟩ | rfl) <;> cases hp

lemma inv_stop (he : st.engine = .serving ∨ st.engine = .exited) (hp : p.late = true) :
    Inv (st.stop.goto p) := by
  refine ⟨fun _ => he, fun _ => rfl, fun _ => ⟨?_, .inl hp⟩⟩
  rcases he with he | he
  · refine .inl ⟨he, ?_⟩
    simp only [State.goto, State.stop, he, beq_self_eq_true, Bool.or_true]
  · exact .inr he

lemma inv_cancelAndJoin (hi : Inv st) (hp : Inv (st.cancelProxy.goto p))
    (h : st.cancelAndJoin p = some st') : Inv st' := by
  simp only [State.cancelAndJoin] at h
  split at h
  · cases h
    exact inv_final (inv_cancelProxy hi) rfl
  · split at h <;> cases h
    exact hp

lemma inv_attempt (hi : Inv st) (hp : Inv (st.goto p)) : Inv (st.attempt a p) := by
  cases a with
  | throws => exact inv_final hi rfl
  | error => exact inv_final (inv_cancelProxy hi) rfl
  | yes => exact inv_suspend hi hp
  | no => exact inv_suspend hi hp

lemma inv_test (hi : Inv st) (h : testStrategy st a = some st') : Inv st' := by
  unfold testStrategy at h
  split at h
  · next wait hpc =>
    have hs : st.stopped = false := not_stopped hi (by rw [hpc]; rfl) (by rw [hpc]; rfl)
    split at h
    · cases h
      split
      · next hready => exact inv_before hi hs rfl fun _ => .inl hready.1
      · refine inv_before hi hs rfl ?_
        rintro (h | ⟨left, h⟩ | h) <;> cases h
    · cases h
      refine inv_before hi hs rfl ?_
      rintro (h | ⟨left, h⟩ | h) <;> cases h
  · next wait hpc =>
    have hs : st.stopped = false := not_stopped hi (by rw [hpc]; rfl) (by rw [hpc]; rfl)
    cases h
    refine inv_suspend hi (inv_before hi hs rfl ?_)
    rintro (h | ⟨left, h⟩ | h) <;> cases h
  · exact inv_cancelAndJoin hi (inv_final (inv_cancelProxy hi) rfl) h
  · next hpc =>
    have hs : st.stopped = false := not_stopped hi (by rw [hpc]; rfl) (by rw [hpc]; rfl)
    cases h
    exact inv_attempt hi (inv_before hi hs rfl fun _ => hi.ready (.inl hpc))
  · next hpc =>
    have hs : st.stopped = false := not_stopped hi (by rw [hpc]; rfl) (by rw [hpc]; rfl)
    cases h
    exact inv_suspend hi (inv_before hi hs rfl fun _ => hi.ready (.inr (.inl ⟨0, hpc⟩)))
  · next left hpc =>
    have hs : st.stopped = false := not_stopped hi (by rw [hpc]; rfl) (by rw [hpc]; rfl)
    have hnext : Inv (st.goto (.checking left)) :=
      inv_before hi hs rfl fun _ => hi.ready (.inr (.inl ⟨left + 1, hpc⟩))
    cases h
    cases a with
    | throws => exact inv_final hi rfl
    | error => exact inv_final (inv_cancelProxy hi) rfl
    | yes => exact hnext
    | no => exact hnext
  · next hpc =>
    cases h
    exact inv_stop (hi.ready (.inr (.inr hpc))) rfl
  · next hpc =>
    cases h
    refine inv_stop ?_ rfl
    exact (hi.stopped (hi.late (by rw [hpc]; rfl))).1.imp_left And.left
  · next hpc =>
    have hs : st.stopped = true := hi.late (by rw [hpc]; rfl)
    exact inv_cancelAndJoin hi (inv_late (inv_cancelProxy hi) hs rfl) h
  · next releaseWait hpc =>
    have hs : st.stopped = true := hi.late (by rw [hpc]; rfl)
    split at h
    · cases h
      exact inv_suspend hi (inv_late hi hs rfl)
    · cases h
      exact inv_late hi hs rfl
  · cases h
    exact inv_suspend hi (inv_final hi rfl)
  · cases h
    exact inv_final hi rfl
  · split at h <;> cases h
    exact inv_final hi rfl
  · cases h

lemma inv_step (st : State) (act : Act) (st' : State) (hi : Inv st) (h : step st act = some st') :
    Inv st' := by
  cases act with
  | test a => exact inv_test hi h
  | engine e =>
    simp only [step, proxyStart] at h
    have hnot : st.engine = .launched ∨ st.engine = .starting → st.stopped = false ∧
        ¬ (st.pc = .dns ∨ (∃ left, st.pc = .checking left) ∨ st.pc = .stopping) := by
      intro he
      constructor
      · by_contra hs
        rcases (hi.stopped (eq_true_of_ne_false hs)).1 with ⟨h', -⟩ | h' <;>
          rcases he with he | he <;> cases he.symm.trans h'
      · intro hpc
        rcases hi.ready hpc with h' | h' <;> rcases he with he | he <;> cases he.symm.trans h'
    split at h <;> cases h
    · next he =>
      obtain ⟨hs, hpc⟩ := hnot (.inl he)
      exact ⟨fun h => absurd h hpc, hi.late, fun h => absurd (hs.symm.trans h) (by decide)⟩
    · next he =>
      obtain ⟨hs, hpc⟩ := hnot (.inr he)
      exact ⟨fun h => absurd h hpc, hi.late, fun h => absurd (hs.symm.trans h) (by decide)⟩
    · next he =>
      obtain ⟨hs, hpc⟩ := hnot (.inr he)
      exact ⟨fun h => absurd h hpc, hi.late, fun h => absurd (hs.symm.trans h) (by decide)⟩
    · exact ⟨fun _ => .inr rfl, hi.late, fun h => ⟨.inr rfl, (hi.stopped h).2⟩⟩
  | cancel =>
    simp only [step] at h
    split at h <;> cases h
    have hc := inv_cancelProxy hi
    exact ⟨hc.ready, hc.late, hc.stopped⟩

lemma astray_of_stopped (hs : st.stopped = true) : ¬ Astray st := by
  rintro ⟨h, -⟩
  exact absurd (hs.symm.trans h) (by decide)

/-- The test and what it may leave behind, seen from `proxy.stop()`. -/
lemma astray_goto (hs : st.stopped = false) :
    Astray (st.goto p) ↔ p.early = true ∧ st.cancelled = true ∨ p = .givingUp ∨ p.final = true :=
  ⟨fun h => h.2, fun h => ⟨hs, h⟩⟩

lemma astray_final (hs : st.stopped = false) (hp : p.final = true) : Astray (st.goto p) :=
  (astray_goto hs).mpr (.inr (.inr hp))

/-- At a suspension point before `proxy.stop()` the test goes astray if it was cancelled. -/
lemma astray_suspend (hs : st.stopped = false) (hp : p.early = true ∨ p = .stopping) :
    Astray (st.suspend p) ↔ st.cancelled = true := by
  unfold State.suspend
  by_cases hc : st.cancelled = true
  · rw [if_pos hc]
    exact ⟨fun _ => hc, fun _ => astray_final hs rfl⟩
  · rw [if_neg hc, astray_goto hs]
    constructor
    · rintro (h | rfl | h)
      · exact h.2
      · rcases hp with hp | hp <;> cases hp
      · rcases hp with hp | rfl
        · cases p <;> simp only [Pc.early, Pc.final, Bool.false_eq_true] at hp h
        · cases h
    · intro h
      exact absurd h hc

lemma astray_early (hs : st.stopped = false) (hp : st.pc.early = true) :
    Astray st ↔ st.cancelled = true := by
  constructor
  · rintro ⟨-, h | h | h⟩
    · exact h.2
    · rw [h] at hp
      cases hp
    · cases hpc : st.pc <;> rw [hpc] at h hp <;>
        simp only [Pc.early, Pc.final, Bool.false_eq_true] at hp h
  · intro h
    exact ⟨hs, .inl ⟨hp, h⟩⟩

lemma astray_attempt (hs : st.stopped = false) (hp : p.early = true) :
    Astray (st.attempt a p) ↔ st.cancelled = true ∨ ¬ (a = .yes ∨ a = .no) := by
  cases a with
  | throws =>
    have hast : Astray (st.goto .caught) := astray_final hs rfl
    simpa [State.attempt] using hast
  | error =>
    have hast : Astray (st.cancelProxy.goto (.leaving none)) := astray_final hs rfl
    simpa [State.attempt] using hast
  | yes => simp [State.attempt, astray_suspend hs (.inl hp)]
  | no => simp [State.attempt, astray_suspend hs (.inl hp)]

/-- A step between two states that have left the body without `proxy.stop()`, or with it. -/
lemma astray_same (hs : st'.stopped = st.stopped) (hp : st.pc = .givingUp ∨ st.pc.final = true)
    (hp' : st'.pc.final = true) : Astray st' ↔ Astray st := by
  constructor
  · rintro ⟨h, -⟩
    exact ⟨hs.symm.trans h, .inr hp⟩
  · rintro ⟨h, -⟩
    exact ⟨hs.trans h, .inr (.inr hp')⟩

lemma astray_cancelAndJoin (h : st.cancelAndJoin p = some st') :
    st'.stopped = st.stopped ∧ (st'.pc = .caught ∨ st'.pc = p) := by
  simp only [State.cancelAndJoin] at h
  split at h
  · cases h
    exact ⟨rfl, .inl rfl⟩
  · split at h <;> cases h
    exact ⟨rfl, .inr rfl⟩

lemma astray_test (hi : Inv st) (h : testStrategy st a = some st') :
    Astray st' ↔ Astray st ∨ ¬ Smooth st (.test a) := by
  have hkeep : ∀ {u : State}, st.stopped = true → u.stopped = true →
      (Astray u ↔ Astray st ∨ ¬ True) := by
    intro u hs hs'
    simp only [astray_of_stopped hs, astray_of_stopped hs', not_true_eq_false, or_self]
  unfold testStrategy at h
  split at h
  · next wait hpc =>
    have hs : st.stopped = false := not_stopped hi (by rw [hpc]; rfl) (by rw [hpc]; rfl)
    rw [astray_early hs (by rw [hpc]; rfl)]
    simp only [Smooth, Pc.smooth, hpc]
    split at h
    · next hgo =>
      cases h
      rw [astray_goto hs]
      split <;> simp [hgo.1, hgo.2, Pc.early, Pc.final]
    · next hstop =>
      cases h
      refine ⟨fun _ => ?_, fun _ => (astray_goto hs).mpr (.inr (.inl rfl))⟩
      by_cases hc : st.cancelled = true
      · exact .inl hc
      · exact .inr fun hw => hstop ⟨hw, eq_false_of_ne_true hc⟩
  · next wait hpc =>
    have hs : st.stopped = false := not_stopped hi (by rw [hpc]; rfl) (by rw [hpc]; rfl)
    cases h
    rw [astray_suspend hs (.inl rfl), astray_early hs (by rw [hpc]; rfl)]
    simp only [Smooth, Pc.smooth, hpc, not_true_eq_false, or_false]
  · next hpc =>
    obtain ⟨hs, hp⟩ := astray_cancelAndJoin h
    have hfinal : st'.pc.final = true := by
      rcases hp with hp | hp <;> rw [hp] <;> rfl
    rw [astray_same hs (.inl hpc) hfinal]
    simp only [Smooth, Pc.smooth, hpc, not_true_eq_false, or_false]
  · next hpc =>
    have hs : st.stopped = false := not_stopped hi (by rw [hpc]; rfl) (by rw [hpc]; rfl)
    cases h
    rw [astray_attempt hs rfl, astray_early hs (by rw [hpc]; rfl)]
    simp only [Smooth, Pc.smooth, hpc]
  · next hpc =>
    have hs : st.stopped = false := not_stopped hi (by rw [hpc]; rfl) (by rw [hpc]; rfl)
    cases h
    rw [astray_suspend hs (.inr rfl), astray_early hs (by rw [hpc]; rfl)]
    simp only [Smooth, Pc.smooth, hpc, not_true_eq_false, or_false]
  · next left hpc =>
    have hs : st.stopped = false := not_stopped hi (by rw [hpc]; rfl) (by rw [hpc]; rfl)
    rw [astray_early hs (by rw [hpc]; rfl)]
    simp only [Smooth, Pc.smooth, hpc]
    cases h
    cases a with
    | throws =>
      have hast : Astray (st.goto .caught) := astray_final hs rfl
      simpa using hast
    | error =>
      have hast : Astray (st.cancelProxy.goto (.leaving none)) := astray_final hs rfl
      simpa using hast
    | yes => simp [astray_goto hs, Pc.early, Pc.final]
    | no => simp [astray_goto hs, Pc.early, Pc.final]
  · next hpc =>
    have hs : st.stopped = false := not_stopped hi (by rw [hpc]; rfl) (by rw [hpc]; rfl)
    have hnot : ¬ Astray st := by
      rintro ⟨-, h | h | h⟩ <;> simp [hpc, Pc.early, Pc.final] at h
    cases h
    have hstop : ¬ Astray (st.stop.goto .closing) := astray_of_stopped rfl
    simp only [Smooth, Pc.smooth, hpc, hnot, hstop, not_true_eq_false, or_self]
  · next hpc =>
    cases h
    simp only [Smooth, Pc.smooth, hpc]
    exact hkeep (hi.late (by rw [hpc]; rfl)) rfl
  · next hpc =>
    have hs : st.stopped = true := hi.late (by rw [hpc]; rfl)
    simp only [Smooth, Pc.smooth, hpc]
    exact hkeep hs ((astray_cancelAndJoin h).1.trans hs)
  · next releaseWait hpc =>
    have hs : st.stopped = true := hi.late (by rw [hpc]; rfl)
    simp only [Smooth, Pc.smooth, hpc]
    split at h
    · cases h
      exact hkeep hs hs
    · cases h
      exact hkeep hs hs
  · next hpc =>
    have hs : st.stopped = true := hi.late (by rw [hpc]; rfl)
    simp only [Smooth, Pc.smooth, hpc]
    cases h
    exact hkeep hs hs
  · next hpc =>
    cases h
    have hsame : Astray (st.goto (.leaving (some false))) ↔ Astray st :=
      astray_same rfl (.inr (by rw [hpc]; rfl)) rfl
    simp only [Smooth, Pc.smooth, hpc, hsame, not_true_eq_false, or_false]
  · next result hpc =>
    split at h <;> cases h
    have hsame : Astray (st.goto (.done (if st.cancelled then none else result))) ↔ Astray st :=
      astray_same rfl (.inr (by rw [hpc]; rfl)) rfl
    simp only [Smooth, Pc.smooth, hpc, hsame, not_true_eq_false, or_false]
  · cases h

lemma astray_step (st : State) (act : Act) (st' : State) (hi : Inv st)
    (h : step st act = some st') : Astray st' ↔ Astray st ∨ ¬ Smooth st act := by
  cases act with
  | test a => exact astray_test hi h
  | engine e =>
    simp only [step, proxyStart] at h
    simp only [Smooth, not_true_eq_false, or_false]
    split at h <;> cases h <;> exact Iff.rfl
  | cancel =>
    simp only [step] at h
    split at h <;> cases h
    next hc =>
    simp only [Smooth, Bool.not_eq_false]
    constructor
    · rintro ⟨hs, h | h | h⟩
      · exact .inr h.1
      · exact .inl ⟨hs, .inr (.inl h)⟩
      · exact .inl ⟨hs, .inr (.inr h)⟩
    · rintro (⟨hs, h | h | h⟩ | h)
      · exact absurd h.2 hc
      · exact ⟨hs, .inr (.inl h)⟩
      · exact ⟨hs, .inr (.inr h)⟩
      · have hs : st.stopped = false := by
          refine not_stopped hi ?_ ?_ <;> cases hpc : st.pc <;> rw [hpc] at h <;>
            first | rfl | cases h
        exact ⟨hs, .inl ⟨h, rfl⟩⟩

/-- A run that is over and has not gone astray has ended. -/
lemma done_of_over (hi : Inv st) (hover : Over st) (hnot : ¬ Astray st) : CleansUp st := by
  have htest : ∀ a, testStrategy st a = none := fun a => hover (.test a) trivial
  have hexit : st.stopped = true → st.engine = .exited := by
    intro hs
    rcases (hi.stopped hs).1 with ⟨he, ht⟩ | he
    · have hnone : proxyStart st .exits = none := hover (.engine .exits) ht
      simp only [proxyStart, he] at hnone
      cases hnone
    · exact he
  have hstopped : st.pc = .givingUp ∨ st.pc.final = true → st.stopped = true := by
    intro hp
    by_contra hs
    exact hnot ⟨eq_false_of_ne_true hs, .inr hp⟩
  have hnone := htest .yes
  unfold testStrategy at hnone
  split at hnone
  · split at hnone <;> cases hnone
  · cases hnone
  · next hpc =>
    have hs : st.stopped = true := hstopped (.inl hpc)
    rcases (hi.stopped hs).2 with h | h <;> rw [hpc] at h <;> cases h
  · cases hnone
  · cases hnone
  · cases hnone
  · cases hnone
  · cases hnone
  · next hpc =>
    have he : st.engine = .exited := hexit (hi.late (by rw [hpc]; rfl))
    simp only [State.cancelAndJoin, State.cancelProxy, he, reduceCtorEq, if_false, if_true] at hnone
    split at hnone <;> cases hnone
  · split at hnone <;> cases hnone
  · cases hnone
  · cases hnone
  · next result hpc =>
    have he : st.engine = .exited := hexit (hstopped (.inr (by rw [hpc]; rfl)))
    rw [if_pos he] at hnone
    cases hnone
  · next result hpc => exact ⟨⟨result, hpc⟩, hstopped (.inr (by rw [hpc]; rfl))⟩

/-- No run goes on for ever, and one that is over has come back and has stopped its engine
exactly when nothing went wrong before `proxy.stop()`. -/
theorem cleaned_up_iff (total : Nat) (acts : List Act) (t : State)
    (hrun : run step { total := total } acts = some t) (hover : Over t) :
    acts.length ≤ 154 + total ∧
      (CleansUp t ↔ Meets step Smooth { total := total } acts) := by
  have hstart : Inv { total := total } := inv_start total
  have hi : Inv t := run_invariant inv_step hstart hrun
  have hmark := marked_iff_not_meets inv_step astray_step hstart hrun
  have hclean : ¬ Astray { total := total } := by
    rintro ⟨-, h | h | h⟩
    · cases h.2
    · cases h
    · cases h
  refine ⟨?_, ?_⟩
  · have hle := run_length_le fuel fuel_step hrun
    simp only [fuel, Pc.rank, Engine.rank] at hle
    simp only [Bool.not_false, Bool.toNat_true] at hle
    omega
  · constructor
    · rintro ⟨-, hs⟩
      by_contra hm
      exact astray_of_stopped hs (hmark.mpr (.inr hm))
    · intro hm
      refine done_of_over hi hover ?_
      intro hast
      rcases hmark.mp hast with h | h
      · exact hclean h
      · exact h hm

/-- One site, and every answer is a good one. -/
def allDone : List Act :=
  [.engine .starts, .engine .listens, .test .yes, .test .yes, .test .yes, .test .yes,
    .test .yes, .test .yes, .engine .exits, .test .yes, .test .no, .test .yes, .test .yes]

theorem cleaned_up_all_done : ∃ t, run step { total := 1 } allDone = some t ∧ CleansUp t := by
  refine ⟨⟨1, .done (some true), .exited, false, true, true⟩, rfl, ?_⟩
  refine (cleaned_up_iff 1 allDone _ rfl ?_).2.mpr ?_
  · intro act hdue
    rcases act with a | e | _
    · rfl
    · cases e <;> rfl
    · cases hdue
  · decide

/-- A cancellation during the checks: `testStrategy` waits for an engine that nobody stops. -/
theorem cancelled_check_hangs :
    ∃ t, run step { total := 1 } [.engine .starts, .engine .listens, .test .yes, .test .yes,
        .cancel, .test .yes, .test .yes, .test .yes] = some t ∧
      Over t ∧ t.pc = .leaving (some false) ∧ t.engine = .serving ∧ ¬ CleansUp t := by
  refine ⟨_, rfl, ?_, rfl, rfl, ?_⟩
  · intro act hdue
    rcases act with a | e | -
    · rfl
    · cases e with
      | exits => cases hdue
      | starts => rfl
      | refused => rfl
      | listens => rfl
    · cases hdue
  · rintro ⟨-, hs⟩
    cases hs

end Cleanup

end TestProxy
