import NoZapret.EventLoop
import NoZapret.Library.Runs

/-!
# Timers against the clock

`next_event_tv` with the times at which `epoll_wait` returns. The type that `loop_event` keeps from
the turn before decides what an interrupted wait is taken for.
-/

namespace TimerClock

open EventLoop Runs

/-- An answer of `epoll_wait` and when it comes. -/
abbrev Answer := Wait × Int

/-- The timeout that `epoll_wait` is given. -/
def timeout (st : State) (now : Int) : Int :=
  match st.tvStart with
  | none => -1
  | some v => (st.tvMs v - now).bmod (2 ^ 32)

/-- The clock does not go back, and a wait of `ms` ends without an event only when it is over. -/
def Clocked (ms : Int) : Int → List Answer → Prop
  | _, [] => True
  | now, (a, t) :: rest => now ≤ t ∧ (a = .timeout → 0 ≤ ms ∧ now + ms ≤ t) ∧ Clocked ms t rest

instance decidableClocked (ms : Int) : ∀ now answers, Decidable (Clocked ms now answers)
  | _, [] => isTrue trivial
  | now, (a, t) :: rest =>
    have := decidableClocked ms t rest
    inferInstanceAs (Decidable (now ≤ t ∧ (a = .timeout → 0 ≤ ms ∧ now + ms ≤ t) ∧ _))

/-- When `next_event` returns. -/
def returned (st : State) (now : Int) : List Answer → Int
  | [] => now
  | (a, t) :: rest =>
    match fresh st st.left, a with
    | some _, _ => now
    | none, .events batch => returned (arrive st batch) t rest
    | none, _ => t

/-- When `next_event_tv` does. -/
def returnedTv (st : State) (now : Int) (answers : List Answer) : Int :=
  if st.tvStart ≠ none ∧ timeout st now ≤ 0 then now else returned st now answers

/-- A slot that is returned because of its timer is due. -/
def OnTime (st : State) (now : Int) (answers : List Answer) : Prop :=
  ∀ v st', nextEventTv st now (answers.map Prod.fst) = some (some v, st') →
    st'.trace.head? = some (.expired v) → st.tvMs v ≤ returnedTv st now answers

def Punctual (st : State) (now : Int) : Prop :=
  ∀ answers, Clocked (timeout st now) now answers → OnTime st now answers

/-- The first timer is due, or it is waited for: there are events to hand out before, or the type
is not left from a timer that ran out and the time to go fits an `int`. -/
def Waits (st : State) (now : Int) : Prop :=
  ∀ v, st.tvStart = some v → now < st.tvMs v →
    0 < timeout st now ∧
      ((fresh st st.left).isSome ∨ (st.tvMs v - now < 2 ^ 31 ∧ st.etype ≠ pollTimeout))

instance (st : State) (now : Int) : Decidable (Waits st now) :=
  match hstart : st.tvStart with
  | none => isTrue fun v hv => by
    rw [hstart] at hv
    cases hv
  | some v =>
    decidable_of_iff (now < st.tvMs v → 0 < timeout st now ∧
        ((fresh st st.left).isSome ∨ (st.tvMs v - now < 2 ^ 31 ∧ st.etype ≠ pollTimeout)))
      ⟨fun h u hu => Option.some.inj (hstart.symm.trans hu) ▸ h, fun h => h v hstart⟩

section Call

variable {st st' : State} {now ms : Int} {v : Nat}

/-- Only its own end changes the type while `next_event` finds nothing to hand out. -/
lemma nextEvent_none {answers : List Answer} (hc : Clocked ms now answers)
    (h : nextEvent (answers.map Prod.fst) st = some (none, st')) :
    fresh st st.left = none ∧ st'.tvStart = st.tvStart ∧
      ((st'.etype = st.etype ∧ now ≤ returned st now answers) ∨
        now + ms ≤ returned st now answers) := by
  induction answers generalizing st now with
  | nil =>
    cases hfresh : fresh st st.left with
    | none =>
      rw [List.map_nil, nextEvent_waits hfresh] at h
      cases h
    | some i =>
      rw [nextEvent_fresh hfresh, Option.some.injEq, hand, Prod.mk.injEq] at h
      cases h.1
  | cons x rest ih =>
    obtain ⟨a, t⟩ := x
    obtain ⟨hle, hout, hc⟩ := hc
    rw [List.map_cons] at h
    cases hfresh : fresh st st.left with
    | some i =>
      rw [nextEvent_fresh hfresh, Option.some.injEq, hand, Prod.mk.injEq] at h
      cases h.1
    | none =>
      refine ⟨rfl, ?_⟩
      simp only [returned, hfresh]
      cases a with
      | timeout =>
        rw [nextEvent_timeout hfresh, Option.some.injEq, Prod.mk.injEq] at h
        rw [← h.2]
        exact ⟨rfl, .inr (hout rfl).2⟩
      | failed =>
        rw [nextEvent_failed hfresh, Option.some.injEq, Prod.mk.injEq] at h
        rw [← h.2]
        exact ⟨rfl, .inl ⟨rfl, hle⟩⟩
      | events batch =>
        rw [nextEvent_events hfresh] at h
        obtain ⟨-, hstart, htime⟩ := ih hc h
        refine ⟨hstart, htime.imp ?_ ?_⟩
        · exact fun hboth => ⟨hboth.1, by simp only at hboth ⊢; omega⟩
        · intro hover
          simp only at hover ⊢
          omega

lemma nextEvent_some {answers : List Wait} (h : nextEvent answers st = some (some v, st')) :
    ∃ i, st'.trace.head? = some (.handed i v) := by
  have hhand : ∀ {st : State} {i : Nat}, hand st i = (some v, st') →
      ∃ i, st'.trace.head? = some (.handed i v) := by
    intro st i heq
    rw [hand, Prod.mk.injEq, Option.some.injEq] at heq
    obtain ⟨rfl, rfl⟩ := heq
    exact ⟨i, rfl⟩
  induction answers generalizing st with
  | nil =>
    cases hfresh : fresh st st.left with
    | none =>
      rw [nextEvent_waits hfresh] at h
      cases h
    | some i =>
      rw [nextEvent_fresh hfresh, Option.some.injEq] at h
      exact hhand h
  | cons a rest ih =>
    cases hfresh : fresh st st.left with
    | some i =>
      rw [nextEvent_fresh hfresh, Option.some.injEq] at h
      exact hhand h
    | none =>
      cases a with
      | timeout =>
        rw [nextEvent_timeout hfresh] at h
        cases h
      | failed =>
        rw [nextEvent_failed hfresh] at h
        cases h
      | events batch =>
        rw [nextEvent_events hfresh] at h
        exact ih h

/-- The end of `next_event_tv` takes the first timer. -/
lemma expire_expired {r : Option Nat × State} (h : expire r = (some v, st'))
    (hr : ∀ u, r.1 = some u → ∃ i, r.2.trace.head? = some (.handed i u))
    (htrace : st'.trace.head? = some (.expired v)) :
    r.1 = none ∧ r.2.tvStart = some v ∧ r.2.etype = pollTimeout := by
  obtain ⟨o, st⟩ := r
  cases o with
  | some u =>
    obtain ⟨i, hi⟩ := hr u rfl
    simp only [expire, Prod.mk.injEq] at h
    rw [← h.2, hi] at htrace
    cases htrace
  | none =>
    cases hstart : st.tvStart with
    | none =>
      simp only [expire, hstart] at h
      cases h
    | some u =>
      simp only [expire, hstart] at h
      split at h
      · next htype =>
        rw [Prod.mk.injEq, Option.some.injEq] at h
        obtain ⟨rfl, -⟩ := h
        exact ⟨rfl, rfl, htype⟩
      · cases h

/-- A call that waits for the first timer returns it in time. -/
lemma Waits.punctual (h : Waits st now) : Punctual st now := by
  intro answers hc v st' hcall htrace
  unfold nextEventTv at hcall
  cases hstart : st.tvStart with
  | none =>
    rw [hstart] at hcall
    obtain ⟨i, hi⟩ := nextEvent_some hcall
    rw [hi] at htrace
    cases htrace
  | some u =>
    have hms : timeout st now = (st.tvMs u - now).bmod (2 ^ 32) := by
      rw [timeout, hstart]
    simp only [hstart, ← hms] at hcall
    split at hcall
    · next hpos =>
      obtain ⟨⟨o, mid⟩, hnext, hexp⟩ := Option.map_eq_some_iff.mp hcall
      have hr : ∀ w, o = some w → ∃ i, mid.trace.head? = some (.handed i w) := by
        rintro w rfl
        exact nextEvent_some hnext
      obtain ⟨hnone, hfirst, htype⟩ := expire_expired hexp hr htrace
      simp only at hnone hfirst htype
      subst hnone
      obtain ⟨hfresh, hsame, htime⟩ := nextEvent_none hc hnext
      rw [hsame, hstart, Option.some.injEq] at hfirst
      subst hfirst
      rw [returnedTv, if_neg (by omega)]
      by_cases hdue : st.tvMs u ≤ now
      · rcases htime with ⟨-, hle⟩ | hle <;> omega
      · obtain ⟨-, hwait⟩ := h u hstart (by omega)
        rw [hfresh] at hwait
        obtain ⟨hfits, hetype⟩ := hwait.resolve_left (by simp)
        rw [Int.bmod_eq_of_le (by omega) (by omega)] at hms
        rcases htime with ⟨hkept, -⟩ | hle
        · exact absurd (hkept.symm.trans htype) hetype
        · omega
    · next hpos =>
      rw [Option.some.injEq] at hcall
      obtain ⟨-, hfirst, -⟩ := expire_expired hcall (by simp) htrace
      simp only [Option.some.injEq] at hfirst
      subst hfirst
      rw [returnedTv, if_pos ⟨by rw [hstart]; simp, by omega⟩]
      by_contra hlate
      exact hpos ((h u hstart (by omega)).1)

/-- Otherwise some answer makes it return the timer early. -/
lemma punctual_waits (h : Punctual st now) : Waits st now := by
  intro v hstart hearly
  have hms : timeout st now = (st.tvMs v - now).bmod (2 ^ 32) := by
    rw [timeout, hstart]
  have hexpire : ∀ mid : State, mid.tvStart = some v → mid.etype = pollTimeout →
      ∃ st', expire (none, mid) = (some v, st') ∧ st'.trace.head? = some (.expired v) := by
    intro mid hfirst htype
    refine ⟨{ removeTimer mid v with trace := .expired v :: mid.trace }, ?_, rfl⟩
    simp only [expire, hfirst, htype, if_true]
  by_contra hno
  by_cases hpos : 0 < timeout st now
  · rw [not_and_or, not_or, not_and_or] at hno
    obtain ⟨hfresh, hno⟩ := hno.resolve_left (not_not.mpr hpos)
    rw [Option.not_isSome_iff_eq_none] at hfresh
    have hcall : ∀ {a : Wait} {mid : State}, nextEvent [a] st = some (none, mid) →
        nextEventTv st now [a] = some (expire (none, mid)) := by
      intro a mid hnext
      simp only [nextEventTv, hstart, ← hms, if_pos hpos, hnext, Option.map_some]
    rcases hno with hlong | htype
    · -- the difference has lost a multiple of `2 ^ 32`
      obtain ⟨st', hexp, htrace⟩ := hexpire
        { st with left := 0, etype := pollTimeout } hstart rfl
      have hlate := h [(.timeout, now + timeout st now)]
        ⟨by omega, fun _ => ⟨by omega, Int.le_refl _⟩, trivial⟩ v st'
        ((hcall (nextEvent_timeout hfresh [])).trans (congrArg some hexp)) htrace
      rw [returnedTv, if_neg (by omega)] at hlate
      simp only [returned, hfresh] at hlate
      have hlt := Int.bmod_lt (x := st.tvMs v - now) (m := 2 ^ 32) (by decide)
      rw [← hms] at hlt
      omega
    · -- the wait is interrupted at once
      rw [ne_eq, not_not] at htype
      obtain ⟨st', hexp, htrace⟩ := hexpire { st with left := 0 } hstart htype
      have hlate := h [(.failed, now)] ⟨Int.le_refl _, nofun, trivial⟩ v st'
        ((hcall (nextEvent_failed hfresh [])).trans (congrArg some hexp)) htrace
      rw [returnedTv, if_neg (by omega)] at hlate
      simp only [returned, hfresh] at hlate
      omega
  · obtain ⟨st', hexp, htrace⟩ := hexpire { st with etype := pollTimeout } hstart rfl
    have hcall : nextEventTv st now [] = some (some v, st') := by
      rw [hstart] at hexp
      simp only [nextEventTv, hstart, ← hms, if_neg hpos, hexp]
    have hlate := h [] trivial v st' hcall htrace
    rw [returnedTv, if_pos ⟨by rw [hstart]; simp, by omega⟩] at hlate
    omega

theorem punctual_iff (st : State) (now : Int) : Punctual st now ↔ Waits st now :=
  ⟨punctual_waits, Waits.punctual⟩

end Call

section Run

/-- A timer that `next_event_tv` has returned: its deadline and the time. -/
structure Fired where
  deadline : Int
  time : Int
  deriving DecidableEq, Repr

structure Loop where
  st : State
  clock : Int
  fired : List Fired

inductive Act where
  /-- a callback -/
  | callback (a : EventLoop.Act)
  /-- `next_event_tv`, at the time `now` -/
  | next (now : Int) (answers : List Answer)

def isNext : EventLoop.Act → Bool
  | .next _ _ => true
  | _ => false

/-- What a call of `next_event_tv` leaves of the timers that were returned. -/
def record (l : Loop) (now : Int) (answers : List Answer) : Option Nat × State → List Fired
  | (some v, st') =>
    if st'.trace.head? = some (.expired v) then
      ⟨l.st.tvMs v, returnedTv l.st now answers⟩ :: l.fired
    else l.fired
  | (none, _) => l.fired

/-- The loop with a clock; `epoll_wait` answers in time. -/
def step (l : Loop) : Act → Option Loop
  | .callback a =>
    if isNext a then none else (EventLoop.step l.st a).map fun st => { l with st := st }
  | .next now answers =>
    if l.clock ≤ now ∧ Clocked (timeout l.st now) now answers then
      (nextEventTv l.st now (answers.map Prod.fst)).map fun r =>
        ⟨r.2, returnedTv l.st now answers, record l now answers r⟩
    else none

/-- The condition on a step. -/
def InTime (l : Loop) : Act → Prop
  | .callback _ => True
  | .next now _ => Waits l.st now

instance (l : Loop) : DecidablePred (InTime l)
  | .callback _ => isTrue trivial
  | .next now _ => inferInstanceAs (Decidable (Waits l.st now))

variable {l l' l₀ : Loop} {a : Act} {acts : List Act}

lemma step_fired (h : ∀ f ∈ l.fired, f.deadline ≤ f.time) (hok : InTime l a)
    (hstep : step l a = some l') : ∀ f ∈ l'.fired, f.deadline ≤ f.time := by
  cases a with
  | callback a =>
    simp only [step] at hstep
    split at hstep
    · cases hstep
    · obtain ⟨st, -, rfl⟩ := Option.map_eq_some_iff.mp hstep
      exact h
  | next now answers =>
    simp only [step] at hstep
    split at hstep
    · next hclock =>
      obtain ⟨⟨o, st'⟩, hcall, rfl⟩ := Option.map_eq_some_iff.mp hstep
      cases o with
      | none => exact h
      | some v =>
        simp only [record]
        split
        · next htrace =>
          intro f hf
          rcases List.mem_cons.mp hf with rfl | hf
          · exact hok.punctual answers hclock.2 v st' hcall htrace
          · exact h f hf
        · exact h
    · cases hstep

/-- No timer is returned early in a run whose calls of `next_event_tv` wait for theirs, and in
each state it reaches these are the calls that are safe. -/
theorem timers_in_time (hfired : l₀.fired = []) (hok : Meets step InTime l₀ acts)
    (hrun : run step l₀ acts = some l) :
    (∀ f ∈ l.fired, f.deadline ≤ f.time) ∧ ∀ now, Punctual l.st now ↔ Waits l.st now := by
  refine ⟨?_, punctual_iff l.st⟩
  refine run_preserves (fun _ _ _ h hok hstep => step_fired h hok hstep) ?_ hok hrun
  rw [hfired]
  simp

/-- Two timers; the first is waited for, and the second is due when it is asked for. -/
theorem timers_in_time_two :
    ∃ l, run step ⟨start 2, 100, []⟩ [.callback (.add 5 true), .callback (.add 6 true),
        .callback (.set 0 100 10), .callback (.set 1 100 50), .next 100 [(.timeout, 110)],
        .next 150 []] = some l ∧
      (∀ f ∈ l.fired, f.deadline ≤ f.time) ∧ ∀ now, Punctual l.st now ↔ Waits l.st now := by
  have hsome : (run step ⟨start 2, 100, []⟩ [.callback (.add 5 true), .callback (.add 6 true),
      .callback (.set 0 100 10), .callback (.set 1 100 50), .next 100 [(.timeout, 110)],
      .next 150 []]).isSome := by decide
  have hrun := (Option.some_get hsome).symm
  exact ⟨_, hrun, timers_in_time rfl (by decide) hrun⟩

/-- After the first timer a signal interrupts the wait for the second. -/
theorem interrupted_wait :
    ¬ ∀ (acts : List Act) (l : Loop), run step ⟨start 2, 100, []⟩ acts = some l →
      ∀ f ∈ l.fired, f.deadline ≤ f.time := by
  intro h
  have hfired : (run step ⟨start 2, 100, []⟩ [.callback (.add 5 true), .callback (.add 6 true),
      .callback (.set 0 100 10), .callback (.set 1 100 50), .next 100 [(.timeout, 110)],
      .next 110 [(.failed, 112)]]).map Loop.fired = some [⟨150, 112⟩, ⟨110, 110⟩] := by decide
  obtain ⟨l, hrun, hl⟩ := Option.map_eq_some_iff.mp hfired
  have hearly := h _ l hrun ⟨150, 112⟩ (by rw [hl]; exact List.mem_cons_self)
  exact absurd hearly (by decide)

end Run

end TimerClock
