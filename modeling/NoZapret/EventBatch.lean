import NoZapret.EventLoop

/-!
# The events of a batch

What `next_event` hands out of the events that one `epoll_wait` has returned, while the
callbacks in between delete slots and fill them anew. A slot carries no more than the value
that the counter had when it was last touched; the observer's record tells more.
-/

namespace EventBatch

open Pool Runs EventLoop

/-- The events that `epoll_wait` has returned last. -/
def batch : List Obs → List Event
  | [] => []
  | .waited b :: _ => b
  | _ :: t => batch t

/-- The slot has been deleted or filled since then. -/
def Touched (v : Nat) : List Obs → Prop
  | [] | .waited _ :: _ => False
  | .filled u :: t | .released u :: t => u = v ∨ Touched v t
  | .handed _ _ :: t | .expired _ :: t => Touched v t

/-- The events that have been handed out since then. -/
def handed : List Obs → List Nat
  | [] | .waited _ :: _ => []
  | .handed i _ :: t => i :: handed t
  | _ :: t => handed t

/-- How often `epoll_wait` has returned events since the slot was touched. -/
def age (v : Nat) : List Obs → Nat
  | [] => 0
  | .waited _ :: t => age v t + 1
  | .filled u :: t | .released u :: t => if u = v then 0 else age v t
  | .handed _ _ :: t | .expired _ :: t => age v t

/-- What is handed out is an event of the batch, for the first time, and its slot is as it was
when `epoll_wait` returned. -/
def NoneStale : List Obs → Prop
  | [] => True
  | .handed i v :: t =>
    (∃ e, (batch t)[i]? = some e ∧ e.slot = v ∧ ¬ Touched v t ∧ i ∉ handed t) ∧ NoneStale t
  | _ :: t => NoneStale t

/-- When `epoll_wait` returns with new events, every event of the batch before has been handed
out, unless its slot has been touched or is excused. -/
def NoneLost (excused : Nat → List Obs → Prop) : List Obs → Prop
  | [] => True
  | .waited _ :: t =>
    (∀ i e, (batch t)[i]? = some e → ¬ Touched e.slot t → ¬ excused e.slot t → i ∈ handed t) ∧
      NoneLost excused t
  | _ :: t => NoneLost excused t

/-- The counter has come round to the value it had when the slot was touched. -/
def Wrapped (v : Nat) (t : List Obs) : Prop := counter ∣ age v t

/-- What the counter of a slot, the batch and the place in it say about the record. -/
structure Recorded (st : State) : Prop where
  iters : st.iters < counter
  modIter : ∀ v, .filled v ∈ st.trace → st.modIter v < counter
  counted : ∀ v, .filled v ∈ st.trace → (st.modIter v + age v st.trace) % counter = st.iters
  slots : ∀ e ∈ batch st.trace, .filled e.slot ∈ st.trace
  left : st.left ≤ (batch st.trace).length
  events : ∀ i e, (batch st.trace)[i]? = some e → st.pevents i = e
  passed : ∀ i e, st.left ≤ i → (batch st.trace)[i]? = some e →
    i ∈ handed st.trace ∨ Wrapped e.slot st.trace
  behind : ∀ i ∈ handed st.trace, st.left ≤ i
  noneStale : NoneStale st.trace
  noneLost : NoneLost Wrapped st.trace

section Trace

variable {st st' : State} {v i : Nat} {t : List Obs}

lemma age_of_touched (h : Touched v t) : age v t = 0 := by
  induction t with
  | nil => cases h
  | cons o t ih =>
    cases o with
    | waited b => cases h
    | handed i u => exact ih h
    | expired u => exact ih h
    | filled u =>
      rw [age]
      rcases h with hu | h
      · rw [if_pos hu]
      · rw [ih h, ite_self]
    | released u =>
      rw [age]
      rcases h with hu | h
      · rw [if_pos hu]
      · rw [ih h, ite_self]

/-- The test of `next_event`. -/
lemma Recorded.stale_iff (h : Recorded st) (hv : .filled v ∈ st.trace) :
    st.modIter v = st.iters ↔ Wrapped v st.trace := by
  have hiters := h.iters
  have hmod := h.modIter v hv
  have hage := h.counted v hv
  unfold Wrapped
  unfold counter at *
  omega

/-- The search for the next event goes down from the last one. -/
lemma fresh_spec (st : State) (n : Nat) :
    match fresh st n with
    | some i => i < n ∧ st.modIter (st.pevents i).slot ≠ st.iters ∧
        ∀ j, i < j → j < n → st.modIter (st.pevents j).slot = st.iters
    | none => ∀ j < n, st.modIter (st.pevents j).slot = st.iters := by
  induction n with
  | zero =>
    intro j hj
    omega
  | succ n ih =>
    by_cases hn : st.modIter (st.pevents n).slot = st.iters
    · rw [fresh, if_pos hn]
      cases hfresh : fresh st n with
      | none =>
        rw [hfresh] at ih
        intro j hj
        by_cases hjn : j = n
        · rw [hjn, hn]
        · exact ih j (by omega)
      | some i =>
        rw [hfresh] at ih
        obtain ⟨hi, hne, hrest⟩ := ih
        refine ⟨by omega, hne, ?_⟩
        intro j hij hj
        by_cases hjn : j = n
        · rw [hjn, hn]
        · exact hrest j hij (by omega)
    · rw [fresh, if_neg hn]
      refine ⟨by omega, hn, ?_⟩
      intro j hij hj
      omega

end Trace

section Steps

variable {st st' : State} {v i : Nat} {o : Obs}

/-- Nothing changes for the batch. -/
structure Spared (st st' : State) : Prop where
  iters : st'.iters = st.iters
  modIter : st'.modIter = st.modIter
  pevents : st'.pevents = st.pevents
  left : st'.left = st.left
  trace : st'.trace = st.trace

lemma Recorded.spared (h : Recorded st) (hs : Spared st st') : Recorded st' := by
  obtain ⟨hiters, hmod, hpevents, hleft, htrace⟩ := hs
  refine ⟨?_, ?_, ?_, ?_, ?_, ?_, ?_, ?_, ?_, ?_⟩
  all_goals simp only [hiters, hmod, hpevents, hleft, htrace]
  exacts [h.iters, h.modIter, h.counted, h.slots, h.left, h.events, h.passed, h.behind, h.noneStale,
    h.noneLost]

/-- A slot is touched in the middle of a batch. -/
lemma Recorded.touch (h : Recorded st) (ho : o = .filled v ∨ o = .released v)
    (hiters : st'.iters = st.iters) (hmod : st'.modIter = Function.update st.modIter v st.iters)
    (hpevents : st'.pevents = st.pevents) (hleft : st'.left = st.left)
    (htrace : st'.trace = o :: st.trace) : Recorded st' := by
  have hbatch : batch st'.trace = batch st.trace := by
    rw [htrace]
    rcases ho with rfl | rfl <;> rfl
  have hhanded : handed st'.trace = handed st.trace := by
    rw [htrace]
    rcases ho with rfl | rfl <;> rfl
  have hage : ∀ u, age u st'.trace = if v = u then 0 else age u st.trace := by
    intro u
    rw [htrace]
    rcases ho with rfl | rfl <;> rfl
  have hfilled : ∀ u, .filled u ∈ st'.trace → u ≠ v → .filled u ∈ st.trace := by
    intro u hu hne
    rw [htrace, List.mem_cons] at hu
    refine hu.resolve_left ?_
    rcases ho with rfl | rfl
    · simpa using hne
    · simp
  refine ⟨?_, ?_, ?_, ?_, ?_, ?_, ?_, ?_, ?_, ?_⟩
  · rw [hiters]
    exact h.iters
  · intro u hu
    rw [hmod]
    by_cases huv : u = v
    · rw [huv, Function.update_self]
      exact h.iters
    · rw [Function.update_of_ne huv]
      exact h.modIter u (hfilled u hu huv)
  · intro u hu
    rw [hmod, hage, hiters]
    by_cases huv : u = v
    · rw [huv, Function.update_self, if_pos rfl, Nat.add_zero, Nat.mod_eq_of_lt h.iters]
    · rw [Function.update_of_ne huv, if_neg (Ne.symm huv)]
      exact h.counted u (hfilled u hu huv)
  · intro e he
    rw [hbatch] at he
    rw [htrace]
    exact List.mem_cons_of_mem _ (h.slots e he)
  · rw [hleft, hbatch]
    exact h.left
  · rw [hpevents, hbatch]
    exact h.events
  · intro i e hi he
    rw [hleft] at hi
    rw [hbatch] at he
    rw [hhanded]
    refine (h.passed i e hi he).imp_right fun hw => ?_
    unfold Wrapped at *
    rw [hage]
    by_cases hv : v = e.slot
    · rw [if_pos hv]
      exact Nat.dvd_zero counter
    · rwa [if_neg hv]
  · rw [hhanded, hleft]
    exact h.behind
  · rw [htrace]
    rcases ho with rfl | rfl <;> exact h.noneStale
  · rw [htrace]
    rcases ho with rfl | rfl <;> exact h.noneLost

lemma Recorded.hand (h : Recorded st) (hfresh : fresh st st.left = some i) :
    Recorded (hand st i).2 := by
  have hspec := fresh_spec st st.left
  rw [hfresh] at hspec
  obtain ⟨hi, hne, hrest⟩ := hspec
  have hbatch : ∃ e, (batch st.trace)[i]? = some e := by
    have hlt : i < (batch st.trace).length := Nat.lt_of_lt_of_le hi h.left
    exact ⟨_, List.getElem?_eq_getElem hlt⟩
  obtain ⟨e, he⟩ := hbatch
  have hevent := h.events i e he
  have hslot := h.slots e (List.mem_of_getElem? he)
  rw [hevent] at hne
  refine ⟨h.iters, ?_, ?_, ?_, ?_, h.events, ?_, ?_, ⟨⟨e, he, ?_, ?_, ?_⟩, h.noneStale⟩,
    h.noneLost⟩
  · intro u hu
    exact h.modIter u (by simpa [EventLoop.hand] using hu)
  · intro u hu
    exact h.counted u (by simpa [EventLoop.hand] using hu)
  · intro e' he'
    exact List.mem_cons_of_mem _ (h.slots e' he')
  · have hleft := h.left
    change i ≤ (batch st.trace).length
    omega
  · intro j e' hj he'
    have hj : i ≤ j := hj
    have he' : (batch st.trace)[j]? = some e' := he'
    change j ∈ i :: handed st.trace ∨ Wrapped e'.slot st.trace
    by_cases hji : j = i
    · exact .inl (hji ▸ List.mem_cons_self)
    by_cases hlt : j < st.left
    · have hstale := hrest j (by omega) hlt
      rw [h.events j e' he'] at hstale
      exact .inr ((h.stale_iff (h.slots e' (List.mem_of_getElem? he'))).mp hstale)
    · exact (h.passed j e' (by omega) he').imp_left (List.mem_cons_of_mem i)
  · intro j hj
    have hj : j ∈ i :: handed st.trace := hj
    change i ≤ j
    rw [List.mem_cons] at hj
    rcases hj with rfl | hj
    · exact Nat.le_refl _
    · have hbehind := h.behind j hj
      omega
  · rw [hevent]
  · intro htouched
    rw [hevent] at htouched
    apply hne
    rw [h.stale_iff hslot, Wrapped, age_of_touched htouched]
    exact Nat.dvd_zero counter
  · intro hi'
    have hbehind := h.behind i hi'
    omega

lemma Recorded.arrive (h : Recorded st) (hfresh : fresh st st.left = none) {b : List Event}
    (hslots : ∀ e ∈ b, .filled e.slot ∈ st.trace) : Recorded (arrive st b) := by
  have hspec := fresh_spec st st.left
  rw [hfresh] at hspec
  refine ⟨Nat.mod_lt _ (by decide), ?_, ?_, ?_, Nat.le_refl _, ?_, ?_, ?_, h.noneStale,
    ?_, h.noneLost⟩
  · intro u hu
    exact h.modIter u (by simpa [EventLoop.arrive] using hu)
  · intro u hu
    have hage := h.counted u (by simpa [EventLoop.arrive] using hu)
    change (st.modIter u + (age u st.trace + 1)) % counter = (st.iters + 1) % counter
    rw [← hage, Nat.mod_add_mod, Nat.add_assoc]
  · intro e he
    exact List.mem_cons_of_mem _ (hslots e he)
  · intro j e he
    have he : b[j]? = some e := he
    change b.getD j (st.pevents j) = e
    rw [List.getD_eq_getElem?_getD, he, Option.getD_some]
  · intro j e hj he
    have hj : b.length ≤ j := hj
    have he : b[j]? = some e := he
    rw [List.getElem?_eq_none hj] at he
    cases he
  · intro j hj
    cases hj
  · intro j e he _ hnot
    by_cases hlt : j < st.left
    · have hstale := hspec j hlt
      rw [h.events j e he, h.stale_iff (h.slots e (List.mem_of_getElem? he))] at hstale
      exact absurd hstale hnot
    · exact (h.passed j e (by omega) he).resolve_right hnot

/-- A call that has no fresh event left waits for a new batch. -/
lemma Recorded.nextEvent {answers : List Wait} {r : Option Nat} (h : Recorded st)
    (hreg : ∀ a ∈ answers, a.registered st.trace)
    (hstep : nextEvent answers st = some (r, st')) : Recorded st' := by
  have hidle : ∀ {st : State} (t : Int), Recorded st → fresh st st.left = none →
      Recorded { st with left := 0, etype := t } := by
    intro st t h hfresh
    have hspec := fresh_spec st st.left
    rw [hfresh] at hspec
    refine ⟨h.iters, h.modIter, h.counted, h.slots, Nat.zero_le _, h.events, ?_,
      fun _ _ => Nat.zero_le _, h.noneStale, h.noneLost⟩
    intro j e _ he
    by_cases hlt : j < st.left
    · have hstale := hspec j hlt
      rw [h.events j e he, h.stale_iff (h.slots e (List.mem_of_getElem? he))] at hstale
      exact .inr hstale
    · exact h.passed j e (by omega) he
  induction answers generalizing st with
  | nil =>
    cases hfresh : fresh st st.left with
    | none =>
      rw [nextEvent_waits hfresh] at hstep
      cases hstep
    | some i =>
      rw [nextEvent_fresh hfresh] at hstep
      cases hstep
      exact h.hand hfresh
  | cons a answers ih =>
    cases hfresh : fresh st st.left with
    | some i =>
      rw [nextEvent_fresh hfresh] at hstep
      cases hstep
      exact h.hand hfresh
    | none =>
      cases a with
      | timeout =>
        rw [nextEvent_timeout hfresh] at hstep
        cases hstep
        exact hidle pollTimeout h hfresh
      | failed =>
        rw [nextEvent_failed hfresh] at hstep
        cases hstep
        exact hidle st.etype h hfresh
      | events b =>
        rw [nextEvent_events hfresh] at hstep
        refine ih (h.arrive hfresh (hreg _ List.mem_cons_self).2) ?_ hstep
        intro a ha
        have hreg' := hreg a (List.mem_cons_of_mem _ ha)
        cases a with
        | timeout => trivial
        | failed => trivial
        | events b' => exact ⟨hreg'.1, fun e he => List.mem_cons_of_mem _ (hreg'.2 e he)⟩

lemma Recorded.expire {r r' : Option Nat} (h : Recorded st)
    (hstep : EventLoop.expire (r, st) = (r', st')) : Recorded st' := by
  unfold EventLoop.expire at hstep
  split at hstep
  · rename_i st₁ heq
    cases heq
    split at hstep
    · rename_i v hstart
      split at hstep
      · cases hstep
        refine ⟨h.iters, ?_, ?_, ?_, h.left, h.events, h.passed, h.behind, h.noneStale, h.noneLost⟩
        · intro u hu
          exact h.modIter u (by simpa using hu)
        · intro u hu
          exact h.counted u (by simpa using hu)
        · intro e he
          exact List.mem_cons_of_mem _ (h.slots e he)
      · cases hstep
        exact h
    · cases hstep
      exact h
  · cases hstep
    exact h

lemma Recorded.nextEventTv {now : Int} {answers : List Wait} {r : Option Nat} (h : Recorded st)
    (hreg : ∀ a ∈ answers, a.registered st.trace)
    (hstep : nextEventTv st now answers = some (r, st')) : Recorded st' := by
  unfold EventLoop.nextEventTv at hstep
  split at hstep
  · exact h.nextEvent hreg hstep
  · split at hstep
    · rw [Option.map_eq_some_iff] at hstep
      obtain ⟨⟨r₁, st₁⟩, hnext, hexpire⟩ := hstep
      exact (h.nextEvent hreg hnext).expire hexpire
    · rw [Option.some.injEq] at hstep
      have hspared : Spared st { st with etype := pollTimeout } := ⟨rfl, rfl, rfl, rfl, rfl⟩
      exact (h.spared hspared).expire hstep

lemma Recorded.delEventFrom (h : Recorded st) (fuel : Nat) (v : Nat) :
    Recorded (delEventFrom fuel st v) := by
  induction fuel generalizing st v with
  | zero => exact h
  | succ fuel ih =>
    have hrelease : ∀ w, Recorded { release st v with w := w } := fun w =>
      h.touch (.inr rfl) rfl rfl rfl rfl rfl
    simp only [EventLoop.delEventFrom]
    split
    · exact h
    · split
      · exact hrelease _
      · rename_i p _
        have hlinked : Recorded { release st v with w := unpair (remove st.w v) v p } := hrelease _
        exact ih hlinked p

lemma setTimer_spared {d : Int} (h : setTimer st v d = some st') : Spared st st' := by
  unfold setTimer at h
  split at h
  · cases h
    exact ⟨rfl, rfl, rfl, rfl, rfl⟩
  · rw [Option.map_eq_some_iff] at h
    obtain ⟨r, -, rfl⟩ := h
    exact ⟨rfl, rfl, rfl, rfl, rfl⟩

lemma step_recorded {a : Act} (h : Recorded st) (hstep : step st a = some st') : Recorded st' := by
  cases a with
  | add fd ok =>
    simp only [step, Option.ite_none_right_eq_some, Option.some.injEq] at hstep
    obtain ⟨-, rfl⟩ := hstep
    unfold EventLoop.addEvent
    split
    · exact h
    · exact h.touch (.inl rfl) rfl rfl rfl rfl rfl
  | link v p =>
    simp only [step, Option.ite_none_right_eq_some, Option.some.injEq] at hstep
    obtain ⟨-, rfl⟩ := hstep
    exact h.spared ⟨rfl, rfl, rfl, rfl, rfl⟩
  | del v =>
    simp only [step, Option.ite_none_right_eq_some, Option.some.injEq] at hstep
    obtain ⟨-, rfl⟩ := hstep
    exact h.delEventFrom _ v
  | set v now ms =>
    simp only [step, Option.ite_none_right_eq_some] at hstep
    exact h.spared (setTimer_spared hstep.2)
  | removeTimer v =>
    simp only [step, Option.ite_none_right_eq_some, Option.some.injEq] at hstep
    obtain ⟨-, rfl⟩ := hstep
    exact h.spared ⟨rfl, rfl, rfl, rfl, rfl⟩
  | next now answers =>
    simp only [step, Option.ite_none_right_eq_some, Option.map_eq_some_iff] at hstep
    obtain ⟨hreg, ⟨r, st₁⟩, hnext, rfl⟩ := hstep
    exact h.nextEventTv hreg hnext

lemma init_recorded {max : Nat} (h : Init max st) : Recorded st := by
  have hnone : ∀ v, .filled v ∉ st.trace := by
    rw [h.trace]
    exact fun v => List.not_mem_nil
  refine ⟨?_, fun v hv => absurd hv (hnone v), fun v hv => absurd hv (hnone v), ?_, ?_, ?_, ?_, ?_,
    ?_, ?_⟩
  · rw [h.iters]
    decide
  all_goals rw [h.trace]
  · intro e he
    cases he
  · rw [h.left]
    exact Nat.zero_le _
  · intro i e he
    cases he
  · intro i e _ he
    cases he
  · intro i hi
    cases hi
  · trivial
  · trivial

end Steps

/-- No stale event is handed out, and an event is lost only when the counter has come round. -/
theorem batch_delivered {max : Nat} {st₀ st : State} {acts : List Act} (h₀ : Init max st₀)
    (hrun : run step st₀ acts = some st) : NoneStale st.trace ∧ NoneLost Wrapped st.trace := by
  have h : Recorded st := by
    refine run_invariant ?_ (init_recorded h₀) hrun
    intro st a st' h hstep
    exact step_recorded h hstep
  exact ⟨h.noneStale, h.noneLost⟩

/-- The callback of the last event deletes the slot of the one before and fills it anew; the
first event is next. -/
theorem batch_delivered_reused :
    ∃ st, run step (start 4) [.add 3 true, .add 4 true, .add 5 true,
        .next 0 [.events [⟨0, 1⟩, ⟨1, 1⟩, ⟨2, 1⟩]], .del 1, .add 4 true, .next 0 [],
        .next 0 [.events [⟨1, 1⟩]]] = some st ∧
      NoneStale st.trace ∧ NoneLost Wrapped st.trace := by
  have hsome : (run step (start 4) [.add 3 true, .add 4 true, .add 5 true,
      .next 0 [.events [⟨0, 1⟩, ⟨1, 1⟩, ⟨2, 1⟩]], .del 1, .add 4 true, .next 0 [],
      .next 0 [.events [⟨1, 1⟩]]]).isSome := by decide
  have hrun := (Option.some_get hsome).symm
  exact ⟨_, hrun, batch_delivered (start_init 4) hrun⟩

/-- A pool with one slot, from one `epoll_wait` to the next. -/
structure Idle (n : Nat) (st : State) : Prop where
  tvStart : st.tvStart = none
  iters : st.iters = n
  modIter : st.modIter 0 = 0
  left : st.left = 0
  filled : .filled 0 ∈ st.trace

lemma Idle.arrive {n : Nat} {st : State} (h : Idle n st) (answers : List Wait) :
    nextEventTv st 0 (.events [⟨0, 1⟩] :: answers) =
      nextEvent answers (EventLoop.arrive st [⟨0, 1⟩]) := by
  have hfresh : fresh st st.left = none := by
    rw [h.left]
    rfl
  unfold nextEventTv
  rw [h.tvStart]
  exact nextEvent_events hfresh _ _

/-- The event of an untouched slot, as long as the counter does not come round. -/
lemma Idle.step {n : Nat} {st : State} (h : Idle n st) (hn : n + 1 < counter) :
    ∃ st', step st (.next 0 [.events [⟨0, 1⟩]]) = some st' ∧ Idle (n + 1) st' := by
  have hreg : ∀ a ∈ [Wait.events [⟨0, 1⟩]], a.registered st.trace := by
    simpa [Wait.registered] using h.filled
  have hiters : (EventLoop.arrive st [⟨0, 1⟩]).iters = n + 1 := by
    change (st.iters + 1) % counter = n + 1
    rw [h.iters, Nat.mod_eq_of_lt hn]
  have hfresh : fresh (EventLoop.arrive st [⟨0, 1⟩]) (EventLoop.arrive st [⟨0, 1⟩]).left =
      some 0 := by
    have hne : ¬ st.modIter 0 = (EventLoop.arrive st [⟨0, 1⟩]).iters := by
      rw [hiters, h.modIter]
      omega
    exact if_neg hne
  refine ⟨(EventLoop.hand (EventLoop.arrive st [⟨0, 1⟩]) 0).2, ?_, ⟨h.tvStart, hiters, h.modIter,
    rfl, ?_⟩⟩
  · simp only [EventLoop.step, if_pos hreg, h.arrive, nextEvent_fresh hfresh, Option.map_some]
  · exact List.mem_cons_of_mem _ (List.mem_cons_of_mem _ h.filled)

lemma Idle.run {n : Nat} (k : Nat) {st : State} (h : Idle n st) (hn : n + k < counter) :
    ∃ st', run EventLoop.step st (List.replicate k (.next 0 [.events [⟨0, 1⟩]])) = some st' ∧
      Idle (n + k) st' := by
  induction k generalizing n st with
  | zero => exact ⟨st, rfl, h⟩
  | succ k ih =>
    obtain ⟨st₁, hstep, hidle⟩ := h.step (by omega)
    obtain ⟨st', hrun, hidle'⟩ := ih hidle (by omega)
    refine ⟨st', ?_, ?_⟩
    · rw [List.replicate_succ, run_cons hstep]
      exact hrun
    · rwa [Nat.add_assoc, Nat.add_comm 1 k] at hidle'

/-- The counter is 0 again, as it was when the slot was filled. -/
lemma Idle.lost {st : State} (h : Idle (counter - 1) st) :
    ∃ st', EventLoop.step st (.next 0 [.events [⟨0, 1⟩], .events [⟨0, 1⟩]]) = some st' ∧
      ¬ NoneLost (fun _ _ => False) st'.trace := by
  have hreg : ∀ a ∈ [Wait.events [⟨0, 1⟩], Wait.events [⟨0, 1⟩]], a.registered st.trace := by
    simpa [Wait.registered] using h.filled
  have hzero : (EventLoop.arrive st [⟨0, 1⟩]).iters = 0 := by
    change (st.iters + 1) % counter = 0
    rw [h.iters]
    decide
  have hstale : fresh (EventLoop.arrive st [⟨0, 1⟩]) (EventLoop.arrive st [⟨0, 1⟩]).left = none := by
    have heq : st.modIter 0 = (EventLoop.arrive st [⟨0, 1⟩]).iters := by
      rw [hzero, h.modIter]
    exact if_pos heq
  obtain ⟨st₂, hst₂⟩ : ∃ st₂, st₂ = EventLoop.arrive (EventLoop.arrive st [⟨0, 1⟩]) [⟨0, 1⟩] :=
    ⟨_, rfl⟩
  have hfresh : fresh st₂ st₂.left = some 0 := by
    have hne : ¬ st.modIter 0 = st₂.iters := by
      rw [hst₂]
      change ¬ st.modIter 0 = ((EventLoop.arrive st [⟨0, 1⟩]).iters + 1) % counter
      rw [hzero, h.modIter]
      decide
    rw [hst₂] at hne ⊢
    exact if_neg hne
  refine ⟨(EventLoop.hand st₂ 0).2, ?_, ?_⟩
  · simp only [EventLoop.step, if_pos hreg, h.arrive, nextEvent_events hstale, ← hst₂,
      nextEvent_fresh hfresh, Option.map_some]
  · rw [hst₂]
    rintro ⟨hlost, -⟩
    exact List.not_mem_nil (hlost 0 ⟨0, 1⟩ rfl id id)

/-- `epoll_wait` returns the event of a slot that has not been touched once more than the
counter can count. -/
theorem counter_comes_round :
    Init 1 (start 1) ∧ ∃ st, run EventLoop.step (start 1) (.add 3 true ::
        (List.replicate (counter - 1) (.next 0 [.events [⟨0, 1⟩]]) ++
          [.next 0 [.events [⟨0, 1⟩], .events [⟨0, 1⟩]]])) = some st ∧
      ¬ NoneLost (fun _ _ => False) st.trace := by
  refine ⟨start_init 1, ?_⟩
  have hadd : EventLoop.step (start 1) (.add 3 true) =
      some (EventLoop.addEvent (start 1) 3 true) := rfl
  have hidle : Idle 0 (EventLoop.addEvent (start 1) 3 true) :=
    ⟨rfl, rfl, rfl, rfl, List.mem_cons_self⟩
  obtain ⟨st₁, hrun, hidle₁⟩ := hidle.run (counter - 1) (by decide)
  rw [Nat.zero_add] at hidle₁
  obtain ⟨st, hlast, hlost⟩ := hidle₁.lost
  refine ⟨st, ?_, hlost⟩
  rw [run_cons hadd, run_append hrun, run_cons hlast]
  rfl

end EventBatch
