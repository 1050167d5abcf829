import NoZapret.Library.Links
import NoZapret.PoolRuns

/-!
# Timers and batches of events

The event loop between two calls of `next_event_tv`: the pool with the list of its timers,
the events of the last `epoll_wait` that are still to be handed out, and the counter that
tells whether a slot has been deleted or filled since. `trace` is what an observer of the
loop would have written down, the latest first.
-/

namespace EventLoop

open Pool Links

/-- `struct epoll_event` -/
structure Event where
  slot : Nat
  events : Int
  deriving DecidableEq, Repr

inductive Obs where
  /-- `add_event` has taken the slot -/
  | filled (v : Nat)
  /-- `del_event` has released the slot -/
  | released (v : Nat)
  /-- `epoll_wait` has returned the events -/
  | waited (batch : List Event)
  /-- `next_event` returns the slot of the event at this place of the batch -/
  | handed (i v : Nat)
  /-- `next_event_tv` returns the slot because of its timer -/
  | expired (v : Nat)
  deriving DecidableEq, Repr

structure State where
  w : World
  tvStart : Option Nat := none
  tvEnd : Option Nat := none
  tvMs : Nat → Int
  tvNext : Nat → Option Nat
  tvPrev : Nat → Option Nat
  modIter : Nat → Nat
  iters : Nat := 0
  pevents : Nat → Event
  /-- `*offs + 1`: the events that are left -/
  left : Nat := 0
  etype : Int := -1
  trace : List Obs := []

/-- `unsigned long long` -/
def counter : Nat := 2 ^ 64

/-- `POLLTIMEOUT` -/
def pollTimeout : Int := 0

/-- The slot is cleared before it is registered. -/
def addEvent (st : State) (fd : Int) (ok : Bool) : State :=
  match st.w.free with
  | [] => st
  | v :: _ => { st with
      w := (Pool.addEvent st.w fd ok).2
      tvMs := Function.update st.tvMs v 0
      tvNext := Function.update st.tvNext v none
      tvPrev := Function.update st.tvPrev v none
      modIter := Function.update st.modIter v st.iters
      trace := .filled v :: st.trace }

def removeTimer (st : State) (v : Nat) : State := { st with
  tvNext := Function.update (patch st.tvNext (st.tvPrev v) (st.tvNext v)) v none
  tvPrev := Function.update (patch st.tvPrev (st.tvNext v) (st.tvPrev v)) v none
  tvStart := if st.tvStart = some v then st.tvNext v else st.tvStart
  tvEnd := if st.tvEnd = some v then st.tvPrev v else st.tvEnd
  tvMs := Function.update st.tvMs v 0 }

/-- The loop of `set_timer` over `prev` and `next`; no more than so many rounds. -/
def place (tvMs : Nat → Int) (tvPrev : Nat → Option Nat) (d : Int) :
    Nat → Option Nat → Option Nat → Option (Option Nat × Option Nat)
  | _, none, next => some (none, next)
  | fuel, some p, next =>
    if d ≤ tvMs p then
      match fuel with
      | 0 => none
      | fuel + 1 => place tvMs tvPrev d fuel (tvPrev p) (some p)
    else some (some p, next)

/-- `set_timer` behind its loop. -/
def link (st : State) (v : Nat) (prev next : Option Nat) : State := { st with
  tvNext := patch (Function.update st.tvNext v next) prev (some v)
  tvPrev := patch (Function.update st.tvPrev v prev) next (some v)
  tvStart := if st.tvStart = none ∨ next = st.tvStart then some v else st.tvStart
  tvEnd := if st.tvEnd = none ∨ prev = st.tvEnd then some v else st.tvEnd }

/-- `set_timer`, if its loop ends; `d` is `time_ms() + ms`. The pool has as many slots as
`links` is long. -/
def setTimer (st : State) (v : Nat) (d : Int) : Option State :=
  if st.tvMs v ≠ 0 then some st
  else
    let st := { st with tvMs := Function.update st.tvMs v d }
    (place st.tvMs st.tvPrev d (st.w.used.length + st.w.free.length) st.tvEnd none).map
      fun r => link st v r.1 r.2

/-- What `del_event` does to the slot apart from the pool. -/
def release (st : State) (v : Nat) : State :=
  removeTimer { st with
    modIter := Function.update st.modIter v st.iters
    trace := .released v :: st.trace } v

/-- `del_event`, with the bound of `Pool.delEventFrom`. -/
def delEventFrom : Nat → State → Nat → State
  | 0, st, _ => st
  | fuel + 1, st, v =>
    let e := st.w.items v
    if e.fd = -1 then st
    else
      let st := { release st v with w := remove st.w v }
      match e.pair with
      | none => st
      | some p => delEventFrom fuel { st with w := unpair st.w v p } p

def delEvent (st : State) (v : Nat) : State :=
  delEventFrom (st.w.used.length + st.w.free.length + 1) st v

/-- What one call of `epoll_wait` answers. -/
inductive Wait where
  | events (batch : List Event)
  | timeout
  | failed
  deriving DecidableEq, Repr

/-- It returns with one event at least, and only for slots that `add_event` has filled. -/
def Wait.registered (trace : List Obs) : Wait → Prop
  | .events batch => batch ≠ [] ∧ ∀ e ∈ batch, .filled e.slot ∈ trace
  | _ => True

instance (trace : List Obs) : DecidablePred (Wait.registered trace)
  | .events batch => inferInstanceAs (Decidable (batch ≠ [] ∧ ∀ e ∈ batch, .filled e.slot ∈ trace))
  | .timeout => inferInstanceAs (Decidable True)
  | .failed => inferInstanceAs (Decidable True)

/-- The place of the next event whose slot is as it was when `epoll_wait` returned. -/
def fresh (st : State) : Nat → Option Nat
  | 0 => none
  | i + 1 => if st.modIter (st.pevents i).slot = st.iters then fresh st i else some i

/-- The event at this place is handed out. -/
def hand (st : State) (i : Nat) : Option Nat × State :=
  let e := st.pevents i
  (some e.slot, { st with
    left := i
    etype := e.events
    trace := .handed i e.slot :: st.trace })

/-- `epoll_wait` has returned events. -/
def arrive (st : State) (batch : List Event) : State := { st with
  left := batch.length
  pevents := fun i => batch.getD i (st.pevents i)
  iters := (st.iters + 1) % counter
  trace := .waited batch :: st.trace }

/-- `next_event` and what its calls of `epoll_wait` answer; it goes on waiting when there is
no answer. -/
def nextEvent : List Wait → State → Option (Option Nat × State)
  | [], st => (fresh st st.left).map (hand st)
  | a :: answers, st =>
    match fresh st st.left, a with
    | some i, _ => some (hand st i)
    | none, .timeout => some (none, { st with left := 0, etype := pollTimeout })
    | none, .failed => some (none, { st with left := 0 })
    | none, .events batch => nextEvent answers (arrive st batch)

/-- The end of `next_event_tv`. -/
def expire : Option Nat × State → Option Nat × State
  | (none, st) =>
    match st.tvStart with
    | some v =>
      if st.etype = pollTimeout then (some v, { removeTimer st v with trace := .expired v :: st.trace })
      else (none, st)
    | none => (none, st)
  | r => r

/-- `next_event_tv`; the difference of two `long` is kept in an `int`. -/
def nextEventTv (st : State) (now : Int) (answers : List Wait) : Option (Option Nat × State) :=
  match st.tvStart with
  | none => nextEvent answers st
  | some v =>
    if 0 < (st.tvMs v - now).bmod (2 ^ 32) then (nextEvent answers st).map expire
    else some (expire (none, { st with etype := pollTimeout }))

inductive Act where
  /-- `add_event` and what `epoll_ctl` answers -/
  | add (fd : Int) (ok : Bool)
  /-- `val->pair` is set, or cleared -/
  | link (v : Nat) (p : Option Nat)
  | del (v : Nat)
  /-- `set_timer`, at the time `now` -/
  | set (v : Nat) (now ms : Int)
  | removeTimer (v : Nat)
  /-- `next_event_tv`, at the time `now` -/
  | next (now : Int) (answers : List Wait)
  deriving DecidableEq, Repr

/-- The callbacks know slots that are or have been in use. They link and time only those
that are, and `epoll_wait` answers with slots that have been registered. -/
def step (st : State) : Act → Option State
  | .add fd ok => if 0 < fd then some (addEvent st fd ok) else none
  | .link v p =>
    if v ∈ st.w.used then
      some { st with w := st.w.setItem v { st.w.items v with pair := p } }
    else none
  | .del v => if v ∈ st.w.used ∨ (st.w.items v).fd = -1 then some (delEvent st v) else none
  | .set v now ms => if v ∈ st.w.used ∧ now + ms ≠ 0 then setTimer st v (now + ms) else none
  | .removeTimer v => if .filled v ∈ st.trace then some (removeTimer st v) else none
  | .next now answers =>
    if ∀ a ∈ answers, a.registered st.trace then (nextEventTv st now answers).map Prod.snd
    else none

/-- `init_pool`: nothing is known of the slots but that they have no descriptor. -/
structure Init (max : Nat) (st : State) : Prop where
  pool : PoolRuns.Init max st.w
  tvStart : st.tvStart = none
  tvEnd : st.tvEnd = none
  iters : st.iters = 0
  left : st.left = 0
  etype : st.etype = -1
  trace : st.trace = []

/-- A pool on memory that happens to be zero. -/
def start (max : Nat) : State where
  w := { free := List.range max }
  tvMs := fun _ => 0
  tvNext := fun _ => none
  tvPrev := fun _ => none
  modIter := fun _ => 0
  pevents := fun _ => ⟨0, 0⟩

lemma start_init (max : Nat) : Init max (start max) :=
  ⟨⟨rfl, rfl, fun _ => rfl⟩, rfl, rfl, rfl, rfl, rfl, rfl⟩

section Next

variable {st : State} {i : Nat}

lemma nextEvent_fresh (h : fresh st st.left = some i) (answers : List Wait) :
    nextEvent answers st = some (hand st i) := by
  cases answers with
  | nil => simp only [nextEvent, h, Option.map_some]
  | cons a answers => simp only [nextEvent, h]

lemma nextEvent_waits (h : fresh st st.left = none) : nextEvent [] st = none := by
  simp only [nextEvent, h, Option.map_none]

lemma nextEvent_timeout (h : fresh st st.left = none) (answers : List Wait) :
    nextEvent (.timeout :: answers) st = some (none, { st with left := 0, etype := pollTimeout }) := by
  simp only [nextEvent, h]

lemma nextEvent_failed (h : fresh st st.left = none) (answers : List Wait) :
    nextEvent (.failed :: answers) st = some (none, { st with left := 0 }) := by
  simp only [nextEvent, h]

lemma nextEvent_events (h : fresh st st.left = none) (batch : List Event) (answers : List Wait) :
    nextEvent (.events batch :: answers) st = nextEvent answers (arrive st batch) := by
  simp only [nextEvent, h]

end Next

section Delete

open PoolRuns (Deletes)

variable {w w' : World} {v : Nat} {l : List Nat}

lemma foldl_release (st : State) (w : World) (l : List Nat) :
    l.foldl release { st with w := w } = { l.foldl release st with w := w } := by
  induction l generalizing st with
  | nil => rfl
  | cons v l ih => exact ih (release st v)

/-- Beside what it does to the pool, `del_event` releases the same slots one by one. -/
lemma delEventFrom_eq (h : Deletes w v l w') (k : Nat) {st : State} (hst : st.w = w) :
    delEventFrom (l.length + 1 + k) st v = { l.foldl release st with w := w' } := by
  induction h generalizing st with
  | released hfd =>
    subst hst
    rw [Nat.add_right_comm]
    simp only [delEventFrom, hfd, if_true]
    rfl
  | single hfd hpair =>
    subst hst
    rw [Nat.add_right_comm]
    simp only [delEventFrom, hfd, if_false, hpair]
    rfl
  | @paired w w' v p l hfd hpair hrest ih =>
    subst hst
    rw [Nat.add_right_comm, List.length_cons, List.foldl_cons]
    simp only [delEventFrom, hfd, if_false, hpair]
    rw [ih rfl, foldl_release]

end Delete

end EventLoop
