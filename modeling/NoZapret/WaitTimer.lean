import NoZapret.Library.Timers
import NoZapret.Tunnel

/-!
# The wait between two parts

`desync` asks for a wait by a timer on the remote slot, and `on_tunnel` sets a second one on
the client slot, which holds the buffer. Here are the choice of the next event and
`on_tunnel` for both directions, with the timers that they set and remove. As in the relay
of the bytes, a handler that closes or reconnects the connection is not followed.
-/

namespace WaitTimer

open Block Packets Params Desync Tunnel Runs Timers

inductive Slot
  | client
  | remote
  | other (i : Nat)
  deriving DecidableEq, Repr

/-- The two slots of the connection. -/
def Ours (s : Slot) : Prop := s = .client ∨ s = .remote

instance : DecidablePred Ours := fun s => inferInstanceAs (Decidable (s = .client ∨ s = .remote))

/-- `fault` is `POLLERR` or `POLLHUP`. -/
structure EType where
  pollin : Bool
  pollout : Bool
  fault : Bool
  deriving DecidableEq, Repr

def pollTimeout : EType := ⟨false, false, false⟩

/-- What `next_event` finds. -/
inductive Polled
  | ready (s : Slot) (t : { t : EType // t ≠ pollTimeout })
  | timeout
  | interrupted

/-- What `try_set_tls_timer` does to the timer of the remote slot. -/
inductive TlsTimer
  | kept
  | removed
  | restarted
  deriving DecidableEq, Repr

/-- A piece of the answer: its length, whether it fills the buffer, and how much of it the
client takes. -/
structure Reply where
  n : Nat
  full : Bool
  tls : TlsTimer
  taken : Nat

/-- One iteration of `loop_event` as its surroundings decide it: the clock in
`next_event_tv`, in `desync` and (later by `lag`) in `on_tunnel`, what is ready, what `recv`
returns for either slot, and what the handlers of other slots do to their timers. -/
structure Turn where
  now : Int
  asked : Int
  lag : Nat := 0
  polled : Polled
  rnd : Rands := {}
  chunks : List (Request × Rands) := []
  replies : List Reply := []
  /-- how much of a held answer the client takes -/
  taken : Nat := 0
  /-- `on_timeout` starts the timer of an idle slot again -/
  idle : Bool := false
  others : List (Option Int) := []

structure State where
  timers : List (Timer Slot) := []
  etype : EType := ⟨true, true, true⟩
  pair : Pair
  /-- what the remote slot holds for the client -/
  back : Option Nat := none
  /-- `round_sent` of the remote slot -/
  remoteSent : Nat := 0

structure Pick where
  slot : Slot
  etype : EType
  /-- the deadline of the timer that has run out -/
  fired : Option Int
  timers : List (Timer Slot)

def nextEventTv (st : State) (turn : Turn) : Option Pick :=
  match st.timers with
  | [] =>
    match turn.polled with
    | .ready s t => some ⟨s, t, none, []⟩
    | .timeout => none
    | .interrupted => none
  | first :: rest =>
    let fire : Pick := ⟨first.slot, pollTimeout, some first.deadline,
      remove (first :: rest) first.slot⟩
    if 0 < first.deadline - turn.now then
      match turn.polled with
      | .ready s t => some ⟨s, t, none, first :: rest⟩
      | .timeout => some fire
      -- `etype` still has the value of the event before
      | .interrupted => if st.etype = pollTimeout then some fire else none
    else some fire

section Tunnel

variable (env : Env) (ptimeout : Int) (turn : Turn)

/-- What `on_tunnel` leaves, and the timers that the call of `desync` found which asked for
a wait. -/
structure Served where
  st : State
  asked : Option (List (Timer Slot)) := none

/-- Both calls of `remove_timer`. -/
def dropTimers (st : State) : State :=
  { st with timers := remove (remove st.timers .client) .remote }

/-- The timer of `desync`, and behind it that of `on_tunnel`. -/
def waitTimers (ts : List (Timer Slot)) : List (Timer Slot) :=
  set (set ts .remote (turn.asked + env.g.awaitInt)) .client
    (turn.asked + turn.lag + if env.g.awaitInt = 0 then 10 else (env.g.awaitInt : Int))

/-- `val->buff` stays with what is left of it. -/
def hold (st : State) (h : Hook) (offset : Nat) : Served :=
  let st := { st with pair := { h.pair with buff := some ⟨h.data, h.n, offset + h.sn⟩ } }
  if h.wait then ⟨{ st with timers := waitTimers env turn st.timers }, some st.timers⟩ else ⟨st, none⟩

/-- The loop of `on_tunnel` over what `recv` returns for the client slot. -/
def fromClient : List (Request × Rands) → State → Option Served
  | [], st => some ⟨dropTimers st, none⟩
  | x :: xs, st =>
    if x.1.n = 0 then none
    else do
      let h ← tcpSendHook env x.2 (recvHook st.pair x.1.n) ⟨x.1.data, x.1.n, 0⟩ x.1.n
      let st := { st with
        pair := h.pair
        remoteSent := if st.pair.roundSent = 0 then 0 else st.remoteSent }
      if h.sn < h.n ∨ h.wait then return hold env turn st h 0
      else if h.n = h.data.length then fromClient xs st
      else return ⟨dropTimers st, none⟩

/-- `tcp_recv_hook` for the remote slot. -/
def recvReply (st : State) (r : Reply) : State :=
  { st with
    pair := if st.remoteSent = 0 then { st.pair with roundSent := 0, partSent := 0 } else st.pair
    timers :=
      match r.tls with
      | .kept => st.timers
      | .removed => remove st.timers .remote
      | .restarted => set (remove st.timers .remote) .remote (turn.asked + ptimeout)
    remoteSent := st.remoteSent + r.taken }

/-- The same loop for the remote slot. -/
def fromRemote : List Reply → State → State
  | [], st => dropTimers st
  | r :: rs, st =>
    let st := recvReply ptimeout turn st r
    if r.taken < r.n then { st with back := some (r.n - r.taken) }
    else if r.full then fromRemote rs st
    else dropTimers st

def serveClient (st : State) : Option Served :=
  match st.pair.buff with
  | none => fromClient env turn turn.chunks st
  | some b => do
    let h ← tcpSendHook env turn.rnd st.pair b b.lock
    if h.sn < b.lock - b.offset ∨ h.wait then return hold env turn st h b.offset
    else
      fromClient env turn turn.chunks
        (dropTimers { st with pair := { h.pair with buff := none } })

def serveRemote (st : State) : State :=
  match st.back with
  | none => fromRemote ptimeout turn turn.replies st
  | some k =>
    let st := { st with remoteSent := st.remoteSent + min turn.taken k }
    if turn.taken < k then { st with back := some (k - turn.taken) }
    else fromRemote ptimeout turn turn.replies (dropTimers { st with back := none })

def held (st : State) : Slot → Bool
  | .client => st.pair.buff.isSome
  | .remote => st.back.isSome
  | .other _ => false

def peer : Slot → Slot
  | .client => .remote
  | .remote => .client
  | .other i => .other i

def serve (st : State) : Slot → Option Served
  | .client => serveClient env turn st
  | .remote => some ⟨serveRemote ptimeout turn st, none⟩
  | .other _ => none

def onTunnel (st : State) (s : Slot) (t : EType) : Option Served :=
  let st := if t.pollin || t.pollout then dropTimers st else st
  if t = pollTimeout ∧ held st s = false ∧ held st (peer s) = false then
    some ⟨if turn.idle then { st with timers := set st.timers s (turn.asked + ptimeout) } else st, none⟩
  else if (t = pollTimeout ∨ t.pollout) ∧ held st s = false ∧ held st (peer s) = true then
    serve env ptimeout turn st (peer s)
  else serve env ptimeout turn st s

end Tunnel

/-- The ends of the waits that `desync` has asked for, as long as no timer of the two slots
with that deadline or a later one has run out. -/
structure Watched where
  st : State
  due : List Int := []

def otherSlot (turn : Turn) (i : Nat) (ts : List (Timer Slot)) : List (Timer Slot) :=
  turn.others.foldl (fun ts op => match op with
    | none => remove ts (.other i)
    | some ms => set ts (.other i) (turn.asked + ms)) ts

def stillDue (due : List Int) : Option Int → List Int
  | none => due
  | some deadline => due.filter (deadline < ·)

/-- One iteration of `loop_event`. -/
def step (env : Env) (ptimeout : Int) (w : Watched) (turn : Turn) : Option Watched :=
  match nextEventTv w.st turn with
  | none => some w
  | some p =>
    let st := { w.st with etype := p.etype, timers := p.timers }
    match p.slot with
    | .other i => some { w with st := { st with timers := otherSlot turn i p.timers } }
    | s => do
      let r ← onTunnel env ptimeout turn st s p.etype
      return ⟨r.st, stillDue w.due p.fired ++
        if r.asked.isSome then [turn.asked + env.g.awaitInt] else []⟩

/-- The sends that carry bytes of requests. -/
def requestSends (w : Sock) : List Event :=
  w.log.filter fun
    | .sent (.request _) _ _ _ => true
    | _ => false

/-- The iteration starts with a timer of one of the two slots that runs out, `d` or later. -/
def RunsOut (d : Int) (w : Watched) (turn : Turn) : Prop :=
  ∃ p, nextEventTv w.st turn = some p ∧ Ours p.slot ∧ ∃ deadline, p.fired = some deadline ∧ d ≤ deadline

/-- No byte of a request is sent in the middle of a wait. -/
def Honours (env : Env) (ptimeout : Int) (w : Watched) (turn : Turn) : Prop :=
  ∀ w', step env ptimeout w turn = some w' → ∀ d ∈ w.due,
    RunsOut d w turn ∨ requestSends w'.st.pair.sock = requestSends w.st.pair.sock

/-- In the middle of a wait nothing is reported for the client slot, and the remote slot is
not found writable; a timer for its TLS record runs as long as the wait. -/
def Undisturbed (ptimeout : Int) (w : Watched) (turn : Turn) : Prop :=
  w.due ≠ [] → ∀ p, nextEventTv w.st turn = some p → p.fired = none → Ours p.slot →
    p.slot = .remote ∧ p.etype.pollout = false ∧
      ∀ r ∈ turn.replies, r.tls = .restarted → ∀ d ∈ w.due, d ≤ turn.asked + ptimeout

/-- A call of `desync` that asks for a wait finds no timer of the two slots that runs out
before it. -/
def Fresh (env : Env) (ptimeout : Int) (w : Watched) (turn : Turn) : Prop :=
  ∀ p, nextEventTv w.st turn = some p → ∀ r ts,
    onTunnel env ptimeout turn { w.st with etype := p.etype, timers := p.timers } p.slot p.etype =
      some r → r.asked = some ts → Lasts Ours (turn.asked + env.g.awaitInt) ts

section Timers

variable {env : Env} {ptimeout : Int} {turn : Turn} {st : State} {d : Int} {p : Pick}

lemma pick_timers (h : nextEventTv st turn = some p) : p.timers ⊆ st.timers := by
  have hrest : ∀ {ts : List (Timer Slot)} {s : Slot}, remove ts s ⊆ ts :=
    fun ht => (mem_remove ht).1
  unfold nextEventTv at h
  split at h
  · split at h <;> cases h
    exact List.nil_subset _
  · next first rest hts =>
    rw [hts]
    simp only at h
    split at h
    · split at h
      · cases h
        exact List.Subset.refl _
      · cases h
        exact hrest
      · split at h <;> cases h
        exact hrest
    · cases h
      exact hrest

lemma pick_fired {deadline : Int} (h : nextEventTv st turn = some p)
    (hf : p.fired = some deadline) : ⟨p.slot, deadline⟩ ∈ st.timers := by
  unfold nextEventTv at h
  split at h
  · split at h <;> cases h
    cases hf
  · next first rest hts =>
    rw [hts]
    simp only at h
    split at h
    · split at h
      · cases h
        cases hf
      · cases h
        cases hf
        exact List.mem_cons_self
      · split at h <;> cases h
        cases hf
        exact List.mem_cons_self
    · cases h
      cases hf
      exact List.mem_cons_self

lemma pick_ready (h : nextEventTv st turn = some p) (hf : p.fired = none) :
    p.etype ≠ pollTimeout := by
  unfold nextEventTv at h
  split at h
  · split at h <;> cases h
    next t _ => exact t.2
  · simp only at h
    split at h
    · split at h
      · next t _ =>
        cases h
        exact t.2
      · cases h
        cases hf
      · split at h <;> cases h
        cases hf
    · cases h
      cases hf

lemma lasts_dropTimers (h : Lasts Ours d st.timers) : Lasts Ours d (dropTimers st).timers :=
  h.remove.remove

lemma lasts_otherSlot {i : Nat} {ts : List (Timer Slot)} (h : Lasts Ours d ts) :
    Lasts Ours d (otherSlot turn i ts) := by
  unfold otherSlot
  generalize turn.others = ops
  induction ops generalizing ts with
  | nil => exact h
  | cons op ops ih =>
    refine ih ?_
    cases op with
    | none => exact h.remove
    | some ms =>
      refine h.set ?_
      rintro (hs | hs) <;> cases hs

end Timers

section Waits

variable {env : Env} {ptimeout : Int} {turn : Turn} {st : State} {d : Int} {r : Served}
  {ts : List (Timer Slot)}

lemma lasts_waitTimers (h : Lasts Ours (turn.asked + env.g.awaitInt) ts) :
    Lasts Ours (turn.asked + env.g.awaitInt) (waitTimers env turn ts) := by
  refine (h.set fun _ => Int.le_refl _).set fun _ => ?_
  split <;> omega

lemma hold_lasts {hook : Hook} {offset : Nat}
    (hr : (hold env turn st hook offset).asked = some ts)
    (h : Lasts Ours (turn.asked + env.g.awaitInt) ts) :
    Lasts Ours (turn.asked + env.g.awaitInt) (hold env turn st hook offset).st.timers := by
  unfold hold at hr ⊢
  simp only at hr ⊢
  split at hr
  · next hwait =>
    rw [if_pos hwait]
    cases hr
    exact lasts_waitTimers h
  · cases hr

/-- Where the call of `desync` that asked for a wait found no earlier timer, none is left. -/
def Covers (env : Env) (turn : Turn) (r : Served) : Prop :=
  ∀ ts, r.asked = some ts → Lasts Ours (turn.asked + env.g.awaitInt) ts →
    Lasts Ours (turn.asked + env.g.awaitInt) r.st.timers

lemma covers_none {st : State} : Covers env turn ⟨st, none⟩ := by
  intro ts hts
  cases hts

lemma fromClient_covers {chunks : List (Request × Rands)}
    (hr : fromClient env turn chunks st = some r) : Covers env turn r := by
  induction chunks generalizing st with
  | nil =>
    cases hr
    exact covers_none
  | cons x xs ih =>
    unfold fromClient at hr
    split at hr
    · cases hr
    · obtain ⟨hook, -, hr⟩ := Option.bind_eq_some_iff.mp hr
      simp only at hr
      split at hr
      · cases hr
        exact fun _ => hold_lasts
      · split at hr
        · exact ih hr
        · cases hr
          exact covers_none

lemma serve_covers {s : Slot} (hr : serve env ptimeout turn st s = some r) :
    Covers env turn r := by
  cases s with
  | client =>
    simp only [serve, serveClient] at hr
    split at hr
    · exact fromClient_covers hr
    · obtain ⟨hook, -, hr⟩ := Option.bind_eq_some_iff.mp hr
      split at hr
      · cases hr
        exact fun _ => hold_lasts
      · exact fromClient_covers hr
  | remote =>
    cases hr
    exact covers_none
  | other i => cases hr

lemma onTunnel_covers {s : Slot} {t : EType} (hr : onTunnel env ptimeout turn st s t = some r) :
    Covers env turn r := by
  unfold onTunnel at hr
  generalize (if t.pollin || t.pollout then dropTimers st else st) = st' at hr
  simp only at hr
  split at hr
  · cases hr
    exact covers_none
  · split at hr <;> exact serve_covers hr

end Waits

section Answers

variable {env : Env} {ptimeout : Int} {turn : Turn} {st : State} {d : Int}

lemma recvReply_lasts {r : Reply} (hr : r.tls = .restarted → d ≤ turn.asked + ptimeout)
    (h : Lasts Ours d st.timers) : Lasts Ours d (recvReply ptimeout turn st r).timers := by
  simp only [recvReply]
  split
  · exact h
  · exact h.remove
  · next htls => exact h.remove.set fun _ => hr htls

lemma recvReply_sock (r : Reply) : (recvReply ptimeout turn st r).pair.sock = st.pair.sock := by
  simp only [recvReply]
  split <;> rfl

lemma fromRemote_keeps {rs : List Reply}
    (hrs : ∀ r ∈ rs, r.tls = .restarted → d ≤ turn.asked + ptimeout)
    (h : Lasts Ours d st.timers) :
    Lasts Ours d (fromRemote ptimeout turn rs st).timers ∧
      (fromRemote ptimeout turn rs st).pair.sock = st.pair.sock := by
  induction rs generalizing st with
  | nil => exact ⟨lasts_dropTimers h, rfl⟩
  | cons r rs ih =>
    have hnext : Lasts Ours d (recvReply ptimeout turn st r).timers :=
      recvReply_lasts (hrs r List.mem_cons_self) h
    have hsock : (recvReply ptimeout turn st r).pair.sock = st.pair.sock := recvReply_sock r
    unfold fromRemote
    simp only
    split
    · exact ⟨hnext, hsock⟩
    · split
      · obtain ⟨hlast, hkeep⟩ := ih (fun q hq => hrs q (List.mem_cons_of_mem _ hq)) hnext
        exact ⟨hlast, hkeep.trans hsock⟩
      · exact ⟨lasts_dropTimers hnext, hsock⟩

lemma serveRemote_keeps
    (hrs : ∀ r ∈ turn.replies, r.tls = .restarted → d ≤ turn.asked + ptimeout)
    (h : Lasts Ours d st.timers) :
    Lasts Ours d (serveRemote ptimeout turn st).timers ∧
      (serveRemote ptimeout turn st).pair.sock = st.pair.sock := by
  unfold serveRemote
  split
  · exact fromRemote_keeps hrs h
  · simp only
    split
    · exact ⟨h, rfl⟩
    · exact fromRemote_keeps hrs (lasts_dropTimers h)

/-- An event that finds the remote slot readable, or broken, is no event for the request. -/
lemma onTunnel_remote {t : EType} (ht : t ≠ pollTimeout) (hout : t.pollout = false) :
    onTunnel env ptimeout turn st .remote t =
      some ⟨serveRemote ptimeout turn (if t.pollin then dropTimers st else st), none⟩ := by
  unfold onTunnel
  simp only [ht, hout, Bool.or_false, Bool.false_eq_true, false_or, false_and, if_false]
  rfl

end Answers

section Runs

variable {env : Env} {ptimeout : Int}

/-- The timers of the two slots run at least as long as the waits. -/
def Timed (w : Watched) : Prop := ∀ d ∈ w.due, Lasts Ours d w.st.timers

/-- The conditions on an iteration. -/
structure Calm (env : Env) (ptimeout : Int) (w : Watched) (turn : Turn) : Prop where
  undisturbed : Undisturbed ptimeout w turn
  fresh : Fresh env ptimeout w turn

variable {w w' : Watched} {turn : Turn} {p : Pick}

lemma step_other {i : Nat} (hp : nextEventTv w.st turn = some p) (hs : p.slot = .other i)
    (h : step env ptimeout w turn = some w') :
    w'.due = w.due ∧ w'.st.pair = w.st.pair ∧ w'.st.timers = otherSlot turn i p.timers := by
  unfold step at h
  rw [hp] at h
  simp only [hs] at h
  cases h
  exact ⟨rfl, rfl, rfl⟩

lemma step_ours (hp : nextEventTv w.st turn = some p) (hs : Ours p.slot)
    (h : step env ptimeout w turn = some w') :
    ∃ r, onTunnel env ptimeout turn { w.st with etype := p.etype, timers := p.timers } p.slot
        p.etype = some r ∧
      w' = ⟨r.st, stillDue w.due p.fired ++
        if r.asked.isSome then [turn.asked + env.g.awaitInt] else []⟩ := by
  unfold step at h
  rw [hp] at h
  rcases hs with hs | hs
  · simp only [hs] at h
    obtain ⟨r, hr, h⟩ := Option.bind_eq_some_iff.mp h
    cases h
    exact ⟨r, by rw [hs]; exact hr, rfl⟩
  · simp only [hs] at h
    obtain ⟨r, hr, h⟩ := Option.bind_eq_some_iff.mp h
    cases h
    exact ⟨r, by rw [hs]; exact hr, rfl⟩

/-- A timer of the two slots that runs out ends every wait. -/
lemma fired_ends {deadline : Int} (hw : Timed w) (hp : nextEventTv w.st turn = some p)
    (hs : Ours p.slot) (hf : p.fired = some deadline) : ∀ d ∈ w.due, d ≤ deadline :=
  fun d hd => hw d hd _ (pick_fired hp hf) hs

lemma stillDue_fired {deadline : Int} {due : List Int} (h : ∀ d ∈ due, d ≤ deadline) :
    stillDue due (some deadline) = [] := by
  simp only [stillDue, List.filter_eq_nil_iff, decide_eq_true_eq]
  intro d hd
  have := h d hd
  omega

lemma timed_asked {r : Served} (hcov : Covers env turn r)
    (hfresh : ∀ ts, r.asked = some ts → Lasts Ours (turn.asked + env.g.awaitInt) ts) :
    Timed ⟨r.st, if r.asked.isSome then [turn.asked + env.g.awaitInt] else []⟩ := by
  intro d hd
  simp only at hd
  cases hasked : r.asked with
  | none =>
    rw [hasked] at hd
    cases hd
  | some ts =>
    rw [hasked] at hd
    obtain rfl := List.mem_singleton.mp hd
    exact hcov ts hasked (hfresh ts hasked)

lemma timed_step (hw : Timed w) (hc : Calm env ptimeout w turn)
    (h : step env ptimeout w turn = some w') : Timed w' := by
  cases hp : nextEventTv w.st turn with
  | none =>
    simp only [step, hp] at h
    cases h
    exact hw
  | some p =>
    have hsub : ∀ d ∈ w.due, Lasts Ours d p.timers :=
      fun d hd => (hw d hd).subset (pick_timers hp)
    by_cases hs : Ours p.slot
    · obtain ⟨r, hr, rfl⟩ := step_ours hp hs h
      have hasked := timed_asked (onTunnel_covers hr) (fun ts => hc.fresh p hp r ts hr)
      cases hf : p.fired with
      | some deadline =>
        rw [stillDue_fired (fired_ends hw hp hs hf)]
        exact hasked
      | none =>
        by_cases hdue : w.due = []
        · rw [hdue]
          exact hasked
        · -- the event is for the remote slot, and it serves the answer
          obtain ⟨hremote, hout, hreplies⟩ := hc.undisturbed hdue p hp hf hs
          rw [hremote, onTunnel_remote (pick_ready hp hf) hout] at hr
          cases hr
          intro d hd
          simp only [stillDue, Option.isSome_none, Bool.false_eq_true, if_false,
            List.append_nil] at hd
          refine (serveRemote_keeps (fun q hq ht => hreplies q hq ht d hd) ?_).1
          split
          · exact lasts_dropTimers (hsub d hd)
          · exact hsub d hd
    · cases hslot : p.slot with
      | client => exact absurd (.inl hslot) hs
      | remote => exact absurd (.inr hslot) hs
      | other i =>
        obtain ⟨hdue, -, hts⟩ := step_other hp hslot h
        intro d hd
        rw [hdue] at hd
        rw [hts]
        exact lasts_otherSlot (hsub d hd)

lemma honours_step (hw : Timed w) (hc : Calm env ptimeout w turn) :
    Honours env ptimeout w turn := by
  intro w' h d hd
  cases hp : nextEventTv w.st turn with
  | none =>
    simp only [step, hp] at h
    cases h
    exact .inr rfl
  | some p =>
    by_cases hs : Ours p.slot
    · cases hf : p.fired with
      | some deadline => exact .inl ⟨p, hp, hs, deadline, hf, fired_ends hw hp hs hf d hd⟩
      | none =>
        obtain ⟨hremote, hout, hreplies⟩ :=
          hc.undisturbed (List.ne_nil_of_mem hd) p hp hf hs
        obtain ⟨r, hr, rfl⟩ := step_ours hp hs h
        rw [hremote, onTunnel_remote (pick_ready hp hf) hout] at hr
        cases hr
        refine .inr (congrArg requestSends ?_)
        have hlast : Lasts Ours d p.timers := (hw d hd).subset (pick_timers hp)
        refine (serveRemote_keeps (fun q hq ht => hreplies q hq ht d hd) ?_).2.trans ?_
        · split
          · exact lasts_dropTimers hlast
          · exact hlast
        · split <;> rfl
    · cases hslot : p.slot with
      | client => exact absurd (.inl hslot) hs
      | remote => exact absurd (.inr hslot) hs
      | other i =>
        obtain ⟨-, hpair, -⟩ := step_other hp hslot h
        rw [hpair]
        exact .inr rfl

/-- Where nothing disturbs a wait and no older timer is left over when it is asked for, no
byte of the request goes out before a timer with the deadline of the wait. -/
theorem wait_honoured (env : Env) (ptimeout : Int) (st : State) (turns : List Turn)
    (hc : Meets (step env ptimeout) (Calm env ptimeout) ⟨st, []⟩ turns) :
    Meets (step env ptimeout) (Honours env ptimeout) ⟨st, []⟩ turns := by
  have hstart : Timed ⟨st, []⟩ := by
    intro d hd
    cases hd
  exact meets_of_inv (fun w turn w' => timed_step) (fun w turn => honours_step) hstart hc

lemma fromClient_asked {chunks : List (Request × Rands)} {st : State} {r : Served}
    {ts : List (Timer Slot)} (hr : fromClient env turn chunks st = some r)
    (hts : r.asked = some ts) : ts = st.timers := by
  induction chunks generalizing st with
  | nil =>
    cases hr
    cases hts
  | cons x xs ih =>
    unfold fromClient at hr
    split at hr
    · cases hr
    · obtain ⟨hook, -, hr⟩ := Option.bind_eq_some_iff.mp hr
      simp only at hr
      split at hr
      · cases hr
        unfold hold at hts
        simp only at hts
        split at hts <;> cases hts
        rfl
      · split at hr
        · have hrest := ih hr
          exact hrest
        · cases hr
          cases hts

lemma serve_asked {s : Slot} {st : State} {r : Served} {ts : List (Timer Slot)}
    (hr : serve env ptimeout turn st s = some r) (hts : r.asked = some ts) :
    ts ⊆ st.timers := by
  cases s with
  | client =>
    simp only [serve, serveClient] at hr
    split at hr
    · rw [fromClient_asked hr hts]
      exact List.Subset.refl _
    · obtain ⟨hook, -, hr⟩ := Option.bind_eq_some_iff.mp hr
      split at hr
      · cases hr
        unfold hold at hts
        simp only at hts
        split at hts <;> cases hts
        exact List.Subset.refl _
      · rw [fromClient_asked hr hts]
        intro t ht
        exact (mem_remove (mem_remove ht).1).1
  | remote =>
    cases hr
    cases hts
  | other i => cases hr

/-- Behind a readable or writable socket no timer of the two slots is left. -/
lemma fresh_of_ready (hp : nextEventTv w.st turn = some p)
    (ht : (p.etype.pollin || p.etype.pollout) = true) : Fresh env ptimeout w turn := by
  intro q hq r ts hr hts
  obtain rfl := Option.some.inj (hp.symm.trans hq)
  unfold onTunnel at hr
  rw [if_pos ht] at hr
  have hsub : ts ⊆ (dropTimers { w.st with etype := p.etype, timers := p.timers }).timers := by
    simp only at hr
    split at hr
    · cases hr
      cases hts
    · split at hr <;> exact serve_asked hr hts
  intro t hmem hours
  obtain ⟨hrest, hnotRemote⟩ := mem_remove (hsub hmem)
  rcases hours with hclient | hremote
  · exact absurd hclient (mem_remove hrest).2
  · exact absurd hremote hnotRemote

def splitAt3 : DesyncParams := { parts := [⟨.split, {}, 3, 0, 0⟩] }

def waiting : Env := { g := { waitSend := true }, select := fun dp _ _ => some dp }

def sixBytes : Request := ⟨[97, 98, 99, 100, 101, 102], 6, by decide⟩

/-- The request comes in: three bytes of it leave, and the wait ends at 10. -/
def arrival : Turn :=
  { now := 0, asked := 0, polled := .ready .client ⟨⟨true, false, false⟩, by decide⟩,
    chunks := [(sixBytes, {})] }

def runOut : Turn := { now := 10, asked := 10, polled := .timeout }

def writable : Turn :=
  { now := 0, asked := 0, polled := .ready .remote ⟨⟨false, true, false⟩, by decide⟩ }

theorem wait_honoured_timer :
    Meets (step waiting 0) (Honours waiting 0) ⟨{ pair := { dp := splitAt3, sock := {} } }, []⟩
      [arrival, runOut] := by
  refine wait_honoured waiting 0 _ _ ⟨⟨fun h => absurd rfl h, fresh_of_ready rfl rfl⟩, ?_⟩
  intro w hw
  cases hw
  refine ⟨⟨?_, ?_⟩, fun _ _ => trivial⟩
  · intro _ p hp hf
    cases hp
    cases hf
  · intro p hp r ts hr hts
    cases hp
    cases hr
    cases hts

/-- The remote socket has room for more: `on_tunnel` takes the timers away and sends the
rest. -/
theorem writable_overtakes_wait :
    ∃ w w', run (step waiting 0) ⟨{ pair := { dp := splitAt3, sock := {} } }, []⟩ [arrival] =
        some w ∧
      w.due = [10] ∧ step waiting 0 w writable = some w' ∧
      requestSends w.st.pair.sock = [.sent (.request 0) [97, 98, 99] false 3] ∧
      requestSends w'.st.pair.sock =
        [.sent (.request 0) [97, 98, 99] false 3, .sent (.request 3) [100, 101, 102] false 3] ∧
      ¬ Honours waiting 0 w writable := by
  refine ⟨_, _, rfl, rfl, rfl, rfl, rfl, ?_⟩
  intro h
  rcases h _ rfl 10 (by decide) with ⟨p, hp, -, deadline, hf, -⟩ | heq
  · cases hp
    cases hf
  · exact absurd heq (by decide)

end Runs

end WaitTimer
