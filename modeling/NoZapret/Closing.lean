import Mathlib.Logic.Relation
import NoZapret.Library.Runs
import NoZapret.Pool

/-!
# Which descriptors a run of the event loop closes

`start_event_loop` from its entry to its return, with the callbacks that open
and close sockets and a stop that may come at any moment. The kernel hands out
any positive descriptor that is not open. A callback may still be at work when
`brk` is set, and `epoll_wait` may fail at any time.
-/

namespace Closing

open Resources Runs Pool

inductive Phase where
  | entry
  /-- `current_pool = pool` -/
  | pooled
  | looping
  /-- inside `destroy_pool`, behind the control pipe -/
  | draining
  /-- `close(srvfd_to_close)` -/
  | closing
  | returned
  deriving DecidableEq, Repr

structure State where
  phase : Phase := .entry
  srvfd : Int
  efd : Option Int := none
  w : World

/-- `init_pool`: no pool, no pipe, or a pipe whose reading end is registered or not. -/
inductive Init where
  | fails
  | noPipe (efd : Int)
  | pipe (efd reader writer : Int) (epoll : Bool)
  deriving DecidableEq, Repr

/-- What the calls of `create_conn` answer, in their order. -/
structure Connect where
  /-- every `setsockopt` and `connect` -/
  ready : Bool
  epoll : Bool
  /-- `mod_etype(pool, val, 0)` -/
  modified : Bool
  deriving DecidableEq, Repr

/-- What the calls of `udp_associate` answer, in their order. -/
structure Associate where
  ready : Bool
  epoll : Bool
  named : Bool
  socket : Bool
  protected' : Bool
  bound : Bool
  epollClient : Bool
  deriving DecidableEq, Repr

inductive Op where
  /-- one turn of `on_accept`; `ready` is the answer of `setsockopt` -/
  | accept (fd : Int) (ready epoll : Bool)
  /-- `accept` fails and the loop deletes the listener's slot -/
  | acceptFails (v : Nat)
  | connect (v : Nat) (fd : Int) (a : Connect)
  /-- `reconnect` for the remote `v`; no descriptor when `connect_hook` only waits -/
  | reconnect (v : Nat) (fd : Option Int) (a : Connect)
  | associate (v : Nat) (fd fdClient : Int) (a : Associate)
  /-- a callback answers with an error -/
  | delete (v : Nat)
  deriving DecidableEq, Repr

inductive Act where
  | enter (a : Init)
  | listen (epoll : Bool)
  | op (o : Op)
  | leave (err : Bool)
  | drain
  | finish
  | close
  /-- `on_cancel`, called by `byedpi_stop` or `jniForceClose` -/
  | stop
  deriving DecidableEq, Repr

/-- A descriptor that the kernel can hand out. -/
def openable (w : World) (fd : Int) : Bool := decide (0 < fd) && !w.fds.held.contains fd

def setPair (w : World) (v p : Nat) : World := w.setItem v { w.items v with pair := some p }

def onAccept (w : World) (c : Int) (ready epoll : Bool) : World :=
  let w := w.opened c
  if !ready then w.close c
  else
    match addEvent w c epoll with
    | (none, w) => w.close c
    | (some _, w) => w

/-- `create_conn`: whether it returns 0. -/
def createConn (w : World) (v : Nat) (sfd : Int) (a : Connect) : Bool × World :=
  let w := w.opened sfd
  if !a.ready then (false, w.close sfd)
  else
    match addEvent w sfd a.epoll with
    | (none, w) => (false, w.close sfd)
    | (some p, w) => if !a.modified then (false, w) else (true, setPair (setPair w v p) p v)

/-- `reconnect(pool, val)`; nothing is deleted when `connect_hook` fails. -/
def reconnect (w : World) (v client : Nat) (fd : Option Int) (a : Connect) : World :=
  let (ok, w) := match fd with
    | none => (true, w)
    | some sfd => createConn w client sfd a
  if ok then delEvent (w.setItem v { w.items v with pair := none }) v else w

def udpAssociate (w : World) (v : Nat) (ufd cfd : Int) (a : Associate) : World :=
  let w := w.opened ufd
  if !a.ready then w.close ufd
  else
    match addEvent w ufd a.epoll with
    | (none, w) => w.close ufd
    | (some p, w) =>
      if !a.named then w
      else if !a.socket then delEvent w p
      else
        let w := w.opened cfd
        if !a.protected' then delEvent (w.close cfd) p
        else if !a.bound then (delEvent w p).close cfd
        else
          match addEvent w cfd a.epollClient with
          | (none, w) => (delEvent w p).close cfd
          | (some c, w) => setPair (setPair (setPair w v c) c p) p v

/-- The slot of a connection: in use, and not the listener's. -/
def connected (st : State) (v : Nat) : Bool :=
  st.w.used.contains v && (st.w.items v).fd != st.srvfd

def onOp (st : State) : Op → Option World
  | .accept c ready epoll => if openable st.w c then some (onAccept st.w c ready epoll) else none
  | .acceptFails v =>
    if st.w.used.contains v && (st.w.items v).fd == st.srvfd then
      some (delEvent { st.w with brk := true } v)
    else none
  | .connect v fd a =>
    if openable st.w fd && connected st v then some (createConn st.w v fd a).2 else none
  | .reconnect v fd a =>
    match (st.w.items v).pair with
    | none => none
    | some client =>
      if fd.all (openable st.w) && connected st v then some (reconnect st.w v client fd a) else none
  | .associate v ufd cfd a =>
    if openable st.w ufd && openable st.w cfd && ufd != cfd && connected st v then
      some (udpAssociate st.w v ufd cfd a)
    else none
  | .delete v => if st.w.used.contains v then some (delEvent st.w v) else none

/-- `destroy_pool` up to its loop. -/
def closeCtrl (w : World) : World :=
  match w.ctrlFds with
  | none => w
  | some (r, s) => { (w.close r).close s with ctrlFds := none }

/-- The pool with its `efd`. -/
def initPool (w : World) : Init → Option (Int × World)
  | .fails => none
  | .noPipe e => some (e, w.opened e)
  | .pipe e r s epoll =>
    let w := ((w.opened e).opened r).opened s
    some (e, { (addEvent w r epoll).2 with ctrlFds := some (r, s) })

/-- Can the kernel answer so? -/
def possible (w : World) : Init → Bool
  | .fails => true
  | .noPipe e => openable w e
  | .pipe e r s _ => openable w e && openable (w.opened e) r && openable ((w.opened e).opened r) s

def step (st : State) : Act → Option State
  | .enter a =>
    if st.phase = .entry ∧ possible st.w a then
      match initPool { st.w with serverFd := st.srvfd } a with
      | none => some { st with phase := .closing, w := { st.w with serverFd := -1 } }
      | some (e, w) => some { st with phase := .pooled, efd := some e, w := w }
    else none
  | .listen epoll =>
    if st.phase = .pooled then
      match addEvent st.w st.srvfd epoll with
      | (none, w) => some { st with phase := .draining, w := closeCtrl w }
      | (some _, w) => some { st with phase := .looping, w := w }
    else none
  | .op o =>
    if st.phase = .looping then (onOp st o).map fun w => { st with w := w } else none
  | .leave err =>
    if st.phase = .looping ∧ (st.w.brk || err) then
      some { st with phase := .draining, w := closeCtrl st.w }
    else none
  | .drain =>
    match st.phase, st.w.used with
    | .draining, v :: _ => some { st with w := delEvent st.w v }
    | _, _ => none
  | .finish =>
    match st.phase, st.w.used, st.efd with
    | .draining, [], some e =>
      some { st with phase := .closing, efd := none, w := { st.w.close e with serverFd := -1 } }
    | _, _, _ => none
  | .close =>
    if st.phase = .closing then some { st with phase := .returned, w := st.w.close st.srvfd }
    else none
  | .stop =>
    some { st with w := { st.w with
      serverFd := if 0 < st.w.serverFd then -1 else st.w.serverFd, brk := true } }

/-- The run is given the listening socket; the pool will have `max` slots. -/
def start (srvfd : Int) (max : Nat) : State :=
  { srvfd := srvfd
    w := { free := List.range max, fds := { held := [srvfd], acquired := [srvfd] } } }

def Paired (w : World) (u p : Nat) : Prop := (w.items u).pair = some p

/-- No chain of pairs from `v` leads to a slot that is not in use and still
carries a descriptor, as a failed registration leaves it. -/
def NoStray (w : World) (v : Nat) : Prop :=
  ∀ p, Relation.ReflTransGen (Paired w) v p → p ∈ w.used ∨ (w.items p).fd = -1

/-- Deleting the listener's slot leaves its socket to `start_event_loop`. -/
def Spared (st : State) (v : Nat) : Prop :=
  (st.w.items v).fd = st.srvfd → st.w.serverFd = st.srvfd

/-- The condition on a step. -/
def Clean (st : State) : Act → Prop
  | .enter (.pipe _ _ _ epoll) => epoll = false ∨ st.w.free = []
  | .op (.delete v) | .op (.acceptFails v) => NoStray st.w v ∧ Spared st v
  | .drain => ∀ v, st.w.used.head? = some v → NoStray st.w v ∧ Spared st v
  | _ => True

/-- The descriptors that slots in use own; the listener's stays the caller's. -/
def slotFds (s : Int) (w : World) : List Int :=
  (w.used.map fun v => (w.items v).fd).filter fun fd => fd ≠ s

def ctrl (w : World) : List Int :=
  match w.ctrlFds with
  | none => []
  | some (r, s) => [r, s]

/-- What holds between two calls while the code at work owns `ex` itself. -/
structure Kept (s : Int) (ex : List Int) (w : World) : Prop where
  sound : Sound w
  positive : ∀ v ∈ w.used, 0 < (w.items v).fd
  server : w.serverFd = s ∨ w.serverFd = -1
  pairs : ∀ u p, Paired w u p → (w.items p).fd ≠ s
  owned : Owned w.fds (ex ++ s :: ctrl w ++ slotFds s w)

section Calls

variable {s c : Int} {ex : List Int} {w w' : World} {u v p : Nat} {e : Eval} {ok : Bool}

lemma slotFds_congr (hused : w'.used = w.used)
    (hfd : ∀ u ∈ w.used, (w'.items u).fd = (w.items u).fd) : slotFds s w' = slotFds s w := by
  unfold slotFds
  rw [hused, List.map_congr_left hfd]

/-- A change that leaves the links, the ledger and the slots in use alone. -/
lemma Kept.congr (hk : Kept s ex w) (hused : w'.used = w.used) (hfree : w'.free = w.free)
    (hserver : w'.serverFd = w.serverFd) (hctrl : w'.ctrlFds = w.ctrlFds) (hfds : w'.fds = w.fds)
    (hindex : ∀ u ∈ w.used, (w'.items u).index = (w.items u).index)
    (hfd : ∀ u ∈ w.used, (w'.items u).fd = (w.items u).fd)
    (hpairs : ∀ u p, Paired w' u p → (w'.items p).fd ≠ s) : Kept s ex w' := by
  refine ⟨⟨?_, ?_⟩, ?_, ?_, hpairs, ?_⟩
  · intro i u hu
    rw [hused] at hu
    rw [hindex u (List.mem_of_getElem? hu), hk.sound.index i u hu]
  · rw [hused, hfree]
    exact hk.sound.nodup
  · intro v hv
    rw [hused] at hv
    rw [hfd v hv]
    exact hk.positive v hv
  · rw [hserver]
    exact hk.server
  · have hctrl' : ctrl w' = ctrl w := by
      unfold ctrl
      rw [hctrl]
    rw [hfds, hctrl', slotFds_congr hused hfd]
    exact hk.owned

lemma Kept.opened (hk : Kept s ex w) (ho : openable w c = true) :
    Kept s (c :: ex) (w.opened c) := by
  have hc : c ∉ w.fds.held := by
    simp only [openable, Bool.and_eq_true, Bool.not_eq_true', List.contains_eq_mem,
      decide_eq_false_iff_not] at ho
    exact ho.2
  exact ⟨⟨hk.sound.index, hk.sound.nodup⟩, hk.positive, hk.server, hk.pairs, hk.owned.acquire hc⟩

lemma Kept.close (hk : Kept s (c :: ex) w) : Kept s ex (w.close c) :=
  ⟨⟨hk.sound.index, hk.sound.nodup⟩, hk.positive, hk.server, hk.pairs, hk.owned.release⟩

lemma Kept.ne (hk : Kept s (c :: ex) w) : c ≠ s := by
  rintro rfl
  have hnodup := hk.owned.nodup
  simp at hnodup

lemma openable_pos (ho : openable w c = true) : 0 < c := by
  simp only [openable, Bool.and_eq_true, decide_eq_true_eq] at ho
  exact ho.1

/-- What becomes of the other slots when one is added. -/
structure Grown (s : Int) (w w' : World) : Prop where
  used : ∀ u ∈ w.used, u ∈ w'.used
  items : ∀ u ∈ w.used, w'.items u = w.items u
  spare : ∀ u, (w.items u).fd ≠ s → (w'.items u).fd ≠ s

lemma grown_refl (s : Int) (w : World) : Grown s w w :=
  ⟨fun _ hu => hu, fun _ _ => rfl, fun _ hu => hu⟩

/-- The first free slot is written even when it does not come into use. -/
lemma addEvent_cases (w : World) (c : Int) (ok : Bool) :
    addEvent w c ok = (none, w) ∨ ∃ p free, w.free = p :: free ∧
      ((ok = false ∧
          addEvent w c ok = (none, w.setItem p { fd := c, index := w.used.length })) ∨
        (ok = true ∧ addEvent w c ok = (some p,
          { w.setItem p { fd := c, index := w.used.length } with
            used := w.used ++ [p], free := free }))) := by
  unfold addEvent
  cases hfree : w.free with
  | nil => exact Or.inl rfl
  | cons p free =>
    refine Or.inr ⟨p, free, rfl, ?_⟩
    cases ok with
    | false => exact Or.inl ⟨rfl, rfl⟩
    | true => exact Or.inr ⟨rfl, rfl⟩

lemma openable_addEvent (w : World) (c : Int) (ok : Bool) (d : Int) :
    openable (addEvent w c ok).2 d = openable w d := by
  obtain heq | ⟨p, free, -, ⟨-, heq⟩ | ⟨-, heq⟩⟩ := addEvent_cases w c ok <;> rw [heq] <;> rfl

lemma addEvent_ctrlFds (w : World) (c : Int) (ok : Bool) :
    (addEvent w c ok).2.ctrlFds = w.ctrlFds := by
  obtain heq | ⟨p, free, -, ⟨-, heq⟩ | ⟨-, heq⟩⟩ := addEvent_cases w c ok <;> rw [heq] <;> rfl

lemma openable_opened {d : Int} (hd : openable w d = true) (hcd : c ≠ d) :
    openable (w.opened c) d = true := by
  have hne : d ≠ c := Ne.symm hcd
  simpa [openable, World.opened, Ledger.acquire, hne] using hd

lemma free_not_used (hs : Sound w) {free : List Nat} (hfree : w.free = p :: free) : p ∉ w.used := by
  intro hp
  refine (List.nodup_append.mp hs.nodup).2.2 p hp p ?_ rfl
  simp [hfree]

lemma setItem_kept (hk : Kept s ex w) (hp : p ∉ w.used) (hpair : e.pair = none)
    (hfd : e.fd ≠ s) : Kept s ex (w.setItem p e) ∧ Grown s w (w.setItem p e) := by
  have hitem : ∀ u ∈ w.used, (w.setItem p e).items u = w.items u := by
    intro u hu
    apply setItem_of_ne
    rintro rfl
    exact hp hu
  have hspare : ∀ u, (w.items u).fd ≠ s → ((w.setItem p e).items u).fd ≠ s := by
    intro u hu
    by_cases hup : u = p
    · subst hup
      rwa [setItem_self]
    · rwa [setItem_of_ne hup]
  refine ⟨hk.congr rfl rfl rfl rfl rfl ?_ ?_ ?_, fun _ hu => hu, hitem, hspare⟩
  · intro u hu
    exact congrArg Eval.index (hitem u hu)
  · intro u hu
    exact congrArg Eval.fd (hitem u hu)
  · intro u q hq
    unfold Paired at hq
    by_cases hup : u = p
    · subst hup
      rw [setItem_self, hpair] at hq
      cases hq
    · rw [setItem_of_ne hup] at hq
      exact hspare q (hk.pairs u q hq)

lemma use_sound (hs : Sound w) {free : List Nat} (hfree : w.free = p :: free)
    (hindex : (w.items p).index = w.used.length) :
    Sound { w with used := w.used ++ [p], free := free } := by
  refine ⟨?_, ?_⟩
  · intro i u hu
    have hu' : (w.used ++ [p])[i]? = some u := hu
    by_cases hi : i < w.used.length
    · rw [List.getElem?_append_left hi] at hu'
      exact hs.index i u hu'
    · rw [List.getElem?_append_right (by omega), List.getElem?_singleton] at hu'
      split at hu'
      · cases hu'
        change (w.items p).index = i
        omega
      · cases hu'
  · have hnodup := hs.nodup
    rw [hfree] at hnodup
    simpa using hnodup

lemma use_slotFds {free : List Nat} :
    slotFds s { w with used := w.used ++ [p], free := free } =
      slotFds s w ++ if (w.items p).fd ≠ s then [(w.items p).fd] else [] := by
  simp only [slotFds, List.map_append, List.filter_append, List.map_cons, List.map_nil,
    List.filter_cons, List.filter_nil, decide_eq_true_eq]

/-- A written slot comes into use; its descriptor is the slot's from now on,
unless it is the listener's. -/
lemma use_kept {ex' : List Int} {free : List Nat} (hk : Kept s ex w) (hfree : w.free = p :: free)
    (hindex : (w.items p).index = w.used.length) (hpos : 0 < (w.items p).fd)
    (hex : ex.Perm ((if (w.items p).fd ≠ s then [(w.items p).fd] else []) ++ ex')) :
    Kept s ex' { w with used := w.used ++ [p], free := free } := by
  refine ⟨use_sound hk.sound hfree hindex, ?_, hk.server, hk.pairs, ?_⟩
  · intro v hv
    have hv' : v ∈ w.used ++ [p] := hv
    rw [List.mem_append, List.mem_singleton] at hv'
    rcases hv' with hv' | rfl
    · exact hk.positive v hv'
    · exact hpos
  · rw [use_slotFds]
    apply hk.owned.perm
    have hcount := List.perm_iff_count.mp hex
    rw [List.perm_iff_count]
    intro a
    have ha := hcount a
    simp only [List.count_append, ctrl] at ha ⊢
    omega

lemma addEvent_none (hk : Kept s (c :: ex) w) (h : addEvent w c ok = (none, w')) :
    Kept s (c :: ex) w' ∧ Grown s w w' := by
  obtain heq | ⟨p, free, hfree, ⟨-, heq⟩ | ⟨-, heq⟩⟩ := addEvent_cases w c ok
  · cases h.symm.trans heq
    exact ⟨hk, grown_refl s w⟩
  · cases h.symm.trans heq
    exact setItem_kept hk (free_not_used hk.sound hfree) rfl hk.ne
  · cases h.symm.trans heq

lemma addEvent_some (hk : Kept s (c :: ex) w) (hc : 0 < c) (h : addEvent w c ok = (some p, w')) :
    Kept s ex w' ∧ Grown s w w' ∧ p ∈ w'.used ∧ (w'.items p).fd = c ∧
      (w'.items p).pair = none := by
  obtain heq | ⟨q, free, hfree, ⟨-, heq⟩ | ⟨-, heq⟩⟩ := addEvent_cases w c ok
  · cases h.symm.trans heq
  · cases h.symm.trans heq
  · cases h.symm.trans heq
    obtain ⟨w₁, hw₁⟩ : ∃ w₁, w₁ = w.setItem p { fd := c, index := w.used.length } := ⟨_, rfl⟩
    obtain ⟨hk₁, hg⟩ : Kept s (c :: ex) w₁ ∧ Grown s w w₁ := by
      rw [hw₁]
      exact setItem_kept hk (free_not_used hk.sound hfree) rfl hk.ne
    have hitem : w₁.items p = { fd := c, index := w.used.length } := by
      rw [hw₁, setItem_self]
    have hfree₁ : w₁.free = p :: free := by
      rw [hw₁]
      exact hfree
    have hused₁ : w₁.used = w.used := by
      rw [hw₁]
      rfl
    rw [← hw₁, ← hused₁]
    refine ⟨use_kept hk₁ hfree₁ ?_ ?_ ?_, ⟨?_, hg.items, hg.spare⟩, ?_, ?_, ?_⟩
    · rw [hitem, hused₁]
    · rw [hitem]
      exact hc
    · rw [hitem, if_pos hk.ne]
      rfl
    · intro u hu
      rw [hused₁]
      exact List.mem_append_left [p] hu
    · simp
    · rw [hitem]
    · rw [hitem]

lemma setPair_fd (u : Nat) : ((setPair w v p).items u).fd = (w.items u).fd :=
  setItem_field Eval.fd (by rfl) u

lemma setPair_kept (hk : Kept s ex w) (hp : (w.items p).fd ≠ s) : Kept s ex (setPair w v p) := by
  refine hk.congr rfl rfl rfl rfl rfl ?_ ?_ ?_
  · intro u _
    exact setItem_field Eval.index (by rfl) u
  · intro u _
    exact setPair_fd u
  · intro u q hq
    rw [setPair_fd]
    unfold Paired setPair at hq
    by_cases hu : u = v
    · subst hu
      rw [setItem_self] at hq
      cases hq
      exact hp
    · rw [setItem_of_ne hu] at hq
      exact hk.pairs u q hq

lemma unpaired_kept (hk : Kept s ex w) (hu : Unpaired w w') : Kept s ex w' := by
  refine hk.congr hu.used hu.free hu.serverFd hu.ctrlFds hu.fds (fun u _ => hu.index u)
    (fun u _ => hu.fd u) ?_
  intro u q hq
  rw [hu.fd]
  exact hk.pairs u q (hu.pair u q hq)

/-- Without the slot `v` its descriptor is left over, unless it is the listener's. -/
lemma slotFds_erase (hv : v ∈ w.used) (hnodup : w.used.Nodup)
    (hused : w'.used.Perm (w.used.erase v))
    (hfd : ∀ u, u ≠ v → (w'.items u).fd = (w.items u).fd) :
    (slotFds s w).Perm
      ((if (w.items v).fd ≠ s then [(w.items v).fd] else []) ++ slotFds s w') := by
  have hkeep : (w.used.erase v).map (fun u => (w'.items u).fd) =
      (w.used.erase v).map fun u => (w.items u).fd := by
    apply List.map_congr_left
    intro u hu
    exact hfd u ((List.Nodup.mem_erase_iff hnodup).mp hu).1
  have hrest : (slotFds s w').Perm
      (((w.used.erase v).map fun u => (w.items u).fd).filter fun fd => fd ≠ s) := by
    rw [← hkeep]
    exact (hused.map _).filter _
  have hsplit := ((List.perm_cons_erase hv).map fun u => (w.items u).fd).filter fun fd => fd ≠ s
  have hhead : ((v :: w.used.erase v).map fun u => (w.items u).fd).filter (fun fd => fd ≠ s) =
      (if (w.items v).fd ≠ s then [(w.items v).fd] else []) ++
        ((w.used.erase v).map fun u => (w.items u).fd).filter fun fd => fd ≠ s := by
    rw [List.map_cons, List.filter_cons]
    by_cases hs : (w.items v).fd = s <;> simp [hs]
  rw [hhead] at hsplit
  exact hsplit.trans (List.Perm.append_left _ hrest.symm)

lemma remove_kept (hs : 0 < s) (hk : Kept s ex w) (hv : v ∈ w.used)
    (hspared : (w.items v).fd = s → w.serverFd = s) : Kept s ex (remove w v) := by
  have hr := remove_removed w v
  have hu := remove_unlinked hk.sound hv
  have hpos := hk.positive v hv
  have hfd : ∀ u, ((remove w v).items u).fd ≠ s ∨ ((remove w v).items u).fd = (w.items u).fd := by
    intro u
    by_cases huv : u = v
    · left
      rw [huv, hr.fd]
      omega
    · exact Or.inr (hr.fds u huv)
  refine ⟨hu.sound, ?_, ?_, ?_, ?_⟩
  · intro u hmem
    have hmem' := (List.Nodup.mem_erase_iff (List.nodup_append.mp hk.sound.nodup).1).mp
      (hu.used.mem_iff.mp hmem)
    rw [hr.fds u hmem'.1]
    exact hk.positive u hmem'.2
  · rw [hr.serverFd]
    exact hk.server
  · intro u q hq
    unfold Paired at hq
    rw [hr.pair] at hq
    rcases hfd q with hne | heq
    · exact hne
    · rw [heq]
      exact hk.pairs u q hq
  · have hctrl : ctrl (remove w v) = ctrl w := by
      unfold ctrl
      rw [hr.ctrlFds]
    have hperm := slotFds_erase (s := s) hv (List.nodup_append.mp hk.sound.nodup).1 hu.used hr.fds
    rw [hr.ledger, hctrl]
    unfold closeItem
    by_cases hfds : (w.items v).fd = s
    · rw [if_neg (by rw [hspared hfds]; exact fun h => h.1 hfds)]
      rw [if_neg (by simpa using hfds), List.nil_append] at hperm
      exact hk.owned.perm (hperm.append_left _)
    · have hclose : (w.items v).fd ≠ w.serverFd ∧ 0 < (w.items v).fd := by
        refine ⟨?_, hpos⟩
        rcases hk.server with h | h <;> rw [h]
        · exact hfds
        · omega
      rw [if_pos hclose]
      rw [if_pos hfds] at hperm
      apply Owned.release (hk.owned.perm ?_)
      exact (hperm.append_left _).trans List.perm_middle

/-- No chain of pairs reaches the listener's slot, so it is closed only when
the deletion starts from it. -/
lemma delEventFrom_kept (hs : 0 < s) {fuel : Nat} (hk : Kept s ex w) (hstray : NoStray w v)
    (hspared : (w.items v).fd = s → w.serverFd = s) : Kept s ex (delEventFrom fuel w v) := by
  induction fuel generalizing w v with
  | zero => exact hk
  | succ fuel ih =>
    by_cases hdead : (w.items v).fd = -1
    · rw [delEventFrom_dead hdead]
      exact hk
    have hv : v ∈ w.used := (hstray v Relation.ReflTransGen.refl).resolve_right hdead
    have hkept := remove_kept hs hk hv hspared
    simp only [delEventFrom, hdead, if_false]
    cases hp : (w.items v).pair with
    | none => exact hkept
    | some p =>
      have hr := remove_removed w v
      have hu := unpair_unpaired (remove w v) v p
      have hpaired : ∀ a b, Paired (unpair (remove w v) v p) a b → Paired w a b := by
        intro a b hab
        have hab' := hu.pair a b hab
        rwa [hr.pair] at hab'
      have hfd : ∀ q, ((unpair (remove w v) v p).items q).fd = ((remove w v).items q).fd := hu.fd
      apply ih (unpaired_kept hkept hu)
      · intro q hq
        have hreach : Relation.ReflTransGen (Paired w) v q :=
          Relation.ReflTransGen.head hp (Relation.ReflTransGen.mono hpaired p q hq)
        rw [hu.used, hfd]
        by_cases hqv : q = v
        · rw [hqv]
          exact Or.inr hr.fd
        · rw [hr.fds q hqv, (remove_unlinked hk.sound hv).used.mem_iff,
            List.mem_erase_of_ne hqv]
          exact hstray q hreach
      · intro hps
        rw [hfd] at hps
        by_cases hpv : p = v
        · rw [hpv, hr.fd] at hps
          omega
        · rw [hr.fds p hpv] at hps
          exact absurd hps (hk.pairs v p hp)

lemma delEvent_kept (hs : 0 < s) (hk : Kept s ex w) (hstray : NoStray w v)
    (hspared : (w.items v).fd = s → w.serverFd = s) : Kept s ex (delEvent w v) :=
  delEventFrom_kept hs hk hstray hspared

lemma noStray_alone (hv : v ∈ w.used) (hpair : (w.items v).pair = none) : NoStray w v := by
  intro p hp
  rcases hp.cases_head with rfl | ⟨q, hq, -⟩
  · exact Or.inl hv
  · cases hpair.symm.trans hq

lemma onAccept_kept (hk : Kept s ex w) (ho : openable w c = true) (ready epoll : Bool) :
    Kept s ex (onAccept w c ready epoll) := by
  have hopened := hk.opened ho
  unfold onAccept
  cases ready with
  | false => exact hopened.close
  | true =>
    rcases hadd : addEvent (w.opened c) c epoll with ⟨_ | p, w'⟩
    · simp only [hadd]
      exact (addEvent_none hopened hadd).1.close
    · simp only [hadd]
      exact (addEvent_some hopened (openable_pos ho) hadd).1

lemma createConn_kept (hk : Kept s ex w) (ho : openable w c = true) (hv : (w.items v).fd ≠ s)
    (a : Connect) :
    Kept s ex (createConn w v c a).2 ∧ (∀ u ∈ w.used, u ∈ (createConn w v c a).2.used) ∧
      ∀ u, (w.items u).fd ≠ s → ((createConn w v c a).2.items u).fd ≠ s := by
  have hopened := hk.opened ho
  unfold createConn
  cases hready : a.ready with
  | false => exact ⟨hopened.close, fun _ hu => hu, fun _ hu => hu⟩
  | true =>
    rcases hadd : addEvent (w.opened c) c a.epoll with ⟨_ | p, w'⟩
    · obtain ⟨hkept, hg⟩ := addEvent_none hopened hadd
      simp only [hadd]
      exact ⟨hkept.close, hg.used, hg.spare⟩
    · obtain ⟨hkept, hg, -, hfd, -⟩ := addEvent_some hopened (openable_pos ho) hadd
      simp only [hadd]
      cases a.modified with
      | false => exact ⟨hkept, hg.used, hg.spare⟩
      | true =>
        have hp : (w'.items p).fd ≠ s := by
          rw [hfd]
          exact hopened.ne
        have hv' : ((setPair w' v p).items v).fd ≠ s := by
          rw [setPair_fd]
          exact hg.spare v hv
        refine ⟨setPair_kept (setPair_kept hkept hp) hv', hg.used, ?_⟩
        intro u hu
        change ((setPair (setPair w' v p) p v).items u).fd ≠ s
        rw [setPair_fd, setPair_fd]
        exact hg.spare u hu

/-- The old remote is deleted without its pair. -/
lemma dropped_kept (hs : 0 < s) (hk : Kept s ex w) (hv : v ∈ w.used) (hfd : (w.items v).fd ≠ s) :
    Kept s ex (delEvent (w.setItem v { w.items v with pair := none }) v) := by
  have hu := unpaired_setItem w v
  apply delEvent_kept hs (unpaired_kept hk hu)
  · apply noStray_alone
    · rw [hu.used]
      exact hv
    · rw [setItem_self]
  · intro h
    rw [hu.fd] at h
    exact absurd h hfd

lemma reconnect_kept (hs : 0 < s) (hk : Kept s ex w) {fd : Option Int}
    (ho : fd.all (openable w) = true) (hv : v ∈ w.used) (hfd : (w.items v).fd ≠ s)
    (hp : (w.items v).pair = some p) (a : Connect) : Kept s ex (reconnect w v p fd a) := by
  cases fd with
  | none => exact dropped_kept hs hk hv hfd
  | some c =>
    obtain ⟨hkept, hused, hspare⟩ := createConn_kept hk ho (hk.pairs v p hp) a
    unfold reconnect
    rcases hcreate : createConn w p c a with ⟨_ | _, w'⟩
    · rw [hcreate] at hkept
      simpa only [hcreate, Bool.false_eq_true, if_false] using hkept
    · rw [hcreate] at hkept hused hspare
      simpa only [hcreate, if_true] using dropped_kept hs hkept (hused v hv) (hspare v hfd)

/-- The slot of the UDP socket is given up again. -/
lemma undone_kept (hs : 0 < s) (hk : Kept s ex w) (hp : p ∈ w.used)
    (hpair : (w.items p).pair = none) (hfd : (w.items p).fd ≠ s) : Kept s ex (delEvent w p) :=
  delEvent_kept hs hk (noStray_alone hp hpair) fun h => absurd h hfd

lemma udpAssociate_kept (hs : 0 < s) (hk : Kept s ex w) {d : Int} (hc : openable w c = true)
    (hd : openable w d = true) (hcd : c ≠ d) (hv : (w.items v).fd ≠ s) (a : Associate) :
    Kept s ex (udpAssociate w v c d a) := by
  have hopened := hk.opened hc
  unfold udpAssociate
  cases hready : a.ready with
  | false => exact hopened.close
  | true =>
    rcases hadd : addEvent (w.opened c) c a.epoll with ⟨_ | p, w₁⟩
    · simp only [hadd]
      exact (addEvent_none hopened hadd).1.close
    obtain ⟨hk₁, hg₁, hp, hpfd, hppair⟩ := addEvent_some hopened (openable_pos hc) hadd
    have hps : (w₁.items p).fd ≠ s := by
      rw [hpfd]
      exact hopened.ne
    simp only [hadd]
    cases a.named with
    | false => exact hk₁
    | true =>
      cases a.socket with
      | false => exact undone_kept hs hk₁ hp hppair hps
      | true =>
        have hd₁ : openable w₁ d = true := by
          have hsame := openable_addEvent (w.opened c) c a.epoll d
          rw [hadd] at hsame
          exact hsame.trans (openable_opened hd hcd)
        have hopened₁ := hk₁.opened hd₁
        cases a.protected' with
        | false => exact undone_kept hs hopened₁.close hp hppair hps
        | true =>
          cases a.bound with
          | false => exact (undone_kept hs hopened₁ hp hppair hps).close
          | true =>
            rcases hadd' : addEvent (w₁.opened d) d a.epollClient with ⟨_ | q, w₂⟩
            · obtain ⟨hk₂, hg₂⟩ := addEvent_none hopened₁ hadd'
              have hitem := hg₂.items p hp
              refine (undone_kept hs hk₂ (hg₂.used p hp) ?_ (hg₂.spare p hps)).close
              rw [hitem]
              exact hppair
            · obtain ⟨hk₂, hg₂, -, hqfd, -⟩ := addEvent_some hopened₁ (openable_pos hd) hadd'
              apply setPair_kept
              · apply setPair_kept
                · apply setPair_kept hk₂
                  rw [hqfd]
                  exact hopened₁.ne
                · rw [setPair_fd]
                  exact hg₂.spare p hps
              · rw [setPair_fd, setPair_fd]
                exact hg₂.spare v (hg₁.spare v hv)

lemma Kept.perm {ex' : List Int} (hk : Kept s ex w) (hp : ex.Perm ex') : Kept s ex' w :=
  ⟨hk.sound, hk.positive, hk.server, hk.pairs,
    hk.owned.perm ((hp.append_right (s :: ctrl w)).append_right (slotFds s w))⟩

lemma Kept.signalled (hk : Kept s ex w) {fd : Int} {brk : Bool} (hfd : fd = s ∨ fd = -1) :
    Kept s ex { w with serverFd := fd, brk := brk } :=
  ⟨⟨hk.sound.index, hk.sound.nodup⟩, hk.positive, hfd, hk.pairs, hk.owned⟩

lemma closeCtrl_kept (hk : Kept s ex w) :
    Kept s ex (closeCtrl w) ∧ (closeCtrl w).ctrlFds = none := by
  unfold closeCtrl
  cases hc : w.ctrlFds with
  | none => exact ⟨hk, hc⟩
  | some pipe =>
    obtain ⟨r, t⟩ := pipe
    have hctrl : ctrl w = [r, t] := by
      simp only [ctrl, hc]
    have hperm : (ex ++ s :: ctrl w ++ slotFds s w).Perm (r :: t :: (ex ++ [s] ++ slotFds s w)) := by
      rw [hctrl, List.perm_iff_count]
      intro a
      simp only [List.count_append, List.count_cons, List.count_nil]
      omega
    exact ⟨⟨⟨hk.sound.index, hk.sound.nodup⟩, hk.positive, hk.server, hk.pairs,
      (hk.owned.perm hperm).release.release⟩, rfl⟩

lemma delEventFrom_ctrlFds {fuel : Nat} : (delEventFrom fuel w v).ctrlFds = w.ctrlFds := by
  induction fuel generalizing w v with
  | zero => rfl
  | succ fuel ih =>
    by_cases hdead : (w.items v).fd = -1
    · rw [delEventFrom_dead hdead]
    simp only [delEventFrom, hdead, if_false]
    cases (w.items v).pair with
    | none => exact (remove_removed w v).ctrlFds
    | some p =>
      exact (ih.trans (unpair_unpaired (remove w v) v p).ctrlFds).trans
        (remove_removed w v).ctrlFds

lemma setItem_unpaired (hnone : ∀ u, (w.items u).pair = none) (he : e.pair = none) (u : Nat) :
    ((w.setItem p e).items u).pair = none := by
  by_cases hu : u = p
  · rw [hu, setItem_self, he]
  · rw [setItem_of_ne hu, hnone]

lemma addEvent_unpaired (hnone : ∀ u, (w.items u).pair = none) (u : Nat) :
    ((addEvent w c ok).2.items u).pair = none := by
  obtain heq | ⟨p, free, -, ⟨-, heq⟩ | ⟨-, heq⟩⟩ := addEvent_cases w c ok
  · rw [heq, hnone]
  · rw [heq]
    exact setItem_unpaired hnone rfl u
  · rw [heq]
    exact setItem_unpaired hnone rfl u

/-- The listener's slot carries a descriptor that stays the caller's. -/
lemma listen_kept (hs : 0 < s) (hk : Kept s ex w) (hnone : ∀ u, (w.items u).pair = none) :
    Kept s ex (addEvent w s ok).2 := by
  obtain heq | ⟨p, free, hfree, hadd⟩ := addEvent_cases w s ok
  · rw [heq]
    exact hk
  have hp := free_not_used hk.sound hfree
  have hitem : ∀ u ∈ w.used,
      (w.setItem p { fd := s, index := w.used.length }).items u = w.items u := by
    intro u hu
    apply setItem_of_ne
    rintro rfl
    exact hp hu
  have hset : Kept s ex (w.setItem p { fd := s, index := w.used.length }) := by
    refine hk.congr rfl rfl rfl rfl rfl ?_ ?_ ?_
    · intro u hu
      exact congrArg Eval.index (hitem u hu)
    · intro u hu
      exact congrArg Eval.fd (hitem u hu)
    · intro u q hq
      cases (setItem_unpaired hnone rfl u).symm.trans hq
  obtain ⟨-, heq⟩ | ⟨-, heq⟩ := hadd
  · rw [heq]
    exact hset
  · rw [heq]
    apply use_kept hset hfree
    · rw [setItem_self]
      rfl
    · rwa [setItem_self]
    · rw [setItem_self]
      simp

/-- A control pipe whose reading end is no slot belongs to the pool alone. -/
lemma initPool_kept {a : Init} {efd : Int} (hk : Kept s [] w) (hc : w.ctrlFds = none)
    (hnone : ∀ u, (w.items u).pair = none) (hp : possible w a = true)
    (hclean : ∀ e r t epoll, a = .pipe e r t epoll → epoll = false ∨ w.free = [])
    (h : initPool w a = some (efd, w')) :
    Kept s [efd] w' ∧ ∀ u, (w'.items u).pair = none := by
  cases a with
  | fails => cases h
  | noPipe e =>
    cases h
    exact ⟨hk.opened hp, hnone⟩
  | pipe e r t epoll =>
    simp only [possible, Bool.and_eq_true] at hp
    obtain ⟨⟨he, hr⟩, ht⟩ := hp
    have hopened := ((hk.opened he).opened hr).opened ht
    have hadd : (addEvent (((w.opened e).opened r).opened t) r epoll).1 = none := by
      rcases hclean e r t epoll rfl with rfl | hfree
      · obtain heq | ⟨p, free, -, ⟨-, heq⟩ | ⟨hok, -⟩⟩ :=
          addEvent_cases (((w.opened e).opened r).opened t) r false
        · rw [heq]
        · rw [heq]
        · cases hok
      · obtain heq | ⟨p, free, hfree', -⟩ :=
          addEvent_cases (((w.opened e).opened r).opened t) r epoll
        · rw [heq]
        · cases hfree.symm.trans hfree'
    obtain ⟨hkept, -⟩ := addEvent_none (hopened.perm (List.Perm.swap r t [e])) (Prod.ext hadd rfl)
    obtain ⟨w₁, hw₁⟩ : ∃ w₁, w₁ = (addEvent (((w.opened e).opened r).opened t) r epoll).2 :=
      ⟨_, rfl⟩
    have hctrl : ctrl w₁ = [] := by
      unfold ctrl
      rw [hw₁, addEvent_ctrlFds]
      change ctrl w = []
      simp only [ctrl, hc]
    have hnone₁ : ∀ u, (w₁.items u).pair = none := by
      rw [hw₁]
      exact addEvent_unpaired hnone
    simp only [initPool, ← hw₁, Option.some.injEq, Prod.mk.injEq] at h hkept
    obtain ⟨rfl, rfl⟩ := h
    refine ⟨⟨⟨hkept.sound.index, hkept.sound.nodup⟩, hkept.positive, hkept.server, hkept.pairs, ?_⟩,
      hnone₁⟩
    apply hkept.owned.perm
    have hslots : slotFds s { w₁ with ctrlFds := some (r, t) } = slotFds s w₁ := rfl
    have hctrl' : ctrl { w₁ with ctrlFds := some (r, t) } = [r, t] := rfl
    rw [hctrl, hctrl', hslots, List.perm_iff_count]
    intro a
    simp only [List.count_append, List.count_cons, List.count_nil]
    omega

end Calls

/-- Who owns what in each phase of the run. -/
def Tidy (st : State) : Prop :=
  match st.phase with
  | .entry => Kept st.srvfd [] st.w ∧ st.w.used = [] ∧ st.w.ctrlFds = none ∧
      ∀ u, (st.w.items u).pair = none
  | .pooled => Kept st.srvfd st.efd.toList st.w ∧ ∀ u, (st.w.items u).pair = none
  | .looping => Kept st.srvfd st.efd.toList st.w
  | .draining => Kept st.srvfd st.efd.toList st.w ∧ st.w.ctrlFds = none
  | .closing => Kept st.srvfd [] st.w ∧ st.w.used = [] ∧ st.w.ctrlFds = none
  | .returned => Owned st.w.fds []

section Steps

variable {st st' : State} {w : World}

lemma tidy_start {srvfd : Int} {max : Nat} : Tidy (start srvfd max) := by
  refine ⟨⟨⟨?_, ?_⟩, ?_, Or.inr rfl, ?_, ?_⟩, rfl, rfl, fun _ => rfl⟩
  · intro i v hv
    cases hv
  · exact List.nodup_range
  · intro v hv
    cases hv
  · intro u p hp
    cases hp
  · have howned : Owned (start srvfd max).w.fds [srvfd] :=
      ⟨List.Perm.refl [srvfd], by simp, rfl⟩
    exact howned

lemma stop_tidy (ht : Tidy st) : Tidy { st with w := { st.w with
    serverFd := if 0 < st.w.serverFd then -1 else st.w.serverFd, brk := true } } := by
  have hserver : st.w.serverFd = st.srvfd ∨ st.w.serverFd = -1 →
      (if 0 < st.w.serverFd then -1 else st.w.serverFd) = st.srvfd ∨
        (if 0 < st.w.serverFd then -1 else st.w.serverFd) = -1 := by
    intro h
    split
    · exact Or.inr rfl
    · exact h
  unfold Tidy at ht ⊢
  cases hphase : st.phase <;> simp only [hphase] at ht ⊢
  case entry => exact ⟨ht.1.signalled (hserver ht.1.server), ht.2⟩
  case pooled => exact ⟨ht.1.signalled (hserver ht.1.server), ht.2⟩
  case looping => exact ht.signalled (hserver ht.server)
  case draining => exact ⟨ht.1.signalled (hserver ht.1.server), ht.2⟩
  case closing => exact ⟨ht.1.signalled (hserver ht.1.server), ht.2⟩
  case returned => exact ht

/-- What a turn of the event loop leaves. -/
lemma onOp_kept {o : Op} {ex : List Int} (hs : 0 < st.srvfd) (hk : Kept st.srvfd ex st.w)
    (hclean : Clean st (.op o)) (h : onOp st o = some w) : Kept st.srvfd ex w := by
  have hconnected : ∀ v, connected st v = true → v ∈ st.w.used ∧ (st.w.items v).fd ≠ st.srvfd := by
    intro v hv
    simpa [connected] using hv
  cases o with
  | accept c ready epoll =>
    simp only [onOp, Option.ite_none_right_eq_some] at h
    obtain ⟨ho, ⟨⟩⟩ := h
    exact onAccept_kept hk ho ready epoll
  | acceptFails v =>
    simp only [onOp, Option.ite_none_right_eq_some] at h
    obtain ⟨-, ⟨⟩⟩ := h
    exact delEvent_kept hs (hk.signalled hk.server) hclean.1 hclean.2
  | connect v fd a =>
    simp only [onOp, Option.ite_none_right_eq_some, Bool.and_eq_true] at h
    obtain ⟨⟨ho, hv⟩, ⟨⟩⟩ := h
    exact (createConn_kept hk ho (hconnected v hv).2 a).1
  | reconnect v fd a =>
    cases hp : (st.w.items v).pair with
    | none =>
      simp only [onOp, hp] at h
      cases h
    | some client =>
      simp only [onOp, hp, Option.ite_none_right_eq_some, Bool.and_eq_true] at h
      obtain ⟨⟨ho, hv⟩, ⟨⟩⟩ := h
      exact reconnect_kept hs hk ho (hconnected v hv).1 (hconnected v hv).2 hp a
  | associate v ufd cfd a =>
    simp only [onOp, Option.ite_none_right_eq_some, Bool.and_eq_true, bne_iff_ne, ne_eq] at h
    obtain ⟨⟨⟨⟨hu, hc⟩, hne⟩, hv⟩, ⟨⟩⟩ := h
    exact udpAssociate_kept hs hk hu hc hne (hconnected v hv).2 a
  | delete v =>
    simp only [onOp, Option.ite_none_right_eq_some] at h
    obtain ⟨-, ⟨⟩⟩ := h
    exact delEvent_kept hs hk hclean.1 hclean.2

theorem step_tidy {act : Act} (hs : 0 < st.srvfd) (ht : Tidy st) (hclean : Clean st act)
    (h : step st act = some st') : st'.srvfd = st.srvfd ∧ Tidy st' := by
  cases act with
  | enter a =>
    simp only [step, Option.ite_none_right_eq_some] at h
    obtain ⟨⟨hphase, hp⟩, h⟩ := h
    simp only [Tidy, hphase] at ht
    obtain ⟨hk, hused, hctrl, hnone⟩ := ht
    have hk' : Kept st.srvfd [] { st.w with serverFd := st.srvfd } := hk.signalled (Or.inl rfl)
    cases hi : initPool { st.w with serverFd := st.srvfd } a with
    | none =>
      simp only [hi, Option.some.injEq] at h
      subst h
      exact ⟨rfl, hk.signalled (Or.inr rfl), hused, hctrl⟩
    | some pool =>
      simp only [hi, Option.some.injEq] at h
      subst h
      refine ⟨rfl, initPool_kept hk' hctrl hnone hp ?_ hi⟩
      rintro e r t epoll rfl
      exact hclean
  | listen epoll =>
    simp only [step, Option.ite_none_right_eq_some] at h
    obtain ⟨hphase, h⟩ := h
    simp only [Tidy, hphase] at ht
    have hk : Kept st.srvfd st.efd.toList (addEvent st.w st.srvfd epoll).2 :=
      listen_kept hs ht.1 ht.2
    rcases hadd : addEvent st.w st.srvfd epoll with ⟨_ | p, w⟩
    · rw [hadd] at hk
      simp only [hadd, Option.some.injEq] at h
      subst h
      exact ⟨rfl, closeCtrl_kept hk⟩
    · rw [hadd] at hk
      simp only [hadd, Option.some.injEq] at h
      subst h
      exact ⟨rfl, hk⟩
  | op o =>
    simp only [step, Option.ite_none_right_eq_some, Option.map_eq_some_iff] at h
    obtain ⟨hphase, w, hop, rfl⟩ := h
    simp only [Tidy, hphase] at ht ⊢
    exact ⟨trivial, onOp_kept hs ht hclean hop⟩
  | leave err =>
    simp only [step, Option.ite_none_right_eq_some, Option.some.injEq] at h
    obtain ⟨⟨hphase, -⟩, rfl⟩ := h
    simp only [Tidy, hphase] at ht
    exact ⟨rfl, closeCtrl_kept ht⟩
  | drain =>
    cases hphase : st.phase <;> cases hused : st.w.used <;> simp only [step, hphase, hused] at h <;>
      cases h
    simp only [Tidy, hphase] at ht ⊢
    obtain ⟨hstray, hspared⟩ := hclean _ (by rw [hused]; rfl)
    exact ⟨trivial, delEvent_kept hs ht.1 hstray hspared, delEventFrom_ctrlFds.trans ht.2⟩
  | finish =>
    cases hphase : st.phase <;> cases hused : st.w.used <;> cases hefd : st.efd <;>
      simp only [step, hphase, hused, hefd] at h <;> cases h
    simp only [Tidy, hphase, hefd] at ht
    exact ⟨rfl, ht.1.close.signalled (Or.inr rfl), hused, ht.2⟩
  | close =>
    simp only [step, Option.ite_none_right_eq_some, Option.some.injEq] at h
    obtain ⟨hphase, rfl⟩ := h
    simp only [Tidy, hphase] at ht
    obtain ⟨hk, hused, hctrl⟩ := ht
    refine ⟨rfl, Owned.release (hk.owned.perm ?_)⟩
    simp [ctrl, slotFds, hused, hctrl]
  | stop =>
    cases h
    exact ⟨rfl, stop_tidy ht⟩

/-- The phase and the owners after any run. -/
def Held (s : Int) (st : State) : Prop := st.srvfd = s ∧ Tidy st

theorem run_held {s : Int} {acts : List Act} (hs : 0 < s) (hheld : Held s st)
    (hclean : Meets step Clean st acts) (hrun : run step st acts = some st') : Held s st' := by
  refine run_preserves ?_ hheld hclean hrun
  rintro st act st' ⟨hsrv, ht⟩ hok hstep
  have hpos : 0 < st.srvfd := by
    rwa [hsrv]
  obtain ⟨hsrv', ht'⟩ := step_tidy hpos ht hok hstep
  exact ⟨hsrv'.trans hsrv, ht'⟩

end Steps

theorem closed_exactly_once {srvfd : Int} {max : Nat} {acts : List Act} {st : State}
    (hsrv : 0 < srvfd) (hclean : Meets step Clean (start srvfd max) acts)
    (hrun : run step (start srvfd max) acts = some st) (hret : st.phase = .returned) :
    st.w.fds.Settled := by
  obtain ⟨-, ht⟩ := run_held hsrv ⟨rfl, tidy_start⟩ hclean hrun
  simp only [Tidy, hret] at ht
  exact ht.settled

lemma noStray_closed {w : World} {v : Nat} {slots : List Nat} (hv : v ∈ slots)
    (hslots : ∀ u ∈ slots, u ∈ w.used)
    (hpairs : ∀ u ∈ slots, ∀ p, (w.items u).pair = some p → p ∈ slots) : NoStray w v := by
  intro p hp
  left
  apply hslots
  induction hp with
  | refl => exact hv
  | tail _ hpair ih => exact hpairs _ ih _ hpair

/-- A client and its remote, then an error of `accept`. -/
def acceptError : List Act :=
  [.enter (.noPipe 10), .listen true, .op (.accept 11 true true),
    .op (.connect 1 12 ⟨true, true, true⟩), .op (.acceptFails 0), .leave false, .drain,
    .finish, .close]

lemma acceptError_clean : Meets step Clean (start 9 8) acceptError := by
  refine meets_cons trivial rfl (meets_cons trivial rfl (meets_cons trivial rfl
    (meets_cons trivial rfl (meets_cons ?_ rfl (meets_cons trivial rfl (meets_cons ?_ rfl
      (meets_cons trivial rfl (meets_cons trivial rfl trivial))))))))
  · exact ⟨noStray_alone List.mem_cons_self rfl, fun _ => rfl⟩
  · intro v hv
    cases hv
    have hslots : (2 : Nat) ∈ [2, 1] := List.mem_cons_self
    refine ⟨noStray_closed hslots (fun _ hu => hu) ?_, ?_⟩
    · intro u hu p hp
      match u with
      | 1 =>
        cases hp
        exact hslots
      | 2 =>
        cases hp
        simp
    · intro hfd
      cases hfd

theorem closed_exactly_once_error :
    ∃ st, run step (start 9 8) acceptError = some st ∧ st.w.fds.Settled := by
  obtain ⟨st, hrun, hret⟩ : ∃ st, run step (start 9 8) acceptError = some st ∧
      st.phase = .returned := ⟨_, rfl, rfl⟩
  exact ⟨st, hrun, closed_exactly_once (by decide) acceptError_clean hrun hret⟩

/-- A client, its remote and a stop. -/
def stopped : List Act :=
  [.enter (.pipe 10 11 12 true), .listen true, .op (.accept 13 true true),
    .op (.connect 2 14 ⟨true, true, true⟩), .stop, .leave false, .drain, .drain, .drain,
    .finish, .close]

/-- The reading end of the control pipe is closed by `destroy_pool` and by its
slot, the listener by its slot, which no longer knows it, and at the end. -/
theorem stop_closes_twice :
    ∃ st, run step (start 9 8) stopped = some st ∧ st.phase = .returned ∧
      st.w.fds.again = [9, 11] ∧ ¬ st.w.fds.Settled := by
  refine ⟨_, rfl, rfl, rfl, ?_⟩
  rintro ⟨-, hagain⟩
  cases hagain

end Closing
