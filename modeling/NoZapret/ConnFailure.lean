import NoZapret.PoolRuns
import NoZapret.SocksAddr

/-!
# What a failed connection set-up leaves behind

`remote_sock`, `create_conn` and `udp_associate` with the answer of every call they make. What is
opened is told by the ledger of descriptors, and what a slot is reached by by the pairs of the
slots in use.
-/

namespace ConnFailure

open Resources Pool SocksAddr
open Closing (setPair openable free_not_used addEvent_cases)

/-- `params` -/
structure Env where
  /-- `params.baddr.sa.sa_family` -/
  baddr : Family
  tfo : Bool
  deriving DecidableEq, Repr

/-- What the calls of `remote_sock` answer, in their order. -/
structure Remote where
  /-- the descriptor, unless it fails -/
  socket : Option Int
  /-- `socket_mod` -/
  modded : Bool
  v6only : Bool
  bound : Bool
  deriving DecidableEq, Repr

/-- What the calls of `create_conn` answer, in their order. -/
structure Calls where
  remote : Remote
  synCnt : Bool
  fastOpen : Bool
  noDelay : Bool
  /-- `connect` succeeds or is in progress -/
  connected : Bool
  epoll : Bool
  /-- `mod_etype(pool, val, 0)` -/
  modified : Bool
  deriving DecidableEq, Repr

/-- What the calls of `udp_associate` answer, in their order. -/
structure UdpCalls where
  remote : Remote
  modded : Bool
  epoll : Bool
  /-- `getsockname(val->fd)`: the address of the client's connection -/
  named : Option SockAddr
  socket : Option Int
  moddedClient : Bool
  bound : Bool
  epollClient : Bool
  /-- `getsockname(cfd)` -/
  self : Option SockAddr
  sent : Bool
  /-- `mod_etype(pool, val, POLLRDHUP)` -/
  modified : Bool
  deriving DecidableEq, Repr

/-- `remote_sock`; no descriptor is -1. -/
def remoteSock (env : Env) (w : World) (dst : SockAddr) (a : Remote) : Option Int × World :=
  let dst := mapFix dst (env.baddr == .inet6)
  if dst.family != env.baddr then (none, w)
  else
    match a.socket with
    | none => (none, w)
    | some sfd =>
      let w := w.opened sfd
      if !a.modded then (none, w.close sfd)
      else if dst.family == .inet6 && !a.v6only then (none, w.close sfd)
      else if !a.bound then (none, w.close sfd)
      else (some sfd, w)

def createConn (env : Env) (w : World) (v : Nat) (dst : SockAddr) (a : Calls) : Int × World :=
  match remoteSock env w dst a.remote with
  | (none, w) => (-1, w)
  | (some sfd, w) =>
    if !a.synCnt then (-1, w.close sfd)
    else if env.tfo && !a.fastOpen then (-1, w.close sfd)
    else if !a.noDelay then (-1, w.close sfd)
    else if !a.connected then (-1, w.close sfd)
    else
      match addEvent w sfd a.epoll with
      | (none, w) => (-1, w.close sfd)
      | (some pair, w) =>
        if !a.modified then (-1, w) else (0, setPair (setPair w v pair) pair v)

/-- `s5_set_addr(&s5r, sizeof(s5r), &addr, 0)` -/
def replyLen (addr : SockAddr) : Int :=
  match s5SetAddr (List.replicate 262 0) 0 262 addr false with
  | none => -1
  | some (len, _) => len

/-- `udp_associate` once its slots are paired. -/
def reply (a : UdpCalls) : Int :=
  match a.self with
  | none => -1
  | some addr =>
    if replyLen addr < 0 then -1 else if !a.sent then -1 else if !a.modified then -1 else 0

def udpAssociate (env : Env) (w : World) (v : Nat) (dst : SockAddr) (a : UdpCalls) :
    Int × World :=
  match remoteSock env w dst a.remote with
  | (none, w) => (-1, w)
  | (some ufd, w) =>
    if !a.modded then (-1, w.close ufd)
    else
      match addEvent w ufd a.epoll with
      | (none, w) => (-1, w.close ufd)
      | (some pair, w) =>
        match a.named, a.socket with
        | none, _ => (-1, w)
        | some _, none => (-1, delEvent w pair)
        | some _, some cfd =>
          let w := w.opened cfd
          if !a.moddedClient then (-1, delEvent (w.close cfd) pair)
          else if !a.bound then (-1, (delEvent w pair).close cfd)
          else
            match addEvent w cfd a.epollClient with
            | (none, w) => (-1, (delEvent w pair).close cfd)
            | (some client, w) =>
              (reply a, setPair (setPair (setPair w v client) client pair) pair v)

/-- The two ways of setting up a connection. -/
inductive Setup where
  | connect (a : Calls)
  | associate (a : UdpCalls)
  deriving DecidableEq, Repr

def setup (env : Env) (w : World) (v : Nat) (dst : SockAddr) : Setup → Int × World
  | .connect a => createConn env w v dst a
  | .associate a => udpAssociate env w v dst a

/-- The pair of a slot in use. -/
def Link (w : World) (u p : Nat) : Prop := u ∈ w.used ∧ (w.items u).pair = some p

def Linked (w : World) : Nat → Nat → Prop := Relation.ReflTransGen (Link w)

/-- Every slot that is counted is reached from a slot of the set that is in use. -/
def Reached (roots : Set Nat) (w : World) : Prop :=
  ∀ u ∈ w.used, ∃ r ∈ roots, r ∈ w.used ∧ Linked w r u

/-- Nothing is left behind: what was opened is closed or belongs to a slot linked to the client,
and with the client among the roots no slot is counted that none of them reaches. -/
structure Clean (w w' : World) (v : Nat) : Prop where
  descriptors : ∀ new, w'.fds.acquired = new ++ w.fds.acquired → ∀ fd ∈ new,
    fd ∉ w'.fds.held ∨ ∃ u ∈ w'.used, (w'.items u).fd = fd ∧ Linked w' v u
  count : ∀ roots, v ∈ roots → Reached roots w → Reached roots w'

/-- A callback's pool: the slots in use have open descriptors, and so does the listener, unless
`server_fd` has been reset. -/
structure Ready (w : World) (v : Nat) : Prop where
  sound : Sound w
  client : v ∈ w.used
  held : ∀ u ∈ w.used, (w.items u).fd ∈ w.fds.held
  server : w.serverFd ∈ w.fds.held ∨ w.serverFd = -1

/-- The kernel hands out descriptors that are not open. -/
def Fresh (w : World) : Setup → Prop
  | .connect a => ∀ fd, a.remote.socket = some fd → openable w fd = true
  | .associate a => (∀ fd, a.remote.socket = some fd → openable w fd = true) ∧
      ∀ fd, a.socket = some fd → openable w fd = true ∧ a.remote.socket ≠ some fd

/-- A client that asks for an association has no pair yet. -/
def Single (w : World) (v : Nat) : Setup → Prop
  | .connect _ => True
  | .associate _ => (w.items v).pair = none

/-- Does `remote_sock` return the descriptor of its socket? -/
def Remote.ready (env : Env) (dst : SockAddr) (a : Remote) : Bool :=
  let dst := mapFix dst (env.baddr == .inet6)
  dst.family == env.baddr && a.modded && (dst.family != .inet6 || a.v6only) && a.bound

def Calls.ready (env : Env) (dst : SockAddr) (a : Calls) : Bool :=
  a.remote.ready env dst && a.synCnt && (!env.tfo || a.fastOpen) && a.noDelay && a.connected

def UdpCalls.ready (env : Env) (dst : SockAddr) (a : UdpCalls) : Bool :=
  a.remote.ready env dst && a.modded

/-- Where the first slot has been taken, the call after `add_event` succeeds; a pair that was left
behind earlier may lead to the slot as well. -/
def Unwinds (env : Env) (w : World) (v : Nat) (dst : SockAddr) : Setup → Prop
  | .connect a => a.remote.socket.isSome → a.ready env dst = true → a.epoll = true →
      ∀ p ∈ w.free.head?, a.modified = true ∨ Linked w v p
  | .associate a => a.remote.socket.isSome → a.ready env dst = true → a.epoll = true →
      w.free ≠ [] → a.named.isSome

section Undone

variable {w w₁ w' : World} {u v p q : Nat} {c d : Int} {ok : Bool} {roots : Set Nat}

/-- The slots in use are what they were, and what was opened is closed. -/
structure Undone (w w' : World) : Prop where
  used : ∀ u, u ∈ w'.used ↔ u ∈ w.used
  pair : ∀ u ∈ w.used, (w'.items u).pair = (w.items u).pair
  fds : ∃ new, w'.fds = { w.fds with acquired := new ++ w.fds.acquired } ∧
    ∀ fd ∈ new, fd ∉ w.fds.held

lemma reached_of_links (hused : ∀ u ∈ w.used, u ∈ w'.used)
    (hlink : ∀ u q, Link w u q → Link w' u q)
    (hnew : ∀ u ∈ w'.used, u ∈ w.used ∨ Linked w' v u) (hv : v ∈ w.used) (hroot : v ∈ roots)
    (hr : Reached roots w) : Reached roots w' := by
  intro u hu
  obtain hold | hlinked := hnew u hu
  · obtain ⟨r, hroots, hrw, hru⟩ := hr u hold
    exact ⟨r, hroots, hused r hrw, Relation.ReflTransGen.mono hlink _ _ hru⟩
  · exact ⟨v, hroot, hused v hv, hlinked⟩

lemma undone_refl (w : World) : Undone w w :=
  ⟨fun _ => Iff.rfl, fun _ _ => rfl, [], rfl, by simp⟩

lemma Undone.clean (h : Undone w w') (hv : v ∈ w.used) : Clean w w' v := by
  obtain ⟨new', hfds, hfresh⟩ := h.fds
  refine ⟨?_, ?_⟩
  · intro new hnew fd hfd
    rw [hfds] at hnew ⊢
    obtain rfl := List.append_cancel_right hnew
    exact .inl (hfresh fd hfd)
  · intro roots hroot hr
    refine reached_of_links (fun u hu => (h.used u).mpr hu) ?_ (fun u hu => .inl ((h.used u).mp hu))
      hv hroot hr
    rintro u q ⟨hu, hq⟩
    exact ⟨(h.used u).mpr hu, (h.pair u hu).trans hq⟩

lemma openable_fresh (h : openable w c = true) : 0 < c ∧ c ∉ w.fds.held := by
  simpa [openable] using h

lemma opened_sound (hs : Sound w) (c : Int) : Sound (w.opened c) :=
  hs.of_items rfl rfl fun _ => rfl

lemma Ready.server_ne (hw : Ready w v) (hc : openable w c = true) : c ≠ w.serverFd := by
  obtain ⟨hpos, hfresh⟩ := openable_fresh hc
  obtain hheld | hreset := hw.server
  · rintro rfl
    exact hfresh hheld
  · omega

/-- A registration that fails may have written a slot that is not in use. -/
structure Refused (w w' : World) : Prop where
  sound : Sound w'
  used : w'.used = w.used
  items : ∀ u ∈ w.used, w'.items u = w.items u
  fds : w'.fds = w.fds
  serverFd : w'.serverFd = w.serverFd

lemma addEvent_none (hs : Sound w) (h : addEvent w c ok = (none, w')) : Refused w w' := by
  obtain heq | ⟨p, free, hfree, ⟨rfl, heq⟩ | ⟨-, heq⟩⟩ := addEvent_cases w c ok
  · cases h.symm.trans heq
    exact ⟨hs, rfl, fun _ _ => rfl, rfl, rfl⟩
  · have hadded := PoolRuns.addEvent_added hs hfree c false
    cases h.symm.trans heq
    rw [heq] at hadded
    refine ⟨hadded.sound, rfl, ?_, rfl, rfl⟩
    intro u hu
    apply hadded.items
    rintro rfl
    exact free_not_used hs hfree hu
  · cases h.symm.trans heq

/-- The slot that is handed out, and all that changes. -/
structure Given (w : World) (c : Int) (p : Nat) (w' : World) : Prop where
  free : w.free.head? = some p
  sound : Sound w'
  new : p ∉ w.used
  used : w'.used = w.used ++ [p]
  fd : (w'.items p).fd = c
  pair : (w'.items p).pair = none
  items : ∀ u, u ≠ p → w'.items u = w.items u
  fds : w'.fds = w.fds
  serverFd : w'.serverFd = w.serverFd

lemma addEvent_some (hs : Sound w) (h : addEvent w c ok = (some p, w')) : Given w c p w' := by
  obtain heq | ⟨q, free, hfree, ⟨-, heq⟩ | ⟨rfl, heq⟩⟩ := addEvent_cases w c ok
  · cases h.symm.trans heq
  · cases h.symm.trans heq
  · have hadded := PoolRuns.addEvent_added hs hfree c true
    cases h.symm.trans heq
    rw [heq] at hadded
    refine ⟨by simp [hfree], hadded.sound, free_not_used hs hfree, rfl, hadded.fd, ?_,
      hadded.items, rfl, rfl⟩
    simp

lemma undone_closed (hc : openable w c = true) : Undone w ((w.opened c).close c) := by
  refine ⟨fun _ => Iff.rfl, fun _ _ => rfl, [c], acquire_release w.fds c, ?_⟩
  simpa using (openable_fresh hc).2

lemma undone_refused (hs : Sound w) (hc : openable w c = true)
    (h : addEvent (w.opened c) c ok = (none, w')) : Undone w (w'.close c) := by
  have hr := addEvent_none (opened_sound hs c) h
  refine ⟨?_, ?_, [c], ?_, by simpa using (openable_fresh hc).2⟩
  · intro u
    exact iff_of_eq (congrArg (u ∈ ·) hr.used)
  · intro u hu
    exact congrArg Eval.pair (hr.items u hu)
  · have hfds : (w'.close c).fds = (w.fds.acquire c).release c := by
      simp only [World.close, hr.fds]
      rfl
    rw [hfds, acquire_release]
    rfl

/-- `del_event` for a slot that has just been handed out; what happened to the pool since left the
slots in use alone. -/
structure Deleted (w : World) (c : Int) (w₁ w' : World) : Prop where
  used : ∀ u, u ∈ w'.used ↔ u ∈ w.used
  pair : ∀ u ∈ w.used, (w'.items u).pair = (w.items u).pair
  fds : w'.fds = w₁.fds.release c

lemma Given.deleted (hg : Given (w.opened c) c p w₁) (hw : Ready w v) (hc : openable w c = true)
    (hr : Refused { w₁ with fds := w'.fds } w') : Deleted w c w' (delEvent w' p) := by
  have hp : p ∈ w'.used := by
    rw [hr.used, hg.used]
    simp
  have hitem : w'.items p = w₁.items p := hr.items p (by rw [hg.used]; simp)
  have hne : (w'.items p).fd ≠ w'.serverFd := by
    rw [hitem, hg.fd, hr.serverFd, hg.serverFd]
    exact hw.server_ne hc
  have hpos : 0 < (w'.items p).fd := by
    rw [hitem, hg.fd]
    exact (openable_fresh hc).1
  have hdel : delEvent w' p = remove w' p := by
    have hlive : (w'.items p).fd ≠ -1 := by
      omega
    have hpair : (w'.items p).pair = none := by
      rw [hitem, hg.pair]
    simp [delEvent, delEventFrom, hlive, hpair]
  have hremoved := remove_removed w' p
  rw [hdel]
  refine ⟨?_, ?_, ?_⟩
  · intro u
    rw [(remove_unlinked hr.sound hp).used.mem_iff,
      (List.nodup_append.mp hr.sound.nodup).1.mem_erase_iff, hr.used, hg.used, List.mem_append,
      List.mem_singleton]
    constructor
    · rintro ⟨hup, hu | hu⟩
      · exact hu
      · exact absurd hu hup
    · intro hu
      refine ⟨?_, .inl hu⟩
      rintro rfl
      exact hg.new hu
  · intro u hu
    have hup : u ≠ p := by
      rintro rfl
      exact hg.new hu
    rw [hremoved.pair, hr.items u, hg.items u hup]
    · rfl
    · rw [hg.used]
      exact List.mem_append_left _ hu
  · rw [hremoved.ledger, closeItem, if_pos ⟨hne, hpos⟩, hitem, hg.fd]
    rfl

end Undone

section Exits

variable {env : Env} {w w' : World} {v p q : Nat} {dst : SockAddr} {c d : Int}

/-- `remote_sock` opens no socket, or closes it, or returns it. -/
lemma remoteSock_cases (env : Env) (w : World) (dst : SockAddr) (a : Remote) :
    remoteSock env w dst a = (none, w) ∧ (a.socket = none ∨ a.ready env dst = false) ∨
      ∃ sfd, a.socket = some sfd ∧
        remoteSock env w dst a = if a.ready env dst then (some sfd, w.opened sfd)
          else (none, (w.opened sfd).close sfd) := by
  unfold remoteSock Remote.ready
  by_cases hfamily : (mapFix dst (env.baddr == .inet6)).family = env.baddr
  · cases hs : a.socket with
    | none => simp [hfamily]
    | some sfd =>
      refine .inr ⟨sfd, rfl, ?_⟩
      simp only [hfamily, bne_self_eq_false, Bool.false_eq_true, if_false, beq_self_eq_true,
        Bool.true_and]
      cases a.modded with
      | false => simp
      | true => cases a.bound <;> cases a.v6only <;> cases env.baddr <;> simp
  · simp [hfamily]

/-- The calls that only close the descriptor when they fail, taken together. -/
lemma createConn_cases (env : Env) (w : World) (v : Nat) (dst : SockAddr) (a : Calls) :
    createConn env w v dst a = (-1, w) ∧ (a.remote.socket = none ∨ a.ready env dst = false) ∨
      ∃ sfd, a.remote.socket = some sfd ∧
        createConn env w v dst a =
          ((if (Closing.createConn w v sfd ⟨a.ready env dst, a.epoll, a.modified⟩).1 then 0 else -1),
            (Closing.createConn w v sfd ⟨a.ready env dst, a.epoll, a.modified⟩).2) := by
  obtain ⟨heq, hnot⟩ | ⟨sfd, hs, heq⟩ := remoteSock_cases env w dst a.remote
  · left
    refine ⟨by simp only [createConn, heq], hnot.imp_right fun h => ?_⟩
    simp [Calls.ready, h]
  · right
    refine ⟨sfd, hs, ?_⟩
    unfold createConn Closing.createConn Calls.ready
    rw [heq]
    cases a.remote.ready env dst with
    | false => simp
    | true =>
      cases a.synCnt <;> cases env.tfo <;> cases a.fastOpen <;> cases a.noDelay <;>
        cases a.connected <;> simp <;> split <;> split <;> simp_all

lemma udpAssociate_cases (env : Env) (w : World) (v : Nat) (dst : SockAddr) (a : UdpCalls) :
    udpAssociate env w v dst a = (-1, w) ∧ (a.remote.socket = none ∨ a.ready env dst = false) ∨
      ∃ ufd, a.remote.socket = some ufd ∧
        (udpAssociate env w v dst a).2 = Closing.udpAssociate w v ufd (a.socket.getD 0)
          ⟨a.ready env dst, a.epoll, a.named.isSome, a.socket.isSome, a.moddedClient, a.bound,
            a.epollClient⟩ := by
  obtain ⟨heq, hnot⟩ | ⟨ufd, hs, heq⟩ := remoteSock_cases env w dst a.remote
  · left
    refine ⟨by simp only [udpAssociate, heq], hnot.imp_right fun h => ?_⟩
    simp [UdpCalls.ready, h]
  · right
    refine ⟨ufd, hs, ?_⟩
    unfold udpAssociate Closing.udpAssociate UdpCalls.ready
    rw [heq]
    cases a.remote.ready env dst with
    | false => simp
    | true =>
      cases a.modded with
      | false => simp
      | true =>
        cases hadd : addEvent (w.opened ufd) ufd a.epoll with
        | mk given w₁ =>
          cases given with
          | none => simp [hadd]
          | some pair =>
            cases a.named with
            | none => simp [hadd]
            | some addr =>
              cases a.socket with
              | none => simp [hadd]
              | some cfd =>
                cases a.moddedClient with
                | false => simp [hadd]
                | true =>
                  cases a.bound with
                  | false => simp [hadd]
                  | true =>
                    simp only [hadd, Option.getD_some, Option.isSome_some, Bool.not_true,
                      Bool.false_eq_true, Bool.and_true, if_true, if_false]
                    split <;> simp_all

/-- The slot of a set-up that stops behind `add_event` is linked to the client only if it was. -/
lemma linked_given (hg : Given (w.opened c) c p w') (hnot : ¬ Linked w v p) {u : Nat}
    (h : Linked w' v u) : Linked w v u := by
  induction h with
  | refl => exact .refl
  | @tail y z hy hlink ih =>
    have hyp : y ≠ p := by
      rintro rfl
      exact hnot ih
    obtain ⟨hused, hpair⟩ := hlink
    rw [hg.used, List.mem_append, List.mem_singleton] at hused
    rw [hg.items y hyp] at hpair
    exact ih.tail ⟨hused.resolve_right hyp, hpair⟩

lemma Given.links (hg : Given (w.opened c) c p w') {u q : Nat} (h : Link w u q) : Link w' u q := by
  obtain ⟨hu, hq⟩ := h
  have hup : u ≠ p := by
    rintro rfl
    exact hg.new hu
  refine ⟨?_, ?_⟩
  · rw [hg.used]
    exact List.mem_append_left _ hu
  · rw [hg.items u hup]
    exact hq

/-- Stopping behind `add_event` is clean exactly if a pair that was left behind leads to the slot. -/
lemma stopped_iff (hw : Ready w v) (hc : openable w c = true) (hg : Given (w.opened c) c p w') :
    Clean w w' v ↔ Linked w v p := by
  have hheld : c ∈ w'.fds.held := by
    rw [hg.fds]
    exact List.mem_cons_self
  have hacquired : w'.fds.acquired = [c] ++ w.fds.acquired := by
    rw [hg.fds]
    rfl
  have hp : p ∈ w'.used := by
    simp [hg.used]
  constructor
  · intro hclean
    by_contra hnot
    obtain hclosed | ⟨u, hu, hfd, hlinked⟩ := hclean.descriptors [c] hacquired c (by simp)
    · exact hclosed hheld
    by_cases hup : u = p
    · subst hup
      exact hnot (linked_given hg hnot hlinked)
    · rw [hg.used, List.mem_append, List.mem_singleton] at hu
      have hold := hw.held u (hu.resolve_right hup)
      rw [hg.items u hup] at hfd
      have hfd : (w.items u).fd = c := hfd
      rw [hfd] at hold
      exact (openable_fresh hc).2 hold
  · intro hlinked
    have hlinked' : Linked w' v p := Relation.ReflTransGen.mono (fun _ _ => hg.links) _ _ hlinked
    refine ⟨?_, ?_⟩
    · intro new hnew fd hfd
      obtain rfl := List.append_cancel_right (hnew.symm.trans hacquired)
      obtain rfl : fd = c := by simpa using hfd
      exact .inr ⟨p, hp, hg.fd, hlinked'⟩
    · intro roots hroot hr
      refine reached_of_links ?_ (fun _ _ => hg.links) ?_ hw.client hroot hr
      · intro u hu
        rw [hg.used]
        exact List.mem_append_left _ hu
      · intro u hu
        rw [hg.used, List.mem_append, List.mem_singleton] at hu
        obtain hu | rfl := hu
        · exact .inl hu
        · exact .inr hlinked'

lemma refused_rest (hs : Sound w) (l : Ledger Int) :
    Refused { w with fds := l } { w with fds := l } :=
  ⟨⟨hs.index, hs.nodup⟩, rfl, fun _ _ => rfl, rfl, rfl⟩

lemma Deleted.undone {w₁ : World} (h : Deleted w c w₁ w') (new : List Int)
    (hfds : w₁.fds.release c = { w.fds with acquired := new ++ w.fds.acquired })
    (hnew : ∀ fd ∈ new, fd ∉ w.fds.held) : Undone w w' :=
  ⟨h.used, h.pair, new, h.fds.trans hfds, hnew⟩

/-- The second descriptor is closed behind the deletion. -/
lemma Deleted.undone_close {w₁ : World} (hc : openable w c = true) (hd : openable w d = true)
    (hcd : c ≠ d) (h : Deleted w c w₁ w') (hfds : w₁.fds = (w.fds.acquire c).acquire d) :
    Undone w (w'.close d) := by
  refine ⟨h.used, h.pair, [d, c], ?_, ?_⟩
  · have hclose : (w'.close d).fds = (((w.fds.acquire c).acquire d).release c).release d := by
      simp only [World.close, h.fds, hfds]
    rw [hclose, acquire_acquire_release _ hcd]
    simp [Ledger.acquire, Ledger.release]
  · simpa using ⟨(openable_fresh hd).2, (openable_fresh hc).2⟩

/-- Both slots are linked to the client, whatever is answered from then on. -/
lemma ring_clean (hw : Ready w v) (hpair : (w.items v).pair = none) {w₁ w₂ : World}
    (hg : Given (w.opened c) c p w₁) (hg' : Given (w₁.opened d) d q w₂) :
    Clean w (setPair (setPair (setPair w₂ v q) q p) p v) v := by
  have hp : p ∈ w₁.used := by
    simp [hg.used]
  have hv : v ∈ w₁.used := by
    rw [hg.used]
    exact List.mem_append_left _ hw.client
  have hvp : v ≠ p := by
    rintro rfl
    exact hg.new hw.client
  have hpq : p ≠ q := by
    rintro rfl
    exact hg'.new hp
  have hvq : v ≠ q := by
    rintro rfl
    exact hg'.new hv
  have hused : w₂.used = w.used ++ [p] ++ [q] := by
    rw [hg'.used]
    exact congrArg (· ++ [q]) hg.used
  have hfdq : ((setPair (setPair (setPair w₂ v q) q p) p v).items q).fd = d := by
    rw [Closing.setPair_fd, Closing.setPair_fd, Closing.setPair_fd, hg'.fd]
  have hfdp : ((setPair (setPair (setPair w₂ v q) q p) p v).items p).fd = c := by
    rw [Closing.setPair_fd, Closing.setPair_fd, Closing.setPair_fd, hg'.items p hpq]
    exact hg.fd
  have hlinkq : Linked (setPair (setPair (setPair w₂ v q) q p) p v) v q := by
    refine .single ⟨?_, ?_⟩
    · change v ∈ w₂.used
      simp [hused, hw.client]
    · simp [setPair, setItem_of_ne hvp, setItem_of_ne hvq]
  have hlinkp : Linked (setPair (setPair (setPair w₂ v q) q p) p v) v p := by
    refine hlinkq.tail ⟨?_, ?_⟩
    · change q ∈ w₂.used
      simp [hused]
    · simp [setPair, setItem_of_ne hpq.symm]
  refine ⟨?_, ?_⟩
  · intro new hnew fd hfd
    have hacquired : w₂.fds.acquired = [d, c] ++ w.fds.acquired := by
      rw [hg'.fds]
      exact congrArg (d :: ·) (congrArg Ledger.acquired hg.fds)
    obtain rfl := List.append_cancel_right (hnew.symm.trans hacquired)
    right
    rw [List.mem_cons, List.mem_singleton] at hfd
    obtain rfl | rfl := hfd
    · exact ⟨q, by change q ∈ w₂.used; simp [hused], hfdq, hlinkq⟩
    · exact ⟨p, by change p ∈ w₂.used; simp [hused], hfdp, hlinkp⟩
  · intro roots hroot hr
    refine reached_of_links ?_ ?_ ?_ hw.client hroot hr
    · intro u hu
      change u ∈ w₂.used
      simp [hused, hu]
    · rintro u r ⟨hu, hr⟩
      have huv : u ≠ v := by
        rintro rfl
        cases hpair.symm.trans hr
      obtain ⟨hu₁, hr₁⟩ := hg.links ⟨hu, hr⟩
      obtain ⟨hu₂, hr₂⟩ := hg'.links ⟨hu₁, hr₁⟩
      have hup : u ≠ p := by
        rintro rfl
        exact hg.new hu
      have huq : u ≠ q := by
        rintro rfl
        exact hg'.new hu₁
      refine ⟨hu₂, ?_⟩
      rw [setPair, setItem_of_ne hup, setPair, setItem_of_ne huq, setPair, setItem_of_ne huv]
      exact hr₂
    · intro u hu
      change u ∈ w₂.used at hu
      simp only [hused, List.append_assoc, List.mem_append, List.mem_singleton] at hu
      obtain hu | rfl | rfl := hu
      · exact .inl hu
      · exact .inr hlinkp
      · exact .inr hlinkq

lemma addEvent_some_ok {ok : Bool} (h : addEvent w c ok = (some p, w')) : ok = true := by
  obtain heq | ⟨q, free, -, ⟨-, heq⟩ | ⟨hok, -⟩⟩ := addEvent_cases w c ok
  · cases h.symm.trans heq
  · cases h.symm.trans heq
  · exact hok

lemma associate_clean (hw : Ready w v) (hpair : (w.items v).pair = none)
    (hc : openable w c = true) (b : Closing.Associate)
    (hd : b.socket = true → openable w d = true ∧ c ≠ d)
    (hok : b.ready = true → b.epoll = true → w.free ≠ [] → b.named = true) :
    Clean w (Closing.udpAssociate w v c d b) v := by
  unfold Closing.udpAssociate
  cases hready : b.ready with
  | false => exact (undone_closed hc).clean hw.client
  | true =>
    cases hadd : addEvent (w.opened c) c b.epoll with
    | mk given w₁ =>
      cases given with
      | none =>
        simp only [hadd, Bool.not_true, Bool.false_eq_true, if_false]
        exact (undone_refused hw.sound hc hadd).clean hw.client
      | some p =>
        have hg := addEvent_some (opened_sound hw.sound c) hadd
        have hfree : w.free ≠ [] := by
          intro hnil
          have hhead := hg.free
          simp [World.opened, hnil] at hhead
        simp only [hadd, hok hready (addEvent_some_ok hadd) hfree, Bool.not_true,
          Bool.false_eq_true, if_false]
        cases hsocket : b.socket with
        | false =>
          have hdel := hg.deleted hw hc (refused_rest hg.sound w₁.fds)
          refine (hdel.undone [c] ?_ ?_).clean hw.client
          · rw [hg.fds]
            exact acquire_release w.fds c
          · simpa using (openable_fresh hc).2
        | true =>
          obtain ⟨hd, hcd⟩ := hd hsocket
          cases hprotected : b.protected' with
          | false =>
            have hdel := hg.deleted hw hc (refused_rest hg.sound ((w₁.opened d).close d).fds)
            refine (hdel.undone [d, c] ?_ ?_).clean hw.client
            · have hfds : ((w₁.opened d).close d).fds =
                  ((w.fds.acquire c).acquire d).release d := by
                simp only [World.close, World.opened, hg.fds]
              rw [hfds, acquire_release]
              simp [Ledger.acquire, Ledger.release]
            · simpa using ⟨(openable_fresh hd).2, (openable_fresh hc).2⟩
          | true =>
            cases hbound : b.bound with
            | false =>
              have hdel := hg.deleted hw hc (refused_rest hg.sound (w₁.opened d).fds)
              have hfds : (w₁.opened d).fds = (w.fds.acquire c).acquire d :=
                congrArg (Ledger.acquire · d) hg.fds
              exact (hdel.undone_close hc hd hcd hfds).clean hw.client
            | true =>
              cases hadd' : addEvent (w₁.opened d) d b.epollClient with
              | mk given w₂ =>
                cases given with
                | none =>
                  have hr := addEvent_none (opened_sound hg.sound d) hadd'
                  have hdel := hg.deleted hw hc ⟨hr.sound, hr.used, hr.items, rfl, hr.serverFd⟩
                  have hfds : w₂.fds = (w.fds.acquire c).acquire d :=
                    hr.fds.trans (congrArg (Ledger.acquire · d) hg.fds)
                  exact (hdel.undone_close hc hd hcd hfds).clean hw.client
                | some q =>
                  have hg' := addEvent_some (opened_sound hg.sound d) hadd'
                  exact ring_clean hw hpair hg hg'

lemma connect_iff (hw : Ready w v) (hc : openable w c = true) (b : Closing.Connect) :
    ((Closing.createConn w v c b).1 = false → Clean w (Closing.createConn w v c b).2 v) ↔
      (b.ready = true → b.epoll = true → ∀ p ∈ w.free.head?, b.modified = true ∨ Linked w v p) := by
  unfold Closing.createConn
  cases hready : b.ready with
  | false => simpa using (undone_closed hc).clean hw.client
  | true =>
    cases hadd : addEvent (w.opened c) c b.epoll with
    | mk given w₁ =>
      cases given with
      | none =>
        have hclean := (undone_refused hw.sound hc hadd).clean hw.client
        have hnone : b.epoll = true → w.free.head? = none := by
          intro hepoll
          by_contra hsome
          cases hfree : w.free with
          | nil => simp [hfree] at hsome
          | cons p free => simp [addEvent, World.opened, hfree, hepoll] at hadd
        simp only [hadd, Bool.not_true, Bool.false_eq_true, if_false, forall_const, hclean,
          true_iff]
        intro hepoll p hp
        rw [hnone hepoll] at hp
        cases hp
      | some p =>
        have hg := addEvent_some (opened_sound hw.sound c) hadd
        have hhead : w.free.head? = some p := hg.free
        have hstop := stopped_iff hw hc hg
        cases hmod : b.modified with
        | true => simp [hadd]
        | false =>
          simp only [hadd, Bool.not_true, Bool.not_false, Bool.false_eq_true, if_false, if_true,
            forall_const, hstop]
          simp only [addEvent_some_ok hadd, hhead, Option.mem_def, Option.some.injEq, false_or,
            forall_eq', forall_const]

/-- With the second call behind `add_event` failing, and no pair to find the slot by. -/
lemma associate_unclean (hw : Ready w v) (hpair : (w.items v).pair = none)
    (hc : openable w c = true) (b : Closing.Associate) (hready : b.ready = true)
    (hepoll : b.epoll = true) (hfree : w.free ≠ []) (hnamed : b.named = false) :
    ¬ Clean w (Closing.udpAssociate w v c d b) v := by
  obtain ⟨p, free, hp⟩ := List.exists_cons_of_ne_nil hfree
  cases hadd : addEvent (w.opened c) c b.epoll with
  | mk given w₁ =>
    have hgiven : given = some p := by
      simpa [addEvent, World.opened, hp, hepoll] using (congrArg Prod.fst hadd).symm
    subst hgiven
    have hg := addEvent_some (opened_sound hw.sound c) hadd
    simp only [Closing.udpAssociate, hready, hadd, hnamed, Bool.not_true, Bool.not_false,
      Bool.false_eq_true, if_false, if_true]
    rw [stopped_iff hw hc hg]
    intro hlinked
    obtain rfl | ⟨u, hlink, -⟩ := hlinked.cases_head
    · exact hg.new hw.client
    · cases hpair.symm.trans hlink.2

end Exits

section Slots

variable {w : World} {u v : Nat}

/-- What is linked to the client goes with it. -/
theorem linked_deleted (hs : Sound w) (hn : PoolRuns.NoStray w v)
    (hlive : ∀ u ∈ w.used, (w.items u).fd ≠ -1) (h : Linked w v u) (hu : u ∈ w.used) :
    ((delEvent w v).items u).fd = -1 := by
  obtain ⟨l, w', hdel, -, hreleased⟩ := PoolRuns.deletes_released hs hn
  have hreach : Relation.ReflTransGen (PoolRuns.PairLink w) v u := by
    refine Relation.ReflTransGen.mono ?_ _ _ h
    rintro y z ⟨hy, hz⟩
    exact ⟨hlive y hy, hz⟩
  rw [hdel.delEvent hn hreleased, hreleased.fd,
    if_pos ((hreleased.slots u).mpr ⟨hlive u hu, hreach⟩)]

/-- A run of the event loop is ready for every slot in use. -/
theorem kept_ready {s : Int} {ex : List Int} (hk : Closing.Kept s ex w) (hv : v ∈ w.used) :
    Ready w v := by
  have hheld := fun fd => hk.owned.held.mem_iff (a := fd)
  refine ⟨hk.sound, hv, ?_, ?_⟩
  · intro u hu
    rw [hheld, List.mem_append]
    by_cases hs : (w.items u).fd = s
    · simp [hs]
    · right
      exact List.mem_filter.mpr ⟨List.mem_map_of_mem hu, by simpa using hs⟩
  · refine hk.server.imp_left fun hserver => ?_
    rw [hserver, hheld]
    simp

end Slots

/-- Without the address of the client's connection there is no association. -/
lemma udpAssociate_unnamed (env : Env) (w : World) (v : Nat) (dst : SockAddr) {a : UdpCalls}
    (h : a.named = none) : (udpAssociate env w v dst a).1 = -1 := by
  unfold udpAssociate
  obtain ⟨sfd, w₁⟩ := remoteSock env w dst a.remote
  cases sfd with
  | none => rfl
  | some ufd =>
    cases hmod : a.modded with
    | false => simp
    | true =>
      cases hadd : addEvent w₁ ufd a.epoll with
      | mk given w₂ => cases given <;> simp [hadd, h]

/-- Failing leaves nothing behind exactly as long as the call after the first `add_event` succeeds:
neither `mod_etype` in `create_conn` nor the first `getsockname` in `udp_associate` is undone. -/
theorem failed_clean_iff {env : Env} {w : World} {v : Nat} {dst : SockAddr} {s : Setup}
    (hw : Ready w v) (hf : Fresh w s) (hp : Single w v s) :
    ((setup env w v dst s).1 = -1 → Clean w (setup env w v dst s).2 v) ↔
      Unwinds env w v dst s := by
  have hrefl : Clean w w v := (undone_refl w).clean hw.client
  cases s with
  | connect a =>
    simp only [setup, Unwinds]
    obtain ⟨heq, hnot⟩ | ⟨sfd, hs, heq⟩ := createConn_cases env w v dst a
    · simp only [heq, hrefl, forall_const, true_iff]
      intro hsocket hready
      obtain hnone | hunready := hnot
      · simp [hnone] at hsocket
      · simp [hunready] at hready
    · have hiff := connect_iff hw (hf sfd hs) ⟨a.ready env dst, a.epoll, a.modified⟩
      simp only [heq, hs, Option.isSome_some, forall_const]
      rw [← hiff]
      cases (Closing.createConn w v sfd ⟨a.ready env dst, a.epoll, a.modified⟩).1 <;> simp
  | associate a =>
    simp only [setup, Unwinds]
    obtain ⟨heq, hnot⟩ | ⟨ufd, hs, heq⟩ := udpAssociate_cases env w v dst a
    · simp only [heq, hrefl, forall_const, true_iff]
      intro hsocket hready
      obtain hnone | hunready := hnot
      · simp [hnone] at hsocket
      · simp [hunready] at hready
    · have hc := hf.1 ufd hs
      rw [heq]
      constructor
      · intro hclean _ hready hepoll hfree
        cases hnamed : a.named with
        | some addr => rfl
        | none =>
          refine absurd (hclean (udpAssociate_unnamed env w v dst hnamed)) ?_
          apply associate_unclean hw hp hc _ hready hepoll hfree
          simp [hnamed]
      · intro hok _
        refine associate_clean hw hp hc _ ?_ (hok (by simp [hs]))
        intro hsocket
        obtain ⟨cfd, hcfd⟩ := Option.isSome_iff_exists.mp hsocket
        obtain ⟨hopen, hne⟩ := hf.2 cfd hcfd
        rw [hcfd, Option.getD_some]
        refine ⟨hopen, ?_⟩
        rintro rfl
        exact hne hs

/-- A client with the descriptor 5, and the listener's socket 4. -/
def accepted : World where
  items := Function.update (fun _ => {}) 0 { fd := 5 }
  used := [0]
  free := [1, 2]
  serverFd := 4
  fds := { held := [5, 4], acquired := [5, 4] }

lemma accepted_ready : Ready accepted 0 := by
  refine ⟨⟨?_, by decide⟩, by decide, by decide, by decide⟩
  intro i v hv
  cases i with
  | zero =>
    obtain rfl : 0 = v := by simpa [accepted] using hv
    rfl
  | succ i => simp [accepted] at hv

/-- Everything succeeds. -/
def remote (fd : Int) : Remote := ⟨some fd, true, true, true⟩

theorem failed_clean_iff_refused :
    ((setup ⟨.inet, false⟩ accepted 0 .zero
          (.connect ⟨remote 6, true, true, true, false, true, true⟩)).1 = -1 →
        Clean accepted (setup ⟨.inet, false⟩ accepted 0 .zero
          (.connect ⟨remote 6, true, true, true, false, true, true⟩)).2 0) ↔
      Unwinds ⟨.inet, false⟩ accepted 0 .zero
        (.connect ⟨remote 6, true, true, true, false, true, true⟩) := by
  refine failed_clean_iff accepted_ready ?_ trivial
  rintro fd ⟨⟩
  decide

/-- `mod_etype` fails behind `add_event`, and so does `getsockname`. -/
theorem set_ups_leak :
    ((setup ⟨.inet, false⟩ accepted 0 .zero
          (.connect ⟨remote 6, true, true, true, true, true, false⟩)).1 = -1 ∧
        ¬ Clean accepted (setup ⟨.inet, false⟩ accepted 0 .zero
          (.connect ⟨remote 6, true, true, true, true, true, false⟩)).2 0) ∧
      (setup ⟨.inet, false⟩ accepted 0 .zero
          (.associate ⟨remote 6, true, true, none, none, true, true, true, none, true, true⟩)).1 =
            -1 ∧
        ¬ Clean accepted (setup ⟨.inet, false⟩ accepted 0 .zero
          (.associate ⟨remote 6, true, true, none, none, true, true, true, none, true, true⟩)).2
            0 := by
  have hopen : openable accepted 6 = true := by decide
  refine ⟨⟨by decide, ?_⟩, by decide, ?_⟩
  · have hadd : addEvent (accepted.opened 6) 6 true =
        (some 1, (addEvent (accepted.opened 6) 6 true).2) := rfl
    have hg := addEvent_some (opened_sound accepted_ready.sound 6) hadd
    intro hclean
    have hlinked := (stopped_iff accepted_ready hopen hg).mp hclean
    obtain hself | ⟨u, hlink, -⟩ := hlinked.cases_head
    · cases hself
    · cases hlink.2
  · exact associate_unclean (d := 0) accepted_ready rfl hopen
      ⟨true, true, false, false, true, true, true⟩ rfl rfl (by decide) rfl

end ConnFailure
