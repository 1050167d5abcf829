import Mathlib.Logic.Function.Basic
import NoZapret.Library.Ledger
import NoZapret.Packets

/-!
# The pool of event slots

`conev.c`: slots hold a descriptor, the pair they forward to and their buffers.
`links` is a permutation of the slots; the ones below `count` are in use, and
`del_event` swaps the slot it frees with the last of them. The ledger records
every descriptor that is opened and every call of `close`.
-/

namespace Pool

open Packets Resources

/-- `struct buffer`; its `size` is the length of `data`. -/
structure Buffer where
  data : Bytes
  lock : Nat := 0
  offset : Nat := 0
  deriving DecidableEq, Repr

/-- The fields of `struct eval` that outlive one callback. -/
structure Eval where
  fd : Int := -1
  index : Nat := 0
  pair : Option Nat := none
  /-- `flag == FLAG_CONN` -/
  conn : Bool := false
  buff : Option Buffer := none
  sqBuff : Option Buffer := none
  recvCount : Nat := 0
  roundSent : Nat := 0
  roundCount : Nat := 0
  partSent : Nat := 0
  deriving DecidableEq, Repr

structure World where
  items : Nat → Eval := fun _ => {}
  /-- `links[0]` to `links[count - 1]` -/
  used : List Nat := []
  /-- `links[count]` to `links[max - 1]` -/
  free : List Nat := []
  ctrlFds : Option (Int × Int) := none
  serverFd : Int := -1
  brk : Bool := false
  fds : Ledger Int := {}

namespace World

def setItem (w : World) (v : Nat) (e : Eval) : World :=
  { w with items := Function.update w.items v e }

def opened (w : World) (fd : Int) : World := { w with fds := w.fds.acquire fd }

def close (w : World) (fd : Int) : World := { w with fds := w.fds.release fd }

end World

/-- `add_event`; the flag is what `epoll_ctl` answers. A slot whose registration
fails keeps the descriptor although it is not in use. -/
def addEvent (w : World) (fd : Int) (ok : Bool) : Option Nat × World :=
  match w.free with
  | [] => (none, w)
  | v :: rest =>
    let w := w.setItem v { fd := fd, index := w.used.length }
    if ok then (some v, { w with used := w.used ++ [v], free := rest }) else (none, w)

/-- The last slot in use takes the slot's place in `links`. -/
def unlink (w : World) (v : Nat) : World :=
  let index := (w.items v).index
  let count := w.used.length - 1
  match w.used.getLast? with
  | none => w
  | some ev =>
    if ev = v then { w with used := w.used.dropLast, free := v :: w.free }
    else
      let links := ((w.used ++ w.free).set index ev).set count v
      { w.setItem ev { w.items ev with index := index } with
        used := links.take count, free := links.drop count }

/-- The slot without its descriptor and buffers. -/
def clear (w : World) (v : Nat) : World :=
  w.setItem v { w.items v with fd := -1, buff := none, sqBuff := none }

/-- `val->pair->pair = 0` when it points back, then `val->pair = 0` -/
def unpair (w : World) (v p : Nat) : World :=
  let w := if (w.items p).pair = some v then w.setItem p { w.items p with pair := none } else w
  w.setItem v { w.items v with pair := none }

/-- `server_fd` is left to whoever opened it. -/
def closeItem (w : World) (v : Nat) : World :=
  let fd := (w.items v).fd
  if fd ≠ w.serverFd ∧ 0 < fd then w.close fd else w

/-- `del_event` up to the pair. -/
def remove (w : World) (v : Nat) : World := unlink (clear (closeItem w v) v) v

/-- `del_event`; the first argument bounds the chain of pairs. -/
def delEventFrom : Nat → World → Nat → World
  | 0, w, _ => w
  | fuel + 1, w, v =>
    let e := w.items v
    if e.fd = -1 then w
    else
      match e.pair with
      | none => remove w v
      | some p => delEventFrom fuel (unpair (remove w v) v p) p

def delEvent (w : World) (v : Nat) : World :=
  delEventFrom (w.used.length + w.free.length + 1) w v

section Links

variable {w : World} {u v : Nat} {e : Eval}

@[simp] lemma setItem_self (w : World) (v : Nat) (e : Eval) : (w.setItem v e).items v = e := by
  simp [World.setItem]

lemma setItem_of_ne (h : u ≠ v) : (w.setItem v e).items u = w.items u := by
  simp [World.setItem, h]

/-- An update that spares a field of the slot spares it everywhere. -/
lemma setItem_field {α : Type} (f : Eval → α) (h : f e = f (w.items v)) (u : Nat) :
    f ((w.setItem v e).items u) = f (w.items u) := by
  by_cases hu : u = v
  · subst hu
    rw [setItem_self, h]
  · rw [setItem_of_ne hu]

lemma unlink_cases (w : World) (v : Nat) :
    (unlink w v).items = w.items ∨
      ∃ ev, (unlink w v).items = (w.setItem ev { w.items ev with index := (w.items v).index }).items := by
  unfold unlink
  cases w.used.getLast? with
  | none => exact Or.inl rfl
  | some ev =>
    by_cases hev : ev = v
    · simp [hev]
    · simp only [hev, if_false]
      exact Or.inr ⟨ev, rfl⟩

/-- Only indices change in the slots. -/
lemma unlink_field {α : Type} (f : Eval → α) (h : ∀ e i, f { e with index := i } = f e) (u : Nat) :
    f ((unlink w v).items u) = f (w.items u) := by
  obtain heq | ⟨ev, heq⟩ := unlink_cases w v
  · rw [heq]
  · rw [heq, setItem_field f (h _ _)]

lemma unlink_rest (w : World) (v : Nat) :
    (unlink w v).serverFd = w.serverFd ∧ (unlink w v).ctrlFds = w.ctrlFds ∧
      (unlink w v).fds = w.fds := by
  unfold unlink
  cases w.used.getLast? with
  | none => exact ⟨rfl, rfl, rfl⟩
  | some ev =>
    by_cases hev : ev = v
    · simp [hev]
    · simp only [hev, if_false]
      exact ⟨rfl, rfl, rfl⟩

/-- `links` is a permutation, and the slots in use know their place in it. -/
structure Sound (w : World) : Prop where
  index : ∀ i v, w.used[i]? = some v → (w.items v).index = i
  nodup : (w.used ++ w.free).Nodup

/-- The slot leaves the ones in use and is the first free one. -/
structure Unlinked (w w' : World) (v : Nat) : Prop where
  used : w'.used.Perm (w.used.erase v)
  free : w'.free = v :: w.free
  sound : Sound w'

lemma unlink_last (hs : Sound w) {l : List Nat} (hused : w.used = l ++ [v]) :
    Unlinked w (unlink w v) v := by
  have hnodup : (l ++ [v]).Nodup := by
    rw [← hused]
    exact (List.nodup_append.mp hs.nodup).1
  have hv : v ∉ l := by
    intro hmem
    exact (List.nodup_append.mp hnodup).2.2 v hmem v (by simp) rfl
  have hunlink : unlink w v = { w with used := l, free := v :: w.free } := by
    simp [unlink, hused]
  rw [hunlink]
  refine ⟨?_, rfl, ?_, ?_⟩
  · rw [hused, List.erase_append_right _ hv]
    simp
  · intro i u hu
    apply hs.index i u
    rw [hused, List.getElem?_append_left (List.getElem?_eq_some_iff.mp hu).1]
    exact hu
  · have hperm : (w.used ++ w.free).Perm (l ++ v :: w.free) := by
      rw [hused, List.append_assoc]
      rfl
    exact hperm.nodup_iff.mp hs.nodup

lemma unlink_swap (hs : Sound w) {l l' : List Nat} {ev : Nat}
    (hused : w.used = l ++ v :: l' ++ [ev]) (hev : ev ≠ v) : Unlinked w (unlink w v) v := by
  have hnodup : (l ++ v :: l' ++ [ev]).Nodup := by
    rw [← hused]
    exact (List.nodup_append.mp hs.nodup).1
  obtain ⟨hinit, -, hdisj⟩ := List.nodup_append.mp hnodup
  have hv : v ∉ l := by
    intro hmem
    exact (List.nodup_append.mp hinit).2.2 v hmem v (by simp) rfl
  have hindex : (w.items v).index = l.length := by
    apply hs.index
    simp [hused]
  have hswap : (l ++ v :: l').set l.length ev = l ++ ev :: l' := by
    rw [List.set_append_right _ _ (Nat.le_refl _)]
    simp
  have hlinks : ((w.used ++ w.free).set l.length ev).set (w.used.length - 1) v =
      (l ++ ev :: l') ++ v :: w.free := by
    have hcount : w.used.length - 1 = (l ++ ev :: l').length := by
      simp [hused]
    rw [hcount, hused, List.append_assoc, List.set_append_left _ _ (by simp), hswap,
      List.set_append_right _ _ (Nat.le_refl _)]
    simp
  have hunlink : unlink w v = { w.setItem ev { w.items ev with index := l.length } with
      used := l ++ ev :: l', free := v :: w.free } := by
    have hlast : w.used.getLast? = some ev := by
      rw [hused]
      exact List.getLast?_concat
    have hcount : w.used.length - 1 = (l ++ ev :: l').length := by
      simp [hused]
    unfold unlink
    rw [hlast]
    simp only [hev, if_false, hindex, hlinks]
    rw [hcount, List.take_left, List.drop_left]
  rw [hunlink]
  refine ⟨?_, rfl, ?_, ?_⟩
  · rw [hused, List.append_assoc, List.erase_append_right _ hv, List.cons_append,
      List.erase_cons_head]
    exact List.Perm.append_left l (List.perm_append_singleton ev l').symm
  · intro i u hu
    have hu : (l ++ ev :: l')[i]? = some u := hu
    by_cases hi : i = l.length
    · subst hi
      have hueq : u = ev := by simpa using hu.symm
      subst hueq
      simp
    · rw [← hswap, List.getElem?_set_ne (Ne.symm hi)] at hu
      have hne : u ≠ ev := hdisj u (List.mem_of_getElem? hu) ev (by simp)
      have hitem : (w.setItem ev { w.items ev with index := l.length }).items u = w.items u :=
        setItem_of_ne hne
      rw [← hs.index i u]
      · simp only [hitem]
      · rw [hused, List.getElem?_append_left (List.getElem?_eq_some_iff.mp hu).1]
        exact hu
  · have hperm : (w.used ++ w.free).Perm (l ++ ev :: l' ++ v :: w.free) := by
      rw [hused, List.perm_iff_count]
      intro a
      simp only [List.count_append, List.count_cons, List.count_nil]
      omega
    exact hperm.nodup_iff.mp hs.nodup

lemma unlink_unlinked (hs : Sound w) (hv : v ∈ w.used) : Unlinked w (unlink w v) v := by
  obtain ⟨init, ev, hused⟩ : ∃ init ev, w.used = init ++ [ev] :=
    ⟨_, _, (List.dropLast_append_getLast (List.ne_nil_of_mem hv)).symm⟩
  by_cases hev : ev = v
  · subst hev
    exact unlink_last hs hused
  · have hmem : v ∈ init := by
      rw [hused, List.mem_append, List.mem_singleton] at hv
      exact hv.resolve_right (Ne.symm hev)
    obtain ⟨l, l', rfl⟩ := List.append_of_mem hmem
    exact unlink_swap hs hused hev

/-- A change of the slots that keeps their indices keeps the links. -/
lemma Sound.of_items {w' : World} (hs : Sound w) (hused : w'.used = w.used) (hfree : w'.free = w.free)
    (hindex : ∀ u, (w'.items u).index = (w.items u).index) : Sound w' := by
  refine ⟨?_, ?_⟩
  · intro i u hu
    rw [hused] at hu
    rw [hindex, hs.index i u hu]
  · rw [hused, hfree]
    exact hs.nodup

/-- Only the ledger changes. -/
lemma closeItem_field {α : Type} (f : World → α) (h : ∀ fd, f (w.close fd) = f w) :
    f (closeItem w v) = f w := by
  unfold closeItem
  by_cases hfd : (w.items v).fd ≠ w.serverFd ∧ 0 < (w.items v).fd
  · rw [if_pos hfd, h]
  · rw [if_neg hfd]

lemma clear_field {α : Type} (f : Eval → α)
    (h : ∀ e : Eval, f { e with fd := -1, buff := none, sqBuff := none } = f e) (u : Nat) :
    f ((clear (closeItem w v) v).items u) = f (w.items u) := by
  have hitems : (closeItem w v).items = w.items := closeItem_field World.items fun _ => rfl
  unfold clear
  rw [← hitems]
  exact setItem_field f (h _) u

/-- What `remove` does to a world, whatever the links are. -/
structure Removed (w w' : World) (v : Nat) : Prop where
  fd : (w'.items v).fd = -1
  fds : ∀ u, u ≠ v → (w'.items u).fd = (w.items u).fd
  pair : ∀ u, (w'.items u).pair = (w.items u).pair
  serverFd : w'.serverFd = w.serverFd
  ctrlFds : w'.ctrlFds = w.ctrlFds
  ledger : w'.fds = (closeItem w v).fds

lemma remove_removed (w : World) (v : Nat) : Removed w (remove w v) v := by
  obtain ⟨hserver, hctrl, hledger⟩ := unlink_rest (clear (closeItem w v) v) v
  refine ⟨?_, ?_, ?_, hserver.trans (closeItem_field World.serverFd fun _ => rfl),
    hctrl.trans (closeItem_field World.ctrlFds fun _ => rfl), hledger⟩
  · unfold remove
    rw [unlink_field Eval.fd fun _ _ => rfl]
    simp [clear]
  · intro u hu
    unfold remove
    rw [unlink_field Eval.fd fun _ _ => rfl]
    unfold clear
    rw [setItem_of_ne hu, closeItem_field World.items fun _ => rfl]
  · intro u
    unfold remove
    rw [unlink_field Eval.pair fun _ _ => rfl]
    exact clear_field Eval.pair (fun _ => rfl) u

lemma remove_unlinked (hs : Sound w) (hv : v ∈ w.used) : Unlinked w (remove w v) v := by
  have hused : (clear (closeItem w v) v).used = w.used :=
    closeItem_field World.used fun _ => rfl
  have hfree : (clear (closeItem w v) v).free = w.free :=
    closeItem_field World.free fun _ => rfl
  have hsound : Sound (clear (closeItem w v) v) :=
    hs.of_items hused hfree fun u => clear_field Eval.index (fun _ => rfl) u
  have hv' : v ∈ (clear (closeItem w v) v).used := by
    rwa [hused]
  obtain ⟨hused', hfree', hsound'⟩ := unlink_unlinked hsound hv'
  rw [hused] at hused'
  rw [hfree] at hfree'
  exact ⟨hused', hfree', hsound'⟩

end Links

section Pairs

variable {w : World} {u v p : Nat}

/-- What `unpair` leaves alone: everything but the pairs, which only get fewer. -/
structure Unpaired (w w' : World) : Prop where
  fd : ∀ u, (w'.items u).fd = (w.items u).fd
  index : ∀ u, (w'.items u).index = (w.items u).index
  pair : ∀ u q, (w'.items u).pair = some q → (w.items u).pair = some q
  used : w'.used = w.used
  free : w'.free = w.free
  serverFd : w'.serverFd = w.serverFd
  ctrlFds : w'.ctrlFds = w.ctrlFds
  fds : w'.fds = w.fds

lemma unpaired_setItem (w : World) (v : Nat) :
    Unpaired w (w.setItem v { w.items v with pair := none }) := by
  refine ⟨setItem_field Eval.fd rfl, setItem_field Eval.index rfl, ?_, rfl, rfl, rfl, rfl, rfl⟩
  intro u q hq
  by_cases hu : u = v
  · subst hu
    simp at hq
  · rwa [setItem_of_ne hu] at hq

lemma Unpaired.trans {w' w'' : World} (h : Unpaired w w') (h' : Unpaired w' w'') :
    Unpaired w w'' where
  fd u := (h'.fd u).trans (h.fd u)
  index u := (h'.index u).trans (h.index u)
  pair u q hq := h.pair u q (h'.pair u q hq)
  used := h'.used.trans h.used
  free := h'.free.trans h.free
  serverFd := h'.serverFd.trans h.serverFd
  ctrlFds := h'.ctrlFds.trans h.ctrlFds
  fds := h'.fds.trans h.fds

lemma unpair_unpaired (w : World) (v p : Nat) : Unpaired w (unpair w v p) := by
  unfold unpair
  split
  · exact (unpaired_setItem w p).trans (unpaired_setItem _ v)
  · exact unpaired_setItem w v

lemma delEventFrom_dead (h : (w.items v).fd = -1) (fuel : Nat) : delEventFrom fuel w v = w := by
  cases fuel with
  | zero => rfl
  | succ fuel => simp [delEventFrom, h]

/-- No chain of pairs is longer than the slots that carry a descriptor. -/
lemma delEventFrom_enough {fuel : Nat} {slots : List Nat} (k : Nat)
    (hlive : ∀ u, (w.items u).fd ≠ -1 → u ∈ slots) (hfuel : slots.length ≤ fuel) :
    delEventFrom (fuel + k) w v = delEventFrom fuel w v := by
  induction fuel generalizing w v slots with
  | zero =>
    have hdead : (w.items v).fd = -1 := by
      by_contra hv
      have hmem := hlive v hv
      have hpos := List.length_pos_of_mem hmem
      omega
    rw [delEventFrom_dead hdead, delEventFrom_dead hdead]
  | succ fuel ih =>
    by_cases hdead : (w.items v).fd = -1
    · rw [delEventFrom_dead hdead, delEventFrom_dead hdead]
    have hlength := List.length_erase_of_mem (hlive v hdead)
    rw [Nat.add_right_comm]
    simp only [delEventFrom, hdead, if_false]
    cases hp : (w.items v).pair with
    | none => rfl
    | some p =>
      have hremoved := remove_removed w v
      have hunpaired := unpair_unpaired (remove w v) v p
      have hlive' : ∀ u, ((unpair (remove w v) v p).items u).fd ≠ -1 → u ∈ slots.erase v := by
        intro u hu
        rw [hunpaired.fd] at hu
        have hne : u ≠ v := by
          rintro rfl
          exact hu hremoved.fd
        rw [hremoved.fds u hne] at hu
        exact (List.mem_erase_of_ne hne).mpr (hlive u hu)
      exact ih hlive' (by omega)

end Pairs

end Pool
