import NoZapret.Closing

/-!
# The event pool over whole runs

`add_event`, the two ways of pairing slots and `del_event`, in any order. `create_conn`
pairs two slots with each other and `udp_associate` three in a ring; `reconnect` drops the
pair of the slot it is about to delete. What `del_event` releases is told by its calls,
one for each slot of the chain.
-/

namespace PoolRuns

open Pool Runs
open Closing (setPair free_not_used use_sound)

inductive Act where
  /-- `add_event` and what `epoll_ctl` answers -/
  | add (fd : Int) (ok : Bool)
  /-- `val->pair = pair`, `pair->pair = val` -/
  | pair (v p : Nat)
  /-- `val->pair = client`, `client->pair = pair`, `pair->pair = val` -/
  | ring (v c p : Nat)
  /-- `val->pair = 0` -/
  | drop (v : Nat)
  | del (v : Nat)
  deriving DecidableEq, Repr

/-- `add_event` asserts that the descriptor is positive. Pairs are made of slots in use;
a slot that has been handed out may be deleted a second time. -/
def step (w : World) : Act → Option World
  | .add fd ok => if 0 < fd then some (addEvent w fd ok).2 else none
  | .pair v p =>
    if v ∈ w.used ∧ p ∈ w.used ∧ v ≠ p then some (setPair (setPair w v p) p v) else none
  | .ring v c p =>
    if v ∈ w.used ∧ c ∈ w.used ∧ p ∈ w.used ∧ v ≠ c ∧ v ≠ p ∧ c ≠ p then
      some (setPair (setPair (setPair w v c) c p) p v)
    else none
  | .drop v =>
    if v ∈ w.used then some (w.setItem v { w.items v with pair := none }) else none
  | .del v => if v ∈ w.used ∨ (w.items v).fd = -1 then some (delEvent w v) else none

/-- `init_pool`: the slots are not cleared beyond their descriptors. -/
structure Init (max : Nat) (w : World) : Prop where
  used : w.used = []
  free : w.free = List.range max
  fd : ∀ v, (w.items v).fd = -1

/-- `links` is a permutation of the slots, those in front are the ones with a descriptor,
and each knows its place. -/
structure Consistent (max : Nat) (w : World) : Prop where
  links : (w.used ++ w.free).Perm (List.range max)
  live : ∀ v, v ∈ w.used ↔ (w.items v).fd ≠ -1
  index : ∀ i v, w.used[i]? = some v → (w.items v).index = i

/-- A call of `del_event` that comes to its end, with the slots it releases in their order. -/
inductive Deletes : World → Nat → List Nat → World → Prop
  | released {w : World} {v : Nat} (hfd : (w.items v).fd = -1) : Deletes w v [] w
  | single {w : World} {v : Nat} (hfd : (w.items v).fd ≠ -1) (hpair : (w.items v).pair = none) :
      Deletes w v [v] (remove w v)
  | paired {w w' : World} {v p : Nat} {l : List Nat} (hfd : (w.items v).fd ≠ -1)
      (hpair : (w.items v).pair = some p) (hrest : Deletes (unpair (remove w v) v p) p l w') :
      Deletes w v (v :: l) w'

/-- The pair of a slot in use. -/
def PairLink (w : World) (u p : Nat) : Prop := (w.items u).fd ≠ -1 ∧ (w.items u).pair = some p

/-- Every slot in use that pair links lead to is released, once, and no other slot is. -/
structure Released (w : World) (v : Nat) (l : List Nat) (w' : World) : Prop where
  once : l.Nodup
  slots : ∀ u, u ∈ l ↔ (w.items u).fd ≠ -1 ∧ Relation.ReflTransGen (PairLink w) v u
  fd : ∀ u, (w'.items u).fd = if u ∈ l then -1 else (w.items u).fd

/-- Pair links lead from the slot to no descriptor outside of the slots in use. -/
def NoStray (w : World) (v : Nat) : Prop :=
  ∀ u, Relation.ReflTransGen (PairLink w) v u → (w.items u).fd ≠ -1 → u ∈ w.used

/-- The slots of the list go from the ones in use to the free ones. -/
structure Freed (w : World) (l : List Nat) (w' : World) : Prop where
  sound : Sound w'
  links : (w'.used ++ w'.free).Perm (w.used ++ w.free)
  used : ∀ u, u ∈ w'.used ↔ u ∈ w.used ∧ u ∉ l

section Delete

variable {w w' : World} {u v p : Nat} {l : List Nat}

lemma freed_nil (hs : Sound w) : Freed w [] w :=
  ⟨hs, .refl _, fun _ => (and_iff_left List.not_mem_nil).symm⟩

lemma Freed.trans {w'' : World} {l' : List Nat} (h : Freed w l w') (h' : Freed w' l' w'') :
    Freed w (l ++ l') w'' := by
  refine ⟨h'.sound, h'.links.trans h.links, ?_⟩
  intro u
  rw [h'.used, h.used, List.mem_append, not_or, and_assoc]

lemma remove_freed (hs : Sound w) (hv : v ∈ w.used) : Freed w [v] (remove w v) := by
  have hu := remove_unlinked hs hv
  refine ⟨hu.sound, ?_, ?_⟩
  · rw [hu.free]
    refine (hu.used.append_right _).trans ?_
    refine List.perm_middle.trans ?_
    exact (List.perm_cons_erase hv).symm.append_right w.free
  · intro u
    rw [hu.used.mem_iff, (List.nodup_append.mp hs.nodup).1.mem_erase_iff, List.mem_singleton,
      and_comm]

/-- Pairs play no part in it. -/
lemma Freed.unpair (h : Freed w l w') (v p : Nat) : Freed w l (unpair w' v p) := by
  have hu := unpair_unpaired w' v p
  refine ⟨h.sound.of_items hu.used hu.free hu.index, ?_, ?_⟩
  · rw [hu.used, hu.free]
    exact h.links
  · intro u
    rw [hu.used]
    exact h.used u

/-- The pairs once `v` is released and has left its own: one more goes if it led back. -/
lemma unpair_remove_pair {q : Nat} (hu : u ≠ v) (hq : (w.items u).pair = some q) (hqv : q ≠ v) :
    ((unpair (remove w v) v p).items u).pair = some q := by
  have hpair := (remove_removed w v).pair
  unfold Pool.unpair
  rw [setItem_of_ne hu]
  split
  · rename_i hback
    by_cases hup : u = p
    · subst hup
      rw [hpair, hq, Option.some.injEq] at hback
      exact absurd hback hqv
    · rw [setItem_of_ne hup, hpair, hq]
  · rw [hpair, hq]

/-- A chain from `v` leaves it once and for all. -/
lemma reach_split (hpair : (w.items v).pair = some p)
    (h : Relation.ReflTransGen (PairLink w) v u) :
    u = v ∨ Relation.ReflTransGen (PairLink (unpair (remove w v) v p)) p u := by
  induction h with
  | refl => exact .inl rfl
  | @tail y z hy hlink ih =>
    obtain ⟨hfd, hq⟩ := hlink
    by_cases hyv : y = v
    · subst hyv
      rw [hpair, Option.some.injEq] at hq
      subst hq
      exact .inr .refl
    by_cases hzv : z = v
    · exact .inl hzv
    refine .inr ((ih.resolve_left hyv).tail ⟨?_, unpair_remove_pair hyv hq hzv⟩)
    rw [(unpair_unpaired _ v p).fd, (remove_removed w v).fds y hyv]
    exact hfd

lemma reach_rest (h : Relation.ReflTransGen (PairLink (unpair (remove w v) v p)) p u) :
    Relation.ReflTransGen (PairLink w) p u := by
  refine Relation.ReflTransGen.mono ?_ p u h
  rintro y z ⟨hfd, hq⟩
  have hr := remove_removed w v
  have hup := unpair_unpaired (remove w v) v p
  refine ⟨?_, ?_⟩
  · intro hdead
    rw [hup.fd] at hfd
    by_cases hyv : y = v
    · rw [hyv, hr.fd] at hfd
      exact hfd rfl
    · rw [hr.fds y hyv] at hfd
      exact hfd hdead
  · rw [← hr.pair]
    exact hup.pair y z hq

lemma released_dead (hfd : (w.items v).fd = -1) : Released w v [] w := by
  refine ⟨List.nodup_nil, ?_, ?_⟩
  · intro u
    simp only [List.not_mem_nil, false_iff, not_and]
    intro hlive hreach
    obtain rfl | ⟨y, hlink, -⟩ := hreach.cases_head
    · exact hlive hfd
    · exact hlink.1 hfd
  · intro u
    rw [if_neg List.not_mem_nil]

lemma released_single (hfd : (w.items v).fd ≠ -1) (hpair : (w.items v).pair = none) :
    Released w v [v] (remove w v) := by
  have hr := remove_removed w v
  refine ⟨by simp, ?_, ?_⟩
  · intro u
    rw [List.mem_singleton]
    constructor
    · rintro rfl
      exact ⟨hfd, .refl⟩
    · rintro ⟨-, hreach⟩
      obtain rfl | ⟨y, hlink, -⟩ := hreach.cases_head
      · rfl
      · cases hpair.symm.trans hlink.2
  · intro u
    by_cases huv : u = v
    · rw [if_pos (List.mem_singleton.mpr huv), huv, hr.fd]
    · rw [if_neg (by simpa using huv), hr.fds u huv]

lemma Released.paired (hfd : (w.items v).fd ≠ -1) (hpair : (w.items v).pair = some p)
    (h : Released (unpair (remove w v) v p) p l w') : Released w v (v :: l) w' := by
  have hr := remove_removed w v
  have hup := unpair_unpaired (remove w v) v p
  have hgone : ((Pool.unpair (remove w v) v p).items v).fd = -1 := by
    rw [hup.fd, hr.fd]
  have hkept : ∀ u, u ≠ v → ((Pool.unpair (remove w v) v p).items u).fd = (w.items u).fd := by
    intro u hu
    rw [hup.fd, hr.fds u hu]
  have hv : v ∉ l := by
    intro hmem
    exact ((h.slots v).mp hmem).1 hgone
  refine ⟨List.nodup_cons.mpr ⟨hv, h.once⟩, ?_, ?_⟩
  · intro u
    rw [List.mem_cons]
    constructor
    · rintro (rfl | hmem)
      · exact ⟨hfd, .refl⟩
      · have hne : u ≠ v := by
          rintro rfl
          exact hv hmem
        obtain ⟨hlive, hreach⟩ := (h.slots u).mp hmem
        rw [hkept u hne] at hlive
        exact ⟨hlive, (reach_rest hreach).head ⟨hfd, hpair⟩⟩
    · rintro ⟨hlive, hreach⟩
      by_cases hne : u = v
      · exact .inl hne
      right
      refine (h.slots u).mpr ⟨?_, (reach_split hpair hreach).resolve_left hne⟩
      rw [hkept u hne]
      exact hlive
  · intro u
    rw [h.fd u]
    by_cases huv : u = v
    · subst huv
      rw [if_neg hv, if_pos List.mem_cons_self, hgone]
    · simp only [List.mem_cons, huv, false_or, hkept u huv]

/-- A slot of the chain has left the ones in use. -/
lemma NoStray.rest (hn : NoStray w v) (hs : Sound w) (hv : v ∈ w.used)
    (hfd : (w.items v).fd ≠ -1) (hpair : (w.items v).pair = some p) :
    NoStray (unpair (remove w v) v p) p := by
  have hr := remove_removed w v
  have hup := unpair_unpaired (remove w v) v p
  intro u hreach hlive
  rw [hup.fd] at hlive
  have hne : u ≠ v := by
    rintro rfl
    exact hlive hr.fd
  rw [hr.fds u hne] at hlive
  refine (((remove_freed hs hv).unpair v p).used u).mpr ⟨?_, by simpa using hne⟩
  exact hn u ((reach_rest hreach).head ⟨hfd, hpair⟩) hlive

/-- The slots in use get fewer with every call, whatever the pairs are. -/
theorem deletes_released (hs : Sound w) (hn : NoStray w v) :
    ∃ l w', Deletes w v l w' ∧ Freed w l w' ∧ Released w v l w' := by
  induction hused : w.used.length generalizing w v with
  | zero =>
    have hfd : (w.items v).fd = -1 := by
      by_contra hlive
      have hpos := List.length_pos_of_mem (hn v .refl hlive)
      omega
    exact ⟨[], w, .released hfd, freed_nil hs, released_dead hfd⟩
  | succ n ih =>
    by_cases hfd : (w.items v).fd = -1
    · exact ⟨[], w, .released hfd, freed_nil hs, released_dead hfd⟩
    have hv := hn v .refl hfd
    have hfreed := remove_freed hs hv
    cases hpair : (w.items v).pair with
    | none => exact ⟨[v], remove w v, .single hfd hpair, hfreed, released_single hfd hpair⟩
    | some p =>
      have hunpaired := hfreed.unpair v p
      have hlength : (unpair (remove w v) v p).used.length = n := by
        rw [(unpair_unpaired (remove w v) v p).used, (remove_unlinked hs hv).used.length_eq,
          List.length_erase_of_mem hv, hused]
        rfl
      obtain ⟨l, w', hdel, hrest, hrel⟩ := ih hunpaired.sound (hn.rest hs hv hfd hpair) hlength
      exact ⟨v :: l, w', .paired hfd hpair hdel, hunpaired.trans hrest, hrel.paired hfd hpair⟩

/-- As many calls as slots are released, and one that finds its slot released. -/
lemma Deletes.delEventFrom (h : Deletes w v l w') (k : Nat) :
    delEventFrom (l.length + 1 + k) w v = w' := by
  induction h with
  | released hfd => exact delEventFrom_dead hfd _
  | single hfd hpair =>
    rw [Nat.add_right_comm]
    simp only [Pool.delEventFrom, hfd, if_false, hpair]
  | paired hfd hpair hrest ih =>
    rw [Nat.add_right_comm, List.length_cons]
    simp only [Pool.delEventFrom, hfd, if_false, hpair]
    exact ih

/-- The bound of `delEvent` leaves room for every slot. -/
lemma Released.length_le (hl : Released w v l w') (hn : NoStray w v) : l.length ≤ w.used.length := by
  have hsub : l ⊆ w.used := by
    intro u hu
    obtain ⟨hlive, hreach⟩ := (hl.slots u).mp hu
    exact hn u hreach hlive
  exact (List.subperm_of_subset hl.once hsub).length_le

lemma Deletes.delEvent (h : Deletes w v l w') (hn : NoStray w v) (hl : Released w v l w') :
    delEvent w v = w' := by
  have hlength := hl.length_le hn
  obtain ⟨k, hk⟩ := Nat.exists_eq_add_of_le
    (show l.length + 1 ≤ w.used.length + w.free.length + 1 by omega)
  unfold Pool.delEvent
  rw [hk]
  exact h.delEventFrom k

end Delete

section Consistency

variable {max : Nat} {w w' : World} {v : Nat} {l : List Nat}

lemma Consistent.sound (h : Consistent max w) : Sound w :=
  ⟨h.index, h.links.nodup_iff.mpr List.nodup_range⟩

lemma Consistent.noStray (h : Consistent max w) (v : Nat) : NoStray w v :=
  fun u _ hlive => (h.live u).mpr hlive

lemma Consistent.of_items (h : Consistent max w) (hused : w'.used = w.used)
    (hfree : w'.free = w.free) (hfd : ∀ u, (w'.items u).fd = (w.items u).fd)
    (hindex : ∀ u, (w'.items u).index = (w.items u).index) : Consistent max w' := by
  refine ⟨?_, ?_, ?_⟩
  · rw [hused, hfree]
    exact h.links
  · intro u
    rw [hused, hfd]
    exact h.live u
  · intro i u hu
    rw [hused] at hu
    rw [hindex, h.index i u hu]

lemma Consistent.freed (h : Consistent max w) (hf : Freed w l w') (hr : Released w v l w') :
    Consistent max w' := by
  refine ⟨hf.links.trans h.links, ?_, hf.sound.index⟩
  intro u
  rw [hf.used, hr.fd, h.live]
  by_cases hu : u ∈ l <;> simp [hu]

end Consistency

/-- A registration succeeds, or there is no slot for it. -/
def Registers (w : World) : Act → Prop
  | .add _ ok => ok = true ∨ w.free = []
  | _ => True

/-- What a step should do. -/
def Settles (max : Nat) (w : World) (a : Act) (w' : World) : Prop :=
  Consistent max w' ∧ ∀ v, a = .del v → ∃ l, Deletes w v l w' ∧ Released w v l w'

section Steps

variable {max : Nat} {w w' : World} {a : Act} {u v p : Nat} {fd : Int}

lemma Init.consistent (h : Init max w) : Consistent max w := by
  refine ⟨?_, ?_, ?_⟩
  · rw [h.used, h.free]
    exact .refl _
  · intro v
    rw [h.used, h.fd v]
    simp
  · intro i v hv
    rw [h.used] at hv
    cases hv

lemma Consistent.setPair (h : Consistent max w) (v p : Nat) : Consistent max (setPair w v p) :=
  h.of_items rfl rfl (setItem_field Eval.fd rfl) (setItem_field Eval.index rfl)

/-- The first free slot is written; it comes into use when it is registered. -/
structure Added (w : World) (v : Nat) (fd : Int) (w' : World) : Prop where
  sound : Sound w'
  kept : ∀ u ∈ w.used, u ∈ w'.used
  used : ∀ u ∈ w'.used, u ∈ w.used ∨ u = v
  fd : (w'.items v).fd = fd
  items : ∀ u, u ≠ v → w'.items u = w.items u

lemma addEvent_added (hs : Sound w) {free : List Nat} (hfree : w.free = v :: free) (fd : Int)
    (ok : Bool) :
    Added w v fd (addEvent w fd ok).2 := by
  have hv := free_not_used hs hfree
  have hitem : ∀ u, u ≠ v →
      (w.setItem v { fd := fd, index := w.used.length }).items u = w.items u :=
    fun u hu => setItem_of_ne hu
  have hsound : Sound (w.setItem v { fd := fd, index := w.used.length }) := by
    refine ⟨?_, hs.nodup⟩
    intro i u hu
    have hne : u ≠ v := by
      rintro rfl
      exact hv (List.mem_of_getElem? hu)
    rw [hitem u hne]
    exact hs.index i u hu
  cases ok with
  | false =>
    simp only [addEvent, hfree, Bool.false_eq_true, if_false]
    exact ⟨hsound, fun u hu => hu, fun u hu => .inl hu, by rw [setItem_self], hitem⟩
  | true =>
    simp only [addEvent, hfree, if_true]
    have hindex : ((w.setItem v { fd := fd, index := w.used.length }).items v).index =
        (w.setItem v { fd := fd, index := w.used.length }).used.length := by
      rw [setItem_self]
      rfl
    refine ⟨use_sound hsound hfree hindex, fun u hu => List.mem_append_left _ hu, ?_,
      by rw [setItem_self], hitem⟩
    intro u hu
    rwa [List.mem_append, List.mem_singleton] at hu

/-- The first free slot comes into use. -/
lemma Consistent.added (h : Consistent max w) (hfd : 0 < fd) {free : List Nat}
    (hfree : w.free = p :: free) : Consistent max (addEvent w fd true).2 := by
  have hadded := addEvent_added h.sound hfree fd true
  have hused : (addEvent w fd true).2.used = w.used ++ [p] := by
    simp only [addEvent, hfree, if_true]
    rfl
  have hrest : (addEvent w fd true).2.free = free := by
    simp only [addEvent, hfree, if_true]
  refine ⟨?_, ?_, hadded.sound.index⟩
  · have hlinks := h.links
    rw [hfree] at hlinks
    simpa [hused, hrest] using hlinks
  · intro u
    rw [hused, List.mem_append, List.mem_singleton]
    by_cases hu : u = p
    · subst hu
      simp only [or_true, hadded.fd, true_iff]
      omega
    · simp only [hu, or_false, hadded.items u hu]
      exact h.live u

/-- A failed registration leaves the descriptor in a slot that is not in use. -/
lemma addEvent_failed (h : Consistent max w) (hfd : 0 < fd) (hfree : w.free ≠ []) :
    ¬ Consistent max (addEvent w fd false).2 := by
  obtain ⟨p, free, hp⟩ := List.exists_cons_of_ne_nil hfree
  intro hcons
  have hnot := free_not_used h.sound hp
  have hlive := hcons.live p
  simp only [addEvent, hp, Bool.false_eq_true, if_false, setItem_self] at hlive
  exact hnot (hlive.mpr (by omega))

lemma step_settles (h : Consistent max w) (hok : Registers w a) (hstep : step w a = some w') :
    Settles max w a w' := by
  cases a with
  | add fd ok =>
    refine ⟨?_, fun v hv => by cases hv⟩
    simp only [step, Option.ite_none_right_eq_some, Option.some.injEq] at hstep
    obtain ⟨hfd, rfl⟩ := hstep
    cases hfree : w.free with
    | nil =>
      simp only [addEvent, hfree]
      exact h
    | cons p free =>
      obtain rfl : ok = true := hok.resolve_right (by simp [hfree])
      exact h.added hfd hfree
  | pair v p =>
    refine ⟨?_, fun v hv => by cases hv⟩
    simp only [step, Option.ite_none_right_eq_some, Option.some.injEq] at hstep
    obtain ⟨-, rfl⟩ := hstep
    exact (h.setPair v p).setPair p v
  | ring v c p =>
    refine ⟨?_, fun v hv => by cases hv⟩
    simp only [step, Option.ite_none_right_eq_some, Option.some.injEq] at hstep
    obtain ⟨-, rfl⟩ := hstep
    exact ((h.setPair v c).setPair c p).setPair p v
  | drop v =>
    refine ⟨?_, fun v hv => by cases hv⟩
    simp only [step, Option.ite_none_right_eq_some, Option.some.injEq] at hstep
    obtain ⟨-, rfl⟩ := hstep
    exact h.of_items rfl rfl (setItem_field Eval.fd rfl) (setItem_field Eval.index rfl)
  | del v =>
    simp only [step, Option.ite_none_right_eq_some, Option.some.injEq] at hstep
    obtain ⟨-, rfl⟩ := hstep
    obtain ⟨l, w', hdel, hfreed, hrel⟩ := deletes_released h.sound (h.noStray v)
    rw [hdel.delEvent (h.noStray v) hrel]
    refine ⟨h.freed hfreed hrel, ?_⟩
    rintro u hu
    cases hu
    exact ⟨l, hdel, hrel⟩

lemma settles_iff (h : Consistent max w) (hstep : step w a = some w') :
    Settles max w a w' ↔ Registers w a := by
  constructor
  · rintro ⟨hcons, -⟩
    cases a with
    | add fd ok =>
      simp only [step, Option.ite_none_right_eq_some, Option.some.injEq] at hstep
      obtain ⟨hfd, rfl⟩ := hstep
      by_contra hnot
      simp only [Registers, not_or, Bool.not_eq_true] at hnot
      obtain ⟨rfl, hfree⟩ := hnot
      exact addEvent_failed h hfd hfree hcons
    | pair v p => trivial
    | ring v c p => trivial
    | drop v => trivial
    | del v => trivial
  · intro hok
    exact step_settles h hok hstep

end Steps

/-- The pool is consistent all along, and every deletion releases what pairs lead to, exactly
as long as no registration fails. -/
theorem pool_consistent_iff {max : Nat} {w₀ w : World} {acts : List Act} (h₀ : Init max w₀)
    (hrun : run step w₀ acts = some w) :
    Consistent max w₀ ∧ Along step (Settles max) w₀ acts ↔ Meets step Registers w₀ acts := by
  have hcons := h₀.consistent
  rw [and_iff_right hcons]
  refine along_iff_meets ?_ ?_ hcons hrun
  · intro w a w' h hok hstep
    exact (step_settles h hok hstep).1
  · intro w a w' h hstep
    exact settles_iff h hstep

/-- A pair and a ring, each deleted at one of its slots. -/
theorem pool_consistent_iff_ring :
    Consistent 5 { free := List.range 5 } ∧
        Along step (Settles 5) { free := List.range 5 }
          [.add 3 true, .add 4 true, .pair 0 1, .add 5 true, .add 6 true, .add 7 true,
            .ring 2 4 3, .del 1, .del 3] ↔
      Meets step Registers { free := List.range 5 }
        [.add 3 true, .add 4 true, .pair 0 1, .add 5 true, .add 6 true, .add 7 true,
          .ring 2 4 3, .del 1, .del 3] :=
  pool_consistent_iff ⟨rfl, rfl, fun _ => rfl⟩ (Option.some_get (by decide)).symm

/-- `epoll_ctl` refuses the first descriptor. -/
theorem failed_registration :
    Init 1 { free := List.range 1 } ∧
      ∃ w, run step { free := List.range 1 } [.add 5 false] = some w ∧ ¬ Consistent 1 w := by
  have hinit : Init 1 { free := List.range 1 } := ⟨rfl, rfl, fun _ => rfl⟩
  exact ⟨hinit, _, rfl, addEvent_failed hinit.consistent (by decide) (by decide)⟩

end PoolRuns
