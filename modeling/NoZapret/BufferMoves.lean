import NoZapret.BufferOwners

/-!
# Buffers between slots and the pool

What the operations of the pool do to the owners of the buffers: a slot takes a buffer, gives it
back, comes into use or is deleted with the slots that its pair leads to.
-/

namespace BufferMoves

open Buffers BufferOwners Resources
open Pool hiding Buffer delEvent delEventFrom addEvent
open Closing (free_not_used)
open PoolRuns (Deletes Released Freed NoStray addEvent_added deletes_released
  unpair_remove_pair)

/-- Between two calls: the pool's stack and the slots in use share what has been handed out. -/
structure Inv (x y : Option Nat) (st : State) : Prop where
  store : OneOwner st
  net : Net x y st.w st.slots

section Delete

variable {w w' : World} {st : State} {u v p q : Nat} {l free : List Nat} {x : Option Nat}

/-- Pairs get fewer, and those between slots that stay are kept. -/
structure Parted (w : World) (l : List Nat) (w' : World) : Prop where
  fewer : ∀ u q, (w'.items u).pair = some q → (w.items u).pair = some q
  gone : ∀ u ∈ l, (w'.items u).pair = none
  kept : ∀ u q, u ∉ l → q ∉ l → (w.items u).pair = some q → (w'.items u).pair = some q

lemma deletes_parted (h : Deletes w v l w') : Parted w l w' := by
  induction h with
  | released hfd => exact ⟨fun _ _ hq => hq, nofun, fun _ _ _ _ hq => hq⟩
  | @single w v hfd hpair =>
    have hr := remove_removed w v
    refine ⟨?_, ?_, ?_⟩
    · intro u q hq
      rwa [hr.pair] at hq
    · intro u hu
      rw [hr.pair, List.mem_singleton.mp hu, hpair]
    · intro u q _ _ hq
      rwa [hr.pair]
  | @paired w w' v p l hfd hpair hrest ih =>
    have hr := remove_removed w v
    have hup := unpair_unpaired (remove w v) v p
    refine ⟨?_, ?_, ?_⟩
    · intro u q hq
      have hmid := hup.pair u q (ih.fewer u q hq)
      rwa [hr.pair] at hmid
    · intro u hu
      rcases List.mem_cons.mp hu with rfl | hu
      · cases hafter : (w'.items u).pair with
        | none => rfl
        | some q =>
          have hmid := ih.fewer u q hafter
          simp [unpair] at hmid
      · exact ih.gone u hu
    · intro u q hu hq hpu
      rw [List.mem_cons, not_or] at hu hq
      exact ih.kept u q hu.2 hq.2 (unpair_remove_pair hu.1 hpu hq.1)

lemma buffPush_setWorld (st : State) (i : Nat) (w : World) :
    buffPush (st.setWorld w) i = (buffPush st i).setWorld w := by
  unfold buffPush
  by_cases hfull : maxBuffInp ≤ st.buffCount
  · rw [if_pos hfull]
    exact if_pos hfull
  · rw [if_neg hfull]
    exact if_neg hfull

lemma release_setWorld (st : State) (v : Nat) (w : World) :
    release (st.setWorld w) v = (release st v).setWorld w := by
  have hdrop : dropBuff (st.setWorld w) v = (dropBuff st v).setWorld w := by
    unfold dropBuff
    rw [show (st.setWorld w).slots = st.slots from rfl]
    cases (st.slots v).buff with
    | none => rfl
    | some i =>
      simp only [buffPush_setWorld]
      rfl
  unfold release
  rw [hdrop]
  unfold freeFirstReq
  rw [show ((dropBuff st v).setWorld w).slots = (dropBuff st v).slots from rfl]
  cases ((dropBuff st v).slots v).sqBuff with
  | none => rfl
  | some i =>
    simp only [buffPush_setWorld]
    rfl

lemma releases_setWorld (l : List Nat) (st : State) (w : World) :
    l.foldl release (st.setWorld w) = (l.foldl release st).setWorld w := by
  induction l generalizing st with
  | nil => rfl
  | cons v l ih => rw [List.foldl_cons, List.foldl_cons, release_setWorld, ih]

/-- The slots of a deletion give back their buffers one after another. -/
lemma delEventFrom_eq (h : Deletes w v l w') (hw : st.w = w) (k : Nat) :
    delEventFrom (l.length + 1 + k) st v = (l.foldl release st).setWorld w' := by
  induction h generalizing st with
  | released hfd =>
    subst hw
    rw [Nat.add_right_comm]
    simp only [delEventFrom, hfd, if_true]
    rfl
  | single hfd hpair =>
    subst hw
    rw [Nat.add_right_comm]
    simp only [delEventFrom, hfd, if_false, hpair]
    rfl
  | @paired w w' v p l hfd hpair hrest ih =>
    subst hw
    have hnext : delEventFrom (l.length + 1 + k)
        ((release st v).setWorld (unpair (remove st.w v) v p)) p =
          (l.foldl release ((release st v).setWorld (unpair (remove st.w v) v p))).setWorld w' :=
      ih rfl
    rw [releases_setWorld] at hnext
    rw [Nat.add_right_comm, List.length_cons]
    simp only [delEventFrom, hfd, if_false, hpair]
    exact hnext

lemma delEvent_eq (h : Deletes st.w v l w') (hn : NoStray st.w v) (hl : Released st.w v l w') :
    delEvent st v = (l.foldl release st).setWorld w' := by
  have hlength := hl.length_le hn
  obtain ⟨k, hk⟩ := Nat.exists_eq_add_of_le
    (show l.length + 1 ≤ st.w.used.length + st.w.free.length + 1 by omega)
  unfold delEvent
  rw [hk]
  exact delEventFrom_eq h rfl k

/-- A slot without its buffers -/
def emptied (s : Slot) : Slot := { s with buff := none, sqBuff := none }

@[simp] lemma buffPush_slots (st : State) (i : Nat) : (buffPush st i).slots = st.slots := by
  unfold buffPush
  split <;> rfl

@[simp] lemma buffPush_w (st : State) (i : Nat) : (buffPush st i).w = st.w := by
  unfold buffPush
  split <;> rfl

lemma buffPush_setSlot (st : State) (i v : Nat) (s : Slot) :
    buffPush (st.setSlot v s) i = (buffPush st i).setSlot v s := by
  unfold buffPush
  by_cases hfull : maxBuffInp ≤ st.buffCount
  · rw [if_pos hfull]
    exact if_pos hfull
  · rw [if_neg hfull]
    exact if_neg hfull

@[simp] lemma dropBuff_w (st : State) (v : Nat) : (dropBuff st v).w = st.w := by
  unfold dropBuff
  split
  · rfl
  · exact buffPush_w st _

@[simp] lemma freeFirstReq_w (st : State) (v : Nat) : (freeFirstReq st v).w = st.w := by
  unfold freeFirstReq
  split
  · rfl
  · exact buffPush_w st _

lemma dropBuff_slots (st : State) (v : Nat) :
    (dropBuff st v).slots = Function.update st.slots v { st.slots v with buff := none } := by
  unfold dropBuff
  split
  · rename_i hnone
    have hsame : { st.slots v with buff := none } = st.slots v := by
      rw [← hnone]
    rw [hsame, Function.update_eq_self]
  · change Function.update (buffPush st _).slots v { (buffPush st _).slots v with buff := none } = _
    rw [buffPush_slots]

lemma freeFirstReq_slots (st : State) (v : Nat) :
    (freeFirstReq st v).slots = Function.update st.slots v { st.slots v with sqBuff := none } := by
  unfold freeFirstReq
  split
  · rename_i hnone
    have hsame : { st.slots v with sqBuff := none } = st.slots v := by
      rw [← hnone]
    rw [hsame, Function.update_eq_self]
  · change Function.update (buffPush st _).slots v { (buffPush st _).slots v with sqBuff := none } = _
    rw [buffPush_slots]

lemma release_slots (st : State) (v : Nat) :
    (release st v).slots = Function.update st.slots v (emptied (st.slots v)) := by
  unfold release
  rw [freeFirstReq_slots, dropBuff_slots, Function.update_self, Function.update_idem]
  rfl

lemma releases_slots (l : List Nat) (st : State) (u : Nat) :
    (l.foldl release st).slots u = if u ∈ l then emptied (st.slots u) else st.slots u := by
  induction l generalizing st with
  | nil => rfl
  | cons v l ih =>
    rw [List.foldl_cons, ih, release_slots]
    by_cases huv : u = v
    · subst huv
      simp [emptied]
    · simp [huv]

/-- A slot in use gives its buffer back. -/
lemma oneOwner_dropBuff (h : OneOwner st) (hnodup : st.w.used.Nodup) (hv : v ∈ st.w.used) :
    OneOwner (dropBuff st v) := by
  unfold dropBuff
  cases hbuff : (st.slots v).buff with
  | none => exact h
  | some i =>
    obtain ⟨free, hstore⟩ := h
    have hperm : ([] ++ held (st.slots v)).Perm
        ([i] ++ held { st.slots v with buff := none }) := by
      simp [held, hbuff]
    have hpushed := (hstore.setSlot hnodup hv hperm).push.1
    rw [buffPush_setSlot] at hpushed
    change OneOwner ((buffPush st i).setSlot v { (buffPush st i).slots v with buff := none })
    rw [buffPush_slots]
    exact hpushed

lemma oneOwner_freeFirstReq (h : OneOwner st) (hnodup : st.w.used.Nodup) (hv : v ∈ st.w.used) :
    OneOwner (freeFirstReq st v) := by
  unfold freeFirstReq
  cases hbuff : (st.slots v).sqBuff with
  | none => exact h
  | some i =>
    obtain ⟨free, hstore⟩ := h
    have hperm : ([] ++ held (st.slots v)).Perm
        ([i] ++ held { st.slots v with sqBuff := none }) := by
      simp only [held, hbuff, Option.toList_some, Option.toList_none, List.append_nil,
        List.nil_append]
      exact List.perm_append_comm
    have hpushed := (hstore.setSlot hnodup hv hperm).push.1
    rw [buffPush_setSlot] at hpushed
    change OneOwner ((buffPush st i).setSlot v { (buffPush st i).slots v with sqBuff := none })
    rw [buffPush_slots]
    exact hpushed

lemma oneOwner_releases (hl : ∀ u ∈ l, u ∈ st.w.used) (h : OneOwner st)
    (hnodup : st.w.used.Nodup) :
    OneOwner (l.foldl release st) ∧ (l.foldl release st).w = st.w := by
  induction l generalizing st with
  | nil => exact ⟨h, rfl⟩
  | cons v l ih =>
    have hv := hl v List.mem_cons_self
    have hw : (release st v).w = st.w := by
      unfold release
      rw [freeFirstReq_w, dropBuff_w]
    have hreleased : OneOwner (release st v) := by
      refine oneOwner_freeFirstReq (oneOwner_dropBuff h hnodup hv) ?_ ?_
      · rwa [dropBuff_w]
      · rwa [dropBuff_w]
    have hrest : ∀ u ∈ l, u ∈ (release st v).w.used := by
      intro u hu
      rw [hw]
      exact hl u (List.mem_cons_of_mem v hu)
    obtain ⟨hone, hworld⟩ := ih hrest hreleased (hw ▸ hnodup)
    exact ⟨hone, hworld.trans hw⟩

/-- Slots that hold nothing leave the ones in use. -/
lemma owners_freed (hf : Freed st.w l w') (hs : Sound st.w) (hempty : ∀ u ∈ l, held (st.slots u) = []) :
    (owners st).Perm (owners (st.setWorld w')) := by
  have hnodup := (List.nodup_append.mp hs.nodup).1
  have hused : w'.used.Perm (st.w.used.filter fun u => decide (u ∉ l)) := by
    refine (List.perm_ext_iff_of_nodup (List.nodup_append.mp hf.sound.nodup).1
      (hnodup.filter _)).mpr ?_
    intro u
    rw [hf.used, List.mem_filter, decide_eq_true_eq]
  have hgone : ((st.w.used.filter fun u => !decide (u ∉ l)).flatMap fun u => held (st.slots u)) =
      [] := by
    rw [List.flatMap_eq_nil_iff]
    intro u hu
    exact hempty u (by simpa using (List.mem_filter.mp hu).2)
  have hsplit := (List.filter_append_perm (fun u => decide (u ∉ l)) st.w.used).flatMap_right
    fun u => held (st.slots u)
  rw [List.flatMap_append, hgone, List.append_nil] at hsplit
  exact hsplit.symm.trans (hused.flatMap_right _).symm

lemma oneOwner_setWorld (h : OneOwner st) (howners : (owners st).Perm (owners (st.setWorld w))) :
    OneOwner (st.setWorld w) := by
  obtain ⟨free, hstack, hcount, hbound, hclean, howned⟩ := h
  exact ⟨free, hstack, hcount, hbound, hclean, howned.perm (howners.append_left _)⟩

lemma emptied_held (s : Slot) : held (emptied s) = [] := rfl

/-- The pair of a slot that stays and leads back to it stays as well. -/
lemma pair_stays (hr : Released w v l w') (hp : Parted w l w') (hu : u ∉ l)
    (hfd : (w.items u).fd ≠ -1) (hq : (w.items q).fd ≠ -1) (hback : (w.items q).pair = some u) :
    q ∉ l ∧ (w'.items q).pair = some u := by
  have hql : q ∉ l := by
    intro hql
    have hreach := ((hr.slots q).mp hql).2
    exact hu ((hr.slots u).mpr ⟨hfd, hreach.tail ⟨hq, hback⟩⟩)
  exact ⟨hql, hp.kept q u hql hu hback⟩

lemma net_freed {slots slots' : Nat → Slot} (h : Net x none w slots) (hf : Freed w l w')
    (hr : Released w v l w') (hp : Parted w l w')
    (hslots : ∀ u, slots' u = if u ∈ l then emptied (slots u) else slots u) :
    Net x none w' slots' := by
  have hstays : ∀ u ∈ w'.used, u ∈ w.used ∧ u ∉ l ∧ slots' u = slots u := by
    intro u hu
    obtain ⟨hold, hul⟩ := (hf.used u).mp hu
    exact ⟨hold, hul, by rw [hslots, if_neg hul]⟩
  have hcb : ∀ u, (slots' u).cb = (slots u).cb ∧ (slots' u).conn = (slots u).conn := by
    intro u
    rw [hslots]
    split <;> exact ⟨rfl, rfl⟩
  have hlive : ∀ u q, (w.items u).pair = some q → (w.items u).fd ≠ -1 :=
    fun u q hq => h.live u (h.used_of_pair hq)
  refine ⟨hf.sound, ?_, ?_, ?_, ?_, ?_, ?_, ?_, ?_⟩
  · intro u hu
    obtain ⟨hold, hul, -⟩ := hstays u hu
    rw [hr.fd, if_neg hul]
    exact h.live u hold
  · intro u hu
    by_cases hul : u ∈ l
    · rw [hslots, if_pos hul]
      exact ⟨hp.gone u hul, rfl⟩
    · have hold := h.unused u fun hold => hu ((hf.used u).mpr ⟨hold, hul⟩)
      refine ⟨?_, by rw [hslots, if_neg hul]; exact hold.2⟩
      cases hafter : (w'.items u).pair with
      | none => rfl
      | some q => cases hold.1.symm.trans (hp.fewer u q hafter)
  · intro u hq
    exact h.selfless u (hp.fewer u u hq)
  · intro u hu hx
    obtain ⟨hold, -, hsame⟩ := hstays u hu
    rw [hsame]
    exact h.fits u hold hx
  · intro u hu
    obtain ⟨hold, -, hsame⟩ := hstays u hu
    rw [hsame]
    exact h.waiting u hold
  · intro u hu hdials hne
    obtain ⟨hold, -, hsame⟩ := hstays u hu
    rw [hsame] at hdials ⊢
    obtain ⟨q, hq⟩ := Option.ne_none_iff_exists'.mp hne
    exact h.dialing u hold hdials (by simp [hp.fewer u q hq])
  · intro r hused _ hconn hudp c hc
    obtain ⟨hold, hrl, hsame⟩ := hstays r hused
    rw [hsame] at hconn hudp
    obtain ⟨h1, h2, h3⟩ := h.serves r hold nofun hconn hudp c (hp.fewer r c hc)
    refine ⟨by rw [(hcb c).2]; exact h1, by rw [(hcb c).1]; exact h2, ?_⟩
    exact (pair_stays hr hp hrl (h.live r hold) (hlive c r h3) h3).2
  · intro a hused _ htunnel q hq
    obtain ⟨hold, hal, hsame⟩ := hstays a hused
    rw [hsame] at htunnel
    obtain ⟨h1, h2, h3⟩ := h.tunnels a hold nofun htunnel q (hp.fewer a q hq)
    refine ⟨?_, by rw [(hcb q).1]; exact h2, by rw [(hcb a).2, (hcb q).2]; exact h3⟩
    exact (pair_stays hr hp hal (h.live a hold) (hlive q a h1) h1).2

lemma inv_delEvent (h : Inv x none st) (hn : NoStray st.w v) :
    Inv x none (delEvent st v) ∧ v ∉ (delEvent st v).w.used ∧
      (∀ u, ((delEvent st v).slots u).cb = (st.slots u).cb) ∧
      ((st.w.items v).pair = none → ∀ u, u ≠ v → (delEvent st v).slots u = st.slots u) := by
  have hs := h.net.sound
  have hnodup := (List.nodup_append.mp hs.nodup).1
  obtain ⟨l, w', hdel, hf, hr⟩ := deletes_released hs hn
  have hslots := releases_slots l st
  rw [delEvent_eq hdel hn hr]
  have hl : ∀ u ∈ l, u ∈ st.w.used := by
    intro u hu
    obtain ⟨hlive, hreach⟩ := (hr.slots u).mp hu
    exact hn u hreach hlive
  obtain ⟨hone, hw⟩ := oneOwner_releases hl h.store hnodup
  refine ⟨⟨?_, net_freed h.net hf hr (deletes_parted hdel) hslots⟩, ?_, ?_, ?_⟩
  · refine oneOwner_setWorld hone (owners_freed (hw ▸ hf) (hw ▸ hs) ?_)
    intro u hu
    rw [hslots, if_pos hu, emptied_held]
  · intro hv
    obtain ⟨hold, hvl⟩ := (hf.used v).mp hv
    exact hvl ((hr.slots v).mpr ⟨h.net.live v hold, .refl⟩)
  · intro u
    change ((l.foldl release st).slots u).cb = _
    rw [hslots]
    split <;> rfl
  · intro hnone u huv
    refine (hslots u).trans (if_neg ?_)
    intro hul
    obtain ⟨-, hreach⟩ := (hr.slots u).mp hul
    obtain rfl | ⟨p, hlink, -⟩ := hreach.cases_head
    · exact huv rfl
    · cases hnone.symm.trans hlink.2

/-- A slot without a pair is deleted alone. -/
lemma noStray_unpaired (hv : v ∈ w.used) (hnone : (w.items v).pair = none) : NoStray w v := by
  intro u hreach _
  obtain rfl | ⟨p, hlink, -⟩ := hreach.cases_head
  · exact hv
  · cases hnone.symm.trans hlink.2

end Delete

section Moves

variable {w' : World} {st st' : State} {x y : Option Nat} {v p i size : Nat} {a : Option Nat}
  {s : Slot} {cb : Cb} {fd : Int} {ok : Bool}

lemma oneOwner_length (h : OneOwner st) :
    (st.heap.held.length : Int) = st.buffCount + (owners st).length := by
  obtain ⟨free, hstore⟩ := h
  have hlength := hstore.owned.held.length_eq
  rw [List.nil_append, List.length_append] at hlength
  rw [hstore.count, hlength]
  exact Int.natCast_add _ _

/-- The same slots in use hold the same. -/
lemma oneOwner_congr (h : OneOwner st) (hused : st'.w.used = st.w.used)
    (hheld : ∀ u ∈ st.w.used, held (st'.slots u) = held (st.slots u))
    (hbuffers : st'.buffers = st.buffers) (hroot : st'.rootBuff = st.rootBuff)
    (hcount : st'.buffCount = st.buffCount) (hheap : st'.heap = st.heap) : OneOwner st' := by
  obtain ⟨free, hstore⟩ := h
  exact ⟨free, hstore.congr (owners_congr hused hheld) hbuffers hroot hcount hheap⟩

lemma Inv.nodup (h : Inv x y st) : st.w.used.Nodup := (List.nodup_append.mp h.net.sound.nodup).1

lemma Inv.weaken (h : Inv none y st) (x : Option Nat) : Inv x y st := ⟨h.store, h.net.weaken x⟩

lemma Inv.exempt (h : Inv x none st) (y : Option Nat) : Inv x y st := ⟨h.store, h.net.exempt y⟩

lemma Inv.mark (h : Inv x y st) (failed : Option Nat) : Inv x y { st with failed := failed } :=
  ⟨oneOwner_congr h.store rfl (fun _ _ => rfl) rfl rfl rfl rfl, h.net⟩

lemma Inv.settle (h : Inv (some v) y st) (hfits : Fits (st.slots v)) : Inv none y st :=
  ⟨h.store, h.net.settle hfits⟩

lemma Inv.used_of_held (h : Inv x y st) (hi : i ∈ held (st.slots v)) : v ∈ st.w.used := by
  by_contra hv
  rw [(h.net.unused v hv).2] at hi
  cases hi

lemma mem_held_buff (h : (st.slots v).buff = some i) : i ∈ held (st.slots v) := by
  simp [held, h]

lemma mem_held_sqBuff (h : (st.slots v).sqBuff = some i) : i ∈ held (st.slots v) := by
  simp [held, h]

/-- Descriptors are opened and closed. -/
lemma Inv.setWorld (h : Inv x y st) (hitems : w'.items = st.w.items) (hused : w'.used = st.w.used)
    (hfree : w'.free = st.w.free) : Inv x y (st.setWorld w') :=
  ⟨oneOwner_congr h.store hused (fun _ _ => rfl) rfl rfl rfl rfl, h.net.congr hitems hused hfree⟩

/-- A buffer that a slot holds is written. -/
lemma Inv.write (h : Inv x y st) (hi : i ∈ held (st.slots v)) (b : Buffers.Buffer) :
    Inv x y (st.setBuffer i b) := by
  obtain ⟨free, hstore⟩ := h.store
  have howned : i ∈ owners st := List.mem_flatMap.mpr ⟨v, h.used_of_held hi, hi⟩
  exact ⟨⟨free, hstore.setBuffer (hstore.not_free (List.mem_append_right _ howned)) b⟩, h.net⟩

/-- A slot in use gets other counters. -/
lemma Inv.count (h : Inv x y st) (hv : v ∈ st.w.used) (n : Nat) :
    Inv x y (st.setSlot v { st.slots v with recvCount := n }) := by
  refine ⟨oneOwner_congr h.store rfl ?_ rfl rfl rfl rfl, h.net.hold hv rfl rfl ?_⟩
  · intro u _
    by_cases huv : u = v
    · subst huv
      simp [State.setSlot, held]
    · simp [State.setSlot, huv]
  · intro hx
    have hfits := h.net.fits v hv hx
    exact ⟨hfits.request, hfits.recv⟩

/-- A slot in use takes a buffer from the pool. -/
lemma Inv.take (h : Inv x y st) (hpop : buffPop st size a = some (i, st')) (hv : v ∈ st.w.used)
    (hs : (held s).Perm (i :: held (st.slots v))) (hcb : s.cb = (st.slots v).cb)
    (hconn : s.conn = (st.slots v).conn) (hfits : some v ≠ x → Fits s) :
    Inv x y (st'.setSlot v s) := by
  obtain ⟨free, hstore⟩ := h.store
  obtain ⟨⟨free', hstore'⟩, hslots, hw⟩ := hstore.pop hpop
  have hnet := h.net.hold hv hcb hconn hfits
  refine ⟨⟨free', hstore'.setSlot (hw ▸ h.nodup) (hw ▸ hv) ?_⟩, ?_⟩
  · rw [hslots]
    exact hs.symm
  · change Net x y st'.w (Function.update st'.slots v s)
    rw [hslots, hw]
    exact hnet

/-- A slot that waits for no request takes a buffer. -/
lemma Inv.takeBuff (h : Inv x y st) (hpop : buffPop st size a = some (i, st')) (hv : v ∈ st.w.used)
    (hnone : (st.slots v).buff = none) (hwaits : some v ≠ x → ¬ Cb.waits (st.slots v).cb) :
    Inv x y (st'.setBuff v (some i)) ∧ (st'.setBuff v (some i)).w = st.w ∧
      (st'.setBuff v (some i)).slots =
        Function.update st.slots v { st.slots v with buff := some i } := by
  obtain ⟨free, hstore⟩ := h.store
  obtain ⟨-, hslots, hw⟩ := hstore.pop hpop
  refine ⟨h.take hpop hv ?_ ?_ ?_ ?_, hw, ?_⟩
  · simp [held, hslots, hnone]
  · rw [hslots]
  · rw [hslots]
  · intro hx
    rw [hslots]
    exact ⟨fun hno => absurd (.inl hno) (hwaits hx), fun hno => absurd (.inr hno) (hwaits hx)⟩
  · simp only [State.setBuff, State.setSlot, hslots]

/-- It takes one for a saved request. -/
lemma Inv.takeSqBuff (h : Inv x y st) (hpop : buffPop st size a = some (i, st'))
    (hv : v ∈ st.w.used) (hnone : (st.slots v).sqBuff = none)
    (hfits : some v ≠ x → (st.slots v).cb ≠ .request) :
    Inv x y (st'.setSqBuff v (some i)) ∧ (st'.setSqBuff v (some i)).w = st.w ∧
      (st'.setSqBuff v (some i)).slots =
        Function.update st.slots v { st.slots v with sqBuff := some i } := by
  obtain ⟨free, hstore⟩ := h.store
  obtain ⟨-, hslots, hw⟩ := hstore.pop hpop
  refine ⟨h.take hpop hv ?_ ?_ ?_ ?_, hw, ?_⟩
  · simp only [held, hslots, hnone, Option.toList_some, Option.toList_none, List.append_nil]
    exact List.perm_append_comm
  · rw [hslots]
  · rw [hslots]
  · intro hx
    rw [hslots]
    exact ⟨fun hno => absurd hno (hfits hx), (h.net.fits v hv hx).recv⟩
  · simp only [State.setSqBuff, State.setSlot, hslots]

/-- `buff_ppop` -/
lemma Inv.ppop (h : Inv x y st) (hpop : buffPop st size a = some (i, st')) :
    Inv x y (buffPush st' i) ∧ (buffPush st' i).slots = st.slots ∧ (buffPush st' i).w = st.w := by
  obtain ⟨free, hstore⟩ := h.store
  obtain ⟨⟨free', hstore'⟩, hslots, hw⟩ := hstore.pop hpop
  have hslots' : (buffPush st' i).slots = st.slots := (buffPush_slots st' i).trans hslots
  have hw' : (buffPush st' i).w = st.w := (buffPush_w st' i).trans hw
  refine ⟨⟨hstore'.push.1, ?_⟩, hslots', hw'⟩
  rw [hslots', hw']
  exact h.net

lemma Inv.dropBuff (h : Inv x y st) (v : Nat) : Inv x y (dropBuff st v) := by
  cases hbuff : (st.slots v).buff with
  | none =>
    unfold Buffers.dropBuff
    rw [hbuff]
    exact h
  | some i =>
    have hv := h.used_of_held (mem_held_buff hbuff)
    refine ⟨oneOwner_dropBuff h.store h.nodup hv, ?_⟩
    rw [dropBuff_slots, dropBuff_w]
    refine h.net.hold hv rfl rfl ?_
    intro hx
    have hfits := h.net.fits v hv hx
    refine ⟨?_, fun _ => rfl⟩
    intro hcb
    have hempty := hfits.request hcb
    simp [held, hbuff] at hempty

lemma Inv.freeFirstReq (h : Inv x y st) (v : Nat) : Inv x y (freeFirstReq st v) := by
  cases hbuff : (st.slots v).sqBuff with
  | none =>
    unfold Buffers.freeFirstReq
    rw [hbuff]
    exact h
  | some i =>
    have hv := h.used_of_held (mem_held_sqBuff hbuff)
    refine ⟨oneOwner_freeFirstReq h.store h.nodup hv, ?_⟩
    rw [freeFirstReq_slots, freeFirstReq_w]
    refine h.net.hold hv rfl rfl ?_
    intro hx
    have hfits := h.net.fits v hv hx
    refine ⟨?_, hfits.recv⟩
    intro hcb
    have hempty := hfits.request hcb
    simp [held, hbuff] at hempty

/-- The slots in use stay, with their pairs. -/
structure Grown (st st' : State) : Prop where
  used : ∀ u ∈ st.w.used, u ∈ st'.w.used
  slots : ∀ u ∈ st.w.used, st'.slots u = st.slots u
  pair : ∀ u ∈ st.w.used, (st'.w.items u).pair = (st.w.items u).pair
  paired : ∀ u q, u ∈ st'.w.used → (st'.w.items u).pair = some q → u ∈ st.w.used

lemma Grown.trans {st'' : State} (h : Grown st st') (h' : Grown st' st'') : Grown st st'' where
  used u hu := h'.used u (h.used u hu)
  slots u hu := (h'.slots u (h.used u hu)).trans (h.slots u hu)
  pair u hu := (h'.pair u (h.used u hu)).trans (h.pair u hu)
  paired u q hu hq := by
    have hmid := h'.paired u q hu hq
    rw [h'.pair u hmid] at hq
    exact h.paired u q hmid hq

/-- Descriptors are opened and closed. -/
lemma grown_setWorld (hitems : w'.items = st.w.items) (hused : w'.used = st.w.used) :
    Grown st (st.setWorld w') := by
  refine ⟨?_, fun _ _ => rfl, ?_, ?_⟩
  · intro u hu
    exact hused.symm ▸ hu
  · intro u _
    exact congrArg (fun items => (items u).pair) hitems
  · intro u q hu _
    exact hused ▸ hu

/-- A slot that has come into use. -/
structure Fresh (st st' : State) (cb : Cb) (p : Nat) : Prop where
  was : p ∉ st.w.used
  used : p ∈ st'.w.used
  slot : st'.slots p = { cb := cb }
  pair : (st'.w.items p).pair = none

lemma pool_addEvent_used {free : List Nat} (hfree : st.w.free = p :: free) :
    (Pool.addEvent st.w fd ok).2.used = if ok then st.w.used ++ [p] else st.w.used := by
  cases ok <;> simp [Pool.addEvent, hfree, World.setItem]

lemma Inv.addEvent (h : Inv x y st) (hfd : 0 < fd) (cb : Cb) (ok : Bool) :
    Inv x y (addEvent st cb fd ok).2 ∧ Grown st (addEvent st cb fd ok).2 ∧
      (∀ u, ((addEvent st cb fd ok).2.slots u).cb = .udpTunnel →
        (st.slots u).cb = .udpTunnel ∨ cb = .udpTunnel) ∧
      ∀ p, (addEvent st cb fd ok).1 = some p → Fresh st (addEvent st cb fd ok).2 cb p := by
  unfold Buffers.addEvent
  cases hfree : st.w.free with
  | nil =>
    have hsame : Pool.addEvent st.w fd ok = (none, st.w) := by
      simp [Pool.addEvent, hfree]
    simp only [hsame]
    exact ⟨h, ⟨fun _ hu => hu, fun _ _ => rfl, fun _ _ => rfl, fun _ _ hu _ => hu⟩,
      fun _ hu => .inl hu, fun _ hp => by cases hp⟩
  | cons q free =>
    have hq := free_not_used h.net.sound hfree
    have hadded := addEvent_added h.net.sound hfree fd ok
    have hused : (Pool.addEvent st.w fd ok).2.used =
        if ok then st.w.used ++ [q] else st.w.used := pool_addEvent_used hfree
    have hself : Function.update st.slots q { cb := cb } q = { cb := cb } :=
      Function.update_self _ _ _
    have hother : ∀ u ∈ st.w.used, Function.update st.slots q { cb := cb } u = st.slots u := by
      intro u hu
      refine Function.update_of_ne ?_ _ _
      rintro rfl
      exact hq hu
    have hnone : ((Pool.addEvent st.w fd ok).2.items q).pair = none := by
      cases ok <;> simp [Pool.addEvent, hfree]
    refine ⟨⟨?_, h.net.add hfree hfd cb ok⟩, ⟨hadded.kept, hother, ?_, ?_⟩, ?_, ?_⟩
    · obtain ⟨free', hstack, hcount, hbound, hclean, howned⟩ := h.store
      refine ⟨free', hstack, hcount, hbound, hclean, ?_⟩
      have howners : owners ((st.setWorld (Pool.addEvent st.w fd ok).2).setSlot q { cb := cb }) =
          owners st := by
        change ((Pool.addEvent st.w fd ok).2.used.flatMap fun u =>
          held (Function.update st.slots q { cb := cb } u)) = _
        have hsame : (st.w.used.flatMap fun u =>
            held (Function.update st.slots q { cb := cb } u)) = owners st :=
          List.flatMap_congr fun u hu => by rw [hother u hu]
        rw [hused]
        split
        · rw [List.flatMap_append, hsame, List.flatMap_singleton, hself]
          exact List.append_nil _
        · exact hsame
      rw [howners]
      exact howned
    · intro u hu
      have huq : u ≠ q := by
        rintro rfl
        exact hq hu
      exact congrArg Eval.pair (hadded.items u huq)
    · intro u r hu hr
      refine (hadded.used u hu).resolve_right ?_
      rintro rfl
      cases hnone.symm.trans hr
    · intro u hu
      change (Function.update st.slots q { cb := cb } u).cb = _ at hu
      by_cases huq : u = q
      · rw [huq, hself] at hu
        exact .inr hu
      · rw [Function.update_of_ne huq] at hu
        exact .inl hu
    · intro p hp
      cases ok with
      | false => simp [Pool.addEvent, hfree] at hp
      | true =>
        obtain rfl : q = p := by simpa [Pool.addEvent, hfree] using hp
        refine ⟨hq, ?_, hself, hnone⟩
        change q ∈ (Pool.addEvent st.w fd true).2.used
        rw [hused]
        simp

end Moves

end BufferMoves
