import NoZapret.EventLoop
import NoZapret.Library.Timers

/-!
# The queue of timers

`set_timer`, `remove_timer` and what else touches the links of the timers, over whole runs of
the event loop. From `tv_start` to `tv_end` the slots are those that have a timer, in the order
of their deadlines: a queue of timers in the general sense.
-/

namespace TimerQueue

open Pool Links Runs EventLoop
open PoolRuns (PairLink NoStray Freed Released Deletes deletes_released)

/-- The slots from `tv_start` to `tv_end`, one behind the other in both directions. -/
structure Chain (st : State) (l : List Nat) : Prop where
  links : Linked st.tvPrev st.tvNext none l none
  once : l.Nodup
  first : st.tvStart = l.head?
  last : st.tvEnd = l.getLast?
  sorted : l.Pairwise fun u v => st.tvMs u ≤ st.tvMs v

/-- The slots of the chain are those that have a descriptor and a deadline. -/
structure Queue (st : State) (l : List Nat) : Prop extends Chain st l where
  timers : ∀ v, v ∈ l ↔ (st.w.items v).fd ≠ -1 ∧ st.tvMs v ≠ 0
  ends : st.tvStart = none ↔ st.tvEnd = none

/-- The timers for a reader who does not care for links. -/
def timersOf (st : State) (l : List Nat) : List (Timers.Timer Nat) :=
  l.map fun v => ⟨v, st.tvMs v⟩

/-- What the links and deadlines are; a slot that has been filled and is not in the queue has
neither. -/
structure Timed (st : State) (l : List Nat) : Prop extends Chain st l where
  armed : ∀ v ∈ l, st.tvMs v ≠ 0
  idle : ∀ v, .filled v ∈ st.trace → v ∉ l →
    st.tvMs v = 0 ∧ st.tvNext v = none ∧ st.tvPrev v = none

/-- The slots in use have descriptors, and every timer belongs to one of them. -/
structure Seated (st : State) (l : List Nat) : Prop where
  sound : Sound st.w
  live : ∀ v ∈ st.w.used, (st.w.items v).fd ≠ -1
  filled : ∀ v, (st.w.items v).fd ≠ -1 → .filled v ∈ st.trace
  used : ∀ v ∈ l, v ∈ st.w.used

section Remove

variable {st : State} {l xs ys : List Nat} {v : Nat}

lemma Chain.ends (h : Chain st l) : st.tvStart = none ↔ st.tvEnd = none := by
  rw [h.first, h.last, List.head?_eq_none_iff, List.getLast?_eq_none_iff]

lemma Timed.queue (h : Timed st l) (hs : Seated st l) : Queue st l := by
  refine ⟨h.toChain, ?_, h.ends⟩
  intro v
  constructor
  · intro hv
    exact ⟨hs.live v (hs.used v hv), h.armed v hv⟩
  · rintro ⟨hfd, hms⟩
    by_contra hv
    exact hms (h.idle v (hs.filled v hfd) hv).1

lemma timersOf_sorted :
    Timers.Sorted (timersOf st l) ↔ l.Pairwise fun u v => st.tvMs u ≤ st.tvMs v :=
  List.pairwise_map

/-- `remove_timer` on the queue as such. -/
theorem removeTimer_refines (h : l.Nodup) :
    timersOf (removeTimer st v) (l.erase v) = Timers.remove (timersOf st l) v := by
  rw [Timers.remove, timersOf, timersOf, h.erase_eq_filter, List.filter_map]
  refine List.map_congr_left ?_
  intro u hu
  have hne : u ≠ v := by
    simpa using (List.mem_filter.mp hu).2
  simp only [removeTimer, Function.update_of_ne hne]

/-- A slot of the queue leaves it. -/
lemma Chain.remove (h : Chain st (xs ++ v :: ys)) : Chain (removeTimer st v) (xs ++ ys) := by
  have hnodup := h.once
  obtain ⟨hprev, hnext⟩ := h.links.at
  rw [Option.or_none] at hprev hnext
  obtain ⟨hnx, hny, hdisj⟩ := List.nodup_append.mp hnodup
  obtain ⟨hvy, hny⟩ := List.nodup_cons.mp hny
  have hvx : v ∉ xs := fun hv => hdisj v hv v List.mem_cons_self rfl
  have hsub : (xs ++ ys).Sublist (xs ++ v :: ys) := (List.sublist_cons_self v ys).append_left xs
  refine ⟨h.links.remove hnodup, hnodup.sublist hsub, ?_, ?_, ?_⟩
  · change (if st.tvStart = some v then st.tvNext v else st.tvStart) = _
    rw [h.first, hnext]
    cases xs with
    | nil => simp
    | cons x xs =>
      have hne : x ≠ v := fun hxv => hvx (hxv ▸ List.mem_cons_self)
      simp [hne]
  · change (if st.tvEnd = some v then st.tvPrev v else st.tvEnd) = _
    rw [h.last, hprev]
    rcases ys.eq_nil_or_concat with rfl | ⟨zs, y, rfl⟩
    · simp
    · rw [List.concat_eq_append] at *
      have hne : y ≠ v := fun hyv => hvy (by simp [hyv])
      rw [List.getLast?_append_of_ne_nil xs (List.cons_ne_nil v _), ← List.cons_append,
        List.getLast?_concat, if_neg (by simpa using hne), ← List.append_assoc,
        List.getLast?_concat]
  · have hsorted := (timersOf_sorted.mpr h.sorted).remove (s := v)
    rw [← removeTimer_refines hnodup, List.erase_append_right _ hvx, List.erase_cons_head,
      timersOf_sorted] at hsorted
    exact hsorted

/-- A slot that is not in the queue has no links. -/
lemma Timed.remove_idle (h : Timed st l) (hv : v ∉ l) (hf : .filled v ∈ st.trace) :
    removeTimer st v = st := by
  obtain ⟨hms, hnext, hprev⟩ := h.idle v hf hv
  have hstart : st.tvStart ≠ some v := by
    rw [h.first]
    exact fun hhead => hv (List.mem_of_head? hhead)
  have hend : st.tvEnd ≠ some v := by
    rw [h.last]
    exact fun hlast => hv (List.mem_of_getLast? hlast)
  have hupd : ∀ {β : Type} (f : Nat → β) {b : β}, f v = b → Function.update f v b = f := by
    rintro β f b rfl
    exact Function.update_eq_self v f
  simp only [removeTimer, hnext, hprev, patch, if_neg hstart, if_neg hend, hupd st.tvNext hnext,
    hupd st.tvPrev hprev, hupd st.tvMs hms]

lemma Timed.remove (h : Timed st l) (hf : .filled v ∈ st.trace) :
    Timed (removeTimer st v) (l.erase v) := by
  by_cases hv : v ∈ l
  · obtain ⟨xs, ys, rfl⟩ := List.append_of_mem hv
    have hnodup := h.once
    have hvx : v ∉ xs := fun hvx =>
      (List.nodup_append.mp hnodup).2.2 v hvx v List.mem_cons_self rfl
    have herase : (xs ++ v :: ys).erase v = xs ++ ys := by
      rw [List.erase_append_right _ hvx, List.erase_cons_head]
    rw [herase]
    have hchain := h.toChain.remove
    have hne : ∀ u ∈ xs ++ ys, u ≠ v := by
      rintro u hu rfl
      rw [← herase, hnodup.mem_erase_iff] at hu
      exact hu.1 rfl
    refine ⟨hchain, ?_, ?_⟩
    · intro u hu
      have hmem : u ∈ xs ++ v :: ys := by
        rw [List.mem_append, List.mem_cons] at *
        tauto
      simpa only [removeTimer, Function.update_of_ne (hne u hu)] using h.armed u hmem
    · intro u hfu hu
      by_cases huv : u = v
      · subst huv
        simp only [removeTimer, Function.update_self, and_self]
      · have hout : u ∉ xs ++ v :: ys := by
          rw [List.mem_append, List.mem_cons] at *
          tauto
        obtain ⟨hms, hnext, hprev⟩ := h.idle u hfu hout
        obtain ⟨hvprev, hvnext⟩ := h.links.at
        rw [Option.or_none] at hvprev hvnext
        refine ⟨?_, ?_, ?_⟩
        · simpa only [removeTimer, Function.update_of_ne huv] using hms
        · have hp : st.tvPrev v ≠ some u := by
            rw [hvprev]
            exact fun hlast => hout (List.mem_append_left _ (List.mem_of_getLast? hlast))
          simpa only [removeTimer, Function.update_of_ne huv, patch_of_ne hp] using hnext
        · have hn : st.tvNext v ≠ some u := by
            rw [hvnext]
            exact fun hhead => hout (by simp [List.mem_of_head? hhead])
          simpa only [removeTimer, Function.update_of_ne huv, patch_of_ne hn] using hprev
  · rw [List.erase_of_not_mem hv, h.remove_idle hv hf]
    exact h

end Remove

section Set

variable {st st' : State} {l xs ys : List Nat} {v : Nat} {d : Int} {tvMs : Nat → Int}
  {tvPrev tvNext : Nat → Option Nat}

/-- The loop goes back over the slots whose deadlines are no earlier. -/
lemma place_spec {fuel : Nat} (hlinks : Linked tvPrev tvNext none (xs ++ ys) none)
    (hfuel : xs.length ≤ fuel) :
    place tvMs tvPrev d fuel xs.getLast? ys.head? =
      some ((xs.rdropWhile fun u => decide (d ≤ tvMs u)).getLast?,
        ((xs.rtakeWhile fun u => decide (d ≤ tvMs u)) ++ ys).head?) := by
  induction xs using List.reverseRecOn generalizing ys fuel with
  | nil => cases fuel <;> rfl
  | append_singleton xs a ih =>
    rw [List.getLast?_concat]
    by_cases ha : d ≤ tvMs a
    · obtain ⟨fuel, rfl⟩ : ∃ k, fuel = k + 1 := ⟨fuel - 1, by simp at hfuel; omega⟩
      rw [List.append_assoc, List.singleton_append] at hlinks
      have hprev : tvPrev a = xs.getLast? := by
        rw [hlinks.at.1, Option.or_none]
      have hrest := ih hlinks (show xs.length ≤ fuel by simpa using hfuel)
      rw [List.head?_cons] at hrest
      rw [place, if_pos ha, hprev, hrest, List.rdropWhile_concat_pos _ _ _ (by simpa using ha),
        List.rtakeWhile_concat_pos _ _ _ (by simpa using ha), List.append_assoc,
        List.singleton_append]
    · rw [place.eq_def]
      simp only [if_neg ha]
      rw [List.rdropWhile_concat_neg _ _ _ (by simpa using ha),
        List.rtakeWhile_concat_neg _ _ _ (by simpa using ha), List.getLast?_concat,
        List.nil_append]

/-- A slot that is not in the queue comes into it. -/
lemma Chain.link (h : Chain st (xs ++ ys)) (hv : v ∉ xs ++ ys) (hsorted :
      (xs ++ v :: ys).Pairwise fun u u' => st.tvMs u ≤ st.tvMs u') :
    Chain (link st v xs.getLast? ys.head?) (xs ++ v :: ys) := by
  rw [List.mem_append, not_or] at hv
  have hnodup : (xs ++ v :: ys).Nodup := by
    have hperm : (v :: (xs ++ ys)).Perm (xs ++ v :: ys) := List.perm_middle.symm
    rw [← hperm.nodup_iff, List.nodup_cons, List.mem_append, not_or]
    exact ⟨hv, h.once⟩
  have hdisj := (List.nodup_append.mp h.once).2.2
  refine ⟨h.links.insert hnodup, hnodup, ?_, ?_, hsorted⟩
  · change (if st.tvStart = none ∨ ys.head? = st.tvStart then some v else st.tvStart) = _
    rw [h.first]
    cases xs with
    | nil => simp
    | cons x xs =>
      have hne : ys.head? ≠ some x := by
        intro hhead
        exact hdisj x List.mem_cons_self x (List.mem_of_head? hhead) rfl
      simp [hne]
  · change (if st.tvEnd = none ∨ xs.getLast? = st.tvEnd then some v else st.tvEnd) = _
    rw [h.last]
    rcases ys.eq_nil_or_concat with rfl | ⟨zs, y, rfl⟩
    · simp
    · rw [List.concat_eq_append] at *
      have hne : xs.getLast? ≠ some y := by
        intro hlast
        exact hdisj y (List.mem_of_getLast? hlast) y (by simp) rfl
      rw [← List.append_assoc, List.getLast?_concat, if_neg, ← List.cons_append,
        ← List.append_assoc, List.getLast?_concat]
      rw [not_or]
      exact ⟨Option.some_ne_none y, hne⟩

lemma rdropWhile_map {α β : Type} (f : α → β) (p : β → Bool) (l : List α) :
    (l.map f).rdropWhile p = (l.rdropWhile (p ∘ f)).map f := by
  simp only [List.rdropWhile, ← List.map_reverse, List.dropWhile_map]

lemma rtakeWhile_map {α β : Type} (f : α → β) (p : β → Bool) (l : List α) :
    (l.map f).rtakeWhile p = (l.rtakeWhile (p ∘ f)).map f := by
  simp only [List.rtakeWhile, ← List.map_reverse, List.takeWhile_map]

/-- Where `set_timer` puts a slot that has no timer yet is where a queue of timers has it. -/
lemma timersOf_insert (st : State) (d : Int) (hv : v ∉ l) :
    timersOf { st with tvMs := Function.update st.tvMs v d }
        ((l.rdropWhile fun u => decide (d ≤ Function.update st.tvMs v d u)) ++
          v :: l.rtakeWhile fun u => decide (d ≤ Function.update st.tvMs v d u)) =
      Timers.set (timersOf st l) v d := by
  have hsame : timersOf st l = l.map fun u => ⟨u, Function.update st.tvMs v d u⟩ := by
    refine List.map_congr_left ?_
    intro u hu
    have hne : u ≠ v := fun huv => hv (huv ▸ hu)
    rw [Function.update_of_ne hne]
  have hnone : ¬ (timersOf st l).any (fun t => t.slot == v) = true := by
    simpa [timersOf] using hv
  rw [Timers.set, if_neg hnone, hsame, rdropWhile_map, rtakeWhile_map, timersOf, List.map_append,
    List.map_cons]
  simp only [Function.update_self]
  rfl

/-- A deadline for a slot that is not in the queue. -/
lemma Chain.arm (h : Chain st l) (hv : v ∉ l) :
    Chain { st with tvMs := Function.update st.tvMs v d } l := by
  refine ⟨h.links, h.once, h.first, h.last, h.sorted.imp_of_mem ?_⟩
  intro a b ha hb hab
  have hav : a ≠ v := fun hav => hv (hav ▸ ha)
  have hbv : b ≠ v := fun hbv => hv (hbv ▸ hb)
  simpa only [Function.update_of_ne hav, Function.update_of_ne hbv] using hab

/-- The loop ends, since no slot is in the queue twice. -/
lemma place_queue (h : Chain st l) (hused : ∀ u ∈ l, u ∈ st.w.used) (tvMs : Nat → Int) (d : Int) :
    place tvMs st.tvPrev d (st.w.used.length + st.w.free.length) st.tvEnd none =
      some ((l.rdropWhile fun u => decide (d ≤ tvMs u)).getLast?,
        (l.rtakeWhile fun u => decide (d ≤ tvMs u)).head?) := by
  have hfuel : l.length ≤ st.w.used.length + st.w.free.length := by
    have hle := (List.subperm_of_subset h.once hused).length_le
    omega
  have hlinks : Linked st.tvPrev st.tvNext none (l ++ []) none := by
    rw [List.append_nil]
    exact h.links
  have hspec := @place_spec l [] d tvMs st.tvPrev st.tvNext _ hlinks hfuel
  rwa [List.append_nil, List.head?_nil, ← h.last] at hspec

/-- The other slots keep what they have. -/
lemma Timed.insert (h : Timed st (xs ++ ys)) (hv : v ∉ xs ++ ys) (hd : d ≠ 0)
    (hsorted : (xs ++ v :: ys).Pairwise fun a b =>
      Function.update st.tvMs v d a ≤ Function.update st.tvMs v d b) :
    Timed (EventLoop.link { st with tvMs := Function.update st.tvMs v d } v xs.getLast? ys.head?)
      (xs ++ v :: ys) := by
  have hmem : ∀ u, u ∈ xs ++ v :: ys ↔ u = v ∨ u ∈ xs ++ ys := by
    intro u
    rw [List.mem_append, List.mem_append, List.mem_cons]
    tauto
  refine ⟨(h.toChain.arm hv).link hv hsorted, ?_, ?_⟩
  · intro u hu
    change Function.update st.tvMs v d u ≠ 0
    by_cases huv : u = v
    · rw [huv, Function.update_self]
      exact hd
    · rw [Function.update_of_ne huv]
      exact h.armed u (((hmem u).mp hu).resolve_left huv)
  · intro u hfu hu
    rw [hmem, not_or] at hu
    obtain ⟨huv, hout⟩ := hu
    have hlast : xs.getLast? ≠ some u := fun hlast =>
      hout (List.mem_append_left _ (List.mem_of_getLast? hlast))
    have hhead : ys.head? ≠ some u := fun hhead =>
      hout (List.mem_append_right _ (List.mem_of_head? hhead))
    simpa only [EventLoop.link, patch_of_ne hlast, patch_of_ne hhead, Function.update_of_ne huv]
      using h.idle u hfu hout

/-- `set_timer` on the queue as such; it returns. -/
theorem setTimer_refines (h : Timed st l) (hs : Seated st l) (hv : v ∈ st.w.used) (hd : d ≠ 0) :
    ∃ st' l', setTimer st v d = some st' ∧ Timed st' l' ∧ Seated st' l' ∧
      timersOf st' l' = Timers.set (timersOf st l) v d := by
  have hf := hs.filled v (hs.live v hv)
  by_cases hms : st.tvMs v = 0
  · have hvl : v ∉ l := fun hvl => h.armed v hvl hms
    have hplace := place_queue h.toChain hs.used (Function.update st.tvMs v d) d
    have hrefines := timersOf_insert st d hvl
    have hl : (l.rdropWhile fun u => decide (d ≤ Function.update st.tvMs v d u)) ++
        (l.rtakeWhile fun u => decide (d ≤ Function.update st.tvMs v d u)) = l :=
      List.rdropWhile_append_rtakeWhile
    generalize (l.rdropWhile fun u => decide (d ≤ Function.update st.tvMs v d u)) = xs at *
    generalize (l.rtakeWhile fun u => decide (d ≤ Function.update st.tvMs v d u)) = ys at *
    subst hl
    have hsorted := (timersOf_sorted.mpr h.sorted).set (s := v) (d := d)
    rw [← hrefines, timersOf_sorted] at hsorted
    refine ⟨_, xs ++ v :: ys, ?_, h.insert hvl hd hsorted, ⟨hs.sound, hs.live, hs.filled, ?_⟩,
      hrefines⟩
    · rw [setTimer, if_neg (by simpa using hms)]
      simp only [hplace, Option.map_some]
    · intro u hu
      by_cases huv : u = v
      · exact huv ▸ hv
      · refine hs.used u ?_
        rw [List.mem_append, List.mem_cons] at hu
        rw [List.mem_append]
        tauto
  · have hvl : v ∈ l := by
      by_contra hnot
      exact hms (h.idle v hf hnot).1
    refine ⟨st, l, if_pos hms, h, hs, ?_⟩
    have hany : (timersOf st l).any (fun t => t.slot == v) = true := by
      simpa [timersOf] using hvl
    rw [Timers.set, if_pos hany]

end Set

section Steps

variable {st st' : State} {l : List Nat} {u v : Nat} {x : World}

/-- Nothing changes for the timers. -/
structure Spared (st st' : State) : Prop where
  tvStart : st'.tvStart = st.tvStart
  tvEnd : st'.tvEnd = st.tvEnd
  tvMs : st'.tvMs = st.tvMs
  tvNext : st'.tvNext = st.tvNext
  tvPrev : st'.tvPrev = st.tvPrev
  filled : ∀ v, .filled v ∈ st'.trace ↔ .filled v ∈ st.trace

lemma Timed.spared (h : Timed st l) (hs : Spared st st') : Timed st' l := by
  refine ⟨⟨?_, h.once, ?_, ?_, ?_⟩, ?_, ?_⟩
  · rw [hs.tvPrev, hs.tvNext]
    exact h.links
  · rw [hs.tvStart, h.first]
  · rw [hs.tvEnd, h.last]
  · rw [hs.tvMs]
    exact h.sorted
  · rw [hs.tvMs]
    exact h.armed
  · intro v hf hv
    rw [hs.tvMs, hs.tvNext, hs.tvPrev]
    exact h.idle v ((hs.filled v).mp hf) hv

lemma Spared.trans {st'' : State} (h : Spared st st') (h' : Spared st' st'') : Spared st st'' where
  tvStart := h'.tvStart.trans h.tvStart
  tvEnd := h'.tvEnd.trans h.tvEnd
  tvMs := h'.tvMs.trans h.tvMs
  tvNext := h'.tvNext.trans h.tvNext
  tvPrev := h'.tvPrev.trans h.tvPrev
  filled v := (h'.filled v).trans (h.filled v)

/-- `memset` clears a slot that is in no queue. -/
lemma Timed.filled (h : Timed st l) (hv : v ∉ l) :
    Timed { st with
      w := x
      tvMs := Function.update st.tvMs v 0
      tvNext := Function.update st.tvNext v none
      tvPrev := Function.update st.tvPrev v none
      modIter := Function.update st.modIter v st.iters
      trace := .filled v :: st.trace } l := by
  have hne : ∀ u ∈ l, u ≠ v := fun u hu huv => hv (huv ▸ hu)
  refine ⟨⟨?_, h.once, h.first, h.last, (h.toChain.arm hv).sorted⟩, ?_, ?_⟩
  · refine h.links.congr fun u hu => ?_
    exact ⟨Function.update_of_ne (hne u hu) _ _, Function.update_of_ne (hne u hu) _ _⟩
  · intro u hu
    simpa only [Function.update_of_ne (hne u hu)] using h.armed u hu
  · intro u hfu hu
    by_cases huv : u = v
    · subst huv
      simp only [Function.update_self, and_self]
    · have hfu : Obs.filled u ∈ st.trace := by simpa [huv] using hfu
      simpa only [Function.update_of_ne huv] using h.idle u hfu hu

lemma addEvent_timed {fd : Int} {ok : Bool} (h : Timed st l) (hs : Seated st l) (hfd : 0 < fd) :
    Timed (EventLoop.addEvent st fd ok) l ∧ Seated (EventLoop.addEvent st fd ok) l := by
  unfold EventLoop.addEvent
  cases hfree : st.w.free with
  | nil => exact ⟨h, hs⟩
  | cons v rest =>
    have hv : v ∉ st.w.used := Closing.free_not_used hs.sound hfree
    have hadded := PoolRuns.addEvent_added hs.sound hfree fd ok
    have hne : ∀ u ∈ st.w.used, u ≠ v := fun u hu huv => hv (huv ▸ hu)
    refine ⟨h.filled fun hvl => hv (hs.used v hvl), hadded.sound, ?_, ?_, ?_⟩
    · intro u hu
      rcases hadded.used u hu with hused | rfl
      · change ((Pool.addEvent st.w fd ok).2.items u).fd ≠ -1
        rw [hadded.items u (hne u hused)]
        exact hs.live u hused
      · change ((Pool.addEvent st.w fd ok).2.items u).fd ≠ -1
        rw [hadded.fd]
        omega
    · intro u hu
      by_cases huv : u = v
      · exact huv ▸ List.mem_cons_self
      · have hu : ((Pool.addEvent st.w fd ok).2.items u).fd ≠ -1 := hu
        rw [hadded.items u huv] at hu
        exact List.mem_cons_of_mem _ (hs.filled u hu)
    · intro u hu
      exact hadded.kept u (hs.used u hu)

lemma filled_release (st : State) (u v : Nat) :
    .filled u ∈ (release st v).trace ↔ .filled u ∈ st.trace := by
  change Obs.filled u ∈ Obs.released v :: st.trace ↔ _
  simp

lemma Timed.release (h : Timed st l) (hf : .filled v ∈ st.trace) :
    Timed (release st v) (l.erase v) := by
  have hspared : Spared st { st with
      modIter := Function.update st.modIter v st.iters
      trace := .released v :: st.trace } :=
    ⟨rfl, rfl, rfl, rfl, rfl, fun u => filled_release st u v⟩
  exact (h.spared hspared).remove (List.mem_cons_of_mem _ hf)

lemma Timed.releases {ls : List Nat} (h : Timed st l) (hf : ∀ u ∈ ls, .filled u ∈ st.trace) :
    Timed (ls.foldl EventLoop.release st) (l.diff ls) := by
  induction ls generalizing st l with
  | nil => exact h
  | cons v ls ih =>
    rw [List.foldl_cons, List.diff_cons]
    refine ih (h.release (hf v List.mem_cons_self)) ?_
    intro u hu
    exact (filled_release st u v).mpr (hf u (List.mem_cons_of_mem v hu))

lemma filled_releases (st : State) (ls : List Nat) (u : Nat) :
    .filled u ∈ (ls.foldl EventLoop.release st).trace ↔ .filled u ∈ st.trace := by
  induction ls generalizing st with
  | nil => exact Iff.rfl
  | cons v ls ih => rw [List.foldl_cons, ih, filled_release]

lemma delEvent_timed (h : Timed st l) (hs : Seated st l) (hn : NoStray st.w v) :
    ∃ l', Timed (EventLoop.delEvent st v) l' ∧ Seated (EventLoop.delEvent st v) l' := by
  obtain ⟨ls, w', hdel, hfreed, hrel⟩ := deletes_released hs.sound hn
  have hlength := hrel.length_le hn
  obtain ⟨k, hk⟩ := Nat.exists_eq_add_of_le
    (show ls.length + 1 ≤ st.w.used.length + st.w.free.length + 1 by omega)
  have heq : EventLoop.delEvent st v = { ls.foldl EventLoop.release st with w := w' } := by
    unfold EventLoop.delEvent
    rw [hk]
    exact delEventFrom_eq hdel k rfl
  have hlive : ∀ u ∈ ls, (st.w.items u).fd ≠ -1 := fun u hu => ((hrel.slots u).mp hu).1
  have htimed := h.releases fun u hu => hs.filled u (hlive u hu)
  rw [heq]
  refine ⟨l.diff ls, htimed.spared ⟨rfl, rfl, rfl, rfl, rfl, fun _ => Iff.rfl⟩, hfreed.sound,
    ?_, ?_, ?_⟩
  · intro u hu
    obtain ⟨hused, hnot⟩ := (hfreed.used u).mp hu
    rw [hrel.fd, if_neg hnot]
    exact hs.live u hused
  · intro u hu
    refine (filled_releases st ls u).mpr (hs.filled u ?_)
    rw [hrel.fd] at hu
    split at hu
    · exact absurd rfl hu
    · exact hu
  · intro u hu
    obtain ⟨hul, hnot⟩ := h.once.mem_sdiff_iff.mp hu
    exact (hfreed.used u).mpr ⟨hs.used u hul, hnot⟩

/-- `next_event` has nothing to do with the timers. -/
lemma nextEvent_spared {answers : List Wait} {r : Option Nat}
    (h : nextEvent answers st = some (r, st')) : Spared st st' ∧ st'.w = st.w := by
  have hhand : ∀ (st : State) (i : Nat), Spared st (hand st i).2 := fun st i =>
    ⟨rfl, rfl, rfl, rfl, rfl, fun v => by simp [hand]⟩
  have hsame : ∀ (n : Nat) (t : Int), Spared st { st with left := n, etype := t } := fun n t =>
    ⟨rfl, rfl, rfl, rfl, rfl, fun _ => Iff.rfl⟩
  induction answers generalizing st with
  | nil =>
    cases hfresh : fresh st st.left with
    | none => rw [nextEvent_waits hfresh] at h; cases h
    | some i =>
      rw [nextEvent_fresh hfresh] at h
      cases h
      exact ⟨hhand st i, rfl⟩
  | cons a answers ih =>
    cases hfresh : fresh st st.left with
    | some i =>
      rw [nextEvent_fresh hfresh] at h
      cases h
      exact ⟨hhand st i, rfl⟩
    | none =>
      cases a with
      | timeout =>
        rw [nextEvent_timeout hfresh] at h
        cases h
        exact ⟨hsame 0 pollTimeout, rfl⟩
      | failed =>
        rw [nextEvent_failed hfresh] at h
        cases h
        exact ⟨hsame 0 st.etype, rfl⟩
      | events batch =>
        rw [nextEvent_events hfresh] at h
        have harrive : Spared st (arrive st batch) :=
          ⟨rfl, rfl, rfl, rfl, rfl, fun v => by simp [arrive]⟩
        obtain ⟨hspared, hw⟩ := ih h fun _ _ => ⟨rfl, rfl, rfl, rfl, rfl, fun _ => Iff.rfl⟩
        exact ⟨harrive.trans hspared, hw⟩

/-- Only the first timer can run out. -/
lemma expire_timed {r r' : Option Nat} (h : Timed st l) (hs : Seated st l)
    (hstep : expire (r, st) = (r', st')) : ∃ l', Timed st' l' ∧ Seated st' l' := by
  unfold expire at hstep
  split at hstep
  · rename_i st₁ heq
    cases heq
    split at hstep
    · rename_i v hstart
      split at hstep
      · cases hstep
        have hv : v ∈ l := by
          rw [h.first] at hstart
          exact List.mem_of_head? hstart
        have hf := hs.filled v (hs.live v (hs.used v hv))
        refine ⟨l.erase v, (h.remove hf).spared
          ⟨rfl, rfl, rfl, rfl, rfl, fun u => by simp [removeTimer]⟩, hs.sound, hs.live, ?_, ?_⟩
        · intro u hu
          exact List.mem_cons_of_mem _ (hs.filled u hu)
        · intro u hu
          exact hs.used u (List.mem_of_mem_erase hu)
      · cases hstep
        exact ⟨l, h, hs⟩
    · cases hstep
      exact ⟨l, h, hs⟩
  · cases hstep
    exact ⟨l, h, hs⟩

lemma Seated.spared (h : Seated st l) (hs : Spared st st') (hw : st'.w = st.w) : Seated st' l := by
  refine ⟨?_, ?_, ?_, ?_⟩
  · rw [hw]
    exact h.sound
  · rw [hw]
    exact h.live
  · intro v hv
    rw [hw] at hv
    exact (hs.filled v).mpr (h.filled v hv)
  · rw [hw]
    exact h.used

lemma nextEventTv_timed {now : Int} {answers : List Wait} {r : Option Nat} (h : Timed st l)
    (hs : Seated st l) (hstep : nextEventTv st now answers = some (r, st')) :
    ∃ l', Timed st' l' ∧ Seated st' l' := by
  unfold nextEventTv at hstep
  split at hstep
  · obtain ⟨hspared, hw⟩ := nextEvent_spared hstep
    exact ⟨l, h.spared hspared, hs.spared hspared hw⟩
  · split at hstep
    · rw [Option.map_eq_some_iff] at hstep
      obtain ⟨⟨r₁, st₁⟩, hnext, hexpire⟩ := hstep
      obtain ⟨hspared, hw⟩ := nextEvent_spared hnext
      exact expire_timed (h.spared hspared) (hs.spared hspared hw) hexpire
    · rw [Option.some.injEq] at hstep
      have hspared : Spared st { st with etype := pollTimeout } :=
        ⟨rfl, rfl, rfl, rfl, rfl, fun _ => Iff.rfl⟩
      exact expire_timed (h.spared hspared) (hs.spared hspared rfl) hstep

end Steps

/-- A deletion does not come to a slot that a failed registration has left with a descriptor. -/
def Straight (st : State) : Act → Prop
  | .del v => NoStray st.w v
  | _ => True

section Runs

variable {max : Nat} {st₀ st st' : State} {acts : List Act} {a : Act}

def Kept (st : State) : Prop := ∃ l, Timed st l ∧ Seated st l

lemma init_timed (h : Init max st) : Timed st [] ∧ Seated st [] := by
  have hnone : ∀ v, .filled v ∉ st.trace := by
    rw [h.trace]
    exact fun v => List.not_mem_nil
  refine ⟨⟨⟨trivial, List.nodup_nil, h.tvStart, h.tvEnd, .nil⟩, ?_, ?_⟩,
    h.pool.consistent.sound, ?_, ?_, ?_⟩
  · intro v hv
    cases hv
  · intro v hv
    exact absurd hv (hnone v)
  · intro v hv
    rw [h.pool.used] at hv
    cases hv
  · intro v hv
    exact absurd (h.pool.fd v) hv
  · intro v hv
    cases hv

lemma step_timed {l : List Nat} (h : Timed st l) (hs : Seated st l) (hok : Straight st a)
    (hstep : step st a = some st') : Kept st' := by
  cases a with
  | add fd ok =>
    simp only [step, Option.ite_none_right_eq_some, Option.some.injEq] at hstep
    obtain ⟨hfd, rfl⟩ := hstep
    exact ⟨l, addEvent_timed h hs hfd⟩
  | link v p =>
    simp only [step, Option.ite_none_right_eq_some, Option.some.injEq] at hstep
    obtain ⟨-, rfl⟩ := hstep
    have hfd := setItem_field (w := st.w) (v := v) (e := { st.w.items v with pair := p }) Eval.fd rfl
    have hindex := setItem_field (w := st.w) (v := v) (e := { st.w.items v with pair := p })
      Eval.index rfl
    refine ⟨l, h.spared ⟨rfl, rfl, rfl, rfl, rfl, fun _ => Iff.rfl⟩,
      hs.sound.of_items rfl rfl hindex, ?_, ?_, hs.used⟩
    · intro u hu
      rw [hfd]
      exact hs.live u hu
    · intro u hu
      rw [hfd] at hu
      exact hs.filled u hu
  | del v =>
    simp only [step, Option.ite_none_right_eq_some, Option.some.injEq] at hstep
    obtain ⟨-, rfl⟩ := hstep
    exact delEvent_timed h hs hok
  | set v now ms =>
    simp only [step, Option.ite_none_right_eq_some] at hstep
    obtain ⟨⟨hv, hd⟩, hset⟩ := hstep
    obtain ⟨st₁, l', hsome, htimed, hseated, -⟩ := setTimer_refines h hs hv hd
    cases hsome.symm.trans hset
    exact ⟨l', htimed, hseated⟩
  | removeTimer v =>
    simp only [step, Option.ite_none_right_eq_some, Option.some.injEq] at hstep
    obtain ⟨hf, rfl⟩ := hstep
    refine ⟨l.erase v, h.remove hf, hs.sound, hs.live, hs.filled, ?_⟩
    intro u hu
    exact hs.used u (List.mem_of_mem_erase hu)
  | next now answers =>
    simp only [step, Option.ite_none_right_eq_some, Option.map_eq_some_iff] at hstep
    obtain ⟨-, ⟨r, st₁⟩, hnext, rfl⟩ := hstep
    exact nextEventTv_timed h hs hnext

end Runs

section Registered

open PoolRuns (Consistent)

variable {max : Nat} {st st' : State} {acts : List Act} {a : Act}

/-- The descriptor of an `add_event` is registered. -/
def Registers : Act → Prop
  | .add _ ok => ok = true
  | _ => True

instance : DecidablePred Registers
  | .add _ ok => inferInstanceAs (Decidable (ok = true))
  | .link .. | .del _ | .set .. | .removeTimer _ | .next .. => inferInstanceAs (Decidable True)

lemma setTimer_w {v : Nat} {d : Int} (h : setTimer st v d = some st') : st'.w = st.w := by
  unfold setTimer at h
  split at h
  · cases h
    rfl
  · rw [Option.map_eq_some_iff] at h
    obtain ⟨r, -, rfl⟩ := h
    rfl

lemma expire_w (r : Option Nat) (st : State) : (expire (r, st)).2.w = st.w := by
  unfold expire
  split
  · rename_i st₁ heq
    cases heq
    split
    · split <;> rfl
    · rfl
  · rfl

lemma nextEventTv_w {now : Int} {answers : List Wait} {r : Option Nat}
    (h : nextEventTv st now answers = some (r, st')) : st'.w = st.w := by
  unfold nextEventTv at h
  split at h
  · exact (nextEvent_spared h).2
  · split at h
    · rw [Option.map_eq_some_iff] at h
      obtain ⟨⟨r₁, st₁⟩, hnext, hexpire⟩ := h
      have hw := expire_w r₁ st₁
      rw [hexpire] at hw
      exact hw.trans (nextEvent_spared hnext).2
    · rw [Option.some.injEq] at h
      have hw := expire_w none { st with etype := pollTimeout }
      rw [h] at hw
      exact hw

lemma delEvent_w (h : Consistent max st.w) (v : Nat) :
    (EventLoop.delEvent st v).w = Pool.delEvent st.w v := by
  have hn := h.noStray v
  obtain ⟨ls, w', hdel, -, hrel⟩ := deletes_released h.sound hn
  have hlength := hrel.length_le hn
  obtain ⟨k, hk⟩ := Nat.exists_eq_add_of_le
    (show ls.length + 1 ≤ st.w.used.length + st.w.free.length + 1 by omega)
  rw [hdel.delEvent hn hrel, EventLoop.delEvent, hk, delEventFrom_eq hdel k rfl]

/-- The pool below the timers stays consistent. -/
lemma step_consistent (h : Consistent max st.w) (hok : Registers a) (hstep : step st a = some st') :
    Consistent max st'.w := by
  cases a with
  | add fd ok =>
    obtain rfl : ok = true := hok
    simp only [step, Option.ite_none_right_eq_some, Option.some.injEq] at hstep
    obtain ⟨hfd, rfl⟩ := hstep
    unfold EventLoop.addEvent
    cases hfree : st.w.free with
    | nil => exact h
    | cons v rest => exact h.added hfd hfree
  | link v p =>
    simp only [step, Option.ite_none_right_eq_some, Option.some.injEq] at hstep
    obtain ⟨-, rfl⟩ := hstep
    exact h.of_items rfl rfl (setItem_field Eval.fd rfl) (setItem_field Eval.index rfl)
  | del v =>
    simp only [step, Option.ite_none_right_eq_some, Option.some.injEq] at hstep
    obtain ⟨hv, rfl⟩ := hstep
    rw [delEvent_w h v]
    have hpool : PoolRuns.step st.w (.del v) = some (Pool.delEvent st.w v) := if_pos hv
    have hregisters : PoolRuns.Registers st.w (.del v) := trivial
    exact (PoolRuns.step_settles h hregisters hpool).1
  | set v now ms =>
    simp only [step, Option.ite_none_right_eq_some] at hstep
    rw [setTimer_w hstep.2]
    exact h
  | removeTimer v =>
    simp only [step, Option.ite_none_right_eq_some, Option.some.injEq] at hstep
    obtain ⟨-, rfl⟩ := hstep
    exact h
  | next now answers =>
    simp only [step, Option.ite_none_right_eq_some, Option.map_eq_some_iff] at hstep
    obtain ⟨-, ⟨r, st₁⟩, hnext, rfl⟩ := hstep
    rw [nextEventTv_w hnext]
    exact h

/-- Only failed registrations make deletions go astray. -/
lemma meets_straight (h₀ : Init max st) (hacts : ∀ a ∈ acts, Registers a) :
    Meets step Straight st acts := by
  have hcons := h₀.pool.consistent
  clear h₀
  induction acts generalizing st with
  | nil => trivial
  | cons a acts ih =>
    refine ⟨?_, ?_⟩
    · cases a with
      | del v => exact hcons.noStray v
      | add | link | set | removeTimer | next => trivial
    · intro st' hstep
      exact ih (fun b hb => hacts b (List.mem_cons_of_mem a hb))
        (step_consistent hcons (hacts a List.mem_cons_self) hstep)

end Registered

/-- The queue of timers is sorted and complete all along, and `set_timer` returns, as long as
no deletion comes to a slot whose registration failed. -/
theorem timer_queue {max : Nat} {st₀ st : State} {acts : List Act} (h₀ : Init max st₀)
    (hok : Meets step Straight st₀ acts) (hrun : run step st₀ acts = some st) :
    (∃ l, Queue st l) ∧ ∀ v ∈ st.w.used, ∀ now ms : Int, now + ms ≠ 0 →
      (setTimer st v (now + ms)).isSome := by
  have hinv : Kept st := by
    refine run_preserves ?_ ⟨[], init_timed h₀⟩ hok hrun
    rintro st a st' ⟨l, htimed, hseated⟩ hok hstep
    exact step_timed htimed hseated hok hstep
  obtain ⟨l, htimed, hseated⟩ := hinv
  refine ⟨⟨l, htimed.queue hseated⟩, ?_⟩
  intro v hv now ms hd
  obtain ⟨st', l', hsome, -⟩ := setTimer_refines htimed hseated hv hd
  rw [hsome]
  rfl

/-- Timers of two connections; the earlier one runs out, and the other goes with its slot. -/
theorem timer_queue_two :
    ∃ st, run step (start 4) [.add 3 true, .add 4 true, .link 0 (some 1), .link 1 (some 0),
        .add 5 true, .set 1 10 20, .set 2 10 5, .next 15 [], .del 0] = some st ∧
      (∃ l, Queue st l) ∧ ∀ v ∈ st.w.used, ∀ now ms : Int, now + ms ≠ 0 →
        (setTimer st v (now + ms)).isSome := by
  have hsome : (run step (start 4) [.add 3 true, .add 4 true, .link 0 (some 1), .link 1 (some 0),
      .add 5 true, .set 1 10 20, .set 2 10 5, .next 15 [], .del 0]).isSome := by decide
  have hrun := (Option.some_get hsome).symm
  exact ⟨_, hrun, timer_queue (start_init 4) (meets_straight (start_init 4) (by decide)) hrun⟩

/-- `reconnect` without a new connection leaves its client with the pair that it deletes; a
descriptor that cannot be registered is then left in that slot, and the deletion of the client
takes a third slot out of those in use. The third slot is filled anew while its timer is set. -/
theorem stray_deletion :
    Init 3 (start 3) ∧ ∃ st, run step (start 3) [.add 3 true, .add 4 true, .add 5 true,
        .link 0 (some 1), .link 1 (some 0), .link 1 none, .del 1, .add 6 false, .set 2 10 20,
        .del 0, .add 7 true, .add 8 true, .add 9 true] = some st ∧ ¬ ∃ l, Queue st l := by
  refine ⟨start_init 3, ?_⟩
  have hends : (run step (start 3) [.add 3 true, .add 4 true, .add 5 true,
      .link 0 (some 1), .link 1 (some 0), .link 1 none, .del 1, .add 6 false, .set 2 10 20,
      .del 0, .add 7 true, .add 8 true, .add 9 true]).map (fun st => (st.tvStart, st.tvMs 2)) =
        some (some 2, 0) := by decide
  obtain ⟨st, hrun, hst⟩ := Option.map_eq_some_iff.mp hends
  rw [Prod.mk.injEq] at hst
  refine ⟨st, hrun, ?_⟩
  rintro ⟨l, hl⟩
  have hmem : 2 ∈ l := by
    have hfirst := hl.first
    rw [hst.1] at hfirst
    exact List.mem_of_head? hfirst.symm
  exact ((hl.timers 2).mp hmem).2 hst.2

end TimerQueue
