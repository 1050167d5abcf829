import NoZapret.Library.Links
import NoZapret.Cache

/-!
# The links of the groups

`extend.c`: `swop_groups` and the loop of `on_trigger` on the list that the groups are linked
to. A pointer to a group is its `id`; a null pointer that is followed has no result.
-/

namespace GroupLinks

open Groups Links Runs

structure Memory where
  /-- `params.dp` -/
  dp : Option Nat
  /-- `params.dp_n` -/
  dpN : Nat
  prev : Nat → Option Nat
  next : Nat → Option Nat
  detect : Nat → Detect
  autoLevel : Nat → AutoLevel
  pri : Nat → Int

/-- `patch` is `if (p) p->field = v`. -/
def swopGroups (m : Memory) (dpc dpn : Nat) : Option Memory := do
  let cpPrev := m.prev dpc
  let cpNext := m.next dpc
  let m := { m with
    next := Function.update m.next dpc (m.next dpn)
    prev := Function.update m.prev dpc (m.prev dpn) }
  let m := { m with
    prev := Function.update m.prev dpn cpPrev
    next := Function.update m.next dpn cpNext }
  let m := { m with next := patch m.next (m.prev dpn) (some dpn) }
  let m := { m with prev := patch m.prev (m.next dpc) (some dpc) }
  let m ← (if cpNext ≠ some dpn then do
      let q ← m.next dpn
      let m := { m with prev := Function.update m.prev q (some dpn) }
      let p ← m.prev dpc
      return { m with next := Function.update m.next p (some dpc) }
    else
      return { m with
        prev := Function.update m.prev dpc (some dpn)
        next := Function.update m.next dpn (some dpc) })
  let m := { m with
    detect := Function.update (Function.update m.detect dpc (m.detect dpn)) dpn (m.detect dpc)
    autoLevel := Function.update (Function.update m.autoLevel dpc (m.autoLevel dpn)) dpn
      (m.autoLevel dpc) }
  return if m.dp = some dpc then { m with dp := some dpn } else m

/-- Do the masks meet? -/
def hit (bit mask : Mask) : Bool := bit &&& mask != 0

structure Found where
  next : Option Nat
  uncheked : Mask
  dpMask : Mask

/-- The loop of `on_trigger`; the first argument bounds its rounds. -/
def scan (m : Memory) (type : Detect) (canReconn : Bool) :
    Nat → Option Nat → Mask → Mask → Option Found
  | _, none, u, d => some ⟨none, u, d⟩
  | 0, some _, _, _ => none
  | fuel + 1, some dp, u, d =>
    if u = 0 ∧ m.detect dp = 0 then some ⟨none, u, d⟩
    else if !hit (bitOf dp) d && (m.detect dp == 0 || m.detect dp &&& type != 0) &&
        (!(m.autoLevel dp).onReconn || canReconn) then some ⟨some dp, u, d⟩
    else scan m type canReconn fuel (m.next dp) (u &&& ~~~bitOf dp) (d ||| bitOf dp)

/-- A call of `on_trigger`: `lav->dp`, `lav->dp_mask`, the mask of the cache entry. -/
structure Trigger where
  own : Nat
  dpMask : Mask
  cacheMask : Mask
  type : Detect
  canReconn : Bool

def scanFrom (m : Memory) (a : Trigger) : Option Found :=
  scan m a.type a.canReconn m.dpN m.dp (a.dpMask ||| bitOf a.own) (a.dpMask ||| bitOf a.own)

/-- The group that `lav->dp` changes places with. -/
def exchange (m : Memory) (a : Trigger) (found : Found) : Option Nat :=
  found.next.filter fun next =>
    !hit (bitOf a.own) a.cacheMask && (m.autoLevel next).sort && decide (m.pri next < m.pri a.own) &&
      !hit (bitOf a.own) found.uncheked

/-- What `on_trigger` does to the groups. -/
def onTrigger (m : Memory) (a : Trigger) : Option Memory := do
  let found ← scanFrom m a
  if hit (bitOf a.own) a.cacheMask then return m
  let m ← (match exchange m a found with
    | some next => swopGroups m a.own next
    | none => some m)
  return { m with pri := Function.update m.pri a.own (m.pri a.own + 1) }

/-- The groups of the list are linked to it, and their bits are defined. -/
structure WellFormed (m : Memory) (l : List Nat) : Prop where
  nodup : l.Nodup
  small : ∀ i ∈ l, i < 32
  count : l.length ≤ m.dpN
  head : m.dp = l.head?
  linked : Linked m.prev m.next none l none

/-- What stays with a place of the list. -/
def level (m : Memory) (i : Nat) : Detect × AutoLevel := (m.detect i, m.autoLevel i)

section Swop

variable {m m' : Memory} {l xs ms ys : List Nat} {c n x : Nat}

/-- The first group is in front of the second one. -/
lemma WellFormed.ahead (h : WellFormed m l) (hl : l = xs ++ c :: (ms ++ n :: ys)) :
    m.next n ≠ some c ∧ m.next c ≠ none ∧ m.prev n ≠ none := by
  have hn : l = (xs ++ c :: ms) ++ n :: ys := by
    rw [hl]
    simp
  have hnodup := h.nodup
  have hatc := h.linked
  have hatn := h.linked
  rw [hl] at hatc
  rw [hn] at hatn hnodup
  refine ⟨?_, ?_, ?_⟩
  · rw [hatn.at.2, Option.or_none]
    intro hback
    obtain ⟨zs, rfl⟩ := List.head?_eq_some_iff.mp hback
    exact (List.nodup_append.mp hnodup).2.2 c (by simp) c (by simp) rfl
  · rw [hatc.at.2]
    simp
  · rw [hatn.at.1]
    simp

/-- The links behind `swop_groups`, whether or not the two groups stand side by side. -/
lemma swopGroups_some (hopp : Opposite m.next m.prev l) (hc : c ∈ l) (hn : n ∈ l) (hne : c ≠ n)
    (hback : m.next n ≠ some c) (hnext : m.next c ≠ none) (hprev : m.prev n ≠ none) :
    swopGroups m c n = some { m with
      next := swopped m.next m.prev c n
      prev := swopped m.prev m.next n c
      detect := Function.update (Function.update m.detect c (m.detect n)) n (m.detect c)
      autoLevel := Function.update (Function.update m.autoLevel c (m.autoLevel n)) n
        (m.autoLevel c)
      dp := if m.dp = some c then some n else m.dp } := by
  have hpc : m.prev c ≠ some c := fun hself => hopp.ne hc (hopp.back hc hself).2
  have hpcn : m.prev c ≠ some n := fun h => hback (hopp.back hc h).2
  have hnn := hopp.ne hn
  have hlast : patch (Function.update (Function.update m.next c (m.next n)) n (m.next c)) (m.prev c)
      (some n) c = m.next n := by
    rw [patch_apply, if_neg hpc, Function.update_of_ne hne, Function.update_self]
  simp only [swopGroups, Function.update_self, hlast, Option.bind_eq_bind]
  by_cases hadj : m.next c = some n
  · have hprevn := (hopp.forth hc hadj).2
    have hn' : Function.update (patch (Function.update (Function.update m.next c (m.next n)) n
        (m.next c)) (m.prev c) (some n)) n (some c) = swopped m.next m.prev c n := by
      funext x
      simp only [patch_apply, Function.update_apply, swopped, hadj, hprevn]
      grind
    have hp' : Function.update (patch (Function.update (Function.update m.prev c (m.prev n)) n
        (m.prev c)) (m.next n) (some c)) c (some n) = swopped m.prev m.next n c := by
      funext x
      simp only [patch_apply, Function.update_apply, swopped, hadj, hprevn]
      grind
    rw [if_neg (not_not.mpr hadj)]
    simp only [hn', hp', Option.pure_def, Option.bind_some, apply_ite some]
    split <;> rfl
  · obtain ⟨q, hq⟩ := Option.ne_none_iff_exists'.mp hnext
    obtain ⟨p, hp⟩ := Option.ne_none_iff_exists'.mp hprev
    have hqc := (hopp.forth hc hq).2
    have hpn := (hopp.back hn hp).2
    have hcp : m.prev c ≠ some p := fun h => hne (Option.some.inj ((hopp.back hc h).2.symm.trans hpn))
    have hnq : m.next n ≠ some q := fun h => hne (Option.some.inj (hqc.symm.trans (hopp.forth hn h).2))
    have hqc' : c ≠ q := by
      rintro rfl
      exact hopp.ne hc hq
    have hgoes : patch (Function.update (Function.update m.next c (m.next n)) n (m.next c))
        (m.prev c) (some n) n = some q := by
      rw [patch_apply, if_neg hpcn, Function.update_self, hq]
    have hcomes : Function.update (patch (Function.update (Function.update m.prev c (m.prev n)) n
        (m.prev c)) (m.next n) (some c)) q (some n) c = some p := by
      rw [Function.update_of_ne hqc', patch_apply, if_neg hback, Function.update_of_ne hne,
        Function.update_self, hp]
    have hn' : Function.update (patch (Function.update (Function.update m.next c (m.next n)) n
        (m.next c)) (m.prev c) (some n)) p (some c) = swopped m.next m.prev c n := by
      funext x
      simp only [patch_apply, Function.update_apply, swopped]
      grind
    have hp' : Function.update (patch (Function.update (Function.update m.prev c (m.prev n)) n
        (m.prev c)) (m.next n) (some c)) q (some n) = swopped m.prev m.next n c := by
      funext x
      simp only [patch_apply, Function.update_apply, swopped]
      grind
    rw [if_pos hadj]
    simp only [hgoes, Option.bind_some, hcomes, hn', hp', Option.pure_def, apply_ite some]
    split <;> rfl

/-- One exchange: the two groups have changed places, and each place keeps its level. -/
lemma WellFormed.swop (h : WellFormed m l) (hl : l = xs ++ c :: (ms ++ n :: ys)) :
    ∃ m', swopGroups m c n = some m' ∧ WellFormed m' (l.map (Equiv.swap c n)) ∧
      (l.map (Equiv.swap c n)).map (level m') = l.map (level m) ∧ m'.dpN = m.dpN ∧ m'.pri = m.pri := by
  have hc : c ∈ l := by simp [hl]
  have hn : n ∈ l := by simp [hl]
  have hne : c ≠ n := by
    rintro rfl
    have hnodup := h.nodup
    rw [hl] at hnodup
    exact (List.nodup_cons.mp (List.nodup_append.mp hnodup).2.1).1 (by simp)
  obtain ⟨hback, hnext, hprev⟩ := h.ahead hl
  refine ⟨_, swopGroups_some (h.linked.opposite h.nodup) hc hn hne hback hnext hprev, ?_, ?_, rfl, rfl⟩
  · refine ⟨h.nodup.map (Equiv.swap c n).injective, ?_, ?_, ?_, ?_⟩
    · intro i hi
      obtain ⟨j, hj, rfl⟩ := List.mem_map.mp hi
      by_cases hjc : j = c
      · rw [hjc, Equiv.swap_apply_left]
        exact h.small n hn
      by_cases hjn : j = n
      · rw [hjn, Equiv.swap_apply_right]
        exact h.small c hc
      · rw [Equiv.swap_apply_of_ne_of_ne hjc hjn]
        exact h.small j hj
    · rw [List.length_map]
      exact h.count
    · rw [List.head?_map, ← h.head]
      have hdpn : m.dp ≠ some n := by
        rw [h.head, hl]
        cases xs with
        | nil => simpa using hne
        | cons x xs =>
          have hnodup := h.nodup
          rw [hl] at hnodup
          rintro hx
          simp only [List.cons_append, List.head?_cons, Option.some.injEq] at hx
          exact (List.nodup_cons.mp hnodup).1 (by simp [hx])
      by_cases hdp : m.dp = some c
      · simp [hdp]
      · cases hdp' : m.dp with
        | none => simp
        | some i =>
          simp only [hdp', Option.some.injEq] at hdp
          simp only [hdp', ne_eq, Option.some.injEq] at hdpn
          simp [Equiv.swap_apply_of_ne_of_ne hdp hdpn, hdp]
    · exact h.linked.swop h.nodup hc hn hne
  · rw [List.map_map]
    refine List.map_congr_left fun i hi => ?_
    simp only [Function.comp_apply, level]
    by_cases hic : i = c
    · subst hic
      simp
    by_cases hin : i = n
    · subst hin
      simp [hne]
    · rw [Equiv.swap_apply_of_ne_of_ne hic hin]
      simp [hic, hin]

/-- The linked list is this list of groups. -/
structure Represents (m : Memory) (gs : List Group) : Prop where
  wellFormed : WellFormed m (gs.map Group.id)
  detect : ∀ g ∈ gs, m.detect g.id = g.detect
  autoLevel : ∀ g ∈ gs, m.autoLevel g.id = g.autoLevel
  pri : ∀ g ∈ gs, m.pri g.id = g.pri

/-- The exchange of pointers is the exchange in the list that the other modules work on. -/
theorem swopGroups_represents {gs : List Group} {own next : Group} (h : Represents m gs)
    (hown : own ∈ gs) (hnext : next ∈ gs)
    (horder : gs.map Group.id = xs ++ own.id :: (ms ++ next.id :: ys)) :
    ∃ m', swopGroups m own.id next.id = some m' ∧ Represents m' (Cache.swopGroups own next gs) := by
  have hne : own.id ≠ next.id := by
    intro heq
    have hnodup := h.wellFormed.nodup
    rw [horder] at hnodup
    exact (List.nodup_cons.mp (List.nodup_append.mp hnodup).2.1).1 (by simp [heq])
  have hids : (Cache.swopGroups own next gs).map Group.id =
      (gs.map Group.id).map (Equiv.swap own.id next.id) := by
    simp only [Cache.swopGroups, List.map_map]
    refine List.map_congr_left fun g _ => ?_
    simp only [Function.comp_apply, Equiv.swap_apply_def]
    split
    · rfl
    · split <;> rfl
  obtain ⟨hback, hfollows, hprecedes⟩ := h.wellFormed.ahead horder
  have hc : own.id ∈ gs.map Group.id := List.mem_map_of_mem hown
  have hn : next.id ∈ gs.map Group.id := List.mem_map_of_mem hnext
  have hswop := swopGroups_some (h.wellFormed.linked.opposite h.wellFormed.nodup) hc hn hne hback
    hfollows hprecedes
  obtain ⟨m', hm', hwell, -, -, hpri⟩ := h.wellFormed.swop horder
  cases hm'.symm.trans hswop
  refine ⟨_, hswop, hids ▸ hwell, ?_, ?_, ?_⟩
  all_goals
    intro g' hg'
    obtain ⟨g, hg, rfl⟩ := List.mem_map.mp hg'
    by_cases hgc : g.id = own.id
    · simp [hgc, h.detect own hown, h.autoLevel own hown, h.pri next hnext]
    by_cases hgn : g.id = next.id
    · simp [hgn, hne, hne.symm, h.detect next hnext, h.autoLevel next hnext, h.pri own hown]
    · simp [hgc, hgn, h.detect g hg, h.autoLevel g hg, h.pri g hg]

end Swop

section Scan

variable {m : Memory} {type : Detect} {canReconn : Bool} {l xs ys : List Nat} {own : Nat}
  {u d : Mask} {fuel : Nat} {found : Found}

/-- The bits of different groups do not meet. -/
lemma hit_bitOf {i j : Nat} (hi : i < 32) (hj : j < 32) : hit (bitOf i) (bitOf j) = decide (i = j) := by
  have hall : ∀ i < 32, ∀ j < 32, hit (bitOf i) (bitOf j) = decide (i = j) := by decide
  exact hall i hi j hj

/-- What the mask has of the bit of a group is there behind another group too. -/
lemma and_not_bitOf {i j : Nat} (hi : i < 32) (hj : j < 32) (hne : i ≠ j) (u : Mask) :
    bitOf i &&& (u &&& ~~~bitOf j) = bitOf i &&& u := by
  have hoff : bitOf i &&& bitOf j = 0 := by
    have hhit := hit_bitOf hi hj
    rw [decide_eq_false hne] at hhit
    simpa [hit] using hhit
  ext k hk
  have hbit : (bitOf i &&& bitOf j).getLsbD k = false := by
    rw [hoff]
    simp
  rw [BitVec.getLsbD_and] at hbit
  simp only [BitVec.getElem_and, BitVec.getElem_not]
  rw [BitVec.getLsbD_eq_getElem hk, BitVec.getLsbD_eq_getElem hk] at hbit
  cases hi' : (bitOf i)[k] with
  | false => simp
  | true =>
    rw [hi', Bool.true_and] at hbit
    simp [hbit]

/-- The loop comes to an end, and the group it stops at is behind the ones it has passed. -/
lemma scan_spec (hl : Linked m.prev m.next none (xs ++ ys) none) (hfuel : ys.length ≤ fuel)
    (hsmall : ∀ i ∈ ys, i < 32) (hown : own < 32) :
    ∃ found, scan m type canReconn fuel ys.head? u d = some found ∧
      ∀ n, found.next = some n → ∃ zs ws, ys = zs ++ n :: ws ∧
        (own ∉ zs → bitOf own &&& found.uncheked = bitOf own &&& u) := by
  induction ys generalizing xs fuel u d with
  | nil =>
    refine ⟨⟨none, u, d⟩, by cases fuel <;> rfl, ?_⟩
    intro n hn
    cases hn
  | cons dp rest ih =>
    obtain ⟨fuel, rfl⟩ : ∃ k, fuel = k + 1 := ⟨fuel - 1, by simp at hfuel; omega⟩
    rw [List.head?_cons, scan]
    split
    · exact ⟨_, rfl, fun n hn => by cases hn⟩
    split
    · refine ⟨_, rfl, ?_⟩
      intro n hn
      cases hn
      exact ⟨[], rest, rfl, fun _ => rfl⟩
    · have hnext : m.next dp = rest.head? := by
        rw [hl.at.2, Option.or_none]
      rw [List.append_cons] at hl
      obtain ⟨found, hfound, hspec⟩ := ih (u := u &&& ~~~bitOf dp) (d := d ||| bitOf dp) hl
        (by simp at hfuel; omega) fun i hi => hsmall i (List.mem_cons_of_mem dp hi)
      rw [hnext]
      refine ⟨found, hfound, ?_⟩
      intro n hn
      obtain ⟨zs, ws, rfl, hkept⟩ := hspec n hn
      refine ⟨dp :: zs, ws, rfl, ?_⟩
      intro hnot
      have hne : own ≠ dp := fun heq => hnot (heq ▸ List.mem_cons_self)
      rw [hkept fun hmem => hnot (List.mem_cons_of_mem dp hmem)]
      exact and_not_bitOf hown (hsmall dp List.mem_cons_self) hne u

end Scan

section Runs

variable {m : Memory} {l : List Nat} {a : Trigger}

lemma WellFormed.setPri (h : WellFormed m l) (pri : Nat → Int) : WellFormed { m with pri := pri } l :=
  ⟨h.nodup, h.small, h.count, h.head, h.linked⟩

/-- The group that the client's group changes places with, if the trigger exchanges them. -/
def exchanged (m : Memory) (a : Trigger) : Option Nat := (scanFrom m a).bind (exchange m a)

/-- The list behind a trigger. -/
def reorder (m : Memory) (a : Trigger) (l : List Nat) : List Nat :=
  match exchanged m a with
  | some next => l.map (Equiv.swap a.own next)
  | none => l

/-- `uncheked` says whether the loop has passed the client's group. -/
lemma WellFormed.scanFrom (h : WellFormed m l) (hown : a.own ∈ l) :
    ∃ found, scanFrom m a = some found ∧ ∀ next, exchange m a found = some next →
      ∃ xs ms ys, l = xs ++ a.own :: (ms ++ next :: ys) := by
  have hlinked : Linked m.prev m.next none ([] ++ l) none := h.linked
  obtain ⟨start, hstart⟩ : ∃ start, start = a.dpMask ||| bitOf a.own := ⟨_, rfl⟩
  obtain ⟨found, hfound, hnext⟩ : ∃ found,
      scan m a.type a.canReconn m.dpN l.head? start start = some found ∧
        ∀ n, found.next = some n → ∃ zs ws, l = zs ++ n :: ws ∧
          (a.own ∉ zs → bitOf a.own &&& found.uncheked = bitOf a.own &&& start) :=
    scan_spec hlinked h.count h.small (h.small a.own hown)
  rw [← h.head, hstart] at hfound
  rw [hstart] at hnext
  refine ⟨found, hfound, ?_⟩
  intro next hexchange
  obtain ⟨hsome, htest⟩ := Option.filter_eq_some_iff.mp hexchange
  obtain ⟨zs, ws, rfl, hkept⟩ := hnext next hsome
  have hpassed : a.own ∈ zs := by
    by_contra hnot
    have hself := hit_bitOf (h.small a.own hown) (h.small a.own hown)
    have hmask : bitOf a.own &&& (a.dpMask ||| bitOf a.own) = bitOf a.own := by
      ext k hk
      simp only [BitVec.getElem_and, BitVec.getElem_or]
      cases (bitOf a.own)[k] <;> simp
    simp only [hit, hkept hnot, hmask, Bool.and_eq_true, Bool.not_eq_true'] at htest
    simp only [hit, BitVec.and_self, htest.2, decide_true] at hself
    cases hself
  obtain ⟨xs, ms, rfl⟩ := List.append_of_mem hpassed
  exact ⟨xs, ms, ws, by simp⟩

/-- One trigger never follows a null pointer, and leaves a list that is linked. -/
theorem WellFormed.trigger (h : WellFormed m l) (hown : a.own ∈ l) :
    ∃ m', onTrigger m a = some m' ∧ WellFormed m' (reorder m a l) ∧
      (reorder m a l).map (level m') = l.map (level m) := by
  obtain ⟨found, hfound, hplaces⟩ := h.scanFrom hown
  have hexchanged : exchanged m a = exchange m a found := by
    rw [exchanged, hfound, Option.bind_some]
  by_cases hcache : hit (bitOf a.own) a.cacheMask = true
  · have hnone : exchange m a found = none := by
      simp [exchange, hcache]
    have hreorder : reorder m a l = l := by
      rw [reorder, hexchanged, hnone]
    rw [hreorder]
    exact ⟨m, by simp [onTrigger, hfound, hcache], h, rfl⟩
  · cases hnext : exchange m a found with
    | none =>
      have hreorder : reorder m a l = l := by
        rw [reorder, hexchanged, hnext]
      rw [hreorder]
      exact ⟨{ m with pri := Function.update m.pri a.own (m.pri a.own + 1) },
        by simp [onTrigger, hfound, hcache, hnext], h.setPri _, rfl⟩
    | some next =>
      obtain ⟨xs, ms, ys, hl⟩ := hplaces next hnext
      obtain ⟨m', hswop, hwell, hlevel, -, -⟩ := h.swop hl
      have hreorder : reorder m a l = l.map (Equiv.swap a.own next) := by
        rw [reorder, hexchanged, hnext]
      rw [hreorder]
      exact ⟨{ m' with pri := Function.update m'.pri a.own (m'.pri a.own + 1) },
        by simp [onTrigger, hfound, hcache, hnext, hswop], hwell.setPri _, hlevel⟩

def reset : Trigger := ⟨0, 0, 0, detectTorst, true⟩

end Runs

end GroupLinks
