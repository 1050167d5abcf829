import Mathlib.Data.List.Nodup
import Mathlib.Logic.Equiv.Basic
import NoZapret.Library.Runs
import NoZapret.Groups

/-!
# The strategy cache

All connections to one destination share one cache entry. `connect_hook` starts
a new client from it, `on_trigger` writes it: the mask is or-ed, the group and
the detection are replaced. `triggerClean` is the condition under which a trigger
leaves the entry such that `find_dp` finds a group for the next client.
-/

namespace Cache

open Packets Groups Runs

/-- `struct elem_i` -/
structure Entry where
  dpMask : Mask := 0
  dp : Nat
  detect : Detect := 0
  time : Nat
  deriving DecidableEq

structure Env where
  dst : Dst
  /-- a mode in which the request is taken before connecting (RAWTLS, SHADOWSOCKS, TCP) -/
  early : Bool := false

structure State where
  groups : List Group
  entry : Option Entry := none
  clients : Nat → Option Client := fun _ => none

inductive Act where
  /-- `connect_hook` for a new client -/
  | connect (i t : Nat) (buff : Option Hello)
  /-- `setup_conn`, or `connect_hook` again once the request has been read -/
  | setup (i : Nat) (buff : Option Hello)
  /-- `on_trigger`; `buff` is the request that `reconnect` puts back -/
  | trigger (i : Nat) (type : Detect) (canReconn : Bool) (t : Nat) (buff : Option Hello)

def group (groups : List Group) (i : Nat) : Option Group := groups.find? fun g => g.id == i

/-- `cache_get` -/
def cacheGet (st : State) (t : Nat) : Option Entry :=
  st.entry.filter fun e =>
    let ttl := (group st.groups e.dp).elim 0 Group.cacheTtl
    !(ttl != 0 && decide (e.time + ttl < t))

/-- `connect_hook` for a client without a group. -/
def connectHook (env : Env) (st : State) (t : Nat) (buff : Option Hello) : Option Group × Client :=
  let c : Client := match cacheGet st t with
    | some e => { dp := some e.dp, dpMask := e.dpMask, detect := e.detect }
    | none => {}
  findDp st.groups c buff env.dst

structure Found where
  next : Option Group
  uncheked : Mask
  dpMask : Mask

/-- The loop of `on_trigger`. -/
def scan (type : Detect) (canReconn : Bool) : List Group → Mask → Mask → Found
  | [], u, m => ⟨none, u, m⟩
  | dp :: rest, u, m =>
    if u = 0 ∧ dp.detect = 0 then ⟨none, u, m⟩
    else if !tried m dp && (dp.detect == 0 || dp.detect &&& type != 0) &&
        (!dp.autoLevel.onReconn || canReconn) then ⟨some dp, u, m⟩
    else scan type canReconn rest (u &&& ~~~dp.bit) (m ||| dp.bit)

/-- `swop_groups`: the two change places, `detect` and `auto_level` stay where
they are. `dpc` comes before `dpn`, since the scan has passed it. -/
def swopGroups (dpc dpn : Group) (groups : List Group) : List Group :=
  groups.map fun g =>
    if g.id = dpc.id then { dpn with detect := dpc.detect, autoLevel := dpc.autoLevel }
    else if g.id = dpn.id then { dpc with detect := dpn.detect, autoLevel := dpn.autoLevel }
    else g

/-- `lav->dp->pri++` -/
def raise (own : Group) (groups : List Group) : List Group :=
  groups.map fun g => if g.id = own.id then { g with pri := g.pri + 1 } else g

/-- Does the trigger exchange the client's group with the next one? -/
def exchanges (own next : Group) (found : Found) : Bool :=
  next.autoLevel.sort && decide (next.pri < own.pri) && !tried found.uncheked own

def resort (e : Entry) (own : Group) (found : Found) (groups : List Group) : List Group :=
  if tried e.dpMask own then groups
  else match found.next with
    | none => raise own groups
    | some next =>
      raise own (if exchanges own next found then swopGroups own next groups else groups)

/-- The entry that `cache_add` returns. -/
def cacheAdd (st : State) (t : Nat) : Entry :=
  match st.entry with
  | some e => { e with time := t }
  | none => { dp := 0, time := t }

def scanFrom (st : State) (c : Client) (own : Group) (type : Detect) (canReconn : Bool) : Found :=
  scan type canReconn st.groups (c.dpMask ||| own.bit) (c.dpMask ||| own.bit)

/-- Does the trigger reconnect? `auto_level` is read after the exchange. -/
def reconnects (groups : List Group) (next : Group) (canReconn : Bool) : Bool :=
  canReconn && (group groups next.id).any fun g => !g.autoLevel.noReconn

def trigger (env : Env) (st : State) (i : Nat) (type : Detect) (canReconn : Bool) (t : Nat)
    (buff : Option Hello) : Option State := do
  let c ← st.clients i
  let own ← c.dp.bind (group st.groups)
  let e := cacheAdd st t
  let found := scanFrom st c own type canReconn
  let groups := resort e own found st.groups
  let c := { c with dpMask := found.dpMask, detect := type }
  match found.next with
  | none =>
    return ⟨groups, some { dp := (groups.head?.map Group.id).getD 0, time := t },
      Function.update st.clients i (some c)⟩
  | some next =>
    let c := if reconnects groups next canReconn then (findDp groups c buff env.dst).2 else c
    return ⟨groups, some ⟨e.dpMask ||| found.dpMask, next.id, type, t⟩,
      Function.update st.clients i (some c)⟩

def step (env : Env) (st : State) : Act → Option State
  | .connect i t buff =>
    if (st.clients i).isSome || (buff.isSome && !env.early) then none
    else
      let (dp, c) := connectHook env st t buff
      some { st with
        entry := cacheGet st t, clients := Function.update st.clients i (dp.map fun _ => c) }
  | .setup i buff => do
    let c ← st.clients i
    let (dp, c) := findDp st.groups c buff env.dst
    return { st with clients := Function.update st.clients i (dp.map fun _ => c) }
  | .trigger i type canReconn t buff => trigger env st i type canReconn t buff

/-- After `parse_args`. `load_cache` may have put the destination into the cache,
for the group that names the file. -/
def start (opts : List Opt) (cached : Option (Nat × Nat)) : State :=
  { groups := parseGroups opts, entry := cached.map fun x => { dp := x.1, time := x.2 } }

/-- Does the group accept every new client for the destination? -/
def admits (env : Env) (g : Group) : Bool :=
  checkL34 g .stream env.dst &&
  (!env.early || (!(g.proto.tcp || g.proto.udp || g.proto.http || g.proto.https) && g.hosts.isNone))

/-- `detect` of a group once `own` and `next` have changed places. -/
def detectAfter (own next g : Group) : Detect :=
  if g.id = own.id then next.detect else if g.id = next.id then own.detect else g.detect

/-- A group that neither the entry nor the client has tried or passed over, for
this detection, that accepts the destination. -/
def leaves (env : Env) (e : Entry) (found : Found) (type : Detect) (g : Group) : Bool :=
  !tried e.dpMask g && !tried found.dpMask g &&
  (g.detect == 0 || g.detect &&& type != 0) && admits env g

/-- The condition on a trigger: it finds no next group and clears the entry, or
some group is left for the next client; and an exchange leaves an accepting group
without `detect`. -/
def triggerClean (env : Env) (st : State) (i : Nat) (type : Detect) (canReconn : Bool) (t : Nat) :
    Bool :=
  match st.clients i with
  | none => true
  | some c =>
    match c.dp.bind (group st.groups) with
    | none => true
    | some own =>
      let found := scanFrom st c own type canReconn
      match found.next with
      | none => true
      | some next =>
        st.groups.any (leaves env (cacheAdd st t) found type) &&
        (!exchanges own next found ||
          st.groups.any fun g => admits env g && detectAfter own next g == 0)

def actClean (env : Env) (st : State) : Act → Bool
  | .connect _ _ _ | .setup _ _ => true
  | .trigger i type canReconn t _ => triggerClean env st i type canReconn t

/-- A group that a client with this entry comes to and gets. -/
def Leads (env : Env) (groups : List Group) (e : Entry) : Prop :=
  ∃ g ∈ groups, tried e.dpMask g = false ∧ admits env g = true ∧
    (e.dp = g.id ∨ g.detect = 0 ∨ e.detect &&& g.detect ≠ 0)

structure Numbered (groups : List Group) : Prop where
  nodup : (groups.map Group.id).Nodup
  small : ∀ g ∈ groups, g.id < 31

structure Safe (env : Env) (st : State) : Prop where
  numbered : Numbered st.groups
  free : ∃ g ∈ st.groups, admits env g = true ∧ g.detect = 0
  entry : ∀ e, st.entry = some e → Leads env st.groups e

section Groups

variable {env : Env} {groups : List Group} {own next g : Group}

lemma Numbered.unique (h : Numbered groups) {a b : Group} (ha : a ∈ groups) (hb : b ∈ groups)
    (hid : b.id = a.id) : b = a :=
  List.inj_on_of_nodup_map h.nodup hb ha hid

lemma numbered_map (h : Numbered groups) {f : Group → Group} (σ : Nat → Nat)
    (hσ : Function.Injective σ) (hf : ∀ g, (f g).id = σ g.id)
    (hsmall : ∀ g ∈ groups, σ g.id < 31) : Numbered (groups.map f) := by
  constructor
  · have heq : (groups.map f).map Group.id = (groups.map Group.id).map σ := by
      simp [List.map_map, Function.comp_def, hf]
    rw [heq]
    exact h.nodup.map hσ
  · intro g hg
    obtain ⟨g', hg', rfl⟩ := List.mem_map.mp hg
    rw [hf]
    exact hsmall g' hg'

lemma numbered_swop (h : Numbered groups) (ho : own ∈ groups) (hn : next ∈ groups) :
    Numbered (swopGroups own next groups) := by
  apply numbered_map h (Equiv.swap own.id next.id) (Equiv.injective _)
  · intro g
    rw [Equiv.swap_apply_def]
    split
    · rfl
    · split <;> rfl
  · intro g hg
    rw [Equiv.swap_apply_def]
    split
    · exact h.small next hn
    · split
      · exact h.small own ho
      · exact h.small g hg

lemma numbered_raise (h : Numbered groups) : Numbered (raise own groups) := by
  apply numbered_map h id Function.injective_id
  · intro g
    split <;> rfl
  · exact fun g hg => h.small g hg

/-- Every group is still there, with what it admits and the given `detect`. -/
def Carried (env : Env) (groups groups' : List Group) (detect : Group → Detect) : Prop :=
  ∀ g ∈ groups, ∃ g' ∈ groups', g'.id = g.id ∧ admits env g' = admits env g ∧
    g'.detect = detect g

lemma carried_refl (env : Env) (groups : List Group) : Carried env groups groups Group.detect :=
  fun g hg => ⟨g, hg, rfl, rfl, rfl⟩

lemma Carried.raise {groups' : List Group} {detect : Group → Detect}
    (h : Carried env groups groups' detect) : Carried env groups (raise own groups') detect := by
  intro g hg
  obtain ⟨g1, hg1, hid, hadm, hdet⟩ := h g hg
  refine ⟨_, List.mem_map_of_mem hg1, ?_⟩
  split <;> exact ⟨hid, hadm, hdet⟩

lemma carried_swop (h : Numbered groups) (ho : own ∈ groups) (hn : next ∈ groups)
    (hne : own.id ≠ next.id) :
    Carried env groups (swopGroups own next groups) (detectAfter own next) := by
  intro g hg
  unfold detectAfter
  by_cases hgo : g.id = own.id
  · obtain rfl := h.unique ho hg hgo
    refine ⟨_, List.mem_map_of_mem hn, ?_⟩
    rw [if_pos rfl, if_neg hne.symm, if_pos rfl]
    exact ⟨rfl, rfl, rfl⟩
  · by_cases hgn : g.id = next.id
    · obtain rfl := h.unique hn hg hgn
      refine ⟨_, List.mem_map_of_mem ho, ?_⟩
      rw [if_neg hgo, if_pos rfl, if_pos rfl]
      exact ⟨rfl, rfl, rfl⟩
    · refine ⟨_, List.mem_map_of_mem hg, ?_⟩
      rw [if_neg hgo, if_neg hgn, if_neg hgo, if_neg hgn]
      exact ⟨rfl, rfl, rfl⟩

end Groups

section Trigger

variable {env : Env} {st : State} {g : Group}

lemma group_some {groups : List Group} {i : Nat} (h : group groups i = some g) :
    g ∈ groups ∧ g.id = i := by
  refine ⟨List.mem_of_find?_eq_some h, ?_⟩
  simpa using List.find?_some h

/-- The group the scan stops at has not been tried, and the mask only grows. -/
lemma scan_spec {type : Detect} {canReconn : Bool} {l : List Group} :
    ∀ {u m : Mask} {next : Group}, (∀ h ∈ l, h.id < 31) →
      (scan type canReconn l u m).next = some next →
      next ∈ l ∧ tried (scan type canReconn l u m).dpMask next = false := by
  induction l with
  | nil =>
    intro u m next _ h
    cases h
  | cons dp rest ih =>
    intro u m next hall h
    rw [scan] at h ⊢
    split at h
    · cases h
    · next hstop =>
      rw [if_neg hstop]
      split at h
      · next htake =>
        rw [if_pos htake]
        cases h
        simp only [Bool.and_eq_true, Bool.not_eq_true'] at htake
        exact ⟨List.mem_cons_self, htake.1.1⟩
      · next htake =>
        rw [if_neg htake]
        obtain ⟨hin, hm⟩ := ih (fun x hx => hall x (List.mem_cons_of_mem dp hx)) h
        exact ⟨List.mem_cons_of_mem dp hin, hm⟩

lemma scan_keeps {type : Detect} {canReconn : Bool} (hg : g.id < 31) {l : List Group} :
    ∀ {u m : Mask}, tried m g = true → tried (scan type canReconn l u m).dpMask g = true := by
  induction l with
  | nil => exact id
  | cons dp rest ih =>
    intro u m hm
    rw [scan]
    split
    · exact hm
    · split
      · exact hm
      · exact ih (by rw [tried_or _ _ _ hg, hm, Bool.true_or])

lemma resort_numbered {e : Entry} {own : Group} {found : Found} {groups : List Group}
    (h : Numbered groups) (ho : own ∈ groups) (hn : ∀ next, found.next = some next → next ∈ groups) :
    Numbered (resort e own found groups) := by
  unfold resort
  split
  · exact h
  · split
    · exact numbered_raise h
    · next next hnext =>
      split
      · exact numbered_raise (numbered_swop h ho (hn next hnext))
      · exact numbered_raise h

/-- What a trigger does to the list: an exchange, or nothing that `find_dp` sees. -/
lemma resort_carried (e : Entry) {own : Group} {found : Found} {groups : List Group}
    (h : Numbered groups) (ho : own ∈ groups)
    (hn : ∀ next, found.next = some next → next ∈ groups ∧ own.id ≠ next.id) :
    Carried env groups (resort e own found groups) Group.detect ∨
      ∃ next, found.next = some next ∧ exchanges own next found = true ∧
        Carried env groups (resort e own found groups) (detectAfter own next) := by
  unfold resort
  split
  · exact .inl (carried_refl env groups)
  · split
    · exact .inl (carried_refl env groups).raise
    · next next hnext =>
      obtain ⟨hin, hne⟩ := hn next hnext
      cases hex : exchanges own next found with
      | true =>
        right
        refine ⟨next, hnext, hex, ?_⟩
        rw [if_pos rfl]
        exact (carried_swop h ho hin hne).raise
      | false =>
        left
        rw [if_neg (by decide)]
        exact (carried_refl env groups).raise

lemma tried_own (m : Mask) {own : Group} (ho : own.id < 31) : tried (m ||| own.bit) own = true := by
  rw [tried_or _ _ _ ho, tried_bit ho ho]
  simp

lemma leads_reset {groups : List Group} {dp t : Nat}
    (h : ∃ g ∈ groups, admits env g = true ∧ g.detect = 0) :
    Leads env groups { dp := dp, time := t } := by
  obtain ⟨g, hg, hadm, hdet⟩ := h
  exact ⟨g, hg, by simp [tried], hadm, .inr (.inl hdet)⟩

section Clean

variable {c : Client} {own : Group} {type : Detect} {canReconn : Bool} {t : Nat}

/-- The client's group is tried, the next one is not. -/
lemma scanFrom_next (hs : Numbered st.groups) (ho : own ∈ st.groups) :
    ∀ next, (scanFrom st c own type canReconn).next = some next →
      next ∈ st.groups ∧ own.id ≠ next.id := by
  intro next hnext
  have hosmall := hs.small own ho
  obtain ⟨hin, hm⟩ := scan_spec hs.small hnext
  refine ⟨hin, ?_⟩
  intro hid
  obtain rfl := hs.unique ho hin hid.symm
  rw [scan_keeps hosmall (tried_own _ hosmall)] at hm
  cases hm

/-- A group without `detect` remains. -/
lemma resort_free (hs : Safe env st) (ho : own ∈ st.groups)
    (hok : ∀ next, (scanFrom st c own type canReconn).next = some next →
      exchanges own next (scanFrom st c own type canReconn) = true →
      ∃ g ∈ st.groups, admits env g = true ∧ detectAfter own next g = 0) :
    ∃ g ∈ resort (cacheAdd st t) own (scanFrom st c own type canReconn) st.groups,
      admits env g = true ∧ g.detect = 0 := by
  rcases resort_carried (cacheAdd st t) hs.numbered ho (scanFrom_next hs.numbered ho)
    with hsame | ⟨next, hnext, hex, hswop⟩
  · obtain ⟨g, hg, hadm, hdet⟩ := hs.free
    obtain ⟨g', hg', -, hadm', hdet'⟩ := hsame g hg
    exact ⟨g', hg', hadm'.trans hadm, hdet'.trans hdet⟩
  · obtain ⟨g, hg, hadm, hdet⟩ := hok next hnext hex
    obtain ⟨g', hg', -, hadm', hdet'⟩ := hswop g hg
    exact ⟨g', hg', hadm'.trans hadm, hdet'.trans hdet⟩

/-- The group left for the next client is one that the new entry leads to. -/
lemma resort_leads {g next : Group} (hs : Safe env st) (ho : own ∈ st.groups)
    (hnext : (scanFrom st c own type canReconn).next = some next) (hg : g ∈ st.groups)
    (hleft : leaves env (cacheAdd st t) (scanFrom st c own type canReconn) type g = true) :
    Leads env (resort (cacheAdd st t) own (scanFrom st c own type canReconn) st.groups)
      ⟨(cacheAdd st t).dpMask ||| (scanFrom st c own type canReconn).dpMask, next.id, type, t⟩ := by
  have hgsmall := hs.numbered.small g hg
  simp only [leaves, Bool.and_eq_true, Bool.or_eq_true, Bool.not_eq_true', beq_iff_eq,
    bne_iff_ne] at hleft
  obtain ⟨⟨⟨he, hc⟩, hdet⟩, hadm⟩ := hleft
  have hne : g.id ≠ own.id := by
    intro hid
    obtain rfl := hs.numbered.unique ho hg hid
    rw [scanFrom, scan_keeps hgsmall (tried_own _ hgsmall)] at hc
    cases hc
  have hmask : ∀ g' : Group, g'.id = g.id → tried ((cacheAdd st t).dpMask |||
      (scanFrom st c own type canReconn).dpMask) g' = false := by
    intro g' hid
    have hg' : g'.id < 31 := hid ▸ hgsmall
    rw [tried_eq hgsmall] at he hc
    rw [tried_or _ _ _ hg', tried_eq hg', tried_eq hg', hid, he, hc]
    rfl
  have hkeep : ∀ {detect : Group → Detect}, next.id = g.id ∨ detect g = g.detect →
      Carried env st.groups (resort (cacheAdd st t) own (scanFrom st c own type canReconn)
        st.groups) detect →
      Leads env (resort (cacheAdd st t) own (scanFrom st c own type canReconn) st.groups)
        ⟨(cacheAdd st t).dpMask ||| (scanFrom st c own type canReconn).dpMask, next.id, type, t⟩ := by
    intro detect hor hcarried
    obtain ⟨g', hg', hid, hadm', hdet'⟩ := hcarried g hg
    refine ⟨g', hg', hmask g' hid, hadm'.trans hadm, ?_⟩
    rcases hor with heq | heq
    · exact .inl (heq.trans hid.symm)
    · rw [hdet', heq, BitVec.and_comm]
      exact .inr hdet
  rcases resort_carried (cacheAdd st t) hs.numbered ho (scanFrom_next hs.numbered ho)
    with hsame | ⟨next', hnext', -, hswop⟩
  · exact hkeep (.inr rfl) hsame
  · obtain rfl := Option.some.inj (hnext.symm.trans hnext')
    refine hkeep ?_ hswop
    by_cases hid : g.id = next.id
    · exact .inl hid.symm
    · right
      rw [detectAfter, if_neg hne, if_neg hid]

end Clean

/-- A clean trigger leaves a group for the next client. -/
theorem trigger_safe {i : Nat} {type : Detect} {canReconn : Bool} {t : Nat} {buff : Option Hello}
    {st' : State} (hs : Safe env st) (hok : triggerClean env st i type canReconn t = true)
    (h : trigger env st i type canReconn t buff = some st') : Safe env st' := by
  simp only [trigger, Option.bind_eq_bind, Option.bind_eq_some_iff] at h
  obtain ⟨c, hc, own, ⟨j, hj, hown⟩, h⟩ := h
  have hown' : c.dp.bind (group st.groups) = some own := Option.bind_eq_some_iff.mpr ⟨j, hj, hown⟩
  simp only [triggerClean, hc, hown'] at hok
  obtain ⟨ho, -⟩ := group_some hown
  have hnum : Numbered (resort (cacheAdd st t) own (scanFrom st c own type canReconn) st.groups) :=
    resort_numbered hs.numbered ho fun next hn => (scanFrom_next hs.numbered ho next hn).1
  cases hnext : (scanFrom st c own type canReconn).next with
  | none =>
    simp only [hnext, Option.pure_def, Option.some.injEq] at h
    subst h
    have hfree : ∃ g ∈ resort (cacheAdd st t) own (scanFrom st c own type canReconn) st.groups,
        admits env g = true ∧ g.detect = 0 :=
      resort_free hs ho fun next hn => by rw [hnext] at hn; cases hn
    refine ⟨hnum, hfree, ?_⟩
    intro e he
    cases he
    exact leads_reset hfree
  | some next =>
    simp only [hnext, Bool.and_eq_true, List.any_eq_true, Bool.or_eq_true, Bool.not_eq_true',
      beq_iff_eq] at hok
    simp only [hnext, Option.pure_def, Option.some.injEq] at h
    subst h
    obtain ⟨⟨g, hg, hleft⟩, hexch⟩ := hok
    refine ⟨hnum, ?_, ?_⟩
    · apply resort_free hs ho
      intro next' hn hex
      obtain rfl := Option.some.inj (hnext.symm.trans hn)
      rcases hexch with hno | hstay
      · rw [hno] at hex
        cases hex
      · exact hstay
    · intro e he
      cases he
      exact resort_leads hs ho hnext hg hleft

theorem step_safe {st' : State} {a : Act} (hs : Safe env st) (hok : actClean env st a = true)
    (h : step env st a = some st') : Safe env st' := by
  cases a with
  | connect i t buff =>
    simp only [step] at h
    split at h
    · cases h
    · cases h
      refine ⟨hs.numbered, hs.free, ?_⟩
      intro e he
      exact hs.entry e (Option.eq_some_of_filter_eq_some he)
  | setup i buff =>
    simp only [step, Option.bind_eq_bind, Option.bind_eq_some_iff] at h
    obtain ⟨c, -, h⟩ := h
    cases h
    exact ⟨hs.numbered, hs.free, hs.entry⟩
  | trigger i type canReconn t buff => exact trigger_safe hs hok h

end Trigger

section Start

variable {env : Env}

lemma admits_of_unlimited (env : Env) {g : Group} (h : limited g = false) :
    admits env g = true ∧ g.detect = 0 := by
  simp only [limited, Proto.any, Bool.or_eq_false_iff, bne_eq_false_iff_eq,
    Option.isSome_eq_false_iff, Option.isNone_iff_eq_none] at h
  obtain ⟨⟨⟨⟨hhosts, ⟨⟨⟨htcp, hudp⟩, hhttp⟩, hhttps⟩, hipv4⟩, hpf⟩, hdet⟩, hipset⟩ := h
  refine ⟨?_, hdet⟩
  simp [admits, checkL34, hhosts, htcp, hudp, hhttp, hhttps, hipv4, hpf, hipset]

theorem start_safe (env : Env) (opts : List Opt) (cached : Option (Nat × Nat))
    (hn : (parseGroups opts).length ≤ 31) : Safe env (start opts cached) := by
  have hids := parseGroups_ids opts
  have hfree : ∃ g ∈ parseGroups opts, admits env g = true ∧ g.detect = 0 := by
    obtain ⟨g, hg, hfree⟩ := parseGroups_unlimited opts
    exact ⟨g, hg, admits_of_unlimited env hfree⟩
  refine ⟨⟨?_, ?_⟩, hfree, ?_⟩
  · rw [start, hids]
    exact List.nodup_range
  · intro g hg
    have hmem : g.id ∈ (parseGroups opts).map Group.id := List.mem_map_of_mem hg
    rw [hids, List.mem_range] at hmem
    omega
  · intro e he
    simp only [start, Option.map_eq_some_iff] at he
    obtain ⟨x, -, rfl⟩ := he
    exact leads_reset hfree

lemma takes_of_admits {g : Group} {buff : Option Hello} {init : Option Nat} {detect : Detect}
    (hbuff : buff = none ∨ env.early = true) (h : admits env g = true)
    (hdet : init = some g.id ∨ g.detect = 0 ∨ detect &&& g.detect ≠ 0) :
    takes env.dst buff init detect g = true := by
  simp only [admits, Bool.and_eq_true, Bool.or_eq_true, Bool.not_eq_true',
    Bool.or_eq_false_iff, Option.isNone_iff_eq_none] at h
  obtain ⟨hl34, hfilter⟩ := h
  have hfound : (init == some g.id || g.detect == 0 || detect &&& g.detect != 0) = true := by
    simpa [or_assoc] using hdet
  have hcontent : (!g.proto.any || buff.all (checkProtoTcp g.proto)) = true ∧
      g.hosts.all (fun pool => buff.all (checkHost pool)) = true := by
    rcases hbuff with rfl | hearly
    · cases g.hosts <;> simp
    · obtain ⟨⟨⟨⟨htcp, hudp⟩, hhttp⟩, hhttps⟩, hhosts⟩ :=
        hfilter.resolve_left (by simp [hearly])
      cases buff <;> simp [hhosts, checkProtoTcp, htcp, hudp, hhttp, hhttps]
  rw [takes, hfound, hl34, hcontent.1, hcontent.2]
  rfl

/-- In a safe state `find_dp` finds a group for a new client. -/
theorem connectHook_finds {st : State} {t : Nat} {buff : Option Hello} (hs : Safe env st)
    (hbuff : buff = none ∨ env.early = true) : (connectHook env st t buff).1.isSome := by
  unfold connectHook
  cases hget : cacheGet st t with
  | none =>
    obtain ⟨g, hg, hadm, hdet⟩ := hs.free
    exact findDp_finds hs.numbered.small (fun a ha b hb => hs.numbered.unique ha hb) hg
      (by simp [tried]) (takes_of_admits hbuff hadm (.inr (.inl hdet)))
  | some e =>
    obtain ⟨g, hg, hm, hadm, hdet⟩ := hs.entry e (Option.eq_some_of_filter_eq_some hget)
    refine findDp_finds hs.numbered.small (fun a ha b hb => hs.numbered.unique ha hb) hg hm
      (takes_of_admits hbuff hadm ?_)
    simpa using hdet

end Start

/-- No destination is black-holed in a run whose triggers are all clean: in every
state it reaches, a new client gets a group. -/
theorem new_client_gets_group (env : Env) (opts : List Opt) (cached : Option (Nat × Nat))
    (as : List Act) (st : State) (t : Nat) (buff : Option Hello)
    (hn : (parseGroups opts).length ≤ 31)
    (hok : Meets (step env) (fun st a => actClean env st a = true) (start opts cached) as)
    (hrun : run (step env) (start opts cached) as = some st)
    (hbuff : buff = none ∨ env.early = true) : (connectHook env st t buff).1.isSome := by
  have hsafe : Safe env st :=
    run_preserves (fun _ _ _ hs hok h => step_safe hs hok h) (start_safe env opts cached hn) hok hrun
  exact connectHook_finds hsafe hbuff

/-- `--auto t --auto s` -/
def torstThenTls : List Opt := [.auto detectTorst none, .auto detectTlsErr none]

def tlsHello : Hello := ⟨false, true, none⟩

def port443 : Env := { dst := { inet := true, port := 443 } }

theorem new_client_gets_group_once :
    ∃ st, run (step port443) (start torstThenTls none)
        [.connect 0 0 none, .trigger 0 detectTorst false 0 none] = some st ∧
      (connectHook port443 st 0 none).1.isSome := by
  refine ⟨_, rfl, ?_⟩
  exact new_client_gets_group port443 torstThenTls none
    [.connect 0 0 none, .trigger 0 detectTorst false 0 none] _ 0 none (by decide) (by decide) rfl
    (.inl rfl)

/-- Two connections through the first group fail, one with a TLS error and one
with a reset. The mask of the first trigger and the group of the second exclude
each other, and no new client is let through. -/
theorem mixed_triggers_black_hole :
    ∃ st, run (step port443) (start torstThenTls none)
        [.connect 0 0 none, .connect 1 0 none, .setup 0 (some tlsHello),
          .setup 1 (some tlsHello), .trigger 0 detectTlsErr false 0 none,
          .trigger 1 detectTorst false 0 none] = some st ∧
      (connectHook port443 st 0 none).1.isSome = false := by
  exact ⟨_, rfl, by decide⟩

end Cache
