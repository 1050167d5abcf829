import Mathlib.Data.List.Basic
import NoZapret.Packets

/-!
# Strategy groups

The groups that `parse_args` builds, as far as choosing one depends on them, and
`find_dp`. A pointer to a group is its `id`; the linked list is a `List`, which
`swop_groups` reorders. What the parsers of `packets.c` say about the first
request of a connection is a `Hello`.
-/

namespace Groups

open Packets

abbrev Mask := BitVec 64
/-- The `DETECT_*` bits. -/
abbrev Detect := BitVec 16

def detectTorst : Detect := 8
def detectTlsErr : Detect := 2

/-- The `IS_*` bits of `proto`. -/
structure Proto where
  tcp : Bool := false
  udp : Bool := false
  http : Bool := false
  https : Bool := false
  ipv4 : Bool := false
  deriving DecidableEq

def Proto.any (p : Proto) : Bool := p.tcp || p.udp || p.http || p.https || p.ipv4

/-- The destination of a connection. `port` is `sin_port` as it is stored, in
network order, and is compared in that order. -/
structure Dst where
  inet : Bool
  /-- an IPv4 address in IPv6 form -/
  mapped : Bool := false
  ip : Bytes := []
  port : Nat
  deriving DecidableEq

structure AutoLevel where
  onReconn : Bool := false
  noReconn : Bool := false
  sort : Bool := false
  deriving DecidableEq

structure Group where
  id : Nat
  proto : Proto := {}
  detect : Detect := 0
  autoLevel : AutoLevel := {}
  hosts : Option (Bytes → Bool) := none
  ipset : Option (Bytes → Bool) := none
  pf : Nat × Nat := (0, 0)
  pri : Int := 0
  cacheTtl : Nat := 0

/-- `is_http`, `is_tls_chello` and the name that `parse_tls` or `parse_http` finds. -/
structure Hello where
  http : Bool
  tls : Bool
  host : Option Bytes

/-- `1 << id` on an `int`, as the 64-bit field takes it. -/
def bitOf (id : Nat) : Mask := (1#32 <<< id).signExtend 64

/-- `dp->bit` -/
def Group.bit (g : Group) : Mask := bitOf g.id

def tried (m : Mask) (g : Group) : Bool := g.bit &&& m != 0

/-- `params.dp_full_mask` -/
def fullMask (groups : List Group) : Mask := groups.foldl (fun m g => m ||| g.bit) 0

inductive SockType where
  | stream
  | dgram
  deriving DecidableEq

def checkL34 (g : Group) (st : SockType) (dst : Dst) : Bool :=
  !(g.proto.udp && st != .dgram) && !(g.proto.tcp && st != .stream) &&
  !(g.proto.ipv4 && !dst.inet && !dst.mapped) &&
  !(g.pf.1 != 0 && (decide (dst.port < g.pf.1) || decide (g.pf.2 < dst.port))) &&
  g.ipset.all fun pool => pool dst.ip

def checkProtoTcp (p : Proto) (h : Hello) : Bool :=
  !(p.tcp || p.udp || p.http || p.https) || (p.http && h.http) || (p.https && h.tls)

/-- `check_host`; the pool says whether `mem_get` finds a listed domain. -/
def checkHost (pool : Bytes → Bool) (h : Hello) : Bool := h.host.any pool

/-- What `find_dp` asks of a group besides its bit. `buff` is the first request
when there is one. -/
def takes (dst : Dst) (buff : Option Hello) (init : Option Nat) (detect : Detect) (g : Group) :
    Bool :=
  (init == some g.id || g.detect == 0 || detect &&& g.detect != 0) && checkL34 g .stream dst &&
  (!g.proto.any || buff.all (checkProtoTcp g.proto)) &&
  g.hosts.all fun pool => buff.all (checkHost pool)

/-- The loop of `find_dp` over the groups it comes to. Having come round once it
has set every bit, so the list ends no earlier than the loop. -/
def findLoop (full : Mask) (ok : Group → Bool) : List Group → Mask → Option Group × Mask
  | [], m => (none, m)
  | g :: rest, m =>
    if m = full then (none, m)
    else if !tried m g && ok g then (some g, m)
    else findLoop full ok rest (m ||| g.bit)

/-- The fields of a client's `eval` that `find_dp` and `on_trigger` use. -/
structure Client where
  dp : Option Nat := none
  dpMask : Mask := 0
  detect : Detect := 0

/-- The groups in the order `find_dp` comes to them. -/
def walk (groups : List Group) (dp : Option Nat) : List Group :=
  match dp with
  | none => groups
  | some i => groups.dropWhile (fun g => g.id != i) ++ groups

/-- `find_dp`, with the `client->dp = dp` that each caller adds. The bits it has
set stay set when it finds nothing. -/
def findDp (groups : List Group) (c : Client) (buff : Option Hello) (dst : Dst) :
    Option Group × Client :=
  let found := findLoop (fullMask groups) (takes dst buff c.dp c.detect) (walk groups c.dp) c.dpMask
  (found.1, { c with dp := found.1.elim c.dp fun g => some g.id, dpMask := found.2 })

section Mask

variable {g h : Group} {m : Mask} {groups : List Group}

lemma twoPow_ne_zero {i : Nat} (hi : i < 64) : BitVec.twoPow 64 i ≠ 0 := by
  intro h
  have hbit := congrArg (fun x => x.getLsbD i) h
  simp [hi] at hbit

/-- Below the sign bit, one bit. -/
lemma bitOf_eq {i : Nat} (hi : i < 31) : bitOf i = BitVec.twoPow 64 i := by
  have hall : ∀ i < 31, bitOf i = BitVec.twoPow 64 i := by decide
  exact hall i hi

lemma tried_eq (hg : g.id < 31) : tried m g = m.getLsbD g.id := by
  unfold tried Group.bit
  rw [bitOf_eq hg, BitVec.twoPow_and]
  cases m.getLsbD g.id with
  | false => rfl
  | true => exact bne_iff_ne.mpr (twoPow_ne_zero (by omega))

lemma tried_or (a b : Mask) (g : Group) (hg : g.id < 31) :
    tried (a ||| b) g = (tried a g || tried b g) := by
  rw [tried_eq hg, tried_eq hg, tried_eq hg, BitVec.getLsbD_or]

lemma tried_bit (hg : g.id < 31) (hh : h.id < 31) : tried h.bit g = decide (h.id = g.id) := by
  rw [tried_eq hg, Group.bit, bitOf_eq hh, BitVec.getLsbD_twoPow]
  simp [Nat.lt_trans hh (show 31 < 64 by decide)]

lemma tried_foldl (hg : g.id < 31) (hm : g ∈ groups ∨ tried m g = true)
    (hall : ∀ h ∈ groups, h.id < 31) :
    tried (groups.foldl (fun m g => m ||| g.bit) m) g = true := by
  induction groups generalizing m with
  | nil => exact hm.resolve_left (List.not_mem_nil)
  | cons h rest ih =>
    have hrest : ∀ x ∈ rest, x.id < 31 := fun x hx => hall x (List.mem_cons_of_mem h hx)
    have hh : h.id < 31 := hall h List.mem_cons_self
    apply ih _ hrest
    rw [tried_or _ _ _ hg]
    rcases hm with hmem | htried
    · rcases List.mem_cons.mp hmem with rfl | hin
      · right
        simp [tried_bit hg hg]
      · exact .inl hin
    · right
      rw [htried, Bool.true_or]

/-- An untried group leaves the mask short of full. -/
lemma ne_fullMask (hall : ∀ h ∈ groups, h.id < 31) (hg : g ∈ groups) (hm : tried m g = false) :
    m ≠ fullMask groups := by
  rintro rfl
  rw [fullMask, tried_foldl (hall g hg) (.inl hg) hall] at hm
  cases hm

end Mask

section Find

variable {groups : List Group} {ok : Group → Bool} {g : Group}

/-- The loop stops at the latest at an untried group that will do. -/
lemma findLoop_finds (hall : ∀ h ∈ groups, h.id < 31) (hg : g ∈ groups) (hok : ok g = true)
    {l : List Group} :
    ∀ {m : Mask}, (∀ h ∈ l, h ∈ groups ∧ (h.id = g.id → h = g)) → g ∈ l → tried m g = false →
      ∃ g' m', findLoop (fullMask groups) ok l m = (some g', m') := by
  induction l with
  | nil =>
    intro m _ hl
    exact absurd hl List.not_mem_nil
  | cons h rest ih =>
    intro m hsub hl hm
    have hne := ne_fullMask hall hg hm
    by_cases htake : (!tried m h && ok h) = true
    · exact ⟨h, m, by simp only [findLoop, hne, if_false, htake, if_true]⟩
    · have hid : h.id ≠ g.id := by
        intro heq
        rw [(hsub h List.mem_cons_self).2 heq] at htake
        simp [hm, hok] at htake
      have hin : g ∈ rest := by
        rcases List.mem_cons.mp hl with rfl | hin
        · exact absurd rfl hid
        · exact hin
      have hm' : tried (m ||| h.bit) g = false := by
        rw [tried_or _ _ _ (hall g hg), hm, tried_bit (hall g hg)
          (hall h (hsub h List.mem_cons_self).1)]
        simp [hid]
      obtain ⟨g', m', hloop⟩ := ih (fun x hx => hsub x (List.mem_cons_of_mem h hx)) hin hm'
      refine ⟨g', m', ?_⟩
      simp only [findLoop, hne, if_false, htake]
      exact hloop

lemma mem_walk {groups : List Group} {dp : Option Nat} {g : Group} :
    g ∈ walk groups dp ↔ g ∈ groups := by
  cases dp with
  | none => rfl
  | some i =>
    simp only [walk, List.mem_append, or_iff_right_iff_imp]
    exact fun h => List.dropWhile_sublist _ |>.subset h

/-- `find_dp` returns a group when some untried one will do. -/
theorem findDp_finds {c : Client} {buff : Option Hello} {dst : Dst}
    (hall : ∀ h ∈ groups, h.id < 31) (hids : ∀ g ∈ groups, ∀ h ∈ groups, h.id = g.id → h = g)
    (hg : g ∈ groups) (hm : tried c.dpMask g = false)
    (hok : takes dst buff c.dp c.detect g = true) : (findDp groups c buff dst).1.isSome := by
  obtain ⟨g', m', hloop⟩ := findLoop_finds hall hg hok (l := walk groups c.dp)
    (fun h hh => ⟨mem_walk.mp hh, hids g hg h (mem_walk.mp hh)⟩) (mem_walk.mpr hg) hm
  simp only [findDp, hloop, Option.isSome_some]

lemma findLoop_keeps {full : Mask} (hg : g.id < 31) {l : List Group} :
    ∀ {m : Mask}, tried m g = true → tried (findLoop full ok l m).2 g = true := by
  induction l with
  | nil => exact id
  | cons h rest ih =>
    intro m hm
    rw [findLoop]
    split
    · exact hm
    · split
      · exact hm
      · exact ih (by rw [tried_or _ _ _ hg, hm, Bool.true_or])

/-- A search that fails has set the bit of every group it came to, so that the
end of the walk is the `break` of the source. -/
theorem findLoop_none {full : Mask} {l : List Group} (hall : ∀ h ∈ l, h.id < 31) :
    ∀ {m : Mask}, (findLoop full ok l m).1 = none →
      (findLoop full ok l m).2 = full ∨ ∀ g ∈ l, tried (findLoop full ok l m).2 g = true := by
  induction l with
  | nil => exact fun _ => .inr fun g hg => absurd hg List.not_mem_nil
  | cons h rest ih =>
    intro m hnone
    have hh : h.id < 31 := hall h List.mem_cons_self
    rw [findLoop] at hnone ⊢
    split at hnone
    · next hfull => exact .inl (by rw [if_pos hfull]; exact hfull)
    · next hfull =>
      rw [if_neg hfull]
      split at hnone
      · cases hnone
      · next htake =>
        rw [if_neg htake]
        rcases ih (fun x hx => hall x (List.mem_cons_of_mem h hx)) hnone with hdone | hrest
        · exact .inl hdone
        · right
          intro g hg
          rcases List.mem_cons.mp hg with rfl | hin
          · exact findLoop_keeps hh (by rw [tried_or _ _ _ hh, tried_bit hh hh]; simp)
          · exact hrest g hin

end Find

section Parse

/-- The options that shape a group, as `getopt_long` hands them over. A pool is
given as it is after the option. -/
inductive Opt where
  /-- `-A`: the detections of the new group, and `p=` for the one it closes -/
  | auto (detect : Detect) (pri : Option Int)
  | autoLevel (a : AutoLevel)
  | proto (p : Proto)
  | hosts (pool : Bytes → Bool)
  | ipset (pool : Bytes → Bool)
  | pf (lo hi : Nat)
  /-- `-B i` -/
  | copyIgnored
  | cacheTtl (ttl : Nat)

def limited (g : Group) : Bool :=
  g.hosts.isSome || g.proto.any || g.pf.1 != 0 || g.detect != 0 || g.ipset.isSome

structure Parse where
  closed : List Group := []
  dp : Group := { id := 0 }
  allLimited : Bool := true

/-- `add_group` -/
def addGroup (dpN : Nat) : Group := { id := dpN }

def AutoLevel.or (a b : AutoLevel) : AutoLevel :=
  ⟨a.onReconn || b.onReconn, a.noReconn || b.noReconn, a.sort || b.sort⟩

def Proto.or (a b : Proto) : Proto :=
  ⟨a.tcp || b.tcp, a.udp || b.udp, a.http || b.http, a.https || b.https, a.ipv4 || b.ipv4⟩

def parseOpt (p : Parse) : Opt → Parse
  | .auto detect pri =>
    { closed := p.closed ++ [{ p.dp with pri := pri.getD p.dp.pri }]
      dp := { addGroup (p.closed.length + 1) with detect := detect }
      allLimited := p.allLimited && limited p.dp }
  | .autoLevel a => { p with dp := { p.dp with autoLevel := AutoLevel.or p.dp.autoLevel a } }
  | .proto x => { p with dp := { p.dp with proto := Proto.or p.dp.proto x } }
  | .hosts pool => { p with dp := { p.dp with hosts := some pool } }
  | .ipset pool => { p with dp := { p.dp with ipset := some pool } }
  | .pf lo hi => { p with dp := { p.dp with pf := (lo, hi) } }
  | .copyIgnored => { p with dp := { p.dp with pf := (256, p.dp.pf.2) } }
  | .cacheTtl ttl => { p with dp := { p.dp with cacheTtl := ttl } }

/-- `parse_args`, for the groups. -/
def parseGroups (opts : List Opt) : List Group :=
  let p := opts.foldl parseOpt {}
  if p.allLimited then p.closed ++ [p.dp, addGroup (p.closed.length + 1)] else p.closed ++ [p.dp]

structure WellParsed (p : Parse) : Prop where
  ids : (p.closed ++ [p.dp]).map Group.id = List.range (p.closed.length + 1)
  unlimited : p.allLimited = false → ∃ g ∈ p.closed, limited g = false

lemma parseOpt_wellParsed {p : Parse} (h : WellParsed p) (o : Opt) :
    WellParsed (parseOpt p o) := by
  have hids := h.ids
  cases o with
  | auto detect pri =>
    constructor
    · simp only [parseOpt, addGroup, List.map_append, List.map_cons, List.map_nil,
        List.length_append, List.length_cons, List.length_nil] at hids ⊢
      rw [hids, ← List.range_succ]
    · intro hall
      simp only [parseOpt, Bool.and_eq_false_iff] at hall
      rcases hall with hold | hnow
      · obtain ⟨g, hg, hfree⟩ := h.unlimited hold
        exact ⟨g, List.mem_append_left _ hg, hfree⟩
      · exact ⟨{ p.dp with pri := pri.getD p.dp.pri },
          List.mem_append_right _ List.mem_cons_self, hnow⟩
  | autoLevel a => exact ⟨by simpa [parseOpt] using hids, h.unlimited⟩
  | proto x => exact ⟨by simpa [parseOpt] using hids, h.unlimited⟩
  | hosts pool => exact ⟨by simpa [parseOpt] using hids, h.unlimited⟩
  | ipset pool => exact ⟨by simpa [parseOpt] using hids, h.unlimited⟩
  | pf lo hi => exact ⟨by simpa [parseOpt] using hids, h.unlimited⟩
  | copyIgnored => exact ⟨by simpa [parseOpt] using hids, h.unlimited⟩
  | cacheTtl ttl => exact ⟨by simpa [parseOpt] using hids, h.unlimited⟩

lemma foldl_wellParsed (opts : List Opt) :
    ∀ {p : Parse}, WellParsed p → WellParsed (opts.foldl parseOpt p) := by
  induction opts with
  | nil => exact id
  | cons o rest ih => exact fun h => ih (parseOpt_wellParsed h o)

lemma parsed (opts : List Opt) : WellParsed (opts.foldl parseOpt {}) :=
  foldl_wellParsed opts ⟨rfl, fun h => by cases h⟩

/-- The groups are numbered in order. -/
theorem parseGroups_ids (opts : List Opt) :
    (parseGroups opts).map Group.id = List.range (parseGroups opts).length := by
  have h := (parsed opts).ids
  unfold parseGroups
  dsimp only
  split
  · rw [← List.singleton_append, ← List.append_assoc, List.map_append, h]
    simp [addGroup, ← List.range_succ]
  · simpa using h

/-- Some group takes every connection: `parse_args` adds one when all the others
are limited. -/
theorem parseGroups_unlimited (opts : List Opt) :
    ∃ g ∈ parseGroups opts, limited g = false := by
  have h := parsed opts
  unfold parseGroups
  dsimp only
  split
  · exact ⟨addGroup ((opts.foldl parseOpt {}).closed.length + 1), by simp, rfl⟩
  · next hall =>
    obtain ⟨g, hg, hfree⟩ := h.unlimited (by simpa using hall)
    exact ⟨g, List.mem_append_left _ hg, hfree⟩

end Parse

end Groups
