import Mathlib.Data.Finset.Card
import NoZapret.Cache

/-!
# The attempts of one client

`connect_hook`, `setup_conn`, `on_response` and `on_trigger` for one client connection, with
every call of `create_conn`. What other connections do between two steps is to reorder the
groups with their own triggers and to rewrite the cache entry of the destination.
-/

namespace Attempts

open Packets Groups Cache Runs

structure Env where
  dst : Dst
  delayConn : Bool := false

/-- Whether the client waits for its request, was answered to send it first
(`recv_and_connect`), has a remote slot, or is closed. -/
inductive Phase where
  | fresh
  | delayed
  | connected
  | closed
  deriving DecidableEq

structure State where
  groups : List Group
  /-- the cache entry of the destination -/
  entry : Option Entry := none
  client : Client := {}
  phase : Phase := .fresh
  /-- `dp_mask` before the last trigger -/
  cause : Option Mask := none
  /-- the group of each `create_conn`, with the mask before the trigger that caused it -/
  attempts : List (Option Mask × Nat) := []

inductive Act where
  /-- `on_request`; the last argument is whether `resp_error` or `create_conn` succeeds -/
  | request (t : Nat) (buff : Option Hello) (ok : Bool)
  /-- `recv_and_connect` -/
  | data (t : Nat) (buff : Hello) (ok : Bool)
  /-- `setup_conn` -/
  | setup (buff : Hello)
  /-- `on_response` sets the bit of the client's group -/
  | respond
  | trigger (type : Detect) (canReconn : Bool) (t : Nat) (buff : Option Hello) (ok : Bool)
  /-- a trigger of another connection, which has this entry and this client -/
  | other (e : Entry) (c : Client) (type : Detect) (canReconn : Bool)
  | cached (e : Option Entry)

/-- The client is answered before the connection is made. -/
def delays (env : Env) (dp : Group) (buff : Option Hello) : Bool :=
  (dp.hosts.isSome || dp.proto.any) && buff.isNone && env.delayConn

/-- A new client starts from the cache entry. -/
def load (st : State) (t : Nat) : Client :=
  match st.client.dp, cacheGet ⟨st.groups, st.entry, fun _ => none⟩ t with
  | none, some e => { dp := some e.dp, dpMask := e.dpMask, detect := e.detect }
  | _, _ => st.client

/-- Return value and state behind `connect_hook`. -/
def connectHook (env : Env) (st : State) (t : Nat) (buff : Option Hello) (ok : Bool) :
    Bool × State :=
  let found := findDp st.groups (load st t) buff env.dst
  match found.1 with
  | none => (false, { st with client := found.2 })
  | some dp =>
    if delays env dp buff then
      (ok, { st with client := found.2, phase := if ok then .delayed else st.phase })
    else
      (ok, { st with
        client := found.2
        attempts := st.attempts ++ [(st.cause, dp.id)]
        phase := if ok then .connected else st.phase })

/-- The client is closed where the hook fails. -/
def orClose (r : Bool × State) : State := if r.1 then r.2 else { r.2 with phase := .closed }

/-- `lav->dp_mask |= lav->dp->bit`, the loop, the exchange of groups and the new entry. -/
def onTrigger (env : Env) (st : State) (type : Detect) (canReconn : Bool) (t : Nat)
    (buff : Option Hello) (ok : Bool) : Option State := do
  let own ← st.client.dp.bind (group st.groups)
  let e := cacheAdd ⟨st.groups, st.entry, fun _ => none⟩ t
  let found := scanFrom ⟨st.groups, st.entry, fun _ => none⟩ st.client own type canReconn
  let groups := resort e own found st.groups
  let st := { st with
    groups := groups
    client := { st.client with dpMask := found.dpMask, detect := type }
    cause := some st.client.dpMask }
  match found.next with
  | none => return { st with entry := some { dp := (groups.head?.map Group.id).getD 0, time := t } }
  | some next =>
    let st := { st with entry := some ⟨e.dpMask ||| found.dpMask, next.id, type, t⟩ }
    return if reconnects groups next canReconn then (connectHook env st t buff ok).2 else st

def step (env : Env) (st : State) : Act → Option State
  | .request t buff ok =>
    if st.phase = .fresh then some (orClose (connectHook env st t buff ok)) else none
  | .data t buff ok =>
    if st.phase = .delayed then some (orClose (connectHook env st t (some buff) ok)) else none
  | .setup buff =>
    if st.phase = .connected then
      let found := findDp st.groups st.client (some buff) env.dst
      some { st with client := found.2, phase := if found.1.isSome then .connected else .closed }
    else none
  | .respond => do
    let own ← st.client.dp.bind (group st.groups)
    if st.phase = .connected then
      return { st with client := { st.client with dpMask := st.client.dpMask ||| own.bit } }
    else none
  | .trigger type canReconn t buff ok =>
    if st.phase = .connected then onTrigger env st type canReconn t buff ok else none
  | .other e c type canReconn => do
    let own ← c.dp.bind (group st.groups)
    let found := scanFrom ⟨st.groups, some e, fun _ => none⟩ c own type canReconn
    return { st with groups := resort e own found st.groups }
  | .cached e => some { st with entry := e }

section Masks

variable {n : Nat} {m m' : Mask} {groups l : List Group} {g own : Group}

def Below (m m' : Mask) : Prop := ∀ i, m.getLsbD i = true → m'.getLsbD i = true

lemma Below.trans {m'' : Mask} (h : Below m m') (h' : Below m' m'') : Below m m'' :=
  fun i hi => h' i (h i hi)

/-- The groups whose bit is not set. -/
def left (n : Nat) (m : Mask) : Finset Nat :=
  (Finset.range n).filter fun i => m.getLsbD i = false

lemma left_subset (h : Below m m') : left n m' ⊆ left n m := by
  intro i hi
  simp only [left, Finset.mem_filter] at hi ⊢
  refine ⟨hi.1, ?_⟩
  by_contra hset
  exact absurd (h i (eq_true_of_ne_false hset)) (by simp only [hi.2, Bool.false_eq_true, not_false_iff])

lemma card_left_le (h : Below m m') : (left n m').card ≤ (left n m).card :=
  Finset.card_le_card (left_subset h)

lemma card_left_lt (h : Below m m') {i : Nat} (hi : i ∈ left n m) (hset : m'.getLsbD i = true) :
    (left n m').card < (left n m).card := by
  refine Finset.card_lt_card ⟨left_subset h, ?_⟩
  intro hsub
  have hmem := hsub hi
  simp only [left, Finset.mem_filter] at hmem
  exact absurd hset (by simp only [hmem.2, Bool.false_eq_true, not_false_iff])

/-- The groups have the numbers below `n`, and the sign bit is not used. -/
def Ids (n : Nat) (groups : List Group) : Prop := n ≤ 31 ∧ ∀ g ∈ groups, g.id < n

lemma Ids.small (h : Ids n groups) (hg : g ∈ groups) : g.id < 31 := by
  have := h.2 g hg
  have := h.1
  omega

end Masks

section Bound

variable {n : Nat} {env : Env} {st st' : State} {c : Client} {m' : Mask}

/-- The client's group still has its bit to set. -/
def Untried (n : Nat) (c : Client) : Prop := ∃ i ∈ left n c.dpMask, c.dp = some i

/-- An attempt takes a group, and the trigger behind it the group's bit. -/
structure Counted (n attempts : Nat) (c : Client) : Prop where
  le : attempts + (left n c.dpMask).card ≤ n + 1
  spent : ¬ Untried n c → attempts + (left n c.dpMask).card ≤ n

/-- More bits, for the same group. -/
lemma Counted.grow {k : Nat} {c' : Client} (h : Counted n k c) (hm : Below c.dpMask c'.dpMask)
    (hdp : c'.dp = c.dp) : Counted n k c' := by
  have hle : (left n c'.dpMask).card ≤ (left n c.dpMask).card := card_left_le hm
  constructor
  · have := h.le
    omega
  · intro hu
    by_cases hold : Untried n c
    · obtain ⟨i, hi, hdpi⟩ := hold
      have hset : c'.dpMask.getLsbD i = true := by
        by_contra hbit
        refine hu ⟨i, ?_, hdp.trans hdpi⟩
        simp only [left, Finset.mem_filter] at hi ⊢
        exact ⟨hi.1, eq_false_of_ne_true hbit⟩
      have hlt : (left n c'.dpMask).card < (left n c.dpMask).card := card_left_lt hm hi hset
      have := h.le
      omega
    · have := h.spent hold
      omega

/-- A trigger sets the bit of the client's group. -/
lemma Counted.trigger {k : Nat} {own : Group} (h : Counted n k c) (hm : Below c.dpMask m')
    (hdp : c.dp = some own.id) (hset : m'.getLsbD own.id = true) : k + (left n m').card ≤ n := by
  have hgrow : Counted n k { c with dpMask := m' } := h.grow hm rfl
  refine hgrow.spent ?_
  rintro ⟨i, hi, hdpi⟩
  obtain rfl := Option.some.inj (hdp.symm.trans hdpi)
  simp only [left, Finset.mem_filter] at hi
  exact absurd hset (by simp only [hi.2, Bool.false_eq_true, not_false_iff])

structure Core (n : Nat) (st : State) : Prop where
  ids : Ids n st.groups
  counted : Counted n st.attempts.length st.client
  cause : ∀ m, st.cause = some m → Below m st.client.dpMask
  causes : ∀ a ∈ st.attempts, ∀ m, a.1 = some m → m.getLsbD a.2 = false
  new : st.client.dp = none → st.attempts = [] ∧ st.cause = none

/-- Before the client's next attempt the bits of the groups it has used are set. -/
def Waits (n : Nat) (st : State) : Prop :=
  st.phase = .fresh ∨ st.phase = .delayed →
    st.attempts.length + (left n st.client.dpMask).card ≤ n

structure Bounded (n : Nat) (st : State) : Prop where
  core : Core n st
  waits : Waits n st

/-- A client before its request, with any cache entry. -/
def start (opts : List Opt) (entry : Option Entry) : State :=
  { groups := parseGroups opts, entry := entry }

end Bound

end Attempts
