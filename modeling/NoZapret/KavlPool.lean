import NoZapret.BitPool
import NoZapret.Kavl

/-!
# The prefix pools on their trees

`mem_get`, `mem_add`, `mem_delete` and `mem_destroy` of `mpool.c` as they call `kavl.h`, for the
`CMP_BITS` pools. Any number of calls does to the elements what it does to them in a plain search
tree, and in the end `mem_destroy` gives everything back.
-/

namespace KavlPool

open SearchTree BinTree BitPool Kavl Resources Runs

universe u

/-- A `struct mphdr` with the tree as it is, and the blocks as in `BitPool.Pool`. -/
structure Mphdr (V : Type u) where
  root : Kavl.Tree (Elem V) := .leaf
  count : Nat := 0
  heap : Ledger Nat := {}
  next : Nat := 0

section Operations

variable {V : Type u} (zero : V) (hdr : Mphdr V)

/-- The pool without balance factors and sizes. -/
def Mphdr.plain : Pool V := ⟨keys hdr.root, hdr.count, hdr.heap, hdr.next⟩

def Mphdr.malloc : Nat × Mphdr V :=
  (hdr.next, { hdr with heap := hdr.heap.acquire hdr.next, next := hdr.next + 1 })

def Mphdr.free (block : Nat) : Mphdr V := { hdr with heap := hdr.heap.release block }

def destroyElem (e : Elem V) : Mphdr V := (hdr.free e.str).free e.block

/-- `scmp` for an element to look for. -/
def turn (key : Key) (x : Elem V) : Ordering := (bitCmp key x.key).getD .eq

/-- Every comparison on the way is defined. Finding, inserting and erasing make the same ones. -/
def Compared (key : Key) : Bool := (BitPool.memGet hdr.plain key).isSome

def memGet (key : Key) : Option (Option (Elem V)) :=
  if Compared hdr key then some (kavlFind (turn key) hdr.root 0).1 else none

def memDelete (key : Key) : Option (Mphdr V) :=
  if Compared hdr key then
    (kavlErase (turn key) hdr.root).map fun (root, e) =>
      match e with
      | none => { hdr with root := root }
      | some e => { destroyElem { hdr with root := root } e with count := hdr.count - 1 }
  else none

/-- The loop of `mem_add`; that two pointers are equal is seen by their blocks. -/
def memAddLoop (e : Elem V) : Nat → Mphdr V → Option (Mphdr V × Elem V)
  | 0, _ => none
  | fuel + 1, hdr =>
    if Compared hdr e.key then
      (kavlInsert (turn e.key) e hdr.root).bind fun (root, v) =>
        if v.block = e.block then some ({ hdr with root := root, count := hdr.count + 1 }, v)
        else if e.key.len < v.key.len then
          (memDelete { hdr with root := root } v.key).bind (memAddLoop e fuel)
        else some (destroyElem { hdr with root := root } e, v)
    else none

def memAdd (key : Key) (str : Nat) (room : Bool) : Option (Mphdr V × Option (Elem V)) :=
  if !room then some (hdr, none)
  else
    let e : Elem V := ⟨hdr.malloc.1, str, key, zero⟩
    (memAddLoop e (hdr.root.count + 1) hdr.malloc.2).map fun (hdr, v) => (hdr, some v)

/-- `mem_destroy`; every round takes an element out. -/
def memDestroyLoop : Nat → Mphdr V → Option (Mphdr V)
  | 0, _ => none
  | fuel + 1, hdr =>
    match hdr.root with
    | leaf => some hdr
    | root => (kavlEraseFirst root).bind fun (root, e) =>
        memDestroyLoop fuel (destroyElem { hdr with root := root } e)

def memDestroy : Option (Mphdr V) := memDestroyLoop (hdr.root.count + 1) hdr

/-- A call of a pool's user, as in `BitPool.step`. -/
def step : Mphdr V → Op → Option (Mphdr V)
  | hdr, .add key room =>
    (memAdd zero hdr.malloc.2 key.key hdr.malloc.1 room).map fun (hdr', v) =>
      if v.isSome then hdr' else hdr'.free hdr.malloc.1
  | hdr, .delete key => memDelete hdr key.key

end Operations

section Simulation

variable {V : Type u} {hdr hdr' : Mphdr V} {others : List Nat} {e v : Elem V}
  {key : Key} {fuel : Nat}

lemma turn_eq (h : ∀ e ∈ hdr.plain.root.inorder, e.key.Fits) (hkey : key.Fits) :
    ∀ x ∈ hdr.plain.root.inorder, bitCmp key x.key = some (turn key x) := by
  intro x hx
  rw [turn, bitCmp_eq hkey (h x hx)]
  rfl

lemma plain_get (h : ∀ e ∈ hdr.plain.root.inorder, e.key.Fits) (hkey : key.Fits) :
    BitPool.memGet hdr.plain key = some ((keys hdr.root).find (turn key)) :=
  findM_eq (turn_eq h hkey)

lemma compared (h : ∀ e ∈ hdr.plain.root.inorder, e.key.Fits) (hkey : key.Fits) :
    Compared hdr key = true := by
  rw [Compared, plain_get h hkey]
  rfl

/-- The tree is balanced, and no higher than the arrays of `kavl.h` are long: no address space has
room for more elements. -/
structure Linked (hdr : Mphdr V) : Prop where
  wf : Wf hdr.root
  bound : hdr.root.count < 2 ^ 44

lemma Linked.shallow (h : Linked hdr) : hdr.root.height < maxDepth :=
  Kavl.shallow h.wf h.bound

lemma count_plain (h : Sound hdr.plain others) : hdr.count = hdr.root.count := by
  rw [← count_keys]
  exact h.count

lemma memDelete_plain (hl : Linked hdr) (h : Sound hdr.plain others) (hkey : key.Fits) :
    ∃ hdr', memDelete hdr key = some hdr' ∧ Wf hdr'.root ∧ hdr'.root.count ≤ hdr.root.count ∧
      BitPool.memDelete Balance.avl hdr.plain key = some hdr'.plain := by
  obtain ⟨root, herase, hwf, himage⟩ := kavl_erase_spec (turn key) hl.wf hl.shallow
  have hcount : root.count ≤ hdr.root.count := by
    rw [← count_keys, ← count_keys hdr.root, himage, count_rebalance]
    exact count_erase_le
  have hget := plain_get h.fits hkey
  simp only [memDelete, compared h.fits hkey, if_true, herase, Option.map_some]
  cases hfind : (keys hdr.root).find (turn key) with
  | none =>
    rw [hfind] at hget
    refine ⟨_, rfl, hwf, hcount, ?_⟩
    have hsame : keys root = keys hdr.root := by
      rw [himage, erase_of_find hfind, rebalance_of_balanced (keys_balanced hl.wf)]
    rw [memDelete_none hget]
    simp only [Mphdr.plain, hsame]
  | some e =>
    rw [hfind] at hget
    refine ⟨_, rfl, hwf, hcount, ?_⟩
    have heraseM : hdr.plain.root.eraseM (fun x => bitCmp key x.key) =
        some ((keys hdr.root).erase (turn key)) := eraseM_eq (turn_eq h.fits hkey)
    simp only [BitPool.memDelete, hget, heraseM, Option.bind_eq_bind, Option.bind_some]
    simp only [Mphdr.plain, destroyElem, Mphdr.free, himage]
    rfl

/-- What `BitPool.memAddLoop` does in the plain tree. -/
lemma memAddLoop_plain {p : Pool V} (hl : Linked hdr) (hroom : hdr.root.count + 1 < 2 ^ 44)
    (h : Sound hdr.plain (e.str :: e.block :: others)) (he : e.key.Fits)
    (hloop : BitPool.memAddLoop Balance.avl e fuel hdr.plain = some (p, v)) :
    ∃ hdr', memAddLoop e fuel hdr = some (hdr', v) ∧ Wf hdr'.root ∧
      hdr'.root.count ≤ hdr.root.count + 1 ∧ hdr'.plain = p := by
  induction fuel generalizing hdr with
  | zero => cases hloop
  | succ fuel ih =>
    obtain ⟨root, hinsert, hwf, himage⟩ :=
      kavl_insert_spec (turn e.key) e hl.wf hl.shallow.le
    have hget := plain_get h.fits he
    simp only [memAddLoop, compared h.fits he, if_true, hinsert, Option.bind_some]
    cases hfind : (keys hdr.root).find (turn e.key) with
    | none =>
      rw [hfind] at hget
      have hinsertM : hdr.plain.root.insertM (fun x => bitCmp e.key x.key) e =
          some ((keys hdr.root).insert (turn e.key) e) := insertM_eq (turn_eq h.fits he)
      simp only [BitPool.memAddLoop, hget, hinsertM, Option.bind_eq_bind, Option.bind_some] at hloop
      cases hloop
      refine ⟨_, by rw [Option.getD_none, if_pos rfl], hwf, ?_, ?_⟩
      · show root.count ≤ hdr.root.count + 1
        rw [← count_keys, ← count_keys hdr.root, himage, count_rebalance]
        exact count_insert_le
      · simp only [Mphdr.plain, himage]
        rfl
    | some w =>
      rw [hfind] at hget
      have hsame : keys root = keys hdr.root := by
        rw [himage, insert_of_find hfind, rebalance_of_balanced (keys_balanced hl.wf)]
      have hplain : ({ hdr with root := root } : Mphdr V).plain = hdr.plain := by
        simp only [Mphdr.plain, hsame]
      have hcount : root.count = hdr.root.count := by
        rw [← count_keys, hsame, count_keys]
      have hw : w ∈ hdr.plain.root.inorder := (find_some hfind).1
      have hblock : w.block ≠ e.block := by
        intro heq
        have hnodup := h.owned.nodup
        rw [List.nodup_append] at hnodup
        have hmem : w.block ∈ blocks hdr.plain.root.inorder :=
          List.mem_flatMap.mpr ⟨w, hw, by simp⟩
        exact hnodup.2.2 _ hmem e.block (by simp) heq
      simp only [BitPool.memAddLoop, hget, Option.bind_eq_bind, Option.bind_some] at hloop
      rw [Option.getD_some, if_neg hblock]
      by_cases hlen : e.key.len < w.key.len
      · rw [if_pos hlen] at hloop ⊢
        have hl' : Linked { hdr with root := root } := ⟨hwf, by rw [hcount]; exact hl.bound⟩
        obtain ⟨mid, hdel, hmidwf, hmidcount, hmidplain⟩ :=
          memDelete_plain hl' (by rw [hplain]; exact h) (h.fits w hw)
        rw [hplain] at hmidplain
        rw [hmidplain, Option.bind_some] at hloop
        rw [hdel, Option.bind_some]
        have hmid : Sound mid.plain (e.str :: e.block :: others) := by
          obtain ⟨mid', hmid', hremoved⟩ := memDelete_stored (K := Balance.avl) h hw
          rw [hmidplain] at hmid'
          cases hmid'
          exact hremoved.sound h
        have hle : mid.root.count ≤ hdr.root.count := hmidcount.trans (Nat.le_of_eq hcount)
        obtain ⟨hdr', hrest, hwf', hcount', hplain'⟩ :=
          ih ⟨hmidwf, by omega⟩ (by omega) hmid hloop
        exact ⟨hdr', hrest, hwf', by omega, hplain'⟩
      · rw [if_neg hlen] at hloop ⊢
        cases hloop
        refine ⟨_, rfl, hwf, Nat.le_succ_of_le (Nat.le_of_eq hcount), ?_⟩
        simp only [Mphdr.plain, destroyElem, Mphdr.free, hsame]
        rfl

lemma plain_malloc : hdr.malloc.2.plain = hdr.plain.malloc.2 := rfl

/-- `mem_add` with room for the element. -/
lemma memAdd_plain {str : Nat} (zero : V) (hl : Linked hdr) (hroom : hdr.root.count + 1 < 2 ^ 44)
    (h : Sound hdr.plain (str :: others)) (hkey : key.Fits) :
    ∃ hdr' v, memAdd zero hdr key str true = some (hdr', some v) ∧ Wf hdr'.root ∧
      hdr'.root.count ≤ hdr.root.count + 1 ∧
      BitPool.memAdd Balance.avl hdr.plain zero key str true = some (hdr'.plain, some v) := by
  have hsound : Sound hdr.malloc.2.plain (str :: hdr.next :: others) :=
    ⟨h.fits, h.antichain, h.count,
      (malloc_sound h).owned.perm (List.Perm.append_left _ (List.Perm.swap _ _ _)),
      (malloc_sound h).fresh⟩
  obtain ⟨p, v, hloop, -⟩ := memAddLoop_spec (K := Balance.avl) (e := ⟨hdr.next, str, key, zero⟩)
    hsound hkey (Nat.lt_add_one _)
  obtain ⟨hdr', hrun, hwf, hcount, rfl⟩ :=
    memAddLoop_plain (show Linked hdr.malloc.2 from ⟨hl.wf, hl.bound⟩) hroom hsound hkey hloop
  refine ⟨hdr', v, ?_, hwf, hcount, ?_⟩
  · have hfuel : hdr.malloc.2.plain.root.inorder.length + 1 = hdr.root.count + 1 :=
      congrArg (· + 1) (count_keys _)
    rw [hfuel] at hrun
    simp only [memAdd, Bool.not_true, Bool.false_eq_true, if_false]
    rw [show hdr.malloc.1 = hdr.next from rfl, hrun]
    rfl
  · simp only [BitPool.memAdd, Bool.not_true, Bool.false_eq_true, if_false, Option.bind_eq_bind]
    exact congrArg (fun r => Option.bind r _) hloop

/-- A call does to the pool what it does to the plain one. -/
lemma step_plain (zero : V) (op : Op) (hl : Linked hdr)
    (hroom : hdr.root.count + 1 < 2 ^ 44)
    (h : Sound hdr.plain []) :
    ∃ hdr', step zero hdr op = some hdr' ∧ Wf hdr'.root ∧
      hdr'.root.count ≤ hdr.root.count + 1 ∧ Sound hdr'.plain [] ∧
      BitPool.step Balance.avl zero hdr.plain op = some hdr'.plain := by
  obtain ⟨p, hp, hsound⟩ := step_sound (K := Balance.avl) zero h op
  cases op with
  | delete key =>
    obtain ⟨hdr', hdel, hwf, hcount, hplain⟩ := memDelete_plain hl h key.fits
    rw [BitPool.step, hplain] at hp
    cases hp
    exact ⟨hdr', hdel, hwf, Nat.le_succ_of_le hcount, hsound, hplain⟩
  | add key room =>
    cases room with
    | false =>
      cases hp
      exact ⟨_, rfl, hl.wf, Nat.le_succ _, hsound, rfl⟩
    | true =>
      obtain ⟨hdr', v, hadd, hwf, hcount, hplain⟩ :=
        memAdd_plain zero (show Linked hdr.malloc.2 from ⟨hl.wf, hl.bound⟩) hroom
          (malloc_sound h) key.fits
      have hstep : BitPool.step Balance.avl zero hdr.plain (.add key true) = some hdr'.plain := by
        rw [BitPool.step]
        exact congrArg (fun r => Option.bind r _) hplain
      rw [hstep] at hp
      cases hp
      refine ⟨hdr', ?_, hwf, hcount, hsound, hstep⟩
      rw [step]
      exact congrArg (fun r => Option.map _ r) hadd

lemma run_plain (zero : V) (ops : List Op) (hwf : Wf hdr.root)
    (hroom : hdr.root.count + ops.length < 2 ^ 44) (h : Sound hdr.plain []) :
    ∃ hdr', run (step zero) hdr ops = some hdr' ∧ Linked hdr' ∧ Sound hdr'.plain [] ∧
      run (BitPool.step Balance.avl zero) hdr.plain ops = some hdr'.plain := by
  induction ops generalizing hdr with
  | nil => exact ⟨hdr, rfl, ⟨hwf, hroom⟩, h, rfl⟩
  | cons op ops ih =>
    rw [List.length_cons] at hroom
    obtain ⟨mid, hstep, hmid, hcount, hsound, hplain⟩ :=
      step_plain zero op ⟨hwf, by omega⟩ (by omega) h
    rw [run_cons hstep, run_cons hplain]
    exact ih hmid (by omega) hsound

/-- A round of `mem_destroy` gives back the blocks of the first element. -/
lemma destroy_round {l r : Kavl.Tree (Elem V)} {p : Node (Elem V)} (hroot : hdr.root = node l p r)
    (hl : Linked hdr) (howned : Owned hdr.heap (blocks hdr.plain.root.inorder ++ others)) :
    ∃ root e, kavlEraseFirst hdr.root = some (root, e) ∧ Wf root ∧
      root.count + 1 = hdr.root.count ∧
      Owned ((hdr.heap.release e.str).release e.block) (blocks (keys root).inorder ++ others) := by
  have hwf := hl.wf
  have hdepth := hl.shallow
  rw [hroot] at hwf hdepth
  obtain ⟨root, hfirst, hwf', himage⟩ := kavl_erase_first_spec hwf hdepth
  have hin : (popMin (keys l) p.val (keys r)).1 :: (keys root).inorder =
      hdr.plain.root.inorder := by
    rw [himage, inorder_rebalance, popMin_inorder, Mphdr.plain, hroot]
    rfl
  refine ⟨root, _, by rw [hroot, hfirst], hwf', ?_, ?_⟩
  · rw [← count_keys, ← count_keys hdr.root]
    exact congrArg List.length hin
  · rw [← hin] at howned
    exact howned.release.release

lemma memDestroyLoop_spec (hl : Linked hdr) (hfuel : hdr.root.count < fuel)
    (howned : Owned hdr.heap (blocks hdr.plain.root.inorder ++ others)) :
    ∃ hdr', memDestroyLoop fuel hdr = some hdr' ∧ hdr'.root = leaf ∧ Owned hdr'.heap others := by
  induction fuel generalizing hdr with
  | zero => omega
  | succ fuel ih =>
    cases hroot : hdr.root with
    | leaf =>
      refine ⟨hdr, by simp only [memDestroyLoop, hroot], hroot, ?_⟩
      rw [Mphdr.plain, hroot] at howned
      exact howned
    | node l p r =>
      obtain ⟨root, e, hfirst, hwf, hcount, howned'⟩ := destroy_round hroot hl howned
      have hbound := hl.bound
      obtain ⟨hdr', hrest, hend⟩ := ih
        (show Linked (destroyElem { hdr with root := root } e) from
          ⟨hwf, show root.count < _ by omega⟩) (show root.count < _ by omega) howned'
      refine ⟨hdr', ?_, hend⟩
      rw [hroot] at hfirst
      simp only [memDestroyLoop, hroot, hfirst, Option.bind_some]
      exact hrest

/-- After any calls `mem_destroy` gives back every block that is in use, and none twice. -/
theorem mem_destroy_settles (zero : V) (ops : List Op) (hlen : ops.length < 2 ^ 44) :
    ∃ hdr hdr' : Mphdr V, run (step zero) {} ops = some hdr ∧ memDestroy hdr = some hdr' ∧
      hdr'.root = leaf ∧ hdr'.heap.Settled := by
  have hwf : Wf ({} : Mphdr V).root := trivial
  have hroom : ({} : Mphdr V).root.count + ops.length < 2 ^ 44 := by
    rw [count_leaf, Nat.zero_add]
    exact hlen
  obtain ⟨hdr, hrun, hl, hsound, -⟩ := run_plain zero ops hwf hroom empty_sound
  obtain ⟨hdr', hdestroy, hleaf, howned⟩ :=
    memDestroyLoop_spec hl (Nat.lt_succ_self _) hsound.owned
  exact ⟨hdr, hdr', hrun, hdestroy, hleaf, howned.settled⟩

def byteKey : BitKey := ⟨⟨8, [1]⟩, ⟨by decide, by decide⟩⟩

theorem mem_destroy_settles_one :
    ∃ hdr hdr' : Mphdr Unit,
      run (step ()) {} [.add byteKey true, .add byteKey true] = some hdr ∧
      memDestroy hdr = some hdr' ∧ hdr'.root = leaf ∧ hdr'.heap.Settled :=
  mem_destroy_settles () [.add byteKey true, .add byteKey true] (by decide)

/-- Any calls run, with the same results as in a plain search tree: no search goes through a null
pointer or past the arrays, and what is looked up is what the plain tree has. -/
theorem mempool_runs (zero : V) (ops : List Op) (hlen : ops.length < 2 ^ 44) :
    ∃ hdr : Mphdr V, run (step zero) {} ops = some hdr ∧ Wf hdr.root ∧
      hdr.root.height < maxDepth ∧
      run (BitPool.step Balance.avl zero) {} ops = some hdr.plain ∧
      ∀ q : BitKey, memGet hdr q.key = BitPool.memGet hdr.plain q.key := by
  have hwf : Wf ({} : Mphdr V).root := trivial
  have hroom : ({} : Mphdr V).root.count + ops.length < 2 ^ 44 := by
    rw [count_leaf, Nat.zero_add]
    exact hlen
  obtain ⟨hdr, hrun, hl, hsound, hplain⟩ := run_plain zero ops hwf hroom empty_sound
  refine ⟨hdr, hrun, hl.wf, hl.shallow, hplain, ?_⟩
  intro q
  rw [memGet, if_pos (compared hsound.fits q.fits), plain_get hsound.fits q.fits, kavlFind_fst]

theorem mempool_runs_one :
    ∃ hdr : Mphdr Unit,
      run (step ()) {} [.add byteKey true, .delete byteKey] = some hdr ∧ Wf hdr.root ∧
      hdr.root.height < maxDepth ∧
      run (BitPool.step Balance.avl ()) {} [.add byteKey true, .delete byteKey] = some hdr.plain ∧
      ∀ q : BitKey, memGet hdr q.key = BitPool.memGet hdr.plain q.key :=
  mempool_runs () [.add byteKey true, .delete byteKey] (by decide)

end Simulation

end KavlPool
