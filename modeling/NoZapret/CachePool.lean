import NoZapret.BitPool
import NoZapret.Inet

/-!
# The cache of destinations

`params.mempool` of `extend.c`: a pool of bit prefixes whose keys are serialized destinations, with
`cache_get` and `cache_add`. The theorem says when an expired entry goes and no other: the key of
`mem_delete` is counted in bytes where bits are meant.
-/

namespace CachePool

open BitPool Block Inet Packets PrefixOrder SearchTree

/-- What a `struct elem_i` holds beside its key; `dp` names the group. -/
structure Val where
  extraLen : Nat := 0
  extra : Option Bytes := none
  dp : Option Nat := none
  time : Int := 0

/-- A `union sockaddr_u`. -/
structure Dst where
  addr : Addr
  port : UInt16

/-- `AF_INET` and `AF_INET6` as a `uint16_t` in memory. -/
def familyBytes : Family → Bytes
  | .inet => [2, 0]
  | .inet6 => [10, 0]

/-- `sin_port` -/
def portBytes (port : UInt16) : Bytes :=
  [UInt8.ofNat (port.toNat / 256), UInt8.ofNat (port.toNat % 256)]

/-- `serialize_addr`: the bytes of the `struct cache_key` that count. -/
def serializeAddr (dst : Dst) : Bytes :=
  familyBytes dst.addr.family ++ portBytes dst.port ++ dst.addr.data

/-- A sum of two `time_t`. -/
def timeSum (a b : Int) : Option Int :=
  if -2 ^ 63 ≤ a + b ∧ a + b < 2 ^ 63 then some (a + b) else none

/-- `cache_get` at the time `t`; `cacheTtl` is what the groups have set. -/
def cacheGet (K : Balance (Elem Val)) (cacheTtl : Nat → Int) (t : Int) (hdr : Pool Val)
    (dst : Dst) : Option (Pool Val × Option (Elem Val)) := do
  let key := serializeAddr dst
  let len : Int := key.length
  let some val ← memGet hdr ⟨len * 8, key⟩ | return (hdr, none)
  let dp ← val.val.dp
  if cacheTtl dp ≠ 0 then
    if t > (← timeSum val.val.time (cacheTtl dp)) then
      return (← memDelete K hdr ⟨len, key⟩, none)
  return (hdr, some val)

/-- The loop of `eq_bitlen` that counts shifts. -/
def shiftsApart (a b : UInt8) : Nat :=
  ((List.range 8).find? fun bi => a.toNat / 2 ^ bi == b.toNat / 2 ^ bi).getD 8

/-- `eq_bitlen` -/
def eqBitlen : Bytes → Bytes → Nat → Option Int
  | _, _, 0 => some 8
  | a :: p, b :: q, n + 1 =>
    if a = b then (eqBitlen p q n).map (8 + ·) else some (8 - shiftsApart a b)
  | _, _, _ + 1 => none

/-- The `cmp_len` of `cache_add`; `cachePre` is how many bits of an IPv4 address may differ. -/
def cmpLen (cachePre : Int) (hdr : Pool Val) (dst : Dst) : Option Int := do
  let key := serializeAddr dst
  if dst.addr.family = .inet ∧ cachePre ≠ 0 then
    match ← memGet hdr ⟨key.length * 8 - cachePre, key⟩ with
    | some val => eqBitlen key val.key.data key.length
    | none => return key.length * 8
  else return key.length * 8

/-- `cache_add`; `room` says whether its two allocations succeed. The host is handed back unless
the entry has taken it. -/
def cacheAdd (K : Balance (Elem Val)) (cachePre t : Int) (hdr : Pool Val) (dst : Dst)
    (host : Option Bytes) (room : Bool × Bool) :
    Option (Pool Val × Option (Elem Val) × Option Bytes) := do
  let len ← cmpLen cachePre hdr dst
  if !room.1 then return (hdr, none, host)
  let (str, hdr) := hdr.malloc
  let (hdr, val) ← memAdd K hdr {} ⟨len, serializeAddr dst⟩ str room.2
  let some val := val | return (hdr.free str, none, host)
  let takes := val.val.extra.isNone && host.isSome
  let v := { val.val with time := t }
  let v := if takes then { v with extraLen := (host.getD []).length, extra := host } else v
  return (hdr.update val v, some { val with val := v }, if takes then none else host)

/-- What `on_trigger` does to the cache: the entry of the destination gets its group. -/
def onTrigger (K : Balance (Elem Val)) (cachePre t : Int) (hdr : Pool Val) (dst : Dst)
    (host : Option Bytes) (room : Bool × Bool) (dp : Nat) : Option (Pool Val) := do
  let (hdr, cache, _) ← cacheAdd K cachePre t hdr dst host room
  match cache with
  | none => return hdr
  | some cache => return hdr.update cache { cache.val with dp := some dp }

/-- A cache: its elements are sound, and each has its group. -/
structure Mempool where
  hdr : Pool Val
  sound : Sound hdr []
  grouped : ∀ e ∈ hdr.root.inorder, e.val.dp.isSome = true

/-- The entry is older than its group allows. -/
def Expired (cacheTtl : Nat → Int) (t : Int) (e : Elem Val) : Prop :=
  ∃ dp, e.val.dp = some dp ∧ cacheTtl dp ≠ 0 ∧ t > e.val.time + cacheTtl dp

/-- The whole key of a destination, in bits. -/
def fullKey (dst : Dst) : Key := ⟨(serializeAddr dst).length * 8, serializeAddr dst⟩

/-- The key that `cache_get` deletes with: as many bits as the key has bytes. -/
def shortKey (dst : Dst) : Key := ⟨(serializeAddr dst).length, serializeAddr dst⟩

/-- `cache_get` takes the entry out that it finds expired, and leaves the cache alone if it finds
none. -/
def ExpiresExactly (K : Balance (Elem Val)) (cacheTtl : Nat → Int) (t : Int) (hdr : Pool Val)
    (dst : Dst) : Prop :=
  ∃ hdr' r, cacheGet K cacheTtl t hdr dst = some (hdr', r) ∧
    (∀ e, memGet hdr (fullKey dst) = some (some e) → Expired cacheTtl t e → Removed hdr hdr' e) ∧
    ((∀ e, memGet hdr (fullKey dst) = some (some e) → ¬ Expired cacheTtl t e) → hdr' = hdr)

/-- The time at which the found entry expires is a `time_t`; and if it has passed, the search for
the short key ends at the same entry. -/
def MeetsItself (cacheTtl : Nat → Int) (t : Int) (hdr : Pool Val) (dst : Dst) : Prop :=
  ∀ e dp, memGet hdr (fullKey dst) = some (some e) → e.val.dp = some dp → cacheTtl dp ≠ 0 →
    (timeSum e.val.time (cacheTtl dp)).isSome = true ∧
      (t > e.val.time + cacheTtl dp → memGet hdr (shortKey dst) = some (some e))

section Keys

variable {dst : Dst}

lemma serializeAddr_length (dst : Dst) :
    (serializeAddr dst).length = 4 + dst.addr.family.size := by
  simp only [serializeAddr, List.length_append, dst.addr.length_eq, portBytes]
  cases dst.addr.family <;> rfl

lemma fullKey_fits (dst : Dst) : (fullKey dst).Fits := by
  constructor
  · simp only [fullKey]
    omega
  · simp only [fullKey]
    omega

lemma shortKey_fits (dst : Dst) : (shortKey dst).Fits := by
  constructor
  · simp only [shortKey]
    omega
  · simp only [shortKey]
    omega

end Keys

section Expiry

variable {K : Balance (Elem Val)} {cacheTtl : Nat → Int} {t : Int} {hdr hdr' : Pool Val}
  {others : List Nat} {dst : Dst} {e v : Elem Val} {dp : Nat}

lemma timeSum_eq {a b s : Int} (h : timeSum a b = some s) : s = a + b := by
  unfold timeSum at h
  split at h
  · exact (Option.some.inj h).symm
  · cases h

lemma cacheGet_miss (h : memGet hdr (fullKey dst) = some none) :
    cacheGet K cacheTtl t hdr dst = some (hdr, none) := by
  simp only [fullKey] at h
  simp [cacheGet, h]

lemma cacheGet_forever (h : memGet hdr (fullKey dst) = some (some e)) (hdp : e.val.dp = some dp)
    (httl : cacheTtl dp = 0) : cacheGet K cacheTtl t hdr dst = some (hdr, some e) := by
  simp only [fullKey] at h
  simp [cacheGet, h, hdp, httl]

lemma cacheGet_fresh {s : Int} (h : memGet hdr (fullKey dst) = some (some e))
    (hdp : e.val.dp = some dp) (hsum : timeSum e.val.time (cacheTtl dp) = some s) (ht : ¬ t > s) :
    cacheGet K cacheTtl t hdr dst = some (hdr, some e) := by
  simp only [fullKey] at h
  simp [cacheGet, h, hdp, hsum, ht]

lemma cacheGet_expired {s : Int} (h : memGet hdr (fullKey dst) = some (some e))
    (hdp : e.val.dp = some dp) (httl : cacheTtl dp ≠ 0)
    (hsum : timeSum e.val.time (cacheTtl dp) = some s) (ht : t > s) :
    cacheGet K cacheTtl t hdr dst = (memDelete K hdr (shortKey dst)).map fun hdr' => (hdr', none) := by
  simp only [fullKey] at h
  simp only [cacheGet, h, hdp, httl, hsum, ht, ne_eq, not_false_eq_true, if_true, Option.bind_eq_bind,
    Option.bind_some, shortKey]
  cases memDelete K hdr ⟨(serializeAddr dst).length, serializeAddr dst⟩ <;> rfl

lemma cacheGet_overflow (h : memGet hdr (fullKey dst) = some (some e))
    (hdp : e.val.dp = some dp) (httl : cacheTtl dp ≠ 0)
    (hsum : timeSum e.val.time (cacheTtl dp) = none) : cacheGet K cacheTtl t hdr dst = none := by
  simp only [fullKey] at h
  simp [cacheGet, h, hdp, httl, hsum]

/-- An element that was taken out is not another one. -/
lemma removed_inj (hs : Sound hdr others) (h : Removed hdr hdr' e) (h' : Removed hdr hdr' v) :
    e = v := by
  obtain ⟨front, back, hsplit, hleft⟩ := h.split
  obtain ⟨front', back', hsplit', hleft'⟩ := h'.split
  have hnodup := hs.antichain.nodup
  have hnot : e ∉ hdr'.root.inorder := by
    rw [hsplit] at hnodup
    rw [hleft]
    exact (List.nodup_cons.mp (List.nodup_middle.mp hnodup)).1
  by_contra hne
  apply hnot
  have hmem : e ∈ front' ++ v :: back' := by
    rw [← hsplit', hsplit]
    simp
  rw [hleft']
  simp only [List.mem_append, List.mem_cons] at hmem ⊢
  tauto

/-- With nothing taken out the cache is as long as before. -/
lemma removed_ne (h : Removed hdr hdr' e) : hdr' ≠ hdr := by
  rintro rfl
  obtain ⟨front, back, hsplit, hleft⟩ := h.split
  have hlen := congrArg List.length (hsplit.symm.trans hleft)
  simp at hlen

theorem expires_exactly_iff (K : Balance (Elem Val)) (cacheTtl : Nat → Int) (t : Int) (M : Mempool)
    (dst : Dst) :
    ExpiresExactly K cacheTtl t M.hdr dst ↔ MeetsItself cacheTtl t M.hdr dst := by
  obtain ⟨r, hget, -⟩ := memGet_isSome M.sound (fullKey_fits dst)
  cases r with
  | none =>
    constructor
    · intro _ e dp h
      rw [hget] at h
      cases h
    · intro _
      refine ⟨M.hdr, none, cacheGet_miss hget, ?_, fun _ => rfl⟩
      intro e h
      rw [hget] at h
      cases h
  | some e =>
    have hfound : e ∈ M.hdr.root.inorder := by
      have h := memGet_eq M.sound.fits (fullKey_fits dst)
      rw [hget, Option.some.injEq] at h
      exact (find_some h.symm).1
    obtain ⟨dp, hdp⟩ := Option.isSome_iff_exists.mp (M.grouped e hfound)
    have hself : ∀ {e' dp'}, memGet M.hdr (fullKey dst) = some (some e') → e'.val.dp = some dp' →
        e' = e ∧ dp' = dp := by
      intro e' dp' h' hdp'
      cases hget.symm.trans h'
      cases hdp.symm.trans hdp'
      exact ⟨rfl, rfl⟩
    have hunchanged : ∀ hdr' r, cacheGet K cacheTtl t M.hdr dst = some (hdr', r) → hdr' = M.hdr →
        ¬ Expired cacheTtl t e → ExpiresExactly K cacheTtl t M.hdr dst := by
      rintro hdr' r hcall rfl hnot
      refine ⟨M.hdr, r, hcall, ?_, fun _ => rfl⟩
      intro e' h' hexp
      cases hget.symm.trans h'
      exact absurd hexp hnot
    by_cases httl : cacheTtl dp = 0
    · have hnot : ¬ Expired cacheTtl t e := by
        rintro ⟨dp', hdp', hne, -⟩
        cases hdp.symm.trans hdp'
        exact hne httl
      constructor
      · intro _ e' dp' h' hdp' hne
        obtain ⟨rfl, rfl⟩ := hself h' hdp'
        exact absurd httl hne
      · intro _
        exact hunchanged _ _ (cacheGet_forever hget hdp httl) rfl hnot
    cases hsum : timeSum e.val.time (cacheTtl dp) with
    | none =>
      constructor
      · rintro ⟨hdr', r, hcall, -⟩
        rw [cacheGet_overflow hget hdp httl hsum] at hcall
        cases hcall
      · intro h
        have hsome := (h e dp hget hdp httl).1
        rw [hsum] at hsome
        cases hsome
    | some s =>
      have hs := timeSum_eq hsum
      by_cases ht : t > s
      · have hexp : Expired cacheTtl t e := ⟨dp, hdp, httl, by omega⟩
        have hcall := cacheGet_expired (K := K) hget hdp httl hsum ht
        constructor
        · rintro ⟨hdr', r, hrun, hremoved, -⟩ e' dp' h' hdp' _
          obtain ⟨rfl, rfl⟩ := hself h' hdp'
          have hr := hremoved e' hget hexp
          refine ⟨by rw [hsum]; rfl, fun _ => ?_⟩
          -- whatever the short key finds is what is taken out
          obtain ⟨v, hshort, -⟩ := memGet_isSome M.sound (shortKey_fits dst)
          rw [hcall] at hrun
          cases v with
          | none =>
            rw [memDelete_none hshort] at hrun
            cases hrun
            exact absurd rfl (removed_ne hr)
          | some v =>
            obtain ⟨mid, hdel, hr'⟩ := memDelete_some (K := K) M.sound.fits (shortKey_fits dst) hshort
            rw [hdel] at hrun
            cases hrun
            rw [hshort, removed_inj M.sound hr hr']
        · intro h
          obtain ⟨-, hshort⟩ := h e dp hget hdp httl
          obtain ⟨mid, hdel, hr⟩ := memDelete_some (K := K) M.sound.fits (shortKey_fits dst)
            (hshort (by omega))
          refine ⟨mid, none, by rw [hcall, hdel]; rfl, ?_, ?_⟩
          · intro e' h' _
            cases hget.symm.trans h'
            exact hr
          · intro hnone
            exact absurd hexp (hnone e hget)
      · have hnot : ¬ Expired cacheTtl t e := by
          rintro ⟨dp', hdp', -, hgt⟩
          cases hdp.symm.trans hdp'
          omega
        constructor
        · intro _ e' dp' h' hdp' _
          obtain ⟨rfl, rfl⟩ := hself h' hdp'
          exact ⟨by rw [hsum]; rfl, fun hgt => absurd hgt (by omega)⟩
        · intro _
          exact hunchanged _ _ (cacheGet_fresh hget hdp hsum ht) rfl hnot

/-- `1.1.1.1:443`, stored at the time 0 -/
def early : Elem Val :=
  ⟨1, 0, ⟨64, [2, 0, 1, 187, 1, 1, 1, 1]⟩, { dp := some 0, time := 0 }⟩

/-- `2.2.2.2:443`, stored at the time 450 -/
def late : Elem Val :=
  ⟨3, 2, ⟨64, [2, 0, 1, 187, 2, 2, 2, 2]⟩, { dp := some 0, time := 450 }⟩

/-- A cache with the two entries. -/
def pair : Mempool where
  hdr :=
    { root := .node (.node .leaf early .leaf) late .leaf
      count := 2
      heap := { held := [0, 1, 2, 3] }
      next := 4 }
  sound := by
    refine ⟨?_, ?_, rfl, ?_, by decide⟩
    · intro e he
      have he' : e = early ∨ e = late := by simpa using he
      rcases he' with rfl | rfl
      · exact ⟨by decide, by decide⟩
      · exact ⟨by decide, by decide⟩
    · refine List.pairwise_pair.mpr ?_
      decide
    · exact ⟨List.Perm.refl _, by decide, rfl⟩
  grouped := by
    intro e he
    have he' : e = early ∨ e = late := by simpa using he
    rcases he' with rfl | rfl
    · rfl
    · rfl

/-- With a lifetime of 100, at the time 500 only the early entry has expired, but the late one is
deleted. -/
theorem expiry_deletes_other :
    ¬ ExpiresExactly ⟨id, fun _ => rfl⟩ (fun _ => 100) 500 pair.hdr
      ⟨⟨.inet, [1, 1, 1, 1], rfl⟩, 443⟩ := by
  rintro ⟨hdr', r, hcall, hremoved, -⟩
  have hget : memGet pair.hdr (fullKey ⟨⟨.inet, [1, 1, 1, 1], rfl⟩, 443⟩) = some (some early) := rfl
  have hexp : Expired (fun _ => 100) 500 early := ⟨0, rfl, by decide, by decide⟩
  obtain ⟨front, back, hsplit, hleft⟩ := (hremoved early hget hexp).split
  have htimes : (cacheGet ⟨id, fun _ => rfl⟩ (fun _ => 100) 500 pair.hdr
      ⟨⟨.inet, [1, 1, 1, 1], rfl⟩, 443⟩).map (fun r => r.1.root.inorder.map fun e => e.val.time) =
      some [0] := by
    decide
  rw [hcall, Option.map_some, hleft] at htimes
  have hbefore : [0, 450] = (front ++ early :: back).map fun e => e.val.time := by
    rw [← hsplit]
    rfl
  simp only [List.map_append, List.map_cons, Option.some.injEq] at htimes hbefore
  cases hfront : front.map fun e => e.val.time with
  | nil =>
    rw [hfront, List.nil_append] at htimes
    rw [hfront, htimes] at hbefore
    simp [early] at hbefore
  | cons a as =>
    rw [hfront] at htimes hbefore
    have hlen := congrArg List.length htimes
    have hlen' := congrArg List.length hbefore
    simp only [List.cons_append, List.cons.injEq, List.length_append, List.length_cons,
      List.length_nil] at htimes hbefore hlen hlen'
    have has : as = [] := List.length_eq_zero_iff.mp (by omega)
    rw [has] at hbefore
    simp [early] at hbefore

end Expiry

end CachePool
