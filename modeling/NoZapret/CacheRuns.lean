import NoZapret.CachePool
import NoZapret.Library.Runs

/-!
# Caches that a run comes to

`cache_get` and `on_trigger` keep what the cache file needs: the pool is sound, every entry has a
group, a destination, a time and either no host or one that is not empty. `eq_bitlen` can ask for
more bits than the key has; such a key is never stored.
-/

namespace CacheRuns

open BitPool Block CachePool Inet Packets PrefixOrder Runs SearchTree

/-- An entry that `cache_add` or `load_cache` has made. -/
structure Stored (e : Elem Val) : Prop where
  key : ∃ dst, e.key.data = serializeAddr dst
  time : -2 ^ 63 ≤ e.val.time ∧ e.val.time < 2 ^ 63
  host : ∀ b, e.val.extra = some b → 0 < e.val.extraLen ∧ e.val.extraLen ≤ b.length

/-- A cache all of whose entries are such. -/
structure Cache extends Mempool where
  stored : ∀ e ∈ hdr.root.inorder, Stored e

section Long

variable {V : Type} {K : Balance (Elem V)} {hdr hdr' : Pool V} {others : List Nat} {data : Bytes}
  {o : Ordering}

/-- A key of one byte more than there is compares, where it does, like the key of all bytes. -/
lemma bitCmp_long (q : Key) (hq : 0 ≤ q.len)
    (h : bitCmp ⟨8 * data.length + 8, data⟩ q = some o) :
    q.len < 8 * data.length + 8 ∧ bitCmp ⟨8 * data.length, data⟩ q = some o := by
  have hout : ∀ bytes : Int, (data.length : Int) < bytes → slice data 0 bytes = none := by
    intro bytes hlt
    unfold slice
    rw [if_neg (by omega)]
  by_cases hlong : q.len < 8 * data.length + 8
  · refine ⟨hlong, ?_⟩
    by_cases hshort : q.len < 8 * data.length
    · simp only [bitCmp, hlong, if_true] at h
      simpa only [bitCmp, hshort, if_true] using h
    · have hdiv : q.len.tdiv 8 = data.length := by
        rw [Int.tdiv_eq_ediv_of_nonneg hq]
        omega
      have hdiv' : (8 * (data.length : Int)).tdiv 8 = data.length := by
        rw [Int.tdiv_eq_ediv_of_nonneg (by omega)]
        omega
      have hmod : (8 * (data.length : Int)).tmod 8 = 0 := by
        rw [Int.tmod_eq_emod_of_nonneg (by omega)]
        omega
      have hend : rd data (data.length : Nat) = none := by simp [rd]
      simp only [bitCmp, hlong, if_true, hdiv, hend, Option.bind_eq_bind,
        Option.bind_eq_some_iff] at h
      obtain ⟨a, ha, b, hb, h⟩ := h
      simp only [bitCmp, hshort, if_false, hdiv', hmod, ha, hb, Option.bind_eq_bind,
        Option.bind_some, or_true, if_true]
      split at h
      · exact h
      · simp at h
  · exfalso
    have hbytes : ((8 * data.length + 8 : Int)).tdiv 8 = data.length + 1 := by
      rw [Int.tdiv_eq_ediv_of_nonneg (by omega)]
      omega
    simp [bitCmp, hlong, hbytes, hout (data.length + 1) (by omega)] at h

/-- A key that is too long is not stored where a stored one agrees with all its bytes. -/
lemma memAdd_long (zero : V) {str : Nat} {room : Bool} {v : Elem V}
    (h : Sound hdr (str :: others)) {x : Elem V} (hx : x ∈ hdr.root.inorder)
    (hagree : Compat (bitsOf data) x.key.bits)
    (hadd : memAdd K hdr zero ⟨8 * data.length + 8, data⟩ str room = some (hdr', some v)) :
    Sound hdr' others ∧ hdr'.root.inorder = hdr.root.inorder ∧ v ∈ hdr.root.inorder := by
  cases room with
  | false => cases hadd
  | true =>
    have hsound : Sound hdr.malloc.2 (str :: hdr.next :: others) :=
      ⟨h.fits, h.antichain, h.count,
        (malloc_sound h).owned.perm (List.Perm.append_left _ (List.Perm.swap _ _ _)),
        (malloc_sound h).fresh⟩
    have hkey : (⟨8 * data.length, data⟩ : Key).Fits := ⟨by simp only; omega, Int.le_refl _⟩
    have hbits : (⟨8 * data.length, data⟩ : Key).bits = bitsOf data := by
      have hlen : (8 * (data.length : Int)).toNat = (bitsOf data).length := by
        rw [bitsOf_length]
        omega
      rw [Key.bits, hlen, List.take_length]
    simp only [memAdd, Bool.not_true, Bool.false_eq_true, if_false, Option.bind_eq_bind,
      Option.bind_eq_some_iff, memAddLoop] at hadd
    obtain ⟨⟨mid, w⟩, ⟨r, hget, hloop⟩, hend⟩ := hadd
    cases hend
    have hget' : memGet hdr.malloc.2 ⟨8 * data.length, data⟩ = some r :=
      findM_mono (fun y hy o ho => (bitCmp_long y.key (h.fits y hy).nonneg ho).2) hget
    obtain ⟨r', hr', hsome⟩ := memGet_isSome hsound hkey
    cases hget'.symm.trans hr'
    have hfound := hsome.mpr ⟨x, hx, hbits ▸ hagree⟩
    obtain ⟨u, rfl⟩ := Option.isSome_iff_exists.mp hfound
    obtain ⟨hu, hturn⟩ := findM_some hget
    have hshort := (bitCmp_long u.key (h.fits u hu).nonneg hturn).1
    have hnot : ¬ 8 * (data.length : Int) + 8 < u.key.len := by omega
    simp only [hnot, if_false] at hloop
    cases hloop
    exact ⟨destroyElem_sound hsound, rfl, hu⟩

end Long

section Steps

variable {K : Balance (Elem Val)} {cacheTtl : Nat → Int} {cachePre t : Int} {hdr hdr' mid : Pool Val}
  {dst : Dst} {host : Option Bytes} {room : Bool × Bool} {dp : Nat}

/-- What the steps keep. -/
structure Ok (hdr : Pool Val) : Prop where
  sound : Sound hdr []
  stored : ∀ e ∈ hdr.root.inorder, Stored e
  grouped : ∀ e ∈ hdr.root.inorder, e.val.dp.isSome = true

lemma cacheGet_ok {r : Option (Elem Val)} (h : Ok hdr)
    (hcall : cacheGet K cacheTtl t hdr dst = some (hdr', r)) : Ok hdr' := by
  have hdeleted : ∀ hdr', memDelete K hdr (shortKey dst) = some hdr' → Ok hdr' := by
    intro hdr' hdel
    obtain ⟨hdr'', hdel', hsound⟩ := memDelete_sound (K := K) h.sound (shortKey_fits dst)
    cases hdel.symm.trans hdel'
    have hsub := memDelete_sub hdel
    exact ⟨hsound, fun e he => h.stored e (hsub e he), fun e he => h.grouped e (hsub e he)⟩
  simp only [cacheGet, Option.bind_eq_bind, Option.bind_eq_some_iff] at hcall
  obtain ⟨found, -, hcall⟩ := hcall
  cases found with
  | none =>
    cases hcall
    exact h
  | some e =>
    simp only [Option.bind_eq_some_iff] at hcall
    obtain ⟨dp, -, hcall⟩ := hcall
    split at hcall
    · simp only [Option.bind_eq_some_iff] at hcall
      obtain ⟨s, -, hcall⟩ := hcall
      split at hcall
      · simp only [Option.bind_eq_some_iff] at hcall
        obtain ⟨mid, hdel, hcall⟩ := hcall
        cases hcall
        exact hdeleted _ hdel
      · cases hcall
        exact h
    · cases hcall
      exact h

lemma eqBitlen_bounds {a b : Bytes} {n : Nat} {r : Int} (h : eqBitlen a b n = some r) :
    0 ≤ r ∧ (r ≤ 8 * n ∨ (r = 8 * n + 8 ∧ a.take n = b.take n)) := by
  induction n generalizing a b r with
  | zero =>
    have hr : r = 8 := by
      unfold eqBitlen at h
      simpa using h.symm
    exact ⟨by omega, .inr ⟨by omega, rfl⟩⟩
  | succ n ih =>
    match a, b with
    | a :: p, b :: q =>
      simp only [eqBitlen] at h
      split at h
      · next heq =>
        obtain ⟨r', hr', rfl⟩ := Option.map_eq_some_iff.mp h
        obtain ⟨hge, hle | ⟨hlong, htake⟩⟩ := ih hr'
        · exact ⟨by omega, .inl (by omega)⟩
        · exact ⟨by omega, .inr ⟨by omega, by rw [List.take_succ_cons, List.take_succ_cons, heq, htake]⟩⟩
      · cases h
        have hshift : shiftsApart a b ≤ 8 := by
          unfold shiftsApart
          cases hfind : (List.range 8).find? fun bi => a.toNat / 2 ^ bi == b.toNat / 2 ^ bi with
          | none => exact Nat.le_refl _
          | some k =>
            have hmem := List.mem_of_find?_eq_some hfind
            simp only [List.mem_range] at hmem
            simp only [Option.getD_some]
            omega
        exact ⟨by omega, .inl (by omega)⟩
    | [], _ => simp [eqBitlen] at h
    | _ :: _, [] => simp [eqBitlen] at h

/-- The key that `cache_add` stores fits, or a stored one agrees with all its bytes. -/
def Asks (hdr : Pool Val) (dst : Dst) (len : Int) : Prop :=
  (0 ≤ len ∧ len ≤ 8 * (serializeAddr dst).length) ∨
    (len = 8 * (serializeAddr dst).length + 8 ∧
      ∃ x ∈ hdr.root.inorder, Compat (bitsOf (serializeAddr dst)) x.key.bits)

lemma memAdd_ok {str : Nat} {len : Int} {v : Elem Val} (h : Sound hdr [str])
    (hasks : Asks hdr dst len)
    (hadd : memAdd K hdr {} ⟨len, serializeAddr dst⟩ str room.2 = some (mid, some v)) :
    Sound mid [] ∧ (∀ x ∈ mid.root.inorder, x ∈ hdr.root.inorder ∨ x = v) ∧
      v ∈ mid.root.inorder ∧
      (v ∈ hdr.root.inorder ∨ v.key.data = serializeAddr dst ∧ v.val = {}) := by
  rcases hasks with ⟨hnonneg, hfits⟩ | ⟨rfl, x, hx, hagree⟩
  · obtain ⟨mid', r, hadd', hspec⟩ := memAdd_spec (K := K) {} room.2 h
      (k := ⟨len, serializeAddr dst⟩) ⟨hnonneg, hfits⟩
    cases hadd.symm.trans hadd'
    obtain ⟨hsound, hadded⟩ := hspec
    refine ⟨hsound, ?_, hadded.mem, ?_⟩
    · intro x hx
      rcases hadded.sub x hx with rfl | hx'
      · right
        exact hsound.antichain.compat_unique hx hadded.mem (.inr hadded.covers)
      · exact .inl hx'
    · rcases hadded.sub v hadded.mem with rfl | hv
      · exact .inr ⟨rfl, rfl⟩
      · exact .inl hv
  · obtain ⟨hsound, hin, hv⟩ := memAdd_long {} h hx hagree hadd
    rw [hin]
    exact ⟨hsound, fun x hx => .inl hx, hv, .inl hv⟩

lemma memAdd_none {str : Nat} {key : Key} {room : Bool}
    (hadd : memAdd K hdr {} key str room = some (mid, none)) : room = false ∧ mid = hdr := by
  cases room with
  | false =>
    cases hadd
    exact ⟨rfl, rfl⟩
  | true =>
    simp only [memAdd, Bool.not_true, Bool.false_eq_true, if_false, Option.bind_eq_bind,
      Option.bind_eq_some_iff] at hadd
    obtain ⟨r, -, hr⟩ := hadd
    cases hr

/-- Writing to the entry that `mem_add` returned leaves the others as they are. -/
lemma write_ok {v : Elem Val} {val : Val} (h : Ok hdr) (hs : Sound mid [])
    (hsub : ∀ x ∈ mid.root.inorder, x ∈ hdr.root.inorder ∨ x = v) (hv : v ∈ mid.root.inorder)
    (hstored : Stored { v with val := val }) (hdp : val.dp.isSome = true) : Ok (mid.update v val) := by
  have hcases : ∀ x ∈ (mid.update v val).root.inorder,
      x ∈ hdr.root.inorder ∨ x = { v with val := val } := by
    intro x hx
    rcases mem_update hx with ⟨hx, hne⟩ | ⟨y, hy, hblock, rfl⟩
    · rcases hsub x hx with hx | rfl
      · exact .inl hx
      · exact absurd rfl hne
    · rw [hs.block_inj hy hv hblock]
      exact .inr rfl
  refine ⟨update_sound hs v val, ?_, ?_⟩
  · intro x hx
    rcases hcases x hx with hx | rfl
    · exact h.stored x hx
    · exact hstored
  · intro x hx
    rcases hcases x hx with hx | rfl
    · exact h.grouped x hx
    · exact hdp

lemma cmpLen_asks (h : Ok hdr) {len : Int} (hlen : cmpLen cachePre hdr dst = some len) :
    Asks hdr dst len := by
  have hfull : Asks hdr dst ((serializeAddr dst).length * 8) := by
    left
    constructor <;> omega
  simp only [cmpLen, Option.bind_eq_bind] at hlen
  split at hlen
  · next hpre =>
    simp only [Option.bind_eq_some_iff] at hlen
    obtain ⟨r, hget, hlen⟩ := hlen
    cases r with
    | none =>
      cases hlen
      exact hfull
    | some val =>
      obtain ⟨hval, -⟩ := findM_some hget
      obtain ⟨hnonneg, hle | ⟨hlong, htake⟩⟩ := eqBitlen_bounds hlen
      · exact .inl ⟨hnonneg, hle⟩
      · refine .inr ⟨hlong, val, hval, ?_⟩
        -- both are the first bits of the stored key
        obtain ⟨dst', hdata⟩ := (h.stored val hval).key
        have hshort : (serializeAddr dst).length ≤ val.key.data.length := by
          have hinet : dst.addr.family.size = 4 := by rw [hpre.1]; rfl
          have hsize : 4 ≤ dst'.addr.family.size := by cases dst'.addr.family <;> decide
          rw [hdata, serializeAddr_length, serializeAddr_length, hinet]
          omega
        have hfront : bitsOf (serializeAddr dst) <+: bitsOf val.key.data := by
          rw [List.take_length] at htake
          rw [htake, ← List.take_append_drop (serializeAddr dst).length val.key.data, bitsOf_append,
            List.take_append_drop]
          exact List.prefix_append _ _
        exact List.prefix_or_prefix_of_prefix hfront (List.take_prefix _ _)
  · cases hlen
    exact hfull

lemma onTrigger_ok (h : Ok hdr) (ht : -2 ^ 63 ≤ t ∧ t < 2 ^ 63)
    (hhost : ∀ b, host = some b → b ≠ [])
    (hcall : onTrigger K cachePre t hdr dst host room dp = some hdr') : Ok hdr' := by
  simp only [onTrigger, cacheAdd, Option.bind_eq_bind, Option.bind_eq_some_iff] at hcall
  obtain ⟨⟨mid, cache, left⟩, ⟨len, hlen, hadd⟩, hcall⟩ := hcall
  split at hadd
  · cases hadd
    cases hcall
    exact h
  · simp only [Option.bind_eq_some_iff] at hadd
    obtain ⟨⟨pool, r⟩, hadd, hend⟩ := hadd
    have hasks := cmpLen_asks h hlen
    have hmalloc := malloc_sound h.sound
    cases r with
    | none =>
      obtain ⟨hroom, rfl⟩ := memAdd_none hadd
      cases hend
      cases hcall
      exact ⟨free_sound hmalloc, h.stored, h.grouped⟩
    | some v =>
      obtain ⟨hsound, hsub, hv, horigin⟩ := memAdd_ok hmalloc hasks hadd
      cases hend
      simp only [Option.pure_def, Option.some.injEq] at hcall
      rw [update_update] at hcall
      subst hcall
      refine write_ok h hsound hsub hv ?_ rfl
      have hkey : ∃ dst, v.key.data = serializeAddr dst := by
        rcases horigin with hold | ⟨hkey, -⟩
        · exact (h.stored v hold).key
        · exact ⟨dst, hkey⟩
      have hextra : ∀ b, v.val.extra = some b →
          0 < v.val.extraLen ∧ v.val.extraLen ≤ b.length := by
        rcases horigin with hold | ⟨-, hval⟩
        · exact (h.stored v hold).host
        · intro b hb
          rw [hval] at hb
          cases hb
      split
      · refine ⟨hkey, ht, ?_⟩
        rintro b rfl
        exact ⟨List.length_pos_iff.mpr (hhost b rfl), Nat.le_refl _⟩
      · exact ⟨hkey, ht, hextra⟩

end Steps

/-- A `time_t`. -/
abbrev Clock := { t : Int // -2 ^ 63 ≤ t ∧ t < 2 ^ 63 }

/-- A call that reads or writes the cache; the host of `save_hostname` is not empty. -/
inductive Call where
  | get (dst : Dst) (t : Clock)
  | trigger (dst : Dst) (t : Clock) (host : Option { h : Bytes // h ≠ [] }) (room : Bool × Bool)
      (dp : Nat)

section Runs

variable (K : Balance (Elem Val)) (cacheTtl : Nat → Int) (cachePre : Int)

def step (hdr : Pool Val) : Call → Option (Pool Val)
  | .get dst t => (cacheGet K cacheTtl t.1 hdr dst).map (·.1)
  | .trigger dst t host room dp =>
    onTrigger K cachePre t.1 hdr dst (host.map (·.1)) room dp

variable {K cacheTtl cachePre} {hdr hdr' : Pool Val}

lemma step_ok (h : Ok hdr) (call : Call)
    (hstep : step K cacheTtl cachePre hdr call = some hdr') : Ok hdr' := by
  cases call with
  | get dst t =>
    obtain ⟨⟨mid, r⟩, hcall, rfl⟩ := Option.map_eq_some_iff.mp hstep
    exact cacheGet_ok h hcall
  | trigger dst t host room dp =>
    refine onTrigger_ok h t.2 ?_ hstep
    intro b hb
    obtain ⟨host', -, rfl⟩ := Option.map_eq_some_iff.mp hb
    exact host'.2

/-- Every cache that a run comes to is one that the file can be asked about. -/
theorem reachable_cache {calls : List Call}
    (hrun : run (step K cacheTtl cachePre) {} calls = some hdr) : ∃ C : Cache, C.hdr = hdr := by
  have hok : Ok hdr := by
    refine run_invariant (fun s call s' hs hstep => step_ok hs call hstep) ?_ hrun
    exact ⟨empty_sound, by simp, by simp⟩
  exact ⟨⟨⟨hdr, hok.sound, hok.grouped⟩, hok.stored⟩, rfl⟩

end Runs

end CacheRuns
