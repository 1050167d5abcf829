import NoZapret.ClientHello
import NoZapret.TlsVerdict

/-!
# The fields `randomize_tls` fills

The random of the ClientHello, its session id and the keys of its key shares are what may be
filled with random bytes. The loop over the key shares holds the size of each against the
start of the extension, and not against where the key begins.
-/

namespace RandomFields

open Block ClientHello Packets TlsVerdict

/-- A list of key shares runs from `off` to `stop`: a group, a size and the key each. The cell
`i` belongs to a key that ends within the list. -/
inductive InKey (b : Bytes) (stop : Nat) : Nat → Nat → Prop where
  | here {off size i : Nat} (hsize : antohs b (off + 2 : Nat) = some size)
      (hfit : off + 4 + size ≤ stop) (hlo : off + 4 ≤ i) (hhi : i < off + 4 + size) :
      InKey b stop off i
  | later {off size i : Nat} (hsize : antohs b (off + 2 : Nat) = some size)
      (hfit : off + 4 + size ≤ stop) (h : InKey b stop (off + 4 + size) i) : InKey b stop off i

/-- The first key_share extension is at `ks`, and its `size` bytes are all there. -/
structure KeyShare (b : Bytes) (n ks size : Nat) : Prop where
  found : ∃ skip, findExtBlock b n = some skip ∧ skip ≠ 0 ∧
    findTlsExtOffset 0x0033 b n skip = some ks
  nonzero : ks ≠ 0
  sized : antohs b (ks + 2 : Nat) = some size
  fits : ks + 4 + size ≤ n

/-- Where its list of key shares ends: `count` is the length the list states. -/
def listEnd (ks size count : Nat) : Nat := min (ks + 4 + size) (ks + 6 + count)

/-- The cells that are random in a ClientHello. -/
inductive RandomField (b : Bytes) (n i : Nat) : Prop where
  | random (hlo : 11 ≤ i) (hhi : i < 43)
  | sessionId {c : UInt8} (hc : b[43]? = some c) (hlo : 44 ≤ i) (hhi : i < 44 + c.toNat)
  | key {ks size count : Nat} (hks : KeyShare b n ks size)
      (hcount : antohs b (ks + 4 : Nat) = some count)
      (hin : InKey b (listEnd ks size count) (ks + 6) i)

/-- Only random fields below `n` have changed. -/
def OnlyRandom (b : Bytes) (n : Nat) (b' : Bytes) : Prop :=
  b'.length = b.length ∧ ∀ i, b'[i]? ≠ b[i]? → i < n ∧ RandomField b n i

/-- Some key share from `off` on goes past the end of the list, although its size, counted from
the beginning of the extension, does not go past `n`. -/
inductive Overrun (b : Bytes) (n ks size stop : Nat) : Nat → Prop where
  | here {off len : Nat} (hin : off < ks + size) (hlen : antohs b (off + 2 : Nat) = some len)
      (hpos : 0 < len) (hpass : ks + 4 + len ≤ n) (hpast : stop < off + 4 + len) :
      Overrun b n ks size stop off
  | later {off len : Nat} (hin : off < ks + size) (hlen : antohs b (off + 2 : Nat) = some len)
      (hpass : ks + 4 + len ≤ n) (h : Overrun b n ks size stop (off + 4 + len)) :
      Overrun b n ks size stop off

/-- No key share goes past the end of its list unnoticed. -/
def SharesFit (b : Bytes) (n : Nat) : Prop :=
  ∀ ks size count, KeyShare b n ks size → antohs b (ks + 4 : Nat) = some count →
    ¬ Overrun b n ks size (listEnd ks size count) (ks + 6)

section Fill

variable {rnd : Nat → Nat} {b b' a : Bytes} {k len i off : Nat}

lemma genRandArray_fits (h : off + len ≤ b.length) :
    ∃ b', genRandArray rnd k b off len = some b' := by
  refine blit_fits ?_
  rw [List.length_map, List.length_range]
  exact h

/-- What `gen_rand_array` leaves in a cell. -/
lemma genRandArray_get (h : genRandArray rnd k b off len = some b') (i : Nat) :
    b'[i]? = if off ≤ i ∧ i < off + len then some (UInt8.ofNat (rnd (k + (i - off)) % 256))
      else b[i]? := by
  have hget := blit_get h i
  rw [List.length_map, List.length_range] at hget
  rw [hget]
  split
  · next hin =>
    rw [List.getElem?_map, List.getElem?_range (by omega)]
    rfl
  · rfl

lemma genRandArray_length (h : genRandArray rnd k b off len = some b') :
    b'.length = b.length := blit_length h

lemma antohs_congr (h : b[i]? = a[i]?) (h' : b[i + 1]? = a[i + 1]?) :
    antohs b i = antohs a i := by
  have hb : rd b ((i : Int) + 1) = b[i + 1]? := rd_nat b (i + 1)
  have ha : rd a ((i : Int) + 1) = a[i + 1]? := rd_nat a (i + 1)
  simp only [antohs, rd_nat, hb, ha, h, h']

/-- The search for an extension depends on the cells from where it begins. -/
lemma findTlsExtFrom_congr {type size : Nat} (fuel : Nat) :
    ∀ skip, (∀ i, skip ≤ i → b[i]? = a[i]?) →
      findTlsExtFrom type b size fuel skip = findTlsExtFrom type a size fuel skip := by
  induction fuel with
  | zero => exact fun _ _ => rfl
  | succ fuel ih =>
    intro skip h
    have htype : antohs b skip = antohs a skip :=
      antohs_congr (h skip (Nat.le_refl _)) (h (skip + 1) (Nat.le_succ _))
    have hlen : antohs b ((skip : Int) + 2) = antohs a ((skip : Int) + 2) :=
      antohs_congr (i := skip + 2) (h _ (by omega)) (h _ (by omega))
    simp only [findTlsExtFrom, htype, hlen]
    split
    · congr 1
      funext t
      split
      · rfl
      · congr 1
        funext l
        exact ih _ fun i hi => h i (by omega)
    · rfl

lemma findTlsExtOffset_congr {type size skip : Nat} (h : ∀ i, skip ≤ i → b[i]? = a[i]?) :
    findTlsExtOffset type b size skip = findTlsExtOffset type a size skip := by
  have hword : antohs b skip = antohs a skip :=
    antohs_congr (h skip (Nat.le_refl _)) (h (skip + 1) (Nat.le_succ _))
  simp only [findTlsExtOffset, hword]
  split
  · rfl
  · congr 1
    funext l
    exact findTlsExtFrom_congr _ _ fun i hi => h i (by omega)

/-- An extension is found behind the place where the search begins. -/
lemma findTlsExtFrom_ge {type size v : Nat} (fuel : Nat) :
    ∀ skip, findTlsExtFrom type b size fuel skip = some v → v ≠ 0 → skip ≤ v := by
  induction fuel with
  | zero =>
    intro skip h
    cases h
  | succ fuel ih =>
    intro skip h hv
    rw [findTlsExtFrom] at h
    split at h
    · obtain ⟨t, -, h⟩ := Option.bind_eq_some_iff.mp h
      split at h
      · cases h
        exact Nat.le_refl _
      · obtain ⟨l, -, h⟩ := Option.bind_eq_some_iff.mp h
        have hle := ih _ h hv
        omega
    · cases h
      exact absurd rfl hv

lemma findTlsExtOffset_ge {type size skip v : Nat}
    (h : findTlsExtOffset type b size skip = some v) (hv : v ≠ 0) : skip + 2 ≤ v := by
  unfold findTlsExtOffset at h
  split at h
  · cases h
    exact absurd rfl hv
  · obtain ⟨l, -, h⟩ := Option.bind_eq_some_iff.mp h
    exact findTlsExtFrom_ge _ _ h hv

end Fill

section Loop

variable {rnd : Nat → Nat} {b a a' : Bytes} {n ks size stop off i k fuel : Nat}

lemma InKey.bounds (h : InKey b stop off i) : off + 4 ≤ i ∧ i < stop := by
  induction h with
  | here hsize hfit hlo hhi => omega
  | later hsize hfit h ih => omega

/-- The size in the header of a key share that the loop comes to. -/
lemma size_read (hfits : ks + 4 + size ≤ b.length) (hin : off < ks + size) :
    ∃ len, antohs b (off + 2 : Nat) = some len := by
  obtain ⟨hi, lo, -, -, hlen⟩ := antohs_some (b := b) (i := off + 2) (by omega)
  exact ⟨_, hlen⟩

/-- One round of the loop. -/
lemma randKeysFrom_succ (hin : off < ks + size) {len : Nat}
    (hlen : antohs a (off + 2 : Nat) = some len) :
    randKeysFrom rnd n ks size (fuel + 1) k a off =
      if ks + 4 + len > n then some a
      else (genRandArray rnd k a (off + 4 : Nat) len).bind fun a =>
        randKeysFrom rnd n ks size fuel (k + len) a (off + 4 + len) := by
  have hlen : antohs a ((off : Int) + 2) = some len := hlen
  simp only [randKeysFrom, hlen, Option.bind_eq_bind, Option.bind_some]
  rw [if_pos (by omega)]
  rfl

lemma randKeysFrom_end (hin : ¬ off < ks + size) :
    randKeysFrom rnd n ks size (fuel + 1) k a off = some a := by
  rw [randKeysFrom, if_neg (by omega)]
  rfl

/-- The loop writes behind the header it begins at. -/
lemma randKeysFrom_behind (h : randKeysFrom rnd n ks size fuel k a off = some a')
    (hi : i < off + 4) : a'[i]? = a[i]? := by
  induction fuel generalizing k a off with
  | zero => cases h
  | succ fuel ih =>
    by_cases hin : off < ks + size
    · rw [randKeysFrom, if_pos (by omega)] at h
      obtain ⟨len, -, h⟩ := Option.bind_eq_some_iff.mp h
      split at h
      · cases h
        rfl
      · obtain ⟨d, hd, h⟩ := Option.bind_eq_some_iff.mp h
        have hd : genRandArray rnd k a (off + 4 : Nat) len = some d := hd
        rw [ih h (by omega), genRandArray_get hd i, if_neg (by omega)]
    · rw [randKeysFrom_end hin] at h
      cases h
      rfl

/-- Without an overrun the loop ends, and what it changes are keys. -/
lemma randKeysFrom_only (hfit : ¬ Overrun b n ks size stop off) (hsize : ks + 4 + size ≤ n)
    (hn : n ≤ b.length) (hstop : stop ≤ ks + 4 + size) (hlen : a.length = b.length)
    (hsame : ∀ i, off ≤ i → a[i]? = b[i]?) (hpos : 0 < fuel) (hfuel : ks + size < off + fuel)
    (k : Nat) :
    ∃ a', randKeysFrom rnd n ks size fuel k a off = some a' ∧ a'.length = a.length ∧
      ∀ i, a'[i]? ≠ a[i]? → InKey b stop off i := by
  induction fuel generalizing k a off with
  | zero => omega
  | succ fuel ih =>
    by_cases hin : off < ks + size
    · obtain ⟨len, hread⟩ := size_read (b := b) (by omega) hin
      have hread' : antohs a (off + 2 : Nat) = some len := by
        rw [antohs_congr (hsame _ (by omega)) (hsame _ (by omega))]
        exact hread
      rw [randKeysFrom_succ hin hread']
      by_cases hpass : ks + 4 + len > n
      · rw [if_pos hpass]
        exact ⟨a, rfl, rfl, fun i hi => absurd rfl hi⟩
      rw [if_neg hpass]
      have hnext : ¬ Overrun b n ks size stop (off + 4 + len) :=
        fun h => hfit (.later hin hread (by omega) h)
      have hkey : len = 0 ∨ off + 4 + len ≤ stop := by
        by_contra hpast
        exact hfit (.here hin hread (by omega) (by omega) (by omega))
      obtain ⟨d, hd⟩ : ∃ d, genRandArray rnd k a (off + 4 : Nat) len = some d :=
        genRandArray_fits (by omega)
      have hdget := genRandArray_get hd
      have hdlen := genRandArray_length hd
      obtain ⟨a', hrun, hclen, honly⟩ := ih hnext (hdlen.trans hlen) (fun i hi => by
        rw [hdget i, if_neg (by omega)]
        exact hsame i (by omega)) (by omega) (by omega) (k + len)
      refine ⟨a', by rw [hd]; exact hrun, hclen.trans hdlen, ?_⟩
      intro i hi
      by_cases hchanged : a'[i]? = d[i]?
      · rw [hchanged, hdget i] at hi
        split at hi
        · exact .here hread (by omega) (by omega) (by omega)
        · exact absurd rfl hi
      · have hrest := honly i hchanged
        have hbounds := hrest.bounds
        exact .later hread (by omega) hrest
    · rw [randKeysFrom_end hin]
      exact ⟨a, rfl, rfl, fun i hi => absurd rfl hi⟩

/-- An overrun writes a cell that is in no key. -/
lemma Overrun.writes (h : Overrun b n ks size stop off) :
    ∃ j, stop ≤ j ∧ off + 4 ≤ j ∧ ∀ {r k fuel : Nat} {a : Bytes},
      (∀ i, off ≤ i → a[i]? = b[i]?) →
        ∀ a', randKeysFrom (fun _ => r) n ks size fuel k a off = some a' →
          a'[j]? = some (UInt8.ofNat (r % 256)) := by
  induction h with
  | @here off len hin hlen hpos hpass hpast =>
    refine ⟨off + 4 + len - 1, by omega, by omega, ?_⟩
    intro r k fuel a hsame a' hrun
    have hlen' : antohs a (off + 2 : Nat) = some len := by
      rw [antohs_congr (hsame _ (by omega)) (hsame _ (by omega))]
      exact hlen
    cases fuel with
    | zero => cases hrun
    | succ fuel =>
      rw [randKeysFrom_succ hin hlen', if_neg (by omega)] at hrun
      obtain ⟨d, hd, hrun⟩ := Option.bind_eq_some_iff.mp hrun
      rw [randKeysFrom_behind hrun (by omega), genRandArray_get hd, if_pos (by omega)]
  | @later off len hin hlen hpass h ih =>
    obtain ⟨j, hj, hlo, hwrite⟩ := ih
    refine ⟨j, hj, by omega, ?_⟩
    intro r k fuel a hsame a' hrun
    have hlen' : antohs a (off + 2 : Nat) = some len := by
      rw [antohs_congr (hsame _ (by omega)) (hsame _ (by omega))]
      exact hlen
    cases fuel with
    | zero => cases hrun
    | succ fuel =>
      rw [randKeysFrom_succ hin hlen', if_neg (by omega)] at hrun
      obtain ⟨d, hd, hrun⟩ := Option.bind_eq_some_iff.mp hrun
      refine hwrite (fun i hi => ?_) a' hrun
      rw [genRandArray_get hd, if_neg (by omega)]
      exact hsame i (by omega)

end Loop

section Fields

variable {rnd : Nat → Nat} {b b2 : Bytes} {n ks ks' size size' skip stop off : Nat} {c : UInt8}

lemma Overrun.inside (h : Overrun b n ks size stop off) : off < ks + size := by
  cases h with
  | here hin => exact hin
  | later hin => exact hin

lemma KeyShare.unique (h : KeyShare b n ks size) (h' : KeyShare b n ks' size') :
    ks = ks' ∧ size = size' := by
  obtain ⟨skip, hskip, -, hks⟩ := h.found
  obtain ⟨skip', hskip', -, hks'⟩ := h'.found
  cases hskip.symm.trans hskip'
  cases hks.symm.trans hks'
  cases h.sized.symm.trans h'.sized
  exact ⟨rfl, rfl⟩

/-- The block of extensions is behind the session id. -/
lemma findExtBlock_ge (h : findExtBlock b n = some skip) (hne : skip ≠ 0) (hc : b[43]? = some c) :
    44 + c.toNat ≤ skip ∧ 44 + c.toNat + 2 ≤ n := by
  have hread : rd b 43 = some c := (rd_nat b 43).trans hc
  simp only [findExtBlock, hread, Option.bind_eq_bind, Option.bind_some] at h
  split at h
  · cases h
    exact absurd rfl hne
  split at h
  · cases h
    exact absurd rfl hne
  obtain ⟨cip, -, h⟩ := Option.bind_eq_some_iff.mp h
  cases h
  split at hne <;> split <;> omega

lemma findExtBlock_long (h : findExtBlock b n = some skip) (hne : skip ≠ 0) : 44 ≤ n := by
  by_contra hshort
  unfold findExtBlock at h
  rw [if_pos (by omega)] at h
  cases h
  exact hne rfl

/-- The key shares are behind the session id. -/
lemma KeyShare.behind (h : KeyShare b n ks size) (hc : b[43]? = some c) :
    44 + c.toNat + 2 ≤ ks ∧ 44 + c.toNat + 2 ≤ n := by
  obtain ⟨skip, hskip, hne, hks⟩ := h.found
  have hbehind := findExtBlock_ge hskip hne hc
  have hge := findTlsExtOffset_ge hks h.nonzero
  omega

/-- The cells that are filled in any case. -/
structure Filled (b : Bytes) (c : UInt8) (b2 : Bytes) : Prop where
  length : b2.length = b.length
  same : ∀ i, ¬ (11 ≤ i ∧ i < 43) → ¬ (44 ≤ i ∧ i < 44 + c.toNat) → b2[i]? = b[i]?

lemma fill_fields (rnd : Nat → Nat) (hlong : 44 + c.toNat + 2 ≤ b.length) :
    ∃ b1 b2, genRandArray rnd 0 b 11 32 = some b1 ∧
      genRandArray rnd 32 b1 44 c.toNat = some b2 ∧ Filled b c b2 := by
  obtain ⟨b1, h1⟩ : ∃ b1, genRandArray rnd 0 b (11 : Nat) 32 = some b1 :=
    genRandArray_fits (by omega)
  have hlen := genRandArray_length h1
  obtain ⟨b2, h2⟩ : ∃ b2, genRandArray rnd 32 b1 (44 : Nat) c.toNat = some b2 :=
    genRandArray_fits (by omega)
  refine ⟨b1, b2, h1, h2, (genRandArray_length h2).trans hlen, ?_⟩
  intro i hrandom hsid
  rw [genRandArray_get h2 i, if_neg hsid, genRandArray_get h1 i, if_neg (by omega)]

lemma Filled.behind (h : Filled b c b2) {i : Nat} (hi : 44 + c.toNat ≤ i) : b2[i]? = b[i]? :=
  h.same i (by omega) (by omega)

lemma Filled.findExtBlock (h : Filled b c b2) (hc : b[43]? = some c) :
    findExtBlock b2 n = findExtBlock b n := by
  have hread : rd b 43 = some c := (rd_nat b 43).trans hc
  have hread2 : rd b2 43 = some c := by
    rw [← hread]
    exact (rd_nat b2 43).trans ((h.same 43 (by omega) (by omega)).trans (rd_nat b 43).symm)
  have hword : antohs b2 (44 + (c.toNat : Int)) = antohs b (44 + (c.toNat : Int)) :=
    antohs_congr (i := 44 + c.toNat) (h.behind (Nat.le_refl _)) (h.behind (Nat.le_succ _))
  simp only [Packets.findExtBlock, hread, hread2, hword, Option.bind_eq_bind, Option.bind_some]

/-- A buffer that is too short for its session id is left alone. -/
lemma randomizeTls_short (hn : n ≤ b.length)
    (hshort : ∀ c, b[43]? = some c → n < 44 + c.toNat + 2) : randomizeTls rnd b n = some b := by
  unfold randomizeTls
  by_cases hlong : n < 44
  · rw [if_pos hlong]
    rfl
  · obtain ⟨c, hc⟩ : ∃ c, b[43]? = some c := ⟨_, List.getElem?_eq_getElem (by omega)⟩
    have hread : rd b 43 = some c := (rd_nat b 43).trans hc
    simp only [hread, Option.bind_eq_bind, Option.bind_some]
    rw [if_neg hlong, if_pos (hshort c hc)]
    rfl

/-- Without key shares only the random and the session id are filled. -/
lemma randomizeTls_bare (rnd : Nat → Nat) (hn : n ≤ b.length) (hc : b[43]? = some c) (hlong : 44 + c.toNat + 2 ≤ n)
    (hnone : ∀ ks size, KeyShare b n ks size → n ≤ ks + 6) :
    ∃ b2, randomizeTls rnd b n = some b2 ∧ Filled b c b2 := by
  obtain ⟨b1, b2, h1, h2, hfilled⟩ := fill_fields rnd (b := b) (c := c) (by omega)
  refine ⟨b2, ?_, hfilled⟩
  have hread : rd b 43 = some c := (rd_nat b 43).trans hc
  obtain ⟨skip, hskip⟩ := findExtBlock_total hn
  simp only [randomizeTls, hread, h1, h2, hfilled.findExtBlock hc, hskip, Option.bind_eq_bind,
    Option.bind_some]
  rw [if_neg (by omega), if_neg (by omega)]
  by_cases hblock : skip = 0
  · rw [if_pos hblock]
    rfl
  rw [if_neg hblock]
  have hbehind := findExtBlock_ge hskip hblock hc
  obtain ⟨ks, hks, -⟩ := findTlsExtOffset_total 0x0033 skip hn
  rw [findTlsExtOffset_congr fun i hi => hfilled.behind (by omega), hks, Option.bind_some]
  by_cases hend : ks = 0 ∨ ks + 6 ≥ n
  · rw [if_pos hend]
    rfl
  rw [if_neg hend]
  have hge := findTlsExtOffset_ge hks (by omega)
  obtain ⟨size, hsize⟩ : ∃ size, antohs b (ks + 2 : Nat) = some size := by
    obtain ⟨hi, lo, -, -, hread⟩ := antohs_some (b := b) (i := ks + 2) (by omega)
    exact ⟨_, hread⟩
  have hsize2 : antohs b2 ((ks : Int) + 2) = some size := by
    rw [← hsize]
    exact antohs_congr (i := ks + 2) (hfilled.behind (by omega)) (hfilled.behind (by omega))
  rw [hsize2, Option.bind_some]
  have hpast : ks + 4 + size > n := by
    by_contra hfits
    have hle := hnone ks size ⟨⟨skip, hskip, hblock, hks⟩, by omega, hsize, by omega⟩
    omega
  rw [if_pos hpast]
  rfl

/-- With key shares the loop follows. -/
lemma randomizeTls_keys (rnd : Nat → Nat) (hn : n ≤ b.length) (hc : b[43]? = some c) (h : KeyShare b n ks size)
    (hroom : ks + 6 < n) :
    ∃ b2, randomizeTls rnd b n =
        randKeysFrom rnd n ks size (size + 1) (32 + c.toNat) b2 (ks + 4 + 2) ∧ Filled b c b2 := by
  obtain ⟨hks, hlong⟩ := h.behind hc
  obtain ⟨b1, b2, h1, h2, hfilled⟩ := fill_fields rnd (b := b) (c := c) (by omega)
  refine ⟨b2, ?_, hfilled⟩
  have hread : rd b 43 = some c := (rd_nat b 43).trans hc
  obtain ⟨skip, hskip, hblock, hfound⟩ := h.found
  have hbehind := findExtBlock_ge hskip hblock hc
  have hfound2 : findTlsExtOffset 0x0033 b2 n skip = some ks := by
    rw [findTlsExtOffset_congr fun i hi => hfilled.behind (by omega)]
    exact hfound
  have hsize2 : antohs b2 ((ks : Int) + 2) = some size := by
    rw [← h.sized]
    exact antohs_congr (i := ks + 2) (hfilled.behind (by omega)) (hfilled.behind (by omega))
  have hfits := h.fits
  simp only [randomizeTls, hread, h1, h2, hfilled.findExtBlock hc, hskip, hfound2, hsize2,
    Option.bind_eq_bind, Option.bind_some]
  rw [if_neg (by omega), if_neg (by omega), if_neg hblock, if_neg (by omega), if_neg (by omega)]

lemma Filled.onlyRandom (h : Filled b c b2) (hc : b[43]? = some c) (hlong : 44 + c.toNat + 2 ≤ n) :
    OnlyRandom b n b2 := by
  refine ⟨h.length, ?_⟩
  intro i hi
  by_cases hrandom : 11 ≤ i ∧ i < 43
  · exact ⟨by omega, .random hrandom.1 hrandom.2⟩
  by_cases hsid : 44 ≤ i ∧ i < 44 + c.toNat
  · exact ⟨by omega, .sessionId hc hsid.1 hsid.2⟩
  exact absurd (h.same i hrandom hsid) hi

end Fields

section Shares

variable {b : Bytes} {n ks size count : Nat} {c : UInt8}

/-- The keys of a list without overruns are all that the loop fills. -/
lemma keys_only (rnd : Nat → Nat) (hn : n ≤ b.length) (hc : b[43]? = some c)
    (hks : KeyShare b n ks size) (hroom : ks + 6 < n)
    (hcount : antohs b (ks + 4 : Nat) = some count)
    (hfit : ¬ Overrun b n ks size (listEnd ks size count) (ks + 6)) :
    ∃ b', randomizeTls rnd b n = some b' ∧ OnlyRandom b n b' := by
  have hfits := hks.fits
  have hstop : listEnd ks size count ≤ ks + 4 + size := Nat.min_le_left _ _
  obtain ⟨hbehind, hlong⟩ := hks.behind hc
  obtain ⟨b2, heq, hfilled⟩ := randomizeTls_keys rnd hn hc hks hroom
  obtain ⟨b', hrun, hlen, honly⟩ : ∃ b',
      randKeysFrom rnd n ks size (size + 1) (32 + c.toNat) b2 (ks + 4 + 2) = some b' ∧
        b'.length = b2.length ∧
        ∀ i, b'[i]? ≠ b2[i]? → InKey b (listEnd ks size count) (ks + 6) i :=
    randKeysFrom_only hfit hfits hn hstop hfilled.length (fun i hi => hfilled.behind (by omega))
      (Nat.succ_pos _) (by omega) _
  refine ⟨b', heq.trans hrun, hlen.trans hfilled.length, ?_⟩
  intro i hi
  by_cases hchanged : b'[i]? = b2[i]?
  · rw [hchanged] at hi
    exact (hfilled.onlyRandom hc hlong).2 i hi
  · have hin := honly i hchanged
    have hbounds := hin.bounds
    exact ⟨by omega, .key hks hcount hin⟩

/-- An overrun fills a cell that is not a random field. -/
lemma overrun_fills (hn : n ≤ b.length) (hks : KeyShare b n ks size)
    (hcount : antohs b (ks + 4 : Nat) = some count)
    (hover : Overrun b n ks size (listEnd ks size count) (ks + 6)) :
    ¬ ∀ rnd, ∃ b', randomizeTls rnd b n = some b' ∧ OnlyRandom b n b' := by
  intro honly
  obtain ⟨skip, hskip, hne, -⟩ := hks.found
  have hlong := findExtBlock_long hskip hne
  obtain ⟨c, hc⟩ : ∃ c, b[43]? = some c := ⟨_, List.getElem?_eq_getElem (by omega)⟩
  have hbehind := (hks.behind hc).1
  have hinside := hover.inside
  have hfits := hks.fits
  obtain ⟨j, hj, hlo, hwrite⟩ := hover.writes
  obtain ⟨r, hr⟩ : ∃ r, b[j]? ≠ some (UInt8.ofNat (r % 256)) := by
    by_contra hall
    simp only [not_exists, not_not] at hall
    have heq := (hall 0).symm.trans (hall 1)
    exact absurd heq (by decide)
  obtain ⟨b', hrun, -, hchange⟩ := honly fun _ => r
  obtain ⟨b2, heq, hfilled⟩ := randomizeTls_keys (fun _ => r) hn hc hks (by omega)
  rw [heq] at hrun
  have hcell := hwrite (fun i hi => hfilled.behind (by omega)) b' hrun
  cases (hchange j (by rw [hcell]; exact hr.symm)).2 with
  | random => omega
  | sessionId hc' =>
    cases hc.symm.trans hc'
    omega
  | key hks' hcount' hin =>
    obtain ⟨rfl, rfl⟩ := hks.unique hks'
    cases hcount.symm.trans hcount'
    have hbounds := hin.bounds
    omega

end Shares

/-- `randomize_tls` keeps to the random fields, whatever `rand()` draws, if and only if no key
share goes past the end of its list unnoticed. -/
theorem random_fields_only_iff {b : Bytes} {n : Nat} (hn : n ≤ b.length) :
    (∀ rnd, ∃ b', randomizeTls rnd b n = some b' ∧ OnlyRandom b n b') ↔ SharesFit b n := by
  constructor
  · intro honly ks size count hks hcount hover
    exact overrun_fills hn hks hcount hover honly
  intro hshares rnd
  by_cases hshort : ∀ c, b[43]? = some c → n < 44 + c.toNat + 2
  · exact ⟨b, randomizeTls_short hn hshort, rfl, fun i hi => absurd rfl hi⟩
  simp only [not_forall, Nat.not_lt] at hshort
  obtain ⟨c, hc, hlong⟩ := hshort
  by_cases hkeys : ∃ ks size, KeyShare b n ks size ∧ ks + 6 < n
  · obtain ⟨ks, size, hks, hroom⟩ := hkeys
    obtain ⟨hi, lo, -, -, hcount⟩ := antohs_some (b := b) (i := ks + 4) (by omega)
    exact keys_only rnd hn hc hks hroom hcount (hshares ks size _ hks hcount)
  · have hnone : ∀ ks size, KeyShare b n ks size → n ≤ ks + 6 := by
      intro ks size hks
      by_contra hroom
      exact hkeys ⟨ks, size, hks, by omega⟩
    obtain ⟨b2, hrun, hfilled⟩ := randomizeTls_bare rnd hn hc hlong hnone
    exact ⟨b2, hrun, hfilled.onlyRandom hc hlong⟩

/-- A hello whose one key share states `size` bytes, of which one is in the extension; seven bytes
of another extension follow. -/
def oneShare (size : UInt8) : Bytes :=
  List.replicate 43 0 ++ [0, 0, 0, 0, 0, 0, 18, 0, 0x33, 0, 7, 0, 5, 0, 0x1d, 0, size, 0xaa] ++
    [0, 0, 0, 3, 1, 2, 3]

lemma oneShare_keyShare {size : UInt8} (h : size = 1 ∨ size = 8) :
    KeyShare (oneShare size) 68 50 7 where
  found := by
    refine ⟨48, ?_, by decide, ?_⟩
    · rcases h with rfl | rfl <;> decide
    · rcases h with rfl | rfl <;> decide
  nonzero := by decide
  sized := rfl
  fits := by decide

lemma oneShare_fits : SharesFit (oneShare 1) 68 := by
  intro ks size count hks hcount hover
  obtain ⟨rfl, rfl⟩ := (oneShare_keyShare (.inl rfl)).unique hks
  have hfive : antohs (oneShare 1) (50 + 4 : Nat) = some 5 := rfl
  cases hfive.symm.trans hcount
  have hone : antohs (oneShare 1) (50 + 6 + 2 : Nat) = some 1 := rfl
  cases hover with
  | here hin hlen hpos hpass hpast =>
    cases hone.symm.trans hlen
    exact absurd hpast (by decide)
  | later hin hlen hpass h =>
    cases hone.symm.trans hlen
    exact absurd h.inside (by decide)

theorem random_fields_only_iff_one : SharesFit (oneShare 1) 68 ∧
    ∀ rnd, ∃ b', randomizeTls rnd (oneShare 1) 68 = some b' ∧ OnlyRandom (oneShare 1) 68 b' :=
  ⟨oneShare_fits, (random_fields_only_iff (by decide)).mpr oneShare_fits⟩

/-- A size of eight takes the loop over the header of the extension that follows. -/
theorem next_extension_randomized :
    ¬ ∀ rnd, ∃ b', randomizeTls rnd (oneShare 8) 68 = some b' ∧ OnlyRandom (oneShare 8) 68 b' :=
  overrun_fills (by decide) (oneShare_keyShare (.inr rfl)) (rfl : _ = some 5)
    (.here (by decide) (rfl : _ = some 8) (by decide) (by decide) (by decide))

end RandomFields
