import NoZapret.Hosts

/-!
# Exactness of host whitelists

What a pool of listed names keeps over any run of `mem_add`: the names stand in the
order of their reversed texts, and every listed name is stored or has a listed domain
above it. Searching is exact for a domain as long as no listed name goes on behind it
with a dash, since the dash alone is below the dot; with such a name there is a shape
of the tree that loses the subdomains.
-/

namespace HostPool

open Packets SearchTree Hosts

section Under

variable {p q d e v x : Bytes}

lemma under_trans (h1 : Under v e) (h2 : Under e d) : Under v d := by
  rw [under_iff] at h1 h2 ⊢
  exact below_trans h1 h2

lemma under_linear (h1 : Under v e) (h2 : Under v d) : Under e d ∨ Under d e := by
  simp only [under_iff] at h1 h2 ⊢
  exact below_linear h1 h2

lemma under_length (h : Under v d) : d.length ≤ v.length := by
  rw [under_iff] at h
  simpa using below_length h

theorem hostCmp_eq_iff (p q : Bytes) : hostCmp p q = .eq ↔ Under p q ∨ Under q p := by
  rw [hostCmp, cmpBack_eq_iff, ← under_iff, ← under_iff]

lemma hostCmp_lt (h : hostCmp p q = .lt) : Before p q := cmpBack_lt _ _ h

lemma hostCmp_gt (h : hostCmp p q = .gt) : Before q p := cmpBack_gt _ _ h

lemma before_trans (a b c : Bytes) (h1 : Before a b) (h2 : Before b c) : Before a c :=
  List.lt_trans h1 h2

lemma before_asymm (a b : Bytes) (h : Before a b) : ¬ Before b a := List.lt_asymm h

/-- What is found and is longer than the query is below it. -/
lemma under_of_longer (h : hostCmp e v = .eq) (hlen : e.length < v.length) : Under v e := by
  rcases (hostCmp_eq_iff e v).mp h with hev | hve
  · have := under_length hev
    omega
  · exact hve

lemma under_of_not_longer (h : hostCmp e v = .eq) (hlen : ¬ e.length < v.length) : Under e v := by
  rcases (hostCmp_eq_iff e v).mp h with hev | hve
  · exact hev
  · rcases hve with rfl | ⟨w, rfl⟩
    · exact .inl rfl
    · simp only [List.length_append, List.length_cons] at hlen
      omega

end Under

section Add

variable {K : Balance Bytes} {hdr hdr' : Pool} {e v d : Bytes} {fuel : Nat}

/-- A longer name that a search for `e` comes to is found under its own text as well,
so `mem_delete` takes out that name and no other. -/
theorem find_longer (hs : hdr.inorder.Pairwise Before) (hfind : hdr.find (hostCmp e) = some v)
    (hlen : e.length < v.length) : hdr.find (hostCmp v) = some v := by
  have hve : Under v e := under_of_longer (find_some hfind).2 hlen
  refine find_same hs before_asymm ((hostCmp_eq_iff v v).mpr (.inl (.inl rfl))) ?_
    (fun _ _ h => hostCmp_lt h) (fun _ _ h => hostCmp_gt h) hfind
  intro x _ hne hvx
  apply hne
  rw [hostCmp_eq_iff]
  rcases (hostCmp_eq_iff v x).mp hvx with hvx | hxv
  · exact under_linear hve hvx
  · exact .inr (under_trans hxv hve)

/-- What is left when such a name is taken out. -/
structure Deleted (hdr hdr' : Pool) (v : Bytes) : Prop where
  sorted : hdr'.inorder.Pairwise Before
  sub : ∀ s ∈ hdr'.inorder, s ∈ hdr.inorder
  keeps : ∀ s ∈ hdr.inorder, s = v ∨ s ∈ hdr'.inorder
  shorter : hdr'.inorder.length < hdr.inorder.length

lemma memDelete_longer (hs : hdr.inorder.Pairwise Before)
    (hfind : hdr.find (hostCmp e) = some v) (hlen : e.length < v.length) :
    Deleted hdr (memDelete K hdr v) v := by
  have hv := find_longer hs hfind hlen
  obtain ⟨before, after, hsplit, herase⟩ := erase_split hv
  have hdel : (memDelete K hdr v).inorder = before ++ after := by
    simp only [memDelete, hv]
    rw [K.inorder_fix, herase]
  constructor
  · rw [hdel]
    rw [hsplit] at hs
    exact hs.sublist (List.Sublist.append_left (List.sublist_cons_self v after) before)
  · intro s hmem
    rw [hdel] at hmem
    rw [hsplit]
    simp only [List.mem_append, List.mem_cons] at hmem ⊢
    tauto
  · intro s hmem
    rw [hsplit] at hmem
    rw [hdel]
    simp only [List.mem_append, List.mem_cons] at hmem ⊢
    tauto
  · rw [hdel, hsplit]
    simp

/-- What `mem_add` does to a pool. -/
structure Added (hdr hdr' : Pool) (e : Bytes) : Prop where
  sorted : hdr'.inorder.Pairwise Before
  sub : ∀ s ∈ hdr'.inorder, s = e ∨ s ∈ hdr.inorder
  covers : ∃ s ∈ hdr'.inorder, Under e s
  keeps : ∀ s ∈ hdr.inorder, s ∈ hdr'.inorder ∨ Under s e

lemma added_insert (hs : hdr.inorder.Pairwise Before) (hfind : hdr.find (hostCmp e) = none) :
    Added hdr (K.fix (hdr.insert (hostCmp e) e)) e := by
  have hmem : ∀ z, z ∈ (K.fix (hdr.insert (hostCmp e) e)).inorder ↔ z = e ∨ z ∈ hdr.inorder := by
    intro z
    rw [K.inorder_fix, mem_insert hfind]
  constructor
  · rw [K.inorder_fix]
    exact insert_sorted before_trans (fun _ _ h => hostCmp_lt h) (fun _ _ h => hostCmp_gt h) hs hfind
  · exact fun s hs => (hmem s).mp hs
  · exact ⟨e, (hmem e).mpr (.inl rfl), .inl rfl⟩
  · exact fun s hs => .inl ((hmem s).mpr (.inr hs))

theorem memAddLoop_spec (hs : hdr.inorder.Pairwise Before) (hfuel : hdr.inorder.length < fuel) :
    ∃ hdr', memAddLoop K e fuel hdr = some hdr' ∧ Added hdr hdr' e := by
  induction fuel generalizing hdr with
  | zero => omega
  | succ fuel ih =>
    simp only [memAddLoop]
    cases hfind : hdr.find (hostCmp e) with
    | none => exact ⟨_, rfl, added_insert hs hfind⟩
    | some v =>
      obtain ⟨hv, heq⟩ := find_some hfind
      simp only
      split
      · rename_i hlen
        have hdel : Deleted hdr (memDelete K hdr v) v := memDelete_longer hs hfind hlen
        have hfuel' : (memDelete K hdr v).inorder.length < fuel := by
          have := hdel.shorter
          omega
        obtain ⟨hdr', hloop, hadd⟩ := ih hdel.sorted hfuel'
        refine ⟨hdr', hloop, hadd.sorted, ?_, hadd.covers, ?_⟩
        · intro s hmem
          rcases hadd.sub s hmem with rfl | hmem
          · exact .inl rfl
          · exact .inr (hdel.sub s hmem)
        · intro s hmem
          rcases hdel.keeps s hmem with rfl | hmem
          · exact .inr (under_of_longer heq hlen)
          · exact hadd.keeps s hmem
      · rename_i hlen
        exact ⟨hdr, rfl, hs, fun s hmem => .inr hmem, ⟨v, hv, under_of_not_longer heq hlen⟩,
          fun s hmem => .inl hmem⟩

theorem memAdd_spec (hs : hdr.inorder.Pairwise Before) :
    ∃ hdr', memAdd K hdr e = some hdr' ∧ Added hdr hdr' e :=
  memAddLoop_spec hs (by omega)

end Add

section List

variable {K : Balance Bytes} {hdr hdr' : Pool} {e : Bytes} {names : List Bytes}

/-- `mem_add`, name after name. -/
def addAll (K : Balance Bytes) : List Bytes → Pool → Option Pool
  | [], hdr => some hdr
  | e :: names, hdr => (memAdd K hdr e).bind fun hdr => addAll K names hdr

/-- What a pool holds after `names` have been added. -/
structure Holds (names : List Bytes) (hdr : Pool) : Prop where
  sorted : hdr.inorder.Pairwise Before
  sub : ∀ s ∈ hdr.inorder, s ∈ names
  covers : ∀ n ∈ names, ∃ s ∈ hdr.inorder, Under n s

lemma holds_empty : Holds [] .leaf := ⟨by simp, by simp, by simp⟩

lemma Holds.add (h : Holds names hdr) :
    ∃ hdr', memAdd K hdr e = some hdr' ∧ Holds (names ++ [e]) hdr' := by
  obtain ⟨hdr', hadd, hspec⟩ := memAdd_spec (K := K) (e := e) h.sorted
  refine ⟨hdr', hadd, hspec.sorted, ?_, ?_⟩
  · intro s hs
    rcases hspec.sub s hs with rfl | hs
    · simp
    · exact List.mem_append_left _ (h.sub s hs)
  · intro n hn
    rcases List.mem_append.mp hn with hn | hn
    · obtain ⟨s, hs, hns⟩ := h.covers n hn
      rcases hspec.keeps s hs with hs | hse
      · exact ⟨s, hs, hns⟩
      · obtain ⟨t, ht, het⟩ := hspec.covers
        exact ⟨t, ht, under_trans hns (under_trans hse het)⟩
    · rw [List.mem_singleton] at hn
      rw [hn]
      exact hspec.covers

theorem addAll_holds (more : List Bytes) (h : Holds names hdr) :
    ∃ hdr', addAll K more hdr = some hdr' ∧ Holds (names ++ more) hdr' := by
  induction more generalizing names hdr with
  | nil => exact ⟨hdr, rfl, by simpa using h⟩
  | cons e more ih =>
    obtain ⟨hdr1, hadd, h1⟩ := h.add (K := K) (e := e)
    obtain ⟨hdr', hall, h'⟩ := ih h1
    refine ⟨hdr', ?_, by simpa using h'⟩
    rw [addAll, hadd]
    exact hall

/-- A property of the pool that every `mem_add` of a listed name keeps. -/
theorem addAll_preserves {inv : Pool → Prop}
    (hstep : ∀ hdr e hdr', e ∈ names → inv hdr → memAdd K hdr e = some hdr' → inv hdr')
    (h : inv hdr) (hall : addAll K names hdr = some hdr') : inv hdr' := by
  induction names generalizing hdr with
  | nil =>
    cases hall
    exact h
  | cons e names ih =>
    rw [addAll] at hall
    obtain ⟨hdr1, hadd, hall⟩ := Option.bind_eq_some_iff.mp hall
    exact ih (fun hdr e' hdr' he' => hstep hdr e' hdr' (List.mem_cons_of_mem _ he'))
      (hstep hdr e hdr1 List.mem_cons_self h hadd) hall

/-- A domain without a listed one above it is stored. -/
lemma Holds.stored {d : Bytes} (h : Holds names hdr) (hd : Minimal names d) : d ∈ hdr.inorder := by
  obtain ⟨s, hs, hds⟩ := h.covers d hd.1
  rwa [← hd.2 s (h.sub s hs) hds]

/-- Above every listed name stands a minimal one. -/
lemma exists_minimal {n : Bytes} (hn : n ∈ names) : ∃ d, Minimal names d ∧ Under n d := by
  -- induction on the length: a listed domain above is shorter
  induction hlen : n.length using Nat.strong_induction_on generalizing n with
  | _ k ih =>
    by_cases hmin : ∀ m ∈ names, Under n m → m = n
    · exact ⟨n, ⟨hn, hmin⟩, .inl rfl⟩
    · simp only [not_forall] at hmin
      obtain ⟨m, hm, hnm, hne⟩ := hmin
      have hlt : m.length < k := by
        rcases hnm with rfl | ⟨w, rfl⟩
        · exact absurd rfl hne
        · simp only [List.length_append, List.length_cons] at hlen
          omega
      obtain ⟨d, hd, hmd⟩ := ih m.length hlt hm rfl
      exact ⟨d, hd, under_trans hnm hmd⟩

end List

section Clean

variable {K : Balance Bytes} {hdr hdr' : Pool} {e q d : Bytes} {names : List Bytes} {fuel : Nat}

/-- No listed name goes on behind `d` with a dash. -/
def Undashed (names : List Bytes) (d : Bytes) : Prop := ∀ x ∈ names, ¬ (dash :: d) <:+ x

/-- Once the domain is stored, no name below it is. -/
def Clean (d : Bytes) (hdr : Pool) : Prop :=
  d ∈ hdr.inorder → ∀ s ∈ hdr.inorder, Under s d → s = d

lemma undashed_reverse (h : Undashed names d) {x : Bytes} (hx : x ∈ names) (w : Bytes) :
    x.reverse ≠ d.reverse ++ dash :: w := by
  intro heq
  apply h x hx
  refine ⟨w.reverse, ?_⟩
  rw [← List.reverse_inj, heq]
  simp

/-- A search from a query below `d` for the names below `d`, where these are what the
query calls equal. -/
theorem find_block (hs : hdr.inorder.Pairwise Before) (hsub : ∀ s ∈ hdr.inorder, s ∈ names)
    (hchars : ∀ n ∈ names, ∀ c ∈ n, dash ≤ c) (hd : Minimal names d) (hdash : Undashed names d)
    (hq : Under q d) (hin : ∀ x ∈ hdr.inorder, hostCmp q x = .eq ↔ Under x d)
    {b : Bytes} (hb : b ∈ hdr.inorder) (hbd : Under b d) :
    ∃ v, hdr.find (hostCmp q) = some v := by
  have hapart : ∀ x ∈ hdr.inorder, hostCmp q x ≠ .eq →
      (hostCmp q x = .lt ∧ ∀ b, Under b d → Before b x) ∨
        (hostCmp q x = .gt ∧ ∀ b, Under b d → Before x b) := by
    intro x hx hne
    have hxd : ¬ Under x d := fun h => hne ((hin x hx).mpr h)
    have hdx : ¬ Under d x := by
      intro h
      exact hxd (.inl (hd.2 x (hsub x hx) h))
    rw [under_iff] at hxd hdx hq
    have hx' : ∀ c ∈ x.reverse, dash ≤ c := by
      intro c hc
      exact hchars x (hsub x hx) c (List.mem_reverse.mp hc)
    rcases cmpBack_apart hq hxd hdx (undashed_reverse hdash (hsub x hx)) hx' with h | h
    · exact .inl ⟨h.1, fun b hb => h.2 _ (under_iff.mp hb)⟩
    · exact .inr ⟨h.1, fun b hb => h.2 _ (under_iff.mp hb)⟩
  refine find_of_mem before_asymm hs ?_ ?_ hb ((hin b hb).mpr hbd)
  · intro x hx hlt b hb heq
    rcases hapart x hx (by simp [hlt]) with h | h
    · exact h.2 b ((hin b hb).mp heq)
    · rw [hlt] at h
      cases h.1
  · intro x hx hgt b hb heq
    rcases hapart x hx (by simp [hgt]) with h | h
    · rw [hgt] at h
      cases h.1
    · exact h.2 b ((hin b hb).mp heq)

/-- A query below a stored domain finds it. -/
theorem find_stored (hs : hdr.inorder.Pairwise Before) (hsub : ∀ s ∈ hdr.inorder, s ∈ names)
    (hchars : ∀ n ∈ names, ∀ c ∈ n, dash ≤ c) (hd : Minimal names d) (hdash : Undashed names d)
    (hclean : Clean d hdr) (hmem : d ∈ hdr.inorder) (hq : Under q d) :
    hdr.find (hostCmp q) = some d := by
  have hin : ∀ x ∈ hdr.inorder, hostCmp q x = .eq ↔ Under x d := by
    intro x hx
    rw [hostCmp_eq_iff]
    constructor
    · rintro (hqx | hxq)
      · rcases under_linear hqx hq with hxd | hdx
        · exact hxd
        · exact .inl (hd.2 x (hsub x hx) hdx)
      · exact under_trans hxq hq
    · intro hxd
      rw [hclean hmem x hx hxd]
      exact .inl hq
  obtain ⟨v, hv⟩ := find_block hs hsub hchars hd hdash hq hin hmem (.inl rfl)
  obtain ⟨hvmem, heq⟩ := find_some hv
  rw [hv, hclean hmem v hvmem ((hin v hvmem).mp heq)]

/-- A search for `d` itself misses no stored name below it. -/
lemma find_none_below (hs : hdr.inorder.Pairwise Before) (hsub : ∀ s ∈ hdr.inorder, s ∈ names)
    (hchars : ∀ n ∈ names, ∀ c ∈ n, dash ≤ c) (hd : Minimal names d) (hdash : Undashed names d)
    (hfind : hdr.find (hostCmp d) = none) {b : Bytes} (hb : b ∈ hdr.inorder) : ¬ Under b d := by
  intro hbd
  have hin : ∀ x ∈ hdr.inorder, hostCmp d x = .eq ↔ Under x d := by
    intro x hx
    rw [hostCmp_eq_iff]
    constructor
    · rintro (hdx | hxd)
      · exact .inl (hd.2 x (hsub x hx) hdx)
      · exact hxd
    · exact fun h => .inr h
  obtain ⟨v, hv⟩ := find_block hs hsub hchars hd hdash (.inl rfl) hin hb hbd
  rw [hfind] at hv
  cases hv

theorem memAddLoop_clean (hs : hdr.inorder.Pairwise Before)
    (hsub : ∀ s ∈ hdr.inorder, s ∈ names) (hchars : ∀ n ∈ names, ∀ c ∈ n, dash ≤ c)
    (hd : Minimal names d) (hdash : Undashed names d) (he : e ∈ names) (hclean : Clean d hdr)
    (hadd : memAddLoop K e fuel hdr = some hdr') : Clean d hdr' := by
  induction fuel generalizing hdr with
  | zero => cases hadd
  | succ fuel ih =>
    simp only [memAddLoop] at hadd
    cases hfind : hdr.find (hostCmp e) with
    | none =>
      rw [hfind] at hadd
      cases hadd
      intro hmem s hsmem hsd
      rw [K.inorder_fix, mem_insert hfind] at hmem hsmem
      by_cases hed : e = d
      · subst hed
        rcases hsmem with rfl | hsmem
        · rfl
        · exact absurd hsd (find_none_below hs hsub hchars hd hdash hfind hsmem)
      · have hold : d ∈ hdr.inorder := hmem.resolve_left fun h => hed h.symm
        rcases hsmem with rfl | hsmem
        · rw [find_stored hs hsub hchars hd hdash hclean hold hsd] at hfind
          cases hfind
        · exact hclean hold s hsmem hsd
    | some v =>
      rw [hfind] at hadd
      simp only at hadd
      split at hadd
      · rename_i hlen
        have hdel : Deleted hdr (memDelete K hdr v) v := memDelete_longer hs hfind hlen
        exact ih hdel.sorted (fun s h => hsub s (hdel.sub s h))
          (fun hmem s h => hclean (hdel.sub d hmem) s (hdel.sub s h)) hadd
      · cases hadd
        exact hclean

/-- With all names added, the domain is found from everything below it. -/
theorem addAll_finds (hchars : ∀ n ∈ names, ∀ c ∈ n, dash ≤ c) (hd : Minimal names d)
    (hdash : Undashed names d) (hall : addAll K names .leaf = some hdr) (hq : Under q d) :
    hdr.find (hostCmp q) = some d := by
  obtain ⟨hdr1, hall1, hholds⟩ := addAll_holds (K := K) names holds_empty
  obtain rfl : hdr1 = hdr := Option.some.inj (hall1.symm.trans hall)
  rw [List.nil_append] at hholds
  have hstep : ∀ (t : Pool) (e : Bytes) (t' : Pool), e ∈ names →
      (t.inorder.Pairwise Before ∧ (∀ s ∈ t.inorder, s ∈ names) ∧ Clean d t) →
      memAdd K t e = some t' →
      t'.inorder.Pairwise Before ∧ (∀ s ∈ t'.inorder, s ∈ names) ∧ Clean d t' := by
    rintro t e t' he ⟨hs, hsub, hclean⟩ hadd
    obtain ⟨t1, hadd1, hspec⟩ := memAdd_spec (K := K) (e := e) hs
    obtain rfl : t1 = t' := Option.some.inj (hadd1.symm.trans hadd)
    refine ⟨hspec.sorted, ?_, memAddLoop_clean hs hsub hchars hd hdash he hclean hadd⟩
    intro s hmem
    rcases hspec.sub s hmem with rfl | hmem
    · exact he
    · exact hsub s hmem
  have hclean : Clean d hdr1 :=
    (addAll_preserves hstep ⟨by simp, by simp, by intro h; cases h⟩ hall).2.2
  exact find_stored hholds.sorted hholds.sub hchars hd hdash hclean (hholds.stored hd) hq

end Clean

end HostPool
