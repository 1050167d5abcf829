import NoZapret.HostPool

/-!
# When a whitelist is exact

`parse_hosts` adds the names of a buffer one by one; `check_host` is exact for every
host and every shape of the tree if and only if no listed name goes on with a dash
behind a listed domain that has no listed one above it.
-/

namespace Whitelist

open Packets SearchTree Hosts HostPool

section Parse

variable {K : Balance Bytes} {c c' : UInt8} {piece d : Bytes} {buffer : Bytes}

def badChar (c : UInt8) : Bool := (lowerChar c).isNone

def lowered (c : UInt8) : UInt8 := (lowerChar c).getD c

lemma mapM_lowerChar (piece : Bytes) :
    piece.mapM lowerChar = if piece.any badChar then none else some (piece.map lowered) := by
  induction piece with
  | nil => rfl
  | cons c piece ih =>
    rw [List.mapM_cons, ih]
    cases hc : lowerChar c with
    | none => simp [badChar, hc]
    | some c' =>
      cases hp : piece.any badChar <;> simp [badChar, lowered, hc, hp]

lemma endName_eq (hdr : Pool) (piece : Bytes) :
    endName K (piece.map lowered) (piece.any badChar) hdr = addAll K (entry piece).toList hdr := by
  simp only [endName, entry, mapM_lowerChar, List.isEmpty_map]
  cases piece.isEmpty <;> cases piece.any badChar <;> simp [addAll]

lemma addAll_append (xs ys : List Bytes) (hdr : Pool) :
    addAll K (xs ++ ys) hdr = (addAll K xs hdr).bind fun hdr => addAll K ys hdr := by
  induction xs generalizing hdr with
  | nil => rfl
  | cons x xs ih =>
    simp only [List.cons_append, addAll]
    cases memAdd K hdr x with
    | none => rfl
    | some hdr => exact ih hdr

lemma filterMap_cons_toList (xs : List Bytes) :
    (piece :: xs).filterMap entry = (entry piece).toList ++ xs.filterMap entry := by
  cases h : entry piece <;> simp [h]

/-- The loop adds the names of the pieces; `piece` is the raw text behind the last
separator. -/
theorem hostsLoop_eq (rest piece : Bytes) (hdr : Pool) :
    hostsLoop K rest (piece.map lowered) (piece.any badChar) hdr =
      addAll K ((pieces rest piece).filterMap entry) hdr := by
  induction rest generalizing piece hdr with
  | nil =>
    rw [hostsLoop, pieces, endName_eq, filterMap_cons_toList]
    simp
  | cons c rest ih =>
    rw [hostsLoop, pieces]
    by_cases hsep : isSep c = true
    · rw [if_pos hsep, if_pos hsep, endName_eq, filterMap_cons_toList, addAll_append]
      congr 1
      funext hdr
      exact ih [] hdr
    · rw [if_neg hsep, if_neg hsep, ← ih]
      cases hc : lowerChar c <;> simp [badChar, lowered, hc]

theorem parseHosts_eq (K : Balance Bytes) (buffer : Bytes) :
    parseHosts K buffer = addAll K (entries buffer) .leaf := hostsLoop_eq buffer [] .leaf

lemma lowerChar_spec (h : lowerChar c = some c') : lowerChar c' = some c' ∧ dash ≤ c' := by
  have hall : ∀ n : Fin 256, (lowerChar (UInt8.ofFin n)).all fun c' =>
      lowerChar c' == some c' && decide (dash ≤ c') := by decide +kernel
  have hc := hall c.toFin
  simpa [h] using hc

lemma entries_spec (hd : d ∈ entries buffer) :
    d ≠ [] ∧ ∀ c ∈ d, lowerChar c = some c ∧ dash ≤ c := by
  obtain ⟨piece, -, hentry⟩ := List.mem_filterMap.mp hd
  simp only [entry, mapM_lowerChar] at hentry
  split at hentry
  · cases hentry
  rename_i hne
  split at hentry
  · cases hentry
  rename_i hgood
  cases hentry
  refine ⟨by simpa using hne, ?_⟩
  intro c hc
  obtain ⟨a, ha, rfl⟩ := List.mem_map.mp hc
  cases hlow : lowerChar a with
  | none => exact absurd (List.any_eq_true.mpr ⟨a, ha, by simp [badChar, hlow]⟩) hgood
  | some a' =>
    simp only [lowered, hlow, Option.getD_some]
    exact lowerChar_spec hlow

lemma pieces_name (name piece rest : Bytes) (hname : ∀ c ∈ name, isSep c = false) :
    pieces (name ++ ch '\n' :: rest) piece = (piece ++ name) :: pieces rest [] := by
  have hsep : isSep (ch '\n') = true := by decide
  induction name generalizing piece with
  | nil => simp [pieces, hsep]
  | cons c name ih =>
    rw [List.cons_append, pieces, hname c List.mem_cons_self, if_neg (by simp),
      ih _ fun c hc => hname c (List.mem_cons_of_mem _ hc)]
    simp

/-- A file with one valid name on each line lists these names. -/
theorem entries_lines (names : List Bytes)
    (h : ∀ n ∈ names, n ≠ [] ∧ ∀ c ∈ n, lowerChar c = some c) :
    entries (names.flatMap fun n => n ++ [ch '\n']) = names := by
  induction names with
  | nil => rfl
  | cons n names ih =>
    obtain ⟨hne, hlow⟩ := h n List.mem_cons_self
    have hsep : ∀ c ∈ n, isSep c = false := by
      intro c hc
      cases hc' : isSep c with
      | false => rfl
      | true =>
        simp only [isSep, Bool.or_eq_true, beq_iff_eq] at hc'
        have hlowc := hlow c hc
        rcases hc' with (rfl | rfl) | rfl <;> cases hlowc
    have hentry : entry n = some n := by
      have hgood : n.any badChar = false := by
        rw [List.any_eq_false]
        intro c hc
        simp [badChar, hlow c hc]
      have hid : n.map lowered = n.map id := by
        apply List.map_congr_left
        intro c hc
        simp [lowered, hlow c hc]
      rw [List.map_id] at hid
      simp [entry, mapM_lowerChar, hgood, hid, hne]
    have ih := ih fun n hn => h n (List.mem_cons_of_mem _ hn)
    rw [entries, List.flatMap_cons, List.append_assoc, List.singleton_append,
      pieces_name _ _ _ hsep, List.nil_append, List.filterMap_cons, hentry]
    exact congrArg _ ih

end Parse

section Exact

variable {K : Balance Bytes} {hdr : Pool} {h d x : Bytes} {names : List Bytes}

/-- What `check_host` finds is listed; this needs no condition. -/
lemma hostListed_sound (hsub : ∀ s ∈ hdr.inorder, s ∈ names) (h : hostListed hdr d = true) :
    ∃ n ∈ names, Under d n := by
  simp only [hostListed, Bool.and_eq_true, Option.any_eq_true, decide_eq_true_eq] at h
  obtain ⟨-, v, hv, hlen⟩ := h
  obtain ⟨hmem, heq⟩ := find_some hv
  exact ⟨v, hsub v hmem, under_of_not_longer heq (by omega)⟩

lemma hostListed_found (hne : h ≠ []) (hfind : hdr.find (hostCmp h) = some d) (hd : Under h d) :
    hostListed hdr h = true := by
  simp only [hostListed, memGet, hfind, Option.any_some, Bool.and_eq_true, decide_eq_true_eq]
  exact ⟨by simpa using hne, under_length hd⟩

/-- Every host below a domain without a listed one above it and without a dash behind
it is found, in whatever shape the tree is. -/
theorem hostListed_exact (hchars : ∀ n ∈ names, ∀ c ∈ n, dash ≤ c) (hd : Minimal names d)
    (hdash : Undashed names d) (hall : addAll K names .leaf = some hdr) (hne : h ≠ [])
    (hq : Under h d) : hostListed hdr h = true :=
  hostListed_found hne (addAll_finds hchars hd hdash hall hq) hq

/-- A listed name with a dash behind `d` has a minimal one with a dash behind `d` above
it. -/
lemma exists_minimal_dashed (hd : Minimal names d) (hx : x ∈ names) (hdash : (dash :: d) <:+ x) :
    ∃ y, Minimal names y ∧ (dash :: d) <:+ y := by
  obtain ⟨y, hy, hxy⟩ := exists_minimal hx
  refine ⟨y, hy, ?_⟩
  rcases hxy with rfl | ⟨w, rfl⟩
  · exact hdash
  -- both `-d` and `.y` end `x`, so one ends the other
  have hsuff : (dot :: y) <:+ w ++ dot :: y := ⟨w, rfl⟩
  rcases List.suffix_or_suffix_of_suffix hdash hsuff with ⟨u, hu⟩ | ⟨u, hu⟩
  · cases u with
    | nil =>
      have hdd : dash = dot := (List.cons.inj hu).1
      exact absurd hdd (by decide)
    | cons a u =>
      rw [List.cons_append, List.cons.injEq] at hu
      exact ⟨u, hu.2⟩
  · cases u with
    | nil =>
      have hdd : dot = dash := (List.cons.inj hu).1
      exact absurd hdd (by decide)
    | cons a u =>
      rw [List.cons_append, List.cons.injEq] at hu
      have hdy : Under d y := .inr ⟨u, hu.2.symm⟩
      have hyd := congrArg List.length (hd.2 y hy.1 hdy)
      have hlen := congrArg List.length hu.2
      simp only [List.length_append, List.length_cons] at hlen
      omega

/-- The pool keeps `y` at its root from the time it is stored. -/
def Rooted (y : Bytes) (hdr : Pool) : Prop := y ∈ hdr.inorder → ∃ l r, hdr = .node l y r

lemma rooted_fix (y : Bytes) (t : Pool) : Rooted y ((Balance.rootAt y).fix t) := by
  intro hy
  rw [(Balance.rootAt y).inorder_fix] at hy
  exact rootAt_node hy

lemma memAddLoop_rooted {y e : Bytes} {fuel : Nat} {hdr hdr' : Pool} (h : Rooted y hdr)
    (hadd : memAddLoop (Balance.rootAt y) e fuel hdr = some hdr') : Rooted y hdr' := by
  induction fuel generalizing hdr with
  | zero => cases hadd
  | succ fuel ih =>
    simp only [memAddLoop] at hadd
    split at hadd
    · cases hadd
      exact rooted_fix y _
    · rename_i v _
      split at hadd
      · refine ih ?_ hadd
        simp only [memDelete]
        split
        · exact h
        · exact rooted_fix y _
      · cases hadd
        exact h

/-- A host below `d` that no other listed name is above or below. -/
def strayHost (names : List Bytes) (d : Bytes) : Bytes :=
  List.replicate (names.flatten.length + 1) (ch 'a') ++ dot :: d

lemma strayHost_long {n : Bytes} (hn : n ∈ names) : n.length < (strayHost names d).length := by
  have hle : n.length ≤ names.flatten.length := (List.sublist_flatten_of_mem hn).length_le
  simp only [strayHost, List.length_append, List.length_replicate, List.length_cons]
  omega

lemma strayHost_above (hd : Minimal names d) {n : Bytes} (hn : n ∈ names)
    (h : Under (strayHost names d) n) : n = d := by
  rcases h with h | ⟨w, hw⟩
  · have := strayHost_long (d := d) hn
    rw [h] at this
    omega
  have h1 : (dot :: d) <:+ w ++ dot :: n := ⟨_, hw⟩
  have h2 : (dot :: n) <:+ w ++ dot :: n := ⟨w, rfl⟩
  rcases List.suffix_or_suffix_of_suffix h1 h2 with ⟨u, hu⟩ | ⟨u, hu⟩
  · cases u with
    | nil => exact (List.cons.inj hu).2.symm
    | cons a u =>
      -- the name would reach into the letters, which have no dot
      rw [← hu] at hw
      have hw' : List.replicate (names.flatten.length + 1) (ch 'a') = w ++ a :: u := by
        have happ : List.replicate (names.flatten.length + 1) (ch 'a') ++ dot :: d =
            (w ++ a :: u) ++ dot :: d := by
          rw [strayHost] at hw
          rw [hw, List.append_assoc]
        exact List.append_cancel_right happ
      have ha : a = ch 'a' := by
        have hmem : a ∈ List.replicate (names.flatten.length + 1) (ch 'a') := by
          rw [hw']
          simp
        exact List.eq_of_mem_replicate hmem
      have hdot : a = dot := by
        rw [List.cons_append, List.cons.injEq] at hu
        exact hu.1
      exact absurd (ha.symm.trans hdot) (by decide)
  · cases u with
    | nil => exact (List.cons.inj hu).2
    | cons a u =>
      rw [List.cons_append, List.cons.injEq] at hu
      exact hd.2 n hn (.inr ⟨u, hu.2.symm⟩)

lemma hostCmp_dashed {w u : Bytes} : hostCmp (w ++ dot :: d) (u ++ dash :: d) = .gt := by
  have hgen : ∀ (r a b : Bytes), cmpBack (r ++ dot :: a) (r ++ dash :: b) = .gt := by
    intro r a b
    induction r with
    | nil => rfl
    | cons c r ih => simpa [cmpBack] using ih
  have hw : (w ++ dot :: d).reverse = d.reverse ++ dot :: w.reverse := by simp
  have hu : (u ++ dash :: d).reverse = d.reverse ++ dash :: u.reverse := by simp
  rw [hostCmp, hw, hu, hgen]

lemma before_dashed {u : Bytes} : Before d (u ++ dash :: d) := by
  have hgen : ∀ (r b : Bytes), r < r ++ dash :: b := by
    intro r b
    induction r with
    | nil => simp
    | cons c r ih => exact List.cons_lt_cons_iff.mpr (.inr ⟨rfl, ih⟩)
  have hu : (u ++ dash :: d).reverse = d.reverse ++ dash :: u.reverse := by simp
  rw [Before, hu]
  exact hgen _ _

/-- With a dashed name at its root the tree loses the stray host. -/
theorem strayHost_lost (hd : Minimal names d) {u : Bytes} (hholds : Holds names hdr)
    {l r : Pool} (hroot : hdr = .node l (u ++ dash :: d) r) :
    hdr.find (hostCmp (strayHost names d)) = none := by
  have hs := hholds.sorted
  have hsub := hholds.sub
  rw [hroot] at hs hsub ⊢
  simp only [BinTree.find, strayHost, hostCmp_dashed]
  cases hfind : r.find (hostCmp (strayHost names d)) with
  | none => exact hfind
  | some v =>
    exfalso
    obtain ⟨hv, heq⟩ := find_some hfind
    have hvn : v ∈ names := hsub v (by simp [hv])
    rcases (hostCmp_eq_iff _ _).mp heq with habove | hbelow
    · have hvd : v = d := strayHost_above hd hvn habove
      subst hvd
      exact before_asymm _ _ before_dashed ((sorted_node hs).2.2.2 v hv)
    · have hlen := under_length hbelow
      have := strayHost_long (d := d) hvn
      omega

end Exact

/-- `check_host` answers what the list says, for every host and whatever the balance
of the tree does, if and only if no listed name goes on behind a minimal domain with
a dash. -/
theorem whitelist_exact_iff (buffer : Bytes) :
    (∀ (K : Balance Bytes) (hello : Groups.Hello) (h : Bytes), hello.host = some h →
        (∀ c ∈ h, lowerChar c = some c) →
        ∃ hosts, parseHosts K buffer = some hosts ∧
          (Groups.checkHost (hostListed hosts) hello = true ↔ ∃ d ∈ entries buffer, Under h d)) ↔
      ∀ d, Minimal (entries buffer) d → ∀ x ∈ entries buffer, ¬ (dash :: d) <:+ x := by
  have hchars : ∀ n ∈ entries buffer, ∀ c ∈ n, dash ≤ c := fun n hn c hc =>
    ((entries_spec hn).2 c hc).2
  constructor
  · intro hexact d hd x hx hdash
    obtain ⟨y, hy, u, hu⟩ := exists_minimal_dashed hd hx hdash
    have hlower : ∀ c ∈ strayHost (entries buffer) d, lowerChar c = some c := by
      intro c hc
      simp only [strayHost, List.mem_append, List.mem_cons] at hc
      rcases hc with hc | rfl | hc
      · rw [List.eq_of_mem_replicate hc]
        decide
      · decide
      · exact ((entries_spec hd.1).2 c hc).1
    obtain ⟨hosts, hparse, hiff⟩ := hexact (Balance.rootAt y)
      ⟨false, false, some (strayHost (entries buffer) d)⟩ _ rfl hlower
    rw [parseHosts_eq] at hparse
    obtain ⟨hosts', hall, hholds⟩ := addAll_holds (K := Balance.rootAt y) (entries buffer) holds_empty
    obtain rfl : hosts' = hosts := Option.some.inj (hall.symm.trans hparse)
    rw [List.nil_append] at hholds
    have hrooted : Rooted y hosts' :=
      addAll_preserves (fun _ _ _ _ h hadd => memAddLoop_rooted h hadd)
        (by intro h; cases h) hall
    obtain ⟨l, r, hroot⟩ := hrooted (hholds.stored hy)
    rw [← hu] at hroot
    have hlost := strayHost_lost hd hholds hroot
    have hlisted : Groups.checkHost (hostListed hosts')
        ⟨false, false, some (strayHost (entries buffer) d)⟩ = true :=
      hiff.mpr ⟨d, hd.1, .inr ⟨_, rfl⟩⟩
    simp [Groups.checkHost, hostListed, memGet, hlost] at hlisted
  · intro hcond K hello h hhost _
    obtain ⟨hosts, hall, hholds⟩ := addAll_holds (K := K) (entries buffer) holds_empty
    rw [List.nil_append] at hholds
    refine ⟨hosts, by rw [parseHosts_eq]; exact hall, ?_⟩
    rw [Groups.checkHost, hhost, Option.any_some]
    constructor
    · exact hostListed_sound hholds.sub
    · rintro ⟨n, hn, hhn⟩
      obtain ⟨d, hd, hnd⟩ := exists_minimal hn
      have hhd : Under h d := under_trans hhn hnd
      have hne : h ≠ [] := by
        intro hnil
        have hlen := under_length hhd
        rw [hnil, List.length_nil] at hlen
        exact (entries_spec hd.1).1 (List.length_eq_zero_iff.mp (by omega))
      exact hostListed_exact hchars hd (hcond d hd) hall hne hhd

/-- The dash turns the search for `www.example.com` away from `example.com`. -/
theorem dashed_name_hides_subdomain :
    ∃ hosts, parseHosts ⟨id, fun _ => rfl⟩ (ascii "my-example.com\nexample.com".toList)
        = some hosts ∧
      Groups.checkHost (hostListed hosts) ⟨false, true, some (ascii "www.example.com".toList)⟩
        = false ∧
      ascii "example.com".toList ∈ entries (ascii "my-example.com\nexample.com".toList) ∧
      Under (ascii "www.example.com".toList) (ascii "example.com".toList) := by
  refine ⟨_, rfl, by decide, by decide, .inr ⟨ascii "www".toList, ?_⟩⟩
  decide

end Whitelist
