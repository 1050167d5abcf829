import NoZapret.Inet

/-!
# The text of an address

What is documented of `inet_ntop`, and a plain pair of `inet_pton` and `inet_ntop` that has it: it
writes the parts of an address joined by dots or colons, without the zeros of an IPv6 address left
out.
-/

namespace Inet

open Packets

/-- `inet_ntop` beside `inet_pton`, which reads what it has written as the same address. -/
structure Ntop extends Pton where
  ntop : Family → Bytes → Bytes
  pton_ntop : ∀ {f d}, d.length = f.size → pton f (ntop f d) = some d
  apart : ∀ {d}, d.length = 16 → pton .inet (ntop .inet6 d) = none
  ntop_short : ∀ {f d}, d.length = f.size → (ntop f d).length < 40
  ntop_ne : ∀ {f d}, d.length = f.size → ntop f d ≠ []

def Ntop.text (I : Ntop) (a : Addr) : Bytes := I.ntop a.family a.data

lemma Ntop.addr_text (I : Ntop) (a : Addr) : I.addr (I.text a) = some a := by
  obtain ⟨f, d, hd⟩ := a
  have hread := I.pton_ntop hd
  unfold Pton.addr Ntop.text
  cases f with
  | inet =>
    split
    · next d' h =>
      cases hread.symm.trans h
      rfl
    · next h =>
      cases hread.symm.trans h
  | inet6 =>
    have hnot := I.apart hd
    split
    · next d' h =>
      cases hnot.symm.trans h
    · split
      · next d' h =>
        cases hread.symm.trans h
        rfl
      · next h =>
        cases hread.symm.trans h

section Joined

variable {α : Type} {sep : UInt8} {shown : α → Bytes} {read : Bytes → Option α}

def join (sep : UInt8) (shown : α → Bytes) (xs : List α) : Bytes := [sep].intercalate (xs.map shown)

def split (sep : UInt8) (read : Bytes → Option α) (t : Bytes) : Option (List α) :=
  (t.splitOn sep).mapM read

lemma mapM_shown (hread : ∀ x, read (shown x) = some x) (xs : List α) :
    (xs.map shown).mapM read = some xs := by
  induction xs with
  | nil => rfl
  | cons x xs ih => simp [List.mapM_cons, hread, ih]

lemma map_of_mapM (hread : ∀ t x, read t = some x → shown x = t) {ts : List Bytes} {xs : List α}
    (h : ts.mapM read = some xs) : xs.map shown = ts := by
  induction ts generalizing xs with
  | nil =>
    cases h
    rfl
  | cons t ts ih =>
    simp only [List.mapM_cons, Option.bind_eq_bind, Option.bind_eq_some_iff] at h
    obtain ⟨x, hx, xs', hxs, hcons⟩ := h
    cases hcons
    rw [List.map_cons, hread t x hx, ih hxs]

lemma split_join (hread : ∀ x, read (shown x) = some x) (hsep : ∀ x, sep ∉ shown x)
    {xs : List α} (hne : xs ≠ []) : split sep read (join sep shown xs) = some xs := by
  unfold split join
  rw [List.splitOn_intercalate sep (by simpa using fun x _ => hsep x) (by simpa using hne),
    mapM_shown hread]

lemma join_of_split (hread : ∀ t x, read t = some x → shown x = t) {t : Bytes} {xs : List α}
    (h : split sep read t = some xs) : join sep shown xs = t := by
  unfold join
  rw [map_of_mapM hread h, List.intercalate_splitOn]

lemma join_cons (x y : α) (ys : List α) :
    join sep shown (x :: y :: ys) = shown x ++ sep :: join sep shown (y :: ys) := by
  simp only [join, List.map_cons, List.intercalate_cons_cons, List.append_assoc,
    List.singleton_append]

lemma mem_join {p : UInt8 → Prop} (hshown : ∀ x, ∀ c ∈ shown x, p c) (hsep : p sep) (xs : List α) :
    ∀ c ∈ join sep shown xs, p c := by
  induction xs with
  | nil => simp [join]
  | cons x xs ih =>
    cases xs with
    | nil => simpa [join] using hshown x
    | cons y ys =>
      intro c hc
      rw [join_cons] at hc
      rcases List.mem_append.mp hc with hc | hc
      · exact hshown x c hc
      · rcases List.mem_cons.mp hc with rfl | hc
        · exact hsep
        · exact ih c hc

lemma join_length (sep : UInt8) {n : Nat} (hshown : ∀ x, (shown x).length ≤ n) {xs : List α}
    (hne : xs ≠ []) :
    (join sep shown xs).length < xs.length * (n + 1) := by
  induction xs with
  | nil => exact absurd rfl hne
  | cons x xs ih =>
    have hx := hshown x
    cases xs with
    | nil =>
      simp only [join, List.map_cons, List.map_nil, List.intercalate_singleton, List.length_cons,
        List.length_nil]
      omega
    | cons y ys =>
      have hrest := ih (List.cons_ne_nil y ys)
      rw [join_cons, List.length_append, List.length_cons]
      simp only [List.length_cons, Nat.add_mul, Nat.one_mul] at hrest ⊢
      omega

end Joined

/-- A number up to 255, without leading zeros. -/
def octet (c : UInt8) : Bytes :=
  let n := c.toNat
  let digit (k : Nat) := UInt8.ofNat (48 + k % 10)
  if n < 10 then [digit n]
  else if n < 100 then [digit (n / 10), digit n]
  else [digit (n / 100), digit (n / 10), digit n]

def hexDigit (n : Nat) : UInt8 := if n < 10 then UInt8.ofNat (48 + n) else UInt8.ofNat (87 + n)

/-- Two bytes as four hexadecimal digits. -/
def group (x : UInt8 × UInt8) : Bytes :=
  [hexDigit (x.1.toNat / 16), hexDigit (x.1.toNat % 16), hexDigit (x.2.toNat / 16),
    hexDigit (x.2.toNat % 16)]

def bytesAll : List UInt8 := (List.range 256).map UInt8.ofNat

def readOctet (t : Bytes) : Option UInt8 :=
  let c := UInt8.ofNat (t.foldl (fun n d => n * 10 + (d.toNat - 48)) 0)
  if octet c = t then some c else none

def hexPair (c : UInt8) : Bytes := [hexDigit (c.toNat / 16), hexDigit (c.toNat % 16)]

def hexValue (d : UInt8) : Nat := if d < 58 then d.toNat - 48 else d.toNat - 87

def readPair (t : Bytes) : Option UInt8 :=
  let c := UInt8.ofNat (t.foldl (fun n d => n * 16 + hexValue d) 0)
  if hexPair c = t then some c else none

def readGroup (t : Bytes) : Option (UInt8 × UInt8) := do
  let a ← readPair (t.take 2)
  let b ← readPair (t.drop 2)
  return (a, b)

/-- The bytes two by two. -/
def pairs : Bytes → List (UInt8 × UInt8)
  | a :: b :: rest => (a, b) :: pairs rest
  | _ => []

def unpair (xs : List (UInt8 × UInt8)) : Bytes := xs.flatMap fun x => [x.1, x.2]

section Parts

lemma mem_bytesAll (c : UInt8) : c ∈ bytesAll :=
  List.mem_map.mpr ⟨c.toNat, List.mem_range.mpr c.toNat_lt, UInt8.ofNat_toNat⟩

/-- What holds of every byte can be tried out. -/
lemma forall_byte {p : UInt8 → Bool} (h : bytesAll.all p = true) (c : UInt8) : p c = true :=
  List.all_eq_true.mp h c (mem_bytesAll c)

lemma octet_spec (c : UInt8) : readOctet (octet c) = some c ∧
    (octet c).length ≤ 3 ∧ ∀ d ∈ octet c, isdigit d = true := by
  have h := forall_byte (p := fun c => readOctet (octet c) == some c &&
    (decide ((octet c).length ≤ 3) && (octet c).all isdigit)) (by decide +kernel) c
  simpa using h

lemma hexPair_spec (c : UInt8) : readPair (hexPair c) = some c ∧
    ∀ d ∈ hexPair c, isxdigit d = true := by
  have h := forall_byte (p := fun c => readPair (hexPair c) == some c &&
    (hexPair c).all isxdigit) (by decide +kernel) c
  simpa using h

lemma readOctet_octet (c : UInt8) : readOctet (octet c) = some c := (octet_spec c).1

lemma readPair_hexPair (c : UInt8) : readPair (hexPair c) = some c := (hexPair_spec c).1

lemma octet_of_read {t : Bytes} {c : UInt8} (h : readOctet t = some c) : octet c = t := by
  simp only [readOctet, Option.ite_none_right_eq_some] at h
  obtain ⟨ht, hc⟩ := h
  rw [← Option.some.inj hc, ht]

lemma hexPair_of_read {t : Bytes} {c : UInt8} (h : readPair t = some c) : hexPair c = t := by
  simp only [readPair, Option.ite_none_right_eq_some] at h
  obtain ⟨ht, hc⟩ := h
  rw [← Option.some.inj hc, ht]

lemma readGroup_group (x : UInt8 × UInt8) : readGroup (group x) = some x := by
  have h1 := readPair_hexPair x.1
  have h2 := readPair_hexPair x.2
  simp only [hexPair] at h1 h2
  simp [readGroup, group, h1, h2]

lemma group_of_read {t : Bytes} {x : UInt8 × UInt8} (h : readGroup t = some x) : group x = t := by
  simp only [readGroup, Option.bind_eq_bind, Option.bind_eq_some_iff] at h
  obtain ⟨a, ha, b, hb, hx⟩ := h
  cases hx
  rw [← List.take_append_drop 2 t, ← hexPair_of_read ha, ← hexPair_of_read hb]
  rfl

lemma octet_plain (c : UInt8) : (octet c).length ≤ 3 ∧ ∀ d ∈ octet c, isdigit d = true :=
  (octet_spec c).2

lemma hexPair_plain (c : UInt8) : ∀ d ∈ hexPair c, isxdigit d = true := (hexPair_spec c).2

lemma group_plain (x : UInt8 × UInt8) : ∀ d ∈ group x, isxdigit d = true := by
  intro d hd
  have hsplit : group x = hexPair x.1 ++ hexPair x.2 := rfl
  rw [hsplit] at hd
  rcases List.mem_append.mp hd with hd | hd
  · exact hexPair_plain _ d hd
  · exact hexPair_plain _ d hd

lemma unpair_length (xs : List (UInt8 × UInt8)) : (unpair xs).length = 2 * xs.length := by
  induction xs with
  | nil => rfl
  | cons x xs ih =>
    simp only [unpair, List.flatMap_cons, List.length_append, List.length_cons, List.length_nil]
      at ih ⊢
    omega

lemma unpair_pairs {d : Bytes} {n : Nat} (h : d.length = 2 * n) :
    unpair (pairs d) = d ∧ (pairs d).length = n := by
  induction n generalizing d with
  | zero =>
    cases List.length_eq_zero_iff.mp h
    exact ⟨rfl, rfl⟩
  | succ n ih =>
    match d with
    | [] => simp at h
    | [a] => simp at h; omega
    | a :: b :: rest =>
      obtain ⟨hrest, hlen⟩ := ih (d := rest) (by simp at h; omega)
      refine ⟨?_, by simp [pairs, hlen]⟩
      simp only [pairs, unpair, List.flatMap_cons] at hrest ⊢
      rw [hrest]
      rfl

end Parts

def ntopFull : Family → Bytes → Bytes
  | .inet, d => join (ch '.') octet d
  | .inet6, d => join (ch ':') group (pairs d)

def ptonFull : Family → Bytes → Option Bytes
  | .inet, t => (split (ch '.') readOctet t).filter fun d => d.length == 4
  | .inet6, t => ((split (ch ':') readGroup t).filter fun d => d.length == 8).map unpair

section Full

variable {t d : Bytes} {f : Family}

lemma dot_octet (c : UInt8) : ch '.' ∉ octet c :=
  fun h => absurd ((octet_plain c).2 _ h) (by decide)

lemma colon_group (x : UInt8 × UInt8) : ch ':' ∉ group x :=
  fun h => absurd (group_plain x _ h) (by decide)

/-- What is read is what would be written. -/
lemma ntop_of_ptonFull (h : ptonFull f t = some d) : d.length = f.size ∧ ntopFull f d = t := by
  cases f with
  | inet =>
    obtain ⟨hsplit, hlen⟩ := Option.filter_eq_some_iff.mp h
    have hlen' : d.length = 4 := by simpa using hlen
    exact ⟨hlen', join_of_split (fun _ _ => octet_of_read) hsplit⟩
  | inet6 =>
    obtain ⟨xs, hxs, rfl⟩ := Option.map_eq_some_iff.mp h
    obtain ⟨hsplit, hlen⟩ := Option.filter_eq_some_iff.mp hxs
    have hlen' : xs.length = 8 := by simpa using hlen
    refine ⟨by rw [unpair_length, hlen']; rfl, ?_⟩
    have hpairs : pairs (unpair xs) = xs := by
      clear hsplit hlen hlen' hxs h
      induction xs with
      | nil => rfl
      | cons x xs ih =>
        simp only [unpair, List.flatMap_cons, List.cons_append, List.nil_append, pairs] at ih ⊢
        rw [ih]
    rw [ntopFull, hpairs]
    exact join_of_split (fun _ _ => group_of_read) hsplit

lemma ptonFull_ntop (hd : d.length = f.size) : ptonFull f (ntopFull f d) = some d := by
  cases f with
  | inet =>
    have hne : d ≠ [] := List.ne_nil_of_length_pos (by rw [hd]; decide)
    have hlen : (d.length == 4) = true := beq_iff_eq.mpr hd
    rw [ptonFull, ntopFull, split_join readOctet_octet dot_octet hne, Option.filter_some, if_pos hlen]
  | inet6 =>
    obtain ⟨hunpair, hlen⟩ := unpair_pairs (n := 8) hd
    have hne : pairs d ≠ [] := List.ne_nil_of_length_pos (by omega)
    have hlen' : ((pairs d).length == 8) = true := by simpa using hlen
    rw [ptonFull, ntopFull, split_join readGroup_group colon_group hne, Option.filter_some,
      if_pos hlen', Option.map_some, hunpair]

lemma ntopFull_plain (f : Family) (d : Bytes) :
    ∀ c ∈ ntopFull f d, isxdigit c = true ∨ c = ch ':' ∨ c = ch '.' := by
  cases f with
  | inet =>
    refine mem_join (fun x c hc => ?_) (.inr (.inr rfl)) d
    simp [isxdigit, (octet_plain x).2 c hc]
  | inet6 => exact mem_join (fun x c hc => .inl (group_plain x c hc)) (.inr (.inl rfl)) (pairs d)

lemma ntopFull_short (hd : d.length = f.size) : (ntopFull f d).length < 40 := by
  cases f with
  | inet =>
    have hne : d ≠ [] := List.ne_nil_of_length_pos (by rw [hd]; decide)
    have h := join_length (ch '.') (fun x => (octet_plain x).1) hne
    rw [hd] at h
    exact Nat.lt_trans h (by decide)
  | inet6 =>
    obtain ⟨-, hlen⟩ := unpair_pairs (n := 8) hd
    have hgroup : ∀ x, (group x).length ≤ 4 := fun x => Nat.le_refl 4
    have hne : pairs d ≠ [] := List.ne_nil_of_length_pos (by omega)
    have h := join_length (ch ':') hgroup hne
    rw [hlen] at h
    exact h

lemma ntopFull_colon (hd : d.length = 16) : ch ':' ∈ ntopFull .inet6 d := by
  obtain ⟨-, hlen⟩ := unpair_pairs (n := 8) hd
  obtain ⟨x, y, ys, hpairs⟩ : ∃ x y ys, pairs d = x :: y :: ys := by
    match h : pairs d with
    | [] => simp [h] at hlen
    | [x] => simp [h] at hlen
    | x :: y :: ys => exact ⟨x, y, ys, rfl⟩
  rw [ntopFull, hpairs, join_cons]
  simp

/-- Addresses written in full. -/
def full : Ntop where
  pton := ptonFull
  ntop := ntopFull
  length_eq h := (ntop_of_ptonFull h).1
  short h := by
    obtain ⟨hlen, rfl⟩ := ntop_of_ptonFull h
    exact Nat.lt_trans (ntopFull_short hlen) (by decide)
  plain h := by
    obtain ⟨-, rfl⟩ := ntop_of_ptonFull h
    exact ntopFull_plain _ _
  pton_ntop := ptonFull_ntop
  apart := by
    intro d hd
    cases h : ptonFull .inet (ntopFull .inet6 d) with
    | none => rfl
    | some d' =>
      obtain ⟨-, heq⟩ := ntop_of_ptonFull h
      have hcolon := ntopFull_colon hd
      rw [← heq] at hcolon
      have hplain : ∀ c ∈ ntopFull .inet d', c ≠ ch ':' := by
        refine mem_join (fun x c hc => ?_) (by decide) d'
        rintro rfl
        exact absurd ((octet_plain x).2 _ hc) (by decide)
      exact absurd rfl (hplain _ hcolon)
  ntop_short := ntopFull_short
  ntop_ne := by
    intro f d hd hnil
    have h := ptonFull_ntop hd
    rw [hnil] at h
    have hempty : ptonFull f [] = none := by cases f <;> decide
    rw [hempty] at h
    cases h

end Full

end Inet
