import NoZapret.Groups
import NoZapret.Library.SearchTree

/-!
# Host whitelists

The `CMP_HOST` pools of `mpool.c`: `host_cmp`, `mem_get`, `mem_add`, `mem_delete`,
and the `parse_hosts` and `check_host` that use them. `host_cmp` calls a domain and
its subdomains equal. Of `kavl.h` only this is used: it descends by the sign of the
comparator, and its rotations keep the names in order.
-/

namespace Hosts

open Packets SearchTree

def dot : UInt8 := ch '.'
def dash : UInt8 := ch '-'

/-- The loop of `host_cmp`, from the ends of the two names. -/
def cmpBack : Bytes → Bytes → Ordering
  | [], [] => .eq
  | [], c :: _ => if c = dot then .eq else .lt
  | c :: _, [] => if c = dot then .eq else .gt
  | a :: p, b :: q => if a = b then cmpBack p q else if a < b then .lt else .gt

def hostCmp (p q : Bytes) : Ordering := cmpBack p.reverse q.reverse

abbrev Pool := BinTree Bytes

def memGet (hdr : Pool) (str : Bytes) : Option Bytes := hdr.find (hostCmp str)

def memDelete (K : Balance Bytes) (hdr : Pool) (str : Bytes) : Pool :=
  match hdr.find (hostCmp str) with
  | none => hdr
  | some _ => K.fix (hdr.erase (hostCmp str))

/-- `kavl_insert` and the loop of `mem_add`; every round that goes on takes a name
out. -/
def memAddLoop (K : Balance Bytes) (e : Bytes) : Nat → Pool → Option Pool
  | 0, _ => none
  | fuel + 1, hdr =>
    match hdr.find (hostCmp e) with
    | none => some (K.fix (hdr.insert (hostCmp e) e))
    | some v =>
      if e.length < v.length then memAddLoop K e fuel (memDelete K hdr v) else some hdr

def memAdd (K : Balance Bytes) (hdr : Pool) (e : Bytes) : Option Pool :=
  memAddLoop K e (hdr.inorder.length + 1) hdr

def lowerChar (c : UInt8) : Option UInt8 :=
  if c < ch 'A' then
    if ch '9' < c || c < ch '-' then none else some c
  else if c < ch 'a' then
    if ch 'Z' < c then none else some (c + 32)
  else if ch 'z' < c then none
  else some c

def isSep (c : UInt8) : Bool := c == ch ' ' || c == ch '\n' || c == ch '\r'

/-- One name of `parse_hosts` ends; nothing is added for an empty or a dropped one. -/
def endName (K : Balance Bytes) (name : Bytes) (drop : Bool) (hdr : Pool) : Option Pool :=
  if name.isEmpty || drop then some hdr else memAdd K hdr name

/-- The loop of `parse_hosts`; `name` is what stands between `s` and `e`. -/
def hostsLoop (K : Balance Bytes) : Bytes → Bytes → Bool → Pool → Option Pool
  | [], name, drop, hdr => endName K name drop hdr
  | c :: rest, name, drop, hdr =>
    if isSep c then (endName K name drop hdr).bind fun hdr => hostsLoop K rest [] false hdr
    else
      match lowerChar c with
      | none => hostsLoop K rest (name ++ [c]) true hdr
      | some c' => hostsLoop K rest (name ++ [c']) drop hdr

def parseHosts (K : Balance Bytes) (buffer : Bytes) : Option Pool :=
  hostsLoop K buffer [] false .leaf

/-- The end of `check_host`. -/
def hostListed (hosts : Pool) (host : Bytes) : Bool :=
  !host.isEmpty && (memGet hosts host).any fun v => v.length ≤ host.length

/-- The pieces of a buffer between its separators. -/
def pieces : Bytes → Bytes → List Bytes
  | [], name => [name]
  | c :: rest, name => if isSep c then name :: pieces rest [] else pieces rest (name ++ [c])

/-- A piece as a name in lower case; none when it is empty or has another character. -/
def entry (piece : Bytes) : Option Bytes :=
  if piece.isEmpty then none else piece.mapM lowerChar

/-- The names that a buffer lists. -/
def entries (buffer : Bytes) : List Bytes := (pieces buffer []).filterMap entry

/-- The host is the domain, or one below it. -/
def Under (h d : Bytes) : Prop := h = d ∨ ∃ w, h = w ++ dot :: d

/-- No name of the list is a domain above `d`. -/
def Minimal (names : List Bytes) (d : Bytes) : Prop :=
  d ∈ names ∧ ∀ n ∈ names, Under d n → n = d

/-- `Under`, read from the end. -/
def Below (h d : Bytes) : Prop := h = d ∨ ∃ w, h = d ++ dot :: w

/-- The order of the pool. -/
def Before (p q : Bytes) : Prop := p.reverse < q.reverse

section Compare

variable {p q d x b h n v e : Bytes} {a c : UInt8}

lemma below_self : Below d d := .inl rfl

@[simp] lemma below_nil_cons : Below [] (c :: q) ↔ False := by
  simp [Below]

@[simp] lemma below_cons_nil : Below (c :: q) [] ↔ c = dot := by
  simp [Below]

@[simp] lemma below_cons_cons : Below (a :: p) (c :: q) ↔ a = c ∧ Below p q := by
  simp only [Below, List.cons.injEq, List.cons_append]
  constructor
  · rintro (⟨rfl, rfl⟩ | ⟨w, rfl, rfl⟩)
    · exact ⟨rfl, .inl rfl⟩
    · exact ⟨rfl, .inr ⟨w, rfl⟩⟩
  · rintro ⟨rfl, rfl | ⟨w, rfl⟩⟩
    · exact .inl ⟨rfl, rfl⟩
    · exact .inr ⟨w, rfl, rfl⟩

lemma below_cons (h : Below b (a :: d)) : ∃ b', b = a :: b' ∧ Below b' d := by
  cases b with
  | nil => simp at h
  | cons c b =>
    obtain ⟨rfl, hbd⟩ := below_cons_cons.mp h
    exact ⟨b, rfl, hbd⟩

lemma under_iff : Under h d ↔ Below h.reverse d.reverse := by
  simp only [Under, Below, List.reverse_inj]
  constructor
  · rintro (rfl | ⟨w, rfl⟩)
    · exact .inl rfl
    · exact .inr ⟨w.reverse, by simp⟩
  · rintro (rfl | ⟨w, hw⟩)
    · exact .inl rfl
    · refine .inr ⟨w.reverse, ?_⟩
      rw [← List.reverse_inj, hw]
      simp

lemma below_trans (h1 : Below v e) (h2 : Below e d) : Below v d := by
  rcases h1 with rfl | ⟨w, rfl⟩
  · exact h2
  · rcases h2 with rfl | ⟨w', rfl⟩
    · exact .inr ⟨w, rfl⟩
    · exact .inr ⟨w' ++ dot :: w, by simp⟩

/-- Two domains above one name are above one another. -/
lemma below_linear (h1 : Below v e) (h2 : Below v d) : Below e d ∨ Below d e := by
  induction v generalizing e d with
  | nil =>
    cases e with
    | nil =>
      cases d with
      | nil => exact .inl below_self
      | cons c d => simp at h2
    | cons c e => simp at h1
  | cons a v ih =>
    cases e with
    | nil =>
      cases d with
      | nil => exact .inl below_self
      | cons c d =>
        simp only [below_cons_nil, below_cons_cons] at h1 h2 ⊢
        exact .inr (h2.1.symm.trans h1)
    | cons b e =>
      cases d with
      | nil =>
        simp only [below_cons_nil, below_cons_cons] at h1 h2 ⊢
        exact .inl (h1.1.symm.trans h2)
      | cons c d =>
        simp only [below_cons_cons] at h1 h2 ⊢
        have hbc : b = c := h1.1.symm.trans h2.1
        rcases ih h1.2 h2.2 with hed | hde
        · exact .inl ⟨hbc, hed⟩
        · exact .inr ⟨hbc.symm, hde⟩

lemma below_length (h : Below v d) : d.length ≤ v.length := by
  rcases h with rfl | ⟨w, rfl⟩
  · exact le_rfl
  · simp

theorem cmpBack_eq_iff (p q : Bytes) : cmpBack p q = .eq ↔ Below p q ∨ Below q p := by
  induction p generalizing q with
  | nil =>
    cases q with
    | nil => simp [cmpBack, Below]
    | cons c q => simp [cmpBack]
  | cons a p ih =>
    cases q with
    | nil => simp [cmpBack]
    | cons b q =>
      simp only [cmpBack, below_cons_cons]
      by_cases hab : a = b
      · subst hab
        simp [ih]
      · have hba : b ≠ a := fun h => hab h.symm
        simp only [hab, hba, if_false, false_and, or_self, iff_false]
        split <;> simp

lemma lt_of_not_lt (hne : a ≠ c) (h : ¬ a < c) : c < a := by
  rw [UInt8.lt_iff_toNat_lt] at h ⊢
  have : a.toNat ≠ c.toNat := fun heq => hne (UInt8.toNat_inj.mp heq)
  omega

theorem cmpBack_lt (p q : Bytes) : cmpBack p q = .lt → p < q := by
  induction p generalizing q with
  | nil =>
    cases q with
    | nil => simp [cmpBack]
    | cons c q => simp
  | cons a p ih =>
    cases q with
    | nil =>
      simp only [cmpBack]
      split <;> simp
    | cons b q =>
      simp only [cmpBack, List.cons_lt_cons_iff]
      split
      · rename_i hab
        exact fun h => .inr ⟨hab, ih q h⟩
      · split
        · rename_i hlt
          exact fun _ => .inl hlt
        · simp

theorem cmpBack_gt (p q : Bytes) : cmpBack p q = .gt → q < p := by
  induction p generalizing q with
  | nil =>
    cases q with
    | nil => simp [cmpBack]
    | cons c q =>
      simp only [cmpBack]
      split <;> simp
  | cons a p ih =>
    cases q with
    | nil => simp
    | cons b q =>
      simp only [cmpBack, List.cons_lt_cons_iff]
      split
      · rename_i hab
        exact fun h => .inr ⟨hab.symm, ih q h⟩
      · rename_i hne
        split
        · simp
        · rename_i hlt
          exact fun _ => .inl (lt_of_not_lt hne hlt)

/-- A name that stands apart from the domain `d` and does not go on behind it with a
dash is on one side of all of `d`, and a query below `d` is turned to that side. -/
theorem cmpBack_apart (hq : Below q d) (hxd : ¬ Below x d) (hdx : ¬ Below d x)
    (hdash : ∀ w, x ≠ d ++ dash :: w) (hx : ∀ c ∈ x, dash ≤ c) :
    (cmpBack q x = .lt ∧ ∀ b, Below b d → b < x) ∨
      (cmpBack q x = .gt ∧ ∀ b, Below b d → x < b) := by
  induction d generalizing q x with
  | nil =>
    cases x with
    | nil => exact absurd below_self hxd
    | cons c x =>
      -- behind the whole domain comes a character above the dot
      have hne : c ≠ dot := by simpa using hxd
      have hcd : c ≠ dash := fun hc => hdash x (by simp [hc])
      have hge := hx c List.mem_cons_self
      have hgt : dot < c := by
        rw [UInt8.le_iff_toNat_le] at hge
        rw [UInt8.lt_iff_toNat_lt]
        have h1 : c.toNat ≠ dot.toNat := fun h => hne (UInt8.toNat_inj.mp h)
        have h2 : c.toNat ≠ dash.toNat := fun h => hcd (UInt8.toNat_inj.mp h)
        have h3 : dash.toNat + 1 = dot.toNat := by decide
        omega
      left
      constructor
      · rcases hq with rfl | ⟨w, rfl⟩
        · simp [cmpBack, hne]
        · have hne' : dot ≠ c := fun h => hne h.symm
          simp [cmpBack, hne', hgt]
      · rintro b (rfl | ⟨w, rfl⟩)
        · simp
        · exact List.cons_lt_cons_iff.mpr (.inl hgt)
  | cons a d ih =>
    obtain ⟨q, rfl, hqd⟩ := below_cons hq
    cases x with
    | nil =>
      have hne : a ≠ dot := by simpa using hdx
      refine .inr ⟨by simp [cmpBack, hne], ?_⟩
      intro b hb
      obtain ⟨b, rfl, -⟩ := below_cons hb
      simp
    | cons c x =>
      by_cases hac : a = c
      · subst hac
        have hside := ih hqd (by simpa using hxd) (by simpa using hdx)
          (fun w hw => hdash w (by simp [hw])) (fun c hc => hx c (List.mem_cons_of_mem _ hc))
        simp only [cmpBack, if_true]
        rcases hside with ⟨hturn, hside⟩ | ⟨hturn, hside⟩
        · refine .inl ⟨hturn, ?_⟩
          intro b hb
          obtain ⟨b, rfl, hbd⟩ := below_cons hb
          exact List.cons_lt_cons_iff.mpr (.inr ⟨rfl, hside b hbd⟩)
        · refine .inr ⟨hturn, ?_⟩
          intro b hb
          obtain ⟨b, rfl, hbd⟩ := below_cons hb
          exact List.cons_lt_cons_iff.mpr (.inr ⟨rfl, hside b hbd⟩)
      · by_cases hlt : a < c
        · refine .inl ⟨by simp [cmpBack, hac, hlt], ?_⟩
          intro b hb
          obtain ⟨b, rfl, -⟩ := below_cons hb
          exact List.cons_lt_cons_iff.mpr (.inl hlt)
        · refine .inr ⟨by simp [cmpBack, hac, hlt], ?_⟩
          intro b hb
          obtain ⟨b, rfl, -⟩ := below_cons hb
          exact List.cons_lt_cons_iff.mpr (.inl (lt_of_not_lt hac hlt))

end Compare

end Hosts
