import NoZapret.KotlinText
import NoZapret.Library.Fields

/-!
# Validation of an IP address

`validateIpAddress` against the text forms of RFC 4291.
-/

namespace IpValidation

open Fields KotlinText

/-- `^([0-9]{1,3}\.){3}[0-9]{1,3}$` -/
def ipv4Regex (t : Text) : Bool :=
  let parts := t.splitOn '.'
  parts.length == 4 && parts.all fun p => 1 ≤ p.length && p.length ≤ 3 && p.all isDigit

/-- `^([0-9a-fA-F]{0,4}:){2,7}[0-9a-fA-F]{0,4}$` -/
def ipv6Regex (t : Text) : Bool :=
  let fields := t.splitOn ':'
  3 ≤ fields.length && fields.length ≤ 8 && fields.all fun f => f.length ≤ 4 && f.all isHex

/-- `it.toIntOrNull() in 0..255` -/
def inByte (p : Text) : Bool :=
  match toIntOrNull p with
  | some v => 0 ≤ v && v ≤ 255
  | none => false

def validateIpAddress (ip : Text) : Except String Text :=
  let trimmed := trim ip
  if trimmed = [] then .ok []
  else if ipv4Regex trimmed then
    if (trimmed.splitOn '.').all inByte then .ok trimmed
    else .error "Invalid IPv4/IPv6 address format"
  else if ipv6Regex trimmed || trimmed == [':', ':', '1'] then .ok trimmed
  else .error "Invalid IPv4/IPv6 address format"

def isSuccess (r : Except String Text) : Bool := r.isOk

/-- A decimal part from 0 to 255. -/
def Part (p : Text) : Prop :=
  1 ≤ p.length ∧ p.length ≤ 3 ∧ (∀ c ∈ p, isDigit c = true) ∧ decimal p ≤ 255

def DottedQuad (t : Text) : Prop :=
  ∃ ps : List Text, ps.length = 4 ∧ (∀ p ∈ ps, Part p) ∧ t = ['.'].intercalate ps

/-- Sixteen bits in hexadecimal. -/
def Group (g : Text) : Prop := g ≠ [] ∧ g.length ≤ 4 ∧ ∀ c ∈ g, isHex c = true

def join (gs : List Text) : Text := [':'].intercalate gs

def gapText (l r : List Text) : Text := join l ++ ':' :: ':' :: join r

/-- Eight groups, or fewer and one `::`. -/
inductive HexForm : Text → Prop
  | full {gs : List Text} (hgs : ∀ g ∈ gs, Group g) (h : gs.length = 8) : HexForm (join gs)
  | gap {l r : List Text} (hl : ∀ g ∈ l, Group g) (hr : ∀ g ∈ r, Group g)
      (h : l.length + r.length ≤ 7) : HexForm (gapText l r)

/-- The same with a dotted quad for the last two groups. -/
inductive QuadForm : Text → Prop
  | full {gs : List Text} {q : Text} (hgs : ∀ g ∈ gs, Group g) (hq : DottedQuad q)
      (h : gs.length = 6) : QuadForm (join (gs ++ [q]))
  | gap {l r : List Text} {q : Text} (hl : ∀ g ∈ l, Group g) (hr : ∀ g ∈ r, Group g)
      (hq : DottedQuad q) (h : l.length + r.length ≤ 5) : QuadForm (gapText l (r ++ [q]))

/-- Nothing, or an address in one of its text forms. -/
def Valid (t : Text) : Prop := t = [] ∨ DottedQuad t ∨ HexForm t ∨ QuadForm t

/-- No group is one empty field. -/
def pad (gs : List Text) : List Text := if gs = [] then [[]] else gs

/-- The fields around one `::`, whatever stands in them. -/
def OneGap (fields : List Text) : Prop :=
  ∃ l r : List Text, fields = pad l ++ [] :: pad r ∧ (∀ g ∈ l, g ≠ []) ∧ ∀ g ∈ r, g ≠ []

/-- Short runs of hexadecimal digits between colons, but neither eight groups nor one `::`. -/
def Loose (t : Text) : Prop :=
  ipv6Regex t = true ∧ ¬ ((t.splitOn ':').length = 8 ∧ ∀ f ∈ t.splitOn ':', f ≠ []) ∧
    ¬ OneGap (t.splitOn ':')

/-- Seven groups and a `::` before or behind them. -/
def NineFields (t : Text) : Prop :=
  ∃ gs : List Text, gs.length = 7 ∧ (∀ g ∈ gs, Group g) ∧ (t = gapText [] gs ∨ t = gapText gs [])

section Regexes

variable {t : Text}

lemma dot_not_digit {p : Text} (h : ∀ c ∈ p, isDigit c = true) : '.' ∉ p := by
  intro hmem
  exact absurd (h '.' hmem) (by decide)

lemma colon_not_hex {g : Text} (h : ∀ c ∈ g, isHex c = true) : ':' ∉ g := by
  intro hmem
  exact absurd (h ':' hmem) (by decide)

lemma dot_not_hex {g : Text} (h : ∀ c ∈ g, isHex c = true) : '.' ∉ g := by
  intro hmem
  exact absurd (h '.' hmem) (by decide)

/-- The first expression as it is written. -/
lemma ipv4Regex_iff : ipv4Regex t = true ↔
    Matches '.' (fun p => (1 ≤ p.length ∧ p.length ≤ 3) ∧ ∀ c ∈ p, isDigit c = true) 3 3 t := by
  rw [matches_iff fun p hp => dot_not_digit hp.2]
  unfold ipv4Regex
  simp only [Bool.and_eq_true, beq_iff_eq, List.all_eq_true, decide_eq_true_iff]
  constructor
  · rintro ⟨hlen, hall⟩
    exact ⟨by omega, by omega, hall⟩
  · rintro ⟨hlo, hhi, hall⟩
    exact ⟨by omega, hall⟩

/-- The second one. -/
lemma ipv6Regex_iff : ipv6Regex t = true ↔
    Matches ':' (fun f => f.length ≤ 4 ∧ ∀ c ∈ f, isHex c = true) 2 7 t := by
  rw [matches_iff fun p hp => colon_not_hex hp.2]
  unfold ipv6Regex
  simp only [Bool.and_eq_true, List.all_eq_true, decide_eq_true_iff, and_assoc, Nat.reduceAdd]

lemma ipv6Regex_fields : ipv6Regex t = true ↔ 3 ≤ (t.splitOn ':').length ∧
    (t.splitOn ':').length ≤ 8 ∧ ∀ f ∈ t.splitOn ':', f.length ≤ 4 ∧ ∀ c ∈ f, isHex c = true := by
  rw [ipv6Regex_iff, matches_iff fun p hp => colon_not_hex hp.2]

end Regexes

section Forms

variable {t u : Text} {l r gs : List Text}

lemma intercalate_fields (t : Text) (c : Char) : [c].intercalate (t.splitOn c) = t :=
  List.intercalate_splitOn c

lemma eq_of_splitOn {c : Char} (h : t.splitOn c = u.splitOn c) : t = u := by
  rw [← intercalate_fields t c, h, intercalate_fields]

lemma Group.colon {g : Text} (h : Group g) : ':' ∉ g := colon_not_hex h.2.2

lemma pad_ne_nil (gs : List Text) : pad gs ≠ [] := by
  unfold pad
  split
  · exact List.cons_ne_nil _ _
  · assumption

lemma join_pad (gs : List Text) : join (pad gs) = join gs := by
  unfold pad
  split
  · next h =>
    rw [h]
    rfl
  · rfl

lemma pad_length (gs : List Text) : (pad gs).length = max gs.length 1 := by
  unfold pad
  split
  · next h =>
    rw [h]
    rfl
  · next h =>
    have := List.length_pos_iff.mpr h
    omega

lemma mem_pad {g : Text} (h : g ∈ pad gs) : g = [] ∨ g ∈ gs := by
  unfold pad at h
  split at h
  · exact .inl (List.mem_singleton.mp h)
  · exact .inr h

lemma splitOn_join (h : ∀ g ∈ gs, ':' ∉ g) : (join gs).splitOn ':' = pad gs := by
  rw [← join_pad]
  refine List.splitOn_intercalate ':' ?_ (pad_ne_nil gs)
  intro g hg
  rcases mem_pad hg with rfl | hg
  · exact List.not_mem_nil
  · exact h g hg

/-- The fields of a text with a gap. -/
lemma splitOn_gapText (hl : ∀ g ∈ l, ':' ∉ g) (hr : ∀ g ∈ r, ':' ∉ g) :
    (gapText l r).splitOn ':' = pad l ++ [] :: pad r := by
  have hnil : (':' :: join r).splitOn ':' = [] :: (join r).splitOn ':' :=
    List.splitOn_append_cons_self_of_not_mem (List.not_mem_nil : ':' ∉ ([] : Text)) (join r)
  unfold gapText
  rw [List.splitOn_append_cons_self, hnil, splitOn_join hl, splitOn_join hr]

lemma colon_of_fields (h : (t.splitOn ':').length ≠ 1) : ':' ∈ t := by
  by_contra hno
  rw [List.splitOn_eq_singleton hno] at h
  exact h rfl

lemma regex_colon (h : ipv6Regex t = true) : ':' ∈ t := by
  obtain ⟨hlo, -, -⟩ := ipv6Regex_fields.mp h
  exact colon_of_fields (by omega)

lemma colon_gapText (l r : List Text) : ':' ∈ gapText l r :=
  List.mem_append_right _ List.mem_cons_self

lemma colon_join (h : 2 ≤ gs.length) : ':' ∈ join gs := by
  match gs, h with
  | a :: b :: gs, _ =>
    unfold join
    rw [List.intercalate_cons_cons]
    exact List.mem_append_left _ (List.mem_append_right _ (List.mem_singleton.mpr rfl))

lemma HexForm.colon (h : HexForm t) : ':' ∈ t := by
  cases h with
  | full hgs h => exact colon_join (by omega)
  | gap => exact colon_gapText _ _

lemma QuadForm.colon (h : QuadForm t) : ':' ∈ t := by
  cases h with
  | full hgs hq h =>
    exact colon_join (by rw [List.length_append, List.length_singleton]; omega)
  | gap => exact colon_gapText _ _

lemma NineFields.colon (h : NineFields t) : ':' ∈ t := by
  obtain ⟨gs, -, -, rfl | rfl⟩ := h
  · exact colon_gapText _ _
  · exact colon_gapText _ _

lemma Part.no_colon {p : Text} (h : Part p) : ':' ∉ p := by
  intro hmem
  exact absurd (h.2.2.1 ':' hmem) (by decide)

lemma mem_intercalate {sep c : Char} {ps : List Text} (h : c ∈ [sep].intercalate ps) :
    c = sep ∨ ∃ p ∈ ps, c ∈ p := by
  match ps with
  | [] => exact absurd h List.not_mem_nil
  | [p] =>
    rw [List.intercalate_singleton] at h
    exact .inr ⟨p, List.mem_cons_self, h⟩
  | p :: q :: ps =>
    rw [List.intercalate_cons_cons] at h
    rcases List.mem_append.mp h with h | h
    · rcases List.mem_append.mp h with h | h
      · exact .inr ⟨p, List.mem_cons_self, h⟩
      · exact .inl (List.mem_singleton.mp h)
    · rcases mem_intercalate h with h | ⟨p', hp', h⟩
      · exact .inl h
      · exact .inr ⟨p', List.mem_cons_of_mem _ hp', h⟩

lemma DottedQuad.no_colon (h : DottedQuad t) : ':' ∉ t := by
  obtain ⟨ps, -, hps, rfl⟩ := h
  intro hmem
  rcases mem_intercalate hmem with h | ⟨p, hp, h⟩
  · exact absurd h (by decide)
  · exact (hps p hp).no_colon h

lemma DottedQuad.fields (h : DottedQuad t) :
    (t.splitOn '.').length = 4 ∧ ∀ p ∈ t.splitOn '.', Part p := by
  obtain ⟨ps, hlen, hps, rfl⟩ := h
  have hsplit := List.splitOn_intercalate '.' (fun p hp => dot_not_digit (hps p hp).2.2.1)
    (List.ne_nil_of_length_pos (by omega : 0 < ps.length))
  rw [hsplit]
  exact ⟨hlen, hps⟩

lemma inByte_iff {p : Text} (h1 : 1 ≤ p.length) (h3 : p.length ≤ 3)
    (hd : ∀ c ∈ p, isDigit c = true) : inByte p = true ↔ decimal p ≤ 255 := by
  have hlt := decimal_lt hd
  have hthree : 10 ^ p.length ≤ 10 ^ 3 := Nat.pow_le_pow_right (by omega) h3
  have hread := toIntOrNull_of_isDigit (List.ne_nil_of_length_pos h1) hd (by omega)
  unfold inByte
  rw [hread]
  simp only [Bool.and_eq_true, decide_eq_true_iff]
  omega

/-- What the first expression and the bounds make together. -/
lemma dottedQuad_iff : DottedQuad t ↔ ipv4Regex t = true ∧ (t.splitOn '.').all inByte = true := by
  unfold ipv4Regex
  simp only [Bool.and_eq_true, beq_iff_eq, List.all_eq_true, decide_eq_true_iff]
  constructor
  · intro h
    obtain ⟨hlen, hps⟩ := h.fields
    refine ⟨⟨hlen, fun p hp => ?_⟩, fun p hp => ?_⟩
    · obtain ⟨h1, h3, hd, -⟩ := hps p hp
      exact ⟨⟨h1, h3⟩, hd⟩
    · obtain ⟨h1, h3, hd, hle⟩ := hps p hp
      exact (inByte_iff h1 h3 hd).mpr hle
  · rintro ⟨⟨hlen, hps⟩, hbytes⟩
    refine ⟨t.splitOn '.', hlen, fun p hp => ?_, (List.intercalate_splitOn '.').symm⟩
    obtain ⟨⟨h1, h3⟩, hd⟩ := hps p hp
    exact ⟨h1, h3, hd, (inByte_iff h1 h3 hd).mp (hbytes p hp)⟩

lemma ipv4Regex_no_colon (h : ipv4Regex t = true) : ':' ∉ t := by
  rw [ipv4Regex_iff, matches_iff fun p hp => dot_not_digit hp.2] at h
  obtain ⟨-, -, hall⟩ := h
  intro hmem
  rw [← intercalate_fields t '.'] at hmem
  rcases mem_intercalate hmem with h | ⟨p, hp, h⟩
  · exact absurd h (by decide)
  · exact absurd ((hall p hp).2 ':' h) (by decide)

end Forms

section Colons

variable {t : Text} {l r gs : List Text}

lemma group_pad (h : ∀ g ∈ gs, Group g) {f : Text} (hf : f ∈ pad gs) :
    f.length ≤ 4 ∧ ∀ c ∈ f, isHex c = true := by
  rcases mem_pad hf with rfl | hf
  · exact ⟨Nat.zero_le 4, fun c hc => absurd hc List.not_mem_nil⟩
  · exact (h f hf).2

/-- The second expression on a text with a gap only counts. -/
lemma regex_gapText (hl : ∀ g ∈ l, Group g) (hr : ∀ g ∈ r, Group g) :
    ipv6Regex (gapText l r) = true ↔ max l.length 1 + max r.length 1 ≤ 7 := by
  rw [ipv6Regex_fields, splitOn_gapText (fun g hg => (hl g hg).colon) fun g hg => (hr g hg).colon,
    List.length_append, List.length_cons, pad_length, pad_length]
  constructor
  · rintro ⟨-, hhi, -⟩
    omega
  · intro h
    refine ⟨by omega, by omega, fun f hf => ?_⟩
    rcases List.mem_append.mp hf with hf | hf
    · exact group_pad hl hf
    · rcases List.mem_cons.mp hf with rfl | hf
      · exact ⟨Nat.zero_le 4, fun c hc => absurd hc List.not_mem_nil⟩
      · exact group_pad hr hf

lemma hexForm_regex (h : HexForm t) : ipv6Regex t = true ∨ NineFields t := by
  cases h with
  | @full gs hgs hlen =>
    left
    rw [ipv6Regex_fields, splitOn_join fun g hg => (hgs g hg).colon, pad_length]
    exact ⟨by omega, by omega, fun f hf => group_pad hgs hf⟩
  | @gap l r hl hr hlen =>
    rcases Nat.lt_or_ge 7 (max l.length 1 + max r.length 1) with hnine | hfits
    · right
      rcases Nat.eq_zero_or_pos l.length with hzero | hsome
      · obtain rfl := List.length_eq_zero_iff.mp hzero
        exact ⟨r, by omega, hr, .inl rfl⟩
      · obtain rfl : r = [] := List.length_eq_zero_iff.mp (by omega)
        exact ⟨l, by simp only [List.length_nil] at hnine hlen; omega, hl, .inr rfl⟩
    · exact .inl ((regex_gapText hl hr).mpr hfits)

lemma NineFields.hexForm (h : NineFields t) : HexForm t ∧ ¬ ipv6Regex t = true := by
  have nogroup : ∀ g ∈ ([] : List Text), Group g := fun g hg => absurd hg List.not_mem_nil
  obtain ⟨gs, hlen, hgs, rfl | rfl⟩ := h
  · refine ⟨.gap nogroup hgs (by simp only [List.length_nil]; omega), ?_⟩
    rw [regex_gapText nogroup hgs]
    simp only [List.length_nil]
    omega
  · refine ⟨.gap hgs nogroup (by simp only [List.length_nil]; omega), ?_⟩
    rw [regex_gapText hgs nogroup]
    simp only [List.length_nil]
    omega

lemma Loose.not_hexForm (h : Loose t) : ¬ HexForm t := by
  obtain ⟨-, height, hgap⟩ := h
  intro hform
  cases hform with
  | @full gs hgs hlen =>
    refine height ?_
    have hne : gs ≠ [] := List.ne_nil_of_length_pos (by omega)
    rw [splitOn_join fun g hg => (hgs g hg).colon, pad, if_neg hne]
    exact ⟨hlen, fun f hf => (hgs f hf).1⟩
  | @gap l r hl hr hlen =>
    refine hgap ⟨l, r, ?_, fun g hg => (hl g hg).1, fun g hg => (hr g hg).1⟩
    exact splitOn_gapText (fun g hg => (hl g hg).colon) fun g hg => (hr g hg).colon

lemma hexForm_of_regex (h : ipv6Regex t = true) (hloose : ¬ Loose t) : HexForm t := by
  obtain ⟨-, hhi, hall⟩ := ipv6Regex_fields.mp h
  by_cases height : (t.splitOn ':').length = 8 ∧ ∀ f ∈ t.splitOn ':', f ≠ []
  · rw [← intercalate_fields t ':']
    exact .full (fun g hg => ⟨height.2 g hg, hall g hg⟩) height.1
  · by_cases hgap : OneGap (t.splitOn ':')
    · obtain ⟨l, r, hfields, hl, hr⟩ := hgap
      have hmem (g : Text) (hg : g ∈ l ∨ g ∈ r) : g ∈ t.splitOn ':' := by
        rw [hfields]
        rcases hg with hg | hg
        · refine List.mem_append_left _ ?_
          rw [pad, if_neg (List.ne_nil_of_mem hg)]
          exact hg
        · refine List.mem_append_right _ (List.mem_cons_of_mem _ ?_)
          rw [pad, if_neg (List.ne_nil_of_mem hg)]
          exact hg
      have hgl : ∀ g ∈ l, Group g := fun g hg => ⟨hl g hg, hall g (hmem g (.inl hg))⟩
      have hgr : ∀ g ∈ r, Group g := fun g hg => ⟨hr g hg, hall g (hmem g (.inr hg))⟩
      have htext : t = gapText l r := by
        refine eq_of_splitOn (c := ':') ?_
        rw [hfields, splitOn_gapText (fun g hg => (hgl g hg).colon) fun g hg => (hgr g hg).colon]
      rw [htext]
      refine .gap hgl hgr ?_
      rw [hfields, List.length_append, List.length_cons, pad_length, pad_length] at hhi
      omega
    · exact absurd ⟨h, height, hgap⟩ hloose

lemma QuadForm.dot (h : QuadForm t) : '.' ∈ t := by
  have hjoin (gs : List Text) {q : Text} (hq : DottedQuad q) : '.' ∈ join (gs ++ [q]) := by
    have hdot : '.' ∈ q := by
      by_contra hno
      have hfields := hq.fields.1
      rw [List.splitOn_eq_singleton hno] at hfields
      cases hfields
    unfold join
    rw [intercalate_snoc]
    exact List.mem_append_right _ hdot
  cases h with
  | full hgs hq h => exact hjoin _ hq
  | gap hl hr hq h =>
    exact List.mem_append_right _ (List.mem_cons_of_mem _ (List.mem_cons_of_mem _ (hjoin _ hq)))

lemma QuadForm.not_regex (h : QuadForm t) : ¬ ipv6Regex t = true := by
  intro hregex
  obtain ⟨-, -, hall⟩ := ipv6Regex_fields.mp hregex
  have hdot := h.dot
  rw [← intercalate_fields t ':'] at hdot
  rcases mem_intercalate hdot with h | ⟨f, hf, h⟩
  · exact absurd h (by decide)
  · exact dot_not_hex (hall f hf).2 h

end Colons

/-- What the function accepts; the loopback address matches the second expression anyway. -/
lemma accepts_iff (ip : Text) : isSuccess (validateIpAddress ip) = true ↔
    trim ip = [] ∨ DottedQuad (trim ip) ∨ ipv6Regex (trim ip) = true := by
  unfold validateIpAddress
  dsimp only
  generalize trim ip = t
  by_cases hempty : t = []
  · rw [if_pos hempty]
    exact ⟨fun _ => .inl hempty, fun _ => rfl⟩
  rw [if_neg hempty, dottedQuad_iff]
  by_cases h4 : ipv4Regex t = true
  · have h6 : ¬ ipv6Regex t = true := fun h => ipv4Regex_no_colon h4 (regex_colon h)
    rw [if_pos h4]
    by_cases hbytes : (t.splitOn '.').all inByte = true
    · rw [if_pos hbytes]
      exact ⟨fun _ => .inr (.inl ⟨h4, hbytes⟩), fun _ => rfl⟩
    · rw [if_neg hbytes]
      constructor
      · intro h
        cases h
      · rintro (h | h | h)
        · exact absurd h hempty
        · exact absurd h.2 hbytes
        · exact absurd h h6
  · rw [if_neg h4]
    have hor : (ipv6Regex t || t == [':', ':', '1']) = ipv6Regex t := by
      rcases hloop : t == [':', ':', '1'] with _ | _
      · rw [Bool.or_false]
      · rw [beq_iff_eq.mp hloop]
        decide
    rw [hor]
    by_cases h6 : ipv6Regex t = true
    · rw [if_pos h6]
      exact ⟨fun _ => .inr (.inr h6), fun _ => rfl⟩
    · rw [if_neg h6]
      constructor
      · intro h
        cases h
      · rintro (h | h | h)
        · exact absurd h hempty
        · exact absurd h.1 h4
        · exact absurd h h6

/-- The validation is right but for three kinds of text. -/
theorem address_valid_iff (ip : Text) :
    (isSuccess (validateIpAddress ip) = true ↔ Valid (trim ip)) ↔
      ¬ Loose (trim ip) ∧ ¬ NineFields (trim ip) ∧ ¬ QuadForm (trim ip) := by
  rw [accepts_iff, Valid]
  generalize trim ip = t
  by_cases hcolon : ':' ∈ t
  · have hne : t ≠ [] := List.ne_nil_of_mem hcolon
    have hquad : ¬ DottedQuad t := fun h => h.no_colon hcolon
    simp only [hne, hquad, false_or]
    constructor
    · intro hiff
      refine ⟨fun hloose => ?_, fun hnine => ?_, fun hq => ?_⟩
      · rcases hiff.mp hloose.1 with hhex | hq
        · exact hloose.not_hexForm hhex
        · exact hq.not_regex hloose.1
      · obtain ⟨hhex, hno⟩ := hnine.hexForm
        exact hno (hiff.mpr (.inl hhex))
      · exact hq.not_regex (hiff.mpr (.inr hq))
    · rintro ⟨hloose, hnine, hq⟩
      constructor
      · exact fun h => .inl (hexForm_of_regex h hloose)
      · rintro (hhex | hq')
        · exact (hexForm_regex hhex).resolve_right hnine
        · exact absurd hq' hq
  · have h6 : ¬ ipv6Regex t = true := fun h => hcolon (regex_colon h)
    have hhex : ¬ HexForm t := fun h => hcolon h.colon
    have hq : ¬ QuadForm t := fun h => hcolon h.colon
    have hnine : ¬ NineFields t := fun h => hcolon h.colon
    have hloose : ¬ Loose t := fun h => h6 h.1
    simp only [h6, hhex, hq, hnine, hloose, Bool.false_eq_true, or_false, not_false_iff, and_self]

/-- Three groups and no gap are accepted. -/
def threeGroups : Text := ['1', ':', '2', ':', '3']

theorem three_groups_accepted :
    ¬ ∀ ip : Text, isSuccess (validateIpAddress ip) = true ↔ Valid (trim ip) := by
  intro h
  have htrim : trim threeGroups = threeGroups := by decide
  have hloose : Loose threeGroups := by
    refine ⟨by decide, by decide, ?_⟩
    rintro ⟨l, r, hfields, -, -⟩
    have hmem : ([] : Text) ∈ threeGroups.splitOn ':' := by
      rw [hfields]
      exact List.mem_append_right _ List.mem_cons_self
    exact absurd hmem (by decide)
  rcases htrim ▸ (h threeGroups).mp (by decide) with hempty | hquad | hhex | hq
  · exact absurd hempty (by decide)
  · exact hquad.no_colon (by decide)
  · exact hloose.not_hexForm hhex
  · exact hq.not_regex hloose.1

end IpValidation
