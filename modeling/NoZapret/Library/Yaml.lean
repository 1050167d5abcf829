import Mathlib.Data.List.DropRight
import NoZapret.Library.Outline

/-!
# Block mappings in YAML

The part of YAML that has block mappings only, with plain scalars on one line for keys and
values. What has sequences, quotes, comments, markers or scalars of more lines is not read.
-/

namespace Yaml

open Outline

abbrev Text := List Char

/-- The apostrophe, the double quote and the grave accent are written by number. -/
def indicators : Text :=
  [',', '[', ']', '{', '}', '#', '&', '*', '!', '|', '>', '%', '@', Char.ofNat 0x27,
    Char.ofNat 0x22, Char.ofNat 0x60]

/-- The text behind `-`, `?` and `:` makes them part of a scalar. -/
def startsPlain : Text → Bool
  | [] => false
  | [c] => !(indicators ++ ['-', '?', ':']).contains c
  | c :: d :: _ => !indicators.contains c && (d != ' ' || !(['-', '?', ':'].contains c))

/-- The text before and behind the first colon that has a space or nothing behind it. -/
def splitKey : Text → Option (Text × Text)
  | [] => none
  | [c] => if c = ':' then some ([], []) else none
  | c :: d :: t =>
    if c = ':' ∧ d = ' ' then some ([], t)
    else (splitKey (d :: t)).map fun p => (c :: p.1, p.2)

/-- A scalar that goes to its end, with no comment behind it. -/
def isPlain (t : Text) : Bool :=
  startsPlain t && (splitKey t).isNone && !(t.zip t.tail).contains (' ', '#') && !t.contains '\t'

def isBlank (t : Text) : Bool := t.all (· == ' ')

def isMarker (t : Text) : Bool := ["---".toList, "...".toList].contains (t.take 3)

/-- The key and the value of a line, from its first character on. -/
def readEntry (content : Text) : Option (Text × Option Text) := do
  let (key, value) ← splitKey content
  let key := key.rdropWhile (· == ' ')
  let value := (value.dropWhile (· == ' ')).rdropWhile (· == ' ')
  if isMarker content || !isPlain key then none
  else if value.isEmpty then some (key, none)
  else if isPlain value then some (key, some value)
  else none

def readLine (t : Text) : Option (Line Text Text) :=
  (readEntry (t.dropWhile (· == ' '))).map fun e =>
    ⟨t.length - (t.dropWhile (· == ' ')).length, e.1, e.2⟩

def readLines (ls : List Text) : Option (List (Line Text Text)) :=
  (ls.filter fun t => !isBlank t).mapM readLine

/-- The mapping that a text of these lines stands for. -/
def read (ls : List Text) : Option (Forest Text Text) := (readLines ls).bind Outline.read

/-- The characters of names and numbers. -/
def isWord (c : Char) : Bool := c.isAlphanum || ['.', '_', ':', '-', '%'].contains c

section Words

variable {t : Text} {c : Char}

lemma readLine_indent (n : Nat) (h : t.head? ≠ some ' ') :
    readLine (List.replicate n ' ' ++ t) =
      (readEntry t).map fun e => ⟨n, e.1, e.2⟩ := by
  have hcontent : (List.replicate n ' ' ++ t).dropWhile (· == ' ') = t := by
    induction n with
    | zero =>
      cases t with
      | nil => rfl
      | cons c t => exact List.dropWhile_cons_of_neg (by simpa using h)
    | succ n ih =>
      rw [List.replicate_succ, List.cons_append, List.dropWhile_cons_of_pos rfl, ih]
  unfold readLine
  rw [hcontent, List.length_append, List.length_replicate, Nat.add_sub_cancel]

/-- Rows of spaces and text; those without text are skipped. -/
lemma readLines_rows {ps : List (Nat × Text)} (h : ∀ p ∈ ps, p.2.head? ≠ some ' ') :
    readLines (ps.map fun p => List.replicate p.1 ' ' ++ p.2) =
      (ps.filter fun p => !p.2.isEmpty).mapM fun p =>
        (readEntry p.2).map fun e => ⟨p.1, e.1, e.2⟩ := by
  unfold readLines
  induction ps with
  | nil => rfl
  | cons p ps ih =>
    have hp := h p List.mem_cons_self
    have hrest := ih fun q hq => h q (List.mem_cons_of_mem p hq)
    have hblank : isBlank (List.replicate p.1 ' ' ++ p.2) = p.2.isEmpty := by
      cases htext : p.2 with
      | nil => simp [isBlank]
      | cons c t =>
        rw [htext] at hp
        have hc : c ≠ ' ' := by simpa using hp
        simp [isBlank, hc]
    rw [List.map_cons, List.filter_cons, List.filter_cons, hblank]
    split
    · rw [List.mapM_cons, List.mapM_cons, readLine_indent p.1 hp, hrest]
    · exact hrest

lemma mapM_indents {ps : List (Nat × Text)} {ls : List (Line Text Text)}
    (h : (ps.mapM fun p => (readEntry p.2).map fun e => (⟨p.1, e.1, e.2⟩ : Line Text Text)) =
      some ls) : ls.map Line.indent = ps.map Prod.fst := by
  induction ps generalizing ls with
  | nil =>
    cases h
    rfl
  | cons p ps ih =>
    simp only [List.mapM_cons, Option.bind_eq_bind, Option.bind_eq_some_iff,
      Option.map_eq_some_iff] at h
    obtain ⟨l, ⟨e, -, rfl⟩, ms, hms, heq⟩ := h
    cases heq
    rw [List.map_cons, List.map_cons, ih hms]

/-- In a text that is read no row steps back before the first one. -/
theorem read_rows_indent {ps qs : List (Nat × Text)} {q : Nat × Text} {f : Forest Text Text}
    (h : ∀ p ∈ ps, p.2.head? ≠ some ' ') (hps : (ps.filter fun p => !p.2.isEmpty) = q :: qs)
    (hread : read (ps.map fun p => List.replicate p.1 ' ' ++ p.2) = some f) :
    ∀ r ∈ qs, q.1 ≤ r.1 := by
  unfold read at hread
  rw [readLines_rows h, hps] at hread
  obtain ⟨ls, hls, hread⟩ := Option.bind_eq_some_iff.mp hread
  have hindents := mapM_indents hls
  cases ls with
  | nil => cases hindents
  | cons l ls =>
    obtain ⟨hl, hrest⟩ := List.cons.inj hindents
    intro r hr
    have hmem : r.1 ∈ ls.map Line.indent := hrest ▸ List.mem_map_of_mem hr
    obtain ⟨m, hm, heq⟩ := List.mem_map.mp hmem
    rw [← hl, ← heq]
    exact read_indent hread m hm

lemma word_ne_space (h : isWord c = true) : c ≠ ' ' := by
  rintro rfl
  exact absurd h (by decide)

lemma word_not_indicator (h : isWord c = true) (hc : c ≠ '%') : c ∉ indicators := by
  intro hmem
  have hall : (indicators.all fun d => d == '%' || !isWord d) = true := by decide
  have hone := List.all_eq_true.mp hall c hmem
  simp [h, hc] at hone

/-- Without spaces only a colon at the end can be taken for the end of a key. -/
lemma splitKey_word (h : ' ' ∉ t) : splitKey t = none ↔ t.getLast? ≠ some ':' := by
  fun_induction splitKey t with
  | case1 => simp
  | case2 => simp
  | case3 c hc => simp [hc]
  | case4 c d t hc => exact absurd (by simp [hc.2]) h
  | case5 c d t hc ih =>
    have hrest := ih fun hmem => h (List.mem_cons_of_mem c hmem)
    rw [Option.map_eq_none_iff, hrest, List.getLast?_cons_cons]

/-- A name is a scalar unless a colon is at its end. -/
lemma isPlain_word (hword : ∀ c ∈ t, isWord c = true) (hne : t ≠ []) (hdash : t ≠ ['-'])
    (hhead : t.head? ≠ some '%') : isPlain t = true ↔ t.getLast? ≠ some ':' := by
  have hspace : ' ' ∉ t := fun hmem => word_ne_space (hword ' ' hmem) rfl
  have hcomment : (t.zip t.tail).contains (' ', '#') = false := by
    by_contra hcontains
    have hmem : (' ', '#') ∈ t.zip t.tail := by simpa using hcontains
    exact hspace (List.of_mem_zip hmem).1
  have htab : t.contains '\t' = false := by
    by_contra hcontains
    have hmem : '\t' ∈ t := by simpa using hcontains
    exact absurd (hword '\t' hmem) (by decide)
  have hstart (hlast : t.getLast? ≠ some ':') : startsPlain t = true := by
    match t with
    | [] => exact absurd rfl hne
    | [c] =>
      have hc := word_not_indicator (hword c (by simp)) (by simpa using hhead)
      have hquery : c ≠ '?' := by
        rintro rfl
        exact absurd (hword '?' (by simp)) (by decide)
      have hminus : c ≠ '-' := by simpa using hdash
      have hcolon : c ≠ ':' := by simpa using hlast
      simp [startsPlain, hc, hquery, hminus, hcolon]
    | c :: d :: _ =>
      have hc := word_not_indicator (hword c (by simp)) (by simpa using hhead)
      have hd := word_ne_space (hword d (by simp))
      simp [startsPlain, hc, hd]
  rw [← splitKey_word hspace] at hstart ⊢
  unfold isPlain
  rw [hcomment, htab]
  simp only [Bool.not_false, Bool.and_true, Bool.and_eq_true, Option.isNone_iff_eq_none]
  constructor
  · rintro ⟨-, hnone⟩
    exact hnone
  · intro hnone
    exact ⟨hstart hnone, hnone⟩

/-- Words have no spaces to trim. -/
lemma trim_word (hword : ∀ c ∈ t, isWord c = true) :
    (t.dropWhile (· == ' ')).rdropWhile (· == ' ') = t := by
  have hfront : t.dropWhile (· == ' ') = t := by
    cases t with
    | nil => rfl
    | cons c t =>
      have hc := word_ne_space (hword c (by simp))
      exact List.dropWhile_cons_of_neg (by simpa using hc)
  rw [hfront, List.rdropWhile_eq_self_iff]
  intro hne hlast
  exact word_ne_space (hword _ (List.getLast_mem hne)) (by simpa using hlast)

/-- An entry whose value is a name. -/
lemma readEntry_word {content key : Text} (hword : ∀ c ∈ t, isWord c = true) (hne : t ≠ [])
    (hsplit : splitKey content = some (key, t)) (hkey : key.rdropWhile (· == ' ') = key)
    (hplain : isPlain key = true) (hmarker : isMarker content = false) :
    readEntry content = if isPlain t then some (key, some t) else none := by
  have hempty : t.isEmpty = false := by simpa using hne
  unfold readEntry
  simp only [hsplit, Option.bind_eq_bind, Option.bind_some, hkey, trim_word hword, hmarker,
    hplain, hempty, Bool.not_true, Bool.or_false, Bool.false_eq_true, if_false]

end Words

end Yaml
