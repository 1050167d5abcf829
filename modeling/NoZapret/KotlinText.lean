import Mathlib.Algebra.Order.Ring.Int
import Mathlib.Data.List.DropRight
import Mathlib.Data.List.Induction
import Mathlib.Tactic.Lemma

/-!
# Text in Kotlin

The functions of the Kotlin library that `Config` uses on a `String`.
-/

namespace KotlinText

abbrev Text := List Char

/-- `Char.isWhitespace` -/
def isWhitespace (c : Char) : Bool :=
  let n := c.toNat
  (9 ≤ n && n ≤ 13) || (28 ≤ n && n ≤ 32) || n == 0xa0 || n == 0x1680 ||
    (0x2000 ≤ n && n ≤ 0x200a) || n == 0x2028 || n == 0x2029 || n == 0x202f || n == 0x205f ||
    n == 0x3000

def trim (t : Text) : Text := (t.dropWhile isWhitespace).rdropWhile isWhitespace

/-- The zeros of the decimal digits that `Character.digit` knows beyond the Basic Latin ones. -/
def zeros : List Nat :=
  [0x660, 0x6f0, 0x7c0, 0x966, 0x9e6, 0xa66, 0xae6, 0xb66, 0xbe6, 0xc66, 0xce6, 0xd66,
    0xde6, 0xe50, 0xed0, 0xf20, 0x1040, 0x1090, 0x17e0, 0x1810, 0x1946, 0x19d0, 0x1a80, 0x1a90,
    0x1b50, 0x1bb0, 0x1c40, 0x1c50, 0xa620, 0xa8d0, 0xa900, 0xa9d0, 0xa9f0, 0xaa50, 0xabf0,
    0xff10]

/-- `Character.digit(c, 10)` -/
def digit (c : Char) : Option Nat :=
  ((0x30 :: zeros).find? fun z => z ≤ c.toNat && c.toNat < z + 10).map fun z => c.toNat - z

def digits (t : Text) : Option Nat :=
  t.foldlM (fun v c => (digit c).map fun d => v * 10 + d) 0

/-- `String.toIntOrNull` -/
def toIntOrNull : Text → Option Int
  | [] => none
  | c :: cs =>
    if c < '0' then
      if cs = [] then none
      else if c = '-' then (digits cs).bind fun v => if v ≤ 2 ^ 31 then some (-v) else none
      else if c = '+' then (digits cs).bind fun v => if v < 2 ^ 31 then some (v : Int) else none
      else none
    else (digits (c :: cs)).bind fun v => if v < 2 ^ 31 then some (v : Int) else none

/-- A character in the case that `ignoreCase` compares; beyond the Basic Latin block only the
letters that fall together with one of it. -/
def foldCase (c : Char) : Char :=
  if c = Char.ofNat 0x17f then 's'
  else if c = Char.ofNat 0x130 ∨ c = Char.ofNat 0x131 then 'i'
  else if c = Char.ofNat 0x212a then 'k'
  else c.toLower

/-- `startsWith(prefix, ignoreCase = true)` for a prefix in lower case. -/
def startsWithIgnoreCase (t front : Text) : Bool := (t.take front.length).map foldCase == front

def removePrefix (t front : Text) : Text := if front.isPrefixOf t then t.drop front.length else t

/-- `[0-9]` -/
def isDigit (c : Char) : Bool := '0' ≤ c && c ≤ '9'

/-- `[0-9a-fA-F]` -/
def isHex (c : Char) : Bool := isDigit c || ('a' ≤ c && c ≤ 'f') || ('A' ≤ c && c ≤ 'F')

def isBlank (t : Text) : Bool := t.all isWhitespace

/-- `lines`: the text between line feeds, carriage returns and both together. -/
def lines : Text → List Text
  | [] => [[]]
  | '\r' :: '\n' :: t => [] :: lines t
  | c :: t => if c = '\n' ∨ c = '\r' then [] :: lines t else (lines t).modifyHead (c :: ·)

/-- `joinToString("\n")` -/
def joinLines (ls : List Text) : Text := ['\n'].intercalate ls

def indentWidth (line : Text) : Nat := line.findIdx fun c => !isWhitespace c

/-- A first and a last line that are blank are left out. -/
def trimEnds (ls : List Text) : List Text :=
  let rest := if ls.head?.any isBlank then ls.tail else ls
  if rest.getLast?.any isBlank then rest.dropLast else rest

def indents (ls : List Text) : List Nat := (ls.filter fun l => !isBlank l).map indentWidth

def trimIndent (t : Text) : Text :=
  joinLines ((trimEnds (lines t)).map (·.drop ((indents (lines t)).min?.getD 0)))

/-- What digits of the Basic Latin block say. -/
def decimal (t : Text) : Nat := t.foldl (fun v c => v * 10 + (c.toNat - 48)) 0

section Numbers

variable {t : Text} {c : Char}

lemma isDigit_iff : isDigit c = true ↔ 48 ≤ c.toNat ∧ c.toNat ≤ 57 := by
  unfold isDigit
  rw [Bool.and_eq_true, decide_eq_true_iff, decide_eq_true_iff, Char.le_def, Char.le_def]
  exact Iff.rfl

lemma digit_of_isDigit (h : isDigit c = true) : digit c = some (c.toNat - 48) := by
  obtain ⟨h1, h2⟩ := isDigit_iff.mp h
  have hhead : (decide (0x30 ≤ c.toNat) && decide (c.toNat < 0x30 + 10)) = true := by
    rw [Bool.and_eq_true, decide_eq_true_iff, decide_eq_true_iff]
    omega
  have hfind : (0x30 :: zeros).find? (fun z => z ≤ c.toNat && c.toNat < z + 10) = some 0x30 :=
    List.find?_cons_of_pos hhead
  unfold digit
  rw [hfind]
  rfl

lemma digits_of_isDigit (h : ∀ c ∈ t, isDigit c = true) : digits t = some (decimal t) := by
  unfold digits decimal
  generalize 0 = v
  induction t generalizing v with
  | nil => rfl
  | cons c t ih =>
    have hc := digit_of_isDigit (h c List.mem_cons_self)
    rw [List.foldlM_cons, hc, List.foldl_cons]
    exact ih (fun d hd => h d (List.mem_cons_of_mem _ hd)) _

lemma decimal_lt (h : ∀ c ∈ t, isDigit c = true) : decimal t < 10 ^ t.length := by
  induction t using List.reverseRecOn with
  | nil => exact Nat.one_pos
  | append_singleton t c ih =>
    have hc := isDigit_iff.mp (h c (List.mem_append_right t (List.mem_singleton.mpr rfl)))
    have ht := ih fun d hd => h d (List.mem_append_left _ hd)
    have hsnoc : decimal (t ++ [c]) = decimal t * 10 + (c.toNat - 48) := by
      rw [decimal, List.foldl_append]
      rfl
    rw [hsnoc, List.length_append, List.length_singleton, Nat.pow_succ]
    omega

/-- A number that fits has its own value. -/
lemma toIntOrNull_of_isDigit (hne : t ≠ []) (h : ∀ c ∈ t, isDigit c = true)
    (hsmall : decimal t < 2 ^ 31) : toIntOrNull t = some (decimal t : Int) := by
  match t, hne with
  | c :: cs, _ =>
    have hc := isDigit_iff.mp (h c List.mem_cons_self)
    have hlt : ¬ c < '0' := by
      rw [Char.lt_def]
      exact Nat.not_lt.mpr hc.1
    have hread : toIntOrNull (c :: cs) =
        if c < '0' then _ else (digits (c :: cs)).bind fun v =>
          if v < 2 ^ 31 then some (v : Int) else none := rfl
    rw [hread, if_neg hlt, digits_of_isDigit h, Option.bind_some, if_pos hsmall]

end Numbers

section Lines

variable {s t : Text} {ls : List Text}

/-- The text is one line. -/
def OneLine (t : Text) : Prop := ∀ c ∈ t, c ≠ '\n' ∧ c ≠ '\r'

instance (t : Text) : Decidable (OneLine t) :=
  decidable_of_iff ((t.all fun c => c != '\n' && c != '\r') = true) (by simp [OneLine])

lemma OneLine.append (hs : OneLine s) (ht : OneLine t) : OneLine (s ++ t) := by
  intro c hc
  exact (List.mem_append.mp hc).elim (hs c) (ht c)

lemma lines_ne_nil (t : Text) : lines t ≠ [] := by
  fun_induction lines t with
  | case1 => simp
  | case2 t ih => simp
  | case3 c t hr hc ih => simp
  | case4 c t hr hc ih => simpa using ih

lemma lines_cons {c : Char} (hn : c ≠ '\n') (hr : c ≠ '\r') :
    lines (c :: t) = (lines t).modifyHead (c :: ·) := by
  rw [lines]
  · rw [if_neg (by simp [hn, hr])]
  · rintro _ rfl
    exact absurd rfl hr

lemma lines_oneLine (h : OneLine t) : lines t = [t] := by
  induction t with
  | nil => rfl
  | cons c t ih =>
    have hc := h c List.mem_cons_self
    rw [lines_cons hc.1 hc.2, ih fun d hd => h d (List.mem_cons_of_mem c hd)]
    rfl

/-- A line feed ends a line, behind a carriage return as well. -/
lemma lines_append (h : '\r' ∉ s) : lines (s ++ '\n' :: t) = lines s ++ lines t := by
  induction s with
  | nil => rfl
  | cons c s ih =>
    have hs := ih fun hmem => h (List.mem_cons_of_mem c hmem)
    have hr : c ≠ '\r' := fun heq => h (heq ▸ List.mem_cons_self)
    by_cases hn : c = '\n'
    · subst hn
      have hfeed (u : Text) : lines ('\n' :: u) = [] :: lines u := rfl
      rw [List.cons_append, hfeed, hfeed, hs, List.cons_append]
    · rw [List.cons_append, lines_cons hn hr, lines_cons hn hr, hs]
      obtain ⟨l, ls, heq⟩ := List.exists_cons_of_ne_nil (lines_ne_nil s)
      rw [heq]
      rfl

lemma trimEnds_eq {first last : Text} (hfirst : isBlank first = true) (hlast : isBlank last = true) :
    trimEnds (first :: (ls ++ [last])) = ls := by
  have hfront : (first :: (ls ++ [last])).head?.any isBlank = true := hfirst
  have hback : (ls ++ [last]).getLast?.any isBlank = true := by
    rw [List.getLast?_concat]
    exact hlast
  unfold trimEnds
  rw [if_pos hfront, List.tail_cons, if_pos hback, List.dropLast_concat]

lemma flatMap_lines_oneLine (h : ∀ l ∈ ls, OneLine l) : ls.flatMap lines = ls := by
  induction ls with
  | nil => rfl
  | cons l ls ih =>
    rw [List.flatMap_cons, lines_oneLine (h l List.mem_cons_self),
      ih fun k hk => h k (List.mem_cons_of_mem l hk)]
    rfl

lemma lines_joinLines (hne : ls ≠ []) (h : ∀ l ∈ ls, '\r' ∉ l) :
    lines (joinLines ls) = ls.flatMap lines := by
  unfold joinLines
  induction ls with
  | nil => exact absurd rfl hne
  | cons l ls ih =>
    cases ls with
    | nil => simp
    | cons m ls =>
      have hrest := ih (by simp) fun k hk => h k (List.mem_cons_of_mem l hk)
      rw [List.intercalate_cons_cons, List.append_assoc, List.singleton_append,
        lines_append (h l List.mem_cons_self), hrest]
      rfl

end Lines

section Rows

/-- Spaces and a text. -/
def row (p : Nat × Text) : Text := List.replicate p.1 ' ' ++ p.2

/-- The text is empty or has no space before it, and it is one line. -/
structure Row (p : Nat × Text) : Prop where
  oneLine : OneLine p.2
  front : p.2.head?.any isWhitespace = false

instance (p : Nat × Text) : Decidable (Row p) :=
  decidable_of_iff (OneLine p.2 ∧ p.2.head?.any isWhitespace = false)
    ⟨fun h => ⟨h.1, h.2⟩, fun h => ⟨h.oneLine, h.front⟩⟩

variable {p : Nat × Text} {ps : List (Nat × Text)} {k : Nat}

lemma row_oneLine (h : OneLine p.2) : OneLine (row p) := by
  intro c hc
  rcases List.mem_append.mp hc with hc | hc
  · obtain ⟨-, rfl⟩ := List.mem_replicate.mp hc
    decide
  · exact h c hc

lemma indentWidth_row {c : Char} {t : Text} {n : Nat} (hc : isWhitespace c = false) :
    indentWidth (row (n, c :: t)) = n := by
  unfold indentWidth row
  induction n with
  | zero => simp [List.findIdx_cons, hc]
  | succ n ih =>
    have hspace : isWhitespace ' ' = true := by decide
    simp [List.replicate_succ, List.findIdx_cons, hspace, ih]

lemma isBlank_row (h : Row p) : isBlank (row p) = p.2.isEmpty := by
  obtain ⟨n, t⟩ := p
  have hspace : isWhitespace ' ' = true := by decide
  cases t with
  | nil => simp [isBlank, row, hspace]
  | cons c t =>
    have hc : isWhitespace c = false := h.front
    simp [isBlank, row, hc]

lemma indents_rows (h : ∀ p ∈ ps, Row p) :
    indents (ps.map row) = (ps.filter fun p => !p.2.isEmpty).map Prod.fst := by
  unfold indents
  induction ps with
  | nil => rfl
  | cons p ps ih =>
    have hp := h p List.mem_cons_self
    have hrest := ih fun q hq => h q (List.mem_cons_of_mem p hq)
    rw [List.map_cons, List.filter_cons, List.filter_cons, isBlank_row hp]
    split
    · rename_i hfull
      obtain ⟨n, t⟩ := p
      match t, hfull with
      | c :: t, _ => rw [List.map_cons, List.map_cons, hrest, indentWidth_row hp.front]
    · exact hrest

/-- Less of the spaces, or none of them where there is no text. -/
lemma drop_row (h : p.2 = [] ∨ k ≤ p.1) : (row p).drop k = row (p.1 - k, p.2) := by
  unfold row
  rw [List.drop_append, List.drop_replicate, List.length_replicate]
  rcases h with hempty | hle
  · rw [hempty, List.drop_nil]
  · rw [Nat.sub_eq_zero_of_le hle, List.drop_zero]

lemma lines_rows (hne : ps ≠ []) (h : ∀ p ∈ ps, Row p) :
    lines (joinLines (ps.map row)) = ps.map row := by
  have hone : ∀ l ∈ ps.map row, OneLine l := by
    intro l hl
    obtain ⟨p, hp, rfl⟩ := List.mem_map.mp hl
    exact row_oneLine (h p hp).oneLine
  rw [lines_joinLines (by simpa using hne), flatMap_lines_oneLine hone]
  intro l hl hmem
  exact (hone l hl _ hmem).2 rfl

/-- Between two blank lines the rows lose what all of them that have text have in common. -/
lemma trimIndent_rows {t : Text} {first last : Nat} (h : ∀ p ∈ ps, Row p)
    (ht : lines t = row (first, []) :: (ps.map row ++ [row (last, [])]))
    (hk : ((ps.filter fun p => !p.2.isEmpty).map Prod.fst).min? = some k) :
    trimIndent t = joinLines (ps.map fun p => row (p.1 - k, p.2)) := by
  have hends : ∀ n, Row (n, []) := fun _ => ⟨by simp [OneLine], rfl⟩
  have hrows : ∀ p ∈ (first, []) :: (ps ++ [(last, [])]), Row p := by
    intro p hp
    simp only [List.mem_cons, List.mem_append, List.not_mem_nil, or_false] at hp
    rcases hp with rfl | hp | rfl
    · exact hends first
    · exact h p hp
    · exact hends last
  have hindents : indents (lines t) = (ps.filter fun p => !p.2.isEmpty).map Prod.fst := by
    have hlist : lines t = ((first, []) :: (ps ++ [(last, [])])).map row := by
      rw [ht, List.map_cons, List.map_append]
      rfl
    rw [hlist, indents_rows hrows]
    simp [List.filter_append]
  have htrim : trimEnds (lines t) = ps.map row := by
    rw [ht, trimEnds_eq (isBlank_row (hends first)) (isBlank_row (hends last))]
  have hdrop : (ps.map row).map (·.drop k) = ps.map fun p => row (p.1 - k, p.2) := by
    rw [List.map_map]
    refine List.map_congr_left ?_
    intro p hp
    refine drop_row ?_
    by_cases hempty : p.2 = []
    · exact .inl hempty
    · right
      refine (List.min?_eq_some_iff.mp hk).2 p.1 (List.mem_map_of_mem ?_)
      exact List.mem_filter.mpr ⟨hp, by simpa using hempty⟩
  unfold trimIndent
  rw [hindents, hk, Option.getD_some, htrim, hdrop]

end Rows

end KotlinText
