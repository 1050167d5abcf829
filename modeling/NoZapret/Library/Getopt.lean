import Mathlib.Data.List.Basic

/-!
# Reading a vector of arguments

`getopt_long` over a table of options: long names and their unambiguous
abbreviations, values behind `=` or in the next word, clusters of letters, and
`--`. A word that is neither an option nor a value is skipped. The words read so
far leave a state: what the next word is taken for depends on it alone.
-/

namespace Getopt

structure Opt where
  name : String
  hasArg : Bool
  val : Char
  deriving DecidableEq, Repr

/-- An option that was read, with its value. -/
structure Item where
  val : Char
  arg : Option String
  deriving DecidableEq, Repr

inductive State where
  | ready
  /-- the next word is the option's value -/
  | waiting (val : Char)
  /-- behind `--` -/
  | ended
  /-- unknown, ambiguous, or with a value it does not take -/
  | failed
  deriving DecidableEq, Repr

/-- An exact name, or else the only option the name abbreviates. -/
def findLong (opts : List Opt) (name : List Char) : Option Opt :=
  match opts.find? fun o => o.name.toList = name with
  | some o => some o
  | none =>
    match opts.filter fun o => name.isPrefixOf o.name.toList with
    | [] => none
    | o :: rest => if rest.all fun p => p.hasArg = o.hasArg ∧ p.val = o.val then some o else none

/-- `value` begins with the `=` if there is one. -/
def longOption (opts : List Opt) (name value : List Char) : List Item × State :=
  match findLong opts name, value with
  | none, _ => ([], .failed)
  | some o, [] => if o.hasArg then ([], .waiting o.val) else ([⟨o.val, none⟩], .ready)
  | some o, _ :: value =>
    if o.hasArg then ([⟨o.val, some (String.ofList value)⟩], .ready) else ([], .failed)

def letters (opts : List Opt) : List Char → List Item × State
  | [] => ([], .ready)
  | c :: cs =>
    match opts.find? fun o => o.val = c with
    | none => ([], .failed)
    | some o =>
      if o.hasArg then
        if cs = [] then ([], .waiting o.val) else ([⟨o.val, some (String.ofList cs)⟩], .ready)
      else
        let (items, s) := letters opts cs
        (⟨o.val, none⟩ :: items, s)

/-- A word where an option may stand. -/
def readWord (opts : List Opt) (word : String) : List Item × State :=
  match word.toList with
  | '-' :: '-' :: body =>
    if body = [] then ([], .ended)
    else longOption opts (body.takeWhile (· ≠ '=')) (body.dropWhile (· ≠ '='))
  | '-' :: c :: cs => letters opts (c :: cs)
  | _ => ([], .ready)

def readNext (opts : List Opt) : State → String → List Item × State
  | .ready, word => readWord opts word
  | .waiting c, word => ([⟨c, some word⟩], .ready)
  | .ended, _ => ([], .ended)
  | .failed, _ => ([], .failed)

def scan (opts : List Opt) : State → List String → List Item × State
  | s, [] => ([], s)
  | s, word :: words =>
    let (items, s') := readNext opts s word
    let (rest, t) := scan opts s' words
    (items ++ rest, t)

/-- Each word with the state it is met in. -/
def places (opts : List Opt) : State → List String → List (State × String)
  | _, [] => []
  | s, word :: words => (s, word) :: places opts (readNext opts s word).2 words

def State.complete : State → Bool
  | .ready | .ended => true
  | .waiting _ | .failed => false

variable {opts : List Opt} {s : State} {word : String} {words words' : List String} {c : Char}

@[simp] lemma scan_nil : scan opts s [] = ([], s) := rfl

lemma scan_cons : scan opts s (word :: words) =
    ((readNext opts s word).1 ++ (scan opts (readNext opts s word).2 words).1,
      (scan opts (readNext opts s word).2 words).2) := rfl

lemma scan_append : scan opts s (words ++ words') =
    ((scan opts s words).1 ++ (scan opts (scan opts s words).2 words').1,
      (scan opts (scan opts s words).2 words').2) := by
  induction words generalizing s with
  | nil => rfl
  | cons word words ih =>
    rw [List.cons_append, scan_cons, ih, scan_cons, List.append_assoc]

lemma scan_failed : scan opts .failed words = ([], .failed) := by
  induction words with
  | nil => rfl
  | cons word words ih =>
    rw [scan_cons]
    change ([] ++ (scan opts .failed words).1, (scan opts .failed words).2) = ([], .failed)
    rw [ih]
    rfl

lemma scan_ended : scan opts .ended words = ([], .ended) := by
  induction words with
  | nil => rfl
  | cons word words ih =>
    rw [scan_cons]
    change ([] ++ (scan opts .ended words).1, (scan opts .ended words).2) = ([], .ended)
    rw [ih]
    rfl

/-- A word that does not begin with `-` is skipped. -/
lemma readWord_operand (h : word.toList.head? ≠ some '-') : readWord opts word = ([], .ready) := by
  unfold readWord
  split
  · rename_i heq
    simp [heq] at h
  · rename_i heq
    simp [heq] at h
  · rfl

/-- Only an option that takes a value leaves one to wait for. -/
lemma letters_waiting {cs : List Char} (h : (letters opts cs).2 = .waiting c) :
    ∃ o ∈ opts, o.val = c ∧ o.hasArg = true := by
  induction cs with
  | nil => cases h
  | cons d cs ih =>
    unfold letters at h
    cases hfind : opts.find? fun o => o.val = d with
    | none => simp [hfind] at h
    | some o =>
      have hmem := List.mem_of_find?_eq_some hfind
      rw [hfind] at h
      by_cases harg : o.hasArg = true
      · by_cases hcs : cs = []
        · simp only [harg, hcs, if_true] at h
          cases h
          exact ⟨o, hmem, rfl, harg⟩
        · simp [harg, hcs] at h
      · simp only [harg] at h
        exact ih h

lemma findLong_mem {name : List Char} {o : Opt} (h : findLong opts name = some o) : o ∈ opts := by
  unfold findLong at h
  cases hfind : opts.find? fun o => o.name.toList = name with
  | some p =>
    simp only [hfind, Option.some.injEq] at h
    subst h
    exact List.mem_of_find?_eq_some hfind
  | none =>
    simp only [hfind] at h
    cases hfilter : opts.filter fun o => name.isPrefixOf o.name.toList with
    | nil => simp [hfilter] at h
    | cons p rest =>
      simp only [hfilter, Option.ite_none_right_eq_some, Option.some.injEq] at h
      obtain ⟨-, rfl⟩ := h
      have hp : p ∈ opts.filter fun o => name.isPrefixOf o.name.toList := by
        rw [hfilter]
        exact List.mem_cons_self
      exact (List.mem_filter.mp hp).1

lemma longOption_waiting {name value : List Char}
    (h : (longOption opts name value).2 = .waiting c) : ∃ o ∈ opts, o.val = c ∧ o.hasArg = true := by
  unfold longOption at h
  cases hfind : findLong opts name with
  | none => simp [hfind] at h
  | some o =>
    cases value with
    | nil =>
      by_cases harg : o.hasArg = true
      · simp only [hfind, harg, if_true] at h
        cases h
        exact ⟨o, findLong_mem hfind, rfl, harg⟩
      · simp [hfind, harg] at h
    | cons _ value => by_cases harg : o.hasArg = true <;> simp [hfind, harg] at h

lemma readWord_waiting (h : (readWord opts word).2 = .waiting c) :
    ∃ o ∈ opts, o.val = c ∧ o.hasArg = true := by
  unfold readWord at h
  split at h
  · rename_i body _
    by_cases hbody : body = []
    · simp [hbody] at h
    · rw [if_neg hbody] at h
      exact longOption_waiting h
  · exact letters_waiting h
  · cases h

lemma readNext_waiting (h : (readNext opts s word).2 = .waiting c) :
    ∃ o ∈ opts, o.val = c ∧ o.hasArg = true := by
  cases s with
  | ready => exact readWord_waiting h
  | waiting d => cases h
  | ended => cases h
  | failed => cases h

lemma scan_waiting (hs : ∀ d, s = .waiting d → ∃ o ∈ opts, o.val = d ∧ o.hasArg = true)
    (h : (scan opts s words).2 = .waiting c) : ∃ o ∈ opts, o.val = c ∧ o.hasArg = true := by
  induction words generalizing s with
  | nil => exact hs c h
  | cons word words ih => exact ih (fun d hd => readNext_waiting hd) h

/-- Words read to their end, with the options they are: a word alone, or with the next one for
its value, or `--` and what is behind it. -/
inductive Reads (opts : List Opt) : List String → List Item → Prop where
  | nil : Reads opts [] []
  | word {word : String} {words : List String} {items is : List Item}
      (hread : readWord opts word = (items, .ready)) (h : Reads opts words is) :
      Reads opts (word :: words) (items ++ is)
  | value {word value : String} {words : List String} {items is : List Item} {c : Char}
      (hread : readWord opts word = (items, .waiting c)) (h : Reads opts words is) :
      Reads opts (word :: value :: words) (items ++ ⟨c, some value⟩ :: is)
  | ended {word : String} {words : List String} {items : List Item}
      (hread : readWord opts word = (items, .ended)) : Reads opts (word :: words) items

lemma reads_of_complete (h : (scan opts .ready words).2.complete = true) :
    Reads opts words (scan opts .ready words).1 := by
  induction hn : words.length using Nat.strongRecOn generalizing words with
  | ind n ih =>
    cases words with
    | nil => exact .nil
    | cons word words =>
      rw [scan_cons] at h ⊢
      change (scan opts (readWord opts word).2 words).2.complete = true at h
      change Reads opts _ ((readWord opts word).1 ++ (scan opts (readWord opts word).2 words).1)
      cases hread : readWord opts word with
      | mk items s =>
        rw [hread] at h
        cases s with
        | ready => exact .word hread (ih words.length (by rw [← hn]; simp) h rfl)
        | waiting c =>
          cases words with
          | nil => cases h
          | cons value words =>
            have hlt : words.length < n := by
              simp only [← hn, List.length_cons]
              omega
            exact .value hread (ih words.length hlt h rfl)
        | ended =>
          dsimp only
          rw [scan_ended, List.append_nil]
          exact .ended hread
        | failed =>
          rw [scan_failed] at h
          cases h

lemma letters_arg {cs : List Char} {i : Item} {arg : String} (hi : i ∈ (letters opts cs).1)
    (harg : i.arg = some arg) : arg.toList.length < cs.length := by
  induction cs with
  | nil => cases hi
  | cons d cs ih =>
    unfold letters at hi
    cases hfind : opts.find? fun o => o.val = d with
    | none => simp [hfind] at hi
    | some o =>
      by_cases htakes : o.hasArg = true
      · by_cases hcs : cs = []
        · simp [hfind, htakes, hcs] at hi
        · simp only [hfind, htakes, hcs, if_true, if_false, List.mem_singleton] at hi
          subst hi
          cases harg
          rw [String.toList_ofList]
          exact Nat.lt_succ_self _
      · simp only [hfind, htakes] at hi
        rcases List.mem_cons.mp hi with rfl | hi
        · cases harg
        · exact Nat.lt_succ_of_lt (ih hi)

lemma longOption_arg {name value : List Char} {i : Item} {arg : String}
    (hi : i ∈ (longOption opts name value).1) (harg : i.arg = some arg) :
    arg.toList.length < value.length := by
  unfold longOption at hi
  cases hfind : findLong opts name with
  | none => simp [hfind] at hi
  | some o =>
    cases value with
    | nil =>
      by_cases htakes : o.hasArg = true
      · simp [hfind, htakes] at hi
      · simp only [hfind, htakes] at hi
        rw [List.mem_singleton.mp hi] at harg
        cases harg
    | cons d value =>
      by_cases htakes : o.hasArg = true
      · simp only [hfind, htakes, if_true, List.mem_singleton] at hi
        subst hi
        cases harg
        rw [String.toList_ofList]
        exact Nat.lt_succ_self _
      · simp [hfind, htakes] at hi

/-- No word is the value of an option that it spells. -/
lemma readWord_arg {i : Item} (hi : i ∈ (readWord opts word).1) : i.arg ≠ some word := by
  intro harg
  unfold readWord at hi
  split at hi
  · rename_i body hword
    split at hi
    · cases hi
    · have hlen := longOption_arg hi harg
      have hdrop := (List.dropWhile_suffix (l := body) (· ≠ '=')).length_le
      rw [hword] at hlen
      simp only [List.length_cons] at hlen
      omega
  · rename_i hword
    have hlen := letters_arg hi harg
    rw [hword] at hlen
    simp only [List.length_cons] at hlen
    omega
  · cases hi

lemma letters_none {cs : List Char} {i : Item} (hi : i ∈ (letters opts cs).1)
    (harg : i.arg = none) : ∃ o ∈ opts, o.val = i.val ∧ o.hasArg = false := by
  induction cs with
  | nil => cases hi
  | cons d cs ih =>
    unfold letters at hi
    cases hfind : opts.find? fun o => o.val = d with
    | none => simp [hfind] at hi
    | some o =>
      by_cases htakes : o.hasArg = true
      · by_cases hcs : cs = []
        · simp [hfind, htakes, hcs] at hi
        · simp only [hfind, htakes, hcs, if_true, if_false, List.mem_singleton] at hi
          subst hi
          cases harg
      · simp only [hfind, htakes] at hi
        rcases List.mem_cons.mp hi with rfl | hi
        · exact ⟨o, List.mem_of_find?_eq_some hfind, rfl, by simpa using htakes⟩
        · exact ih hi

lemma longOption_none {name value : List Char} {i : Item}
    (hi : i ∈ (longOption opts name value).1) (harg : i.arg = none) :
    ∃ o ∈ opts, o.val = i.val ∧ o.hasArg = false := by
  unfold longOption at hi
  cases hfind : findLong opts name with
  | none => simp [hfind] at hi
  | some o =>
    cases value with
    | nil =>
      by_cases htakes : o.hasArg = true
      · simp [hfind, htakes] at hi
      · simp only [hfind, htakes] at hi
        rw [List.mem_singleton.mp hi]
        exact ⟨o, findLong_mem hfind, rfl, by simpa using htakes⟩
    | cons d value =>
      by_cases htakes : o.hasArg = true
      · simp only [hfind, htakes, if_true, List.mem_singleton] at hi
        subst hi
        cases harg
      · simp [hfind, htakes] at hi

lemma readNext_none {i : Item} (hi : i ∈ (readNext opts s word).1) (harg : i.arg = none) :
    ∃ o ∈ opts, o.val = i.val ∧ o.hasArg = false := by
  cases s with
  | ready =>
    change i ∈ (readWord opts word).1 at hi
    unfold readWord at hi
    split at hi
    · split at hi
      · cases hi
      · exact longOption_none hi harg
    · exact letters_none hi harg
    · cases hi
  | waiting c =>
    rw [List.mem_singleton.mp hi] at harg
    cases harg
  | ended => cases hi
  | failed => cases hi

/-- An option without a value is one that takes none. -/
lemma scan_none {i : Item} (hi : i ∈ (scan opts s words).1) (harg : i.arg = none) :
    ∃ o ∈ opts, o.val = i.val ∧ o.hasArg = false := by
  induction words generalizing s with
  | nil => cases hi
  | cons word words ih =>
    rw [scan_cons] at hi
    rcases List.mem_append.mp hi with hi | hi
    · exact readNext_none hi harg
    · exact ih hi

end Getopt
