import Mathlib.Algebra.Order.Ring.Int
import Mathlib.Logic.Relation
import NoZapret.Library.Getopt

/-!
# Reading a vector of arguments one option at a time

`getopt_long` as a program calls it. A cursor says which word is read next and, inside a
cluster of letters, what is left of it; the program may set it back. A word that is neither
an option nor a value is skipped where it stands.
-/

namespace Getopt

structure Cursor where
  optind : Nat
  nextchar : List Char
  deriving DecidableEq, Repr

inductive Got where
  | done
  | bad
  | item (item : Item) (next : Cursor)
  deriving DecidableEq, Repr

/-- The word at `n` is the option's value. -/
def separate (argv : List String) (n : Nat) (val : Char) : Got :=
  match argv[n]? with
  | none => .bad
  | some word => .item ⟨val, some word⟩ ⟨n + 1, []⟩

/-- `value` begins with the `=` if there is one. -/
def nextLong (opts : List Opt) (argv : List String) (n : Nat) (name value : List Char) : Got :=
  match findLong opts name, value with
  | none, _ => .bad
  | some o, [] =>
    if o.hasArg then separate argv (n + 1) o.val else .item ⟨o.val, none⟩ ⟨n + 1, []⟩
  | some o, _ :: value =>
    if o.hasArg then .item ⟨o.val, some (String.ofList value)⟩ ⟨n + 1, []⟩ else .bad

def nextLetter (opts : List Opt) (argv : List String) (n : Nat) (c : Char) (cs : List Char) :
    Got :=
  match opts.find? fun o => o.val = c with
  | none => .bad
  | some o =>
    if o.hasArg then
      if cs = [] then separate argv (n + 1) o.val
      else .item ⟨o.val, some (String.ofList cs)⟩ ⟨n + 1, []⟩
    else .item ⟨o.val, none⟩ ⟨if cs = [] then n + 1 else n, cs⟩

/-- The list is the words from the one at `n` on. -/
def nextWord (opts : List Opt) (argv : List String) : Nat → List String → Got
  | _, [] => .done
  | n, word :: words =>
    match word.toList with
    | '-' :: '-' :: body =>
      if body = [] then .done
      else nextLong opts argv n (body.takeWhile (· ≠ '=')) (body.dropWhile (· ≠ '='))
    | '-' :: c :: cs => nextLetter opts argv n c cs
    | _ => nextWord opts argv (n + 1) words

def getoptLong (opts : List Opt) (argv : List String) (p : Cursor) : Got :=
  match p.nextchar with
  | [] => nextWord opts argv p.optind (argv.drop p.optind)
  | c :: cs => nextLetter opts argv p.optind c cs

/-- `optind = n` in the program; 0 starts over. -/
def Cursor.moveTo (p : Cursor) (n : Nat) : Cursor :=
  if n = 0 then ⟨1, []⟩ else { p with optind := n }

def size (words : List String) : Nat := (words.map fun word => word.toList.length + 1).sum

/-- What there is to read from a cursor on. -/
def left (argv : List String) (p : Cursor) : Nat :=
  match p.nextchar with
  | [] => size (argv.drop p.optind)
  | cs => cs.length + size (argv.drop (p.optind + 1))

/-- A cluster of letters is left in a word of the vector. -/
def Cursor.Valid (argv : List String) (p : Cursor) : Prop :=
  p.nextchar ≠ [] → p.optind < argv.length

/-- An option that is read in the word at `n` or behind it, where there are `k` to read. -/
structure Moves (opts : List Opt) (argv : List String) (n k : Nat) (i : Item) (q : Cursor) :
    Prop where
  left : left argv q < k
  optind : n ≤ q.optind
  valid : q.Valid argv
  word : i.arg ≠ none → n < q.optind ∧ q.optind ≤ argv.length ∧ q.nextchar = []
  option : ∃ o ∈ opts, o.val = i.val ∧ (o.hasArg = true ↔ i.arg ≠ none)

/-- From `p` to `q` by reading options that satisfy `P`. -/
def Path (opts : List Opt) (argv : List String) (P : Item → Prop) : Cursor → Cursor → Prop :=
  Relation.ReflTransGen fun p q => ∃ i, getoptLong opts argv p = .item i q ∧ P i

variable {opts : List Opt} {argv words : List String} {n : Nat} {p q r : Cursor} {i : Item}
  {c : Char} {cs name value : List Char} {P Q : Item → Prop}

lemma size_drop_le (argv : List String) (n k : Nat) : size (argv.drop (n + k)) ≤ size (argv.drop n) := by
  rw [← List.drop_drop]
  generalize argv.drop n = words
  induction words generalizing k with
  | nil => simp [size]
  | cons word words ih =>
    cases k with
    | zero => exact Nat.le_refl _
    | succ k =>
      have := ih k
      simp only [size, List.drop_succ_cons, List.map_cons, List.sum_cons] at this ⊢
      omega

@[simp] lemma left_boundary : left argv ⟨n, []⟩ = size (argv.drop n) := rfl

@[simp] lemma valid_boundary : Cursor.Valid argv ⟨n, []⟩ := fun h => absurd rfl h

/-- An option's value ends where a word ends. -/
lemma separate_item (h : separate argv n c = .item i q) :
    i.val = c ∧ i.arg ≠ none ∧ n < argv.length ∧ q = ⟨n + 1, []⟩ := by
  unfold separate at h
  split at h
  · cases h
  · rename_i word hword
    obtain ⟨hn, -⟩ := List.getElem?_eq_some_iff.mp hword
    cases h
    exact ⟨rfl, by simp, hn, rfl⟩

lemma Moves.mono {m k l : Nat} (h : Moves opts argv n k i q) (hn : m ≤ n) (hk : k ≤ l) :
    Moves opts argv m l i q where
  left := Nat.lt_of_lt_of_le h.left hk
  optind := Nat.le_trans hn h.optind
  valid := h.valid
  word := fun harg => ⟨Nat.lt_of_le_of_lt hn (h.word harg).1, (h.word harg).2⟩
  option := h.option

/-- A word has been read to its end. -/
lemma moves_next {o : Opt} {arg : Option String} (hn : n < argv.length) (ho : o ∈ opts)
    (harg : o.hasArg = true ↔ arg ≠ none) :
    Moves opts argv n (size (argv.drop (n + 1)) + 1) ⟨o.val, arg⟩ ⟨n + 1, []⟩ where
  left := Nat.lt_succ_self _
  optind := Nat.le_succ n
  valid := valid_boundary
  word := fun _ => ⟨Nat.lt_succ_self n, hn, rfl⟩
  option := ⟨o, ho, rfl, harg⟩

lemma separate_moves {o : Opt} (ho : o ∈ opts) (harg : o.hasArg = true)
    (h : separate argv n o.val = .item i q) :
    Moves opts argv n (size (argv.drop n) + 1) i q := by
  obtain ⟨hval, hi, hn, rfl⟩ := separate_item h
  constructor
  · have := size_drop_le argv n 1
    exact Nat.lt_succ_of_le this
  · exact Nat.le_succ n
  · exact valid_boundary
  · exact fun _ => ⟨Nat.lt_succ_self n, hn, rfl⟩
  · exact ⟨o, ho, hval.symm, by simp [harg, hi]⟩

lemma nextLong_moves (hn : n < argv.length)
    (h : nextLong opts argv n name value = .item i q) :
    Moves opts argv n (size (argv.drop (n + 1)) + 1) i q := by
  unfold nextLong at h
  cases hfind : findLong opts name with
  | none => simp [hfind] at h
  | some o =>
    have ho := findLong_mem hfind
    cases value with
    | nil =>
      by_cases harg : o.hasArg = true
      · simp only [hfind, harg, if_true] at h
        exact (separate_moves ho harg h).mono (Nat.le_succ n) (Nat.le_refl _)
      · simp only [hfind, harg] at h
        cases h
        exact moves_next hn ho (by simp [harg])
    | cons _ value =>
      by_cases harg : o.hasArg = true
      · simp only [hfind, harg, if_true] at h
        cases h
        exact moves_next hn ho (by simp [harg])
      · simp [hfind, harg] at h

lemma nextLetter_moves (hn : n < argv.length) (h : nextLetter opts argv n c cs = .item i q) :
    Moves opts argv n ((c :: cs).length + size (argv.drop (n + 1))) i q := by
  have hle : size (argv.drop (n + 1)) + 1 ≤ (c :: cs).length + size (argv.drop (n + 1)) := by
    rw [List.length_cons]
    omega
  unfold nextLetter at h
  cases hfind : opts.find? fun o => o.val = c with
  | none => simp [hfind] at h
  | some o =>
    have ho := List.mem_of_find?_eq_some hfind
    by_cases harg : o.hasArg = true
    · by_cases hcs : cs = []
      · simp only [hfind, harg, hcs, if_true] at h
        exact ((separate_moves ho harg h).mono (Nat.le_succ n) (Nat.le_refl _)).mono
          (Nat.le_refl n) hle
      · simp only [hfind, harg, hcs, if_true, if_false] at h
        cases h
        exact (moves_next hn ho (by simp [harg])).mono (Nat.le_refl n) hle
    · simp only [hfind, harg] at h
      cases h
      by_cases hcs : cs = []
      · subst hcs
        exact (moves_next hn ho (by simp [harg])).mono (Nat.le_refl n) hle
      -- the rest of the cluster stays to be read
      · obtain ⟨d, ds, rfl⟩ := List.exists_cons_of_ne_nil hcs
        constructor
        · change (d :: ds).length + size (argv.drop (n + 1)) < _
          simp only [List.length_cons]
          omega
        · exact Nat.le_refl n
        · exact fun _ => hn
        · exact fun harg' => absurd rfl harg'
        · exact ⟨o, ho, rfl, by simp [harg]⟩

lemma size_drop_cons {word : String} (h : argv.drop n = word :: words) :
    n < argv.length ∧ argv.drop (n + 1) = words ∧
      size (argv.drop n) = word.toList.length + 1 + size words := by
  have hn : n < argv.length := by
    rw [← List.drop_eq_nil_iff.not.trans Nat.not_le, h]
    exact List.cons_ne_nil _ _
  refine ⟨hn, ?_, ?_⟩
  · rw [← List.drop_drop, h]
    rfl
  · rw [h]
    simp [size]

lemma nextWord_moves (hwords : argv.drop n = words)
    (h : nextWord opts argv n words = .item i q) : Moves opts argv n (size words) i q := by
  induction words generalizing n with
  | nil => cases h
  | cons word words ih =>
    obtain ⟨hn, hdrop, hsize⟩ := size_drop_cons hwords
    rw [hwords] at hsize
    unfold nextWord at h
    split at h
    · split at h
      · cases h
      · refine (nextLong_moves hn h).mono (Nat.le_refl n) ?_
        rw [hsize, hdrop]
        omega
    · rename_i heq
      refine (nextLetter_moves hn h).mono (Nat.le_refl n) ?_
      rw [hsize, hdrop, heq]
      simp only [List.length_cons]
      omega
    · refine (ih hdrop h).mono (Nat.le_succ n) ?_
      omega

/-- What an option that is read does to the cursor. -/
lemma getoptLong_moves (hp : p.Valid argv) (h : getoptLong opts argv p = .item i q) :
    Moves opts argv p.optind (left argv p) i q := by
  obtain ⟨n, rest⟩ := p
  cases rest with
  | nil => exact nextWord_moves rfl h
  | cons c cs => exact nextLetter_moves (hp (List.cons_ne_nil _ _)) h

/-- Options up to the last one: all satisfy `Q`, or one of them is the first that does not. -/
lemma Path.split (h : Path opts argv P p q) :
    Path opts argv (fun i => P i ∧ Q i) p q ∨
      ∃ s i t, Path opts argv P p s ∧ getoptLong opts argv s = .item i t ∧ P i ∧ ¬ Q i ∧
        Path opts argv P t q := by
  induction h with
  | refl => exact .inl .refl
  | @tail s t hpath hitem ih =>
    obtain ⟨i, hi, hP⟩ := hitem
    rcases ih with hall | ⟨s', j, t', hs', hj, hPj, hQj, ht'⟩
    · by_cases hQ : Q i
      · exact .inl (hall.tail ⟨i, hi, hP, hQ⟩)
      · exact .inr ⟨s, i, t, hpath, hi, hP, hQ, .refl⟩
    · exact .inr ⟨s', j, t', hs', hj, hPj, hQj, ht'.tail ⟨i, hi, hP⟩⟩

lemma Path.mono (h : Path opts argv P p q) (hPQ : ∀ i, P i → Q i) : Path opts argv Q p q := by
  induction h with
  | refl => exact .refl
  | tail _ hitem ih =>
    obtain ⟨i, hi, hP⟩ := hitem
    exact ih.tail ⟨i, hi, hPQ i hP⟩

/-- Reading on does not go back. -/
lemma Path.optind_le (h : Path opts argv P p q) (hp : p.Valid argv) :
    p.optind ≤ q.optind ∧ q.Valid argv := by
  induction h with
  | refl => exact ⟨Nat.le_refl _, hp⟩
  | tail _ hitem ih =>
    obtain ⟨i, hi, -⟩ := hitem
    have hmoves := getoptLong_moves ih.2 hi
    exact ⟨Nat.le_trans ih.1 hmoves.optind, hmoves.valid⟩

/-- Ahead of `p` and before the word at `b` there is an option that satisfies `Q`, and those
before it satisfy `P`. -/
def Ahead (opts : List Opt) (argv : List String) (P Q : Item → Prop) (b : Nat) (p : Cursor) :
    Prop :=
  ∃ s i t, Path opts argv P p s ∧ getoptLong opts argv s = .item i t ∧ Q i ∧ t.optind < b

lemma Ahead.mono {P' : Item → Prop} {b : Nat} (h : Ahead opts argv P Q b p)
    (hP : ∀ i, P i → P' i) : Ahead opts argv P' Q b p := by
  obtain ⟨s, i, t, hs, hi⟩ := h
  exact ⟨s, i, t, hs.mono hP, hi⟩

/-- The next option is the one ahead, or it is still ahead behind it. -/
lemma Ahead.next {b : Nat} (h : Ahead opts argv P Q b p) (hp : p.Valid argv)
    (hi : getoptLong opts argv p = .item i q) :
    q.optind < b ∧ (Q i ∨ P i ∧ Ahead opts argv P Q b q) := by
  obtain ⟨s, j, t, hs, hj, hQ, hb⟩ := h
  rcases Relation.ReflTransGen.cases_head hs with rfl | ⟨q', ⟨k, hk, hP⟩, hq'⟩
  · rw [hi] at hj
    cases hj
    exact ⟨hb, .inl hQ⟩
  · rw [hi] at hk
    cases hk
    have hs' := Path.optind_le hq' (getoptLong_moves hp hi).valid
    have ht := getoptLong_moves hs'.2 hj
    refine ⟨?_, .inr ⟨hP, s, j, t, hq', hj, hQ, hb⟩⟩
    have := ht.optind
    omega

/-- Where a word begins; 0 is the first argument. -/
def restart (n : Nat) : Cursor := ⟨if n = 0 then 1 else n, []⟩

lemma moveTo_boundary (h : p.nextchar = []) : p.moveTo n = restart n := by
  obtain ⟨m, rest⟩ := p
  cases h
  unfold Cursor.moveTo restart
  split <;> rfl

lemma le_restart : n ≤ (restart n).optind := by
  unfold restart
  dsimp only
  split <;> omega

lemma restart_eq (h : q.nextchar = []) (hn : 0 < q.optind) : restart q.optind = q := by
  obtain ⟨m, rest⟩ := q
  cases h
  unfold restart
  rw [if_neg (Nat.ne_of_gt hn)]

section Scan

/-- Everything that is read from a cursor on. -/
def scanFrom (opts : List Opt) (argv : List String) (p : Cursor) : List Item × State :=
  match p.nextchar with
  | [] => scan opts .ready (argv.drop p.optind)
  | cs =>
    ((letters opts cs).1 ++ (scan opts (letters opts cs).2 (argv.drop (p.optind + 1))).1,
      (scan opts (letters opts cs).2 (argv.drop (p.optind + 1))).2)

@[simp] lemma scanFrom_boundary :
    scanFrom opts argv ⟨n, []⟩ = scan opts .ready (argv.drop n) := rfl

lemma scanFrom_letters : scanFrom opts argv ⟨n, c :: cs⟩ =
    ((letters opts (c :: cs)).1 ++
        (scan opts (letters opts (c :: cs)).2 (argv.drop (n + 1))).1,
      (scan opts (letters opts (c :: cs)).2 (argv.drop (n + 1))).2) := rfl

/-- What a reading that begins with `i` and goes on from `q` comes to. -/
def Begins (opts : List Opt) (argv : List String) (i : Item) (q : Cursor)
    (r : List Item × State) : Prop :=
  r = (i :: (scanFrom opts argv q).1, (scanFrom opts argv q).2)

lemma separate_begins (h : separate argv n c = .item i q) :
    Begins opts argv i q (scan opts (.waiting c) (argv.drop n)) := by
  unfold separate at h
  split at h
  · cases h
  · rename_i word hword
    obtain ⟨hn, hget⟩ := List.getElem?_eq_some_iff.mp hword
    cases h
    rw [List.drop_eq_getElem_cons hn, hget, scan_cons]
    rfl

lemma nextLong_begins (h : nextLong opts argv n name value = .item i q) :
    Begins opts argv i q ((longOption opts name value).1 ++
        (scan opts (longOption opts name value).2 (argv.drop (n + 1))).1,
      (scan opts (longOption opts name value).2 (argv.drop (n + 1))).2) := by
  unfold nextLong at h
  unfold longOption
  cases hfind : findLong opts name with
  | none => simp [hfind] at h
  | some o =>
    cases value with
    | nil =>
      by_cases harg : o.hasArg = true
      · simp only [hfind, harg, if_true] at h ⊢
        exact separate_begins h
      · simp only [hfind, harg] at h ⊢
        cases h
        rfl
    | cons _ value =>
      by_cases harg : o.hasArg = true
      · simp only [hfind, harg, if_true] at h ⊢
        cases h
        rfl
      · simp [hfind, harg] at h

lemma nextLetter_begins (h : nextLetter opts argv n c cs = .item i q) :
    Begins opts argv i q (scanFrom opts argv ⟨n, c :: cs⟩) := by
  rw [scanFrom_letters]
  unfold nextLetter at h
  unfold letters
  cases hfind : opts.find? fun o => o.val = c with
  | none => simp [hfind] at h
  | some o =>
    by_cases harg : o.hasArg = true
    · by_cases hcs : cs = []
      · simp only [hfind, harg, hcs, if_true] at h ⊢
        exact separate_begins h
      · simp only [hfind, harg, hcs, if_true, if_false] at h ⊢
        cases h
        rfl
    · simp only [hfind, harg] at h ⊢
      cases h
      cases cs with
      | nil => rfl
      | cons d ds => rfl

/-- A word is a long option or `--`, a cluster of letters, or is skipped. -/
lemma word_cases (opts : List Opt) (argv words : List String) (n : Nat) (word : String) :
    (∃ body, readWord opts word =
        (if body = [] then ([], .ended)
          else longOption opts (body.takeWhile (· ≠ '=')) (body.dropWhile (· ≠ '='))) ∧
      nextWord opts argv n (word :: words) =
        if body = [] then .done
        else nextLong opts argv n (body.takeWhile (· ≠ '=')) (body.dropWhile (· ≠ '='))) ∨
    (∃ c cs, readWord opts word = letters opts (c :: cs) ∧
      nextWord opts argv n (word :: words) = nextLetter opts argv n c cs) ∨
    readWord opts word = ([], .ready) ∧
      nextWord opts argv n (word :: words) = nextWord opts argv (n + 1) words := by
  by_cases hdash : word.toList.head? = some '-'
  · obtain ⟨tail, htail⟩ := List.head?_eq_some_iff.mp hdash
    unfold readWord
    rw [nextWord, htail]
    cases tail with
    | nil => exact .inr (.inr ⟨rfl, rfl⟩)
    | cons c cs =>
      by_cases hc : c = '-'
      · subst hc
        exact .inl ⟨cs, rfl, rfl⟩
      · refine .inr (.inl ⟨c, cs, ?_, ?_⟩)
        · split <;> simp_all
        · split <;> simp_all
  · refine .inr (.inr ⟨readWord_operand hdash, ?_⟩)
    rw [nextWord]
    split
    · rename_i heq
      simp [heq] at hdash
    · rename_i heq
      simp [heq] at hdash
    · rfl

lemma nextWord_begins (hwords : argv.drop n = words)
    (h : nextWord opts argv n words = .item i q) :
    Begins opts argv i q (scan opts .ready words) := by
  induction words generalizing n with
  | nil => cases h
  | cons word words ih =>
    obtain ⟨-, hdrop, -⟩ := size_drop_cons hwords
    rw [scan_cons]
    change Begins opts argv i q ((readWord opts word).1 ++
      (scan opts (readWord opts word).2 words).1, (scan opts (readWord opts word).2 words).2)
    rcases word_cases opts argv words n word with
      ⟨body, hread, hnext⟩ | ⟨c, cs, hread, hnext⟩ | ⟨hread, hnext⟩
    · rw [hnext] at h
      rw [hread]
      split at h
      · cases h
      · rename_i hbody
        rw [if_neg hbody, ← hdrop]
        exact nextLong_begins h
    · rw [hnext] at h
      rw [hread, ← hdrop]
      exact nextLetter_begins h
    · rw [hnext] at h
      rw [hread]
      exact ih hdrop h

/-- An option that is read is the first of the options that are left. -/
lemma scanFrom_item (h : getoptLong opts argv p = .item i q) :
    scanFrom opts argv p = (i :: (scanFrom opts argv q).1, (scanFrom opts argv q).2) := by
  obtain ⟨n, rest⟩ := p
  cases rest with
  | nil => exact nextWord_begins rfl h
  | cons c cs => exact nextLetter_begins h

lemma separate_ne_done : separate argv n c ≠ .done := by
  unfold separate
  split <;> simp

lemma nextLong_ne_done : nextLong opts argv n name value ≠ .done := by
  unfold nextLong
  split
  · simp
  · split
    · exact separate_ne_done
    · simp
  · split <;> simp

lemma nextLetter_ne_done : nextLetter opts argv n c cs ≠ .done := by
  unfold nextLetter
  split
  · simp
  · split
    · split
      · exact separate_ne_done
      · simp
    · simp

lemma nextWord_done (h : nextWord opts argv n words = .done) :
    (scan opts .ready words).2.complete = true := by
  induction words generalizing n with
  | nil => rfl
  | cons word words ih =>
    rw [scan_cons]
    change (scan opts (readWord opts word).2 words).2.complete = true
    rcases word_cases opts argv words n word with
      ⟨body, hread, hnext⟩ | ⟨c, cs, hread, hnext⟩ | ⟨hread, hnext⟩
    · rw [hnext] at h
      rw [hread]
      split at h
      · rename_i hbody
        rw [if_pos hbody, scan_ended]
        rfl
      · exact absurd h nextLong_ne_done
    · rw [hnext] at h
      exact absurd h nextLetter_ne_done
    · rw [hnext] at h
      rw [hread]
      exact ih h

/-- When there is no option left, no value is missing and no word was wrong. -/
lemma scanFrom_done (h : getoptLong opts argv p = .done) :
    (scanFrom opts argv p).2.complete = true := by
  obtain ⟨n, rest⟩ := p
  cases rest with
  | nil => exact nextWord_done h
  | cons c cs => exact absurd h nextLetter_ne_done

/-- Reading on does not change what the whole reading ends in. -/
lemma Path.scanFrom (h : Path opts argv P p q) :
    (scanFrom opts argv p).2 = (scanFrom opts argv q).2 := by
  induction h with
  | refl => rfl
  | tail _ hitem ih =>
    obtain ⟨i, hi, -⟩ := hitem
    rw [ih, scanFrom_item hi]

end Scan

end Getopt
