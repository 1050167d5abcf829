import NoZapret.QuicSwitch

/-!
# Words taken out of the user's arguments

The loop of `getStrategyArgs` takes two spellings of the fake-SNI option out wherever they stand,
each with the next word unless that begins with a dash; the switch for QUIC takes its own option
out, or puts it in. What the engine reads in the words that are left is compared here with what
it reads in all of them, word by word.
-/

namespace SniOverride

open Getopt Options Strategies QuicSwitch

/-- The options that neither the override nor the switch is about. -/
def rest (items : List Item) : List Item := items.filter fun i => i.val ≠ 'n' && i.val ≠ 'J'

/-- A word that is taken out wherever it stands. -/
def cut (enableQuic : Bool) (word : String) : Bool :=
  isSniOption word || (enableQuic && word == flag)

/-- As an option this word says nothing, or only that QUIC is blocked. -/
def Silent (word : String) : Prop :=
  (readWord options word).2 = .ready ∧ rest (readWord options word).1 = [] ∧
    ∀ i ∈ (readWord options word).1, i.val ≠ 'n'

/-- Arguments in which the fake SNI is spelled as `getStrategyArgs` knows it, by options whose
value goes with them or says nothing, and in which no other option has a word for its value
that is taken out. -/
inductive Plain (enableQuic : Bool) : List String → Prop where
  | nil : Plain enableQuic []
  | sni {word value : String} {words : List String} (hw : isSniOption word = true)
      (hv : startsWith value "-" = false ∨ cut enableQuic value = true ∨ Silent value)
      (h : Plain enableQuic words) : Plain enableQuic (word :: value :: words)
  | word {word : String} {words : List String} (hw : isSniOption word = false)
      (hread : (readWord options word).2 = .ready)
      (hitems : ∀ i ∈ (readWord options word).1, i.val ≠ 'n')
      (h : Plain enableQuic words) : Plain enableQuic (word :: words)
  | value {word value : String} {words : List String} {c : Char}
      (hw : isSniOption word = false) (hread : (readWord options word).2 = .waiting c)
      (hitems : ∀ i ∈ (readWord options word).1, i.val ≠ 'n') (hc : c ≠ 'n')
      (hv : cut enableQuic value = false) (h : Plain enableQuic words) :
      Plain enableQuic (word :: value :: words)

/-- What is left of the words: `behind` says that the last word that was not the flag is a
fake-SNI option, so that the next word goes too unless it begins with a dash. -/
inductive Cuts (enableQuic : Bool) : Bool → List String → List String → Prop where
  | nil {behind : Bool} {tail : List String}
      (h : tail = [] ∨ tail = [flag] ∧ enableQuic = false) : Cuts enableQuic behind [] tail
  | keep {behind : Bool} {word : String} {ys xs : List String}
      (hw : cut enableQuic word = false) (hdash : behind = true → startsWith word "-" = true)
      (h : Cuts enableQuic false ys xs) : Cuts enableQuic behind (word :: ys) (word :: xs)
  | sni {behind : Bool} {word : String} {ys xs : List String} (hw : isSniOption word = true)
      (h : Cuts enableQuic true ys xs) : Cuts enableQuic behind (word :: ys) xs
  | switch {behind : Bool} {ys xs : List String} (hq : enableQuic = true)
      (h : Cuts enableQuic behind ys xs) : Cuts enableQuic behind (flag :: ys) xs
  | operand {word : String} {ys xs : List String} (hw : startsWith word "-" = false)
      (h : Cuts enableQuic false ys xs) : Cuts enableQuic true (word :: ys) xs

section Stripping

variable {q behind : Bool} {words ys xs : List String} {word : String}

/-- The words that the loop of `getStrategyArgs` goes through, but for a flag put behind them. -/
def unswitched (q : Bool) (words : List String) : List String :=
  if q then words.filter (· ≠ flag) else words

lemma unswitched_cons : unswitched q (word :: words) =
    if q && word == flag then unswitched q words else word :: unswitched q words := by
  unfold unswitched
  cases q with
  | false => rfl
  | true => by_cases hw : word = flag <;> simp [hw]

lemma strip_cuts {tail : List String} (htail : tail = [] ∨ tail = [flag] ∧ q = false)
    (words : List String) :
    Cuts q false words (stripFakeSni (unswitched q words) ++ tail) ∧
      ∀ word, isSniOption word = true →
        Cuts q true words (stripFakeSni (word :: unswitched q words) ++ tail) := by
  induction words with
  | nil =>
    have hnil : unswitched q [] = [] := by
      cases q <;> rfl
    rw [hnil]
    refine ⟨.nil htail, ?_⟩
    intro word hw
    rw [stripFakeSni, if_pos hw]
    exact .nil htail
  | cons next words ih =>
    obtain ⟨ih, ihSni⟩ := ih
    rw [unswitched_cons]
    by_cases hflag : (q && next == flag) = true
    · rw [if_pos hflag]
      simp only [Bool.and_eq_true, beq_iff_eq] at hflag
      obtain ⟨hq, rfl⟩ := hflag
      exact ⟨.switch hq ih, fun word hw => .switch hq (ihSni word hw)⟩
    · rw [if_neg hflag]
      rw [Bool.not_eq_true] at hflag
      by_cases hnext : isSniOption next = true
      · refine ⟨.sni hnext (ihSni next hnext), ?_⟩
        intro word hw
        rw [strip_sni hw, if_pos (isSniOption_dash hnext)]
        exact .sni hnext (ihSni next hnext)
      · rw [Bool.not_eq_true] at hnext
        have hcut : cut q next = false := by
          simp only [cut, hnext, hflag, Bool.or_self]
        rw [strip_plain hnext, List.cons_append]
        refine ⟨.keep hcut (fun h => by cases h) ih, ?_⟩
        intro word hw
        rw [strip_sni hw]
        by_cases hdash : startsWith next "-" = true
        · rw [if_pos hdash, strip_plain hnext, List.cons_append]
          exact .keep hcut (fun _ => hdash) ih
        · rw [if_neg hdash]
          exact .operand (by simpa using hdash) ih

/-- What the loop leaves of the user's words, the switch's flag included. -/
lemma cuts_args (words : List String) :
    Cuts q false words (stripFakeSni (quicArgs q words)) := by
  cases q with
  | true =>
    have hcuts := (strip_cuts (q := true) (.inl rfl) words).1
    rw [List.append_nil] at hcuts
    rw [quicArgs_true]
    exact hcuts
  | false =>
    by_cases hmem : flag ∈ words
    · have hcuts := (strip_cuts (q := false) (.inl rfl) words).1
      rw [List.append_nil] at hcuts
      have hquic : quicArgs false words = words := by
        simpa [quicArgs, flag] using hmem
      rw [hquic]
      exact hcuts
    · have hquic : quicArgs false words = words ++ [flag] := by
        simpa [quicArgs, flag] using hmem
      rw [hquic, strip_append_flag]
      exact (strip_cuts (.inr ⟨rfl, rfl⟩) words).1

end Stripping

section Reading

variable {s : State} {items is : List Item} {words ys xs : List String} {word value : String}
  {c : Char}

@[simp] lemma rest_nil : rest [] = [] := rfl

@[simp] lemma rest_append (items is : List Item) : rest (items ++ is) = rest items ++ rest is :=
  List.filter_append items is

lemma rest_value (hn : c ≠ 'n') (hJ : c ≠ 'J') : rest (⟨c, some value⟩ :: items) =
    ⟨c, some value⟩ :: rest items := by
  simp [rest, hn, hJ]

lemma rest_sni : rest (⟨'n', some value⟩ :: items) = rest items := by
  simp [rest]

/-- No fake SNI is read and an option may stand behind the words. -/
def Quiet (s : State) (words : List String) : Prop :=
  (∀ i ∈ (scan options s words).1, i.val ≠ 'n') ∧ (scan options s words).2 = .ready

lemma quiet_cons : Quiet s (word :: words) ↔
    (∀ i ∈ (readNext options s word).1, i.val ≠ 'n') ∧
      Quiet (readNext options s word).2 words := by
  unfold Quiet
  rw [scan_cons]
  constructor
  · rintro ⟨hitems, hend⟩
    exact ⟨fun i hi => hitems i (List.mem_append_left _ hi),
      fun i hi => hitems i (List.mem_append_right _ hi), hend⟩
  · rintro ⟨hfirst, hitems, hend⟩
    refine ⟨?_, hend⟩
    intro i hi
    rcases List.mem_append.mp hi with hi | hi
    · exact hfirst i hi
    · exact hitems i hi

lemma not_quiet_ended : ¬ Quiet .ended words := by
  rintro ⟨-, hend⟩
  rw [scan_ended] at hend
  cases hend

lemma not_quiet_failed : ¬ Quiet .failed words := by
  rintro ⟨-, hend⟩
  rw [scan_failed] at hend
  cases hend

/-- A fake-SNI option that waits for its value gets one or waits on. -/
lemma not_quiet_sni : ¬ Quiet (.waiting 'n') words := by
  cases words with
  | nil =>
    rintro ⟨-, hend⟩
    cases hend
  | cons word words =>
    rw [quiet_cons]
    rintro ⟨hitems, -⟩
    exact hitems ⟨'n', some word⟩ List.mem_cons_self rfl

lemma Quiet.waiting (h : Quiet (.waiting c) words) :
    c ≠ 'n' ∧ ∃ word rest, words = word :: rest ∧ Quiet .ready rest := by
  constructor
  · rintro rfl
    exact not_quiet_sni h
  · cases words with
    | nil => cases h.2
    | cons word words => exact ⟨word, words, rfl, (quiet_cons.mp h).2⟩

lemma readWord_sni (hw : isSniOption word = true) :
    readWord options word = ([], .waiting 'n') := by
  simp only [isSniOption, Bool.or_eq_true, beq_iff_eq] at hw
  rcases hw with rfl | rfl <;> decide

lemma readWord_plain (hw : startsWith word "-" = false) :
    readWord options word = ([], .ready) := by
  have hopen : ∀ c, State.ready ≠ .waiting c := fun c h => by cases h
  exact readNext_operand hopen hw

/-- Only `--` ends the options, and it is none itself. -/
lemma readWord_ended (h : readWord options word = (items, .ended)) : items = [] := by
  unfold readWord at h
  split at h
  · split at h
    · cases h
      rfl
    · unfold longOption at h
      split at h
      · cases h
      · split at h <;> cases h
      · split at h <;> cases h
  · rename_i c cs _
    have hletters : ∀ cs, (letters options cs).2 ≠ .ended := by
      intro cs
      induction cs with
      | nil => exact State.noConfusion
      | cons d ds ih =>
        unfold letters
        split
        · exact State.noConfusion
        · split
          · split <;> exact State.noConfusion
          · exact ih
    exact absurd (congrArg Prod.snd h) (hletters _)
  · cases h

lemma readWord_waiting_ne (h : readWord options word = (items, .waiting c)) : c ≠ 'J' := by
  rintro rfl
  exact readNext_ne ready_ne (congrArg Prod.snd h)

lemma rest_subset {i : Item} (h : i ∈ rest items) : i ∈ items := List.mem_of_mem_filter h

lemma not_sni {q : Bool} (h : cut q word = false) : isSniOption word = false := by
  simp only [cut, Bool.or_eq_false_iff] at h
  exact h.1

lemma plain_not_sni (h : startsWith word "-" = false) : isSniOption word = false := by
  rw [← Bool.not_eq_true]
  intro hsni
  rw [isSniOption_dash hsni] at h
  cases h

/-- No word that is left is one that is taken out. -/
lemma Cuts.mem {q behind : Bool} (h : Cuts q behind ys xs) (hw : word ∈ xs) :
    cut q word = false := by
  induction h with
  | nil htail =>
    rcases htail with rfl | ⟨rfl, rfl⟩
    · cases hw
    · rw [List.mem_singleton.mp hw]
      decide
  | keep hcut _ _ ih =>
    rcases List.mem_cons.mp hw with rfl | hw
    · exact hcut
    · exact ih hw
  | sni _ _ ih => exact ih hw
  | switch _ _ ih => exact ih hw
  | operand _ _ ih => exact ih hw

/-- What becomes of a word: it stays, or it is a fake-SNI option, or it says nothing that counts
and is the flag or a value. -/
lemma Cuts.next {q behind : Bool} (hread : readWord options word = (items, s))
    (h : Cuts q behind (word :: ys) xs) :
    (∃ zs, xs = word :: zs ∧ cut q word = false ∧
      (behind = true → startsWith word "-" = true) ∧ Cuts q false ys zs) ∨
    (isSniOption word = true ∧ items = [] ∧ s = .waiting 'n' ∧ Cuts q true ys xs) ∨
    (isSniOption word = false ∧ s = .ready ∧ rest items = [] ∧ (∀ i ∈ items, i.val ≠ 'n') ∧
      ∃ behind, Cuts q behind ys xs) := by
  cases h with
  | keep hw hdash hcuts => exact .inl ⟨_, rfl, hw, hdash, hcuts⟩
  | sni hw hcuts =>
    rw [readWord_sni hw] at hread
    cases hread
    exact .inr (.inl ⟨hw, rfl, rfl, hcuts⟩)
  | switch _ hcuts =>
    rw [readWord_flag] at hread
    cases hread
    exact .inr (.inr ⟨by decide, rfl, by decide, by decide, behind, hcuts⟩)
  | operand hw hcuts =>
    rw [readWord_plain hw] at hread
    cases hread
    exact .inr (.inr ⟨plain_not_sni hw, rfl, rfl, by simp, false, hcuts⟩)

/-- What becomes of the word behind one that stays. -/
lemma Cuts.behind_kept {q : Bool} (h : Cuts q false (word :: ys) xs) :
    (∃ zs, xs = word :: zs ∧ cut q word = false ∧ Cuts q false ys zs) ∨
    (cut q word = true ∧ ∃ behind, Cuts q behind ys xs) := by
  cases h with
  | keep hw _ hcuts => exact .inl ⟨_, rfl, hw, hcuts⟩
  | sni hw hcuts => exact .inr ⟨by simp [cut, hw], true, hcuts⟩
  | switch hq hcuts => exact .inr ⟨by simp [cut, hq], false, hcuts⟩

end Reading

section Ahead

variable {α : Type} {a u z s : List α}

lemma drop_front (h : a ++ u = z ++ s) (hle : a.length ≤ z.length) :
    ∃ z', z'.length + a.length = z.length ∧ u = z' ++ s := by
  rcases List.append_eq_append_iff.mp h with ⟨z', rfl, rfl⟩ | ⟨a', rfl, rfl⟩
  · exact ⟨z', by rw [List.length_append]; omega, rfl⟩
  · rw [List.length_append] at hle
    have ha' : a' = [] := List.length_eq_zero_iff.mp (by omega)
    subst ha'
    exact ⟨[], by simp, rfl⟩

/-- Who is ahead stays ahead when both go on alike. -/
lemma cancel_front (h : a ++ u = z ++ (a ++ s)) (hz : z ≠ []) :
    ∃ z', z' ≠ [] ∧ u = z' ++ s := by
  rw [← List.append_assoc] at h
  obtain ⟨z', hlen, hu⟩ := drop_front h (by simp)
  refine ⟨z', ?_, hu⟩
  rintro rfl
  simp only [List.length_nil, List.length_append] at hlen
  exact hz (List.length_eq_zero_iff.mp (by omega))

/-- Who has something that the other has not got to is ahead. -/
lemma ahead_of_not_mem {x : α} (h : a ++ u = z ++ x :: s) (hx : x ∉ a) :
    a.length ≤ z.length ∧ ∃ z', z' ≠ [] ∧ u = z' ++ s := by
  have hle : a.length ≤ z.length := by
    by_contra hlt
    rcases List.append_eq_append_iff.mp h with ⟨z', rfl, -⟩ | ⟨a', rfl, hs⟩
    · exact hlt (by simp)
    · cases a' with
      | nil => exact hlt (by simp)
      | cons y a' =>
        rw [List.cons_append] at hs
        obtain ⟨rfl, -⟩ := List.cons.inj hs
        exact hx (by simp)
  refine ⟨hle, ?_⟩
  rw [← List.singleton_append, ← List.append_assoc] at h
  obtain ⟨z', hlen, hu⟩ := drop_front h (by rw [List.length_append]; omega)
  refine ⟨z', ?_, hu⟩
  rintro rfl
  simp at hlen
  omega

end Ahead

section Parted

variable {q behind : Bool} {s : State} {items is zs : List Item} {words ys xs : List String}
  {word value : String} {c d : Char}

lemma scan_word (h : readWord options word = (items, s)) :
    (scan options .ready (word :: xs)).1 = items ++ (scan options s xs).1 := by
  rw [scan_cons]
  change (readWord options word).1 ++ (scan options (readWord options word).2 xs).1 = _
  rw [h]

lemma scan_value : (scan options (.waiting c) (value :: xs)).1 =
    ⟨c, some value⟩ :: (scan options .ready xs).1 := rfl

lemma quiet_word (h : readWord options word = (items, s)) (hquiet : Quiet .ready (word :: xs)) :
    (∀ i ∈ items, i.val ≠ 'n') ∧ Quiet s xs := by
  rw [quiet_cons] at hquiet
  change (∀ i ∈ (readWord options word).1, i.val ≠ 'n') ∧ Quiet (readWord options word).2 xs
    at hquiet
  rw [h] at hquiet
  exact hquiet

/-- Whoever reads what is left of the words, and has read something more or waits for a value,
does not come to read what the user's words say. -/
def NeverMeets (items : List Item) (xs : List String) : Prop :=
  (∀ zs, zs ≠ [] → Quiet .ready xs → rest items ≠ zs ++ rest (scan options .ready xs).1) ∧
    ∀ c zs, c ≠ 'J' → Quiet (.waiting c) xs →
      rest items ≠ zs ++ rest (scan options (.waiting c) xs).1

/-- One word more, which is a value or nothing in the user's words. -/
lemma NeverMeets.read (h : NeverMeets is xs) (hquiet : Quiet .ready (value :: xs))
    (hmore : zs ≠ [] ∨ (readWord options value).2 ≠ .ready ∨
      rest (readWord options value).1 ≠ []) :
    rest is ≠ zs ++ rest (scan options .ready (value :: xs)).1 := by
  intro heq
  cases hread : readWord options value with
  | mk items s =>
    obtain ⟨-, hquiet⟩ := quiet_word hread hquiet
    rw [scan_word hread, rest_append, ← List.append_assoc] at heq
    rw [hread] at hmore
    cases s with
    | ready =>
      refine h.1 _ ?_ hquiet heq
      rcases hmore with hzs | hstate | hitems
      · simp [hzs]
      · exact absurd rfl hstate
      · simp [hitems]
    | waiting c => exact h.2 c _ (readWord_waiting_ne hread) hquiet heq
    | ended => exact not_quiet_ended hquiet
    | failed => exact not_quiet_failed hquiet

lemma rest_unit : rest (items ++ ⟨d, some value⟩ :: is) =
    (rest items ++ rest [⟨d, some value⟩]) ++ rest is := by
  rw [← List.singleton_append, ← List.append_assoc, rest_append, rest_append]

lemma not_mem_rest (hread : readWord options word = (items, s)) :
    (⟨c, some word⟩ : Item) ∉ rest items := by
  intro hmem
  have hitem : (⟨c, some word⟩ : Item) ∈ (readWord options word).1 := by
    rw [hread]
    exact rest_subset hmem
  exact readWord_arg hitem rfl

lemma not_mem_unit (hread : readWord options word = (items, s)) (hne : value ≠ word) :
    (⟨c, some word⟩ : Item) ∉ rest items ++ rest [⟨d, some value⟩] := by
  intro hmem
  rcases List.mem_append.mp hmem with hmem | hmem
  · exact not_mem_rest hread hmem
  · have hitem := List.mem_singleton.mp (rest_subset hmem)
    simp only [Item.mk.injEq, Option.some.injEq] at hitem
    exact hne hitem.2.symm

lemma rest_length_le (items : List Item) : (rest items).length ≤ items.length :=
  List.length_filter_le _ items

lemma neverMeets_nil (hcuts : Cuts q behind [] xs) : NeverMeets [] xs := by
  constructor
  · intro zs hzs _ heq
    exact hzs (List.append_eq_nil_iff.mp heq.symm).1
  · intro c zs hc hquiet heq
    obtain ⟨hn, word, xs, rfl, -⟩ := hquiet.waiting
    rw [scan_value, rest_value hn hc] at heq
    simp at heq

/-- A word that is an option, or several, and leaves no value open. -/
lemma neverMeets_word (hread : readWord options word = (items, .ready))
    (ih : ∀ {behind : Bool} {xs : List String}, Cuts q behind ys xs → NeverMeets is xs)
    (hcuts : Cuts q behind (word :: ys) xs) : NeverMeets (items ++ is) xs := by
  rcases hcuts.next hread with ⟨xs, rfl, -, -, hcuts⟩ | ⟨-, -, hs, -⟩ |
    ⟨-, -, hrest, -, behind, hcuts⟩
  · constructor
    · intro zs hzs hquiet heq
      rw [scan_word hread, rest_append, rest_append] at heq
      obtain ⟨zs', hzs', hrest⟩ := cancel_front heq hzs
      exact (ih hcuts).1 zs' hzs' (quiet_word hread hquiet).2 hrest
    · intro c zs hc hquiet heq
      obtain ⟨hn, w, xs, hxs, hquiet⟩ := hquiet.waiting
      cases hxs
      rw [scan_value, rest_value hn hc, rest_append] at heq
      obtain ⟨-, zs', hzs', hrest⟩ := ahead_of_not_mem heq (not_mem_rest hread)
      exact (ih hcuts).1 zs' hzs' hquiet hrest
  · cases hs
  · unfold NeverMeets
    rw [rest_append, hrest, List.nil_append]
    exact ih hcuts

/-- A fake-SNI option that is taken out. -/
lemma neverMeets_sni (ih : ∀ {behind : Bool} {xs : List String},
      Cuts q behind ys xs → NeverMeets is xs)
    (hcuts : Cuts q true (value :: ys) xs) : NeverMeets (⟨'n', some value⟩ :: is) xs := by
  unfold NeverMeets
  rw [rest_sni]
  cases hcuts with
  | keep hw hdash hcuts =>
    constructor
    · intro zs hzs hquiet
      exact (ih hcuts).read hquiet (.inl hzs)
    · intro c zs hc hquiet heq
      obtain ⟨hn, w, xs, hxs, hquiet⟩ := hquiet.waiting
      cases hxs
      rw [scan_value, rest_value hn hc, ← List.singleton_append, ← List.append_assoc] at heq
      exact (ih hcuts).1 _ (by simp) hquiet heq
  | sni _ hcuts => exact ih hcuts
  | switch _ hcuts => exact ih hcuts
  | operand _ hcuts => exact ih hcuts

/-- An option that stays, with a value in the next word. -/
lemma neverMeets_value (hread : readWord options word = (items, .waiting d))
    (hw : cut q word = false)
    (ih : ∀ {behind : Bool} {xs : List String}, Cuts q behind ys xs → NeverMeets is xs)
    (hcuts : Cuts q false (value :: ys) xs) :
    NeverMeets (items ++ ⟨d, some value⟩ :: is) (word :: xs) := by
  have hJ := readWord_waiting_ne hread
  unfold NeverMeets
  rw [rest_unit]
  rcases hcuts.behind_kept with ⟨xs, rfl, -, hcuts⟩ | ⟨hv, behind, hcuts⟩
  · constructor
    · intro zs hzs hquiet heq
      have hquiet' := (quiet_word hread hquiet).2
      rw [scan_word hread, scan_value, rest_unit] at heq
      obtain ⟨zs', hzs', hrest⟩ := cancel_front heq hzs
      exact (ih hcuts).1 zs' hzs' (quiet_cons.mp hquiet').2 hrest
    · intro c zs hc hquiet heq
      obtain ⟨hn, w, xs, hxs, hquiet⟩ := hquiet.waiting
      cases hxs
      rw [scan_value, rest_value hn hc] at heq
      by_cases hsame : value = word
      -- the value says again what the option said, and waits again
      · rw [List.append_assoc] at heq
        obtain ⟨hle, -⟩ := ahead_of_not_mem heq (not_mem_rest hread)
        rw [← List.append_assoc, List.append_cons zs] at heq
        obtain ⟨zs', -, hrest⟩ := drop_front heq (by
          rw [List.length_append, List.length_append]
          exact Nat.add_le_add hle (rest_length_le _))
        refine (ih hcuts).read hquiet (.inr (.inl ?_)) hrest
        rw [hsame, hread]
        exact State.noConfusion
      · obtain ⟨-, zs', hzs', hrest⟩ := ahead_of_not_mem heq (not_mem_unit hread hsame)
        exact (ih hcuts).read hquiet (.inl hzs') hrest
  · constructor
    · intro zs hzs hquiet heq
      rw [scan_word hread, rest_append, ← List.append_assoc zs] at heq
      obtain ⟨zs', -, hrest⟩ := drop_front heq (by
        have hone := rest_length_le [(⟨d, some value⟩ : Item)]
        have hzs := List.length_pos_iff.mpr hzs
        simp only [List.length_append, List.length_singleton] at hone ⊢
        omega)
      exact (ih hcuts).2 d zs' hJ (quiet_word hread hquiet).2 hrest
    · intro c zs hc hquiet heq
      obtain ⟨hn, w, xs, hxs, hquiet⟩ := hquiet.waiting
      cases hxs
      have hne : value ≠ word := by
        rintro rfl
        rw [hv] at hw
        cases hw
      rw [scan_value, rest_value hn hc] at heq
      obtain ⟨-, zs', hzs', hrest⟩ := ahead_of_not_mem heq (not_mem_unit hread hne)
      exact (ih hcuts).1 zs' hzs' hquiet hrest

lemma neverMeets (hreads : Reads options ys items) :
    ∀ {behind : Bool} {xs : List String}, Cuts q behind ys xs → NeverMeets items xs := by
  induction hreads with
  | nil => exact fun hcuts => neverMeets_nil hcuts
  | word hread _ ih => exact fun hcuts => neverMeets_word hread ih hcuts
  | value hread _ ih =>
    intro behind xs hcuts
    rcases hcuts.next hread with ⟨xs, rfl, hw, -, hcuts⟩ | ⟨-, rfl, hs, hcuts⟩ | ⟨-, hs, -⟩
    · exact neverMeets_value hread hw ih hcuts
    · cases hs
      exact neverMeets_sni ih hcuts
    · cases hs
  | ended hread =>
    intro behind xs hcuts
    have hnil := readWord_ended hread
    subst hnil
    rcases hcuts.next hread with ⟨xs, rfl, -, -, -⟩ | ⟨-, -, hs, -⟩ | ⟨-, hs, -⟩
    · constructor
      · intro zs hzs hquiet _
        exact not_quiet_ended (quiet_word hread hquiet).2
      · intro c zs hc hquiet heq
        obtain ⟨hn, w, xs, hxs, -⟩ := hquiet.waiting
        cases hxs
        rw [scan_value, rest_value hn hc] at heq
        simp at heq
    · cases hs
    · cases hs

/-- Where an option that stays loses its value, another word becomes its value. -/
lemma value_kept (hread : readWord options word = (items, .waiting d))
    (hv : cut q value = true) (hcuts : Cuts q behind ys xs)
    (hquiet : Quiet .ready (word :: xs)) :
    rest (items ++ ⟨d, some value⟩ :: is) ≠ rest (scan options .ready (word :: xs)).1 := by
  intro heq
  have hJ := readWord_waiting_ne hread
  obtain ⟨hn, w, xs, rfl, -⟩ := (quiet_word hread hquiet).2.waiting
  rw [scan_word hread, scan_value, rest_append, rest_append, rest_value hn hJ, rest_value hn hJ]
    at heq
  have hw := hcuts.mem List.mem_cons_self
  simp only [List.append_cancel_left_eq, List.cons.injEq, Item.mk.injEq, Option.some.injEq,
    true_and] at heq
  rw [← heq.1, hv] at hw
  cases hw

/-- If what is left says what the user's words say, without a fake SNI, they are plain. -/
lemma plain_of_quiet (hreads : Reads options ys items) :
    ∀ {behind : Bool} {xs : List String}, Cuts q behind ys xs → Quiet .ready xs →
      rest items = rest (scan options .ready xs).1 → Plain q ys := by
  induction hreads with
  | nil => exact fun _ _ _ => .nil
  | @word word words items is hread hreads ih =>
    have hready : (readWord options word).2 = .ready := by
      rw [hread]
    intro behind xs hcuts hquiet heq
    rcases hcuts.next hread with ⟨xs, rfl, hw, -, hcuts⟩ | ⟨-, -, hs, -⟩ |
      ⟨hw, -, hrest, hitems, behind, hcuts⟩
    · obtain ⟨hitems, hquiet⟩ := quiet_word hread hquiet
      rw [scan_word hread, rest_append, rest_append, List.append_cancel_left_eq] at heq
      refine .word (not_sni hw) hready ?_ (ih hcuts hquiet heq)
      rwa [hread]
    · cases hs
    · rw [rest_append, hrest, List.nil_append] at heq
      refine .word hw hready ?_ (ih hcuts hquiet heq)
      rwa [hread]
  | @value word value words items is d hread hreads ih =>
    intro behind xs hcuts hquiet heq
    rcases hcuts.next hread with ⟨xs, rfl, hw, -, hcuts⟩ | ⟨hw, rfl, hs, hsni⟩ | ⟨-, hs, -⟩
    · have hitems := (quiet_word hread hquiet).1
      rcases hcuts.behind_kept with ⟨xs, rfl, hv, hcuts⟩ | ⟨hv, behind, hcuts⟩
      · obtain ⟨hn, w, xs, hxs, hquiet⟩ := (quiet_word hread hquiet).2.waiting
        cases hxs
        rw [scan_word hread, scan_value, rest_unit, rest_unit, List.append_cancel_left_eq] at heq
        refine .value (not_sni hw) ?_ ?_ hn hv (ih hcuts hquiet heq)
        · rw [hread]
        · rwa [hread]
      · exact absurd heq (value_kept hread hv hcuts hquiet)
    · cases hs
      rw [List.nil_append, rest_sni] at heq
      cases hsni with
      | keep hv hdash hleft =>
        have hsilent : (readWord options value).2 = .ready ∧
            rest (readWord options value).1 = [] := by
          by_contra hmore
          rw [not_and_or] at hmore
          have hnever : ([] : List Item) ≠ [] ∨ (readWord options value).2 ≠ .ready ∨
              rest (readWord options value).1 ≠ [] := .inr hmore
          exact (neverMeets hreads hleft).read hquiet hnever heq
        have hread : readWord options value = ((readWord options value).1, .ready) := by
          rw [← hsilent.1]
        obtain ⟨hitems, hquiet⟩ := quiet_word hread hquiet
        rw [scan_word hread, rest_append, hsilent.2, List.nil_append] at heq
        exact .sni hw (.inr (.inr ⟨hsilent.1, hsilent.2, hitems⟩)) (ih hleft hquiet heq)
      | sni hv hleft =>
        exact .sni hw (.inr (.inl (by simp [cut, hv]))) (ih hleft hquiet heq)
      | switch hq hleft =>
        exact .sni hw (.inr (.inl (by simp [cut, hq]))) (ih hleft hquiet heq)
      | operand hv hleft => exact .sni hw (.inl hv) (ih hleft hquiet heq)
    · cases hs
  | @ended word words items hread =>
    intro behind xs hcuts hquiet heq
    rcases hcuts.next hread with ⟨xs, rfl, -, -, -⟩ | ⟨-, -, hs, -⟩ | ⟨-, hs, -⟩
    · exact absurd (quiet_word hread hquiet).2 not_quiet_ended
    · cases hs
    · cases hs

/-- What is left of plain words says the same, without a fake SNI. -/
lemma quiet_of_plain (hplain : Plain q ys) :
    ∀ {behind : Bool} {xs : List String}, Cuts q behind ys xs → Quiet .ready xs ∧
      rest (scan options .ready xs).1 = rest (scan options .ready ys).1 := by
  induction hplain with
  | nil =>
    intro behind xs hcuts
    cases hcuts with
    | nil htail =>
      rcases htail with rfl | ⟨rfl, -⟩
      · exact ⟨⟨by simp, rfl⟩, rfl⟩
      · unfold Quiet
        decide
  | @sni word value words hw hv hplain ih =>
    intro behind xs hcuts
    have huser : (scan options .ready (word :: value :: words)).1 =
        ⟨'n', some value⟩ :: (scan options .ready words).1 := by
      rw [scan_word (readWord_sni hw), scan_value, List.nil_append]
    rw [huser, rest_sni]
    rcases hcuts.next (readWord_sni hw) with ⟨xs, rfl, hcut, -, -⟩ | ⟨-, -, -, hsni⟩ | ⟨-, hs, -⟩
    · rw [not_sni hcut] at hw
      cases hw
    · cases hsni with
      | keep hcut hdash hleft =>
        obtain ⟨hready, hrest, hitems⟩ : Silent value := by
          rcases hv with hv | hv | hv
          · rw [hdash rfl] at hv
            cases hv
          · rw [hcut] at hv
            cases hv
          · exact hv
        have hread : readWord options value = ((readWord options value).1, .ready) := by
          rw [← hready]
        obtain ⟨hquiet, heq⟩ := ih hleft
        rw [scan_word hread, rest_append, hrest, List.nil_append, quiet_cons]
        refine ⟨⟨hitems, ?_⟩, heq⟩
        change Quiet (readWord options value).2 _
        rw [hready]
        exact hquiet
      | sni _ hleft => exact ih hleft
      | switch _ hleft => exact ih hleft
      | operand _ hleft => exact ih hleft
    · cases hs
  | @word word words hw hready hitems hplain ih =>
    intro behind xs hcuts
    have hread : readWord options word = ((readWord options word).1, .ready) := by
      rw [← hready]
    rw [scan_word hread, rest_append]
    rcases hcuts.next hread with ⟨xs, rfl, -, -, hcuts⟩ | ⟨-, -, hs, -⟩ |
      ⟨-, -, hrest, -, behind, hcuts⟩
    · obtain ⟨hquiet, heq⟩ := ih hcuts
      rw [scan_word hread, rest_append, heq, quiet_cons]
      refine ⟨⟨hitems, ?_⟩, rfl⟩
      change Quiet (readWord options word).2 _
      rw [hready]
      exact hquiet
    · cases hs
    · rw [hrest, List.nil_append]
      exact ih hcuts
  | @value word value words c hw hstate hitems hc hv hplain ih =>
    intro behind xs hcuts
    have hread : readWord options word = ((readWord options word).1, .waiting c) := by
      rw [← hstate]
    rw [scan_word hread, scan_value, rest_unit]
    rcases hcuts.next hread with ⟨xs, rfl, -, -, hcuts⟩ | ⟨hsni, -⟩ | ⟨-, hs, -⟩
    · rcases hcuts.behind_kept with ⟨xs, rfl, -, hcuts⟩ | ⟨hcut, -⟩
      · obtain ⟨hquiet, heq⟩ := ih hcuts
        rw [scan_word hread, scan_value, rest_unit, heq, quiet_cons]
        refine ⟨⟨hitems, ?_⟩, rfl⟩
        change Quiet (readWord options word).2 _
        rw [hstate, quiet_cons]
        refine ⟨?_, hquiet⟩
        intro i hi
        rw [List.mem_singleton.mp hi]
        exact hc
      · rw [hcut] at hv
        cases hv
    · rw [hsni] at hw
      cases hw
    · cases hs

end Parted

end SniOverride
