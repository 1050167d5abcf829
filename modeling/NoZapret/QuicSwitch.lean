import NoZapret.Options
import NoZapret.Strategies

/-!
# What the QUIC switch does to the engine

`getStrategyArgs` takes every word `--block-quic` out, or puts one behind the
arguments that have none; `getopt_long` decides what such a word is: an option, the
value of the option before it, or nothing behind `--`. Other spellings of the
option are not words that `getStrategyArgs` looks for.
-/

namespace QuicSwitch

open Getopt Options Strategies

/-- What `getStrategyArgs` is asked for, apart from the switch. -/
structure Request where
  name : String
  customArgs : String
  fakeSni : Option String
  customStrategies : List CustomStrategy

def flag : String := "--block-quic"

namespace Request

def customStrat (r : Request) : Option CustomStrategy := findCustom r.customStrategies r.name

def base (r : Request) : List String :=
  baseArgs r.name r.customStrat ((r.customStrat.map (·.userArgs)).getD r.customArgs)

def activeFakeSni (r : Request) : Option String :=
  if supportsFakeSni r.name || r.customStrat.isSome then
    ((r.customStrat.bind (·.fakeSni)).or r.fakeSni).map trim
  else none

/-- The user's arguments, without those that a fake SNI replaces. -/
def own (r : Request) : List String :=
  if r.activeFakeSni.isSome then stripFakeSni r.base else r.base

/-- The fake SNI put behind them. -/
def added (r : Request) : List String :=
  match r.activeFakeSni with
  | none => []
  | some active => if active != "" then ["--fake-sni", active] else []

def args (r : Request) (enableQuic : Bool) : List String :=
  getStrategyArgs r.name r.customArgs r.fakeSni enableQuic r.customStrategies

end Request

/-- The words of `ys` that are left in `xs`: without the flags, and without words
in their place that do not look like options. -/
inductive Dropped : List String → List String → Prop where
  | nil : Dropped [] []
  | keep {w : String} {ys xs : List String} (hw : w ≠ flag) (h : Dropped ys xs) :
      Dropped (w :: ys) (w :: xs)
  | drop {ys xs : List String} (h : Dropped ys xs) : Dropped (flag :: ys) xs
  | operand {y : String} {ys xs : List String} (hy : startsWith y "-" = false)
      (h : Dropped ys (y :: xs)) : Dropped (flag :: ys) xs

/-- The options read, except for the one that blocks QUIC. -/
def others (items : List Item) : List Item := items.filter fun item => !isBlockQuic item

def spells (w : String) : Bool := (readWord options w).1.any isBlockQuic

section Edits

variable {words ys xs : List String} {w : String}

lemma args_eq (r : Request) (enableQuic : Bool) :
    r.args enableQuic = (if r.activeFakeSni.isSome then stripFakeSni (quicArgs enableQuic r.base)
      else quicArgs enableQuic r.base) ++ r.added := by
  have hbase : getStrategyArgs r.name r.customArgs r.fakeSni enableQuic r.customStrategies =
      fakeSniArgs ((r.customStrat.bind (·.fakeSni)).or r.fakeSni)
        (supportsFakeSni r.name || r.customStrat.isSome) (quicArgs enableQuic r.base) := rfl
  unfold Request.args Request.added
  rw [hbase, Request.activeFakeSni]
  cases hsupported : supportsFakeSni r.name || r.customStrat.isSome with
  | false => cases hsni : ((r.customStrat.bind (·.fakeSni)).or r.fakeSni).map trim <;>
      simp [fakeSniArgs, hsni]
  | true => cases hsni : ((r.customStrat.bind (·.fakeSni)).or r.fakeSni).map trim <;>
      simp [fakeSniArgs, hsni]

lemma isSniOption_dash (h : isSniOption w = true) : startsWith w "-" = true := by
  simp only [isSniOption, Bool.or_eq_true, beq_iff_eq] at h
  rcases h with rfl | rfl <;> decide

lemma strip_plain (hw : isSniOption w = false) : stripFakeSni (w :: words) = w :: stripFakeSni words := by
  cases words with
  | nil => simp [stripFakeSni, hw]
  | cons next rest => simp [stripFakeSni, hw]

lemma filter_dropped (words : List String) : Dropped words (words.filter (· ≠ flag)) := by
  induction words with
  | nil => exact Dropped.nil
  | cons w words ih =>
    by_cases hw : w = flag
    · subst hw
      simpa using Dropped.drop ih
    · rw [List.filter_cons_of_pos (by simpa using hw)]
      exact Dropped.keep hw ih

lemma sni_ne_flag (hw : isSniOption w = true) : w ≠ flag := by
  rintro rfl
  exact absurd hw (by decide)

lemma strip_sni {next : String} (hw : isSniOption w = true) : stripFakeSni (w :: next :: words) =
    if startsWith next "-" then stripFakeSni (next :: words) else stripFakeSni words := by
  rw [stripFakeSni, if_pos hw]

/-- A fake-SNI option that loses the flag behind it takes the next word along. -/
lemma strip_dropped (words : List String) :
    Dropped (stripFakeSni words) (stripFakeSni (words.filter (· ≠ flag))) := by
  induction hlen : words.length using Nat.strongRecOn generalizing words with
  | ind n ih =>
  subst hlen
  rcases words with _ | ⟨w, words⟩
  · exact Dropped.nil
  have hrest := ih words.length (by simp) words rfl
  by_cases hw : isSniOption w = true
  · rw [List.filter_cons_of_pos (by simpa using sni_ne_flag hw)]
    rcases words with _ | ⟨next, rest⟩
    · simp [stripFakeSni, hw, Dropped.nil]
    rw [strip_sni hw]
    by_cases hdash : startsWith next "-" = true
    · rw [if_pos hdash]
      by_cases hnext : next = flag
      · subst hnext
        have hrest' := ih rest.length (by simp only [List.length_cons]; omega) rest rfl
        have hflag : isSniOption flag = false := by decide
        rw [List.filter_cons_of_neg (by simp), strip_plain hflag]
        rcases hleft : rest.filter (· ≠ flag) with _ | ⟨y, left⟩
        · rw [hleft] at hrest'
          simpa [stripFakeSni, hw] using Dropped.drop hrest'
        · rw [hleft] at hrest'
          rw [strip_sni hw]
          by_cases hy : startsWith y "-" = true
          · rw [if_pos hy]
            exact Dropped.drop hrest'
          · have hplain : isSniOption y = false := by
              by_contra hsni
              exact hy (isSniOption_dash (by simpa using hsni))
            rw [if_neg hy]
            rw [strip_plain hplain] at hrest'
            exact Dropped.operand (by simpa using hy) hrest'
      · rw [List.filter_cons_of_pos (by simpa using hnext), strip_sni hw, if_pos hdash]
        rwa [List.filter_cons_of_pos (by simpa using hnext)] at hrest
    · have hnext : next ≠ flag := by
        rintro rfl
        exact hdash (by decide)
      rw [if_neg hdash, List.filter_cons_of_pos (by simpa using hnext), strip_sni hw,
        if_neg hdash]
      exact ih rest.length (by simp only [List.length_cons]; omega) rest rfl
  · rw [strip_plain (by simpa using hw)]
    by_cases hflag : w = flag
    · subst hflag
      rw [List.filter_cons_of_neg (by simp)]
      exact Dropped.drop hrest
    · rw [List.filter_cons_of_pos (by simpa using hflag), strip_plain (by simpa using hw)]
      exact Dropped.keep hflag hrest

lemma Dropped.clean (h : Dropped ys xs) : flag ∉ xs := by
  induction h with
  | nil => simp
  | keep hw _ ih => simpa [Ne.symm hw] using ih
  | drop _ ih => exact ih
  | operand _ _ ih =>
    simp only [List.mem_cons, not_or] at ih
    exact ih.2

lemma quicArgs_true (words : List String) : quicArgs true words = words.filter (· ≠ flag) := by
  apply List.filter_congr
  intro w _
  rw [Bool.eq_iff_iff, bne_iff_ne, decide_eq_true_eq]
  rfl

/-- What is left of the user's arguments when the flags are taken out. -/
lemma own_dropped (r : Request) : ∃ xs, Dropped r.own xs ∧ r.args true = xs ++ r.added := by
  rw [args_eq, quicArgs_true]
  unfold Request.own
  cases r.activeFakeSni with
  | none => exact ⟨_, filter_dropped r.base, rfl⟩
  | some active => exact ⟨_, strip_dropped r.base, rfl⟩

lemma strip_append_flag (words : List String) :
    stripFakeSni (words ++ [flag]) = stripFakeSni words ++ [flag] := by
  induction words using stripFakeSni.induct with
  | case1 => decide
  | case2 arg harg =>
    have hdash : startsWith flag "-" = true := by decide
    have hflag : isSniOption flag = false := by decide
    rw [List.cons_append, List.nil_append, strip_sni harg, if_pos hdash, strip_plain hflag]
    simp [stripFakeSni, harg]
  | case3 arg harg =>
    have hflag : isSniOption flag = false := by decide
    rw [List.cons_append, strip_plain (by simpa using harg), strip_plain (by simpa using harg),
      List.nil_append, strip_plain hflag]
    rfl
  | case4 arg next rest harg hdash ih =>
    rwa [List.cons_append, List.cons_append, strip_sni harg, strip_sni harg, if_pos hdash,
      if_pos hdash]
  | case5 arg next rest harg hdash ih =>
    rwa [List.cons_append, List.cons_append, strip_sni harg, strip_sni harg, if_neg hdash,
      if_neg hdash]
  | case6 arg next rest harg ih =>
    have hplain : isSniOption arg = false := by
      simpa using harg
    rw [List.cons_append, strip_plain hplain, strip_plain hplain, ih, List.cons_append]

lemma args_false (r : Request) :
    r.args false = if flag ∈ r.base then r.own ++ r.added else r.own ++ flag :: r.added := by
  rw [args_eq]
  by_cases hmem : flag ∈ r.base
  · have hquic : quicArgs false r.base = r.base := by
      simpa [quicArgs, flag] using hmem
    rw [hquic, if_pos hmem]
    rfl
  · have hquic : quicArgs false r.base = r.base ++ [flag] := by
      simpa [quicArgs, flag] using hmem
    rw [hquic, if_neg hmem]
    unfold Request.own
    cases r.activeFakeSni with
    | none => simp
    | some active => simp [strip_append_flag]

end Edits

section Readings

variable {s : State} {words ys xs zs : List String} {w : String} {c : Char}

lemma waiting_ne (hs : s ≠ .waiting 'J') (h : (scan options s words).2 = .waiting c) : c ≠ 'J' := by
  have harg : ∀ o ∈ options, o.val = 'J' → o.hasArg = false := by decide
  rintro rfl
  cases words with
  | nil => exact hs h
  | cons w words =>
    obtain ⟨o, hmem, hval, hhas⟩ := scan_waiting (fun d hd => readNext_waiting hd) h
    rw [harg o hmem hval] at hhas
    cases hhas

lemma readNext_ne (hs : s ≠ .waiting 'J') : (readNext options s w).2 ≠ .waiting 'J' := by
  intro h
  have hscan : (scan options s [w]).2 = .waiting 'J' := h
  exact waiting_ne hs hscan rfl

lemma readNext_any (hs : s ≠ .waiting 'J') :
    (readNext options s w).1.any isBlockQuic = true ↔ s = .ready ∧ spells w = true := by
  cases s with
  | ready => simp [readNext, spells]
  | waiting c =>
    have hc : c ≠ 'J' := fun h => hs (by rw [h])
    simp [readNext, isBlockQuic, hc]
  | ended => simp [readNext]
  | failed => simp [readNext]

/-- QUIC is blocked by the words that spell the option where one may stand. -/
lemma scan_any (hs : s ≠ .waiting 'J') : (scan options s words).1.any isBlockQuic = true ↔
    ∃ w, (State.ready, w) ∈ places options s words ∧ spells w = true := by
  induction words generalizing s with
  | nil => simp [places]
  | cons w words ih =>
    rw [scan_cons, List.any_append, Bool.or_eq_true, readNext_any hs, ih (readNext_ne hs)]
    simp only [places, List.mem_cons, Prod.mk.injEq]
    constructor
    · rintro (⟨rfl, hw⟩ | ⟨v, hv, hspells⟩)
      · exact ⟨w, Or.inl ⟨rfl, rfl⟩, hw⟩
      · exact ⟨v, Or.inr hv, hspells⟩
    · rintro ⟨v, ⟨rfl, rfl⟩ | hv, hspells⟩
      · exact Or.inl ⟨rfl, hspells⟩
      · exact Or.inr ⟨v, hv, hspells⟩

lemma others_append (items items' : List Item) : others (items ++ items') = others items ++ others items' :=
  List.filter_append items items'

lemma readWord_flag : readWord options flag = ([⟨'J', none⟩], .ready) := by
  decide

/-- The flag is nothing to the other options, unless one of them takes it for its value. -/
lemma readNext_flag (hs : ∀ c, s ≠ .waiting c) :
    others (readNext options s flag).1 = [] ∧ (readNext options s flag).2 = s := by
  cases s with
  | ready =>
    change others (readWord options flag).1 = [] ∧ (readWord options flag).2 = .ready
    rw [readWord_flag]
    exact ⟨rfl, rfl⟩
  | waiting c => exact absurd rfl (hs c)
  | ended => exact ⟨rfl, rfl⟩
  | failed => exact ⟨rfl, rfl⟩

lemma readNext_operand (hs : ∀ c, s ≠ .waiting c) (hw : startsWith w "-" = false) :
    readNext options s w = ([], s) := by
  cases s with
  | ready =>
    apply readWord_operand
    intro hhead
    cases hword : w.toList with
    | nil => simp [hword] at hhead
    | cons c cs =>
      simp only [hword, List.head?_cons, Option.some.injEq] at hhead
      simp [startsWith, hword, hhead] at hw
  | waiting c => exact absurd rfl (hs c)
  | ended => rfl
  | failed => rfl

lemma others_value (hc : c ≠ 'J') : others (scan options (.waiting c) (w :: words)).1 =
    ⟨c, some w⟩ :: others (scan options .ready words).1 := by
  have hitem : others (readNext options (.waiting c) w).1 = [⟨c, some w⟩] := by
    simp [others, readNext, isBlockQuic, hc]
  rw [scan_cons, others_append, hitem]
  rfl

section Flag

variable (hopen : ∀ c, s ≠ .waiting c)
include hopen

lemma scan_flag : others (scan options s (flag :: ys)).1 = others (scan options s ys).1 ∧
    (scan options s (flag :: ys)).2 = (scan options s ys).2 := by
  obtain ⟨hitems, hnext⟩ := readNext_flag hopen
  rw [scan_cons, hnext, others_append, hitems]
  exact ⟨rfl, rfl⟩

lemma mem_places_flag {t : State} : (t, w) ∈ places options s (flag :: ys) ↔
    (t = s ∧ w = flag) ∨ (t, w) ∈ places options s ys := by
  simp only [places, (readNext_flag hopen).2, List.mem_cons, Prod.mk.injEq]

lemma asks_flag : (∃ w, (State.ready, w) ∈ places options s (flag :: ys) ∧ w ≠ flag ∧
      spells w = true) ↔
    ∃ w, (State.ready, w) ∈ places options s ys ∧ w ≠ flag ∧ spells w = true := by
  constructor
  · rintro ⟨v, hv, hne, hspells⟩
    exact ⟨v, ((mem_places_flag hopen).mp hv).resolve_left fun h => hne h.2, hne, hspells⟩
  · rintro ⟨v, hv, hne, hspells⟩
    exact ⟨v, (mem_places_flag hopen).mpr (Or.inr hv), hne, hspells⟩

lemma taken_flag (htaken : ∃ c, (State.waiting c, flag) ∈ places options s (flag :: ys)) :
    ∃ c, (State.waiting c, flag) ∈ places options s ys := by
  obtain ⟨c, hc⟩ := htaken
  exact ⟨c, ((mem_places_flag hopen).mp hc).resolve_left fun h => hopen c h.1.symm⟩

end Flag

/-- Flags that no option takes for its value can go: the other options stay, and
QUIC is blocked by what else spells the option. -/
lemma Dropped.same (h : Dropped ys xs) (hs : s ≠ .waiting 'J')
    (hfree : ∀ c, (State.waiting c, flag) ∉ places options s ys) :
    (scan options s xs).2 = (scan options s ys).2 ∧
      others (scan options s xs).1 = others (scan options s ys).1 ∧
      ((scan options s xs).1.any isBlockQuic = true ↔
        ∃ w, (State.ready, w) ∈ places options s ys ∧ w ≠ flag ∧ spells w = true) := by
  induction h generalizing s with
  | nil => simp [places]
  | @keep w ys xs hw h ih =>
    obtain ⟨hstate, hothers, hany⟩ := ih (readNext_ne (w := w) hs)
      fun c hc => hfree c (List.mem_cons_of_mem _ hc)
    refine ⟨hstate, ?_, ?_⟩
    · rw [scan_cons, scan_cons, others_append, others_append, hothers]
    · rw [scan_cons, List.any_append, Bool.or_eq_true, readNext_any hs, hany]
      simp only [places, List.mem_cons, Prod.mk.injEq]
      constructor
      · rintro (⟨rfl, hspells⟩ | ⟨v, hv, hne, hspells⟩)
        · exact ⟨w, Or.inl ⟨rfl, rfl⟩, hw, hspells⟩
        · exact ⟨v, Or.inr hv, hne, hspells⟩
      · rintro ⟨v, ⟨rfl, rfl⟩ | hv, hne, hspells⟩
        · exact Or.inl ⟨rfl, hspells⟩
        · exact Or.inr ⟨v, hv, hne, hspells⟩
  | @drop ys xs h ih =>
    have hopen : ∀ c, s ≠ .waiting c := by
      rintro c rfl
      exact hfree c List.mem_cons_self
    obtain ⟨hstate, hothers, hany⟩ := ih hs fun c hc =>
      hfree c ((mem_places_flag hopen).mpr (Or.inr hc))
    rw [(scan_flag hopen).1, (scan_flag hopen).2, asks_flag hopen]
    exact ⟨hstate, hothers, hany⟩
  | @operand y ys xs hy h ih =>
    have hopen : ∀ c, s ≠ .waiting c := by
      rintro c rfl
      exact hfree c List.mem_cons_self
    obtain ⟨hstate, hothers, hany⟩ := ih hs fun c hc =>
      hfree c ((mem_places_flag hopen).mpr (Or.inr hc))
    rw [scan_cons, readNext_operand hopen hy] at hstate hothers hany
    rw [(scan_flag hopen).1, (scan_flag hopen).2, asks_flag hopen]
    exact ⟨hstate, hothers, hany⟩

/-- An option that has lost its value takes another one. -/
lemma others_waiting (hc : c ≠ 'J') (hhead : xs.head? ≠ some flag)
    (hcomplete : (scan options (.waiting c) xs).2.complete = true) :
    others (scan options (.waiting c) xs).1 ≠ others (scan options (.waiting c) (flag :: ys)).1 := by
  cases xs with
  | nil => cases hcomplete
  | cons w xs =>
    rw [others_value hc, others_value hc]
    intro heq
    simp only [List.cons.injEq, Item.mk.injEq, Option.some.injEq] at heq
    apply hhead
    rw [heq.1.2]
    rfl

lemma Dropped.differs (h : Dropped ys xs) (hs : s ≠ .waiting 'J') (hzs : zs.head? ≠ some flag)
    (htaken : ∃ c, (State.waiting c, flag) ∈ places options s ys)
    (hcomplete : (scan options s (xs ++ zs)).2.complete = true) :
    others (scan options s (xs ++ zs)).1 ≠ others (scan options s (ys ++ zs)).1 := by
  have hhead : ∀ {xs : List String}, flag ∉ xs → (xs ++ zs).head? ≠ some flag := by
    intro xs hxs
    cases xs with
    | nil => exact hzs
    | cons x xs =>
      rintro heq
      cases heq
      exact hxs List.mem_cons_self
  induction h generalizing s with
  | nil =>
    obtain ⟨c, hc⟩ := htaken
    cases hc
  | @keep w ys xs hw h ih =>
    have htaken' : ∃ c, (State.waiting c, flag) ∈ places options (readNext options s w).2 ys := by
      obtain ⟨c, hc⟩ := htaken
      rcases List.mem_cons.mp hc with heq | hc
      · cases heq
        exact absurd rfl hw
      · exact ⟨c, hc⟩
    intro heq
    rw [List.cons_append, List.cons_append, scan_cons, scan_cons, others_append, others_append,
      List.append_cancel_left_eq] at heq
    exact ih (readNext_ne hs) htaken' hcomplete heq
  | @drop ys xs h ih =>
    by_cases hopen : ∃ c, s = .waiting c
    · obtain ⟨c, rfl⟩ := hopen
      exact others_waiting (fun hc => hs (by rw [hc])) (hhead h.clean) hcomplete
    · have hopen' : ∀ c, s ≠ .waiting c := fun c hc => hopen ⟨c, hc⟩
      rw [List.cons_append, (scan_flag hopen').1]
      exact ih hs (taken_flag hopen' htaken) hcomplete
  | @operand y ys xs hy h ih =>
    by_cases hopen : ∃ c, s = .waiting c
    · obtain ⟨c, rfl⟩ := hopen
      have hxs : flag ∉ xs := fun hmem => h.clean (List.mem_cons_of_mem _ hmem)
      exact others_waiting (fun hc => hs (by rw [hc])) (hhead hxs) hcomplete
    · have hopen' : ∀ c, s ≠ .waiting c := fun c hc => hopen ⟨c, hc⟩
      have hskip : scan options s (y :: xs ++ zs) = scan options s (xs ++ zs) := by
        rw [List.cons_append, scan_cons, readNext_operand hopen' hy]
        rfl
      rw [List.cons_append, (scan_flag hopen').1, ← hskip]
      rw [← hskip] at hcomplete
      exact ih hs (taken_flag hopen' htaken) hcomplete

end Readings

/-- The engine blocks QUIC as the switch says, and reads the other options as it
would have done without the switch. -/
structure Controls (r : Request) (enableQuic : Bool) (params : Params) : Prop where
  set : params.blockQuic = !enableQuic
  others : others (scan options .ready (r.args enableQuic)).1 =
    others (scan options .ready (r.own ++ r.added)).1

/-- To allow QUIC, no option may have the flag for its value, and nothing but the flag
may spell the option. To block it, the user's flags must not all be values or behind
`--`; the flag that is put in needs a place where an option may stand. -/
def Heeded (r : Request) (enableQuic : Bool) : Prop :=
  if enableQuic then
    (∀ c, (State.waiting c, flag) ∉ places options .ready r.own) ∧
      (∀ w, (State.ready, w) ∈ places options .ready r.own → w ≠ flag → spells w = false) ∧
      ∀ w, (State.ready, w) ∈ places options (scan options .ready r.own).2 r.added →
        spells w = false
  else if flag ∈ r.base then
    ∃ w, (State.ready, w) ∈ places options .ready (r.own ++ r.added) ∧ spells w = true
  else
    (scan options .ready r.own).2 = .ready ∨ ((scan options .ready r.own).2 = .ended ∧
      ∃ w, (State.ready, w) ∈ places options .ready r.own ∧ spells w = true)

section Switch

variable {r : Request} {valid : List Item → Bool} {params : Params}

lemma added_head (r : Request) : r.added.head? ≠ some flag := by
  unfold Request.added
  cases r.activeFakeSni with
  | none => simp
  | some active =>
    by_cases hactive : active = ""
    · simp [hactive]
    · simp [hactive, flag]

lemma ready_ne : State.ready ≠ .waiting 'J' := by
  intro h
  cases h

lemma own_ne (r : Request) : (scan options .ready r.own).2 ≠ .waiting 'J' :=
  fun h => waiting_ne ready_ne h rfl

lemma controls_true (h : parseArgs valid (r.args true) = some params) :
    Controls r true params ↔ Heeded r true := by
  obtain ⟨hcomplete, hparams⟩ := parseArgs_some h
  obtain ⟨xs, hdropped, hargs⟩ := own_dropped r
  simp only [Heeded, if_true]
  rw [hargs] at hcomplete hparams
  have hcontrols : Controls r true params ↔
      (scan options .ready (xs ++ r.added)).1.any isBlockQuic = false ∧
        others (scan options .ready (xs ++ r.added)).1 =
          others (scan options .ready (r.own ++ r.added)).1 := by
    constructor
    · rintro ⟨hset, hothers⟩
      rw [hparams] at hset
      rw [hargs] at hothers
      exact ⟨hset, hothers⟩
    · rintro ⟨hset, hothers⟩
      refine ⟨?_, ?_⟩
      · rw [hparams]
        exact hset
      · rw [hargs]
        exact hothers
  rw [hcontrols]
  by_cases htaken : ∃ c, (State.waiting c, flag) ∈ places options .ready r.own
  · constructor
    · rintro ⟨-, hothers⟩
      exact absurd hothers (hdropped.differs ready_ne (added_head r) htaken hcomplete)
    · rintro ⟨hfree, -⟩
      obtain ⟨c, hc⟩ := htaken
      exact absurd hc (hfree c)
  · have hfree : ∀ c, (State.waiting c, flag) ∉ places options .ready r.own :=
      fun c hc => htaken ⟨c, hc⟩
    obtain ⟨hstate, hothers, hany⟩ := hdropped.same ready_ne hfree
    rw [scan_append, scan_append, others_append, others_append, hothers, hstate,
      List.any_append, Bool.or_eq_false_iff, ← Bool.not_eq_true, ← Bool.not_eq_true, hany,
      scan_any (own_ne r)]
    constructor
    · rintro ⟨⟨hown, hadded⟩, -⟩
      refine ⟨hfree, ?_, ?_⟩
      · intro w hw hne
        rw [← Bool.not_eq_true]
        exact fun hspells => hown ⟨w, hw, hne, hspells⟩
      · intro w hw
        rw [← Bool.not_eq_true]
        exact fun hspells => hadded ⟨w, hw, hspells⟩
    · rintro ⟨-, hown, hadded⟩
      refine ⟨⟨?_, ?_⟩, rfl⟩
      · rintro ⟨w, hw, hne, hspells⟩
        rw [hown w hw hne] at hspells
        cases hspells
      · rintro ⟨w, hw, hspells⟩
        rw [hadded w hw] at hspells
        cases hspells

/-- The option before the flag that is put in takes it for its value. -/
lemma others_swallowed {c : Char} (hend : (scan options .ready r.own).2 = .waiting c) :
    others (scan options .ready (r.own ++ flag :: r.added)).1 ≠
      others (scan options .ready (r.own ++ r.added)).1 := by
  have hc : c ≠ 'J' := waiting_ne ready_ne hend
  rw [scan_append, scan_append, others_append, others_append, hend]
  intro heq
  rw [List.append_cancel_left_eq] at heq
  have hhead := added_head r
  cases hadded : r.added with
  | nil =>
    rw [hadded, others_value hc] at heq
    cases heq
  | cons w words =>
    rw [hadded] at heq hhead
    rw [others_value hc, others_value hc] at heq
    simp only [List.cons.injEq, Item.mk.injEq, Option.some.injEq] at heq
    apply hhead
    rw [← heq.1.2]
    rfl

lemma controls_false (h : parseArgs valid (r.args false) = some params) :
    Controls r false params ↔ Heeded r false := by
  obtain ⟨hcomplete, hparams⟩ := parseArgs_some h
  have hcontrols : Controls r false params ↔
      (scan options .ready (r.args false)).1.any isBlockQuic = true ∧
        others (scan options .ready (r.args false)).1 =
          others (scan options .ready (r.own ++ r.added)).1 := by
    constructor
    · rintro ⟨hset, hothers⟩
      rw [hparams] at hset
      exact ⟨hset, hothers⟩
    · rintro ⟨hset, hothers⟩
      refine ⟨?_, hothers⟩
      rw [hparams]
      exact hset
  rw [hcontrols, Heeded, if_neg (by decide)]
  rw [args_false] at hcomplete ⊢
  by_cases hmem : flag ∈ r.base
  · rw [if_pos hmem] at hcomplete ⊢
    rw [if_pos hmem, scan_any ready_ne]
    simp
  rw [if_neg hmem] at hcomplete ⊢
  rw [if_neg hmem]
  rw [scan_append] at hcomplete
  cases hend : (scan options .ready r.own).2 with
  | ready =>
    have hopen : ∀ c, State.ready ≠ .waiting c := by
      intro c hc
      cases hc
    have hany : (scan options .ready (flag :: r.added)).1.any isBlockQuic = true := by
      rw [scan_any ready_ne]
      exact ⟨flag, List.mem_cons_self, by decide⟩
    simp only [true_or, iff_true]
    rw [scan_append, scan_append, hend, others_append, others_append, (scan_flag hopen).1,
      List.any_append, hany]
    simp
  | waiting c =>
    constructor
    · rintro ⟨-, hothers⟩
      exact absurd hothers (others_swallowed hend)
    · rintro (heq | ⟨heq, -⟩)
      · cases heq
      · cases heq
  | ended =>
    rw [scan_append, scan_append, hend, scan_ended, scan_ended, List.append_nil,
      scan_any ready_ne]
    simp
  | failed =>
    rw [hend, scan_failed] at hcomplete
    cases hcomplete

end Switch

theorem quic_switch_iff {valid : List Item → Bool} {params : Params} (r : Request)
    (enableQuic : Bool) (h : parseArgs valid (r.args enableQuic) = some params) :
    Controls r enableQuic params ↔ Heeded r enableQuic := by
  cases enableQuic with
  | false => exact controls_false h
  | true => exact controls_true h

/-- A built-in strategy without the flag. -/
def discord : Request := ⟨"Discord/UDP Fix", "", none, []⟩

theorem quic_switch_iff_discord :
    Controls discord false { blockQuic := true, fakeSniList := [] } := by
  have hread : parseArgs (fun _ => true) (discord.args false) =
      some { blockQuic := true, fakeSniList := [] } := by
    decide
  refine (quic_switch_iff discord false hread).mpr ?_
  have hbase : flag ∉ discord.base := by
    decide
  have hend : (scan options .ready discord.own).2 = .ready := by
    decide
  rw [Heeded, if_neg (by decide), if_neg hbase]
  exact Or.inl hend

def custom (customArgs : String) : Request := ⟨"Custom", customArgs, none, []⟩

/-- The short spelling survives, and a trailing option takes the flag for its value. -/
theorem switch_loses :
    (parseArgs (fun _ => true) ((custom "-J").args true) =
        some { blockQuic := true, fakeSniList := [] } ∧
      ¬ Controls (custom "-J") true { blockQuic := true, fakeSniList := [] }) ∧
    parseArgs (fun _ => true) ((custom "--split 1 --comment").args false) =
        some { blockQuic := false, fakeSniList := [] } ∧
      ¬ Controls (custom "--split 1 --comment") false
        { blockQuic := false, fakeSniList := [] } := by
  refine ⟨⟨?_, ?_⟩, ?_, ?_⟩
  · decide
  · rintro ⟨hset, -⟩
    cases hset
  · decide
  · rintro ⟨hset, -⟩
    cases hset

end QuicSwitch
