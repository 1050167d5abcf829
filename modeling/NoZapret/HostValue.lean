import Mathlib.Data.List.DropRight
import NoZapret.HostLine
import NoZapret.Numbers

/-!
# What `parse_http` makes of a `Host` line

The first such line of a buffer as a text, and the answer of the parser as a function of that text.
-/

namespace HostValue

open Block HostLine Numbers Packets

/-- The first `Host` line of a buffer: what comes up to its colon, its text and what follows it. -/
structure HostText (b lead v rest : Bytes) : Prop where
  split : b = lead ++ (v ++ ch '\n' :: rest)
  field : Occurs lead hostField (lead.length - 6)
  first : ∀ j, Occurs b hostField j → lead.length ≤ j + 6
  line : ch '\n' ∉ v

/-- Where the host ends in a text without white space at its end, and the text of the port. The
colon of the field's name counts as well. -/
def valueEnd (t : Bytes) : Int × Option Bytes :=
  let stop := (ch ':' :: t).dropLast.rdropWhile isdigit
  if stop.getLast? = some (ch ':') then (stop.length - 2, some (t.drop (stop.length - 1)))
  else (t.length, none)

/-- A port in decimal digits. -/
def portNumber (digits : Bytes) : Option Nat :=
  if digits.all isdigit ∧ 0 < value 0 digits ∧ value 0 digits ≤ 0xffff then
    some (value 0 digits).toNat
  else none

/-- What is stored as the port, unless the parser gives up. -/
def portRef (wantPort : Bool) (port : Option Bytes) : Option (Option Nat) :=
  match port with
  | none => some (if wantPort then some 80 else none)
  | some digits => if wantPort then (portNumber digits).map some else some none

/-- The blanks that are skipped. -/
def blanks (v : Bytes) : Bytes := v.takeWhile (· == ch ' ')

/-- The answer for the text `v` of a line, which begins at `off`. -/
def valueRef (wantPort : Bool) (off : Nat) (v : Bytes) : HostRef :=
  let n := (blanks v).length
  let t := v.rdropWhile isspace
  let (e, port) := valueEnd t
  match portRef wantPort port with
  | none => .miss
  | some port =>
    if v[n]? = some (ch '[') then
      if 0 < e ∧ t[(e - 1).toNat]? = some (ch ']') then ⟨e - 1 - (n + 1), some (off + n + 1), port⟩
      else ⟨0, none, port⟩
    else ⟨e - n, some (off + n), port⟩

section Bounds

variable {v t x : Bytes}

/-- The text of the port, if it has one: some digits and one byte more. -/
lemma valueEnd_port {e : Int} {digits : Bytes} (h : valueEnd t = (e, some digits)) :
    ∃ run last, digits = run ++ [last] ∧ (∀ d ∈ run, isdigit d = true) ∧ t.getLast? = some last ∧
      -1 ≤ e ∧ t.length = e + 1 + digits.length ∧ digits = t.drop (e + 1).toNat := by
  unfold valueEnd at h
  generalize hstop : (ch ':' :: t).dropLast.rdropWhile isdigit = stop at h
  simp only at h
  split at h
  · next hcolon =>
    cases h
    have hne : t ≠ [] := by
      rintro rfl
      rw [← hstop] at hcolon
      cases hcolon
    obtain ⟨s, last, rfl⟩ := List.eq_nil_or_concat t |>.resolve_left hne
    simp only [List.concat_eq_append, ← List.cons_append, List.dropLast_concat] at hstop
    have hsplit := List.rdropWhile_append_rtakeWhile (p := isdigit) (l := ch ':' :: s)
    rw [hstop] at hsplit
    obtain ⟨c, stop', rfl⟩ : ∃ c stop', stop = c :: stop' := by
      cases stop with
      | nil => cases hcolon
      | cons c stop' => exact ⟨c, stop', rfl⟩
    have htail : stop' ++ (ch ':' :: s).rtakeWhile isdigit = s := by
      rw [List.cons_append, List.cons.injEq] at hsplit
      exact hsplit.2
    have hdrop : (s.concat last).drop ((c :: stop').length - 1) =
        (ch ':' :: s).rtakeWhile isdigit ++ [last] := by
      have hsame : s.concat last = stop' ++ ((ch ':' :: s).rtakeWhile isdigit ++ [last]) := by
        rw [← List.append_assoc, htail, List.concat_eq_append]
      rw [hsame, List.length_cons, Nat.add_sub_cancel, List.drop_left]
    have hlen := congrArg List.length htail
    rw [List.length_append] at hlen
    have hstart : ((((c :: stop').length : Int) - 2 + 1).toNat) = (c :: stop').length - 1 := by
      rw [List.length_cons]
      omega
    refine ⟨_, last, hdrop, fun d hd => List.mem_rtakeWhile_imp hd, by simp, ?_, ?_, ?_⟩
    · rw [List.length_cons]
      omega
    · rw [hdrop]
      simp only [List.concat_eq_append, List.length_append, List.length_cons, List.length_nil]
      omega
    · rw [hstart]
  · cases h

end Bounds

section Parts

variable {b lead v rest text : Bytes} {p : UInt8 → Bool}

/-- A scan back over a text, behind a byte that it cannot pass. -/
lemma trimBack_text {a s r : Bytes} {x : UInt8} (hlast : a.getLast? = some x)
    (hx : p x = false) {n : Nat} (hfuel : s.length < n) :
    trimBack p (a ++ (s ++ r)) n ((a.length + s.length : Nat) : Int) =
      some ((a.length + (s.rdropWhile p).length : Nat) : Int) := by
  induction s using List.reverseRecOn generalizing r n with
  | nil =>
    obtain ⟨n, rfl⟩ := Nat.exists_eq_succ_of_ne_zero (Nat.ne_zero_of_lt hfuel)
    obtain ⟨a, rfl⟩ := List.getLast?_eq_some_iff.mp hlast
    have hread : rd (a ++ [x] ++ ([] ++ r)) (((a ++ [x]).length : Int) - 1) =
        some x := by
      have hlen : ((a ++ [x]).length : Int) - 1 = a.length := by simp
      rw [hlen, List.append_assoc]
      exact rd_at a
    simp only [List.length_nil, Nat.add_zero, List.rdropWhile_nil, trimBack, hread, hx,
      Option.bind_eq_bind, Option.bind_some]
    rfl
  | append_singleton s y ih =>
    obtain ⟨n, rfl⟩ := Nat.exists_eq_succ_of_ne_zero (Nat.ne_zero_of_lt hfuel)
    have hback : ((a.length + (s ++ [y]).length : Nat) : Int) - 1 =
        (a.length + s.length : Nat) := by
      simp only [List.length_append, List.length_singleton]
      omega
    have hread : rd (a ++ (s ++ [y] ++ r))
        ((a.length + s.length : Nat) : Int) = some y := by
      have hsplit : a ++ (s ++ [y] ++ r) = a ++ s ++ y :: r := by simp
      rw [hsplit, ← List.length_append, rd_at]
    have hfuel' : s.length < n := by
      simp only [List.length_append, List.length_singleton] at hfuel
      omega
    simp only [trimBack, hback, hread, Option.bind_eq_bind, Option.bind_some]
    by_cases hy : p y = true
    · rw [if_pos hy, List.rdropWhile_concat_pos p s y hy, List.append_assoc]
      exact ih hfuel'
    · rw [if_neg hy, List.rdropWhile_concat_neg p s y hy]
      rfl

lemma HostText.colon (h : HostText b lead v rest) : lead.getLast? = some (ch ':') := by
  have hfit := hostField_fits h.field
  have hcell := h.field.colon
  rw [List.getLast?_eq_getElem?]
  rw [show lead.length - 6 + 5 = lead.length - 1 by omega] at hcell
  exact hcell

/-- What stands before the first `c`. -/
lemma cut_unique {v v' r r' : Bytes} {c : UInt8} (hv : c ∉ v) (hv' : c ∉ v')
    (h : v ++ c :: r = v' ++ c :: r') : v = v' ∧ r = r' := by
  induction v generalizing v' with
  | nil =>
    cases v' with
    | nil => exact ⟨rfl, (List.cons.inj h).2⟩
    | cons d v' => exact absurd (List.cons.inj h).1 (fun heq => hv' (heq ▸ List.mem_cons_self))
  | cons d v ih =>
    cases v' with
    | nil => exact absurd (List.cons.inj h).1.symm (fun heq => hv (heq ▸ List.mem_cons_self))
    | cons d' v' =>
      obtain ⟨rfl, htail⟩ := List.cons.inj h
      obtain ⟨rfl, hr⟩ := ih (fun hmem => hv (List.mem_cons_of_mem _ hmem))
        (fun hmem => hv' (List.mem_cons_of_mem _ hmem)) htail
      exact ⟨rfl, hr⟩

/-- A buffer has one such line. -/
lemma HostText.unique {lead' v' rest' : Bytes} (h : HostText b lead v rest)
    (h' : HostText b lead' v' rest') : lead' = lead ∧ v' = v ∧ rest' = rest := by
  have hocc : ∀ {lead v rest : Bytes}, HostText b lead v rest →
      Occurs b hostField (lead.length - 6) := by
    intro lead v rest h
    rw [h.split]
    exact h.field.mono (List.prefix_append _ _)
  have hfit := hostField_fits h.field
  have hfit' := hostField_fits h'.field
  have hle := h.first _ (hocc h')
  have hle' := h'.first _ (hocc h)
  obtain ⟨hlead, htext⟩ := List.append_inj (h.split.symm.trans h'.split) (by omega)
  obtain ⟨hv, hrest⟩ := cut_unique h.line h'.line htext
  exact ⟨hlead.symm, hv.symm, hrest.symm⟩

/-- The letter before the colon. -/
lemma HostText.letter (h : HostText b lead v rest) :
    ∃ front x, lead = front ++ [x, ch ':'] ∧ isdigit x = false ∧ x ≠ ch ':' ∧ x ≠ ch ']' := by
  have hfit := hostField_fits h.field
  obtain ⟨front, hfront⟩ := List.getLast?_eq_some_iff.mp h.colon
  have hne : front ≠ [] := by
    rintro rfl
    rw [hfront] at hfit
    simp at hfit
  obtain ⟨front', x, rfl⟩ := List.eq_nil_or_concat front |>.resolve_left hne
  obtain ⟨y, hy, hlower⟩ := h.field.get (i := 4) (c := ch 't') rfl
  have hxy : x = y := by
    have hlen : lead.length - 6 + 4 = front'.length := by
      rw [hfront] at hfit ⊢
      simp only [List.concat_eq_append, List.length_append, List.length_singleton] at hfit ⊢
      omega
    rw [hlen, hfront] at hy
    simpa using hy
  have hlower : tolower x = ch 't' := hxy ▸ hlower
  refine ⟨front', x, by rw [hfront]; simp, isdigit_tolower (by decide) hlower, ?_, ?_⟩
  · rintro rfl
    exact absurd hlower (by decide)
  · rintro rfl
    exact absurd hlower (by decide)

/-- The search for the field finds it. -/
lemma HostText.search (h : HostText b lead v rest) :
    strncasestr b b.length hostField = some (some ((lead.length - 6 : Nat) : Int)) := by
  have hfit := hostField_fits h.field
  have hocc : Occurs b hostField (lead.length - 6) := by
    rw [h.split]
    exact h.field.mono (List.prefix_append _ _)
  rcases strncasestr_cases hostField_head b with ⟨q, hq, hat, hfirst⟩ | ⟨-, hno⟩
  · have h1 := hfirst _ hocc
    have h2 := h.first q hat
    rw [hq, show q = lead.length - 6 by omega]
  · exact absurd hocc (hno _)

lemma blanks_split (v : Bytes) : blanks v ++ v.dropWhile (· == ch ' ') = v :=
  List.takeWhile_append_dropWhile

lemma mem_blanks {c : UInt8} (h : c ∈ blanks v) : c = ch ' ' := by
  have hpass := List.mem_takeWhile_imp (p := (· == ch ' ')) h
  exact beq_iff_eq.mp hpass

lemma getElem?_blanks (v : Bytes) : v[(blanks v).length]? = (v.dropWhile (· == ch ' ')).head? := by
  generalize hn : (blanks v).length = n
  rw [← blanks_split v, List.getElem?_append_right (by omega), hn, Nat.sub_self,
    ← List.head?_eq_getElem?, blanks_split]

/-- White space at the end of the text, up to the end of the line. -/
lemma trimmed_split (v rest : Bytes) : ∃ c tail, isspace c = true ∧
    v ++ ch '\n' :: rest = v.rdropWhile isspace ++ c :: tail := by
  have hsplit := List.rdropWhile_append_rtakeWhile (p := isspace) (l := v)
  cases hend : v.rtakeWhile isspace with
  | nil =>
    rw [hend, List.append_nil] at hsplit
    exact ⟨ch '\n', rest, by decide, by rw [hsplit]⟩
  | cons c tail =>
    have hc : isspace c = true := List.mem_rtakeWhile_imp (l := v) (by rw [hend]; simp)
    refine ⟨c, tail ++ ch '\n' :: rest, hc, ?_⟩
    rw [hend] at hsplit
    conv_lhs => rw [← hsplit]
    simp

lemma isdigit_isspace {c : UInt8} (h : isspace c = true) : isdigit c = false := by
  simp only [isspace, isdigit, Bool.or_eq_true, beq_iff_eq, Bool.and_eq_true, decide_eq_true_eq,
    UInt8.le_iff_toNat_le, Bool.and_eq_false_iff, decide_eq_false_iff_not,
    ← UInt8.toNat_inj] at h ⊢
  simp only [UInt8.reduceToNat] at h ⊢
  omega

lemma isspace_digit {c : UInt8} (h : isdigit c = true) : isspace c = false := by
  by_contra hspace
  rw [Bool.not_eq_false] at hspace
  rw [isdigit_isspace hspace] at h
  cases h

/-- What the parser makes of the text behind the colon of a port. -/
lemma strtol_port {a digits run : Bytes} {s : Bytes} {last c : UInt8} (hrun : ∀ d ∈ run, isdigit d = true)
    (hdigits : digits = run ++ [last]) (hlast : isspace last = false) (hc : isspace c = true) :
    ∃ i stop, strtol (a ++ (digits ++ c :: s)) a.length = some (i, stop) ∧
      ((i ≤ 0 ∨ stop ≠ ((a.length + digits.length : Nat) : Int) ∨ i > 0xffff) ↔
        portNumber digits = none) ∧
      ∀ n, portNumber digits = some n → i.toNat = n := by
  have hcdigit := isdigit_isspace hc
  rw [strtol_eq]
  by_cases hd : isdigit last = true
  · have hall : ∀ d ∈ digits, isdigit d = true := by
      rw [hdigits]
      intro d hmem
      rcases List.mem_append.mp hmem with hmem | hmem
      · exact hrun d hmem
      · rw [List.mem_singleton.mp hmem]
        exact hd
    obtain ⟨hge, -⟩ := value_bounds hall
    rw [number_run hall (by simp [hdigits]) hcdigit]
    refine ⟨_, _, rfl, ?_, ?_⟩
    · have hport : portNumber digits = none ↔ ¬ (0 < value 0 digits ∧ value 0 digits ≤ 0xffff) := by
        simp only [portNumber, List.all_eq_true.mpr hall, true_and, ite_eq_right_iff,
          reduceCtorEq, imp_false]
      rw [hport]
      omega
    · intro n hn
      simp only [portNumber, List.all_eq_true.mpr hall, true_and,
        Option.ite_none_right_eq_some] at hn
      obtain ⟨⟨-, hle⟩, hn⟩ := hn
      have hsame := Option.some.inj hn
      omega
  · have hnone : portNumber digits = none := by
      simp [portNumber, hdigits, hd]
    have hread : ∃ i n, number (digits ++ c :: s) = some (i, n) ∧
        (i ≤ 0 ∨ n ≠ digits.length) := by
      cases run with
      | nil =>
        have hnot : isdigit last = false := Bool.not_eq_true _ ▸ hd
        refine ⟨0, 0, ?_, .inl (Int.le_refl 0)⟩
        simp only [number, hdigits, List.nil_append, List.singleton_append,
          List.dropWhile_cons_of_neg (Bool.eq_false_iff.mp hlast)]
        by_cases hsign : last = ch '-' ∨ last = ch '+'
        · simp [hsign, hcdigit]
        · simp [hsign, hnot]
      | cons d run =>
        have hnum := number_run (s := c :: s) hrun (List.cons_ne_nil d run)
          (Bool.not_eq_true _ ▸ hd)
        rw [hdigits, List.append_assoc, List.singleton_append]
        refine ⟨_, _, hnum, .inr ?_⟩
        rw [List.length_append, List.length_singleton]
        omega
    obtain ⟨i, n, hnum, hbad⟩ := hread
    rw [hnum]
    refine ⟨i, _, rfl, ⟨fun _ => hnone, fun _ => ?_⟩, fun n hn => ?_⟩
    · rcases hbad with hbad | hbad
      · exact .inl hbad
      · refine .inr (.inl ?_)
        omega
    · cases hnone.symm.trans hn

end Parts

section Answer

variable {b lead v rest t : Bytes}

lemma valueEnd_range (t : Bytes) : -1 ≤ (valueEnd t).1 ∧ (valueEnd t).1 ≤ t.length := by
  cases hend : valueEnd t with
  | mk e port =>
    cases port with
    | none =>
      unfold valueEnd at hend
      simp only at hend
      split at hend
      · cases hend
      · cases hend
        simp only
        omega
    | some digits =>
      obtain ⟨-, -, -, -, -, hge, hlen, -⟩ := valueEnd_port hend
      simp only
      omega

lemma HostText.behind (h : HostText b lead v rest) :
    b = lead ++ blanks v ++ (v.dropWhile (· == ch ' ') ++ ch '\n' :: rest) := by
  conv_lhs => rw [h.split, ← blanks_split v]
  simp only [List.append_assoc]

/-- The first search ends behind the blanks. -/
lemma HostText.start (h : HostText b lead v rest) :
    findIn b (· != ch ' ') lead.length ((b.length : Int) - lead.length) =
      some (some ((lead.length + (blanks v).length : Nat) : Int)) := by
  have hpass : ∀ x ∈ blanks v, (x != ch ' ') = false := by
    intro x hx
    simp [mem_blanks hx]
  have htail : ∃ c tail, v.dropWhile (· == ch ' ') ++ ch '\n' :: rest = c :: tail ∧
      (c != ch ' ') = true := by
    cases hw : v.dropWhile (· == ch ' ') with
    | nil => exact ⟨ch '\n', rest, rfl, by decide⟩
    | cons c w =>
      have hc := List.head?_dropWhile_not (· == ch ' ') v
      rw [hw] at hc
      exact ⟨c, w ++ ch '\n' :: rest, rfl, by simpa using hc⟩
  obtain ⟨c, tail, htail, hc⟩ := htail
  have hsplit : b = lead ++ (blanks v ++ c :: tail) := by
    rw [← htail, ← List.append_assoc]
    exact h.behind
  rw [hsplit]
  exact findIn_of_firstHit (firstHit_text hpass hc) (Nat.le_refl _)

/-- The second one ends at the end of the line. -/
lemma HostText.newline (h : HostText b lead v rest) :
    findIn b (· == ch '\n') ((lead.length + (blanks v).length : Nat) : Int)
        ((b.length : Int) - (lead.length + (blanks v).length : Nat)) =
      some (some ((lead.length + v.length : Nat) : Int)) := by
  have hpass : ∀ x ∈ v.dropWhile (· == ch ' '), (x == ch '\n') = false := by
    intro x hx
    rw [beq_eq_false_iff_ne]
    rintro rfl
    exact h.line ((List.dropWhile_sublist _).subset hx)
  have hlen : (lead ++ blanks v).length + (v.dropWhile (· == ch ' ')).length =
      lead.length + v.length := by
    conv_rhs => rw [← blanks_split v]
    simp only [List.length_append]
    omega
  have hhit := firstHit_text (a := lead ++ blanks v) (r := rest) hpass
    (show (ch '\n' == ch '\n') = true by decide)
  rw [hlen, ← h.behind, List.length_append] at hhit
  exact findIn_of_firstHit hhit (Nat.le_refl _)

lemma HostText.trimmed (h : HostText b lead v rest) :
    trimBack isspace b (b.length + 1) ((lead.length + v.length : Nat) : Int) =
      some ((lead.length + (v.rdropWhile isspace).length : Nat) : Int) := by
  have hfuel : v.length < b.length + 1 := by
    rw [h.split]
    simp only [List.length_append]
    omega
  have htrim := trimBack_text (p := isspace) (a := lead) (s := v) (r := ch '\n' :: rest)
    h.colon (by decide) hfuel
  rwa [← h.split] at htrim

/-- The scan over the digits, from the last but one byte. -/
lemma HostText.digits (h : HostText b lead v rest) {t : Bytes} (ht : t <+: v) :
    trimBack isdigit b (b.length + 1) ((lead.length + t.length : Nat) - 1) =
      some ((lead.length - 1 + ((ch ':' :: t).dropLast.rdropWhile isdigit).length : Nat) : Int) := by
  obtain ⟨tail, rfl⟩ := ht
  obtain ⟨front, x, hlead, hx, -, -⟩ := h.letter
  have hsplit : ∃ rest', b = front ++ [x] ++ ((ch ':' :: t).dropLast ++ rest') := by
    obtain ⟨s, last, hcut⟩ := List.eq_nil_or_concat (ch ':' :: t) |>.resolve_left
      (List.cons_ne_nil _ _)
    refine ⟨[last] ++ tail ++ ch '\n' :: rest, ?_⟩
    rw [h.split, hlead]
    calc front ++ [x, ch ':'] ++ (t ++ tail ++ ch '\n' :: rest) =
        front ++ [x] ++ ((ch ':' :: t) ++ (tail ++ ch '\n' :: rest)) := by simp
      _ = _ := by
        rw [hcut]
        simp
  obtain ⟨rest', hsplit⟩ := hsplit
  have hfuel : (ch ':' :: t).dropLast.length < b.length + 1 := by
    rw [hsplit]
    simp only [List.length_append]
    omega
  have htrim := trimBack_text (p := isdigit) (a := front ++ [x]) (r := rest')
    (by simp) hx hfuel
  rw [← hsplit] at htrim
  have hfront : (front ++ [x]).length = lead.length - 1 := by
    rw [hlead]
    simp
  have hfrom : ((lead.length + t.length : Nat) : Int) - 1 =
      (((front ++ [x]).length + (ch ':' :: t).dropLast.length : Nat) : Int) := by
    rw [hlead]
    simp only [List.length_append, List.length_cons, List.length_nil, List.length_dropLast]
    omega
  rw [hfrom, htrim, hfront]

/-- What `parse_http` reads as the port. -/
lemma HostText.port (h : HostText b lead v rest) (wantPort : Bool) {e : Int} {port : Option Bytes}
    (hend : valueEnd (v.rdropWhile isspace) = (e, port)) :
    parsePort b ((lead.length - 1 +
        ((ch ':' :: v.rdropWhile isspace).dropLast.rdropWhile isdigit).length : Nat) - 1)
      ((lead.length + (v.rdropWhile isspace).length : Nat) : Int) wantPort =
      some ((portRef wantPort port).map fun p => (lead.length + e, p)) := by
  obtain ⟨front, x, hlead, -, hx, -⟩ := h.letter
  generalize ht : v.rdropWhile isspace = t at *
  generalize hstop : (ch ':' :: t).dropLast.rdropWhile isdigit = stop at *
  have hlen : lead.length = front.length + 2 := by
    rw [hlead]
    simp
  have hprefix : stop <+: ch ':' :: t := by
    rw [← hstop]
    exact (List.rdropWhile_prefix _ _).trans (List.dropLast_prefix _)
  obtain ⟨c, tail, hc, hv⟩ := trimmed_split v rest
  rw [ht] at hv
  have hb : b = front ++ [x] ++ (ch ':' :: t ++ c :: tail) := by
    rw [h.split, hlead, hv]
    simp
  -- the byte at the end of the scan
  have hread : ∃ y, rd b (((lead.length - 1 + stop.length : Nat) : Int) - 1) = some y ∧
      (y = ch ':' ↔ stop.getLast? = some (ch ':')) := by
    have hback : ((lead.length - 1 + stop.length : Nat) : Int) - 1 =
        ((front.length + stop.length : Nat) : Int) := by
      omega
    rw [hback, rd_nat, hb]
    rcases List.eq_nil_or_concat stop with rfl | ⟨s, y, rfl⟩
    · exact ⟨x, by simp, by simp [hx]⟩
    · obtain ⟨more, hmore⟩ := hprefix
      refine ⟨y, ?_, by simp⟩
      rw [← hmore]
      simp
  obtain ⟨y, hy, hcolon⟩ := hread
  unfold parsePort
  simp only [hy, Option.bind_eq_bind, Option.bind_some]
  by_cases heq : y = ch ':'
  · have hcol := hcolon.mp heq
    have hval : valueEnd t = ((stop.length : Int) - 2, some (t.drop (stop.length - 1))) := by
      simp [valueEnd, hstop, hcol]
    obtain ⟨rfl, rfl⟩ := Prod.mk.inj (hend.symm.trans hval)
    obtain ⟨run, last, hdigits, hrun, hlast, hge, hlength, -⟩ := valueEnd_port hval
    have hpos : 0 < stop.length := by omega
    have hspace : isspace last = false := by
      obtain ⟨s, hs⟩ := List.getLast?_eq_some_iff.mp hlast
      have hne : v.rdropWhile isspace ≠ [] := by
        rw [ht, hs]
        simp
      have hnot := List.rdropWhile_last_not isspace v hne
      simpa [ht, hs] using hnot
    have hat : ((lead.length - 1 + stop.length : Nat) : Int) - 1 = lead.length + (stop.length - 2) := by
      omega
    rw [if_neg (not_not.mpr heq), hat]
    cases wantPort with
    | false => simp [portRef]
    | true =>
      generalize hport : t.drop (stop.length - 1) = digits at *
      have hfront : b = front ++ [x, ch ':'] ++ t.take (stop.length - 1) ++ (digits ++ c :: tail) := by
        rw [← hport, List.append_assoc, ← List.append_assoc (t.take _), List.take_append_drop, hb]
        simp
      have hlen' : (front ++ [x, ch ':'] ++ t.take (stop.length - 1)).length =
          lead.length + (stop.length - 1) := by
        rw [← hlead, List.length_append, List.length_take]
        omega
      obtain ⟨i, j, hij, hbad, hgood⟩ := strtol_port (s := tail)
        (a := front ++ [x, ch ':'] ++ t.take (stop.length - 1)) hrun hdigits hspace hc
      have hfrom : (lead.length : Int) + (stop.length - 2) + 1 =
          ((lead.length + (stop.length - 1) : Nat) : Int) := by
        omega
      have hto : ((lead.length + (stop.length - 1) + digits.length : Nat) : Int) =
          ((lead.length + t.length : Nat) : Int) := by
        omega
      rw [← hfront, hlen'] at hij
      rw [hlen', hto] at hbad
      simp only [Bool.not_true, Bool.false_eq_true, if_false, hfrom, hij, Option.bind_some]
      cases hnum : portNumber digits with
      | none =>
        rw [if_pos (hbad.mpr hnum)]
        simp [portRef, hnum]
      | some n =>
        have hok := mt hbad.mp (by rw [hnum]; simp)
        rw [if_neg hok]
        simp [portRef, hnum, hgood n hnum]
  · have hcol := mt hcolon.mpr heq
    have hval : valueEnd t = ((t.length : Int), none) := by
      simp [valueEnd, hstop, hcol]
    obtain ⟨rfl, rfl⟩ := Prod.mk.inj (hend.symm.trans hval)
    rw [if_pos heq]
    rfl

/-- The byte before the end of the host, which may lie in the field's name. -/
lemma HostText.before (h : HostText b lead v rest) {e : Int} {t : Bytes} (ht : t <+: v)
    (hge : -1 ≤ e) (hle : e ≤ t.length) :
    ∃ c, rd b (lead.length + e - 1) = some c ∧
      (c = ch ']' ↔ 0 < e ∧ t[(e - 1).toNat]? = some (ch ']')) := by
  obtain ⟨front, x, hlead, -, -, hx⟩ := h.letter
  obtain ⟨tail, rfl⟩ := ht
  have hlen : lead.length = front.length + 2 := by
    rw [hlead]
    simp
  have hb : b = front ++ [x, ch ':'] ++ (t ++ (tail ++ ch '\n' :: rest)) := by
    rw [h.split, hlead]
    simp
  by_cases hpos : 0 < e
  · have hback : (lead.length : Int) + e - 1 = ((lead.length + (e - 1).toNat : Nat) : Int) := by
      omega
    have hin : (e - 1).toNat < t.length := by omega
    have hcell : t[(e - 1).toNat]? = some t[(e - 1).toNat] := List.getElem?_eq_getElem hin
    refine ⟨t[(e - 1).toNat], ?_, ?_⟩
    · rw [hback, rd_nat, hb, ← hlead, List.getElem?_append_right (Nat.le_add_right _ _),
        Nat.add_sub_cancel_left, List.getElem?_append_left hin, hcell]
    · rw [hcell, Option.some.injEq]
      simp [hpos]
  · have hcases : e = 0 ∨ e = -1 := by omega
    rcases hcases with rfl | rfl
    · refine ⟨ch ':', ?_, by simp [show ch ':' ≠ ch ']' by decide]⟩
      have hback : (lead.length : Int) + 0 - 1 = ((front.length + 1 : Nat) : Int) := by omega
      rw [hback, rd_nat, hb]
      simp
    · refine ⟨x, ?_, by simp [hx]⟩
      have hback : (lead.length : Int) + -1 - 1 = ((front.length : Nat) : Int) := by omega
      rw [hback, rd_nat, hb]
      simp

/-- The answer of `parse_http` for a buffer with a `Host` line. -/
theorem parseHttp_text (h : HostText b lead v rest) (hhttp : isHttp b b.length = some true)
    (wantPort : Bool) : parseHttp b b.length wantPort = some (valueRef wantPort lead.length v) := by
  have hfit := hostField_fits h.field
  have hsix : ((lead.length - 6 : Nat) : Int) + 6 = lead.length := by omega
  have hprefix : v.rdropWhile isspace <+: v := List.rdropWhile_prefix _ _
  obtain ⟨c, hc, hopen⟩ : ∃ c, rd b ((lead.length + (blanks v).length : Nat) : Int) = some c ∧
      (c = ch '[' ↔ v[(blanks v).length]? = some (ch '[')) := by
    have hcell : b[lead.length + (blanks v).length]? =
        (v.dropWhile (· == ch ' ') ++ ch '\n' :: rest).head? := by
      rw [h.behind, ← List.length_append, List.getElem?_append_right (Nat.le_refl _), Nat.sub_self,
        ← List.head?_eq_getElem?]
    rw [rd_nat, hcell, getElem?_blanks]
    cases v.dropWhile (· == ch ' ') with
    | nil => exact ⟨ch '\n', rfl, by decide⟩
    | cons c w => exact ⟨c, rfl, by simp⟩
  have hrange := valueEnd_range (v.rdropWhile isspace)
  cases hend : valueEnd (v.rdropWhile isspace) with
  | mk e port =>
    rw [hend] at hrange
    obtain ⟨y, hy, hclose⟩ := h.before hprefix hrange.1 hrange.2
    unfold parseHttp valueRef
    simp only [hhttp, h.search, hsix, h.start, h.newline, h.trimmed, h.digits hprefix,
      h.port wantPort hend, hend, Option.bind_eq_bind, Option.bind_some, Option.getD_some,
      Bool.not_true, Bool.false_eq_true, if_false]
    cases portRef wantPort port with
    | none => rfl
    | some n =>
      simp only [Option.map_some, Option.bind_some, hc, hy]
      by_cases hbracket : c = ch '['
      · rw [if_pos hbracket, if_pos (hopen.mp hbracket)]
        by_cases hy' : y = ch ']'
        · rw [if_neg (not_not.mpr hy'), if_pos (hclose.mp hy')]
          simp
          omega
        · rw [if_pos hy', if_neg (mt hclose.mpr hy')]
          rfl
      · rw [if_neg hbracket, if_neg (mt hopen.mpr hbracket)]
        simp

/-- A line that begins with the name and ends is such a line. -/
lemma exists_hostText (h : LineEnds b) : ∃ lead v rest, HostText b lead v rest := by
  obtain ⟨q, host, k, hat⟩ := hostAt_of_lineEnds h
  have hfit := hostField_fits hat.occurs
  have hhost := hat.start.ge
  have hk := hat.line.ge
  have hin := hat.line.lt
  obtain ⟨c, hc, hnl⟩ := hat.line.hit
  rw [beq_iff_eq] at hnl
  subst hnl
  have hlead : (b.take (q + 6)).length = q + 6 := by
    rw [List.length_take]
    omega
  refine ⟨b.take (q + 6), (b.drop (q + 6)).take (k - (q + 6)), b.drop (k + 1), ?_, ?_, ?_, ?_⟩
  · have hrest : b.drop k = ch '\n' :: b.drop (k + 1) := by
      obtain ⟨hlt, hget⟩ := List.getElem?_eq_some_iff.mp hc
      rw [List.drop_eq_getElem_cons hlt, hget]
    have hdrop : (b.drop (q + 6)).drop (k - (q + 6)) = b.drop k := by
      rw [List.drop_drop]
      congr 1
      omega
    rw [← hrest, ← hdrop, List.take_append_drop, List.take_append_drop]
  · rw [hlead, Nat.add_sub_cancel]
    exact hat.occurs.within (List.take_prefix _ _) (Nat.le_of_eq hlead.symm)
  · intro j hj
    have hfirst := hat.first j hj
    omega
  · intro hmem
    obtain ⟨i, hi⟩ := List.mem_iff_getElem?.mp hmem
    have hlt : i < k - (q + 6) := by
      have hbound := (List.getElem?_eq_some_iff.mp hi).1
      rw [List.length_take] at hbound
      omega
    rw [List.getElem?_take_of_lt hlt, List.getElem?_drop] at hi
    by_cases hblank : q + 6 + i < host
    · exact absurd (hat.start.first _ _ (by omega) hblank hi) (by decide)
    · exact absurd (hat.line.first _ _ (by omega) (by omega) hi) (by decide)

lemma HostText.lineEnds (h : HostText b lead v rest) : LineEnds b := by
  have hfit := hostField_fits h.field
  refine ⟨lead.length - 6, lead.length + v.length, ?_, by omega, ?_⟩
  · rw [h.split]
    exact h.field.mono (List.prefix_append _ _)
  · rw [h.split, List.getElem?_append_right (Nat.le_add_right _ _), Nat.add_sub_cancel_left]
    simp

/-- `parse_http` reads a host only in a request with a `Host` line. -/
theorem parseHttp_cases (b : Bytes) :
    (isHttp b b.length = some true ∧ ∃ lead v rest, HostText b lead v rest) ∨
      ∀ wantPort, parseHttp b b.length wantPort = some .miss := by
  by_cases hhttp : isHttp b b.length = some true
  · by_cases hline : LineEnds b
    · exact .inl ⟨hhttp, exists_hostText hline⟩
    · exact .inr fun _ => parseHttp_miss fun _ => hline
  · exact .inr fun _ => parseHttp_miss fun h => absurd h hhttp

/-- No byte outside the buffer is read. -/
theorem parseHttp_returns (b : Bytes) (wantPort : Bool) :
    ∃ ref, parseHttp b b.length wantPort = some ref := by
  rcases parseHttp_cases b with ⟨hhttp, lead, v, rest, hline⟩ | hmiss
  · exact ⟨_, parseHttp_text hline hhttp wantPort⟩
  · exact ⟨_, hmiss wantPort⟩

end Answer

section Ends

variable {t a ds s : Bytes} {x last : UInt8}

lemma rdropWhile_run {p : UInt8 → Bool} (hx : p x = false) (hds : ∀ d ∈ ds, p d = true) :
    (a ++ x :: ds).rdropWhile p = a ++ [x] := by
  induction ds using List.reverseRecOn with
  | nil => rw [List.rdropWhile_concat_neg p a x (by simp [hx])]
  | append_singleton ds d ih =>
    have hd : p d = true := hds d (by simp)
    have hsplit : a ++ x :: (ds ++ [d]) = (a ++ x :: ds) ++ [d] := by simp
    rw [hsplit, List.rdropWhile_concat_pos p _ _ hd]
    exact ih fun d' hd' => hds d' (List.mem_append_left _ hd')

/-- What cannot stay at the end does not count. -/
lemma rdropWhile_pass {p : UInt8 → Bool} (hds : ∀ d ∈ ds, p d = true) :
    (a ++ ds).rdropWhile p = a.rdropWhile p := by
  induction ds using List.reverseRecOn with
  | nil => rw [List.append_nil]
  | append_singleton ds d ih =>
    rw [← List.append_assoc, List.rdropWhile_concat_pos p _ _ (hds d (by simp))]
    exact ih fun d' hd' => hds d' (List.mem_append_left _ hd')

/-- Where the host ends, by the byte before the digits. -/
lemma valueEnd_run {z : UInt8} (hx : isdigit x = false) (hds : ∀ d ∈ ds, isdigit d = true)
    (h : ch ':' :: t = a ++ x :: (ds ++ [z])) :
    valueEnd t = if x = ch ':' then ((a.length : Int) - 1, some (ds ++ [z]))
      else ((t.length : Int), none) := by
  have hcut : (ch ':' :: t).dropLast = a ++ x :: ds := by
    rw [h, ← List.cons_append, ← List.append_assoc, List.dropLast_concat]
  have hdrop : t.drop (a ++ [x]).length.pred = ds ++ [z] := by
    have hcons : t.drop (a ++ [x]).length.pred = (ch ':' :: t).drop (a ++ [x]).length := by
      simp
    rw [hcons, h]
    have hsplit : a ++ x :: (ds ++ [z]) = (a ++ [x]) ++ (ds ++ [z]) := by simp
    rw [hsplit, List.drop_left]
  unfold valueEnd
  simp only [hcut, rdropWhile_run hx hds, List.getLast?_append, List.getLast?_singleton,
    Option.some_or, Option.some.injEq]
  split
  · rw [Nat.pred_eq_sub_one] at hdrop
    rw [hdrop]
    simp
    omega
  · rfl

/-- Some byte stands before the last digits: the colon of the name if there is no other. -/
lemma exists_run (ht : t ≠ []) : ∃ a x ds last, ch ':' :: t = a ++ x :: (ds ++ [last]) ∧
    isdigit x = false ∧ ∀ d ∈ ds, isdigit d = true := by
  obtain ⟨s, last, rfl⟩ := List.eq_nil_or_concat t |>.resolve_left ht
  have hsplit := List.rdropWhile_append_rtakeWhile (p := isdigit) (l := ch ':' :: s)
  have hne : (ch ':' :: s).rdropWhile isdigit ≠ [] := by
    intro hnil
    rw [List.rdropWhile_eq_nil_iff] at hnil
    exact absurd (hnil (ch ':') (by simp)) (by decide)
  obtain ⟨a, x, ha⟩ := List.eq_nil_or_concat _ |>.resolve_left hne
  have hx := List.rdropWhile_last_not isdigit _ hne
  simp only [ha, List.concat_eq_append, List.getLast_append_singleton, Bool.not_eq_true] at hx
  refine ⟨a, x, (ch ':' :: s).rtakeWhile isdigit, last, ?_, hx, fun d => List.mem_rtakeWhile_imp⟩
  rw [ha] at hsplit
  rw [List.concat_eq_append, ← List.cons_append]
  conv_lhs => rw [← hsplit]
  simp

/-- The host ends behind a byte that is no digit and no colon, unless it is the last one. -/
lemma valueEnd_gt {n : Nat} (hcell : t[n]? = some x) (hx : isdigit x = false) (hcolon : x ≠ ch ':')
    (hn : n + 1 < t.length) : (n : Int) < (valueEnd t).1 := by
  have hne : t ≠ [] := List.ne_nil_of_length_pos (by omega)
  obtain ⟨a, y, ds, last, hsplit, hy, hds⟩ := exists_run hne
  have hlen := congrArg List.length hsplit
  simp only [List.length_cons, List.length_append, List.length_nil] at hlen
  have hat : (a ++ y :: (ds ++ [last]))[n + 1]? = some x := by
    rw [← hsplit, List.getElem?_cons_succ, hcell]
  -- it stands before the digits
  have hbefore : n + 1 < a.length ∨ n + 1 = a.length ∧ x = y := by
    rcases Nat.lt_trichotomy (n + 1) a.length with hlt | heq | hgt
    · exact .inl hlt
    · rw [heq, List.getElem?_append_right (Nat.le_refl _), Nat.sub_self] at hat
      exact .inr ⟨heq, (Option.some.inj hat).symm⟩
    · exfalso
      obtain ⟨k, hk⟩ := Nat.exists_eq_add_of_lt hgt
      rw [List.getElem?_append_right (by omega), show n + 1 - a.length = k + 1 by omega,
        List.getElem?_cons_succ, List.getElem?_append_left (by omega)] at hat
      rw [hds x (List.mem_of_getElem? hat)] at hx
      cases hx
  rw [valueEnd_run hy hds hsplit]
  split
  · next heq =>
    rcases hbefore with hlt | ⟨-, hxy⟩
    · simp only
      omega
    · exact absurd (hxy.trans heq) hcolon
  · simp only
    omega

/-- The end behind a front that is cut off, when some byte before the last one is no digit. -/
lemma valueEnd_drop {k : Nat} (h : ∃ d ∈ (t.drop k).dropLast, isdigit d = false) :
    valueEnd (t.drop k) = ((valueEnd t).1 - k, (valueEnd t).2) := by
  have hne : t.drop k ≠ [] := by
    rintro hnil
    obtain ⟨d, hd, -⟩ := h
    rw [hnil] at hd
    cases hd
  have hk : k ≤ t.length := by
    by_contra hlt
    exact hne (List.drop_eq_nil_of_le (by omega))
  obtain ⟨a, y, ds, last, hsplit, hy, hds⟩ := exists_run hne
  cases a with
  | nil =>
    exfalso
    rw [List.nil_append, List.cons.injEq] at hsplit
    obtain ⟨d, hd, hnot⟩ := h
    rw [hsplit.2, List.dropLast_concat] at hd
    rw [hds d hd] at hnot
    cases hnot
  | cons c a =>
    rw [List.cons_append, List.cons.injEq] at hsplit
    have hwhole : ch ':' :: t = (ch ':' :: t.take k ++ a) ++ y :: (ds ++ [last]) := by
      conv_lhs => rw [← List.take_append_drop k t, hsplit.2]
      simp
    have hcut : ch ':' :: t.drop k = (ch ':' :: a) ++ y :: (ds ++ [last]) := by
      rw [hsplit.2]
      rfl
    rw [valueEnd_run hy hds hwhole, valueEnd_run hy hds hcut]
    split
    · simp only [List.length_append, List.length_cons, List.length_take, Prod.mk.injEq, and_true]
      omega
    · simp only [List.length_drop, Prod.mk.injEq, and_true]
      omega

/-- Digits up to the last byte are taken for a port of the field's colon. -/
lemma valueEnd_digits (hne : t ≠ []) (h : ∀ d ∈ t.dropLast, isdigit d = true) :
    valueEnd t = (-1, some t) := by
  obtain ⟨s, last, rfl⟩ := List.eq_nil_or_concat t |>.resolve_left hne
  rw [List.concat_eq_append, List.dropLast_concat] at h
  have hend := valueEnd_run (t := s ++ [last]) (a := []) (x := ch ':') (z := last) (by decide) h rfl
  rw [if_pos rfl] at hend
  rw [List.concat_eq_append, hend]
  rfl

/-- No white space follows the host. -/
lemma valueEnd_rest (hlast : ∀ c, t.getLast? = some c → isspace c = false) :
    ∀ x ∈ (ch ':' :: t).drop ((valueEnd t).1 + 1).toNat, isspace x = false := by
  intro c hc
  by_cases ht : t = []
  · subst ht
    have hend : (valueEnd []).1 = 0 := rfl
    rw [hend] at hc
    simp at hc
  · obtain ⟨a, y, ds, last, hsplit, hy, hds⟩ := exists_run ht
    rw [valueEnd_run hy hds hsplit] at hc
    split at hc
    · next hcolon =>
      simp only [Int.sub_add_cancel, Int.toNat_natCast, hsplit, List.drop_left] at hc
      simp only [List.mem_cons, List.mem_append, List.not_mem_nil, or_false] at hc
      rcases hc with rfl | hc | rfl
      · rw [hcolon]
        decide
      · exact isspace_digit (hds c hc)
      · apply hlast
        have hend := congrArg List.getLast? hsplit
        cases hcase : t.getLast? with
        | none => exact absurd (List.getLast?_eq_none_iff.mp hcase) ht
        | some d => simpa [List.getLast?_cons, hcase] using hend
    · have hnil : (ch ':' :: t).drop (((t.length : Int) + 1).toNat) = [] := by
        apply List.drop_eq_nil_of_le
        simp only [List.length_cons]
        omega
      rw [hnil] at hc
      cases hc

end Ends

/-- Where the host begins in the text. -/
def hostStart (v : Bytes) : Nat :=
  (blanks v).length + if v[(blanks v).length]? = some (ch '[') then 1 else 0

section Found

variable {v : Bytes} {off : Nat}

lemma hostStart_le (v : Bytes) : hostStart v ≤ v.length := by
  have hlen : (blanks v).length ≤ v.length := (List.takeWhile_sublist _).length_le
  unfold hostStart
  split
  · next h =>
    have hlt := (List.getElem?_eq_some_iff.mp h).1
    omega
  · omega

lemma take_hostStart (v : Bytes) : ∀ c ∈ v.take (hostStart v), c ≠ ch ':' := by
  have hblanks : v.take (blanks v).length = blanks v :=
    (List.prefix_iff_eq_take.mp (List.takeWhile_prefix _)).symm
  intro c hc
  unfold hostStart at hc
  split at hc
  · next h =>
    obtain ⟨hlt, hget⟩ := List.getElem?_eq_some_iff.mp h
    rw [List.take_succ_eq_append_getElem hlt, hblanks, hget] at hc
    rcases List.mem_append.mp hc with hc | hc
    · rw [mem_blanks hc]
      decide
    · rw [List.mem_singleton.mp hc]
      decide
  · rw [Nat.add_zero, hblanks] at hc
    rw [mem_blanks hc]
    decide

/-- Where a host is found, and where it ends. -/
lemma valueRef_found (h : (valueRef false off v).len ≠ 0) :
    (valueRef false off v).hs = some ((off + hostStart v : Nat) : Int) ∧
      (v[(blanks v).length]? = some (ch '[') →
        0 < (valueEnd (v.rdropWhile isspace)).1 ∧
        (v.rdropWhile isspace)[((valueEnd (v.rdropWhile isspace)).1 - 1).toNat]? = some (ch ']') ∧
        (valueRef false off v).len = (valueEnd (v.rdropWhile isspace)).1 - 1 - hostStart v) ∧
      (v[(blanks v).length]? ≠ some (ch '[') →
        (valueRef false off v).len = (valueEnd (v.rdropWhile isspace)).1 - hostStart v) := by
  revert h
  have hport : ∀ port, portRef false port = some none := by
    intro port
    cases port <;> rfl
  unfold valueRef hostStart
  simp only [hport]
  cases hend : valueEnd (v.rdropWhile isspace) with
  | mk e port =>
    simp only
    split
    · next hopen =>
      split
      · next hclose =>
        intro hlen
        simp only [Option.some.injEq]
        refine ⟨by omega, fun _ => ⟨hclose.1, hclose.2, by omega⟩, fun hnot => ?_⟩
        exact absurd hopen hnot
      · intro hlen
        exact absurd rfl hlen
    · next hopen =>
      intro hlen
      simp only [Option.some.injEq]
      exact ⟨by omega, fun hbracket => absurd hbracket hopen, fun _ => by omega⟩

lemma valueRef_le (h : (valueRef false off v).len ≠ 0) :
    (valueRef false off v).len ≤ v.length - hostStart v := by
  obtain ⟨-, hopen, hplain⟩ := valueRef_found h
  have hrange := valueEnd_range (v.rdropWhile isspace)
  have hlen := (List.rdropWhile_prefix isspace (l := v)).length_le
  by_cases hbracket : v[(blanks v).length]? = some (ch '[')
  · have heq := (hopen hbracket).2.2
    omega
  · have heq := hplain hbracket
    omega

end Found

end HostValue
