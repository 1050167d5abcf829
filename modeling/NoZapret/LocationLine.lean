import NoZapret.HostValue
import NoZapret.Response

/-!
# The `Location` line of a response

What `is_http_redirect` reads in a response, as texts: the status, the first `Location` line, the
byte behind its colon, which is skipped unread, and the text without the white space at its end.
-/

namespace LocationLine

open Block HostLine HostValue Numbers Packets Response

def versionText : Bytes := ascii ['H', 'T', 'T', 'P', '/', '1', '.']

/-- The first `Location` line of a buffer: what comes up to its colon, the byte that is skipped,
the text and what follows it. -/
structure LocationText (b lead : Bytes) (c : UInt8) (v rest : Bytes) : Prop where
  split : b = lead ++ c :: (v ++ ch '\n' :: rest)
  field : Occurs lead locationField (lead.length - 10)
  first : ∀ j, Occurs b locationField j → lead.length ≤ j + 10
  line : ch '\n' ∉ v

/-- The text without its scheme. -/
def strip (t : Bytes) : Bytes :=
  if t.length ≤ 7 then t
  else if t.take 7 = httpScheme then t.drop 7
  else if t.take 8 = httpsScheme then t.drop 8
  else t

/-- What is read of a line: its text without the white space at its end. -/
def textOf (c : UInt8) (v : Bytes) : Bytes := ((c :: v).rdropWhile isspace).drop 1

/-- The status that stands behind the version, with room for a location. -/
def Redirects (b : Bytes) : Prop :=
  29 ≤ b.length ∧ ∃ code, getHttpCode b b.length = some code ∧ 300 ≤ code ∧ code ≤ 308

/-- The digits of the status run to the end of the buffer, or there are none before it. -/
def StatusOpen (b : Bytes) : Prop :=
  29 ≤ b.length ∧ b.take 7 = versionText ∧ ch '\n' ∈ b.drop 12 ∧ number (b.drop 9) = none

/-- `is_http_redirect` up to the last search: where the location begins and where the line ends. -/
def locationLine (resp : Bytes) (sn : Nat) : Option (Option (Int × Int)) := do
  if sn < 29 then return none
  let code ← getHttpCode resp sn
  if code > 308 ∨ code < 300 then return none
  let some field ← strncasestr resp sn locationField | return none
  let location := field + 11
  if location + 8 ≥ sn then return none
  let some lEnd ← findIn resp (· == ch '\n') location (sn - location) | return none
  let lEnd ← trimBack isspace resp (sn + 1) lEnd
  let location ← (if lEnd - location > 7 ∨ lEnd < location then do
      if (← slice resp location 7) = httpScheme then return location + 7
      if (← slice resp location 8) = httpsScheme then return location + 8
      return location
    else some location)
  return some (location, lEnd)

section Stages

variable {α β γ : Type}

lemma bind_stage {x : Option α} {f : α → Option β} {g : β → Option γ} {k : α → Option γ}
    (h : ∀ a, k a = (f a).bind g) : x.bind k = (x.bind f).bind g := by
  cases x with
  | none => rfl
  | some a => exact h a

/-- The rest of `is_http_redirect` looks for the slash. -/
lemma redirectTarget_eq (resp : Bytes) (sn : Nat) :
    redirectTarget resp sn = (locationLine resp sn).bind fun line =>
      match line with
      | none => some none
      | some (location, lEnd) =>
        (memchrFrom resp (ch '/') location (lEnd - location)).map fun le =>
          some (location, le.getD lEnd) := by
  unfold redirectTarget locationLine
  split
  · rfl
  refine bind_stage fun code => ?_
  split
  · rfl
  refine bind_stage fun field => ?_
  cases field with
  | none => rfl
  | some field =>
    simp only
    split
    · rfl
    refine bind_stage fun found => ?_
    cases found with
    | none => rfl
    | some lEnd =>
      refine bind_stage fun lEnd => bind_stage fun location => ?_
      exact (Option.map_eq_bind (f := fun le => some (location, Option.getD le lEnd))).symm

end Stages

section Status

variable {b text : Bytes}

/-- A number ends before its text does. -/
lemma number_lt {r : Int × Nat} (h : number text = some r) : r.2 < text.length := by
  have hsplit := List.takeWhile_append_dropWhile (p := isspace) (l := text)
  unfold number at h
  cases hrest : text.dropWhile isspace with
  | nil =>
    rw [hrest] at h
    cases h
  | cons c rest =>
    have hlen := congrArg List.length hsplit
    rw [hrest, List.length_append, List.length_cons] at hlen
    rw [hrest] at h
    have hle := (List.takeWhile_prefix isdigit (l := rest)).length_le
    have hle' := (List.takeWhile_prefix isdigit (l := c :: rest)).length_le
    rw [List.length_cons] at hle'
    by_cases hsign : c = ch '-' ∨ c = ch '+'
    · simp only [hsign, if_true] at h
      split at h
      · cases h
      · split at h
        · cases h
          simp only
          omega
        · cases h
          simp only
          omega
    · simp only [hsign, if_false, List.length_cons] at h
      split at h
      · cases h
      · split at h
        · cases h
          simp only
          omega
        · cases h
          simp only
          omega

/-- The status, unless the digits run out of the buffer. -/
lemma getHttpCode_eq (h : 13 ≤ b.length) :
    getHttpCode b b.length =
      if b.take 7 = versionText ∧ ch '\n' ∈ b.drop 12 then
        (number (b.drop 9)).map fun r =>
          if r.1 < 100 ∨ r.1 > 511 ∨ ¬ b[9 + r.2]?.any isspace then 0 else r.1
      else some 0 := by
  have hfront : slice b 0 7 = some (b.take 7) := slice_nat (i := 0) (n := 7) (by omega)
  have hnine : (b.take 9).length = 9 := by
    rw [List.length_take]
    omega
  have hnum := strtol_eq (b.take 9) (b.drop 9)
  rw [List.take_append_drop, hnine] at hnum
  have hnum : strtol b 9 = _ := hnum
  unfold getHttpCode
  rw [if_neg (by omega)]
  simp only [hfront, Option.bind_eq_bind, Option.bind_some]
  change (if b.take 7 ≠ versionText then _ else _) = _
  by_cases hversion : b.take 7 = versionText
  · rw [if_neg (not_not.mpr hversion)]
    rcases findIn_cases (b := b) (· == ch '\n') (i := 12) (n := b.length) (by omega)
      (Nat.le_refl _) with ⟨k, hfind, hfirst⟩ | ⟨hfind, hnone⟩
    · have hmem : ch '\n' ∈ b.drop 12 := by
        obtain ⟨x, hx, hnl⟩ := hfirst.hit
        rw [beq_iff_eq] at hnl
        subst hnl
        refine List.mem_iff_getElem?.mpr ⟨k - 12, ?_⟩
        rw [List.getElem?_drop, Nat.add_sub_cancel' hfirst.ge, hx]
      rw [if_pos ⟨hversion, hmem⟩]
      have hfind : findIn b (· == ch '\n') 12 ((b.length : Int) - 12) = _ := hfind
      simp only [hfind, hnum, Option.bind_some]
      cases hr : number (b.drop 9) with
      | none => rfl
      | some r =>
        have hlt := number_lt hr
        rw [List.length_drop] at hlt
        have hread : rd b ((9 + r.2 : Nat) : Int) = b[9 + r.2]? := rd_nat _ _
        have hcell : b[9 + r.2]? = some b[9 + r.2] := List.getElem?_eq_getElem (by omega)
        simp only [Option.bind_some, Option.map_some, hread, hcell, Option.any_some]
        by_cases hrange : r.1 < 100 ∨ r.1 > 511
        · rw [if_pos hrange, if_pos (by tauto)]
          rfl
        · rw [if_neg hrange]
          cases hspace : isspace b[9 + r.2] with
          | true => simp [hrange]
          | false => simp
    · have hmem : ch '\n' ∉ b.drop 12 := by
        intro hmem
        obtain ⟨i, hi⟩ := List.mem_iff_getElem?.mp hmem
        rw [List.getElem?_drop] at hi
        have hlt := (List.getElem?_eq_some_iff.mp hi).1
        exact absurd (hnone _ _ (Nat.le_add_right _ _) hlt hi) (by decide)
      have hfind : findIn b (· == ch '\n') 12 ((b.length : Int) - 12) = _ := hfind
      rw [if_neg (fun hboth => hmem hboth.2), hfind]
      rfl
  · rw [if_pos hversion, if_neg (fun hboth => hversion hboth.1)]
    rfl

end Status

section Line

variable {b lead v rest : Bytes} {c : UInt8} {q : Nat}

lemma locationField_head : PlainHead locationField (ch '\n') :=
  ⟨rfl, fun _ h => tolower_plain (by decide) (h.trans rfl)⟩

lemma locationField_fits (h : Occurs b locationField q) : q + 10 ≤ b.length := h.1

lemma LocationText.colon (h : LocationText b lead c v rest) : lead.getLast? = some (ch ':') := by
  have hfit := locationField_fits h.field
  obtain ⟨x, hx, heq⟩ := h.field.get (i := 9) (c := ch ':') rfl
  rw [tolower_plain (x := x) (c := ch ':') (by decide) heq] at hx
  have hlast : lead.length - 10 + 9 = lead.length - 1 := by omega
  rw [List.getLast?_eq_getElem?, ← hlast, hx]

lemma LocationText.length (h : LocationText b lead c v rest) :
    b.length = lead.length + 1 + v.length + 1 + rest.length := by
  rw [h.split]
  simp only [List.length_append, List.length_cons]
  omega

/-- The search for the field finds it. -/
lemma LocationText.search (h : LocationText b lead c v rest) :
    strncasestr b b.length locationField = some (some ((lead.length - 10 : Nat) : Int)) := by
  have hfit := locationField_fits h.field
  have hocc : Occurs b locationField (lead.length - 10) := by
    rw [h.split]
    exact h.field.mono (List.prefix_append _ _)
  rcases strncasestr_cases locationField_head b with ⟨q, hq, hat, hfirst⟩ | ⟨-, hno⟩
  · have h1 := hfirst _ hocc
    have h2 := h.first q hat
    rw [hq, show q = lead.length - 10 by omega]
  · exact absurd hocc (hno _)

/-- The search for the end of the line begins behind the byte that is skipped. -/
lemma LocationText.newline (h : LocationText b lead c v rest) :
    findIn b (· == ch '\n') ((lead.length + 1 : Nat) : Int)
        ((b.length : Int) - (lead.length + 1 : Nat)) =
      some (some ((lead.length + 1 + v.length : Nat) : Int)) := by
  have hpass : ∀ x ∈ v, (x == ch '\n') = false := by
    intro x hx
    rw [beq_eq_false_iff_ne]
    rintro rfl
    exact h.line hx
  have hhit := firstHit_text (a := lead ++ [c]) (r := rest) hpass
    (show (ch '\n' == ch '\n') = true by decide)
  rw [List.append_assoc, List.singleton_append, ← h.split, List.length_append,
    List.length_singleton] at hhit
  exact findIn_of_firstHit hhit (Nat.le_refl _)

lemma LocationText.trimmed (h : LocationText b lead c v rest) :
    trimBack isspace b (b.length + 1) ((lead.length + 1 + v.length : Nat) : Int) =
      some ((lead.length + ((c :: v).rdropWhile isspace).length : Nat) : Int) := by
  have hlen := h.length
  have htrim := trimBack_text (p := isspace) (a := lead) (s := c :: v) (r := ch '\n' :: rest)
    (n := b.length + 1) h.colon (by decide) (by rw [List.length_cons]; omega)
  have hat : lead.length + (c :: v).length = lead.length + 1 + v.length := by
    rw [List.length_cons]
    omega
  rwa [List.cons_append, ← h.split, hat] at htrim

/-- The bytes that are compared with a scheme. -/
lemma LocationText.front (h : LocationText b lead c v rest) {n : Nat}
    (hn : lead.length + 1 + n ≤ b.length) :
    slice b ((lead.length + 1 : Nat) : Int) n = some ((v ++ ch '\n' :: rest).take n) := by
  rw [slice_nat hn]
  have hsplit : b = (lead ++ [c]) ++ (v ++ ch '\n' :: rest) := by
    rw [List.append_assoc, List.singleton_append]
    exact h.split
  have hlead : lead.length + 1 = (lead ++ [c]).length := by
    rw [List.length_append, List.length_singleton]
  rw [hlead]
  conv_lhs => rw [hsplit, List.drop_left]

/-- The byte that is skipped counts as white space as well. -/
lemma trimmed_cases (c : UInt8) (v : Bytes) :
    ((c :: v).rdropWhile isspace = [] ∧ textOf c v = [] ∧ ∀ x ∈ c :: v, isspace x = true) ∨
      ((c :: v).rdropWhile isspace = c :: textOf c v ∧ textOf c v <+: v) := by
  cases ht : (c :: v).rdropWhile isspace with
  | nil =>
    refine .inl ⟨rfl, ?_, List.rdropWhile_eq_nil_iff.mp ht⟩
    rw [textOf, ht]
    rfl
  | cons d t =>
    have hpre := List.rdropWhile_prefix isspace (l := c :: v)
    rw [ht, List.cons_prefix_cons] at hpre
    obtain ⟨rfl, hpre⟩ := hpre
    have htext : textOf d v = t := by
      rw [textOf, ht]
      rfl
    rw [htext]
    exact .inr ⟨rfl, hpre⟩

lemma strip_length (t : Bytes) : (strip t).length ≤ t.length := by
  unfold strip
  split_ifs
  · exact Nat.le_refl _
  · exact (List.drop_sublist 7 t).length_le
  · exact (List.drop_sublist 8 t).length_le
  · exact Nat.le_refl _

/-- The test for a scheme. -/
lemma LocationText.scheme (h : LocationText b lead c v rest) (hroom : lead.length + 9 < b.length) :
    (if ((lead.length + ((c :: v).rdropWhile isspace).length : Nat) : Int) -
          (lead.length + 1 : Nat) > 7 ∨
        ((lead.length + ((c :: v).rdropWhile isspace).length : Nat) : Int) <
          (lead.length + 1 : Nat) then do
      if (← slice b ((lead.length + 1 : Nat) : Int) 7) = httpScheme then
        return ((lead.length + 1 : Nat) : Int) + 7
      if (← slice b ((lead.length + 1 : Nat) : Int) 8) = httpsScheme then
        return ((lead.length + 1 : Nat) : Int) + 8
      return ((lead.length + 1 : Nat) : Int)
    else some ((lead.length + 1 : Nat) : Int)) =
      some ((lead.length + 1 + ((textOf c v).length - (strip (textOf c v)).length) : Nat) : Int) := by
  have h7 := h.front (n := 7) (by omega)
  have h8 := h.front (n := 8) (by omega)
  have h7 : slice b ((lead.length + 1 : Nat) : Int) 7 = _ := h7
  have h8 : slice b ((lead.length + 1 : Nat) : Int) 8 = _ := h8
  rcases trimmed_cases c v with ⟨ht, htext, hspace⟩ | ⟨ht, hpre⟩
  · -- white space is no scheme
    have hhead : ∃ x tail, v ++ ch '\n' :: rest = x :: tail ∧ isspace x = true := by
      cases v with
      | nil => exact ⟨_, _, rfl, by decide⟩
      | cons x v => exact ⟨x, _, rfl, hspace x (by simp)⟩
    obtain ⟨x, tail, hhead, hx⟩ := hhead
    rw [hhead] at h7 h8
    have hno : ∀ {y s t}, (x :: s : Bytes) = y :: t → isspace y = true := by
      rintro y s t heq
      rw [← (List.cons.inj heq).1]
      exact hx
    have hhttp : (x :: tail).take 7 ≠ httpScheme := fun heq =>
      absurd (hno (y := ch 'h') heq) (by decide)
    have hhttps : (x :: tail).take 8 ≠ httpsScheme := fun heq =>
      absurd (hno (y := ch 'h') heq) (by decide)
    rw [if_pos (by rw [ht]; simp)]
    simp only [h7, h8, Option.bind_eq_bind, Option.bind_some, if_neg hhttp, if_neg hhttps, htext]
    rfl
  · obtain ⟨w, hw⟩ := hpre
    rw [ht, List.length_cons]
    generalize textOf c v = t at hw ⊢
    subst hw
    by_cases hlong : t.length ≤ 7
    · rw [if_neg (by omega), strip, if_pos hlong, Nat.sub_self]
    · rw [if_pos (by omega)]
      rw [List.append_assoc, List.take_append_of_le_length (by omega)] at h7 h8
      simp only [h7, h8, Option.bind_eq_bind, Option.bind_some, strip, if_neg hlong]
      split
      · rw [List.length_drop, Nat.sub_sub_self (by omega)]
        rfl
      · split
        · rw [List.length_drop, Nat.sub_sub_self (by omega)]
          rfl
        · rw [Nat.sub_self]
          rfl

/-- Where the text begins behind its scheme and where it ends. -/
theorem locationLine_text (h : LocationText b lead c v rest) (hstatus : Redirects b)
    (hroom : lead.length + 9 < b.length) :
    locationLine b b.length =
      some (some (((lead.length + 1 + ((textOf c v).length - (strip (textOf c v)).length) : Nat) : Int),
        ((lead.length + ((c :: v).rdropWhile isspace).length : Nat) : Int))) := by
  obtain ⟨hlen, code, hcode, hlo, hhi⟩ := hstatus
  have hfit := locationField_fits h.field
  have hat : ((lead.length - 10 : Nat) : Int) + 11 = (lead.length + 1 : Nat) := by omega
  unfold locationLine
  rw [if_neg (by omega)]
  simp only [hcode, h.search, hat, Option.bind_eq_bind, Option.bind_some]
  rw [if_neg (by omega), if_neg (by omega)]
  simp only [h.newline, h.trimmed, Option.bind_some]
  have hscheme := h.scheme hroom
  simp only [Option.bind_eq_bind] at hscheme
  rw [hscheme]
  rfl

/-- The first line that begins so and ends. -/
lemma exists_locationText {k : Nat} (hocc : Occurs b locationField q)
    (hfirst : ∀ j, Occurs b locationField j → q ≤ j)
    (hline : FirstHit b (· == ch '\n') (q + 11) b.length k) :
    ∃ lead c v rest, LocationText b lead c v rest ∧ lead.length = q + 10 := by
  have hk := hline.ge
  have hin := hline.lt
  obtain ⟨x, hx, hnl⟩ := hline.hit
  rw [beq_iff_eq] at hnl
  subst hnl
  have hlead : (b.take (q + 10)).length = q + 10 := by
    rw [List.length_take]
    omega
  have hskip : b.drop (q + 10) = b[q + 10] :: b.drop (q + 11) :=
    List.drop_eq_getElem_cons (by omega)
  have hrest : b.drop k = ch '\n' :: b.drop (k + 1) := by
    obtain ⟨hlt, hget⟩ := List.getElem?_eq_some_iff.mp hx
    rw [List.drop_eq_getElem_cons hlt, hget]
  have hdrop : (b.drop (q + 11)).drop (k - (q + 11)) = b.drop k := by
    rw [List.drop_drop]
    congr 1
    omega
  refine ⟨b.take (q + 10), b[q + 10], (b.drop (q + 11)).take (k - (q + 11)), b.drop (k + 1),
    ⟨?_, ?_, ?_, ?_⟩, hlead⟩
  · rw [← hrest, ← hdrop, List.take_append_drop, ← hskip, List.take_append_drop]
  · rw [hlead, Nat.add_sub_cancel]
    exact hocc.within (List.take_prefix _ _) (Nat.le_of_eq hlead.symm)
  · intro j hj
    have hle := hfirst j hj
    omega
  · intro hmem
    obtain ⟨i, hi⟩ := List.mem_iff_getElem?.mp hmem
    have hlt : i < k - (q + 11) := by
      have hbound := (List.getElem?_eq_some_iff.mp hi).1
      rw [List.length_take] at hbound
      omega
    rw [List.getElem?_take_of_lt hlt, List.getElem?_drop] at hi
    exact absurd (hline.first _ _ (by omega) (by omega) hi) (by decide)

lemma locationLine_open (h : StatusOpen b) : locationLine b b.length = none := by
  obtain ⟨hlen, hversion, hmem, hnone⟩ := h
  have hcode : getHttpCode b b.length = none := by
    rw [getHttpCode_eq (by omega), if_pos ⟨hversion, hmem⟩, hnone]
    rfl
  unfold locationLine
  rw [if_neg (by omega), hcode]
  rfl

/-- What can come of a response. -/
theorem locationLine_cases (b : Bytes) :
    StatusOpen b ∨ locationLine b b.length = some none ∨
      ∃ lead c v rest, LocationText b lead c v rest ∧ Redirects b ∧ lead.length + 9 < b.length := by
  by_cases hopen : StatusOpen b
  · exact .inl hopen
  refine .inr ?_
  by_cases hlen : b.length < 29
  · left
    unfold locationLine
    rw [if_pos hlen]
    rfl
  obtain ⟨code, hcode⟩ : ∃ code, getHttpCode b b.length = some code := by
    rw [getHttpCode_eq (by omega)]
    split
    · next hboth =>
      cases hnum : number (b.drop 9) with
      | none => exact absurd ⟨by omega, hboth.1, hboth.2, hnum⟩ hopen
      | some r => exact ⟨_, rfl⟩
    · exact ⟨_, rfl⟩
  by_cases hrange : code > 308 ∨ code < 300
  · left
    unfold locationLine
    rw [if_neg hlen]
    simp only [hcode, Option.bind_eq_bind, Option.bind_some, if_pos hrange]
    rfl
  have hnone : (∀ found, strncasestr b b.length locationField = some found →
      ∀ q : Nat, found = some (q : Int) → ¬ (q + 11 + 8 ≥ b.length) →
        findIn b (· == ch '\n') ((q : Int) + 11) (b.length - ((q : Int) + 11)) = some none) →
      locationLine b b.length = some none := by
    intro hmiss
    unfold locationLine
    rw [if_neg hlen]
    simp only [hcode, Option.bind_eq_bind, Option.bind_some, if_neg hrange]
    rcases strncasestr_cases locationField_head b with ⟨q, hq, -, -⟩ | ⟨hq, -⟩
    · have hend := hmiss _ hq q rfl
      simp only [hq, Option.bind_some]
      split
      · rfl
      · rw [hend (by omega)]
        rfl
    · rw [hq]
      rfl
  rcases strncasestr_cases locationField_head b with ⟨q, hq, hocc, hfirst⟩ | ⟨hq, -⟩
  · by_cases hroom : q + 11 + 8 ≥ b.length
    · left
      refine hnone fun found hfound q' hq' hroom' => ?_
      rw [hq, Option.some.injEq] at hfound
      rw [← hfound, Option.some.injEq] at hq'
      omega
    rcases findIn_cases (b := b) (· == ch '\n') (i := q + 11) (n := b.length) (by omega)
      (Nat.le_refl _) with ⟨k, -, hline⟩ | ⟨hmiss, -⟩
    · right
      obtain ⟨lead, c, v, rest, htext, hlead⟩ := exists_locationText hocc hfirst hline
      exact ⟨lead, c, v, rest, htext, ⟨by omega, code, hcode, by omega, by omega⟩, by omega⟩
    · left
      refine hnone fun found hfound q' hq' _ => ?_
      rw [hq, Option.some.injEq] at hfound
      rw [← hfound, Option.some.injEq] at hq'
      obtain rfl : q = q' := by omega
      exact hmiss
  · left
    refine hnone fun found hfound q' hq' _ => ?_
    rw [hq, Option.some.injEq] at hfound
    rw [← hfound] at hq'
    cases hq'

end Line

end LocationLine
