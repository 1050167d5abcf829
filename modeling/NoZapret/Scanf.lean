import Mathlib.Data.List.TakeWhile
import NoZapret.Numbers

/-!
# Formatted input and output

The conversions of `fscanf` and `fprintf` that the cache file is read and written with. A stream
is the text that is left of it. A number that does not fit its object is saturated as `strtoimax`
and `strtoumax` do and then cut.
-/

namespace Scanf

open Numbers Packets

/-- A white space directive. -/
def skipBlanks (text : Bytes) : Bytes := text.dropWhile isspace

/-- `%<width>s` behind the white space that it skips. -/
def scanWord (width : Nat) (text : Bytes) : Option (Bytes × Bytes) :=
  let word := (text.takeWhile fun c => !isspace c).take width
  if word.isEmpty then none else some (word, text.drop word.length)

/-- A decimal number behind the white space that its conversion skips. -/
def scanInt (text : Bytes) : Option (Int × Bytes) :=
  match text with
  | [] => none
  | c :: rest =>
    let body := if c = ch '-' ∨ c = ch '+' then rest else c :: rest
    let digits := body.takeWhile isdigit
    if digits.isEmpty then none
    else
      let v := value 0 digits
      some (if c = ch '-' then -v else v, body.drop digits.length)

def saturate (v : Int) : Int := max (-2 ^ 63) (min (2 ^ 63 - 1) v)

/-- `%d` -/
def toInt (v : Int) : Int := (saturate v).bmod (2 ^ 32)

/-- `%hu` -/
def toUInt16 (v : Int) : UInt16 :=
  UInt16.ofNat (if v.natAbs < 2 ^ 64 then (v % 2 ^ 16).toNat else 2 ^ 16 - 1)

/-- `%jd` -/
def toIntMax (v : Int) : Int := saturate v

/-- The decimal digits of a number. -/
def digitsOf (n : Nat) : Bytes :=
  if n < 10 then [UInt8.ofNat (48 + n)] else digitsOf (n / 10) ++ [UInt8.ofNat (48 + n % 10)]

/-- `%d` and `%jd` of `fprintf` -/
def decimal (v : Int) : Bytes := (if v < 0 then [ch '-'] else []) ++ digitsOf v.natAbs

section Decimal

variable {c : UInt8} {word rest : Bytes} {width : Nat}

lemma digit_toNat {d : Nat} (hd : d < 10) : (UInt8.ofNat (48 + d)).toNat = 48 + d := by
  rw [UInt8.toNat_ofNat']
  omega

lemma isdigit_ofNat {d : Nat} (hd : d < 10) : isdigit (UInt8.ofNat (48 + d)) = true := by
  have h := digit_toNat hd
  have h48 : (48 : UInt8).toNat = 48 := rfl
  have h57 : (57 : UInt8).toNat = 57 := rfl
  simp only [isdigit, Bool.and_eq_true, decide_eq_true_eq, UInt8.le_iff_toNat_le, h, h48, h57]
  omega

lemma value_snoc (acc : Int) (digits : Bytes) {d : Nat} (hd : d < 10) :
    value acc (digits ++ [UInt8.ofNat (48 + d)]) = value acc digits * 10 + d := by
  simp only [value, List.foldl_append, List.foldl_cons, List.foldl_nil, digit_toNat hd]
  omega

/-- The digits of a number have its value. -/
lemma digitsOf_spec (n : Nat) :
    digitsOf n ≠ [] ∧ (∀ d ∈ digitsOf n, isdigit d = true) ∧ value 0 (digitsOf n) = n := by
  induction n using Nat.strong_induction_on with
  | _ n ih =>
    rw [digitsOf]
    by_cases hn : n < 10
    · have hone := value_snoc 0 [] hn
      simp only [List.nil_append] at hone
      simp only [hn, if_true, hone]
      refine ⟨List.cons_ne_nil _ _, ?_, by simp [value]⟩
      intro d hd
      rw [List.mem_singleton.mp hd]
      exact isdigit_ofNat hn
    · obtain ⟨-, hdigits, hvalue⟩ := ih (n / 10) (by omega)
      have hlast : n % 10 < 10 := Nat.mod_lt n (by decide)
      simp only [hn, if_false, value_snoc 0 _ hlast, hvalue]
      refine ⟨by simp, ?_, by omega⟩
      intro d hd
      rcases List.mem_append.mp hd with hd | hd
      · exact hdigits d hd
      · rw [List.mem_singleton.mp hd]
        exact isdigit_ofNat hlast

lemma decimal_ne_nil (v : Int) : decimal v ≠ [] := by
  simp [decimal, (digitsOf_spec v.natAbs).1]

lemma takeWhile_stop {p : UInt8 → Bool} (rest : Bytes) (h : ∀ d ∈ word, p d = true)
    (hc : p c = false) :
    (word ++ c :: rest).takeWhile p = word := by
  rw [List.takeWhile_append_of_pos h, List.takeWhile_cons_of_neg (by simp [hc]), List.append_nil]

/-- What `fprintf` writes for a number is read back. -/
theorem scanInt_decimal (v : Int) (hc : isdigit c = false) :
    scanInt (decimal v ++ c :: rest) = some (v, c :: rest) := by
  obtain ⟨hne, hdigits, hvalue⟩ := digitsOf_spec v.natAbs
  obtain ⟨d, ds, hds⟩ := List.exists_cons_of_ne_nil hne
  have htake := takeWhile_stop rest hdigits hc
  have hempty : (digitsOf v.natAbs).isEmpty = false := by simpa using hne
  by_cases hv : v < 0
  · have hminus : decimal v = ch '-' :: digitsOf v.natAbs := by simp [decimal, hv]
    rw [hminus, List.cons_append, scanInt]
    simp only [true_or, if_true, htake, hempty, Bool.false_eq_true, if_false, hvalue,
      List.drop_left, Option.some.injEq, Prod.mk.injEq, and_true]
    omega
  · have hplus : decimal v = digitsOf v.natAbs := by simp [decimal, hv]
    have hd : isdigit d = true := hdigits d (by rw [hds]; exact List.mem_cons_self)
    have hsign : d ≠ ch '-' ∧ d ≠ ch '+' := by
      constructor
      · rintro rfl
        exact absurd hd (by decide)
      · rintro rfl
        exact absurd hd (by decide)
    rw [hplus]
    rw [hds] at htake hempty hvalue ⊢
    rw [List.cons_append] at htake ⊢
    simp only [scanInt, hsign, or_self, if_false, htake, hempty, Bool.false_eq_true, hvalue,
      Option.some.injEq, Prod.mk.injEq]
    refine ⟨by omega, ?_⟩
    rw [← List.cons_append, List.drop_left]

/-- A word is read back up to the blank behind it. -/
theorem scanWord_word (hne : word ≠ []) (hword : ∀ d ∈ word, isspace d = false)
    (hlen : word.length ≤ width) (hc : isspace c = true) :
    scanWord width (word ++ c :: rest) = some (word, c :: rest) := by
  have htake : (word ++ c :: rest).takeWhile (fun c => !isspace c) = word :=
    takeWhile_stop rest (fun d hd => by simp [hword d hd]) (by simp [hc])
  have hempty : word.isEmpty = false := by simpa using hne
  simp only [scanWord, htake, List.take_of_length_le hlen, hempty, Bool.false_eq_true, if_false,
    List.drop_left]

end Decimal

section Reading

variable {text rest word : Bytes} {width : Nat} {v : Int}

lemma skipBlanks_length (text : Bytes) : (skipBlanks text).length ≤ text.length :=
  (List.dropWhile_sublist _).length_le

lemma scanWord_some (h : scanWord width text = some (word, rest)) :
    (∀ c ∈ word, isspace c = false) ∧ word.length ≤ width ∧ rest.length < text.length := by
  simp only [scanWord] at h
  split at h
  · cases h
  · next hne =>
    cases h
    refine ⟨?_, ?_, ?_⟩
    · intro c hc
      simpa using List.mem_takeWhile_imp (List.mem_of_mem_take hc)
    · rw [List.length_take]
      omega
    · have hpos := List.length_pos_iff.mpr (by simpa using hne :
        (text.takeWhile fun c => !isspace c).take width ≠ [])
      have hle : ((text.takeWhile fun c => !isspace c).take width).length ≤ text.length :=
        ((List.take_sublist _ _).trans (List.takeWhile_sublist _)).length_le
      rw [List.length_drop]
      omega

lemma scanInt_some (h : scanInt text = some (v, rest)) : rest.length ≤ text.length := by
  match text with
  | [] => simp [scanInt] at h
  | c :: tail =>
    have hbody : (if c = ch '-' ∨ c = ch '+' then tail else c :: tail).length ≤
        (c :: tail).length := by
      split
      · rw [List.length_cons]
        omega
      · exact Nat.le_refl _
    simp only [scanInt, Option.ite_none_left_eq_some, Option.some.injEq, Prod.mk.injEq] at h
    obtain ⟨-, -, rfl⟩ := h
    rw [List.length_drop]
    omega

lemma toInt_range (v : Int) : -2 ^ 31 ≤ toInt v ∧ toInt v < 2 ^ 31 := by
  have hge := Int.le_bmod (x := saturate v) (m := 2 ^ 32) (by decide)
  have hlt := Int.bmod_lt (x := saturate v) (m := 2 ^ 32) (by decide)
  unfold toInt
  omega

end Reading

end Scanf
