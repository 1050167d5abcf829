import Mathlib.Algebra.Order.Ring.Int
import Mathlib.Data.List.Induction
import NoZapret.Library.Prefix
import NoZapret.Packets

/-!
# Numbers in a text

What `strtol` reads in a block, as a function of the text that follows its address.
-/

namespace Numbers

open Block Packets

/-- The value of some decimal digits that stand behind `acc`. -/
def value (acc : Int) (digits : Bytes) : Int :=
  digits.foldl (fun acc c => acc * 10 + (c.toNat - 48)) acc

/-- What `strtol` makes of the text at its address: the value, and how much it has read. `none` is
a text that ends before the number does. -/
def number (text : Bytes) : Option (Int × Nat) :=
  match text.dropWhile isspace with
  | [] => none
  | c :: rest =>
    let signed := c = ch '-' ∨ c = ch '+'
    let body := if signed then rest else c :: rest
    let digits := body.takeWhile isdigit
    if digits.length = body.length then none
    else if digits.isEmpty then some (0, 0)
    else
      let v := value 0 digits
      some (max (-2 ^ 63) (min (2 ^ 63 - 1) (if c = ch '-' then -v else v)),
        (text.takeWhile isspace).length + (if signed then 1 else 0) + digits.length)

section Reads

variable {b front text digits : Bytes} {p : UInt8 → Bool} {c : UInt8} {fuel : Nat} {acc : Int}

lemma rd_at (front : Bytes) : rd (front ++ c :: text) front.length = some c := by
  simp [rd_nat]

lemma rd_end (front : Bytes) : rd front front.length = none := by
  simp [rd_nat]

lemma skipFwd_eq (front : Bytes) (hfuel : text.length < fuel) :
    skipFwd p (front ++ text) fuel front.length =
      if text.dropWhile p = [] then none
      else some ((front.length + (text.takeWhile p).length : Nat) : Int) := by
  induction text generalizing front fuel with
  | nil =>
    obtain ⟨fuel, rfl⟩ := Nat.exists_eq_succ_of_ne_zero (Nat.ne_zero_of_lt hfuel)
    simp [skipFwd, rd_end]
  | cons c text ih =>
    obtain ⟨fuel, rfl⟩ := Nat.exists_eq_succ_of_ne_zero (Nat.ne_zero_of_lt hfuel)
    simp only [skipFwd, rd_at, Option.bind_eq_bind, Option.bind_some]
    by_cases hc : p c = true
    · have hrest := ih (front ++ [c]) (Nat.lt_of_succ_lt_succ hfuel)
      have hlen : ((front ++ [c]).length : Int) = front.length + 1 := by simp
      rw [hlen, List.append_assoc, List.singleton_append] at hrest
      rw [if_pos hc, hrest, List.dropWhile_cons_of_pos hc, List.takeWhile_cons_of_pos hc]
      split
      · rfl
      · simp only [List.length_append, List.length_cons, List.length_nil]
        congr 1
        omega
    · simp [hc]

lemma strtolDigits_eq (acc : Int) (front : Bytes) (hfuel : text.length < fuel) :
    strtolDigits (front ++ text) fuel front.length acc =
      if (text.takeWhile isdigit).length = text.length then none
      else some (value acc (text.takeWhile isdigit),
        ((front.length + (text.takeWhile isdigit).length : Nat) : Int)) := by
  induction text generalizing front fuel acc with
  | nil =>
    obtain ⟨fuel, rfl⟩ := Nat.exists_eq_succ_of_ne_zero (Nat.ne_zero_of_lt hfuel)
    simp [strtolDigits, rd_end]
  | cons c text ih =>
    obtain ⟨fuel, rfl⟩ := Nat.exists_eq_succ_of_ne_zero (Nat.ne_zero_of_lt hfuel)
    simp only [strtolDigits, rd_at, Option.bind_eq_bind, Option.bind_some]
    by_cases hc : isdigit c = true
    · have hrest := ih (acc * 10 + (c.toNat - 48)) (front ++ [c]) 
        (Nat.lt_of_succ_lt_succ hfuel)
      have hlen : ((front ++ [c]).length : Int) = front.length + 1 := by simp
      rw [hlen, List.append_assoc, List.singleton_append] at hrest
      rw [if_pos hc, hrest, List.takeWhile_cons_of_pos hc]
      simp only [List.length_cons, Nat.add_right_cancel_iff]
      split
      · rfl
      · refine congrArg some (Prod.ext rfl ?_)
        simp only [List.length_append, List.length_cons, List.length_nil]
        omega
    · simp [hc, value]

theorem strtol_eq (front text : Bytes) :
    strtol (front ++ text) front.length =
      (number text).map fun r => (r.1, ((front.length + r.2 : Nat) : Int)) := by
  have hfuel : text.length < (front ++ text).length + 1 := by
    rw [List.length_append]
    omega
  unfold strtol number
  rw [skipFwd_eq front hfuel]
  generalize hblanks : text.takeWhile isspace = blanks
  have hsplit : blanks ++ text.dropWhile isspace = text := by
    rw [← hblanks, List.takeWhile_append_dropWhile]
  cases hrest : text.dropWhile isspace with
  | nil => simp
  | cons c rest =>
    rw [hrest] at hsplit
    have hat : rd (front ++ text) ((front.length + blanks.length : Nat) : Int) = some c := by
      rw [← hsplit, ← List.append_assoc, ← List.length_append, rd_at]
    simp only [reduceCtorEq, if_false, Option.bind_eq_bind, Option.bind_some, hat]
    -- the digits are read behind the sign, if there is one
    obtain ⟨lead, body, hbody, hlead, hcut⟩ : ∃ lead body : Bytes,
        (if c = ch '-' ∨ c = ch '+' then rest else c :: rest) = body ∧
        lead.length = front.length + blanks.length + (if c = ch '-' ∨ c = ch '+' then 1 else 0) ∧
        front ++ text = lead ++ body := by
      by_cases hsign : c = ch '-' ∨ c = ch '+'
      · refine ⟨front ++ blanks ++ [c], rest, if_pos hsign, ?_, ?_⟩
        · rw [if_pos hsign]
          simp only [List.length_append, List.length_singleton]
        · rw [← hsplit]
          simp
      · refine ⟨front ++ blanks, c :: rest, if_neg hsign, ?_, ?_⟩
        · rw [if_neg hsign]
          simp
        · rw [← hsplit]
          simp
    have hk : (if c = ch '-' ∨ c = ch '+' then
          ((front.length + blanks.length : Nat) : Int) + 1
        else ((front.length + blanks.length : Nat) : Int)) = (lead.length : Nat) := by
      rw [hlead]
      split <;> omega
    rw [hk, hbody, hcut, strtolDigits_eq 0 lead (by rw [List.length_append]; omega)]
    generalize hdigits : body.takeWhile isdigit = digits
    by_cases hend : digits.length = body.length
    · simp [hend]
    · simp only [if_neg hend, Option.bind_some]
      by_cases hnone : digits = []
      · simp [hnone]
      · have hpos : 0 < digits.length := List.length_pos_iff.mpr hnone
        have hread : ¬ ((lead.length + digits.length : Nat) : Int) = (lead.length : Nat) := by
          omega
        have hsome : ¬ digits.isEmpty = true := by simpa using hnone
        rw [if_neg hread, if_neg hsome, hlead]
        simp only [Option.map_some, Option.pure_def, Nat.add_assoc]

lemma value_bounds (hdigits : ∀ d ∈ digits, isdigit d = true) :
    0 ≤ value 0 digits ∧ value 0 digits < 10 ^ digits.length := by
  induction digits using List.reverseRecOn with
  | nil => simp [value]
  | append_singleton digits d ih =>
    obtain ⟨hge, hlt⟩ := ih fun c hc => hdigits c (List.mem_append_left _ hc)
    have hd := hdigits d (by simp)
    simp only [isdigit, Bool.and_eq_true, decide_eq_true_eq, UInt8.le_iff_toNat_le] at hd
    have h48 : (48 : UInt8).toNat = 48 := rfl
    have h57 : (57 : UInt8).toNat = 57 := rfl
    rw [h48, h57] at hd
    have hsnoc : value 0 (digits ++ [d]) = value 0 digits * 10 + (d.toNat - 48) := by
      simp [value]
    rw [hsnoc, List.length_append, List.length_singleton, pow_succ]
    omega

/-- Some digits are read to their end. -/
lemma number_run {s : Bytes} (hdigits : ∀ d ∈ digits, isdigit d = true) (hne : digits ≠ [])
    (hc : isdigit c = false) :
    number (digits ++ c :: s) = some (min (2 ^ 63 - 1) (value 0 digits), digits.length) := by
  obtain ⟨d, ds, rfl⟩ := List.exists_cons_of_ne_nil hne
  have hd := hdigits d List.mem_cons_self
  have hplain : ∀ x : UInt8, isdigit x = true → isspace x = false ∧ x ≠ ch '-' ∧ x ≠ ch '+' := by
    intro x hx
    have hminus : (ch '-').toNat = 45 := rfl
    have hplus : (ch '+').toNat = 43 := rfl
    simp only [isdigit, isspace, Bool.and_eq_true, decide_eq_true_eq, UInt8.le_iff_toNat_le,
      Bool.or_eq_false_iff, beq_eq_false_iff_ne, ne_eq, ← UInt8.toNat_inj, hminus, hplus,
      Bool.and_eq_false_iff, decide_eq_false_iff_not] at hx ⊢
    simp only [UInt8.reduceToNat] at hx ⊢
    omega
  obtain ⟨hspace, hminus, hplus⟩ := hplain d hd
  have htake : (d :: ds ++ c :: s).takeWhile isdigit = d :: ds := by
    rw [List.takeWhile_append_of_pos hdigits, List.takeWhile_cons_of_neg (by simp [hc]),
      List.append_nil]
  obtain ⟨hge, -⟩ := value_bounds hdigits
  unfold number
  simp only [List.cons_append, List.dropWhile_cons_of_neg (Bool.eq_false_iff.mp hspace),
    List.takeWhile_cons_of_neg (Bool.eq_false_iff.mp hspace), hminus, hplus, or_self, if_false]
  rw [← List.cons_append, htake]
  simp
  omega

lemma number_digits (hdigits : ∀ d ∈ digits, isdigit d = true) (hne : digits ≠ [])
    (hlen : digits.length ≤ 18) (hc : isdigit c = false) :
    number (digits ++ c :: text) = some (value 0 digits, digits.length) := by
  have hlt := (value_bounds hdigits).2
  have hsmall : value 0 digits < 10 ^ 18 := by
    refine hlt.trans_le ?_
    exact_mod_cast Nat.pow_le_pow_right (by decide) hlen
  rw [number_run hdigits hne hc, Int.min_eq_right (by omega)]

end Reads

end Numbers
