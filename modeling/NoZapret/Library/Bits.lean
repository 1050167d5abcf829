import Mathlib.Order.BooleanAlgebra.Basic
import Mathlib.Tactic.Ring
import NoZapret.Library.PrefixOrder

/-!
# Numbers as bits, the highest first

Read so, numbers of one width compare like their bits compare as texts, and the first bits of a
number are the bits of a quotient.
-/

namespace Bits

open PrefixOrder

/-- The lowest `n` bits of `x`. -/
def ofNat : Nat → Nat → List Bool
  | 0, _ => []
  | n + 1, x => decide (x / 2 ^ n % 2 = 1) :: ofNat n x

variable {n m k x y : Nat}

@[simp] lemma ofNat_length (n x : Nat) : (ofNat n x).length = n := by
  induction n with
  | zero => rfl
  | succ n ih => simp [ofNat, ih]

lemma take_ofNat (m k x : Nat) : (ofNat (m + k) x).take m = ofNat m (x / 2 ^ k) := by
  induction m with
  | zero => rfl
  | succ m ih =>
    have hpow : x / 2 ^ (m + k) = x / 2 ^ k / 2 ^ m := by
      rw [Nat.div_div_eq_div_mul, ← Nat.pow_add, Nat.add_comm]
    rw [Nat.succ_add, ofNat, List.take_succ_cons, ih, hpow, ofNat]

lemma mod_split (n x : Nat) : x % 2 ^ (n + 1) = 2 ^ n * (x / 2 ^ n % 2) + x % 2 ^ n := by
  rw [Nat.pow_succ, Nat.mod_mul, Nat.add_comm]

theorem cmpFront_ofNat (n x y : Nat) :
    cmpFront (ofNat n x) (ofNat n y) = compare (x % 2 ^ n) (y % 2 ^ n) := by
  induction n with
  | zero => simp [ofNat, Nat.mod_one]
  | succ n ih =>
    have hx := Nat.mod_lt x (Nat.two_pow_pos n)
    have hy := Nat.mod_lt y (Nat.two_pow_pos n)
    rw [mod_split, mod_split]
    simp only [ofNat, cmpFront, ih]
    rcases Nat.mod_two_eq_zero_or_one (x / 2 ^ n) with hbx | hbx <;>
      rcases Nat.mod_two_eq_zero_or_one (y / 2 ^ n) with hby | hby
    · simp [hbx, hby]
    · have hlt : 2 ^ n * 0 + x % 2 ^ n < 2 ^ n * 1 + y % 2 ^ n := by omega
      rw [hbx, hby, Nat.compare_eq_lt.mpr hlt]
      simp
    · have hlt : 2 ^ n * 0 + y % 2 ^ n < 2 ^ n * 1 + x % 2 ^ n := by omega
      rw [hbx, hby, Nat.compare_eq_gt.mpr hlt]
      simp
    · rw [hbx, hby]
      simp only [decide_true, if_true]
      rcases lt_trichotomy (x % 2 ^ n) (y % 2 ^ n) with h | h | h
      · rw [Nat.compare_eq_lt.mpr h, Nat.compare_eq_lt.mpr (by omega)]
      · rw [Nat.compare_eq_eq.mpr h, Nat.compare_eq_eq.mpr (by omega)]
      · rw [Nat.compare_eq_gt.mpr h, Nat.compare_eq_gt.mpr (by omega)]

lemma cmpFront_ofNat_of_lt (hx : x < 2 ^ n) (hy : y < 2 ^ n) :
    cmpFront (ofNat n x) (ofNat n y) = compare x y := by
  rw [cmpFront_ofNat, Nat.mod_eq_of_lt hx, Nat.mod_eq_of_lt hy]

end Bits
