import VectorQuery.Proofs.Binary64
import Mathlib.Tactic.Ring

/-! Where the floats end. A decimal is rounded to an infinite float exactly from half way
between the largest magnitude and the power of two that follows it. -/
namespace VectorQuery

namespace Decimal

variable {decimal : Decimal}

theorem ratio_pos (decimal : Decimal) : 0 < decimal.ratio.2 := by
  obtain ⟨significand, power | power⟩ := decimal
  · exact Nat.one_pos
  · exact Nat.pow_pos (by decide)

theorem ratio_of_zero (none : decimal.significand = 0) : decimal.ratio.1 = 0 := by
  obtain ⟨significand, power | power⟩ := decimal
  · exact (congrArg (· * Nat.pow 10 power) none).trans (Nat.zero_mul _)
  · exact none

/-- A decimal lies below the power of ten that its width names. -/
theorem ratio_lt_of_width {places : Nat} (narrow : decimal.width ≤ places) :
    decimal.ratio.1 < 10 ^ places * decimal.ratio.2 := by
  obtain ⟨significand, exponent⟩ := decimal
  have below := lt_pow_length_digits significand
  simp only [width] at narrow
  generalize (digits significand).length = length at *
  cases exponent with
  | ofNat power =>
    calc significand * 10 ^ power < 10 ^ length * 10 ^ power :=
          Nat.mul_lt_mul_of_pos_right below (Nat.pow_pos (by decide))
      _ = 10 ^ (length + power) := (Nat.pow_add ..).symm
      _ ≤ 10 ^ places := Nat.pow_le_pow_right (by decide) (by simp at narrow; omega)
      _ = 10 ^ places * 1 := (Nat.mul_one _).symm
  | negSucc power =>
    calc significand < 10 ^ length := below
      _ ≤ 10 ^ (places + (power + 1)) := Nat.pow_le_pow_right (by decide) (by omega)
      _ = 10 ^ places * 10 ^ (power + 1) := Nat.pow_add ..

/-- A decimal does not lie below the power of ten before that. -/
theorem le_ratio_of_width {places : Nat} (positive : decimal.significand ≠ 0)
    (wide : places < decimal.width) : 10 ^ places * decimal.ratio.2 ≤ decimal.ratio.1 := by
  obtain ⟨significand, exponent⟩ := decimal
  have above := pow_length_digits_le positive
  have longer := length_digits_pos significand
  simp only [width] at wide above
  generalize (digits significand).length = length at *
  cases exponent with
  | ofNat power =>
    calc 10 ^ places * 1 = 10 ^ places := Nat.mul_one _
      _ ≤ 10 ^ (length - 1 + power) := Nat.pow_le_pow_right (by decide) (by simp at wide; omega)
      _ = 10 ^ (length - 1) * 10 ^ power := Nat.pow_add ..
      _ ≤ significand * 10 ^ power := Nat.mul_le_mul_right _ above
  | negSucc power =>
    calc 10 ^ places * 10 ^ (power + 1) = 10 ^ (places + (power + 1)) := (Nat.pow_add ..).symm
      _ ≤ 10 ^ (length - 1) := Nat.pow_le_pow_right (by decide) (by omega)
      _ ≤ significand := above

end Decimal

namespace Magnitude

variable {numerator denominator : Nat}

theorem div_le_nearest (numerator denominator : Nat) :
    numerator / denominator ≤ nearest numerator denominator := by
  unfold nearest
  simp only
  split <;> omega

/-- The half way above an odd bound is rounded up. -/
theorem nearest_le_iff_of_odd {bound : Nat} (odd : bound % 2 = 1) (positive : 0 < denominator) :
    nearest numerator denominator ≤ bound ↔ 2 * numerator < (2 * bound + 1) * denominator := by
  have whole := Nat.div_add_mod numerator denominator
  have less := Nat.mod_lt numerator positive
  have least := div_le_nearest numerator denominator
  have spread : (2 * bound + 1) * denominator = 2 * (denominator * bound) + denominator := by ring
  unfold nearest at least ⊢
  simp only at least ⊢
  generalize numerator / denominator = quotient at *
  generalize numerator % denominator = rest at *
  rcases Nat.lt_trichotomy quotient bound with lower | rfl | higher
  · have := Nat.mul_le_mul_left denominator (show quotient + 1 ≤ bound from lower)
    rw [Nat.mul_succ] at this
    split <;> omega
  · split <;> omega
  · have := Nat.mul_le_mul_left denominator (show bound + 1 ≤ quotient from higher)
    rw [Nat.mul_succ] at this
    omega

/-- The half way between the largest magnitude and the power of two behind it. -/
def overflow : Nat := Nat.pow 2 1024 - Nat.pow 2 970

/-- The threshold, counted in the smallest magnitude. -/
theorem overflow_scale : overflow * scale = (2 ^ 54 - 1) * 2 ^ 2044 := by
  decide +kernel

theorem le_exponent_iff {scaled least : Nat} (nonzero : 0 < denominator) (positive : 0 < least) :
    least ≤ (scaled / denominator).log2 - 52 ↔ 2 ^ (52 + least) * denominator ≤ scaled := by
  rw [← Nat.le_div_iff_mul_le nonzero]
  by_cases filled : scaled / denominator = 0
  · have := Nat.two_pow_pos (52 + least)
    rw [filled, Nat.log2_zero]
    omega
  · rw [← Nat.le_log2 filled]
    omega

/-- A quotient is rounded to a full significand, except for the least exponent. -/
theorem normal_nearest {scaled : Nat} (nonzero : 0 < denominator) :
    let exponent := (scaled / denominator).log2 - 52
    2 ^ 52 ≤ nearest scaled (denominator * Nat.pow 2 exponent) ∨ exponent = 0 := by
  intro exponent
  by_cases least : exponent = 0
  · exact .inr least
  · have lower := (le_exponent_iff nonzero (Nat.pos_of_ne_zero least)).mp (Nat.le_refl exponent)
    refine .inl (Nat.le_trans ?_ (div_le_nearest _ _))
    refine (Nat.le_div_iff_mul_le (Nat.mul_pos nonzero (Nat.two_pow_pos _))).mpr ?_
    calc 2 ^ 52 * (denominator * 2 ^ exponent) = 2 ^ (52 + exponent) * denominator := by
          rw [Nat.pow_add]; ring
      _ ≤ scaled := lower

/-- A full significand has no magnitude past the last exponent, nor there when it is rounded
to the next power of two. -/
theorem make?_eq_none_iff {significand exponent : Nat}
    (normal : 2 ^ 52 ≤ significand ∨ exponent = 0) :
    (if significand < Nat.pow 2 53 then make? significand exponent
      else make? (Nat.pow 2 52) (exponent + 1)) = none ↔
      2046 ≤ exponent ∨ exponent = 2045 ∧ 2 ^ 53 ≤ significand := by
  simp only [make?, Canonical, Nat.pow_eq]
  split_ifs <;> simp only [false_iff, true_iff] <;> omega

theorem ofRatio?_eq_none_iff (numerator : Nat) (nonzero : 0 < denominator) :
    ofRatio? numerator denominator = none ↔ overflow * denominator ≤ numerator := by
  have least : 0 < scale := by decide +kernel
  have counted : overflow * denominator ≤ numerator ↔
      (2 ^ 54 - 1) * (2 ^ 2044 * denominator) ≤ numerator * scale := by
    rw [← Nat.mul_le_mul_right_iff least, Nat.mul_right_comm, overflow_scale, Nat.mul_assoc]
  -- All bounds are multiples of one unit.
  have last (power : Nat) : 2 ^ (52 + (power + 1)) * denominator =
      2 ^ 53 * (2 ^ power * denominator) := by
    rw [show 52 + (power + 1) = 53 + power by omega, Nat.pow_add, Nat.mul_assoc]
  have past (power : Nat) : 2 ^ (52 + (power + 2)) * denominator =
      2 ^ 54 * (2 ^ power * denominator) := by
    rw [show 52 + (power + 2) = 54 + power by omega, Nat.pow_add, Nat.mul_assoc]
  have twice {exponent power : Nat} (next : exponent = power + 1) :
      denominator * 2 ^ exponent = 2 * (2 ^ power * denominator) := by
    rw [next, Nat.pow_succ]
    ring
  have exponents := @le_exponent_iff denominator (numerator * scale) (2044 + 1) nonzero (by decide)
  have beyond := @le_exponent_iff denominator (numerator * scale) (2044 + 2) nonzero (by decide)
  rw [last 2044] at exponents
  rw [past 2044] at beyond
  rw [counted, ofRatio?, make?_eq_none_iff (normal_nearest nonzero)]
  generalize numerator * scale = scaled at *
  generalize (scaled / denominator).log2 - 52 = exponent at *
  by_cases final : exponent = 2044 + 1
  · -- The largest significand is odd, so that the half way above it is rounded up.
    have rounded := @nearest_le_iff_of_odd scaled (denominator * 2 ^ exponent) (2 ^ 53 - 1)
      (by decide) (Nat.mul_pos nonzero (Nat.two_pow_pos _))
    rw [Nat.pow_eq]
    rw [twice final] at rounded ⊢
    generalize 2 ^ 2044 * denominator = unit at *
    omega
  · generalize 2 ^ 2044 * denominator = unit at *
    omega

/-- A decimal has no magnitude exactly where it is too large for one. -/
theorem ofDecimal?_eq_none_iff (decimal : Decimal) :
    ofDecimal? decimal = none ↔ overflow * decimal.ratio.2 ≤ decimal.ratio.1 := by
  have positive := decimal.ratio_pos
  have least : 1 ≤ overflow := by decide +kernel
  have most : overflow ≤ 10 ^ 309 := by decide +kernel
  have small (below : decimal.ratio.1 < decimal.ratio.2) :
      ¬overflow * decimal.ratio.2 ≤ decimal.ratio.1 := by
    have := Nat.mul_le_mul_right decimal.ratio.2 least
    omega
  unfold ofDecimal?
  split_ifs with tiny huge
  · refine iff_of_false not_false (small ?_)
    rcases tiny with none | narrow
    · rw [decimal.ratio_of_zero none]
      exact positive
    · have := @Decimal.ratio_lt_of_width decimal 0 (by omega)
      rwa [Nat.pow_zero, Nat.one_mul] at this
  · have wide := @Decimal.le_ratio_of_width decimal 309 (fun none => tiny (.inl none)) huge
    exact iff_of_true rfl (Nat.le_trans (Nat.mul_le_mul_right _ most) wide)
  · exact ofRatio?_eq_none_iff _ positive

end Magnitude

/-- A decimal is a number among the floats exactly up to the half way behind the largest one,
whatever its sign. -/
theorem Binary64.isFinite_ofDecimal (negative : Bool) (decimal : Decimal) :
    (ofDecimal negative decimal).isFinite = true ↔
      decimal.ratio.1 < Magnitude.overflow * decimal.ratio.2 := by
  rw [← Nat.not_le, ← Magnitude.ofDecimal?_eq_none_iff, ofDecimal]
  cases Magnitude.ofDecimal? decimal with
  | none => simp [isFinite]
  | some magnitude => simp [isFinite]

end VectorQuery
