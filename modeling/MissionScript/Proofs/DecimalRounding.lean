import Mathlib.Algebra.Order.Field.Power
import Mathlib.Tactic.FieldSimp
import Mathlib.Tactic.Ring
import MissionScript.Proofs.Rounding

namespace MissionScript.Decimal

open Float.Model Float.Model.UnpackedFloat

variable {value : Rat} {result : Nat} {place : Int}

private theorem Stands.quotient {denominator : Nat} (numerator : Nat) (positive : 0 < denominator) :
    Stands (.ofMantissaAndAccuracy (numerator / denominator)
      (accuracyOfFraction (numerator % denominator) denominator))
      ((numerator : Rat) / denominator) := by
  have split : (numerator : Rat) / denominator =
      (numerator / denominator : Nat) + (numerator % denominator : Nat) / denominator := by
    have whole : (numerator : Rat) =
        denominator * (numerator / denominator : Nat) + (numerator % denominator : Nat) := by
      exact_mod_cast (Nat.div_add_mod numerator denominator).symm
    rw [div_eq_iff (by positivity), add_mul, div_mul_cancel₀ _ (by positivity), mul_comm, ← whole]
  have less := Nat.mod_lt numerator positive
  rw [split]
  generalize numerator / denominator = whole
  generalize numerator % denominator = left at less
  have bound : (left : Rat) / denominator < 1 := by
    rw [div_lt_one₀ (by positivity)]
    exact_mod_cast less
  unfold accuracyOfFraction
  split_ifs with none
  · simp [none, ExtendedMantissa.ofMantissaAndAccuracy, Stands]
  · have some : 0 < (left : Rat) / denominator :=
      div_pos (by exact_mod_cast Nat.pos_of_ne_zero none) (by exact_mod_cast positive)
    cases half : compare (2 * left) denominator with
    | lt =>
      have less : (left : Rat) / denominator < 1 / 2 := by
        have := Nat.compare_eq_lt.mp half
        rw [div_lt_iff₀ (by positivity)]
        have : (2 * left : Rat) < denominator := by exact_mod_cast this
        linarith
      simp only [ExtendedMantissa.ofMantissaAndAccuracy, Stands]
      exact ⟨by linarith, by linarith⟩
    | eq =>
      have same : (left : Rat) / denominator = 1 / 2 := by
        have := Nat.compare_eq_eq.mp half
        rw [div_eq_iff (by positivity)]
        have : (2 * left : Rat) = denominator := by exact_mod_cast this
        linarith
      simp only [ExtendedMantissa.ofMantissaAndAccuracy, Stands, same]
    | gt =>
      have more : 1 / 2 < (left : Rat) / denominator := by
        have := Nat.compare_eq_gt.mp half
        rw [lt_div_iff₀ (by positivity)]
        have : (denominator : Rat) < 2 * left := by exact_mod_cast this
        linarith
      simp only [ExtendedMantissa.ofMantissaAndAccuracy, Stands]
      exact ⟨by linarith, by linarith⟩

section Operations

variable {left right : Nat} {leftPlace rightPlace : Int} {leftSign rightSign : Sign}
  {leftPositive : 0 < left} {rightPositive : 0 < right}

/-- A product with enough digits is rounded to the number in whose basin it lies. -/
theorem mul_eq (rounds : RoundsTo (left * right * 2 ^ (leftPlace + rightPlace)) result place)
    (canonical : Canonical result place) (digits : 2 ^ 52 ≤ left * right) :
    UnpackedFloat.mul .binary64 (.finite leftSign left leftPlace leftPositive)
        (.finite rightSign right rightPlace rightPositive) =
      .finite (leftSign * rightSign) result place canonical.positive := by
  refine roundWithAccuracy_eq rounds canonical ?_ ?_ _
  · rw [mul_div_cancel_right₀ _ (by positivity)]
    exact_mod_cast Stands.exact (left * right)
  · have many : 52 ≤ (left * right).log2 := (Nat.le_log2 (by omega)).mpr digits
    rw [targetOf_eq]
    omega

/-- A quotient is rounded to the number in whose basin it lies. -/
theorem div_eq
    (rounds : RoundsTo (left * 2 ^ leftPlace / (right * 2 ^ rightPlace)) result place)
    (canonical : Canonical result place) :
    UnpackedFloat.div .binary64 (.finite leftSign left leftPlace leftPositive)
        (.finite rightSign right rightPlace rightPositive) =
      .finite (leftSign / rightSign) result place canonical.positive := by
  let apart := leftPlace - rightPlace
  let target := min apart (Format.binary64.targetExponent
    (totalExponent left leftPlace - totalExponent right rightPlace))
  let count := (apart - target).toNat
  change roundWithAccuracy .binary64 (leftSign / rightSign) ((left <<< count) / right) target
    (accuracyOfFraction ((left <<< count) % right) right) = _
  have shift : apart = target + count := by omega
  refine roundWithAccuracy_eq rounds canonical ?_ ?_ _
  · have fraction : (left : Rat) * 2 ^ leftPlace / (right * 2 ^ rightPlace) / 2 ^ target =
        (left <<< count : Nat) / right := by
      rw [show leftPlace = target + count + rightPlace by omega, zpow_add₀ (by norm_num),
        zpow_add₀ (by norm_num), zpow_natCast, Nat.shiftLeft_eq]
      push_cast
      field_simp
    rw [fraction]
    exact Stands.quotient _ rightPositive
  · -- Unless the target is the least exponent, the shift has left enough digits.
    rw [targetOf_eq]
    have reach : target ≤ max (totalExponent left leftPlace - totalExponent right rightPlace - 53)
        leastExponent := min_le_right ..
    by_cases least : target ≤ leastExponent
    · exact least.trans (le_max_right ..)
    · refine le_max_of_le_left ?_
      have steps : 53 + right.log2 ≤ left.log2 + count := by
        simp only [totalExponent] at reach
        omega
      have digits : 2 ^ 52 ≤ (left <<< count) / right := by
        rw [Nat.le_div_iff_mul_le rightPositive, Nat.shiftLeft_eq]
        calc 2 ^ 52 * right ≤ 2 ^ 52 * 2 ^ (right.log2 + 1) :=
              Nat.mul_le_mul_left _ Nat.lt_log2_self.le
          _ = 2 ^ (53 + right.log2) := by ring
          _ ≤ 2 ^ (left.log2 + count) := Nat.pow_le_pow_right (by decide) steps
          _ = 2 ^ left.log2 * 2 ^ count := Nat.pow_add ..
          _ ≤ left * 2 ^ count := Nat.mul_le_mul_right _ (Nat.log2_self_le leftPositive.ne')
      have many := (Nat.le_log2 (by omega)).mpr digits
      omega

end Operations

theorem RoundsTo.bounds (rounds : RoundsTo value result place)
    (canonical : Canonical result place) :
    2 ^ (-1075 : Int) ≤ value ∧ value < 2 ^ 1024 := by
  obtain ⟨low, high, _⟩ := rounds.nearest
  constructor
  · have some : (1 : Rat) ≤ result := by exact_mod_cast canonical.positive
    have least : -1075 ≤ place - 1 := Int.sub_le_sub_right canonical.least 1
    rw [le_div_iff₀ (by positivity)] at low
    calc (2 : Rat) ^ (-1075 : Int) ≤ 2 ^ (place - 1) := zpow_le_zpow_right₀ (by norm_num) least
      _ = (1 - 1 / 2) * 2 ^ place := by rw [zpow_sub_one₀ (by norm_num)]; ring
      _ ≤ (result - 1 / 2) * 2 ^ place := by gcongr
      _ ≤ value := low
  · have fits : (result : Rat) + 1 ≤ 2 ^ 53 := by exact_mod_cast canonical.fits
    rw [div_le_iff₀ (by positivity)] at high
    calc value ≤ (result + 1 / 2) * 2 ^ place := high
      _ < (result + 1) * 2 ^ place := by gcongr; norm_num
      _ ≤ 2 ^ 53 * 2 ^ place := by gcongr
      _ ≤ 2 ^ 53 * 2 ^ (971 : Int) :=
          mul_le_mul_of_nonneg_left (zpow_le_zpow_right₀ (by norm_num) canonical.greatest)
            (by positivity)
      _ = 2 ^ 1024 := by rw [zpow_ofNat, ← pow_add]

private theorem exponent_le_of_lt {digits : Nat} {exponent : Int} (some : digits ≠ 0)
    (high : (digits : Rat) * 10 ^ exponent < 2 ^ 1024) : exponent ≤ 2 ^ 11 := by
  by_contra large
  have one : (1 : Rat) ≤ digits := by exact_mod_cast Nat.pos_of_ne_zero some
  refine absurd high (not_lt.mpr ?_)
  calc (2 : Rat) ^ 1024 ≤ 10 ^ 1024 := pow_le_pow_left₀ (by norm_num) (by norm_num) _
    _ = 10 ^ (1024 : Int) := (zpow_ofNat ..).symm
    _ ≤ 10 ^ exponent := zpow_le_zpow_right₀ (by norm_num) (by omega)
    _ ≤ digits * 10 ^ exponent := le_mul_of_one_le_left (by positivity) one

private theorem le_exponent_of_le {digits : Nat} {exponent : Int}
    (low : 2 ^ (-1075 : Int) ≤ (digits : Rat) * 10 ^ exponent) :
    -(2 ^ 11 + digits.log2) ≤ exponent := by
  by_contra small
  obtain ⟨power, rfl⟩ : ∃ power : Nat, exponent = -power := ⟨(-exponent).toNat, by omega⟩
  have few : (digits : Rat) ≤ 2 ^ (digits.log2 + 1) := by exact_mod_cast Nat.lt_log2_self.le
  refine absurd low (not_le.mpr ?_)
  calc (digits : Rat) * 10 ^ (-power : Int) ≤ 2 ^ (digits.log2 + 1) * 2 ^ (-power : Int) := by
        rw [zpow_neg, zpow_neg, zpow_natCast, zpow_natCast]
        gcongr
        norm_num
    _ = 2 ^ ((digits.log2 + 1 : Nat) + -power : Int) := by
        rw [zpow_add₀ (by norm_num), zpow_natCast]
    _ < 2 ^ (-1075 : Int) := zpow_lt_zpow_right₀ (by norm_num) (by omega)

/-- A decimal number is rounded to the binary64 number in whose basin it lies. -/
theorem ofScientific_eq {digits : Nat} {exponent : Int}
    (rounds : RoundsTo (digits * 10 ^ exponent) result place) (canonical : Canonical result place) :
    UnpackedFloat.ofScientific .binary64 digits exponent =
      .finite .positive result place canonical.positive := by
  obtain ⟨low, high⟩ := rounds.bounds canonical
  have some : digits ≠ 0 := by
    rintro rfl
    rw [Nat.cast_zero, zero_mul] at low
    exact absurd low (not_le.mpr (by positivity))
  have bounded : ¬ (2 : Int) ^ Format.binary64.exponentBits < exponent :=
    not_lt.mpr (exponent_le_of_lt some high)
  have enough : ¬ exponent < -((2 : Int) ^ Format.binary64.exponentBits + digits.log2) :=
    not_lt.mpr (le_exponent_of_le low)
  unfold UnpackedFloat.ofScientific
  rw [dif_neg some, if_neg bounded, if_neg enough]
  rcases le_or_gt 0 exponent with whole | below
  · rw [if_pos whole]
    obtain ⟨power, rfl⟩ := Int.eq_ofNat_of_zero_le whole
    have width : Format.binary64.mantissaBits = 53 := rfl
    refine mul_eq ?_ canonical ?_
    · convert rounds using 1
      rw [width, Nat.shiftLeft_eq, Int.toNat_natCast, Int.add_zero, zpow_neg, zpow_natCast,
        zpow_natCast]
      push_cast
      field_simp
      norm_num
    · rw [width, Nat.shiftLeft_eq]
      have left : 2 ^ 52 ≤ digits * 2 ^ 53 := by omega
      exact left.trans (Nat.le_mul_of_pos_right _ (by positivity))
  · rw [if_neg (Int.not_le.mpr below)]
    obtain ⟨power, rfl⟩ : ∃ power : Nat, exponent = -power := ⟨(-exponent).toNat, by omega⟩
    refine div_eq ?_ canonical
    convert rounds using 1
    rw [neg_neg, Int.toNat_natCast, zpow_zero, zpow_neg, zpow_natCast, mul_one, mul_one,
      div_eq_mul_inv]
    push_cast
    rfl

end MissionScript.Decimal
