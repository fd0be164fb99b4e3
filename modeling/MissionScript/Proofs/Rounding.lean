import Mathlib.Algebra.Order.Ring.Rat
import Mathlib.Algebra.Order.GroupWithZero.Basic
import Mathlib.Tactic.Linarith
import Mathlib.Tactic.NormNum
import Mathlib.Tactic.Positivity
import MissionScript.Decimal.Binary64

/-! How a value is rounded to binary64. What is left of a shifted mantissa are two bits, and they
tell enough of the value for the nearest number to be found. So every value in the basin of a number
is rounded to this number. -/
namespace MissionScript.Decimal

open Float.Model Float.Model.UnpackedFloat

/-- The value that a mantissa with its two residual bits stands for. The first bit is a half, and
the second one tells that more is left. -/
def Stands : ExtendedMantissa → Rat → Prop
  | ⟨mantissa, false, false⟩, value => value = mantissa
  | ⟨mantissa, false, true⟩, value => mantissa < value ∧ value < mantissa + 1 / 2
  | ⟨mantissa, true, false⟩, value => value = mantissa + 1 / 2
  | ⟨mantissa, true, true⟩, value => mantissa + 1 / 2 < value ∧ value < mantissa + 1

/-- The whole number that is nearest to a value. Of two it is the even one. -/
structure Nearest (value : Rat) (whole : Nat) : Prop where
  low : (whole : Rat) - 1 / 2 ≤ value
  high : value ≤ (whole : Rat) + 1 / 2
  tie : value = (whole : Rat) - 1 / 2 ∨ value = (whole : Rat) + 1 / 2 → whole % 2 = 0

/-- A mantissa and an exponent as binary64 keeps them for a finite number other than zero. -/
structure Canonical (mantissa : Nat) (exponent : Int) : Prop where
  positive : 0 < mantissa
  fits : mantissa < 2 ^ 53
  least : leastExponent ≤ exponent
  full : exponent = leastExponent ∨ 2 ^ 52 ≤ mantissa
  greatest : exponent ≤ 971

/-- The values that round to `mantissa * 2 ^ exponent`. Numbers lie closer below a power of two. -/
structure RoundsTo (value : Rat) (mantissa : Nat) (exponent : Int) : Prop where
  nearest : Nearest (value / 2 ^ exponent) mantissa
  edge : mantissa = 2 ^ 52 → leastExponent < exponent →
    (mantissa : Rat) - 1 / 4 ≤ value / 2 ^ exponent

variable {extended : ExtendedMantissa} {value : Rat} {whole : Nat}

private theorem div_zpow (value : Rat) (exponent : Int) (count : Nat) :
    value / 2 ^ exponent = value / 2 ^ (exponent + count) * 2 ^ count := by
  rw [zpow_add₀ (by norm_num), zpow_natCast, ← div_div, div_mul_cancel₀ _ (by positivity)]

private theorem Nearest.le {other : Nat} (near : Nearest value whole) (also : Nearest value other) :
    other ≤ whole := by
  by_contra less
  have reach : (other : Rat) ≤ whole + 1 := by linarith [near.high, also.low]
  have reach : other ≤ whole + 1 := by exact_mod_cast reach
  have next : other = whole + 1 := by omega
  have cast : (other : Rat) = whole + 1 := by exact_mod_cast next
  -- The value lies half way, but one of two neighbours is odd.
  have even := near.tie (.inr (by linarith [near.high, also.low]))
  have too := also.tie (.inl (by linarith [near.high, also.low]))
  omega

theorem Nearest.unique {other : Nat} (near : Nearest value whole) (also : Nearest value other) :
    whole = other :=
  Nat.le_antisymm (also.le near) (near.le also)

namespace Stands

private theorem le (stands : Stands extended value) : (extended.mantissa : Rat) ≤ value := by
  obtain ⟨mantissa, _ | _, _ | _⟩ := extended <;> simp only [Stands] at stands ⊢ <;> linarith

private theorem lt (stands : Stands extended value) : value < extended.mantissa + 1 := by
  obtain ⟨mantissa, _ | _, _ | _⟩ := extended <;> simp only [Stands] at stands ⊢ <;> linarith

/-- The rounded mantissa is nearest to what the bits stand for. -/
theorem nearest (stands : Stands extended value) : Nearest value extended.roundedMantissa := by
  obtain ⟨mantissa, roundBit, stickyBit⟩ := extended
  cases roundBit <;> cases stickyBit <;>
    simp only [Stands, ExtendedMantissa.roundedMantissa, ExtendedMantissa.accuracy,
      Accuracy.roundToNearestEven] at stands ⊢
  · exact ⟨by linarith, by linarith, fun tie => by rcases tie with tie | tie <;> linarith⟩
  · exact ⟨by linarith, by linarith, fun tie => by rcases tie with tie | tie <;> linarith⟩
  · rcases Nat.mod_two_eq_zero_or_one mantissa with parity | parity <;> rw [parity]
    · exact ⟨by push_cast; linarith, by push_cast; linarith, fun _ => parity⟩
    · refine ⟨by push_cast; linarith, by push_cast; linarith, fun _ => by omega⟩
  · refine ⟨by push_cast; linarith, by push_cast; linarith, fun tie => ?_⟩
    push_cast at tie
    rcases tie with tie | tie <;> linarith

private theorem shiftRightOne (stands : Stands extended value) :
    Stands extended.shiftRightOne (value / 2) := by
  obtain ⟨mantissa, roundBit, stickyBit⟩ := extended
  have split : (mantissa : Rat) = 2 * (mantissa / 2 : Nat) + (mantissa % 2 : Nat) := by
    exact_mod_cast (Nat.div_add_mod mantissa 2).symm
  rcases Nat.mod_two_eq_zero_or_one mantissa with parity | parity
  · have bit : (mantissa % 2 != 0) = false := by simp [parity]
    rw [parity] at split
    simp only [ExtendedMantissa.shiftRightOne, bit]
    push_cast at split
    cases roundBit <;> cases stickyBit <;>
      simp only [Stands, Bool.or_false, Bool.or_true] at stands ⊢
    · linarith
    all_goals exact ⟨by linarith, by linarith⟩
  · have bit : (mantissa % 2 != 0) = true := by simp [parity]
    rw [parity] at split
    simp only [ExtendedMantissa.shiftRightOne, bit]
    push_cast at split
    cases roundBit <;> cases stickyBit <;>
      simp only [Stands, Bool.or_false, Bool.or_true] at stands ⊢
    · linarith
    all_goals exact ⟨by linarith, by linarith⟩

theorem shiftRight (stands : Stands extended value) (count : Nat) :
    Stands (extended >>> count) (value / 2 ^ count) := by
  change Stands (count.repeat ExtendedMantissa.shiftRightOne extended) _
  induction count with
  | zero => simpa [Nat.repeat] using stands
  | succ count ih =>
    rw [pow_succ, ← div_div]
    exact ih.shiftRightOne

theorem exact (mantissa : Nat) :
    Stands (ExtendedMantissa.ofMantissaAndAccuracy mantissa .exact) mantissa := rfl

end Stands

/-- The exponent that a mantissa has to be brought to. -/
def targetOf (mantissa : Nat) (exponent : Int) : Int :=
  Format.binary64.targetExponent (totalExponent mantissa exponent)

theorem targetOf_eq (mantissa : Nat) (exponent : Int) :
    targetOf mantissa exponent = max (mantissa.log2 + exponent - 52) leastExponent := by
  change max (mantissa.log2 + 1 + exponent - 53) leastExponent = _
  omega

private theorem mantissa_ofMantissaAndAccuracy (mantissa : Nat) (accuracy : Accuracy) :
    (ExtendedMantissa.ofMantissaAndAccuracy mantissa accuracy).mantissa = mantissa := by
  rcases accuracy with _ | _ | _ | _ <;> rfl

variable {mantissa : Nat} {exponent : Int} {accuracy : Accuracy}

private theorem shiftToTargetExponent_eq (mantissa : Nat) (exponent : Int) (accuracy : Accuracy) :
    shiftToTargetExponent .binary64 mantissa exponent accuracy =
      (ExtendedMantissa.ofMantissaAndAccuracy mantissa accuracy >>>
          (targetOf mantissa exponent - exponent).toNat,
        exponent + ((targetOf mantissa exponent - exponent).toNat : Int)) := rfl

/-- The first shift brings the value below `2 ^ 53` at the target, and above `2 ^ 52` except for the
least of all exponents. -/
private theorem stands_shiftToTargetExponent
    (stands : Stands (.ofMantissaAndAccuracy mantissa accuracy) (value / 2 ^ exponent))
    (enough : exponent ≤ targetOf mantissa exponent) :
    let target := targetOf mantissa exponent
    ∃ shifted, shiftToTargetExponent .binary64 mantissa exponent accuracy = (shifted, target) ∧
      Stands shifted (value / 2 ^ target) ∧ value / 2 ^ target < 2 ^ 53 ∧
      (target = leastExponent ∨ 2 ^ 52 ≤ value / 2 ^ target) := by
  intro target
  obtain ⟨count, shift⟩ : ∃ count : Nat, target = exponent + count :=
    ⟨(target - exponent).toNat, by omega⟩
  have moved : value / 2 ^ exponent / 2 ^ count = value / 2 ^ target := by
    rw [div_zpow value exponent count, ← shift, mul_div_cancel_right₀ _ (by positivity)]
  have reach := targetOf_eq mantissa exponent
  change target = _ at reach
  have low := stands.le
  have high := stands.lt
  rw [mantissa_ofMantissaAndAccuracy] at low high
  refine ⟨_, ?_, moved ▸ stands.shiftRight count, ?_, ?_⟩
  · have steps : (target - exponent).toNat = count := by omega
    rw [shiftToTargetExponent_eq, steps, shift]
  · have few : mantissa + 1 ≤ 2 ^ (53 + count) :=
      Nat.lt_log2_self.trans_le (Nat.pow_le_pow_right (by decide) (by omega))
    have few : (mantissa : Rat) + 1 ≤ 2 ^ 53 * 2 ^ count := by
      rw [← pow_add]
      exact_mod_cast few
    rw [← moved, div_lt_iff₀ (by positivity)]
    linarith
  · refine or_iff_not_imp_left.mpr fun larger => ?_
    have digits : mantissa.log2 = 52 + count := by omega
    have some : mantissa ≠ 0 := by
      rintro rfl
      rw [Nat.log2_zero] at digits
      omega
    have many : 2 ^ (52 + count) ≤ mantissa := digits ▸ Nat.log2_self_le some
    have many : (2 : Rat) ^ 52 * 2 ^ count ≤ mantissa := by
      rw [← pow_add]
      exact_mod_cast many
    rw [← moved, le_div_iff₀ (by positivity)]
    linarith

private theorem shiftToTargetExponent_of_fits (fits : mantissa < 2 ^ 53)
    (least : leastExponent ≤ exponent) :
    shiftToTargetExponent .binary64 mantissa exponent .exact =
      (⟨mantissa, false, false⟩, exponent) := by
  have digits : mantissa.log2 ≤ 52 := by
    rcases Nat.eq_zero_or_pos mantissa with rfl | positive
    · decide
    · exact Nat.le_of_lt_succ ((Nat.log2_lt positive.ne').mpr fits)
  have reach := targetOf_eq mantissa exponent
  have steps : (targetOf mantissa exponent - exponent).toNat = 0 := by omega
  rw [shiftToTargetExponent_eq, steps]
  exact Prod.ext rfl (Int.add_zero exponent)

private theorem shiftToTargetExponent_of_full (least : leastExponent ≤ exponent) :
    shiftToTargetExponent .binary64 (2 ^ 53) exponent .exact =
      (⟨2 ^ 52, false, false⟩, exponent + 1) := by
  have reach := targetOf_eq (2 ^ 53) exponent
  rw [Nat.log2_two_pow] at reach
  have steps : (targetOf (2 ^ 53) exponent - exponent).toNat = 1 := by omega
  rw [shiftToTargetExponent_eq, steps]
  rfl

variable {result : Nat} {place : Int}

/-- Where a number lies that a value of the target rounds to: at the target, or just above it as the
least number there. -/
private theorem RoundsTo.cases {target : Int} (rounds : RoundsTo value result place)
    (canonical : Canonical result place) (least : leastExponent ≤ target)
    (high : value / 2 ^ target < 2 ^ 53)
    (low : target = leastExponent ∨ 2 ^ 52 ≤ value / 2 ^ target) :
    place = target ∧ Nearest (value / 2 ^ target) result ∨
      place = target + 1 ∧ result = 2 ^ 52 ∧ Nearest (value / 2 ^ target) (2 ^ 53) := by
  obtain ⟨near, edge⟩ := rounds
  have fits : (result : Rat) ≤ 2 ^ 53 - 1 := by
    have : result + 1 ≤ 2 ^ 53 := canonical.fits
    have : (result : Rat) + 1 ≤ 2 ^ 53 := by exact_mod_cast this
    linarith
  rcases lt_trichotomy place target with below | rfl | above
  · -- A smaller number would lie below all values of the target.
    have small : 2 ^ 52 ≤ value / 2 ^ target := by
      rcases low with rfl | low
      · exact absurd canonical.least (by omega)
      · exact low
    obtain ⟨count, rfl⟩ : ∃ count : Nat, target = place + (count + 1 : Nat) :=
      ⟨(target - place - 1).toNat, by omega⟩
    have reach := near.high
    rw [div_zpow value place (count + 1), pow_succ] at reach
    have once : (1 : Rat) ≤ 2 ^ count := one_le_pow₀ (by norm_num)
    nlinarith
  · exact .inl ⟨rfl, near⟩
  · -- Only the least number of the next exponent reaches down so far.
    have full : 2 ^ 52 ≤ result := canonical.full.resolve_left (by omega)
    obtain ⟨count, rfl⟩ : ∃ count : Nat, place = target + (count + 1 : Nat) :=
      ⟨(place - target - 1).toNat, by omega⟩
    have double := div_zpow value target (count + 1)
    generalize value / 2 ^ (target + (count + 1 : Nat)) = scaled at near edge double
    rw [pow_succ] at double
    have once : (1 : Rat) ≤ 2 ^ count := one_le_pow₀ (by norm_num)
    rcases full.eq_or_lt with rfl | larger
    · have reach := edge rfl (by omega)
      push_cast at reach
      cases count with
      | zero =>
        refine .inr ⟨rfl, rfl, ?_, ?_, fun _ => by norm_num⟩ <;> push_cast <;> linarith
      | succ count =>
        have twice : (2 : Rat) ≤ 2 ^ (count + 1) := by
          rw [pow_succ]
          linarith [one_le_pow₀ (by norm_num : (1 : Rat) ≤ 2) (n := count)]
        nlinarith
    · have reach := near.low
      have larger : (2 ^ 52 + 1 : Rat) ≤ result := by exact_mod_cast larger
      nlinarith

private theorem roundWithAccuracy_of_shifts {shifted again : ExtendedMantissa} {target : Int}
    (first : shiftToTargetExponent .binary64 mantissa exponent accuracy = (shifted, target))
    (same : shifted.roundedMantissa = whole)
    (second : shiftToTargetExponent .binary64 whole target .exact = (again, place))
    (positive : 0 < again.mantissa) (sign : Sign) :
    roundWithAccuracy .binary64 sign mantissa exponent accuracy =
      .finite sign again.mantissa place positive := by
  subst same
  unfold roundWithAccuracy
  rw [first]
  dsimp only
  rw [second]
  exact dif_neg positive.ne'

/-- Every value in the basin of a number is rounded to it. -/
theorem roundWithAccuracy_eq (rounds : RoundsTo value result place)
    (canonical : Canonical result place)
    (stands : Stands (.ofMantissaAndAccuracy mantissa accuracy) (value / 2 ^ exponent))
    (enough : exponent ≤ targetOf mantissa exponent) (sign : Sign) :
    roundWithAccuracy .binary64 sign mantissa exponent accuracy =
      .finite sign result place canonical.positive := by
  obtain ⟨shifted, first, stands, high, low⟩ := stands_shiftToTargetExponent stands enough
  have least : leastExponent ≤ targetOf mantissa exponent := by
    rw [targetOf_eq]
    exact le_max_right ..
  rcases rounds.cases canonical least high low with ⟨rfl, near⟩ | ⟨rfl, rfl, near⟩
  · have same := stands.nearest.unique near
    have second := shiftToTargetExponent_of_fits canonical.fits least
    exact roundWithAccuracy_of_shifts first same second canonical.positive sign
  · have same := stands.nearest.unique near
    have second := shiftToTargetExponent_of_full least
    exact roundWithAccuracy_of_shifts first same second canonical.positive sign

end MissionScript.Decimal
