import MissionScript.Proofs.BitLayout
import MissionScript.Proofs.DecimalRounding

/-! Decimal numbers as they are read. Short ones are read by one operation on two exact numbers, and
all others are rounded at once; both give the number in whose basin the value lies. -/
namespace MissionScript.Decimal

open Float.Model Float.Model.UnpackedFloat

variable {result : Nat} {place : Int}

/-- The value keeps a whole number exactly, with all digits of its mantissa. -/
def Keeps (value : Float) (number : Nat) : Prop :=
  ∃ (mantissa : Nat) (exponent : Int) (canonical : Canonical mantissa exponent),
    value = canonical.float .positive ∧ (number : Rat) = mantissa * 2 ^ exponent ∧ 2 ^ 52 ≤ mantissa

theorem RoundsTo.self (mantissa : Nat) (exponent : Int) :
    RoundsTo (mantissa * 2 ^ exponent) mantissa exponent := by
  have same : (mantissa : Rat) * 2 ^ exponent / 2 ^ exponent = mantissa :=
    mul_div_cancel_right₀ _ (by positivity)
  refine ⟨⟨?_, ?_, ?_⟩, fun _ _ => ?_⟩ <;> rw [same]
  · linarith
  · linarith
  · rintro (half | half) <;> linarith
  · linarith

private theorem keeps_toFloat {number : Nat} (positive : 0 < number) (fits : number < 2 ^ 53) :
    Keeps number.toUInt64.toFloat number := by
  have short : number.log2 ≤ 52 := Nat.le_of_lt_succ ((Nat.log2_lt positive.ne').mpr fits)
  obtain ⟨count, digits⟩ : ∃ count, number.log2 + count = 52 := ⟨52 - number.log2, by omega⟩
  have low : 2 ^ 52 ≤ number * 2 ^ count := by
    rw [← digits, Nat.pow_add]
    exact Nat.mul_le_mul_right _ (Nat.log2_self_le positive.ne')
  have high : number * 2 ^ count < 2 ^ 53 := by
    calc number * 2 ^ count < 2 ^ (number.log2 + 1) * 2 ^ count :=
          Nat.mul_lt_mul_of_pos_right Nat.lt_log2_self (by positivity)
      _ = 2 ^ 53 := by rw [← Nat.pow_add]; congr 1; omega
  have canonical : Canonical (number * 2 ^ count) (-count) :=
    ⟨by omega, high, by unfold leastExponent; omega, .inr low, by omega⟩
  have shifted : UnpackedFloat.round .binary64 .positive number 0 =
      .finite .positive (number * 2 ^ count) (-count) canonical.positive := by
    have target : targetOf number 0 = -count := by
      rw [targetOf_eq]
      unfold leastExponent
      omega
    change roundWithAccuracy .binary64 .positive (number <<< (0 - targetOf number 0).toNat)
      (0 - ((0 - targetOf number 0).toNat : Int)) .exact = _
    rw [target, zero_sub, neg_neg, Int.toNat_natCast, zero_sub, Nat.shiftLeft_eq]
    refine roundWithAccuracy_eq (RoundsTo.self ..) canonical ?_ ?_ _
    · rw [mul_div_cancel_right₀ _ (by positivity)]
      exact Stands.exact _
    · have full : (number * 2 ^ count).log2 = 52 :=
        (Nat.log2_eq_iff (by omega)).mpr ⟨low, high⟩
      rw [targetOf_eq, full]
      omega
  refine ⟨_, _, canonical, ?_, ?_, low⟩
  · have same : number.toUInt64.toNat = number := by
      rw [Nat.toUInt64, UInt64.toNat_ofNat']
      omega
    have more : compare (number : Int) 0 = .gt := compare_gt_iff_gt.mpr (by omega)
    change Float.ofModel (.pack (UnpackedFloat.normalize .binary64 (number.toUInt64.toNat : Int) 0
      .positive)) = _
    rw [same, UnpackedFloat.normalize, more]
    exact congrArg (fun unpacked => Float.ofModel (.pack unpacked)) shifted
  · rw [zpow_neg, zpow_natCast]
    push_cast
    field_simp

theorem mul_pow_div_pow (base count : Rat) (exponent : Int) :
    count * base ^ exponent.toNat / base ^ (-exponent).toNat = count * base ^ exponent := by
  rcases Int.le_total 0 exponent with whole | part
  · obtain ⟨power, rfl⟩ := Int.eq_ofNat_of_zero_le whole
    simp
  · obtain ⟨power, rfl⟩ : ∃ power : Nat, exponent = -power := ⟨(-exponent).toNat, by omega⟩
    simp [div_eq_mul_inv]

/-- Whether a value is the number, with all bits of its mantissa in use. -/
def Binary64.isFull (number : Nat) : Binary64 → Bool
  | .finite false mantissa exponent =>
    2 ^ 52 ≤ mantissa ∧ number * 2 ^ (-exponent).toNat = mantissa * 2 ^ exponent.toNat
  | _ => false

private theorem powersOfTen_full : ∀ power : Fin Float.exactlyRepresentablePowersOfTen.size,
    (Binary64.ofFloat Float.exactlyRepresentablePowersOfTen[power]).isFull (10 ^ power.val) := by
  decide +kernel

private theorem keeps_powerOfTen {power : Nat}
    (inside : power < Float.exactlyRepresentablePowersOfTen.size) :
    Keeps Float.exactlyRepresentablePowersOfTen[power] (10 ^ power) := by
  have entry := powersOfTen_full ⟨power, inside⟩
  unfold Binary64.isFull at entry
  split at entry
  · rename_i mantissa exponent same
    obtain ⟨full, equal⟩ := of_decide_eq_true entry
    obtain ⟨sign, canonical, positive, kept⟩ := Canonical.of_ofFloat same (by omega)
    cases sign with
    | negative => cases positive
    | positive =>
      refine ⟨_, _, canonical, kept, ?_, full⟩
      rw [← mul_pow_div_pow, eq_div_iff (by positivity)]
      exact_mod_cast equal
  · cases entry

namespace Keeps

variable {left right : Float} {first second : Nat}

/-- The quotient of exact numbers is the number in whose basin the fraction lies. -/
theorem div_eq (one : Keeps left first) (two : Keeps right second)
    (rounds : RoundsTo (first / second) result place) (canonical : Canonical result place) :
    left / right = canonical.float .positive := by
  obtain ⟨_, _, leftCanonical, rfl, leftValue, _⟩ := one
  obtain ⟨_, _, rightCanonical, rfl, rightValue, _⟩ := two
  change Float.ofModel (.pack (UnpackedFloat.div .binary64
    (leftCanonical.float .positive).toModel.unpack
    (rightCanonical.float .positive).toModel.unpack)) = _
  rw [Canonical.unpack_float, Canonical.unpack_float]
  rw [leftValue, rightValue] at rounds
  exact congrArg (fun unpacked => Float.ofModel (.pack unpacked)) (Decimal.div_eq rounds canonical)

/-- The product of exact numbers is the number in whose basin it lies. -/
theorem mul_eq (one : Keeps left first) (two : Keeps right second)
    (rounds : RoundsTo (first * second) result place) (canonical : Canonical result place) :
    left * right = canonical.float .positive := by
  obtain ⟨_, _, leftCanonical, rfl, leftValue, leftFull⟩ := one
  obtain ⟨_, _, rightCanonical, rfl, rightValue, _⟩ := two
  change Float.ofModel (.pack (UnpackedFloat.mul .binary64
    (leftCanonical.float .positive).toModel.unpack
    (rightCanonical.float .positive).toModel.unpack)) = _
  rw [Canonical.unpack_float, Canonical.unpack_float]
  refine congrArg (fun unpacked => Float.ofModel (.pack unpacked))
    (Decimal.mul_eq ?_ canonical ?_)
  · rw [zpow_add₀ (by norm_num), mul_mul_mul_comm, ← leftValue, ← rightValue]
    exact rounds
  · exact leftFull.trans (Nat.le_mul_of_pos_right _ rightCanonical.positive)

end Keeps

/-- A decimal number reads as the binary64 number in whose basin it lies. -/
theorem ofScientific_float {digits : Nat} {exponent : Int}
    (rounds : RoundsTo (digits * 10 ^ exponent) result place) (canonical : Canonical result place) :
    Float.ofScientific digits (exponent < 0) exponent.natAbs = canonical.float .positive := by
  have some : 0 < digits := by
    rcases Nat.eq_zero_or_pos digits with rfl | positive
    · have low := (rounds.bounds canonical).1
      rw [Nat.cast_zero, zero_mul] at low
      exact absurd low (not_le.mpr (by positivity))
    · exact positive
  unfold Float.ofScientific
  split
  · rename_i small
    have inside : exponent.natAbs < Float.exactlyRepresentablePowersOfTen.size :=
      Nat.lt_succ_of_le small.2
    have whole := keeps_toFloat some small.1
    have power := keeps_powerOfTen inside
    dsimp only
    split <;> rename_i sign <;> simp only [decide_eq_true_eq] at sign
    · refine whole.div_eq power ?_ canonical
      have divided : (digits : Rat) * 10 ^ exponent = digits / (10 ^ exponent.natAbs : Nat) := by
        obtain ⟨count, rfl⟩ : ∃ count : Nat, exponent = -count := ⟨(-exponent).toNat, by omega⟩
        simp [div_eq_mul_inv]
      exact divided ▸ rounds
    · refine whole.mul_eq power ?_ canonical
      obtain ⟨count, rfl⟩ := Int.eq_ofNat_of_zero_le (Int.not_lt.mp sign)
      exact_mod_cast rounds
  · have signed : (if decide (exponent < 0) = true then Int.negOfNat exponent.natAbs
        else Int.ofNat exponent.natAbs) = exponent := by
      split <;> rename_i sign <;> simp only [decide_eq_true_eq] at sign
      · rw [Int.negOfNat_eq, Int.ofNat_eq_natCast]
        omega
      · rw [Int.ofNat_eq_natCast]
        omega
    simp only [signed]
    exact congrArg (fun unpacked => Float.ofModel (.pack unpacked))
      (ofScientific_eq rounds canonical)

end MissionScript.Decimal
