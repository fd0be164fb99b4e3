import Mathlib
import MissionScript.Proofs.Rounding

/-! The bits of binary64 numbers. No smaller part of Mathlib than the whole brings the lemmas on
`Float.Model`. -/
namespace MissionScript.Decimal

open Float.Model Float.Model.UnpackedFloat

/-- The sign as it stands in the value. -/
def isNegative : Sign → Bool
  | .negative => true
  | .positive => false

/-- The value that an unpacked number stands for. -/
def Binary64.ofUnpacked : UnpackedFloat → Binary64
  | .notANumber => .notANumber
  | .infinity sign => .infinite (isNegative sign)
  | .zero sign => .finite (isNegative sign) 0 leastExponent
  | .finite sign mantissa exponent _ => .finite (isNegative sign) mantissa exponent

variable {bits : BitVec Format.binary64.numBits}

private theorem toNat_unpackMantissa (bits : BitVec Format.binary64.numBits) :
    (unpackMantissa bits).toNat = bits.toNat % 2 ^ 52 := by
  simp [unpackMantissa]

private theorem toNat_unpackExponent (bits : BitVec Format.binary64.numBits) :
    (unpackExponent bits).toNat = bits.toNat / 2 ^ 52 % 2 ^ 11 := by
  simp [unpackExponent, Nat.shiftRight_eq_div_pow]

private theorem toNat_unpackSign (bits : BitVec Format.binary64.numBits) :
    (unpackSign bits).toNat = bits.toNat / 2 ^ 63 % 2 := by
  simp [unpackSign, Nat.shiftRight_eq_div_pow]

private theorem toNat_implicit_append (fraction : BitVec 52) :
    (1#1 ++ fraction).toNat = 2 ^ 52 + fraction.toNat := by
  rw [BitVec.toNat_append, ← Nat.shiftLeft_add_eq_or_of_lt fraction.isLt]
  simp [Nat.shiftLeft_eq]

/-- The value behind the bits is the one that they unpack to. -/
theorem ofBits_toNat (bits : BitVec Format.binary64.numBits) :
    Binary64.ofBits bits.toNat = .ofUnpacked (UnpackedFloat.unpack .binary64 bits) := by
  have sign : (bits.toNat / 2 ^ 63 % 2 == 1) = isNegative (Sign.ofBitVec (unpackSign bits)) := by
    rw [← toNat_unpackSign]
    generalize unpackSign bits = sign
    revert sign
    decide
  have topmost : bits.toNat / 2 ^ 52 % 2 ^ 11 = 2 ^ 11 - 1 ↔ unpackExponent bits = -1#_ := by
    rw [← toNat_unpackExponent, ← BitVec.toNat_inj]
    simp [BitVec.neg_one_eq_allOnes]
  have none : bits.toNat % 2 ^ 52 = 0 ↔ unpackMantissa bits = 0#_ := by
    rw [← toNat_unpackMantissa, ← BitVec.toNat_inj]
    simp
  have lowest : bits.toNat / 2 ^ 52 % 2 ^ 11 = 0 ↔ unpackExponent bits = 0#_ := by
    rw [← toNat_unpackExponent, ← BitVec.toNat_inj]
    simp
  have bias : (Format.binary64.exponentBias : Int) = 1023 := by decide
  simp only [Binary64.ofBits, UnpackedFloat.unpack, Nat.pow_eq, sign, topmost, none, lowest]
  split_ifs with infinite whole subnormal zero
  · rfl
  · rfl
  · rw [none.mpr zero]
    rfl
  · simp only [Binary64.ofUnpacked, toNat_unpackMantissa, subnormal, bias, leastExponent]
    rfl
  · simp only [Binary64.ofUnpacked, toNat_implicit_append, toNat_unpackMantissa,
      toNat_unpackExponent, bias, leastExponent]
    congr 1
    omega

private theorem canonical_of_unpack {sign : Sign} {mantissa : Nat} {exponent : Int} {positive}
    (unpacked : UnpackedFloat.unpack .binary64 bits = .finite sign mantissa exponent positive) :
    Canonical mantissa exponent := by
  have same := ofBits_toNat bits
  rw [unpacked] at same
  simp only [Binary64.ofUnpacked, Binary64.ofBits, Nat.pow_eq] at same
  split_ifs at same with infinite whole zero
  · obtain ⟨_, rfl, rfl⟩ := Binary64.finite.inj same
    exact ⟨positive, by omega, le_rfl, .inl rfl, by decide⟩
  · obtain ⟨_, rfl, rfl⟩ := Binary64.finite.inj same
    refine ⟨positive, by omega, ?_, .inr (by omega), ?_⟩ <;> unfold leastExponent <;> omega

section Components

variable (sign : Sign) (field : BitVec 11) (fraction : BitVec 52)

private theorem ofBitVec_unpackSign :
    Sign.ofBitVec (unpackSign (packComponents .binary64 sign field fraction)) = sign := by
  rw [unpackSign_packComponents, Sign.ofBitVec_toBitVec]

private theorem unpack_normal (some : field ≠ 0#11) (below : field ≠ -1#11) :
    UnpackedFloat.unpack .binary64 (packComponents .binary64 sign field fraction) =
      .finite sign (2 ^ 52 + fraction.toNat) (field.toNat - 1075)
        (Nat.add_pos_left (Nat.two_pow_pos 52) _) := by
  have bias : (Format.binary64.exponentBias : Int) = 1023 := by decide
  simp only [UnpackedFloat.unpack, unpackExponent_packComponents, unpackMantissa_packComponents,
    ofBitVec_unpackSign, if_neg some, if_neg below, toNat_implicit_append, bias]
  rfl

private theorem unpack_subnormal (some : 0 < fraction.toNat) :
    UnpackedFloat.unpack .binary64 (packComponents .binary64 sign 0#11 fraction) =
      .finite sign fraction.toNat leastExponent some := by
  have apart : fraction ≠ 0#52 := by
    rintro rfl
    exact absurd some (by decide)
  have bias : (Format.binary64.exponentBias : Int) = 1023 := by decide
  simp only [UnpackedFloat.unpack, unpackExponent_packComponents, unpackMantissa_packComponents,
    ofBitVec_unpackSign, dif_neg apart, bias]
  rfl

end Components

/-- What is packed in canonical form is unpacked again. -/
theorem unpack_pack {mantissa : Nat} {exponent : Int} (canonical : Canonical mantissa exponent)
    (sign : Sign) :
    UnpackedFloat.unpack .binary64 (UnpackedFloat.pack .binary64
        (.finite sign mantissa exponent canonical.positive)) =
      .finite sign mantissa exponent canonical.positive := by
  have bias : (Format.binary64.exponentBias : Int) = 1023 := by decide
  have least := canonical.least
  have greatest := canonical.greatest
  have fits := canonical.fits
  unfold leastExponent at least
  unfold UnpackedFloat.pack
  change UnpackedFloat.unpack .binary64 (if 2 ^ 11 ≤
    (exponent + (Format.binary64.exponentBias : Int) + 52).toNat + 1 then _ else _) = _
  rw [bias, if_neg (by omega)]
  split_ifs with normal
  · have digits : mantissa.log2 = 52 := Nat.succ_injective normal
    have large : 2 ^ 52 ≤ mantissa := digits ▸ Nat.log2_self_le canonical.positive.ne'
    change UnpackedFloat.unpack .binary64 (packComponents .binary64 sign
      (BitVec.ofNat 11 (exponent + 1023 + 52).toNat) (BitVec.ofNat 52 mantissa)) = _
    have biased : (BitVec.ofNat 11 (exponent + 1023 + 52).toNat).toNat =
        (exponent + 1023 + 52).toNat := by
      rw [BitVec.toNat_ofNat]
      omega
    have fraction : (BitVec.ofNat 52 mantissa).toNat = mantissa - 2 ^ 52 := by
      rw [BitVec.toNat_ofNat]
      omega
    generalize BitVec.ofNat 11 (exponent + 1023 + 52).toNat = field at biased
    generalize BitVec.ofNat 52 mantissa = rest at fraction
    have some : field ≠ 0#11 := by
      rintro rfl
      simp only [BitVec.toNat_ofNat] at biased
      omega
    have below : field ≠ -1#11 := by
      rintro rfl
      simp only [BitVec.neg_one_eq_allOnes, BitVec.toNat_allOnes] at biased
      omega
    rw [unpack_normal sign field rest some below, UnpackedFloat.finite.injEq]
    exact ⟨rfl, by omega, by omega⟩
  · have small : mantissa < 2 ^ 52 := by
      have short : mantissa.log2 < 53 := (Nat.log2_lt canonical.positive.ne').mpr fits
      have short : mantissa.log2 < 52 := by
        have : mantissa.log2 + 1 ≠ 53 := normal
        omega
      exact (Nat.log2_lt canonical.positive.ne').mp short
    have lowest : exponent = leastExponent := canonical.full.resolve_right (by omega)
    have fraction : (BitVec.ofNat 52 mantissa).toNat = mantissa := by
      rw [BitVec.toNat_ofNat]
      omega
    refine (unpack_subnormal sign (BitVec.ofNat 52 mantissa) ?_).trans ?_
    · rw [fraction]
      exact canonical.positive
    · rw [UnpackedFloat.finite.injEq]
      exact ⟨rfl, fraction, lowest.symm⟩

theorem ofFloat_eq (value : Float) :
    Binary64.ofFloat value = .ofUnpacked value.toModel.unpack :=
  ofBits_toNat value.toModel.toBits.toBitVec

theorem eq_of_unpack_eq {first second : Float}
    (same : first.toModel.unpack = second.toModel.unpack) : first = second := by
  have bits := (unpack_inj_of_valid first.toModel.valid second.toModel.valid).mp same
  exact Float.toBits_inj.mp (UInt64.toBitVec_inj.mp bits)

namespace Canonical

variable {mantissa : Nat} {exponent : Int}

/-- The number with a sign, a mantissa and an exponent. -/
def float (canonical : Canonical mantissa exponent) (sign : Sign) : Float :=
  .ofModel (.pack (.finite sign mantissa exponent canonical.positive))

theorem unpack_float (canonical : Canonical mantissa exponent) (sign : Sign) :
    (canonical.float sign).toModel.unpack =
      .finite sign mantissa exponent canonical.positive :=
  unpack_pack canonical sign

theorem ofFloat_float (canonical : Canonical mantissa exponent) (sign : Sign) :
    Binary64.ofFloat (canonical.float sign) = .finite (isNegative sign) mantissa exponent := by
  rw [ofFloat_eq, unpack_float]
  rfl

theorem neg_float (canonical : Canonical mantissa exponent) (sign : Sign) :
    -canonical.float sign = canonical.float (-sign) := by
  change Float.ofModel (.pack (canonical.float sign).toModel.unpack.neg) = _
  rw [unpack_float]
  rfl

/-- Every finite number other than zero is one of these. -/
theorem of_ofFloat {value : Float} {negative : Bool}
    (same : Binary64.ofFloat value = .finite negative mantissa exponent) (some : 0 < mantissa) :
    ∃ (sign : Sign) (canonical : Canonical mantissa exponent),
      isNegative sign = negative ∧ value = canonical.float sign := by
  have unpacked := ofFloat_eq value
  rw [same] at unpacked
  cases shape : value.toModel.unpack with
  | finite sign own place positive =>
    rw [shape] at unpacked
    obtain ⟨rfl, rfl, rfl⟩ := Binary64.finite.inj unpacked
    have canonical := canonical_of_unpack shape
    exact ⟨sign, canonical, rfl, eq_of_unpack_eq (shape.trans (canonical.unpack_float sign).symm)⟩
  | zero sign =>
    rw [shape] at unpacked
    obtain ⟨_, rfl, _⟩ := Binary64.finite.inj unpacked
    exact absurd some (Nat.lt_irrefl 0)
  | infinity | notANumber =>
    rw [shape] at unpacked
    cases unpacked

end Canonical

end MissionScript.Decimal
