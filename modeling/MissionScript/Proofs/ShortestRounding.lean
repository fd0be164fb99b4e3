import MissionScript.Decimal.Written
import MissionScript.Proofs.DecimalReading

namespace MissionScript.Decimal

def Fraction.value (fraction : Fraction) : Rat := fraction.numerator / fraction.denominator

def Scientific.value (number : Scientific) : Rat := number.digits * 10 ^ number.exponent

private theorem Fraction.value_scaled (count : Nat) (exponent : Int) :
    (Fraction.scaled count exponent).value = count * 2 ^ exponent := by
  simp only [Fraction.value, Fraction.scaled, Nat.pow_eq]
  push_cast
  exact mul_pow_div_pow ..

private theorem Scientific.value_fraction (number : Scientific) :
    number.fraction.value = number.value := by
  simp only [Fraction.value, Scientific.fraction, Scientific.value, Nat.pow_eq]
  push_cast
  exact mul_pow_div_pow ..

section Order

variable {left right : Fraction}

private theorem Fraction.le_iff (leftPositive : 0 < left.denominator)
    (rightPositive : 0 < right.denominator) :
    left.le right = true ↔ left.value ≤ right.value := by
  rw [Fraction.value, Fraction.value, div_le_div_iff₀ (by exact_mod_cast leftPositive)
    (by exact_mod_cast rightPositive), Fraction.le, decide_eq_true_iff]
  exact_mod_cast Iff.rfl

private theorem Fraction.lt_iff (leftPositive : 0 < left.denominator)
    (rightPositive : 0 < right.denominator) :
    left.lt right = true ↔ left.value < right.value := by
  rw [Fraction.value, Fraction.value, div_lt_div_iff₀ (by exact_mod_cast leftPositive)
    (by exact_mod_cast rightPositive), Fraction.lt, decide_eq_true_iff]
  exact_mod_cast Iff.rfl

end Order

variable {mantissa : Nat} {exponent : Int}

private theorem zpow_sub_two (exponent : Int) : (2 : Rat) ^ (exponent - 2) = 2 ^ exponent / 4 := by
  rw [zpow_sub₀ (by norm_num)]
  norm_num

private theorem Basin.exists_low (some : 0 < mantissa) (exponent : Int) :
    ∃ below : Nat, below ≤ 2 ∧ (mantissa = 2 ^ 52 → leastExponent < exponent → below = 1) ∧
      (Basin.around mantissa exponent).low.value = (mantissa - below / 4 : Rat) * 2 ^ exponent := by
  refine ⟨if mantissa = 2 ^ 52 ∧ leastExponent < exponent then 1 else 2, ?_, ?_, ?_⟩
  · split <;> omega
  · exact fun power above => if_pos ⟨power, above⟩
  · simp only [Basin.around, Fraction.value_scaled, zpow_sub_two, Nat.pow_eq]
    generalize hole : (if mantissa = 2 ^ 52 ∧ leastExponent < exponent then 1 else 2) = below
    have fits : below ≤ 4 * mantissa := by split at hole <;> omega
    push_cast [fits]
    ring

private theorem Basin.value_high (mantissa : Nat) (exponent : Int) :
    (Basin.around mantissa exponent).high.value = (mantissa + 1 / 2 : Rat) * 2 ^ exponent := by
  rw [Basin.around, Fraction.value_scaled, zpow_sub_two]
  push_cast
  ring

private theorem roundsTo_of_holds (canonical : Canonical mantissa exponent) {fraction : Fraction}
    (positive : 0 < fraction.denominator)
    (held : (Basin.around mantissa exponent).holds fraction = true) :
    RoundsTo fraction.value mantissa exponent := by
  have low_pos : 0 < (Basin.around mantissa exponent).low.denominator :=
    Nat.pow_pos (by decide)
  have high_pos : 0 < (Basin.around mantissa exponent).high.denominator :=
    Nat.pow_pos (by decide)
  obtain ⟨below, small, edge, low⟩ := Basin.exists_low canonical.positive exponent
  have small : (below : Rat) ≤ 2 := by exact_mod_cast small
  have unit : (0 : Rat) < 2 ^ exponent := by positivity
  have even : (Basin.around mantissa exponent).closed = (mantissa % 2 == 0) := rfl
  unfold Basin.holds at held
  split at held <;> rename_i closed <;> rw [even] at closed <;>
    obtain ⟨above, under⟩ := (Bool.and_eq_true ..).mp held
  · rw [Fraction.le_iff low_pos positive, low, ← le_div_iff₀ unit] at above
    rw [Fraction.le_iff positive high_pos, Basin.value_high, ← div_le_iff₀ unit] at under
    refine ⟨⟨by linarith, under, fun _ => by simpa using closed⟩, fun power least => ?_⟩
    rw [edge power least] at above
    linarith
  · rw [Fraction.lt_iff low_pos positive, low, ← lt_div_iff₀ unit] at above
    rw [Fraction.lt_iff positive high_pos, Basin.value_high, ← div_lt_iff₀ unit] at under
    refine ⟨⟨by linarith, under.le, ?_⟩, fun power least => ?_⟩
    · rintro (tie | tie) <;> linarith
    · rw [edge power least] at above
      linarith

private theorem value_exact (mantissa : Nat) (exponent : Int) :
    (exact mantissa exponent).value = mantissa * 2 ^ exponent := by
  unfold exact
  split
  · rename_i whole
    obtain ⟨power, rfl⟩ := Int.eq_ofNat_of_zero_le whole
    simp [Scientific.value, Nat.pow_eq]
  · obtain ⟨power, rfl⟩ : ∃ power : Nat, exponent = -power := ⟨(-exponent).toNat, by omega⟩
    have tenth : (10 : Rat) ^ power = 5 ^ power * 2 ^ power := by
      rw [← mul_pow]
      norm_num
    simp only [Scientific.value, Nat.pow_eq, neg_neg, Int.toNat_natCast, zpow_neg, zpow_natCast,
      tenth]
    push_cast
    field_simp

private theorem holds_of_nearest {basin : Basin} {value : Fraction} {exponent : Int}
    {number : Scientific}
    (found : nearest? basin value exponent = some number) : basin.holds number.fraction = true := by
  unfold nearest? at found
  generalize neighbours value exponent = around at found
  obtain ⟨lower, upper, nearer⟩ := around
  simp only at found
  split at found
  · rename_i first second
    obtain rfl := Option.some.inj found
    split
    · exact first
    · exact second
  · rename_i first _
    obtain rfl := Option.some.inj found
    exact first
  · rename_i second
    obtain rfl := Option.some.inj found
    exact second
  · cases found

theorem shortest_roundsTo (canonical : Canonical mantissa exponent) :
    RoundsTo (shortest mantissa exponent).value mantissa exponent := by
  unfold shortest
  simp only
  cases found : (List.range 17).findSome? fun (more : Nat) =>
      nearest? (Basin.around mantissa exponent) (Fraction.scaled mantissa exponent)
        ((Fraction.scaled mantissa exponent).magnitude - (more + 1)) with
  | none =>
    rw [Option.getD_none, value_exact]
    exact RoundsTo.self ..
  | some number =>
    obtain ⟨more, _, near⟩ := List.exists_of_findSome?_eq_some found
    have held := holds_of_nearest near
    rw [Option.getD_some, ← Scientific.value_fraction]
    exact roundsTo_of_holds canonical (by simp [Scientific.fraction, Nat.pow_eq]) held

end MissionScript.Decimal
