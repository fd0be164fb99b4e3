import MissionScript.Decimal.Reading
import MissionScript.Decimal.Written
import MissionScript.Proofs.ShortestRounding

namespace MissionScript.Decimal

open Numeral (digitValue? digitValue?_eq)

theorem isDigit_eq (char : Char) : isDigit char = char.isDigit := by
  rw [isDigit, digitValue?_eq]
  cases char.isDigit <;> rfl

theorem isDigit_of_mem_toDigits {char : Char} {value : Nat}
    (member : char ∈ Nat.toDigits 10 value) :
    isDigit char = true :=
  (isDigit_eq char).trans (Nat.isDigit_of_mem_toDigits (by decide) (by decide) member)

variable {digits whole fraction : List Char}

private theorem valueOfDigits_eq (all : ∀ char ∈ digits, isDigit char = true) :
    valueOfDigits digits = Nat.ofDigitChars 10 digits 0 := by
  rw [valueOfDigits, Nat.ofDigitChars_eq_foldl]
  refine List.foldl_ext _ _ _ fun value char member => ?_
  rw [digitValue?_eq, if_pos (isDigit_eq char ▸ all char member), Option.getD_some, Nat.mul_comm]

theorem valueOfDigits_toDigits (value : Nat) : valueOfDigits (Nat.toDigits 10 value) = value := by
  rw [valueOfDigits_eq fun _ => isDigit_of_mem_toDigits, Nat.ofDigitChars_ten_toDigits]

private theorem valueOfDigits_concat (digits : List Char) (char : Char) :
    valueOfDigits (digits ++ [char]) = valueOfDigits digits * 10 + (digitValue? char).getD 0 :=
  List.foldl_append

private theorem valueOfDigits_append (first second : List Char) :
    valueOfDigits (first ++ second) =
      valueOfDigits first * 10 ^ second.length + valueOfDigits second := by
  induction second using List.reverseRecOn with
  | nil => simp [valueOfDigits]
  | append_singleton second char ih =>
    rw [← List.append_assoc, valueOfDigits_concat, valueOfDigits_concat, ih, List.length_append,
      List.length_singleton]
    ring

private theorem valueOfDigits_zeros (count : Nat) : valueOfDigits (List.replicate count '0') = 0 := by
  induction count with
  | zero => rfl
  | succ count ih => rw [List.replicate_succ', valueOfDigits_concat, ih]; rfl

private theorem span_isDigit (rest : List Char) (all : ∀ char ∈ digits, isDigit char = true)
    (ends : ∀ char ∈ rest.head?, isDigit char = false) :
    (digits ++ rest).span isDigit = (digits, rest) := by
  rw [List.span_eq_takeWhile_dropWhile, List.takeWhile_append_of_pos all,
    List.dropWhile_append_of_pos all]
  cases rest with
  | nil => simp
  | cons char rest => simp [ends char rfl]

theorem readParts?_whole (all : ∀ char ∈ whole, isDigit char = true) (nonempty : whole ≠ []) :
    readParts? whole = some ⟨whole, [], 0⟩ := by
  have split := span_isDigit [] all (by simp)
  rw [List.append_nil] at split
  simp only [readParts?, split, List.isEmpty_eq_false_iff.mpr nonempty, Bool.false_and]
  rfl

private theorem readParts?_point (all : ∀ char ∈ whole, isDigit char = true) (nonempty : whole ≠ [])
    (rest : ∀ char ∈ fraction, isDigit char = true) :
    readParts? (whole ++ '.' :: fraction) = some ⟨whole, fraction, 0⟩ := by
  have first := span_isDigit ('.' :: fraction) all (by simp; decide)
  have second := span_isDigit [] rest (by simp)
  rw [List.append_nil] at second
  simp only [readParts?, first, second, List.isEmpty_eq_false_iff.mpr nonempty, Bool.false_and]
  rfl

private theorem digitValue?_digitChar {digit : Nat} (small : digit < 10) :
    (digitValue? digit.digitChar).getD 0 = digit := by
  revert digit
  decide

/-- The digits that follow the leading one of a power of ten and a remainder are the remainder. -/
private theorem toDigits_pow_add {count rest : Nat} (less : rest < 10 ^ count) :
    ∃ digits, Nat.toDigits 10 (10 ^ count + rest) = '1' :: digits ∧ digits.length = count ∧
      valueOfDigits digits = rest := by
  induction count generalizing rest with
  | zero =>
    obtain rfl : rest = 0 := by omega
    exact ⟨[], rfl, rfl, rfl⟩
  | succ count ih =>
    have fewer : rest / 10 < 10 ^ count := by omega
    obtain ⟨digits, leading, length, value⟩ := ih fewer
    have whole : (10 ^ (count + 1) + rest) / 10 = 10 ^ count + rest / 10 := by omega
    have last : (10 ^ (count + 1) + rest) % 10 = rest % 10 := by omega
    refine ⟨digits ++ [(rest % 10).digitChar], ?_, ?_, ?_⟩
    · rw [Nat.toDigits_of_base_le (by decide) (by omega), whole, last, leading]
      rfl
    · rw [List.length_append, length]
      rfl
    · rw [valueOfDigits_concat, value, digitValue?_digitChar (by omega)]
      exact Nat.div_add_mod' rest 10

private theorem exists_zeros (digits : List Char) :
    ∃ count, digits = withoutTrailingZeros digits ++ List.replicate count '0' := by
  refine ⟨(digits.reverse.takeWhile (· = '0')).length, ?_⟩
  have zeros : digits.reverse.takeWhile (· = '0') =
      List.replicate (digits.reverse.takeWhile (· = '0')).length '0' :=
    List.eq_replicate_length.mpr fun char member => by
      simpa using List.all_eq_true.mp List.all_takeWhile char member
  rw [← List.reverse_replicate, ← zeros, withoutTrailingZeros, ← List.reverse_append,
    List.takeWhile_append_dropWhile, List.reverse_reverse]

/-- A positional text has the parts of the number that it writes. -/
theorem readParts?_positional (number : Scientific) :
    ∃ parts, readParts? number.positional = some parts ∧ parts.exponent = 0 ∧
      (valueOfDigits (parts.whole ++ parts.fraction) : Rat) * 10 ^ (-parts.fraction.length : Int) =
        number.value := by
  obtain ⟨digits, exponent⟩ := number
  let unit := 10 ^ (-exponent).toNat
  let whole := Nat.toDigits 10 (digits / unit * 10 ^ exponent.toNat)
  obtain ⟨padding, padded, length, value⟩ :=
    toDigits_pow_add (Nat.mod_lt digits (Nat.pow_pos (by decide) : 0 < unit))
  let fraction := withoutTrailingZeros padding
  obtain ⟨zeros, split⟩ := exists_zeros padding
  have shape : Scientific.positional ⟨digits, exponent⟩ =
      whole ++ if fraction.isEmpty then [] else '.' :: fraction := by
    simp only [Scientific.positional, Nat.pow_eq]
    rw [padded]
    rfl
  have all : ∀ char ∈ whole, isDigit char = true := fun _ => isDigit_of_mem_toDigits
  have rest : ∀ char ∈ fraction, isDigit char = true := by
    intro char member
    have among : char ∈ Nat.toDigits 10 (unit + digits % unit) := by
      rw [padded, split]
      exact List.mem_cons_of_mem _ (List.mem_append_left _ member)
    exact isDigit_of_mem_toDigits among
  refine ⟨⟨whole, fraction, 0⟩, ?_, rfl, ?_⟩
  · rw [shape]
    split
    · rename_i none
      rw [List.append_nil, List.isEmpty_iff.mp none]
      exact readParts?_whole all Nat.toDigits_ne_nil
    · exact readParts?_point all Nat.toDigits_ne_nil rest
  · have size : fraction.length + zeros = (-exponent).toNat := by
      rw [← length, split, List.length_append, List.length_replicate]
    have left : valueOfDigits fraction * 10 ^ zeros = digits % unit := by
      rw [← value, split, valueOfDigits_append, valueOfDigits_zeros, List.length_replicate]
      rfl
    have cast : (unit : Rat) = 10 ^ fraction.length * 10 ^ zeros := by
      rw [← pow_add, size]
      exact_mod_cast rfl
    have part : (valueOfDigits fraction : Rat) / 10 ^ fraction.length =
        (digits % unit : Nat) / unit := by
      rw [← left, cast, Nat.cast_mul, Nat.cast_pow, Nat.cast_ofNat,
        mul_div_mul_right _ _ (by positivity)]
    have sum : (digits : Rat) = (digits / unit : Nat) * unit + (digits % unit : Nat) := by
      exact_mod_cast (Nat.div_add_mod' digits unit).symm
    rw [valueOfDigits_append, valueOfDigits_toDigits, zpow_neg, zpow_natCast, ← div_eq_mul_inv,
      Nat.cast_add, add_div, part, Nat.cast_mul, Nat.cast_pow, Nat.cast_ofNat,
      mul_div_cancel_right₀ _ (by positivity), Scientific.value, ← mul_pow_div_pow]
    have power : (10 : Rat) ^ (-exponent).toNat = unit := by exact_mod_cast rfl
    have positive : (0 : Rat) < unit := by rw [← power]; positivity
    rw [power, eq_div_iff positive.ne', add_mul, div_mul_cancel₀ _ positive.ne', sum]
    push_cast
    rcases Int.le_total 0 exponent with large | small
    · have one : unit = 1 := by
        simp [unit, Int.toNat_of_nonpos (by omega : -exponent ≤ 0)]
      simp [one, Nat.mod_one]
    · simp [Int.toNat_of_nonpos small]

end MissionScript.Decimal
