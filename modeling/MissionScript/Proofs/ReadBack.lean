import MissionScript.Block
import MissionScript.Proofs.PositionalText
import MissionScript.Proofs.TextParts

namespace MissionScript

namespace Decimal

open Float.Model.UnpackedFloat

/-- The sign of a number in a text. -/
def signOf (negative : Bool) : Sign := if negative then .negative else .positive

variable {mantissa : Nat} {exponent : Int}

private theorem Parts.value_eq {parts : Parts} (plain : parts.exponent = 0)
    (rounds : RoundsTo (valueOfDigits (parts.whole ++ parts.fraction) *
      10 ^ (-parts.fraction.length : Int)) mantissa exponent)
    (canonical : Canonical mantissa exponent) (negative : Bool) :
    parts.value negative = canonical.float (signOf negative) := by
  rw [← zero_sub, ← plain] at rounds
  have read := ofScientific_float rounds canonical
  simp only [Parts.value, read]
  cases negative with
  | false => rfl
  | true => exact canonical.neg_float .positive

private theorem read?_signed {chars : List Char} {parts : Parts} (read : readParts? chars = some parts)
    (digit : ∀ char ∈ chars.head?, isDigit char = true) (negative : Bool) :
    read? (if negative then '-' :: chars else chars) = some (parts.value negative) := by
  have magnitude (negative : Bool) :
      readMagnitude? negative chars = some (parts.value negative) := by
    rw [readMagnitude?, read]
  cases negative with
  | true => exact magnitude true
  | false =>
    have plain : read? chars = readMagnitude? false chars := by
      unfold read?
      split
      · exact absurd (digit '-' rfl) (by decide)
      · exact absurd (digit '+' rfl) (by decide)
      · rfl
    exact plain.trans (magnitude false)

private theorem head?_toDigits (value : Nat) :
    ∀ char ∈ (Nat.toDigits 10 value).head?, isDigit char = true :=
  fun _ first => isDigit_of_mem_toDigits (List.mem_of_head? first)

private theorem head?_positional (number : Scientific) :
    ∀ char ∈ number.positional.head?, isDigit char = true := by
  unfold Scientific.positional
  simp only [List.head?_append_of_ne_nil _ Nat.toDigits_ne_nil]
  exact head?_toDigits _

private theorem toList_toString (whole : Int) :
    (toString whole).toList = if whole < 0 then '-' :: Nat.toDigits 10 whole.natAbs
      else Nat.toDigits 10 whole.natAbs := by
  rw [Int.toString_eq_repr, Int.repr_eq_if]
  split
  · rename_i sign
    rw [if_neg (by omega), Nat.toList_repr, (by omega : whole.toNat = whole.natAbs)]
  · rename_i sign
    rw [if_pos (by omega), String.toList_append, Nat.toList_repr,
      (by omega : (-whole).toNat = whole.natAbs)]
    rfl

private theorem integer?_eq_some {negative : Bool} {whole : Int}
    (same : (Binary64.finite negative mantissa exponent).integer? = some whole) :
    whole = (if negative then -whole.natAbs else whole.natAbs : Int) ∧
      (whole.natAbs : Rat) = mantissa * 2 ^ exponent := by
  simp only [Binary64.integer?, Nat.pow_eq] at same
  split at same
  · rename_i even
    let magnitude := mantissa / 2 ^ (-exponent).toNat * 2 ^ exponent.toNat
    have size : whole.natAbs = magnitude := by
      rw [← Option.some.inj same]
      split
      · exact Int.natAbs_neg ..
      · rfl
    refine ⟨?_, ?_⟩
    · rw [size]
      exact (Option.some.inj same).symm
    · have divides := Nat.dvd_of_mod_eq_zero even
      have quotient : ((mantissa / 2 ^ (-exponent).toNat : Nat) : Rat) =
          mantissa / 2 ^ (-exponent).toNat := by
        rw [Nat.cast_div divides (by positivity), Nat.cast_pow, Nat.cast_ofNat]
      rw [size, ← mul_pow_div_pow, mul_div_right_comm, ← quotient]
      push_cast [magnitude]
      rfl
  · cases same

private theorem signOf_isNegative (sign : Sign) : signOf (isNegative sign) = sign := by
  cases sign <;> rfl

namespace Canonical

variable (canonical : Canonical mantissa exponent) (sign : Sign)

private theorem read?_whole {whole : Int} (found : integer? (canonical.float sign) = some whole) :
    read? (toString whole).toList = some (canonical.float sign) := by
  rw [integer?, canonical.ofFloat_float] at found
  obtain ⟨signs, equal⟩ := integer?_eq_some found
  have some : 0 < whole.natAbs := by
    have : (0 : Rat) < whole.natAbs := by
      have := canonical.positive
      rw [equal]
      positivity
    exact_mod_cast this
  have text : (toString whole).toList = if isNegative sign then '-' :: Nat.toDigits 10 whole.natAbs
      else Nat.toDigits 10 whole.natAbs := by
    rw [toList_toString, signs]
    cases isNegative sign <;> simp; omega
  have rounds := RoundsTo.self mantissa exponent
  have digits := readParts?_whole (fun _ => isDigit_of_mem_toDigits)
    (Nat.toDigits_ne_nil (n := whole.natAbs) (b := 10))
  rw [text, read?_signed digits (head?_toDigits _), Parts.value_eq rfl _ canonical,
    signOf_isNegative]
  simpa [valueOfDigits_toDigits, equal] using rounds

private theorem read?_shortest :
    read? (written.signed (isNegative sign) (shortest mantissa exponent)).toList =
      some (canonical.float sign) := by
  obtain ⟨parts, read, plain, same⟩ := readParts?_positional (shortest mantissa exponent)
  have rounds := shortest_roundsTo canonical
  rw [← same] at rounds
  rw [written.signed, String.toList_ofList, read?_signed read (head?_positional _),
    Parts.value_eq plain rounds canonical, signOf_isNegative]

end Canonical

/-- The text of a finite number reads as the number, unless it is the negative zero. -/
theorem read?_written {value : Float} (finite : value.isFinite = true) (other : value ≠ -0.0) :
    read? (written value).toList = some value := by
  have shape := ofFloat_eq value
  change value.toModel.unpack.isFinite = true at finite
  cases unpacked : value.toModel.unpack with
  | notANumber | infinity =>
    rw [unpacked] at finite
    cases finite
  | zero sign =>
    cases sign with
    | negative => exact absurd (eq_of_unpack_eq unpacked) other
    | positive =>
      obtain rfl : value = 0.0 := eq_of_unpack_eq unpacked
      decide +kernel
  | finite sign mantissa exponent positive =>
    rw [unpacked] at shape
    obtain ⟨own, canonical, same, rfl⟩ := Canonical.of_ofFloat shape positive
    unfold written
    rw [shape]
    simp only [Binary64.ofUnpacked, ← same]
    split
    · rename_i whole found
      exact canonical.read?_whole own (Option.filter_eq_some_iff.mp found).1
    · exact canonical.read?_shortest own

private theorem written_infinite {value : Float} (infinite : value.isFinite = false) :
    written value ∈ ["NaN", "Infinity", "-Infinity"] := by
  have shape := ofFloat_eq value
  change value.toModel.unpack.isFinite = false at infinite
  cases unpacked : value.toModel.unpack with
  | notANumber =>
    rw [unpacked] at shape
    simp [written, shape, Binary64.ofUnpacked]
  | infinity sign =>
    rw [unpacked] at shape
    cases sign <;> simp [written, shape, Binary64.ofUnpacked, isNegative]
  | zero | finite =>
    rw [unpacked] at infinite
    cases infinite

private theorem mem_positional {number : Scientific} {char : Char}
    (member : char ∈ number.positional) :
    isDigit char = true ∨ char = '.' := by
  unfold Scientific.positional at member
  simp only at member
  rcases List.mem_append.mp member with whole | fraction
  · exact .inl (isDigit_of_mem_toDigits whole)
  · split at fraction
    · cases fraction
    · rcases List.mem_cons.mp fraction with point | digit
      · exact .inr point
      · have kept := (List.dropWhile_sublist _).subset (List.mem_reverse.mp digit)
        exact .inl (isDigit_of_mem_toDigits (List.mem_of_mem_drop (List.mem_reverse.mp kept)))

private theorem mem_written {value : Float} {char : Char} (member : char ∈ (written value).toList) :
    isDigit char = true ∨ char ∈ "-.NaNInfinity".toList := by
  have named {name : String} (among : name.toList.all ("-.NaNInfinity".toList.contains ·) = true)
      (member : char ∈ name.toList) : isDigit char = true ∨ char ∈ "-.NaNInfinity".toList :=
    .inr (List.contains_iff_mem.mp (List.all_eq_true.mp among char member))
  unfold written at member
  split at member
  · exact named (by decide) member
  · exact named (by decide) member
  · exact named (by decide) member
  · split at member
    · rw [toList_toString] at member
      split at member
      · rcases List.mem_cons.mp member with rfl | digit
        · exact .inr (by decide)
        · exact .inl (isDigit_of_mem_toDigits digit)
      · exact .inl (isDigit_of_mem_toDigits member)
    · have plain {chars : List Char} {number : Scientific} (same : chars = number.positional)
          (member : char ∈ chars) : isDigit char = true ∨ char ∈ "-.NaNInfinity".toList := by
        subst same
        rcases mem_positional member with digit | rfl
        · exact .inl digit
        · exact .inr (by decide)
      unfold written.signed at member
      rw [String.toList_ofList] at member
      split at member
      · rcases List.mem_cons.mp member with rfl | rest
        · exact .inr (by decide)
        · exact plain rfl rest
      · exact plain rfl member

end Decimal

open Decimal

/-- A number and its text answer alike, as a number and as a text. -/
theorem Argument.number?_written {value : Float} (other : value ≠ -0.0) :
    (Argument.text (written value)).number? = (Argument.number value).number? := by
  have plain : Text.trimmed (written value).toList = (written value).toList := by
    refine Text.trimmed_of_forall fun char member => ?_
    rcases mem_written member with digit | named
    · exact Text.isBlank_of_isDigit (isDigit_eq char ▸ digit)
    · have plain : "-.NaNInfinity".toList.all (!Text.isBlank ·) = true := by decide
      exact (Bool.not_eq_true' _).mp (List.all_eq_true.mp plain char named)
  unfold Argument.number?
  simp only [plain]
  cases finite : value.isFinite with
  | true => rw [read?_written finite other]
  | false =>
    have nothing : ∀ text ∈ ["NaN", "Infinity", "-Infinity"],
        (read? text.toList).filter Float.isFinite = none := by
      decide +kernel
    rw [nothing _ (written_infinite finite), Option.filter_some, if_neg (by simp [finite])]

end MissionScript
