import MissionScript.Calculator
import MissionScript.Proofs.BitLayout

namespace MissionScript

namespace Decimal

open Float.Model Float.Model.UnpackedFloat

/-- The value without the sign of a zero. -/
def unsigned : UnpackedFloat → UnpackedFloat
  | .zero _ => .zero .positive
  | value => value

/-- Numbers that differ in the sign of a zero at most. -/
def Alike (first second : Float) : Prop :=
  unsigned first.toModel.unpack = unsigned second.toModel.unpack

private theorem unsigned_add (left right : UnpackedFloat) :
    unsigned (.add .binary64 left right) =
      unsigned (.add .binary64 (unsigned left) (unsigned right)) := by
  cases left with
  | zero sign =>
    cases right with
    | zero other => cases sign <;> cases other <;> rfl
    | infinity | notANumber | finite => rfl
  | infinity | notANumber | finite => cases right <;> rfl

private theorem unsigned_sub (left right : UnpackedFloat) :
    unsigned (.sub .binary64 left right) =
      unsigned (.sub .binary64 (unsigned left) (unsigned right)) := by
  cases left with
  | zero sign =>
    cases right with
    | zero other => cases sign <;> cases other <;> rfl
    | infinity | notANumber | finite => rfl
  | infinity | notANumber | finite => cases right <;> rfl

private theorem unsigned_mul (left right : UnpackedFloat) :
    unsigned (.mul .binary64 left right) =
      unsigned (.mul .binary64 (unsigned left) (unsigned right)) := by
  cases left <;> cases right <;> simp only [UnpackedFloat.mul, unsigned]

private theorem unsigned_div (left : UnpackedFloat) {right : UnpackedFloat}
    (other : ∀ sign, right ≠ .zero sign) :
    unsigned (.div .binary64 left right) =
      unsigned (.div .binary64 (unsigned left) (unsigned right)) := by
  cases right with
  | zero sign => exact absurd rfl (other sign)
  | infinity | notANumber | finite =>
    cases left <;> simp only [UnpackedFloat.div, unsigned]

private theorem unsigned_pack (value : UnpackedFloat) :
    unsigned (Float.Model.pack value).unpack =
      unsigned (Float.Model.pack (unsigned value)).unpack := by
  cases value with
  | zero sign => cases sign <;> rfl
  | infinity | notANumber | finite => rfl

private theorem eq_or_zeros {left right : UnpackedFloat} (same : unsigned left = unsigned right) :
    left = right ∨ ∃ sign other, left = .zero sign ∧ right = .zero other := by
  cases left <;> cases right <;> simp_all [unsigned]

private theorem Binary64.integer?_zero (sign : Sign) :
    (ofUnpacked (.zero sign)).integer? = some 0 := by
  cases sign <;> simp [ofUnpacked, integer?]

private theorem beq_zero_iff (value : Float) :
    (value == 0.0) = true ↔ ∃ sign, value.toModel.unpack = .zero sign := by
  have zero : (0.0 : Float).toModel.unpack = .zero .positive := rfl
  change (value.toModel.unpack.compare (0.0 : Float).toModel.unpack == some .eq) = true ↔ _
  rw [zero]
  cases value.toModel.unpack with
  | notANumber => simp [UnpackedFloat.compare]
  | zero => simp [UnpackedFloat.compare]
  | infinity sign | finite sign => cases sign <;> simp [UnpackedFloat.compare]

namespace Alike

variable {first second left right : Float}

private theorem of_unsigned {first second : UnpackedFloat} (same : unsigned first = unsigned second) :
    Alike (.ofModel (.pack first)) (.ofModel (.pack second)) := by
  change unsigned (Float.Model.pack first).unpack = unsigned (Float.Model.pack second).unpack
  rw [unsigned_pack first, unsigned_pack second, same]

private theorem refl (value : Float) : Alike value value := rfl

theorem option_refl (number? : Option Float) : Option.Rel Alike number? number? := by
  cases number? with
  | none => exact .none
  | some value => exact .some (.refl value)

theorem negativeZero : Alike (-0.0) 0.0 := rfl

private theorem add (start : Alike first left) (next : Alike second right) :
    Alike (first + second) (left + right) := by
  unfold Alike at start next
  refine of_unsigned ?_
  rw [unsigned_add, start, next, ← unsigned_add]

private theorem sub (start : Alike first left) (next : Alike second right) :
    Alike (first - second) (left - right) := by
  unfold Alike at start next
  refine of_unsigned ?_
  rw [unsigned_sub, start, next, ← unsigned_sub]

private theorem mul (start : Alike first left) (next : Alike second right) :
    Alike (first * second) (left * right) := by
  unfold Alike at start next
  refine of_unsigned ?_
  rw [unsigned_mul, start, next, ← unsigned_mul]

private theorem beq_zero_eq (alike : Alike first second) : (first == 0.0) = (second == 0.0) := by
  rw [Bool.eq_iff_iff, beq_zero_iff, beq_zero_iff]
  rcases eq_or_zeros alike with same | ⟨sign, other, one, two⟩
  · rw [same]
  · simp [one, two]

private theorem div (start : Alike first left) (next : Alike second right) (some : ¬ second == 0.0) :
    Alike (first / second) (left / right) := by
  have also : ¬ right == 0.0 := next.beq_zero_eq ▸ some
  rw [beq_zero_iff, not_exists] at some also
  unfold Alike at start next
  refine of_unsigned ?_
  rw [unsigned_div _ some, start, next, ← unsigned_div _ also]

private theorem integer?_eq (alike : Alike first second) : integer? first = integer? second := by
  rw [integer?, integer?, ofFloat_eq, ofFloat_eq]
  rcases eq_or_zeros alike with same | ⟨sign, other, one, two⟩
  · rw [same]
  · rw [one, two, Binary64.integer?_zero, Binary64.integer?_zero]

theorem natural?_eq (alike : Alike first second) : natural? first = natural? second := by
  rw [natural?, natural?, alike.integer?_eq]

theorem written_eq (alike : Alike first second) : written first = written second := by
  unfold written
  rw [alike.integer?_eq, ofFloat_eq, ofFloat_eq]
  rcases eq_or_zeros alike with same | ⟨sign, other, one, two⟩
  · rw [same]
  · have zero : integer? second = some 0 := by
      rw [integer?, ofFloat_eq, two, Binary64.integer?_zero]
    rw [one, two, zero]
    rfl

end Alike

end Decimal

open Decimal

/-- Outcomes that show the same answer or message, with related states. -/
structure Outcome.Alike {State Answer : Type} (related : State → State → Prop)
    (first second : Outcome State Answer) : Prop where
  answer : first.answer.mapError Fault.message = second.answer.mapError Fault.message
  state : related first.state second.state

variable {number other : Float}

/-- Alike operands are refused together or give alike results. -/
theorem Operator.apply_alike {total entered : Float} (totals : Decimal.Alike total entered)
    (numbers : Decimal.Alike number other) (operator : Operator) :
    (∃ fault, operator.apply total number = .error fault ∧
        operator.apply entered other = .error fault) ∨
      ∃ result same, Decimal.Alike result same ∧ operator.apply total number = .ok result ∧
        operator.apply entered other = .ok same := by
  cases operator with
  | add => exact .inr ⟨_, _, totals.add numbers, rfl, rfl⟩
  | subtract => exact .inr ⟨_, _, totals.sub numbers, rfl, rfl⟩
  | multiply => exact .inr ⟨_, _, totals.mul numbers, rfl, rfl⟩
  | divide =>
    simp only [apply, ← numbers.beq_zero_eq]
    split
    · exact .inl ⟨_, rfl, rfl⟩
    · rename_i some
      exact .inr ⟨_, _, totals.div numbers some, rfl, rfl⟩

/-- Calculators with totals that are alike. -/
structure Calculator.Alike (first second : Calculator) : Prop where
  total : Option.Rel Decimal.Alike first.total second.total
  pending : first.pending = second.pending
  operations : first.operations = second.operations

namespace Calculator

variable {first second : Calculator}

theorem enter_alike (alike : first.Alike second) (numbers : Decimal.Alike number other) :
    Outcome.Alike Alike (first.enter number) (second.enter other) := by
  obtain ⟨total, pending, operations⟩ := first
  obtain ⟨entered, _, _⟩ := second
  obtain ⟨totals, rfl, rfl⟩ := alike
  cases pending with
  | none =>
    cases totals with
    | none =>
      simp only [enter, numbers.written_eq]
      exact ⟨rfl, .some numbers, rfl, rfl⟩
    | some same =>
      refine ⟨congrArg Except.error (congrArg ("[ERROR] " ++ ·) ?_), .some same, rfl, rfl⟩
      unfold Violation.message
      dsimp only
      rw [same.written_eq, numbers.written_eq]
  | some operator =>
    have previous : Decimal.Alike (total.getD 0.0) (entered.getD 0.0) := by
      cases totals with
      | none => exact .refl _
      | some same => exact same
    simp only [enter]
    rcases operator.apply_alike previous numbers with
      ⟨fault, one, two⟩ | ⟨result, same, results, one, two⟩
    · rw [one, two]
      exact ⟨rfl, totals, rfl, rfl⟩
    · rw [one, two]
      refine ⟨?_, .some results, rfl, rfl⟩
      simp only [Outcome.done, previous.written_eq, numbers.written_eq, results.written_eq]

theorem await_alike (alike : first.Alike second) (operator : Operator) (label : String) :
    Outcome.Alike Alike (first.await operator label) (second.await operator label) := by
  obtain ⟨total, pending, operations⟩ := first
  obtain ⟨entered, _, _⟩ := second
  obtain ⟨totals, rfl, rfl⟩ := alike
  cases totals with
  | none => exact ⟨rfl, .none, rfl, rfl⟩
  | some same =>
    cases pending with
    | none => exact ⟨by simp only [await, Outcome.done, same.written_eq], .some same, rfl, rfl⟩
    | some pending => exact ⟨rfl, .some same, rfl, rfl⟩

end Calculator

end MissionScript
