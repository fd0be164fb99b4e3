import MissionScript.Decimal.Binary64
import MissionScript.Numeral

namespace MissionScript.Decimal

open Numeral (digitValue?)

def isDigit (char : Char) : Bool := (digitValue? char).isSome

/-- The value of a run of digits. -/
def valueOfDigits (digits : List Char) : Nat :=
  digits.foldl (fun value char => value * 10 + (digitValue? char).getD 0) 0

/-- The parts of an unsigned decimal number. -/
structure Parts where
  whole : List Char
  fraction : List Char
  exponent : Int

/-- The binary64 number nearest to the parts, with the given sign. What is too large becomes
infinite and what is too small a zero, either with its sign. -/
def Parts.value (parts : Parts) (negative : Bool) : Float :=
  let exponent := parts.exponent - parts.fraction.length
  let magnitude := Float.ofScientific (valueOfDigits (parts.whole ++ parts.fraction))
    (exponent < 0) exponent.natAbs
  if negative then -magnitude else magnitude

/-- A whole number with an optional sign and at least one digit. -/
def readExponent? : List Char → Option Int
  | '-' :: digits => (unsigned? digits).map fun value => -(value : Int)
  | '+' :: digits => (unsigned? digits).map fun value => (value : Int)
  | digits => (unsigned? digits).map fun value => (value : Int)
where
  unsigned? (digits : List Char) : Option Nat :=
    if !digits.isEmpty && digits.all isDigit then some (valueOfDigits digits) else none

/-- Digits with at most one point among them, a digit on at least one side of it, and then perhaps
an exponent. -/
def readParts? (chars : List Char) : Option Parts :=
  let (whole, afterWhole) := chars.span isDigit
  let (fraction, rest) := match afterWhole with
    | '.' :: afterPoint => afterPoint.span isDigit
    | _ => ([], afterWhole)
  if whole.isEmpty && fraction.isEmpty then none
  else match rest with
    | [] => some ⟨whole, fraction, 0⟩
    | mark :: exponent =>
      if mark = 'e' ∨ mark = 'E' then (readExponent? exponent).map (⟨whole, fraction, ·⟩) else none

/-- The values with a name, in any case of letters. -/
def named? (chars : List Char) : Option Float :=
  let lower := chars.map Char.toLower
  if lower = "inf".toList ∨ lower = "infinity".toList then some (1.0 / 0.0)
  else if lower = "nan".toList then some (0.0 / 0.0)
  else none

/-- Reads a number without its sign. -/
def readMagnitude? (negative : Bool) (chars : List Char) : Option Float :=
  match readParts? chars with
  | some parts => some (parts.value negative)
  | none => (named? chars).map fun value => if negative then -value else value

/-- Reads the number that makes up the whole text. -/
def read? : List Char → Option Float
  | '-' :: chars => readMagnitude? true chars
  | '+' :: chars => readMagnitude? false chars
  | chars => readMagnitude? false chars

/-- Values too small for binary64 become zeros with their sign, and values too large infinite. -/
example : (read? "-1e-400".toList).map Float.toBits = some 0x8000000000000000 ∧
    (read? "1e400".toList).map Float.toBits = (read? "inf".toList).map Float.toBits ∧
    (read? ".5".toList).map Float.toBits = (read? "+5.e-1".toList).map Float.toBits ∧
    read? ".".toList = none ∧ read? "1e".toList = none := by
  decide +kernel

end MissionScript.Decimal
