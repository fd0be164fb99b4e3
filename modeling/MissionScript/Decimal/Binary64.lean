namespace MissionScript.Decimal

/-- What a binary64 number stands for. A finite one is `mantissa * 2 ^ exponent` with its sign, and
zero keeps its sign too. -/
inductive Binary64
  | notANumber
  | infinite (negative : Bool)
  | finite (negative : Bool) (mantissa : Nat) (exponent : Int)
  deriving DecidableEq, Repr

/-- The exponent of the subnormal numbers, which is the least of all. -/
def leastExponent : Int := -1074

/-- The bits hold a sign, eleven bits of exponent and fifty-two of fraction, from the top. -/
def Binary64.ofBits (bits : Nat) : Binary64 :=
  let negative := bits / Nat.pow 2 63 % 2 == 1
  let biased : Nat := bits / Nat.pow 2 52 % Nat.pow 2 11
  let fraction : Nat := bits % Nat.pow 2 52
  if biased = Nat.pow 2 11 - 1 then
    if fraction = 0 then .infinite negative else .notANumber
  else if biased = 0 then .finite negative fraction leastExponent
  else .finite negative (Nat.pow 2 52 + fraction) ((biased : Int) - 1 + leastExponent)

def Binary64.ofFloat (value : Float) : Binary64 := .ofBits value.toBits.toNat

/-- The whole number a finite value equals, if it is one. Both zeros are zero. -/
def Binary64.integer? : Binary64 → Option Int
  | .finite negative mantissa exponent =>
    let unit : Nat := Nat.pow 2 (-exponent).toNat
    if mantissa % unit = 0 then
      let magnitude : Nat := mantissa / unit * Nat.pow 2 exponent.toNat
      some (if negative then -magnitude else magnitude)
    else none
  | _ => none

/-- The whole number a value equals, if it is one. -/
def integer? (value : Float) : Option Int := (Binary64.ofFloat value).integer?

/-- The natural number a value equals, if it is one. -/
def natural? (value : Float) : Option Nat := (integer? value).bind Int.toNat?

end MissionScript.Decimal
