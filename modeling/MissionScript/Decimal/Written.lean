import MissionScript.Decimal.Binary64

/-! The shortest decimal number that reads back as a given binary64 number. On the grid of the
decimal numbers with a given count of digits only the two neighbours of the value need a look: if
any point of the grid rounds to the value, one of them does. -/
namespace MissionScript.Decimal

/-- The number `digits * 10 ^ exponent`. -/
structure Scientific where
  digits : Nat
  exponent : Int
  deriving DecidableEq, Repr

/-- A positive fraction, kept as it comes and not in lowest terms. -/
structure Fraction where
  numerator : Nat
  denominator : Nat
  deriving DecidableEq, Repr

/-- The fraction `count * 2 ^ exponent`. -/
def Fraction.scaled (count : Nat) (exponent : Int) : Fraction :=
  ⟨count * Nat.pow 2 exponent.toNat, Nat.pow 2 (-exponent).toNat⟩

def Fraction.le (left right : Fraction) : Bool :=
  left.numerator * right.denominator ≤ right.numerator * left.denominator

def Fraction.lt (left right : Fraction) : Bool :=
  left.numerator * right.denominator < right.numerator * left.denominator

def Scientific.fraction (number : Scientific) : Fraction :=
  ⟨number.digits * Nat.pow 10 number.exponent.toNat, Nat.pow 10 (-number.exponent).toNat⟩

/-- The real numbers that round to one binary64 number. The ends belong to it when the mantissa is
even, because a tie goes to the even neighbour. -/
structure Basin where
  low : Fraction
  high : Fraction
  closed : Bool
  deriving DecidableEq, Repr

/-- The basin of `mantissa * 2 ^ exponent`. It reaches half way to either neighbour, and the
neighbour below a power of two is only half as far away. -/
def Basin.around (mantissa : Nat) (exponent : Int) : Basin :=
  let below := if mantissa = Nat.pow 2 52 ∧ leastExponent < exponent then 1 else 2
  { low := .scaled (4 * mantissa - below) (exponent - 2)
    high := .scaled (4 * mantissa + 2) (exponent - 2)
    closed := mantissa % 2 == 0 }

def Basin.holds (basin : Basin) (value : Fraction) : Bool :=
  if basin.closed then basin.low.le value && value.le basin.high
  else basin.low.lt value && value.lt basin.high

/-- How many digits the numeral of a number has. -/
def digitCount (value : Nat) : Nat := (Nat.toDigits 10 value).length

/-- The power of ten just above a positive value: the least `p` with the value below `10 ^ p`. -/
def Fraction.magnitude (value : Fraction) : Int :=
  if value.denominator ≤ value.numerator then digitCount (value.numerator / value.denominator)
  else 1 - digitCount ((value.denominator - 1) / value.numerator)

/-- The neighbours of a value on the grid of the multiples of `10 ^ exponent`: the greatest multiple
that is not above it and the next one. The flag says whether the lower one is strictly nearer. -/
def neighbours (value : Fraction) (exponent : Int) : Scientific × Scientific × Bool :=
  let numerator := value.numerator * Nat.pow 10 (-exponent).toNat
  let denominator := value.denominator * Nat.pow 10 exponent.toNat
  let digits := numerator / denominator
  (⟨digits, exponent⟩, ⟨digits + 1, exponent⟩, 2 * (numerator % denominator) < denominator)

/-- The neighbour on the grid that lies in the basin; of two the nearer, and the upper one when both
are as near. -/
def nearest? (basin : Basin) (value : Fraction) (exponent : Int) : Option Scientific :=
  let (lower, upper, lowerNearer) := neighbours value exponent
  match basin.holds lower.fraction, basin.holds upper.fraction with
  | true, true => some (if lowerNearer then lower else upper)
  | true, false => some lower
  | false, true => some upper
  | false, false => none

/-- A decimal number that equals `mantissa * 2 ^ exponent`. -/
def exact (mantissa : Nat) (exponent : Int) : Scientific :=
  if 0 ≤ exponent then ⟨mantissa * Nat.pow 2 exponent.toNat, 0⟩
  else ⟨mantissa * Nat.pow 5 (-exponent).toNat, exponent⟩

/-- The decimal number with the fewest digits that reads back as `mantissa * 2 ^ exponent`, and the
nearest one of those. Seventeen digits are always enough. -/
def shortest (mantissa : Nat) (exponent : Int) : Scientific :=
  let value := Fraction.scaled mantissa exponent
  let basin := Basin.around mantissa exponent
  let places := (List.range 17).findSome? fun (more : Nat) =>
    nearest? basin value (value.magnitude - (more + 1))
  places.getD (exact mantissa exponent)

/-- The characters without the zeros at their end. -/
def withoutTrailingZeros (digits : List Char) : List Char :=
  (digits.reverse.dropWhile (· = '0')).reverse

/-- The number in positional digits. A fraction is written without zeros at its end, and the point
only before a fraction. -/
def Scientific.positional (number : Scientific) : List Char :=
  let unit := Nat.pow 10 (-number.exponent).toNat
  let whole := number.digits / unit * Nat.pow 10 number.exponent.toNat
  let padding := Nat.toDigits 10 (unit + number.digits % unit)
  let fraction := withoutTrailingZeros (padding.drop 1)
  Nat.toDigits 10 whole ++ if fraction.isEmpty then [] else '.' :: fraction

/-- From this magnitude up a whole number is written by its shortest digits. -/
def exactLimit : Nat := Nat.pow 10 15

/-- The text of a number: exact for whole numbers below the limit, else the shortest digits that
read back as the same number. Zero has no sign in it. -/
def written (value : Float) : String :=
  match Binary64.ofFloat value with
  | .notANumber => "NaN"
  | .infinite false => "Infinity"
  | .infinite true => "-Infinity"
  | .finite negative mantissa exponent =>
    match (integer? value).filter (·.natAbs < exactLimit) with
    | some whole => toString whole
    | none => signed negative (shortest mantissa exponent)
where
  signed (negative : Bool) (number : Scientific) : String :=
    .ofList (if negative then '-' :: number.positional else number.positional)

/-- A tenth, the two zeros, a tie that goes up, and both sides of the limit. -/
example : [0x3FB999999999999A, 0x0, 0x8000000000000000, 0x3E60000000000000, 0x430C6BF52633FFF8,
      0x430C6BF526340002].map (written ∘ Float.ofBits) =
    ["0.1", "0", "0", "0.000000029802322387695313", "999999999999999", "1000000000000000.3"] := by
  decide +kernel

end MissionScript.Decimal
