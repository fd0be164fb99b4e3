namespace MissionScript.Numeral

/-- Why a text is no numeral of the wanted range. -/
inductive Flaw
  | empty
  | invalidDigit
  | tooLarge
  deriving DecidableEq, Repr

def Flaw.message : Flaw → String
  | .empty => "cannot parse integer from empty string"
  | .invalidDigit => "invalid digit found in string"
  | .tooLarge => "number too large to fit in target type"

/-- The value of an ASCII digit. -/
def digitValue? (char : Char) : Option Nat :=
  if '0' ≤ char ∧ char ≤ '9' then some (char.toNat - '0'.toNat) else none

theorem digitValue?_eq (char : Char) :
    digitValue? char = if char.isDigit then some (char.toNat - '0'.toNat) else none := by
  have same : ('0' ≤ char ∧ char ≤ '9') ↔ char.isDigit = true := by
    rw [Char.isDigit, Bool.and_eq_true, decide_eq_true_iff, decide_eq_true_iff]
    exact Iff.rfl
  simp only [digitValue?, same]

/-- Continues a numeral whose digits so far have the given value. -/
def readDigits (largest : Nat) : Nat → List Char → Except Flaw Nat
  | value, [] => .ok value
  | value, char :: rest =>
    match digitValue? char with
    | none => .error .invalidDigit
    | some digit =>
      if largest < value * 10 + digit then .error .tooLarge
      else readDigits largest (value * 10 + digit) rest

/-- Reads a numeral of at most the largest value. -/
def readUnsigned (largest : Nat) : List Char → Except Flaw Nat
  | [] => .error .empty
  | ['+'] => .error .invalidDigit
  | '+' :: digits => readDigits largest 0 digits
  | digits => readDigits largest 0 digits

/-- The numeral of a value, with zeros before it up to the width. -/
def padded (width value : Nat) : String :=
  let digits := Nat.toDigits 10 value
  .ofList (List.replicate (width - digits.length) '0' ++ digits)

/-- Writes a comma before every digit that has a multiple of three digits from itself to the end,
the leading digit apart. -/
def groupAfter : List Char → List Char
  | [] => []
  | digit :: rest =>
    if (rest.length + 1) % 3 = 0 then ',' :: digit :: groupAfter rest else digit :: groupAfter rest

/-- The digits in groups of three, counted from the end. -/
def grouped : List Char → List Char
  | [] => []
  | digit :: rest => digit :: groupAfter rest

/-- The decimal numeral of an amount, its thousands set apart by commas. -/
def groupedText (amount : Nat) : String := .ofList (grouped (Nat.toDigits 10 amount))

theorem filter_groupAfter (digits : List Char) (plain : ',' ∉ digits) :
    (groupAfter digits).filter (· ≠ ',') = digits := by
  induction digits with
  | nil => rfl
  | cons digit rest ih =>
    have different : digit ≠ ',' := fun same => plain (same ▸ List.mem_cons_self ..)
    have tail := ih fun member => plain (List.mem_cons_of_mem _ member)
    unfold groupAfter
    split <;> simpa [different] using tail

example : [0, 999, 5000, 2000000000].map groupedText = ["0", "999", "5,000", "2,000,000,000"] := by
  decide +kernel

end MissionScript.Numeral
