import MissionScript.Decimal.Written

namespace MissionScript

inductive Json
  | null
  | bool (value : Bool)
  | number (value : Float)
  | count (value : Nat)
  | string (value : String)
  | array (items : List Json)
  | object (members : List (String × Json))

namespace Json

def strings (values : List String) : Json := array (values.map string)

/-- A number, or null in place of an infinite or undefined one. -/
def finite (value : Float) : Json := if value.isFinite then number value else null

/-- A character inside of a string. Only quotes, backslashes and control characters are escaped. -/
def charText (char : Char) : List Char :=
  match char with
  | '"' => ['\\', '"']
  | '\\' => ['\\', '\\']
  | '\x08' => ['\\', 'b']
  | '\x0c' => ['\\', 'f']
  | '\n' => ['\\', 'n']
  | '\r' => ['\\', 'r']
  | '\t' => ['\\', 't']
  | _ =>
    if char.toNat < 0x20 then
      ['\\', 'u', '0', '0', Nat.digitChar (char.toNat / 16), Nat.digitChar (char.toNat % 16)]
    else [char]

def stringText (value : String) : String :=
  .ofList ('"' :: value.toList.flatMap charText ++ ['"'])

/-- A finite number in positional digits with at least one place after the point. -/
def numberText (value : Float) : String :=
  match Decimal.Binary64.ofFloat value with
  | .finite negative mantissa exponent =>
    let digits := (Decimal.shortest mantissa exponent).positional
    let places := if '.' ∈ digits then [] else ['.', '0']
    (if negative then "-" else "") ++ .ofList (digits ++ places)
  | _ => "null"

mutual

def text : Json → String
  | null => "null"
  | bool value => if value then "true" else "false"
  | number value => numberText value
  | count value => toString value
  | string value => stringText value
  | array items => "[" ++ ",".intercalate (itemTexts items) ++ "]"
  | object members => "\x7b" ++ ",".intercalate (memberTexts members) ++ "\x7d"

def itemTexts : List Json → List String
  | [] => []
  | item :: items => text item :: itemTexts items

def memberTexts : List (String × Json) → List String
  | [] => []
  | (key, value) :: members => (stringText key ++ ":" ++ text value) :: memberTexts members

end

end Json

end MissionScript
