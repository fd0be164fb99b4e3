namespace MissionScript

/-- The values in their order, and the name of each. No value is left out, and no two values share a
name, so a name finds its value again. -/
class Named (α : Type) where
  all : List α
  name : α → String
  find?_name : ∀ value, all.find? (fun other => name other = name value) = some value := by
    intro value
    cases value <;> decide

namespace Named

variable {α : Type} [Named α]

/-- The value with exactly this name. -/
def ofName? (name : String) : Option α :=
  (all : List α).find? fun value => Named.name value = name

@[simp] theorem ofName?_name (value : α) : ofName? (name value) = some value := find?_name value

end Named

namespace Text

/-- The code points with the property White_Space, as ranges with both ends included. -/
def blankRanges : List (Nat × Nat) :=
  [(0x9, 0xD), (0x20, 0x20), (0x85, 0x85), (0xA0, 0xA0), (0x1680, 0x1680), (0x2000, 0x200A),
    (0x2028, 0x2029), (0x202F, 0x202F), (0x205F, 0x205F), (0x3000, 0x3000)]

/-- A character is blank when one of the ranges holds its code point. -/
def isBlank (char : Char) : Bool :=
  blankRanges.any fun (first, last) => first ≤ char.toNat && char.toNat ≤ last

/-- The characters without the blank ones at either end. -/
def trimmed (chars : List Char) : List Char :=
  ((chars.dropWhile isBlank).reverse.dropWhile isBlank).reverse

/-- The text without the blank characters at either end. -/
def trim (text : String) : String := .ofList (trimmed text.toList)

/-- The table has the twenty-five characters of the property, in ascending order. -/
example : (blankRanges.map fun (first, last) => last - first + 1).sum = 25 ∧
    blankRanges.Pairwise fun low high => low.2 < high.1 := by decide

/-- The first field and the fields after it. -/
private def headAndTail (separator : Char) : List Char → List Char × List (List Char)
  | [] => ([], [])
  | char :: rest =>
    let (field, others) := headAndTail separator rest
    if char = separator then ([], field :: others) else (char :: field, others)

/-- The fields between the separators: always one more than there are separators. -/
def fields (separator : Char) (chars : List Char) : List (List Char) :=
  let (field, others) := headAndTail separator chars
  field :: others

/-- The field before the first separator and, if there is one, everything after it. -/
def cut (separator : Char) : List Char → List Char × Option (List Char)
  | [] => ([], none)
  | char :: rest =>
    if char = separator then ([], some rest)
    else
      let (field, after) := cut separator rest
      (char :: field, after)

@[simp] theorem fields_nil (separator : Char) : fields separator [] = [[]] := rfl

@[simp] theorem fields_separator (separator : Char) (rest : List Char) :
    fields separator (separator :: rest) = [] :: fields separator rest := by
  simp [fields, headAndTail]

@[simp] theorem fields_other {separator char : Char} (other : char ≠ separator)
    (rest : List Char) :
    fields separator (char :: rest) = (fields separator rest).modifyHead (char :: ·) := by
  simp [fields, headAndTail, other]

end Text

end MissionScript
