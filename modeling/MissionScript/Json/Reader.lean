import MissionScript.Json.Draft
import MissionScript.Text

namespace MissionScript.Json

/-- Why a text is refused: its grammar is wrong, or it is in order but not of the type. -/
inductive Flaw
  | malformed
  | mismatch
  deriving DecidableEq, Repr

/-- A reader knows how many containers it is in. -/
abbrev Reader (α : Type) := (depth : Nat) → Draft → Except Flaw α

/-- How many containers may lie in each other. -/
def deepest : Nat := 127

/-- Why a value of another kind is refused. A container is refused where it opens; any other value
is read first. -/
def Draft.otherKind : Draft → Flaw
  | number none | string none | broken => .malformed
  | _ => .mismatch

/-- Goes into a container if there is depth left. -/
def within {α : Type} (depth : Nat) (read : Nat → Except Flaw α) : Except Flaw α :=
  if depth < deepest then read (depth + 1) else .error .malformed

def requireWhole (whole : Bool) : Except Flaw Unit :=
  if whole then .ok () else .error .malformed

mutual

/-- The value is in order to its last part: no number out of range, no half of a surrogate pair, and
no container too deep. -/
def Draft.isSound (depth : Nat) : Draft → Bool
  | null => true
  | bool _ => true
  | number value => value.isSome
  | string value => value.isSome
  | array items closed => depth < deepest && areSound (depth + 1) items && closed
  | object members closed =>
    depth < deepest && membersAreSound (depth + 1) members && closed
  | broken => false

def Draft.areSound (depth : Nat) : List Draft → Bool
  | [] => true
  | item :: items => item.isSound depth && areSound depth items

def Draft.membersAreSound (depth : Nat) : List (Option String × Draft) → Bool
  | [] => true
  | (key, value) :: members =>
    key.isSome && value.isSound depth && membersAreSound depth members

end

namespace Reader

variable {α β : Type}

def string : Reader String
  | _, .string (some value) => .ok value
  | _, draft => .error draft.otherKind

def bool : Reader Bool
  | _, .bool value => .ok value
  | _, draft => .error draft.otherKind

/-- Takes null for no value. -/
def optional (read : Reader α) : Reader (Option α)
  | _, .null => .ok none
  | depth, draft => (read depth draft).map some

/-- An array with values of one type. -/
def list (read : Reader α) : Reader (List α)
  | depth, .array items closed => within depth fun depth => do
    let values ← items.mapM (read depth)
    requireWhole closed
    return values
  | _, draft => .error draft.otherKind

/-- A value known by name: the name as a string, or as the only key of an object, with null. -/
def named [Named α] : Reader α
  | _, .string (some name) => known name
  | depth, .object members closed => within depth fun _ =>
    match members with
    | [] => .error .malformed
    | (key, value) :: others => do
      let name ← match key with
        | some name => .ok name
        | none => .error .malformed
      let found ← known name
      match value with
      | .null => requireWhole (others.isEmpty && closed)
      | value => .error value.otherKind
      return found
  | _, _ => .error .malformed
where
  known (name : String) : Except Flaw α :=
    match Named.ofName? name with
    | some value => .ok value
    | none => .error .mismatch

end Reader

/-- A field of a record in the making: whether it has been read, and how it is read. -/
structure Field (Partial : Type) where
  name : String
  isRead : Partial → Bool
  read : (depth : Nat) → Draft → Partial → Except Flaw Partial

/-- A field that is kept in a place of its own until all fields are read. -/
def Field.at {Partial α : Type} (name : String) (read : Reader α) (get : Partial → Option α)
    (set : Partial → Option α → Partial) : Field Partial where
  name := name
  isRead record := (get record).isSome
  read depth draft record := (read depth draft).map fun value => set record (some value)

/-- A record of fields. It is complete when no field without a default is missing. -/
structure RecordType (Partial α : Type) where
  fields : List (Field Partial)
  start : Partial
  complete? : Partial → Option α

namespace RecordType

variable {Partial α : Type}

/-- Reads one member. Unknown keys are passed over; no field may come twice. -/
def readMember (type : RecordType Partial α) (depth : Nat) (record : Partial)
    (member : Option String × Draft) : Except Flaw Partial := do
  let (some key, value) := member | .error .malformed
  match type.fields.find? (·.name = key) with
  | none =>
    requireWhole value.isWhole
    return record
  | some field =>
    if field.isRead record then .error .mismatch else field.read depth value record

/-- Reads the fields in their order from the items of an array. -/
def readItems (depth : Nat) : List (Field Partial) → List Draft → Partial → Except Flaw Partial
  | _, [], record => .ok record
  | [], _ :: _, _ => .error .malformed
  | field :: fields, item :: items, record => do
    readItems depth fields items (← field.read depth item record)

/-- Reads a record from an object, or from an array with the fields in their order. -/
def read (type : RecordType Partial α) : Reader α
  | depth, .object members closed => within depth fun depth => do
    let record ← members.foldlM (type.readMember depth) type.start
    requireWhole closed
    finish record
  | depth, .array items closed => within depth fun depth => do
    let record ← readItems depth type.fields items type.start
    requireWhole closed
    finish record
  | _, draft => .error draft.otherKind
where
  finish (record : Partial) : Except Flaw α :=
    match type.complete? record with
    | some value => .ok value
    | none => .error .mismatch

end RecordType

/-- Reads a document against a type. Nothing may stand after the value. -/
def Document.read {α : Type} (document : Document) (reader : Reader α) : Except Flaw α := do
  let value ← reader 0 document.draft
  requireWhole (!document.trailing)
  return value

end MissionScript.Json
