import MissionScript.Json.Token
import MissionScript.Json.Text

/-! Drafts: JSON texts as far as they are in order. A draft ends at the first error of grammar, so
what stands before the error can still be read against a type, and whichever is wrong first is
found first. -/
namespace MissionScript.Json

/-- A value as far as it is in order. Inside a container that is not closed only the last part can
be broken. -/
inductive Draft
  | null
  | bool (value : Bool)
  | number (value : Option Float)
  | string (value : Option String)
  | array (items : List Draft) (closed : Bool)
  | object (members : List (Option String × Draft)) (closed : Bool)
  | broken

mutual

/-- The draft of a value, which is in order to its end. -/
def draft : Json → Draft
  | null => .null
  | bool value => .bool value
  | number value => .number value
  | count value => .number (Float.ofNat value)
  | string value => .string value
  | array items => .array (drafts items) true
  | object members => .object (memberDrafts members) true

def drafts : List Json → List Draft
  | [] => []
  | item :: items => draft item :: drafts items

def memberDrafts : List (String × Json) → List (Option String × Draft)
  | [] => []
  | (key, value) :: members => (some key, draft value) :: memberDrafts members

end

/-- The value is in order as far as grammar goes. A closed container holds only such values. -/
def Draft.isWhole : Draft → Bool
  | array _ closed => closed
  | object _ closed => closed
  | broken => false
  | _ => true

/-- A container that is not closed yet. Its parts so far are kept last first. -/
inductive Frame
  | items (before : List Draft)
  | members (before : List (Option String × Draft))
  /-- An object with a key that waits for its value. -/
  | value (before : List (Option String × Draft)) (key : Option String)

/-- What may come next. -/
inductive Want
  | value
  | firstValue
  | key
  | firstKey
  | colon
  | next
  deriving DecidableEq, Repr

/-- A draft in the making: what may come next, and the open containers from the inside out. -/
structure Draft.Builder where
  want : Want
  frames : List Frame

/-- What one more token makes of a builder. -/
inductive Draft.Step
  | more (builder : Builder)
  | whole (draft : Draft)
  | broken (draft : Draft)

namespace Draft

/-- The container as a draft that is not closed, with what was begun inside of it. -/
def ofFrame (inner : Option Draft) : Frame → Draft
  | .items before => .array (inner.toList ++ before).reverse false
  | .members before => .object before.reverse false
  | .value before key => .object ((key, inner.getD .broken) :: before).reverse false

namespace Builder

def start : Builder := ⟨.value, []⟩

/-- The draft when an error comes. -/
def abandon (builder : Builder) : Draft :=
  (builder.frames.foldl (fun inner frame => some (ofFrame inner frame)) none).getD .broken

/-- Puts a whole value into its container. -/
def place (value : Draft) : List Frame → Step
  | [] => .whole value
  | .items before :: frames => .more ⟨.next, .items (value :: before) :: frames⟩
  | .value before key :: frames => .more ⟨.next, .members ((key, value) :: before) :: frames⟩
  | .members before :: frames => .broken (abandon ⟨.next, .members before :: frames⟩)

/-- Takes the first token of a value. -/
def startValue (builder : Builder) : Token → Step
  | .null => place .null builder.frames
  | .bool value => place (.bool value) builder.frames
  | .number value => place (.number value) builder.frames
  | .string value => place (.string value) builder.frames
  | .openBracket => .more ⟨.firstValue, .items [] :: builder.frames⟩
  | .openBrace => .more ⟨.firstKey, .members [] :: builder.frames⟩
  | _ => .broken builder.abandon

/-- Takes one token. -/
def step (builder : Builder) (token : Token) : Step :=
  match builder.want, token, builder.frames with
  | .firstValue, .closeBracket, .items before :: frames =>
    place (.array before.reverse true) frames
  | .value, _, _ | .firstValue, _, _ => builder.startValue token
  | .firstKey, .closeBrace, .members before :: frames =>
    place (.object before.reverse true) frames
  | .key, .string key, .members before :: frames
  | .firstKey, .string key, .members before :: frames =>
    .more ⟨.colon, .value before key :: frames⟩
  | .colon, .colon, frames => .more ⟨.value, frames⟩
  | .next, .comma, .items before :: frames => .more ⟨.value, .items before :: frames⟩
  | .next, .comma, .members before :: frames => .more ⟨.key, .members before :: frames⟩
  | .next, .closeBracket, .items before :: frames => place (.array before.reverse true) frames
  | .next, .closeBrace, .members before :: frames =>
    place (.object before.reverse true) frames
  | _, _, _ => .broken builder.abandon

/-- Takes tokens to the end of the value. Answers the rest of the tokens too. -/
def run : Builder → List Token → Draft × List Token
  | builder, [] => (builder.abandon, [])
  | builder, token :: rest =>
    match builder.step token with
    | .more builder => run builder rest
    | .whole draft => (draft, rest)
    | .broken draft => (draft, [])

end Builder

end Draft

/-- A text with one value: its draft, and whether something stands after the value. -/
structure Document where
  draft : Draft
  trailing : Bool

/-- Reads a text as far as it is in order. -/
def Document.ofText (text : String) : Document :=
  let (draft, rest) := Draft.Builder.start.run (tokens text.toList)
  ⟨draft, !rest.isEmpty⟩

/-- A value as a document of its own. -/
def document (value : Json) : Document := ⟨value.draft, false⟩

end MissionScript.Json
