import MissionScript.Text

namespace MissionScript.Http

/-- The characters of a type, a subtype, or the name of a parameter. -/
def isTokenChar (char : Char) : Bool := char.isAlphanum || "!#$%&'*+-.^_\x60|~".toList.contains char

/-- Where a list of parameters stands between two characters. -/
inductive ParameterPlace
  /-- Before a name, where there may be spaces. -/
  | gap
  | name
  /-- After the equals sign. -/
  | valueStart
  | value
  /-- After the opening quote. The quoted value has at least one character, be it a quote. -/
  | quotedStart
  | quoted
  /-- After the closing quote, where there may be spaces. -/
  | afterQuoted
  deriving DecidableEq, Repr

namespace ParameterPlace

/-- The place after one more character, if the character may come here. -/
def next? (place : ParameterPlace) (char : Char) : Option ParameterPlace :=
  match place, char with
  | gap, ' ' => some gap
  | name, '=' => some valueStart
  | valueStart, '"' => some quotedStart
  | value, ';' | afterQuoted, ';' => some gap
  | quoted, '"' => some afterQuoted
  | afterQuoted, ' ' => some afterQuoted
  | gap, _ | name, _ => if isTokenChar char then some name else none
  | valueStart, _ | value, _ => if isTokenChar char then some value else none
  | quotedStart, _ | quoted, _ => if ' ' ≤ char ∧ char ≤ '~' then some quoted else none
  | afterQuoted, _ => none

/-- The list may end here. It may be empty, and so may a value without quotes. -/
def isEnd : ParameterPlace → Bool
  | gap | valueStart | value | afterQuoted => true
  | name | quotedStart | quoted => false

end ParameterPlace

/-- What follows the first semicolon is a list of parameters. -/
def areParameters (chars : List Char) : Bool :=
  (chars.foldlM ParameterPlace.next? .gap).any ParameterPlace.isEnd

/-- A subtype without its suffix, and the suffix: what follows the last plus sign, unless that sign
comes first. -/
def cutSuffix (subtype : List Char) : List Char × Option (List Char) :=
  match Text.cut '+' subtype.reverse with
  | (suffix, some (last :: before)) => ((last :: before).reverse, some suffix.reverse)
  | _ => (subtype, none)

/-- The media type is JSON, or a type of application data that is built on JSON. Case does not
matter, and parameters may follow. -/
def isJson (contentType : String) : Bool :=
  let (essence, parameters?) := Text.cut ';' contentType.toList
  match Text.cut '/' (essence.map Char.toLower) with
  | (kind, some subtype) =>
    let (base, suffix?) := cutSuffix subtype
    kind = "application".toList && subtype.all isTokenChar
      && (base = "json".toList || suffix? = some "json".toList)
      && parameters?.all areParameters
  | _ => false

example : ["application/json", "Application/Problem+JSON; charset=utf-8", "application/x+y+json",
      "application/json;a=\"b;c\" ;"].all isJson ∧
    ["json", "text/json", "application/+json", "application/jsonp", "application/json ;a=b",
      "application/json; charset", "application/json;a=\"\""].all (!isJson ·) := by
  decide +kernel

end MissionScript.Http
