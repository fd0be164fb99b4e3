import MissionScript.Stage
import MissionScript.Text

namespace MissionScript.Http

/-- What the service answers to. The stage of a palette is kept as it stands in the path. -/
inductive Route
  | health
  | palette (stage : String)
  | newBlock (stage : String)
  | execute
  | initialStatus
  | advance
  deriving DecidableEq, Repr

/-- The characters of a scheme. -/
def isSchemeChar (char : Char) : Bool := char.isAlphanum || "+-.~".toList.contains char

/-- These characters end an authority. -/
def endsAuthority (char : Char) : Bool := char = '/' || char = '?' || char = '#'

/-- The target without its scheme and its authority, if it begins with them. -/
def withoutAuthority (target : List Char) : List Char :=
  match Text.cut ':' target with
  | (scheme, some ('/' :: '/' :: rest)) =>
    if scheme.all isSchemeChar then rest.dropWhile (!endsAuthority ·) else target
  | _ => target

/-- The path of a target, which ends before a query or a fragment. -/
def pathOf (target : String) : List Char :=
  (withoutAuthority target.toList).takeWhile fun char => char ≠ '?' ∧ char ≠ '#'

/-- The route of a path. Paths match to the letter. A stage at the end of a path is at least one
character; before more of the path it may be empty. -/
def Route.ofPath? (path : List Char) : Option Route :=
  match (Text.fields '/' path).map String.ofList with
  | ["", "health"] => some health
  | ["", "api", "v1", "palette", stage] => if stage.isEmpty then none else some (palette stage)
  | ["", "api", "v1", "palette", stage, "blocks"] => some (newBlock stage)
  | ["", "api", "v1", "scripts", "execute"] => some execute
  | ["", "api", "v1", "missions", "initial"] => some initialStatus
  | ["", "api", "v1", "missions", "advance"] => some advance
  | _ => none

/-- The method that a route answers. -/
def Route.method : Route → String
  | health | palette _ | initialStatus => "GET"
  | newBlock _ | execute | advance => "POST"

def hexDigit? (byte : UInt8) : Option UInt8 :=
  ("0123456789abcdef".toList.idxOf? (Char.ofNat byte.toNat).toLower).map UInt8.ofNat

/-- The bytes with every percent sign and two hexadecimal digits taken for one byte. A percent sign
without two digits stands for itself. -/
def percentDecoded : List UInt8 → List UInt8
  | 0x25 :: high :: low :: rest =>
    match hexDigit? high, hexDigit? low with
    | some upper, some lower => (upper * 16 + lower) :: percentDecoded rest
    | _, _ => 0x25 :: percentDecoded (high :: low :: rest)
  | byte :: rest => byte :: percentDecoded rest
  | [] => []

/-- The stage that a segment of a path names. -/
def stageOf? (segment : String) : Option Stage :=
  (String.fromUTF8? ⟨(percentDecoded segment.toUTF8.toList).toArray⟩).bind Named.ofName?

example : ["http://host/health", "ftp://[::1]:80/health?x", "/health#x"].map
      (Route.ofPath? ∘ pathOf) = [some .health, some .health, some .health] ∧
    ["http://host", "//host/health", "/health?at=http://host/", "host:80"].map pathOf =
      ["".toList, "//host/health".toList, "/health".toList, "host:80".toList] := by
  decide +kernel

end MissionScript.Http
