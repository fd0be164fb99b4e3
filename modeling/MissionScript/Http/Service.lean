import MissionScript.Exchange.Reading
import MissionScript.Exchange.Writing
import MissionScript.Http.MediaType
import MissionScript.Http.Target

/-! The service: every request brings the status and the script that it works on, and the source of
chance is all that requests share. -/
namespace MissionScript

namespace Http

structure Request where
  method : String
  target : String
  contentType : Option String
  body : String

/-- A response. A body is always a JSON value; plain texts that only tell of a refusal are left
out. -/
structure Response where
  status : Nat
  contentType : Option String
  body : Option Json

namespace Response

/-- Only a status. -/
def bare (status : Nat) : Response := ⟨status, none, none⟩

/-- A refusal in plain text. -/
def plain (status : Nat) : Response := ⟨status, some "text/plain; charset=utf-8", none⟩

def json (status : Nat) (body : Json) : Response := ⟨status, some "application/json", some body⟩

/-- The response without its body. -/
def head (response : Response) : Response := { response with body := none }

end Response

end Http

/-- The status code of a fault. -/
def Fault.statusCode : Fault → Nat
  | validation _ | stageMismatch .. | commandMismatch .. => 400
  | carNotFound _ => 404
  | infrastructure _ => 500

/-- The code of a fault for programs. -/
def Fault.code : Fault → String
  | validation _ => "validation_error"
  | stageMismatch .. => "stage_mismatch"
  | commandMismatch .. => "command_mismatch"
  | carNotFound _ => "car_not_found"
  | infrastructure _ => "infrastructure_error"

def Fault.response (fault : Fault) : Http.Response :=
  .json fault.statusCode
    (.object [("error", .string fault.code), ("message", .string fault.message)])

namespace Http

open Json (Reader RecordType)

/-- A wish for a new block, beside the script it is meant for. -/
structure BlockRequest where
  command : Command
  script : Script

/-- A wish to run a script. -/
structure RunRequest where
  status : Status
  script : Script

/-- The stage that is left. -/
def stageType : RecordType (Option Stage) Stage where
  fields := [.at "current" Reader.named id fun _ stage => stage]
  start := none
  complete? := id

def blockRequestType : RecordType (Option Command × Option Script) BlockRequest where
  fields := [
    .at "command" Reader.named (·.1) fun parts command => (command, parts.2),
    .at "script" Script.reader (·.2) fun parts script => (parts.1, script)]
  start := (none, none)
  complete? := fun (command, script) => command.map (⟨·, script.getD .empty⟩)

def runRequestType : RecordType (Option Status × Option Script) RunRequest where
  fields := [
    .at "status" Status.reader (·.1) fun parts status => (status, parts.2),
    .at "script" Script.reader (·.2) fun parts script => (parts.1, script)]
  start := (none, none)
  complete? := fun (status, script) => do return ⟨← status, ← script⟩

/-- Reads the body of a request, or refuses it: for its media type, its grammar or its type. -/
def readBody {α : Type} (request : Request) (reader : Reader α) : Except Response α :=
  if (request.contentType.map isJson).getD false then
    match (Json.Document.ofText request.body).read reader with
    | .ok value => .ok value
    | .error .malformed => .error (.plain 400)
    | .error .mismatch => .error (.plain 422)
  else .error (.plain 415)

/-- Reads the stage in a path. -/
def readStage (segment : String) : Except Response Stage :=
  match stageOf? segment with
  | some stage => .ok stage
  | none => .error (.plain 400)

def version : String := "0.1.0"

def healthResponse : Response :=
  .json 200 (.object [
    ("status", .string "ok"),
    ("version", .string version),
    ("block_templates", .count Template.catalogue.length)])

def paletteResponse (segment : String) : Except Response Response := do
  let stage ← readStage segment
  return .json 200 (.array ((Template.palette stage).map Template.toJson))

def newBlockResponse (request : Request) (segment freshId : String) :
    Except Response Response := do
  let stage ← readStage segment
  let wish ← readBody request blockRequestType.read
  return match Template.instantiate stage wish.command wish.script freshId with
    | .ok block => .json 200 block.toJson
    | .error fault => fault.response

def advanceResponse (request : Request) : Except Response Response := do
  let stage ← readBody request stageType.read
  return .json 200 (Status.advance stage).toJson

/-- A refusal is a response as well. -/
def settled : Except Response Response → Response
  | .ok response | .error response => response

/-- What every run is refused with after one has broken off while it held the source. -/
def lockedFault : Fault :=
  .infrastructure "RNG mutex poisoned: poisoned lock: another task failed inside"

variable {State : Type}

/-- Runs the script of a request. A source that runs out leaves no response, and no source for the
runs after it. -/
def executeResponse (source : Chance.Source State) (time : Timestamp) (request : Request)
    (chance : Option State) : Option Response × Option State :=
  match readBody request runRequestType.read with
  | .error refusal => (some refusal, chance)
  | .ok wish =>
    match chance with
    | none => (some lockedFault.response, none)
    | some state =>
      match wish.script.run source wish.status time state with
      | none => (none, none)
      | some (report, state) => (some (.json 200 report.toJson), some state)

/-- Answers a request on its route. -/
def answer (source : Chance.Source State) (time : Timestamp) (freshId : String)
    (request : Request) (chance : Option State) : Route → Option Response × Option State
  | .health => (some healthResponse, chance)
  | .palette stage => (some (settled (paletteResponse stage)), chance)
  | .newBlock stage => (some (settled (newBlockResponse request stage freshId)), chance)
  | .initialStatus => (some (.json 200 Status.initial.toJson), chance)
  | .advance => (some (settled (advanceResponse request)), chance)
  | .execute => executeResponse source time request chance

/-- Responds to a request at a time, with an identifier for a block that it may make. The state of
the source is missing after a run that broke off. A request for the head alone is answered like the
one for the whole, without the body. -/
def respond (source : Chance.Source State) (time : Timestamp) (freshId : String)
    (request : Request) (chance : Option State) : Option Response × Option State :=
  match Route.ofPath? (pathOf request.target) with
  | none => (some (.bare 404), chance)
  | some route =>
    let headOnly := request.method = "HEAD"
    if (if headOnly then "GET" else request.method) ≠ route.method then (some (.bare 405), chance)
    else
      let (response, chance) := answer source time freshId request chance route
      (if headOnly then response.map Response.head else response, chance)

/-- Responds to requests one after the other, each with the identifier it may use. -/
def respondAll (source : Chance.Source State) (time : Timestamp) :
    List (Request × String) → Option State → List (Option Response)
  | [], _ => []
  | (request, freshId) :: rest, chance =>
    let (response, chance) := respond source time freshId request chance
    response :: respondAll source time rest chance

end Http

end MissionScript
