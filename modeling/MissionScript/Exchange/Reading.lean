import MissionScript.Json.Reader
import MissionScript.Script
import MissionScript.Stage

namespace MissionScript

open Json (Field Reader RecordType)

/-- A number or a text. The whole value is checked before its kind is looked at. -/
def Argument.reader : Reader Argument := fun depth draft =>
  if draft.isSound depth then
    match draft with
    | .number (some value) => .ok (.number value)
    | .string (some value) => .ok (.text value)
    | _ => .error .mismatch
  else .error .malformed

/-- A block while its fields are being read. -/
structure Block.Parts where
  id : Option String
  domain : Option Domain
  command : Option Command
  label : Option String
  arguments : Option (List Argument)
  descriptors : Option (Option (List String))
  color : Option (Option String)

def Block.Parts.none : Block.Parts := ⟨.none, .none, .none, .none, .none, .none, .none⟩

/-- The block of its fields. Only the domain, the command and the label may not be missing. -/
def Block.Parts.block? (parts : Block.Parts) : Option Block := do
  return {
    id := parts.id.getD ""
    domain := ← parts.domain
    command := ← parts.command
    label := ← parts.label
    arguments := parts.arguments.getD []
    descriptors := parts.descriptors.getD .none
    color := parts.color.getD .none }

def Block.recordType : RecordType Block.Parts Block where
  fields := [
    .at "id" Reader.string (·.id) fun parts id => { parts with id },
    .at "domain" Reader.named (·.domain) fun parts domain => { parts with domain },
    .at "command" Reader.named (·.command) fun parts command => { parts with command },
    .at "label" Reader.string (·.label) fun parts label => { parts with label },
    .at "args" (Reader.list Argument.reader) (·.arguments)
      fun parts arguments => { parts with arguments },
    .at "metadata" (Reader.optional (Reader.list Reader.string)) (·.descriptors)
      fun parts descriptors => { parts with descriptors },
    .at "color" (Reader.optional Reader.string) (·.color) fun parts color => { parts with color }]
  start := .none
  complete? := Block.Parts.block?

def Block.reader : Reader Block := Block.recordType.read

/-- A script is the array of its blocks. -/
def Script.reader : Reader Script := fun depth draft =>
  (Reader.list Block.reader depth draft).map Script.mk

/-- A status while its fields are being read. -/
structure Status.Parts where
  stage : Option Stage
  cleared : Option Bool
  message : Option String

def Status.Parts.status? (parts : Status.Parts) : Option Status := do
  return ⟨← parts.stage, ← parts.cleared, ← parts.message⟩

def Status.recordType : RecordType Status.Parts Status where
  fields := [
    .at "current" Reader.named (·.stage) fun parts stage => { parts with stage },
    .at "is_cleared" Reader.bool (·.cleared) fun parts cleared => { parts with cleared },
    .at "message" Reader.string (·.message) fun parts message => { parts with message }]
  start := ⟨.none, .none, .none⟩
  complete? := Status.Parts.status?

def Status.reader : Reader Status := Status.recordType.read

end MissionScript
