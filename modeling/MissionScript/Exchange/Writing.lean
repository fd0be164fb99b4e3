import MissionScript.Json.Text
import MissionScript.Palette
import MissionScript.Run

namespace MissionScript

namespace Json

/-- A value by its name. -/
def named {α : Type} [Named α] (value : α) : Json := string (Named.name value)

/-- The member of a field that is left out when it has no value. -/
def optionalMember {α : Type} (key : String) (write : α → Json) : Option α → List (String × Json)
  | none => []
  | some value => [(key, write value)]

end Json

/-- A number that is not finite is written as null. -/
def Argument.toJson : Argument → Json
  | number value => .finite value
  | text content => .string content

def Block.toJson (block : Block) : Json :=
  .object <| [
      ("id", .string block.id),
      ("domain", .named block.domain),
      ("command", .named block.command),
      ("label", .string block.label),
      ("args", .array (block.arguments.map Argument.toJson))]
    ++ Json.optionalMember "metadata" Json.strings block.descriptors
    ++ Json.optionalMember "color" Json.string block.color

def Script.toJson (script : Script) : Json := .array (script.blocks.map Block.toJson)

def Status.toJson (status : Status) : Json :=
  .object [
    ("current", .named status.stage),
    ("is_cleared", .bool status.cleared),
    ("message", .string status.message)]

def Report.toJson (report : Report) : Json :=
  .object [
    ("results", .strings report.lines),
    ("status", report.status.toJson),
    ("executed_at", .string report.time.text)]

def Template.toJson (template : Template) : Json :=
  .object [
    ("domain", .named template.domain),
    ("command", .named template.command),
    ("label", .string template.label),
    ("args", .array (template.arguments.map Argument.toJson)),
    ("metadata", .strings template.descriptors),
    ("color", .string template.color),
    ("stages", .array (template.stages.map Json.named))]

end MissionScript
