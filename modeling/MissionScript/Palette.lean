import MissionScript.Script
import MissionScript.Text

namespace MissionScript

/-- How the editor lets an argument be changed. -/
inductive Entry
  | number
  | text
  | select (options : List String)
  /-- One of the cars that the script registers. -/
  | selectCar
  deriving DecidableEq, Repr

/-- The descriptor of an entry that offers the registered cars. -/
def carDescriptor : String := "select:dynamic"

/-- The entry that a descriptor stands for: a kind and, after the first colon, its options with
commas between them. Other kinds are not for changing. -/
def Entry.ofDescriptor? (descriptor : String) : Option Entry :=
  let (kind, options?) := Text.cut ':' descriptor.toList
  match String.ofList kind, options? with
  | "number", _ => some number
  | "text", _ => some text
  | "select", none => some (select [])
  | "select", some options =>
    if String.ofList options = "dynamic" then some selectCar
    else some (select ((Text.fields ',' options).map String.ofList))
  | _, _ => none

/-- A block of the palette, before it has an identifier. -/
structure Template where
  command : Command
  label : String
  arguments : List Argument
  descriptors : List String
  color : String
  stages : List Stage
  deriving DecidableEq, Repr

namespace Template

def domain (template : Template) : Domain := template.command.domain

/-- The entries of the arguments, one for each descriptor. -/
def entries (template : Template) : List (Option Entry) :=
  template.descriptors.map Entry.ofDescriptor?

/-- What stands for a car as long as none is registered. -/
def carPlaceholder : String := "Driver name"

/-- An event that happens to a car. -/
def carEvent (command : Command) (label color : String) : Template :=
  ⟨command, label, [.text carPlaceholder], [carDescriptor], color, [.racing]⟩

/-- All templates in the order of the palette. -/
def catalogue : List Template := [
  ⟨.inputNumber, "Input number", [.number 50], ["number"], "#FFBF00", [.calculator]⟩,
  ⟨.add, "Add (+)", [], [], "#FFA500", [.calculator]⟩,
  ⟨.subtract, "Subtract (-)", [], [], "#FFA500", [.calculator]⟩,
  ⟨.multiply, "Multiply (*)", [], [], "#FFA500", [.calculator]⟩,
  ⟨.divide, "Divide (/)", [], [], "#FFA500", [.calculator]⟩,
  ⟨.setUpRace, "Race setup (attempts)", [.number 5], ["number"], "#FF7F50", [.racing]⟩,
  ⟨.selectCar, "Register driver/car", [.text "pobi", .text "Sonata"],
    ["text", "select:Sonata,Grandeur,Genesis"], "#4682B4", [.racing]⟩,
  carEvent .boost "Boost event" "#FFD700",
  carEvent .failure "Engine failure event" "#B22222",
  carEvent .drift "Skill: drift" "#1E90FF",
  carEvent .jump "Skill: jump" "#1E90FF",
  carEvent .windBlock "Skill: wind block" "#1E90FF",
  ⟨.runTurn, "Run one race turn", [], [], "#FF4500", [.racing]⟩,
  ⟨.buyTickets, "Buy lotto (count)", [.number 5], ["number"], "#3CB371", [.lotto]⟩,
  ⟨.inputWinning, "Enter winning numbers", [.text "1,8,15,22,29,36"], ["text"], "#2E8B57",
    [.lotto]⟩,
  ⟨.inputBonus, "Enter bonus number", [.number 45], ["number"], "#2E8B57", [.lotto]⟩,
  ⟨.checkResult, "Check statistics and return rate", [], [], "#4CAF50", [.lotto]⟩]

/-- The templates that the palette of a stage shows. -/
def palette (stage : Stage) : List Template := catalogue.filter (stage ∈ ·.stages)

/-- The arguments of a new block. Where cars are offered, the first one of the script is chosen. -/
def initialArguments (template : Template) (script : Script) : List Argument :=
  match template.descriptors.head?, script.carNames.head? with
  | some descriptor, some name =>
    if descriptor = carDescriptor then [.text name] else template.arguments
  | _, _ => template.arguments

/-- The block of a template under an identifier. -/
def block (template : Template) (id : String) (script : Script) : Block where
  id := id
  domain := template.domain
  command := template.command
  label := template.label
  arguments := template.initialArguments script
  descriptors := some template.descriptors
  color := some template.color

/-- A new block for a command, from the palette of a stage. The identifier has to be fresh. -/
def instantiate (stage : Stage) (command : Command) (script : Script) (id : String) :
    Except Fault Block :=
  match (palette stage).find? (·.command = command) with
  | none => .error (.validation (.notInPalette command stage))
  | some template => .ok (template.block id script)

end Template

end MissionScript
