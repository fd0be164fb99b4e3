import MissionScript.Block
import MissionScript.Outcome

namespace MissionScript

/-- The blocks of a script in the order in which they run. -/
structure Script where
  blocks : List Block
  deriving DecidableEq, Repr

namespace Script

def empty : Script := ⟨[]⟩

/-- The place of the block with an identifier. -/
def place? (script : Script) (id : String) : Option Nat :=
  script.blocks.findIdx? (·.id = id)

/-- Adds a block at the end. -/
def push (script : Script) (block : Block) : Script := ⟨script.blocks ++ [block]⟩

/-- Takes out the block with an identifier. -/
def remove (script : Script) (id : String) : Option Block × Script :=
  match script.place? id with
  | none => (none, script)
  | some place => (script.blocks[place]?, ⟨script.blocks.eraseIdx place⟩)

/-- Moves the dragged block to the place where the target stands, before anything moves. Without
two different blocks nothing moves. -/
def reorder (script : Script) (dragged target : String) : Script :=
  if dragged = target then script
  else match script.remove dragged, script.place? target with
    | (some block, rest), some place => ⟨rest.blocks.insertIdx place block⟩
    | _, _ => script

/-- Puts an argument into a place of a list that has it, or just after its end. -/
def putArgument (arguments : List Argument) (place : Nat) (value : Argument) :
    Option (List Argument) :=
  if place < arguments.length then some (arguments.set place value)
  else if place = arguments.length then some (arguments ++ [value])
  else none

/-- Changes one argument of the block with an identifier. -/
def setArgument (script : Script) (id : String) (place : Nat) (value : Argument) :
    Outcome Script Unit :=
  match script.blocks.find? (·.id = id), script.place? id with
  | some block, some blockPlace =>
    match putArgument block.arguments place value with
    | none => .refused (.argumentGap place id) script
    | some arguments => .done () ⟨script.blocks.set blockPlace { block with arguments }⟩
  | _, _ => .refused (.blockMissing id) script

/-- The longest car name that the editor offers. -/
def longestCarName : Nat := 5

/-- The car name that a block registers, when it is a text that the editor can offer. -/
def carName? (block : Block) : Option String :=
  if block.command = .selectCar then
    match block.arguments[0]? with
    | some (Argument.text name) =>
      if (Text.trim name).isEmpty ∨ longestCarName < name.length then none else some name
    | _ => none
  else none

/-- The car names that the editor offers, in the order of their blocks. -/
def carNames (script : Script) : List String := script.blocks.filterMap carName?

end Script

end MissionScript
