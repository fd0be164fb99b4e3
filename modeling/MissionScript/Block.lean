import MissionScript.Decimal.Reading
import MissionScript.Decimal.Written
import MissionScript.Text

namespace MissionScript

/-- A field of work for blocks. Utility blocks fit every stage and do nothing. -/
inductive Domain
  | calculator
  | racing
  | lotto
  | utility
  deriving DecidableEq, Repr

instance : Named Domain where
  all := [.calculator, .racing, .lotto, .utility]
  name
    | .calculator => "calculator"
    | .racing => "racing"
    | .lotto => "lotto"
    | .utility => "utility"

/-- What a block does when it runs. -/
inductive Command
  | inputNumber
  | add
  | subtract
  | multiply
  | divide
  | setUpRace
  | selectCar
  | boost
  | failure
  | drift
  | jump
  | windBlock
  | runTurn
  | buyTickets
  | inputWinning
  | inputBonus
  | checkResult
  deriving DecidableEq, Repr

instance : Named Command where
  all := [.inputNumber, .add, .subtract, .multiply, .divide, .setUpRace, .selectCar, .boost,
    .failure, .drift, .jump, .windBlock, .runTurn, .buyTickets, .inputWinning, .inputBonus,
    .checkResult]
  name
    | .inputNumber => "CALC_INPUT"
    | .add => "CALC_ADD"
    | .subtract => "CALC_SUBTRACT"
    | .multiply => "CALC_MULTIPLY"
    | .divide => "CALC_DIVIDE"
    | .setUpRace => "RACING_SETUP"
    | .selectCar => "RACING_SELECT_CAR"
    | .boost => "RACING_BOOST"
    | .failure => "RACING_FAILURE"
    | .drift => "RACING_DRIFT"
    | .jump => "RACING_JUMP"
    | .windBlock => "RACING_WIND_BLOCK"
    | .runTurn => "RACING_RUN_TURN"
    | .buyTickets => "LOTTO_BUY"
    | .inputWinning => "LOTTO_INPUT_WINNING"
    | .inputBonus => "LOTTO_INPUT_BONUS"
    | .checkResult => "LOTTO_CHECK_RESULT"

/-- The domain that owns a command. No command is a utility. -/
def Command.domain : Command → Domain
  | .inputNumber | .add | .subtract | .multiply | .divide => .calculator
  | .setUpRace | .selectCar | .boost | .failure | .drift | .jump | .windBlock | .runTurn => .racing
  | .buyTickets | .inputWinning | .inputBonus | .checkResult => .lotto

inductive Argument
  | number (value : Float)
  | text (content : String)
  deriving DecidableEq, Repr

/-- The argument as a finite number. A text counts when it reads as one between blanks. -/
def Argument.number? (argument : Argument) : Option Float :=
  let value? := match argument with
    | .number value => some value
    | .text content => Decimal.read? (Text.trimmed content.toList)
  value?.filter Float.isFinite

/-- The argument as a text. A number is written as in the log. -/
def Argument.asText : Argument → String
  | .number value => Decimal.written value
  | .text content => content

/-- A block declares its domain itself; the declaration need not be the command's own domain. The
descriptors and the color are only for the editor. -/
structure Block where
  id : String
  domain : Domain
  command : Command
  label : String
  arguments : List Argument
  descriptors : Option (List String)
  color : Option String
  deriving DecidableEq, Repr

/-- A block with the domain of its command, and nothing in it for the editor or the log. -/
def Block.bare (command : Command) (arguments : List Argument) : Block :=
  ⟨"", command.domain, command, "", arguments, none, none⟩

/-- The number in an argument place. -/
def Block.number? (block : Block) (place : Nat) : Option Float :=
  block.arguments[place]?.bind Argument.number?

/-- The text in an argument place, empty when the argument is missing. -/
def Block.text (block : Block) (place : Nat) : String :=
  (block.arguments[place]?.map Argument.asText).getD ""

end MissionScript
