import MissionScript.Decimal.Written
import MissionScript.Stage

namespace MissionScript

/-- A rule on arguments, ranges or the order of blocks that was not kept. -/
inductive Violation
  | numberExpected
  | numberAfterNumber (total entered : Float)
  | operatorBeforeNumber
  | operatorAfterOperator
  | divisionByZero
  | attempts
  | carEntry
  | carModel (text : String)
  | carNameLength (name : String)
  | carNameTaken (name : String)
  | raceNotReady
  | ticketCount
  | tooManyTickets
  | winningNumbers
  | bonusNumber
  | noTickets
  | drawIncomplete
  | blockMissing (id : String)
  | argumentGap (place : Nat) (id : String)
  | notInPalette (command : Command) (stage : Stage)
  /-- A rule in words of its own. -/
  | worded (message : String)
  deriving DecidableEq, Repr

def Violation.message : Violation → String
  | .numberExpected => "Enter a valid number."
  | .numberAfterNumber total entered =>
    "A number cannot follow another number without an operator. Add an operation block. (current: "
      ++ Decimal.written total ++ " -> " ++ Decimal.written entered ++ ")"
  | .operatorBeforeNumber =>
    "An \"Input number\" block is needed first to start the calculation. (initial value)"
  | .operatorAfterOperator =>
    "Operation blocks cannot be chained; an operation is already pending. " ++
      "Add an \"Input number\" block."
  | .divisionByZero => "Cannot divide by zero."
  | .attempts => "The number of attempts must be an integer of at least 1."
  | .carEntry => "Invalid name or car type."
  | .carModel text => "unknown car type: " ++ text
  | .carNameLength name => "Car names must be 1 to 5 characters: " ++ name
  | .carNameTaken name => "That name is already registered: " ++ name
  | .raceNotReady => "Complete the race setup (SETUP, SELECT_CAR) before using RUN_TURN."
  | .ticketCount => "The purchase count must be an integer of at least 1."
  | .tooManyTickets => "Lotto purchases are limited to 10,000 tickets."
  | .winningNumbers => "Winning numbers must be 6 distinct numbers between 1 and 45."
  | .bonusNumber => "The bonus number must be between 1 and 45 and must not repeat a winning number."
  | .noTickets => "Buy lotto tickets first."
  | .drawIncomplete => "Enter both the winning and bonus numbers."
  | .blockMissing id => "block not found: " ++ id
  | .argumentGap place id =>
    "argument index " ++ toString place ++ " is out of range for block " ++ id
  | .notInPalette command stage =>
    "command " ++ Named.name command ++ " is not available in the " ++ Named.name stage
      ++ " palette."
  | .worded message => message

/-- A fault ends the script that it arises in. -/
inductive Fault
  /-- A rule was not kept. -/
  | validation (violation : Violation)
  /-- A block of another domain stands in the mission. -/
  | stageMismatch (stage : Stage) (domain : Domain)
  /-- A command does not belong to the domain that its block declares. -/
  | commandMismatch (command : Command) (domain : Domain)
  /-- An event names a car that is not registered. -/
  | carNotFound (name : String)
  /-- Something outside of the script failed. -/
  | infrastructure (message : String)
  deriving DecidableEq, Repr

def Fault.message : Fault → String
  | .validation violation => "[ERROR] " ++ violation.message
  | .stageMismatch stage domain =>
    "[ERROR] " ++ Named.name domain ++ " blocks cannot be used in the " ++ Named.name stage
      ++ " mission."
  | .commandMismatch command domain =>
    "[ERROR] command " ++ Named.name command ++ " does not belong to the " ++ Named.name domain
      ++ " domain."
  | .carNotFound name => "[ERROR] car '" ++ name ++ "' not found. (check that it is registered)"
  | .infrastructure message => "infrastructure error: " ++ message

end MissionScript
