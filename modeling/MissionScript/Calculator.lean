import MissionScript.Block
import MissionScript.Outcome

namespace MissionScript

inductive Operator
  | add
  | subtract
  | multiply
  | divide
  deriving DecidableEq, Repr

namespace Operator

def symbol : Operator → String
  | add => "+"
  | subtract => "-"
  | multiply => "*"
  | divide => "/"

def all : List Operator := [add, subtract, multiply, divide]

/-- The operator of an operator block. -/
def ofCommand? : Command → Option Operator
  | .add => some add
  | .subtract => some subtract
  | .multiply => some multiply
  | .divide => some divide
  | _ => none

/-- The result of an operator on two numbers. Only a zero divisor, of either sign, is refused. -/
def apply : Operator → Float → Float → Except Fault Float
  | add, left, right => .ok (left + right)
  | subtract, left, right => .ok (left - right)
  | multiply, left, right => .ok (left * right)
  | divide, left, right =>
    if right == 0.0 then .error (.validation .divisionByZero) else .ok (left / right)

end Operator

/-- A calculation so far: the total once there is a number, the operator that waits for its second
number, and how many operations were applied. -/
structure Calculator where
  total : Option Float
  pending : Option Operator
  operations : UInt32
  deriving DecidableEq, Repr

namespace Calculator

def empty : Calculator := ⟨none, none, 0⟩

/-- Takes a number: as the first total, or to complete the pending operation. -/
def enter (calculator : Calculator) (number : Float) : Outcome Calculator String :=
  match calculator.pending, calculator.total with
  | none, none =>
    .done ("[CALC] Starting the calculation with " ++ Decimal.written number ++ ". (initial value)")
      { calculator with total := some number }
  | none, some total => .refused (.numberAfterNumber total number) calculator
  | some operator, total =>
    let previous := total.getD 0.0
    match operator.apply previous number with
    | .error fault => .failed fault calculator
    | .ok result =>
      .done ("[CALC] " ++ Decimal.written previous ++ " " ++ operator.symbol ++ " "
          ++ Decimal.written number ++ " = " ++ Decimal.written result)
        { total := some result, pending := none, operations := calculator.operations + 1 }

/-- Takes an operator, which has to follow a number. -/
def await (calculator : Calculator) (operator : Operator) (label : String) :
    Outcome Calculator String :=
  match calculator.total, calculator.pending with
  | none, _ => .refused .operatorBeforeNumber calculator
  | some _, some _ => .refused .operatorAfterOperator calculator
  | some total, none =>
    .done ("[CALC] " ++ label ++ " (" ++ operator.symbol ++ ") ready for "
        ++ Decimal.written total ++ ". Waiting for the next number.")
      { calculator with pending := some operator }

/-- Handles a block by its command, whatever domain the block declares. -/
def handle (calculator : Calculator) (block : Block) : Outcome Calculator String :=
  if block.command = .inputNumber then
    match block.number? 0 with
    | none => .refused .numberExpected calculator
    | some number => calculator.enter number
  else match Operator.ofCommand? block.command with
    | none => .failed (.commandMismatch block.command .calculator) calculator
    | some operator => calculator.await operator block.label

end Calculator

end MissionScript
