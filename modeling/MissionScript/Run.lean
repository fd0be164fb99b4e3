import MissionScript.Calculator
import MissionScript.Lotto.Lottery
import MissionScript.Racing.Race
import MissionScript.Script
import MissionScript.Stage
import MissionScript.Timestamp

/-! Runs of scripts. Every run begins with nothing in the calculator, on the track and in the
lottery, takes the blocks in order, and ends at the first fault. -/
namespace MissionScript

/-- What the blocks of a run work on, and whether one of them has cleared the mission. -/
structure Progress where
  calculator : Calculator
  race : Racing.Race
  lottery : Lotto.Lottery
  cleared : Bool
  deriving DecidableEq, Repr

namespace Progress

open Racing (Race)
open Lotto (Lottery)

def start : Progress := ⟨.empty, .empty, .empty, false⟩

variable {State : Type} (source : Chance.Source State)

/-- Runs a racing block. The turn that leaves the race finished names the winners and clears the
mission, and so does every later one. -/
def runRacing (progress : Progress) (block : Block) (state : State) :
    Option (Outcome (Progress × State) String) := do
  let ⟨answer, race, state⟩ ← progress.race.handle source block state
  let progress := { progress with race }
  match answer with
  | .error fault => some (.failed fault (progress, state))
  | .ok text =>
    match race.winners?.filter fun _ => block.command = .runTurn with
    | none => some (.done text (progress, state))
    | some winners =>
      some (.done (text ++ "\n[WINNERS]: " ++ ", ".intercalate winners)
        ({ progress with cleared := true }, state))

/-- Runs a lottery block. A check clears the mission. -/
def runLotto (progress : Progress) (block : Block) (state : State) :
    Option (Outcome (Progress × State) String) := do
  let ⟨answer, lottery, state⟩ ← progress.lottery.handle source block state
  let progress := { progress with lottery }
  match answer with
  | .error fault => some (.failed fault (progress, state))
  | .ok text =>
    let cleared := progress.cleared || block.command = .checkResult
    some (.done text ({ progress with cleared }, state))

/-- Runs a calculator block. -/
def runCalculator (progress : Progress) (block : Block) (state : State) :
    Outcome (Progress × State) String :=
  (progress.calculator.handle block).within fun calculator =>
    ({ progress with calculator }, state)

/-- Runs a block in a stage. Utility blocks do nothing; all others must declare the domain of the
stage, and their command must belong to it. -/
def runBlock (stage : Stage) (progress : Progress) (block : Block) (state : State) :
    Option (Outcome (Progress × State) String) :=
  if block.domain = .utility then some (.done "" (progress, state))
  else if stage.domain? ≠ some block.domain then
    some (.failed (.stageMismatch stage block.domain) (progress, state))
  else if block.command.domain ≠ block.domain then
    some (.failed (.commandMismatch block.command block.domain) (progress, state))
  else match block.domain with
    | .calculator => some (progress.runCalculator block state)
    | .racing => progress.runRacing source block state
    | .lotto => progress.runLotto source block state
    | .utility => some (.done "" (progress, state))

/-- The line of a block that ran. -/
def line (block : Block) (text : String) : String := block.label ++ ": " ++ text

/-- The line of a block that ended the run. -/
def abortedLine (block : Block) (fault : Fault) : String :=
  "[ABORTED] " ++ block.label ++ ": " ++ fault.message

/-- Runs blocks in order up to the first fault. Answers their lines, and the progress unless a fault
came. -/
def runBlocks (stage : Stage) : List Block → Progress → State →
    Option (List String × Option Progress × State)
  | [], progress, state => some ([], some progress, state)
  | block :: blocks, progress, state => do
    let ⟨answer, progress, state⟩ ← runBlock source stage progress block state
    match answer with
    | .error fault => some ([abortedLine block fault], none, state)
    | .ok text =>
      let (lines, last, state) ← runBlocks stage blocks progress state
      some (line block text :: lines, last, state)

/-- The operations that clear the calculator mission. -/
def requiredOperations : UInt32 := 2

/-- The closing lines of a stage. Only a calculation has some. -/
def closingLines (progress : Progress) (stage : Stage) : List String :=
  if stage = .calculator then
    let warning := if progress.calculator.pending.isSome then
        ["[CALC] Script ended with a pending operator. (ended in A -> OP order)"]
      else []
    let total := (progress.calculator.total.map Decimal.written).getD "none"
    warning ++ ["[CALC] Final result: " ++ total]
  else []

/-- Whether a complete run has cleared the stage. -/
def clears (progress : Progress) (stage : Stage) : Bool :=
  progress.cleared
    || (stage = .calculator && requiredOperations ≤ progress.calculator.operations)

end Progress

/-- The report of a run. -/
structure Report where
  lines : List String
  status : Status
  time : Timestamp
  deriving DecidableEq, Repr

/-- The only line of an empty script. -/
def emptyScriptLine : String := "No blocks to execute."

/-- Runs a script under a status. A fault is part of the report; only a source that runs out leaves
no report. -/
def Script.run {State : Type} (source : Chance.Source State) (script : Script) (status : Status)
    (time : Timestamp) (state : State) : Option (Report × State) :=
  if script.blocks.isEmpty then some (⟨[emptyScriptLine], status, time⟩, state)
  else do
    let stage := status.stage
    let (lines, last, state) ← Progress.runBlocks source stage script.blocks .start state
    match last with
    | none => some (⟨lines, status.afterFault, time⟩, state)
    | some progress =>
      some (⟨lines ++ progress.closingLines stage, status.afterRun (progress.clears stage), time⟩,
        state)

end MissionScript
