import MissionScript.Block

namespace MissionScript

inductive Stage
  | calculator
  | racing
  | lotto
  | complete
  deriving DecidableEq, Repr

instance : Named Stage where
  all := [.calculator, .racing, .lotto, .complete]
  name
    | .calculator => "CALCULATOR"
    | .racing => "RACING"
    | .lotto => "LOTTO"
    | .complete => "COMPLETE"

/-- The domain whose blocks a stage accepts. The last stage accepts none. -/
def Stage.domain? : Stage → Option Domain
  | .calculator => some .calculator
  | .racing => some .racing
  | .lotto => some .lotto
  | .complete => none

/-- The stage that follows; after the last one the first comes again. -/
def Stage.next : Stage → Stage
  | .calculator => .racing
  | .racing => .lotto
  | .lotto => .complete
  | .complete => .calculator

/-- Where the mission stands: the stage, whether it is cleared, and what the player is told. -/
structure Status where
  stage : Stage
  cleared : Bool
  message : String
  deriving DecidableEq, Repr

namespace Stage

def allClearedMessage : String := "🏆 All missions complete! Congratulations!"

/-- What a stage asks for, told when it begins. -/
def introduction : Stage → String
  | calculator => "Build a block script for the calculator mission. " ++
      "(Input number -> operation -> Input number -> operation... at least 2 operations required)"
  | racing => "Build a block script for the car-racing mission. (SETUP -> SELECT_CAR -> RUN_TURN...)"
  | lotto => "Build a block script for the lotto mission. (BUY -> INPUT_WINNING -> CHECK_RESULT)"
  | complete => allClearedMessage

/-- What is told when a run clears a stage. The last stage has nothing to clear. -/
def clearedMessage? : Stage → Option String
  | calculator => some "🎉 Calculator mission cleared! Press \"Next game\" to continue."
  | racing => some "🚗 Car-racing mission cleared! Press \"Next game\" to continue."
  | lotto => some allClearedMessage
  | complete => none

/-- What is told when a run ends without clearing the stage. -/
def finishedMessage (stage : Stage) : String :=
  Named.name stage ++ " mission run finished. Check the clear condition again."

/-- The status with which a stage begins. Only the last stage is cleared from the start. -/
def start (stage : Stage) : Status := ⟨stage, stage = complete, stage.introduction⟩

end Stage

namespace Status

/-- What is told when a fault ends a run. -/
def failureMessage : String := "Mission failed: an error occurred while running the script."

/-- The status of a new mission. -/
def initial : Status := Stage.calculator.start

/-- The status after leaving a stage, cleared or not. -/
def advance (left : Stage) : Status := left.next.start

/-- The status after a run that a fault ended. -/
def afterFault (status : Status) : Status :=
  { status with cleared := false, message := failureMessage }

/-- The status after a complete run. -/
def afterRun (status : Status) (cleared : Bool) : Status :=
  match status.stage.clearedMessage?.filter fun _ => cleared with
  | some message => { status with cleared := true, message }
  | none => { status with cleared := false, message := status.stage.finishedMessage }

end Status

end MissionScript
