import MissionScript.Block
import MissionScript.Racing.Car

namespace MissionScript.Racing

/-- Cars in the order of their registration, how many turns there are, and how many were run. -/
structure Race where
  cars : List Car
  attempts : Nat
  turn : Nat
  deriving DecidableEq, Repr

namespace Race

def empty : Race := ⟨[], 0, 0⟩

/-- The largest number of turns. -/
def mostAttempts : Nat := UInt32.size - 1

/-- Sets the number of turns and starts them over. The cars stay as they are. -/
def setUp (race : Race) (attempts : Float) : Outcome Race String :=
  match (Decimal.natural? attempts).filter fun count => 1 ≤ count ∧ count ≤ mostAttempts with
  | none => .refused .attempts race
  | some count =>
    .done ("[RACE SETUP] " ++ toString count ++ " attempts configured.")
      { race with attempts := count, turn := 0 }

/-- Registers a car under a name that no other car has. -/
def register (race : Race) (name : String) (model : Model) : Outcome Race String :=
  if race.cars.any (·.name = name) then .refused (.carNameTaken name) race
  else match Car.new name model with
    | .error fault => .failed fault race
    | .ok car =>
      .done ("[CAR REGISTERED] " ++ name ++ " (" ++ Named.name model ++ ") registered.")
        { race with cars := race.cars ++ [car] }

/-- The cars with the first one of a name changed, if there is one. -/
def changeFirst {Answer : Type} (name : String) (event : Car → Answer × Car) :
    List Car → Option (Answer × List Car)
  | [] => none
  | car :: others =>
    if car.name = name then
      let (answer, changed) := event car
      some (answer, changed :: others)
    else (changeFirst name event others).map fun (answer, others) => (answer, car :: others)

/-- Lets an event act on the first car with a name. -/
def change {Answer : Type} (race : Race) (name : String) (event : Car → Answer × Car) :
    Outcome Race Answer :=
  match changeFirst name event race.cars with
  | none => .failed (.carNotFound name) race
  | some (answer, cars) => .done answer { race with cars }

/-- Registers the car that a block describes. -/
def registerEntry (race : Race) (block : Block) : Outcome Race String :=
  let name := block.text 0
  match block.arguments[1]?.map fun argument => Model.read argument.asText with
  | some (.ok model) =>
    if (Text.trim name).isEmpty then .refused .carEntry race else race.register name model
  | _ => .refused .carEntry race

/-- Every turn has been run. -/
def isFinished (race : Race) : Bool := 0 < race.attempts && race.turn == race.attempts

/-- The names of the cars that are farthest, once the race is finished. -/
def winners? (race : Race) : Option (List String) :=
  if race.isFinished then
    (race.cars.map (·.position)).max?.map fun farthest =>
      (race.cars.filter (·.position = farthest)).map (·.name)
  else none

section Chance

variable {State : Type} (source : Chance.Source State)

/-- Tries to move one car, draws its track and ends its turn. -/
def takeTurn (car : Car) (state : State) : Option (String × Car × State) := do
  let (_, moved, state) ← car.move source state
  some (moved.track, moved.endTurn, state)

/-- The turns of several cars, one after the other. -/
def takeTurns : List Car → State → Option (List (String × Car) × State)
  | [], state => some ([], state)
  | car :: others, state => do
    let (line, car, state) ← takeTurn source car state
    let (turns, state) ← takeTurns others state
    some ((line, car) :: turns, state)

/-- Runs one turn and draws the track. After the last turn there is only a notice. -/
def runTurn (race : Race) (state : State) : Option (Outcome (Race × State) String) :=
  if race.cars.isEmpty ∨ race.attempts = 0 then some (.refused .raceNotReady (race, state))
  else if race.attempts ≤ race.turn then
    some (.done "[RACE OVER] All attempts are done. Check the winners." (race, state))
  else do
    let turn := race.turn + 1
    let (turns, state) ← takeTurns source race.cars state
    let header := "--- Turn " ++ toString turn ++ " ---"
    some (.done ("\n".intercalate (header :: turns.map (·.1)))
      ({ race with cars := turns.map (·.2), turn }, state))

/-- Tries to move the first car with a name, outside of any turn. -/
def moveCar (race : Race) (name : String) (state : State) :
    Option (Outcome (Race × State) Bool) :=
  match changeFirst name (fun car => (car.move source state, car)) race.cars with
  | none => some (.failed (.carNotFound name) (race, state))
  | some (move, _) => do
    let (moved, car, after) ← move
    some ((race.change name fun _ => (moved, car)).within fun race => (race, after))

/-- Handles a block by its command, whatever domain the block declares. -/
def handle (race : Race) (block : Block) (state : State) : Option (Outcome (Race × State) String) :=
  let still (outcome : Outcome Race String) := some (outcome.within fun race => (race, state))
  let event (event : Car → String × Car) := still (race.change (block.text 0) event)
  match block.command with
  | .setUpRace => still <| match block.number? 0 with
    | none => .refused .attempts race
    | some attempts => race.setUp attempts
  | .selectCar => still (race.registerEntry block)
  | .boost => event Car.boost
  | .failure => event Car.breakDown
  | .drift => event (Car.activate .drift)
  | .jump => event (Car.activate .jump)
  | .windBlock => event (Car.activate .windBlock)
  | .runTurn => race.runTurn source state
  | command => some (.failed (.commandMismatch command .racing) (race, state))

end Chance

end Race

end MissionScript.Racing
