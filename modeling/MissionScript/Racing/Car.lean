import MissionScript.Chance.Source
import MissionScript.Outcome
import MissionScript.Text

namespace MissionScript.Racing

inductive Model
  | sonata
  | grandeur
  | genesis
  deriving DecidableEq, Repr

instance : Named Model where
  all := [.sonata, .grandeur, .genesis]
  name
    | .sonata => "Sonata"
    | .grandeur => "Grandeur"
    | .genesis => "Genesis"

/-- The name of a model in Korean. -/
def Model.koreanName : Model → String
  | .sonata => "소나타"
  | .grandeur => "그랜저"
  | .genesis => "제네시스"

/-- The least draw with which a car of this model moves. -/
def Model.threshold : Model → UInt32
  | .grandeur => 3
  | .sonata | .genesis => 4

/-- Reads a model between blanks: its Korean name, or its English name in any case of ASCII
letters. -/
def Model.read (text : String) : Except Fault Model :=
  let entry := Text.trim text
  let named (model : Model) : Bool :=
    model.koreanName = entry || (Named.name model).toLower = entry.toLower
  match Named.all.find? named with
  | some model => .ok model
  | none => .error (.validation (.carModel text))

inductive Skill
  | drift
  | jump
  | windBlock
  deriving DecidableEq, Repr

instance : Named Skill where
  all := [.drift, .jump, .windBlock]
  name
    | .drift => "Drift"
    | .jump => "Jump"
    | .windBlock => "WindBlock"

/-- A car on the track. A boost and a drift wait for the next move; a broken car does not move. -/
structure Car where
  name : String
  model : Model
  position : UInt32
  boosted : Bool
  broken : Bool
  skill : Option Skill
  deriving DecidableEq, Repr

namespace Car

def longestName : Nat := 5

/-- A car at the start line. Its name has one to five characters. -/
def new (name : String) (model : Model) : Except Fault Car :=
  if name.length = 0 ∨ longestName < name.length then .error (.validation (.carNameLength name))
  else .ok ⟨name, model, 0, false, false, none⟩

/-- The greatest draw; draws for a move start at zero. -/
def greatestDraw : UInt32 := 9

/-- The steps that a waiting boost and a waiting drift add to a move. -/
def bonus (car : Car) : UInt32 :=
  (if car.boosted then 1 else 0) + (if car.skill = some .drift then 1 else 0)

/-- The car after its boost and its drift are used up. -/
def spent (car : Car) : Car :=
  { car with boosted := false, skill := car.skill.filter (· ≠ .drift) }

/-- Tries to move the car by one draw, and tells whether it moved. The boost and the drift are used
up by the try, also when it fails. A broken car keeps them and draws nothing. -/
def move {State : Type} (source : Chance.Source State) (car : Car) (state : State) :
    Option (Bool × Car × State) :=
  if car.broken then some (false, car, state)
  else (source.draw 0 greatestDraw state).map fun (value, after) =>
    if car.model.threshold ≤ value then
      (true, { car.spent with position := car.position + (1 + car.bonus) }, after)
    else (false, car.spent, after)

def boost (car : Car) : String × Car :=
  ("Boost applied to " ++ car.name ++ "! It moves extra on the next turn.",
    { car with boosted := true })

def breakDown (car : Car) : String × Car :=
  (car.name ++ "'s engine broke down; it stalls for one turn.", { car with broken := true })

/-- Activates a skill in place of the one that may still wait. -/
def activate (skill : Skill) (car : Car) : String × Car :=
  (car.name ++ " activated the " ++ Named.name skill ++ " skill.", { car with skill := some skill })

/-- Ends what lasts for one turn only. -/
def endTurn (car : Car) : Car := { car with broken := false }

/-- The line of the car on the drawn track. -/
def track (car : Car) : String :=
  car.name ++ ": " ++ .ofList (List.replicate car.position.toNat '-')
    ++ if car.broken then "(broken)" else ""

end Car

end MissionScript.Racing
