import MissionScript.Proofs.RacePair
import MissionScript.Proofs.Trace

namespace MissionScript.Racing

variable {State : Type} {source : Chance.Source State}

/-- The skill that a command activates. -/
def skill? : Command → Option Skill
  | .drift => some .drift
  | .jump => some .jump
  | .windBlock => some .windBlock
  | _ => none

/-- The block activates a skill for a car of this name. -/
def Activates (block : Block) (name : String) : Prop :=
  block.Belongs .racing ∧ (skill? block.command).isSome ∧ block.text 0 = name

/-- An event activates a skill in place of another one, or it does not look at skills at all. -/
inductive Effect (command : Command) (event : Car → String × Car) : Prop where
  | activates (skill : Skill) (asks : skill? command = some skill)
      (acts : event = Car.activate skill)
  | passes (other : skill? command = none) (keeps : ∀ car, (event car).2.skill = car.skill)
      (ignores : ∀ (car : Car) skill,
        (event { car with skill }).2 = { (event car).2 with skill })

theorem Race.effect (happens : event? command = some event) : Effect command event := by
  unfold event? at happens
  split at happens
  case h_6 => simp at happens
  all_goals
    obtain rfl := Option.some.inj happens
    first
      | exact .activates _ rfl rfl
      | exact .passes rfl (fun _ => rfl) fun _ _ => rfl

namespace Car

/-- A car without the skills that no move looks at. -/
def plain (car : Car) : Car := { car with skill := car.skill.filter (· = .drift) }

/-- A car without any skill: all that the track and the winners show of it. -/
def unskilled (car : Car) : Car := { car with skill := none }

theorem unskilled_of_plain {car rival : Car} (same : car.plain = rival.plain) :
    car.unskilled = rival.unskilled := by
  change car.plain.unskilled = rival.plain.unskilled
  rw [same]

theorem track_of_unskilled {car rival : Car} (same : car.unskilled = rival.unskilled) :
    car.track = rival.track := by
  change car.unskilled.track = rival.unskilled.track
  rw [same]

theorem name_of_unskilled {car rival : Car} (same : car.unskilled = rival.unskilled) :
    car.name = rival.name := by
  change car.unskilled.name = rival.unskilled.name
  rw [same]

theorem mark_of_unskilled {car rival : Car} (same : car.unskilled = rival.unskilled) :
    car.mark = rival.mark := by
  change car.unskilled.mark = rival.unskilled.mark
  rw [same]

theorem plain_eq_iff {car rival : Car} : car.plain = rival.plain ↔
    ∃ skill, rival = { car with skill } ∧ (car.skill = some .drift ↔ skill = some .drift) := by
  have drifting (one other : Option Skill) : one.filter (· = .drift) = other.filter (· = .drift) ↔
      (one = some .drift ↔ other = some .drift) := by
    rcases one with _ | (_ | _ | _) <;> rcases other with _ | (_ | _ | _) <;> decide
  constructor
  · intro same
    refine ⟨rival.skill, ?_, (drifting ..).mp (congrArg Car.skill same)⟩
    have others := congrArg (fun car : Car => { car with skill := rival.skill }) same
    exact others.symm
  · rintro ⟨skill, rfl, same⟩
    simp only [plain, (drifting ..).mpr same]

/-- A move leaves no drift behind, so all that waits after it is idle. -/
theorem spent_plain (car : Car) (skill : Option Skill) :
    car.spent.plain = { car with skill }.spent.plain := by
  have none (skill : Option Skill) : (skill.filter (· ≠ .drift)).filter (· = .drift) = none := by
    rcases skill with _ | (_ | _ | _) <;> rfl
  simp only [spent, plain, none]

private theorem move_plain {car rival : Car} (same : car.plain = rival.plain)
    (moved : car.move source state = some (gone, next, after)) :
    ∃ other, rival.move source state = some (gone, other, after) ∧ next.plain = other.plain := by
  obtain ⟨skill, rfl, drifting⟩ := plain_eq_iff.mp same
  cases Race.move_eq_some_iff.mp moved with
  | stalls broken => exact ⟨_, Race.move_eq_some_iff.mpr (.stalls broken), same⟩
  | goes able drawn enough =>
    refine ⟨_, Race.move_eq_some_iff.mpr (.goes able drawn enough), ?_⟩
    have bonus : { car with skill }.bonus = car.bonus := by simp [Car.bonus, drifting]
    rw [bonus]
    exact congrArg (fun moved : Car => { moved with position := car.position + (1 + car.bonus) })
      (spent_plain car skill)
  | fails able drawn short =>
    exact ⟨_, Race.move_eq_some_iff.mpr (.fails able drawn short), spent_plain car skill⟩

end Car

namespace Race

/-- Idle skills matter to no event and to no move. -/
theorem plain_preserved (source : Chance.Source State) : Preserved source source Eq Car.plain where
  name same := by
    obtain ⟨_, rfl, _⟩ := Car.plain_eq_iff.mp same
    rfl
  event happens same := by
    obtain ⟨skill, rfl, drifting⟩ := Car.plain_eq_iff.mp same
    obtain ⟨told, tells⟩ := event?_told happens
    refine ⟨by rw [tells, tells], ?_⟩
    cases effect happens with
    | activates _ _ acts => rw [acts]; rfl
    | passes _ keeps ignores =>
      exact Car.plain_eq_iff.mpr ⟨skill, ignores _ skill, (keeps _).symm ▸ drifting⟩
  move same beside moved := by
    obtain ⟨other, moves, alike⟩ := Car.move_plain same moved
    exact ⟨_, other, _, beside ▸ moves, rfl, alike⟩
  endTurn same := congrArg Car.endTurn same

theorem winners?_eq (race : Race) : race.winners? =
    if race.isFinished then
      ((race.cars.map fun car => (car.name, car.position)).map (·.2)).max?.map fun farthest =>
        ((race.cars.map fun car => (car.name, car.position)).filter (·.2 = farthest)).map (·.1)
    else none := by
  simp [winners?, List.filter_map, Function.comp_def]

theorem Matched.winners_eq {left right : Race} (matched : left.Matched Car.unskilled right) :
    left.winners? = right.winners? := by
  have alike {car rival : Car} (same : car.unskilled = rival.unskilled) :
      (car.name, car.position) = (rival.name, rival.position) := by
    change (car.unskilled.name, car.unskilled.position) =
      (rival.unskilled.name, rival.unskilled.position)
    rw [same]
  have finished : left.isFinished = right.isFinished := by
    simp only [isFinished, matched.attempts, matched.turn]
  rw [winners?_eq, winners?_eq, map_eq_of_alike alike matched.cars, finished]

theorem Matched.unskilled {left right : Race} (matched : left.Matched Car.plain right) :
    left.Matched Car.unskilled right :=
  ⟨matched.attempts, matched.turn, map_eq_of_alike Car.unskilled_of_plain matched.cars⟩

private theorem TurnTexts.eq_of_plain (texts : TurnTexts Car.plain text answer) : text = answer := by
  cases texts with
  | spent => rfl
  | turn alike =>
    have bare := map_eq_of_alike Car.unskilled_of_plain alike
    simp only [turnText_eq, map_eq_of_alike Car.track_of_unskilled bare]

/-- A block does alike on races that differ in idle skills alone. -/
theorem Handled.plain {left right : Race} (alike : left.Matched Car.plain right)
    (handled : Handled source left state block text next after) :
    ∃ other, Handled source right state block text other after ∧ next.Matched Car.plain other := by
  obtain ⟨answer, other, later, done, matched, rfl, ⟨_, rfl⟩ | ⟨_, texts⟩⟩ :=
    handled.inStep (plain_preserved source) rfl alike
  · exact ⟨other, done, matched⟩
  · exact ⟨other, texts.eq_of_plain ▸ done, matched⟩

end Race

end MissionScript.Racing
