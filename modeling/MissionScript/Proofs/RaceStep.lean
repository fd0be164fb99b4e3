import MissionScript.Racing.Race

namespace MissionScript.Racing.Race

variable {State : Type} {source : Chance.Source State}

/-- The number of turns that a block asks for, when a race can have it. -/
def attempts? (block : Block) : Option Nat :=
  ((block.number? 0).bind Decimal.natural?).filter fun count => 1 ≤ count ∧ count ≤ mostAttempts

theorem attempts?_eq_some_iff {block : Block} : attempts? block = some count ↔
    (block.number? 0).bind Decimal.natural? = some count ∧ 1 ≤ count ∧ count ≤ mostAttempts := by
  simp [attempts?, Option.filter_eq_some_iff]

/-- The model that a block asks for. -/
def model? (block : Block) : Option Model :=
  block.arguments[1]?.bind fun argument => (Model.read argument.asText).toOption

theorem model?_isSome_iff {block : Block} : (∃ model, model? block = some model) ↔
    ∃ argument ∈ block.arguments[1]?, (Model.read argument.asText).isOk := by
  unfold model?
  cases block.arguments[1]? with
  | none => simp
  | some argument =>
    cases read : Model.read argument.asText <;>
      simp [read, Except.toOption, Except.isOk, Except.toBool]

/-- What an event command does to its car. -/
def event? : Command → Option (Car → String × Car)
  | .boost => some Car.boost
  | .failure => some Car.breakDown
  | .drift => some (Car.activate .drift)
  | .jump => some (Car.activate .jump)
  | .windBlock => some (Car.activate .windBlock)
  | _ => none

/-- The names of the cars, in the order of their registration. -/
def names (race : Race) : List String := race.cars.map (·.name)

theorem changeFirst_cons_eq_some_iff {Answer : Type} {answer : Answer} {name : String}
    {event : Car → Answer × Car} {car : Car} {cars others : List Car} :
    changeFirst name event (car :: cars) = some (answer, others) ↔
      car.name = name ∧ answer = (event car).1 ∧ others = (event car).2 :: cars ∨
      car.name ≠ name ∧ ∃ rest, changeFirst name event cars = some (answer, rest) ∧
        others = car :: rest := by
  by_cases same : car.name = name
  · simp [changeFirst, same, eq_comm]
  · cases found : changeFirst name event cars with
    | none => simp [changeFirst, same, found]
    | some changed => simp [changeFirst, same, found, Prod.ext_iff, eq_comm, and_assoc]

/-- An event changes the first car of its name, and no other. -/
theorem changeFirst_split {Answer : Type} {answer : Answer} {name : String}
    {event : Car → Answer × Car} {cars others : List Car}
    (changed : changeFirst name event cars = some (answer, others)) :
    ∃ before car after, cars = before ++ car :: after ∧ car.name = name ∧
      (∀ other ∈ before, other.name ≠ name) ∧ answer = (event car).1 ∧
      others = before ++ (event car).2 :: after := by
  induction cars generalizing others with
  | nil => simp [changeFirst] at changed
  | cons car cars ih =>
    obtain ⟨same, rfl, rfl⟩ | ⟨different, rest, found, rfl⟩ :=
      changeFirst_cons_eq_some_iff.mp changed
    · exact ⟨[], car, cars, rfl, same, by simp, rfl, rfl⟩
    · obtain ⟨before, own, after, rfl, named, apart, rfl, rfl⟩ := ih found
      exact ⟨car :: before, own, after, rfl, named, by simpa [different] using apart, rfl, rfl⟩

theorem changeFirst_names {Answer : Type} {answer : Answer} {event : Car → Answer × Car}
    {cars others : List Car} (keeps : ∀ car, (event car).2.name = car.name)
    (changed : changeFirst name event cars = some (answer, others)) :
    others.map (·.name) = cars.map (·.name) := by
  obtain ⟨before, car, behind, rfl, _, _, _, rfl⟩ := changeFirst_split changed
  simp [keeps]

theorem changeFirst_isSome_iff {Answer : Type} {name : String} {event : Car → Answer × Car}
    {cars : List Car} : (changeFirst name event cars).isSome ↔ name ∈ cars.map (·.name) := by
  induction cars with
  | nil => simp [changeFirst]
  | cons car cars ih =>
    by_cases same : car.name = name
    · simp [changeFirst, same]
    · simp [changeFirst, same, Ne.symm same, ih]

theorem event?_name (happens : event? command = some event) (car : Car) :
    (event car).2.name = car.name := by
  unfold event? at happens
  split at happens <;> first
    | (obtain rfl := Option.some.inj happens; rfl)
    | simp at happens

theorem event?_position (happens : event? command = some event) (car : Car) :
    (event car).2.position = car.position := by
  unfold event? at happens
  split at happens <;> first
    | (obtain rfl := Option.some.inj happens; rfl)
    | simp at happens

/-- What a try makes of a car: a broken car stalls and draws nothing, and another one goes or fails by
its draw. -/
inductive Moved (source : Chance.Source State) (car : Car) (state : State) :
    Bool → Car → State → Prop where
  | stalls (broken : car.broken = true) : Moved source car state false car state
  | goes (able : car.broken = false)
      (drawn : source.draw 0 Car.greatestDraw state = some (value, after))
      (enough : car.model.threshold ≤ value) :
      Moved source car state true { car.spent with position := car.position + (1 + car.bonus) } after
  | fails (able : car.broken = false)
      (drawn : source.draw 0 Car.greatestDraw state = some (value, after))
      (short : ¬ car.model.threshold ≤ value) : Moved source car state false car.spent after

theorem move_eq_some_iff {car next : Car} : car.move source state = some (gone, next, after) ↔
    Moved source car state gone next after := by
  constructor
  · intro moved
    unfold Car.move at moved
    split at moved
    · rename_i broken
      cases moved
      exact .stalls broken
    · rename_i able
      obtain ⟨⟨value, middle⟩, drawn, tried⟩ := Option.map_eq_some_iff.mp moved
      dsimp only at tried
      split at tried
      · rename_i enough
        cases tried
        exact .goes (eq_false_of_ne_true able) drawn enough
      · rename_i short
        cases tried
        exact .fails (eq_false_of_ne_true able) drawn short
  · intro moved
    cases moved with
    | stalls broken => simp [Car.move, broken]
    | goes able drawn enough => simp [Car.move, able, drawn, enough]
    | fails able drawn short => simp [Car.move, able, drawn, short]

theorem move_name {car next : Car} (moved : car.move source state = some (gone, next, after)) :
    next.name = car.name := by
  cases move_eq_some_iff.mp moved <;> rfl

theorem takeTurns_cons (car : Car) (cars : List Car) (state : State) :
    takeTurns source (car :: cars) state =
      (car.move source state).bind fun (_, moved, middle) =>
        (takeTurns source cars middle).map fun (turns, after) =>
          ((moved.track, moved.endTurn) :: turns, after) := by
  cases tried : car.move source state with
  | none => simp [takeTurns, takeTurn, tried]
  | some _ =>
    simp only [takeTurns, takeTurn, tried, Option.bind_eq_bind, Option.bind_some]
    cases takeTurns source cars _ <;> rfl

theorem takeTurns_cons_eq_some_iff {car : Car} {cars : List Car} :
    takeTurns source (car :: cars) state = some (turns, after) ↔
      ∃ gone moved middle others, car.move source state = some (gone, moved, middle) ∧
        takeTurns source cars middle = some (others, after) ∧
        turns = (moved.track, moved.endTurn) :: others := by
  rw [takeTurns_cons]
  constructor
  · intro taken
    obtain ⟨⟨gone, moved, middle⟩, tried, rest⟩ := Option.bind_eq_some_iff.mp taken
    obtain ⟨⟨others, _⟩, later, same⟩ := Option.map_eq_some_iff.mp rest
    obtain ⟨rfl, rfl⟩ := Prod.mk.inj same
    exact ⟨gone, moved, middle, others, tried, later, rfl⟩
  · rintro ⟨gone, moved, middle, others, tried, later, rfl⟩
    simp [tried, later]

theorem takeTurns_names {cars : List Car}
    (taken : takeTurns source cars state = some (turns, after)) :
    turns.map (·.2.name) = cars.map (·.name) := by
  induction cars generalizing turns state after with
  | nil =>
    simp only [takeTurns, Option.some.injEq, Prod.mk.injEq] at taken
    rw [← taken.1]
    rfl
  | cons car cars ih =>
    obtain ⟨_, moved, middle, others, tried, later, rfl⟩ := takeTurns_cons_eq_some_iff.mp taken
    simp only [List.map_cons, ih later]
    exact congrArg (· :: cars.map (·.name)) (move_name tried)

private theorem move_isSome (endless : source.Endless) (car : Car) (state : State) :
    (car.move source state).isSome := by
  unfold Car.move
  split
  · rfl
  · simpa using endless ..

theorem takeTurns_isSome (endless : source.Endless) (cars : List Car) (state : State) :
    (takeTurns source cars state).isSome := by
  induction cars generalizing state with
  | nil => rfl
  | cons car cars ih =>
    obtain ⟨⟨_, moved, middle⟩, tried⟩ := Option.isSome_iff_exists.mp (move_isSome endless car state)
    simpa [takeTurns_cons, tried] using ih middle

/-- What a racing command makes of a race when it succeeds. -/
inductive Handled (source : Chance.Source State) :
    Race → State → Block → String → Race → State → Prop where
  | setUp (asks : block.command = .setUpRace) (asked : attempts? block = some count) :
      Handled source race state block
        ("[RACE SETUP] " ++ toString count ++ " attempts configured.")
        { race with attempts := count, turn := 0 } state
  | register (asks : block.command = .selectCar) (known : model? block = some model)
      (filled : (Text.trim (block.text 0)).isEmpty = false)
      (short : (block.text 0).length ≤ Car.longestName) (fresh : block.text 0 ∉ race.names) :
      Handled source race state block
        ("[CAR REGISTERED] " ++ block.text 0 ++ " (" ++ Named.name model ++ ") registered.")
        { race with cars := race.cars ++ [⟨block.text 0, model, 0, false, false, none⟩] } state
  | event (asks : event? block.command = some event)
      (changed : changeFirst (block.text 0) event race.cars = some (text, others)) :
      Handled source race state block text { race with cars := others } state
  | late (asks : block.command = .runTurn) (entered : race.cars ≠ []) (planned : race.attempts ≠ 0)
      (spent : race.attempts ≤ race.turn) :
      Handled source race state block "[RACE OVER] All attempts are done. Check the winners." race
        state
  | turn (asks : block.command = .runTurn) (entered : race.cars ≠ [])
      (left : race.turn < race.attempts)
      (taken : takeTurns source race.cars state = some (turns, after)) :
      Handled source race state block
        ("\n".intercalate (("--- Turn " ++ toString (race.turn + 1) ++ " ---") :: turns.map (·.1)))
        { race with cars := turns.map (·.2), turn := race.turn + 1 } after

private theorem setUp_done_iff {race : Race} {block : Block} :
    (match block.number? 0 with
      | none => Outcome.refused .attempts race
      | some attempts => race.setUp attempts) = .done text next ↔
    ∃ count, attempts? block = some count ∧
      text = "[RACE SETUP] " ++ toString count ++ " attempts configured." ∧
      next = { race with attempts := count, turn := 0 } := by
  unfold attempts?
  cases block.number? 0 with
  | none => simp [Outcome.refused, Outcome.done]
  | some asked =>
    simp only [setUp, Option.bind_some]
    cases (Decimal.natural? asked).filter fun count => 1 ≤ count ∧ count ≤ mostAttempts with
    | none => simp [Outcome.refused, Outcome.done]
    | some count => simp [Outcome.done, eq_comm]

theorem filled_length {name : String} (filled : (Text.trim name).isEmpty = false) :
    name.length ≠ 0 := by
  intro none
  obtain rfl : name = "" := by simpa using none
  exact absurd filled (by decide)

private theorem register_done_iff {race : Race} {name : String}
    (filled : (Text.trim name).isEmpty = false) :
    race.register name model = .done text next ↔
    name.length ≤ Car.longestName ∧ name ∉ race.names ∧
      text = "[CAR REGISTERED] " ++ name ++ " (" ++ Named.name model ++ ") registered." ∧
      next = { race with cars := race.cars ++ [⟨name, model, 0, false, false, none⟩] } := by
  have taken : race.cars.any (·.name = name) = true ↔ name ∈ race.names := by
    simp [names]
  have long : name.length = 0 ∨ Car.longestName < name.length ↔ ¬ name.length ≤ Car.longestName := by
    have := filled_length filled
    omega
  by_cases known : name ∈ race.names
  · simp [register, taken.mpr known, known, Outcome.refused, Outcome.done]
  · have free : ¬ race.cars.any (·.name = name) = true := mt taken.mp known
    simp only [register, if_neg free, Car.new, long]
    by_cases short : name.length ≤ Car.longestName
    · simp [short, known, Outcome.done, eq_comm]
    · simp [short, Outcome.failed, Outcome.done]

private theorem registerEntry_done_iff {race : Race} {block : Block} :
    race.registerEntry block = .done text next ↔
    ∃ model, model? block = some model ∧ (Text.trim (block.text 0)).isEmpty = false ∧
      (block.text 0).length ≤ Car.longestName ∧ block.text 0 ∉ race.names ∧
      text = "[CAR REGISTERED] " ++ block.text 0 ++ " (" ++ Named.name model ++ ") registered." ∧
      next = { race with cars := race.cars ++ [⟨block.text 0, model, 0, false, false, none⟩] } := by
  unfold registerEntry model?
  cases block.arguments[1]? with
  | none => simp [Outcome.refused, Outcome.done]
  | some argument =>
    simp only [Option.map_some, Option.bind_some]
    cases Model.read argument.asText with
    | error fault => simp [Outcome.refused, Outcome.done, Except.toOption]
    | ok model =>
      cases filled : (Text.trim (block.text 0)).isEmpty with
      | true => simp [Outcome.refused, Outcome.done]
      | false => simp [register_done_iff filled, Except.toOption]

private theorem change_done_iff {race : Race} {event : Car → String × Car} :
    race.change name event = .done text next ↔
    ∃ others, changeFirst name event race.cars = some (text, others) ∧
      next = { race with cars := others } := by
  unfold change
  cases changeFirst name event race.cars with
  | none => simp [Outcome.failed, Outcome.done]
  | some changed =>
    obtain ⟨said, others⟩ := changed
    constructor
    · intro same
      obtain ⟨rfl, rfl⟩ := Outcome.done_inj.mp same
      exact ⟨others, rfl, rfl⟩
    · rintro ⟨_, found, rfl⟩
      cases found
      rfl

private theorem runTurn_done {race : Race}
    (done : race.runTurn source state = some (.done text (next, after)))
    (asks : block.command = .runTurn) : Handled source race state block text next after := by
  unfold runTurn at done
  split at done
  · simp [Outcome.refused, Outcome.done] at done
  · rename_i ready
    rw [not_or, List.isEmpty_iff] at ready
    split at done
    · rename_i spent
      obtain ⟨rfl, rfl, rfl⟩ := Outcome.some_done_inj.mp done
      exact .late asks ready.1 ready.2 spent
    · rename_i left
      obtain ⟨⟨turns, _⟩, taken, ended⟩ := Option.bind_eq_some_iff.mp done
      obtain ⟨rfl, rfl, rfl⟩ := Outcome.some_done_inj.mp ended
      exact .turn asks ready.1 (Nat.lt_of_not_le left) taken

theorem handle_event (asks : event? block.command = some event) (race : Race)
    (state : State) : race.handle source block state =
      some ((race.change (block.text 0) event).within fun race => (race, state)) := by
  unfold event? at asks
  split at asks <;> first
    | (rename_i command; obtain rfl := Option.some.inj asks; simp only [handle, command])
    | simp at asks

theorem handled_of_done {race : Race}
    (done : race.handle source block state = some (.done text (next, after))) :
    Handled source race state block text next after := by
  cases happens : event? block.command with
  | some event =>
    rw [handle_event happens] at done
    obtain ⟨ran, rfl⟩ := Outcome.within_eq_done_iff.mp done
    obtain ⟨others, changed, rfl⟩ := change_done_iff.mp ran
    exact .event happens changed
  | none =>
    unfold handle at done
    dsimp only at done
    split at done
    case h_1 asks =>
      obtain ⟨ran, rfl⟩ := Outcome.within_eq_done_iff.mp done
      obtain ⟨count, asked, rfl, rfl⟩ := setUp_done_iff.mp ran
      exact .setUp asks asked
    case h_2 asks =>
      obtain ⟨ran, rfl⟩ := Outcome.within_eq_done_iff.mp done
      obtain ⟨model, known, filled, short, fresh, rfl, rfl⟩ := registerEntry_done_iff.mp ran
      exact .register asks known filled short fresh
    case h_3 asks | h_4 asks | h_5 asks | h_6 asks | h_7 asks => simp [asks, event?] at happens
    case h_8 asks => exact runTurn_done done asks
    case h_9 => simp [Outcome.failed, Outcome.done] at done

theorem Handled.done {race : Race} (handled : Handled source race state block text next after) :
    race.handle source block state = some (.done text (next, after)) := by
  cases handled with
  | setUp asks asked =>
    simp only [handle, asks]
    exact congrArg (fun outcome => some (outcome.within fun race => (race, state)))
      (setUp_done_iff.mpr ⟨_, asked, rfl, rfl⟩)
  | register asks known filled short fresh =>
    simp only [handle, asks]
    rw [registerEntry_done_iff.mpr ⟨_, known, filled, short, fresh, rfl, rfl⟩]
    rfl
  | event asks changed =>
    rw [handle_event asks, change_done_iff.mpr ⟨_, changed, rfl⟩]
    rfl
  | late asks entered planned spent =>
    have ready : ¬ (next.cars.isEmpty ∨ next.attempts = 0) := by simp [entered, planned]
    simp only [handle, asks, runTurn, if_neg ready, if_pos spent]
  | turn asks entered left taken =>
    have ready : ¬ (race.cars.isEmpty ∨ race.attempts = 0) := by
      simp [entered, Nat.ne_zero_of_lt left]
    simp only [handle, asks, runTurn, if_neg ready, if_neg (Nat.not_le_of_lt left), taken]
    rfl

theorem Handled.names_eq {race : Race} (handled : Handled source race state block text next after) :
    next.names = race.names ++ if block.command = .selectCar then [block.text 0] else [] := by
  cases handled with
  | setUp asks asked => simp [names, asks]
  | register asks known filled short fresh => simp [names, asks]
  | event asks changed =>
    have other : block.command ≠ .selectCar := by
      intro same
      simp [same, event?] at asks
    simp [names, changeFirst_names (event?_name asks) changed, other]
  | late asks entered planned spent => simp [asks]
  | turn asks entered left taken => simpa [names, asks, Function.comp_def] using takeTurns_names taken

theorem Handled.cars_ne_nil {race : Race} (handled : Handled source race state block text next after)
    (asks : block.command = .runTurn) : next.cars ≠ [] := by
  cases handled with
  | setUp other | register other => simp [asks] at other
  | event happens => simp [asks, event?] at happens
  | late _ entered => exact entered
  | turn _ entered _ taken =>
    intro none
    have named := congrArg List.length (takeTurns_names taken)
    rw [List.map_eq_nil_iff.mp none] at named
    exact entered (List.length_eq_zero_iff.mp (by simpa using named.symm))

/-- How the turns go on. A set-up starts them over, a run of a turn adds one as long as some are
left, and nothing else touches them. -/
inductive Clock (race : Race) (block : Block) (next : Race) : Prop where
  | starts (asks : block.command = .setUpRace) (asked : attempts? block = some next.attempts)
      (anew : next.turn = 0)
  | runs (asks : block.command = .runTurn) (entered : next.cars ≠ []) (planned : race.attempts ≠ 0)
      (same : next.attempts = race.attempts) (counted : next.turn = min (race.turn + 1) race.attempts)
  | stands (noSetUp : block.command ≠ .setUpRace) (noTurn : block.command ≠ .runTurn)
      (same : next.attempts = race.attempts) (kept : next.turn = race.turn)

theorem Handled.clock {race : Race} (handled : Handled source race state block text next after)
    (sound : race.turn ≤ race.attempts) : Clock race block next := by
  cases handled with
  | setUp asks asked => exact .starts asks asked rfl
  | register asks known filled short fresh => exact .stands (by simp [asks]) (by simp [asks]) rfl rfl
  | event asks changed =>
    refine .stands ?_ ?_ rfl rfl <;>
      · intro same
        simp [same, event?] at asks
  | late asks entered planned spent => exact .runs asks entered planned rfl (by omega)
  | turn asks entered left taken =>
    have cars := (Handled.turn asks entered left taken).cars_ne_nil asks
    exact .runs asks cars (Nat.ne_zero_of_lt left) rfl (by dsimp only; omega)

theorem Clock.sound {race : Race} (clock : Clock race block next)
    (sound : race.turn ≤ race.attempts) : next.turn ≤ next.attempts := by
  cases clock with
  | starts asks asked anew => omega
  | runs asks entered planned same counted => omega
  | stands noSetUp noTurn same kept => omega

theorem winners?_isSome_iff {race : Race} :
    race.winners?.isSome ↔ race.isFinished = true ∧ race.cars ≠ [] := by
  unfold winners?
  split
  · rename_i finished
    cases entered : race.cars with
    | nil => simp
    | cons car cars => simp [finished]
  · rename_i unfinished
    simp [unfinished]

theorem handle_isSome (endless : source.Endless) (race : Race) (block : Block) (state : State) :
    (race.handle source block state).isSome := by
  unfold handle
  dsimp only
  split
  case h_8 =>
    unfold runTurn
    split
    · rfl
    · split
      · rfl
      · obtain ⟨⟨turns, after⟩, taken⟩ :=
          Option.isSome_iff_exists.mp (takeTurns_isSome endless race.cars state)
        simp [taken]
  all_goals rfl

end MissionScript.Racing.Race
