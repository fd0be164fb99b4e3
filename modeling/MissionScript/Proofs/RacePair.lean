import MissionScript.Proofs.Refusal

/-! Two races side by side. When cars that look alike stay alike in every event and in every move, so
do races in every block, and what they tell differs at most in the tracks of a turn. Names and broken
cars are such a look whatever is drawn. -/
namespace MissionScript

/-- Whenever the first source draws, from any range, the second does too and stays beside it.
The numbers may be different ones. -/
def Chance.Source.InStep {First Second : Type} (first : Chance.Source First)
    (second : Chance.Source Second) (Beside : First → Second → Prop) : Prop :=
  ∀ low high left right, Beside left right →
    ∀ value after, first.draw low high left = some (value, after) →
      ∃ other later, second.draw low high right = some (other, later) ∧ Beside after later

theorem Chance.Source.inStep_self {State : Type} (source : Chance.Source State) :
    source.InStep source Eq := by
  rintro low high state _ rfl value after drawn
  exact ⟨value, after, drawn, rfl⟩

namespace Racing

variable {First Second Seen : Type} {first : Chance.Source First} {second : Chance.Source Second}
  {Beside : First → Second → Prop} {see : Car → Seen}

/-- A car as a turn leaves it: its track is drawn before its turn ends. -/
def Car.shown (car : Car) : String × Car := (car.track, car.endTurn)

namespace Race

/-- Cars that look alike have one name, and neither an event nor a move on both sides tells them
apart. -/
structure Preserved (first : Chance.Source First) (second : Chance.Source Second)
    (Beside : First → Second → Prop) (see : Car → Seen) : Prop where
  name : see car = see rival → car.name = rival.name
  event : event? command = some happening → see car = see rival →
    (happening car).1 = (happening rival).1 ∧ see (happening car).2 = see (happening rival).2
  move : see car = see rival → Beside here there →
    car.move first here = some (gone, next, after) →
    ∃ went other later, rival.move second there = some (went, other, later) ∧
      Beside after later ∧ see next = see other
  endTurn : see car = see rival → see car.endTurn = see rival.endTurn

/-- Races with the same plan whose cars look alike. -/
structure Matched (see : Car → Seen) (left right : Race) : Prop where
  attempts : left.attempts = right.attempts
  turn : left.turn = right.turn
  cars : left.cars.map see = right.cars.map see

theorem Matched.refl (see : Car → Seen) (race : Race) : race.Matched see race := ⟨rfl, rfl, rfl⟩

theorem Matched.entered_iff {left right : Race} (matched : left.Matched see right) :
    left.cars = [] ↔ right.cars = [] := by
  have none := congrArg (· = []) matched.cars
  simpa using none

theorem Matched.winners_isSome {left right : Race} (matched : left.Matched see right) :
    left.winners?.isSome = right.winners?.isSome := by
  rw [Bool.eq_iff_iff, winners?_isSome_iff, winners?_isSome_iff]
  simp [isFinished, matched.attempts, matched.turn, matched.entered_iff]

theorem map_eq_of_alike {Told : Type} {tell : Car → Told}
    (alike : ∀ {car rival : Car}, see car = see rival → tell car = tell rival)
    {cars rivals : List Car} (same : cars.map see = rivals.map see) :
    cars.map tell = rivals.map tell := by
  induction cars generalizing rivals with
  | nil =>
    obtain rfl : rivals = [] := List.map_eq_nil_iff.mp same.symm
    rfl
  | cons car cars ih =>
    obtain ⟨rival, rivals, rfl, own, rest⟩ := List.map_eq_cons_iff.mp same.symm
    rw [List.map_cons, List.map_cons, alike own.symm, ih rest.symm]

private theorem Matched.names_eq {left right : Race} (matched : left.Matched see right)
    (preserved : Preserved first second Beside see) : left.names = right.names :=
  map_eq_of_alike preserved.name matched.cars

/-- What a race refuses can be read off its plan and its names. -/
theorem Matched.refused {left right : Race} (matched : left.Matched see right)
    (names : left.names = right.names) (refused : left.Refused block fault) :
    right.Refused block fault := by
  cases refused with
  | setUp asks unfit => exact .setUp asks unfit
  | entry asks unfit => exact .entry asks unfit
  | taken asks known filled taken => exact .taken asks known filled (names ▸ taken)
  | long asks known filled fresh long => exact .long asks known filled (names ▸ fresh) long
  | event asks absent => exact .event asks (names ▸ absent)
  | turn asks unready =>
    exact .turn asks
      (unready.imp matched.entered_iff.mp fun none => matched.attempts ▸ none)
  | foreign other => exact .foreign other

private theorem changeFirst_alike (preserved : Preserved first second Beside see)
    (happens : event? command = some event) {cars rivals : List Car}
    (same : cars.map see = rivals.map see)
    (changed : changeFirst name event cars = some (text, others)) :
    ∃ rest, changeFirst name event rivals = some (text, rest) ∧
      others.map see = rest.map see := by
  induction cars generalizing rivals others with
  | nil => simp [changeFirst] at changed
  | cons car cars ih =>
    obtain ⟨rival, rivals, rfl, own, rest⟩ := List.map_eq_cons_iff.mp same.symm
    have called := preserved.name own.symm
    obtain ⟨found, rfl, rfl⟩ | ⟨different, _, found, rfl⟩ :=
      changeFirst_cons_eq_some_iff.mp changed
    · obtain ⟨told, seen⟩ := preserved.event happens own.symm
      refine ⟨(event rival).2 :: rivals, ?_, by simp [seen, rest]⟩
      exact changeFirst_cons_eq_some_iff.mpr (.inl ⟨called ▸ found, told, rfl⟩)
    · obtain ⟨later, done, seen⟩ := ih rest.symm found
      refine ⟨rival :: later, ?_, by simp [seen, own]⟩
      exact changeFirst_cons_eq_some_iff.mpr (.inr ⟨called ▸ different, later, done, rfl⟩)

/-- Cars that look alike take their turns with the sources in step, and still look alike when their
tracks are drawn. -/
theorem takeTurns_alike (preserved : Preserved first second Beside see)
    (beside : Beside here there) {cars rivals : List Car} (same : cars.map see = rivals.map see)
    (taken : takeTurns first cars here = some (turns, after)) :
    ∃ (moved others : List Car) (later : Second), turns = moved.map Car.shown ∧
      takeTurns second rivals there = some (others.map Car.shown, later) ∧
      Beside after later ∧ moved.map see = others.map see := by
  induction cars generalizing rivals here there turns with
  | nil =>
    obtain ⟨rfl, rfl⟩ := Prod.mk.inj (Option.some.inj taken)
    obtain rfl : rivals = [] := List.map_eq_nil_iff.mp same.symm
    exact ⟨[], [], there, rfl, rfl, beside, rfl⟩
  | cons car cars ih =>
    obtain ⟨rival, rivals, rfl, own, rest⟩ := List.map_eq_cons_iff.mp same.symm
    obtain ⟨_, next, middle, _, tried, later, rfl⟩ := takeTurns_cons_eq_some_iff.mp taken
    obtain ⟨went, other, between, moves, kept, look⟩ := preserved.move own.symm beside tried
    obtain ⟨moved, others, final, rfl, behind, reached, looks⟩ := ih kept rest.symm later
    refine ⟨next :: moved, other :: others, final, rfl, ?_, reached, by simp [look, looks]⟩
    exact takeTurns_cons_eq_some_iff.mpr ⟨went, other, between, _, moves, behind, rfl⟩

/-- The text of a turn in which the cars have moved. Each has a line, with its name, a dash for each of
its steps, and a mark if it is broken. -/
def turnText (turn : Nat) (cars : List Car) : String :=
  "\n".intercalate (("--- Turn " ++ toString turn ++ " ---") :: cars.map fun car =>
    car.name ++ ": " ++ .ofList (List.replicate car.position.toNat '-') ++
      if car.broken then "(broken)" else "")

theorem turnText_eq (turn : Nat) (cars : List Car) : turnText turn cars =
    "\n".intercalate (("--- Turn " ++ toString turn ++ " ---") :: cars.map Car.track) := rfl

/-- The text of a turn when no turn is left. -/
def overText : String := "[RACE OVER] All attempts are done. Check the winners."

/-- Two texts of a turn: the same header and the tracks of cars that look alike, in the same order;
or the notice that the race is over, twice. -/
inductive TurnTexts (see : Car → Seen) : String → String → Prop where
  | spent : TurnTexts see overText overText
  | turn {moved rivals : List Car} (alike : moved.map see = rivals.map see) :
      TurnTexts see (turnText count moved) (turnText count rivals)

theorem not_runTurn_of_event? (happens : event? command = some event) : command ≠ .runTurn := by
  rintro rfl
  cases happens

theorem not_selectCar_of_event? (happens : event? command = some event) : command ≠ .selectCar := by
  rintro rfl
  cases happens

theorem not_setUp_of_event? (happens : event? command = some event) : command ≠ .setUpRace := by
  rintro rfl
  cases happens

/-- A block does alike on races that look alike. Only turns can tell them apart. -/
theorem Handled.inStep (preserved : Preserved first second Beside see) (beside : Beside here there)
    {left right : Race} (matched : left.Matched see right)
    (handled : Handled first left here block text next after) :
    ∃ answer other later, Handled second right there block answer other later ∧
      next.Matched see other ∧ Beside after later ∧
      (block.command ≠ .runTurn ∧ text = answer ∨
        block.command = .runTurn ∧ TurnTexts see text answer) := by
  cases handled with
  | setUp asks asked =>
    exact ⟨_, _, there, .setUp asks asked, ⟨rfl, rfl, matched.cars⟩, beside,
      .inl ⟨by simp [asks], rfl⟩⟩
  | register asks known filled short fresh =>
    refine ⟨_, _, there,
      .register asks known filled short (matched.names_eq preserved ▸ fresh),
      ⟨matched.attempts, matched.turn, ?_⟩, beside, .inl ⟨by simp [asks], rfl⟩⟩
    simp [matched.cars]
  | event asks changed =>
    obtain ⟨rest, done, alike⟩ := changeFirst_alike preserved asks matched.cars changed
    exact ⟨_, _, there, .event asks done, ⟨matched.attempts, matched.turn, alike⟩, beside,
      .inl ⟨not_runTurn_of_event? asks, rfl⟩⟩
  | late asks entered planned spent =>
    refine ⟨_, right, there, .late asks (mt matched.entered_iff.mpr entered)
      (matched.attempts ▸ planned) ?_, matched, beside, .inr ⟨asks, .spent⟩⟩
    rw [← matched.attempts, ← matched.turn]
    exact spent
  | turn asks entered left taken =>
    obtain ⟨moved, rivals, later, rfl, done, reached, alike⟩ :=
      takeTurns_alike preserved beside matched.cars taken
    have ready : right.turn < right.attempts := by
      rw [← matched.attempts, ← matched.turn]
      exact left
    refine ⟨_, _, later, .turn asks (mt matched.entered_iff.mpr entered) ready done,
      ⟨matched.attempts, by simp [matched.turn], ?_⟩, reached, .inr ⟨asks, ?_⟩⟩
    · have ended : moved.map (see ∘ Car.endTurn) = rivals.map (see ∘ Car.endTurn) :=
        map_eq_of_alike preserved.endTurn alike
      simpa [Car.shown, Function.comp_def] using ended
    · simpa [turnText_eq, Car.shown, Function.comp_def, matched.turn] using TurnTexts.turn alike

end Race

namespace Car

/-- What chance never touches in a car. -/
def mark (car : Car) : String × Bool := (car.name, car.broken)

private theorem mark_eq_iff {car rival : Car} :
    car.mark = rival.mark ↔ car.name = rival.name ∧ car.broken = rival.broken := by
  simp [mark]

theorem name_eq_of_mark {car rival : Car} (same : car.mark = rival.mark) : car.name = rival.name :=
  (mark_eq_iff.mp same).1

private theorem move_mark {source : Chance.Source First} {car next : Car}
    (moved : car.move source state = some (gone, next, after)) : next.mark = car.mark := by
  cases Race.move_eq_some_iff.mp moved <;> rfl

private theorem move_of_drawn {source : Chance.Source First} {car : Car} (able : car.broken = false)
    (drawn : source.draw 0 greatestDraw state = some (value, after)) :
    ∃ gone next, car.move source state = some (gone, next, after) := by
  by_cases enough : car.model.threshold ≤ value
  · exact ⟨_, _, Race.move_eq_some_iff.mpr (.goes able drawn enough)⟩
  · exact ⟨_, _, Race.move_eq_some_iff.mpr (.fails able drawn enough)⟩

/-- A car moves or stalls beside another one with the same mark, and both draw or neither does. -/
theorem move_inStep (inStep : first.InStep second Beside) (beside : Beside here there)
    {car rival : Car} (same : car.mark = rival.mark)
    (moved : car.move first here = some (gone, next, after)) :
    ∃ went other later, rival.move second there = some (went, other, later) ∧
      Beside after later := by
  have broken := (mark_eq_iff.mp same).2
  cases Race.move_eq_some_iff.mp moved with
  | stalls stalled =>
    exact ⟨false, rival, there, Race.move_eq_some_iff.mpr (.stalls (broken ▸ stalled)), beside⟩
  | goes able drawn | fails able drawn =>
    obtain ⟨_, later, found, kept⟩ := inStep _ _ _ _ beside _ _ drawn
    obtain ⟨went, other, moves⟩ := move_of_drawn (broken ▸ able) found
    exact ⟨went, other, later, moves, kept⟩

end Car

namespace Race

theorem event?_told (happens : event? command = some event) :
    ∃ told : String → String, ∀ car, (event car).1 = told car.name := by
  -- Any car will do for the text.
  refine ⟨fun name => (event ⟨name, .sonata, 0, false, false, none⟩).1, ?_⟩
  unfold event? at happens
  split at happens <;> first
    | (obtain rfl := Option.some.inj happens; exact fun _ => rfl)
    | simp at happens

private theorem event?_mark (happens : event? command = some event) :
    ∃ broken : Bool → Bool, ∀ car, (event car).2.mark = (car.name, broken car.broken) := by
  unfold event? at happens
  split at happens
  case h_2 =>
    obtain rfl := Option.some.inj happens
    exact ⟨fun _ => true, fun _ => rfl⟩
  case h_6 => simp at happens
  all_goals
    obtain rfl := Option.some.inj happens
    exact ⟨id, fun _ => rfl⟩

/-- No chance is needed to tell how the marks of cars go on. -/
theorem mark_preserved (inStep : first.InStep second Beside) :
    Preserved first second Beside Car.mark where
  name := Car.name_eq_of_mark
  event happens same := by
    obtain ⟨named, broken⟩ := Car.mark_eq_iff.mp same
    obtain ⟨told, tells⟩ := event?_told happens
    obtain ⟨change, marks⟩ := event?_mark happens
    exact ⟨by rw [tells, tells, named], by rw [marks, marks, named, broken]⟩
  move same beside moved := by
    obtain ⟨went, other, later, moves, kept⟩ := Car.move_inStep inStep beside same moved
    exact ⟨went, other, later, moves, kept,
      (Car.move_mark moved).trans (same.trans (Car.move_mark moves).symm)⟩
  endTurn same := by
    have named := Car.name_eq_of_mark same
    exact congrArg (·, false) named

end Race

end Racing

end MissionScript
