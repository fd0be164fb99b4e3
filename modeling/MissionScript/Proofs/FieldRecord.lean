import MissionScript.Proofs.BlockStep
import MissionScript.Proofs.DrawRecord
import MissionScript.Proofs.RaceSound

/-! A race read off its blocks. The blocks that ran tell the plan, the turns and the cars that draw
in the next turn, whatever was drawn before. A past lists them with the latest first. -/
namespace MissionScript

open Chance (Recorded)

namespace Racing

/-- How many turns the last set-up has planned. -/
def planned (past : List Block) : Nat :=
  ((past.find? (·.command = .setUpRace)).bind Race.attempts?).getD 0

/-- The turns since the last set-up, those after the end of the race too. A past is read backwards,
so its last set-up is the next one ahead. -/
def turnsRun (past : List Block) : Nat := turnsAhead past

/-- The names of the cars, in the order of their registration. -/
def entered (past : List Block) : List String :=
  ((past.filter (·.command = .selectCar)).map (·.text 0)).reverse

/-- The block runs a turn of the plan, and cars move in it. -/
def MovesField (past : List Block) (block : Block) : Prop :=
  block.command = .runTurn ∧ turnsRun past < planned past

instance (past : List Block) (block : Block) : Decidable (MovesField past block) :=
  inferInstanceAs (Decidable (_ ∧ _))

/-- The blocks since the last turn in which cars moved. -/
def sinceTurn : List Block → List Block
  | [] => []
  | block :: past => if MovesField past block then [] else block :: sinceTurn past

/-- A failure has named the car since the last turn in which cars moved. -/
def Stalls (past : List Block) (name : String) : Prop :=
  ∃ block ∈ sinceTurn past, block.command = .failure ∧ block.text 0 = name

instance (past : List Block) (name : String) : Decidable (Stalls past name) :=
  inferInstanceAs (Decidable (∃ block ∈ _, _))

/-- The cars that draw when a turn is run now. -/
def drawers (past : List Block) : List String :=
  (entered past).filter fun name => ¬ Stalls past name

/-- The cars that draw at a block. A utility block runs no turn, whatever its command is. -/
def drawersAt (past : List Block) (block : Block) : List String :=
  if block.domain ≠ .utility ∧ MovesField past block then drawers past else []

/-- The past after one more block. Utility blocks are not remembered. -/
def noted (past : List Block) (block : Block) : List Block :=
  if block.domain = .utility then past else block :: past

/-- The cars that draw along the blocks, in order and each as often as it draws, when the blocks of the
past have run before. -/
def drawersOf : List Block → List Block → List String
  | _, [] => []
  | past, block :: blocks => drawersAt past block ++ drawersOf (noted past block) blocks

section Past

variable {block : Block} {past : List Block}

private theorem planned_cons : planned (block :: past) =
    if block.command = .setUpRace then (Race.attempts? block).getD 0 else planned past := by
  by_cases starts : block.command = .setUpRace <;> simp [planned, starts]

private theorem turnsRun_cons : turnsRun (block :: past) =
    if block.command = .setUpRace then 0
    else turnsRun past + if block.command = .runTurn then 1 else 0 := turnsAhead_cons block past

private theorem entered_cons : entered (block :: past) =
    entered past ++ if block.command = .selectCar then [block.text 0] else [] := by
  by_cases registers : block.command = .selectCar <;> simp [entered, registers]

private theorem sinceTurn_cons : sinceTurn (block :: past) =
    if MovesField past block then [] else block :: sinceTurn past := rfl

private theorem stalls_cons : Stalls (block :: past) name ↔ ¬ MovesField past block ∧
    (block.command = .failure ∧ block.text 0 = name ∨ Stalls past name) := by
  unfold Stalls
  rw [sinceTurn_cons]
  by_cases moves : MovesField past block
  · simp [moves]
  · simp [moves]

end Past

namespace Race

variable {State : Type} {source : Chance.Source State}

private theorem event?_broken (happens : event? command = some event) (car : Car) :
    (event car).2.broken = (car.broken || command = .failure) := by
  unfold event? at happens
  split at happens
  case h_2 =>
    obtain rfl := Option.some.inj happens
    exact (Bool.or_true _).symm
  case h_6 => simp at happens
  all_goals
    obtain rfl := Option.some.inj happens
    exact (Bool.or_false _).symm

private theorem changeFirst_eq_map {cars others : List Car} (apart : (cars.map (·.name)).Nodup)
    (changed : changeFirst name event cars = some (text, others)) :
    others = cars.map fun car => if car.name = name then (event car).2 else car := by
  induction cars generalizing others with
  | nil => simp [changeFirst] at changed
  | cons car cars ih =>
    obtain ⟨fresh, later⟩ := List.nodup_cons.mp apart
    obtain ⟨same, rfl, rfl⟩ | ⟨other, rest, found, rfl⟩ := changeFirst_cons_eq_some_iff.mp changed
    · have kept : cars.map (fun car => if car.name = name then (event car).2 else car) = cars := by
        refine (List.map_congr_left fun rival member => ?_).trans (List.map_id cars)
        have different : rival.name ≠ name := fun own =>
          fresh (List.mem_map.mpr ⟨rival, member, own.trans same.symm⟩)
        exact if_neg different
      simp [same, kept]
    · simp [other, ih later found]

/-- The past tells the plan and the turns, which cars there are, and which of them are broken. -/
structure Told (past : List Block) (race : Race) : Prop where
  sound : race.Sound
  attempts : race.attempts = planned past
  turn : race.turn = min (turnsRun past) (planned past)
  marks : race.cars.map Car.mark = (entered past).map fun name => (name, decide (Stalls past name))
  known : ∀ name, Stalls past name → name ∈ entered past

theorem told_empty : Told [] .empty where
  sound := sound_empty
  attempts := rfl
  turn := rfl
  marks := rfl
  known := by simp [Stalls, sinceTurn]

private theorem Told.names_eq {race : Race} (told : Told past race) : race.names = entered past := by
  have first := congrArg (List.map Prod.fst) told.marks
  simpa [names, Car.mark, Function.comp_def] using first

theorem Told.movesField_iff {race : Race} (told : Told past race) :
    MovesField past block ↔ block.command = .runTurn ∧ race.turn < race.attempts := by
  have turns := told.turn
  have plan := told.attempts
  have left : turnsRun past < planned past ↔ race.turn < race.attempts := by omega
  rw [MovesField, left]

/-- The cars that are not broken are those that draw. -/
theorem Told.drawers_eq {race : Race} (told : Told past race) :
    (race.cars.filter (!·.broken)).map (·.name) = drawers past := by
  have able := congrArg (fun marks => (marks.filter (!·.2)).map Prod.fst) told.marks
  simpa [Car.mark, drawers, List.filter_map, Function.comp_def] using able

private theorem Told.drawCount_eq {race : Race} (told : Told past race) (block : Block) :
    race.drawCount block = if MovesField past block then (drawers past).length else 0 := by
  simp only [drawCount, ← told.movesField_iff, ← told.drawers_eq, ableCount,
    List.countP_eq_length_filter, List.length_map]

private theorem Handled.told_turns {race : Race} (told : Told past race)
    (handled : Handled source race state block text next after) :
    next.attempts = planned (block :: past) ∧
      next.turn = min (turnsRun (block :: past)) (planned (block :: past)) := by
  have turns := told.turn
  have plan := told.attempts
  rw [planned_cons, turnsRun_cons]
  cases handled.clock told.sound.turn with
  | starts asks asked anew => simp [asks, asked, anew]
  | runs asks entered planned same counted =>
    simp only [asks, same, counted, plan, reduceCtorEq, if_false, if_true, true_and]
    omega
  | stands noSetUp noTurn same kept => simp [noSetUp, noTurn, same, kept, plan, turns]

private theorem Handled.told_known {race : Race} (told : Told past race)
    (handled : Handled source race state block text next after) (stalls : Stalls (block :: past) name) :
    name ∈ entered (block :: past) := by
  rw [entered_cons]
  refine List.mem_append_left _ ?_
  obtain ⟨_, ⟨breaks, rfl⟩ | earlier⟩ := stalls_cons.mp stalls
  · cases handled with
    | event asks changed =>
      exact told.names_eq ▸ changeFirst_isSome_iff.mp (Option.isSome_of_eq_some changed)
    | setUp asks | register asks | late asks | turn asks => simp [breaks] at asks
  · exact told.known name earlier

private theorem Told.marks_of_event {race : Race} {block : Block} (told : Told past race)
    (asks : event? block.command = some event)
    (changed : changeFirst (block.text 0) event race.cars = some (text, others)) :
    others.map Car.mark = (entered past).map fun name =>
      (name, decide (Stalls past name) || decide (block.command = .failure ∧ block.text 0 = name)) := by
  let acts (mark : String × Bool) : String × Bool :=
    (mark.1, mark.2 || decide (block.command = .failure ∧ block.text 0 = mark.1))
  have one (car : Car) : (if car.name = block.text 0 then (event car).2 else car).mark =
      acts car.mark := by
    by_cases named : car.name = block.text 0
    · simp [acts, Car.mark, named, event?_name asks, event?_broken asks]
    · simp [acts, Car.mark, named, Ne.symm named]
  rw [changeFirst_eq_map told.sound.apart changed, List.map_map]
  calc race.cars.map (Car.mark ∘ fun car => if car.name = block.text 0 then (event car).2 else car)
      = (race.cars.map Car.mark).map acts := by
        rw [List.map_map]
        exact List.map_congr_left fun car _ => one car
    _ = _ := by
        rw [told.marks, List.map_map]
        rfl

private theorem marks_of_turn {cars : List Car}
    (taken : takeTurns source cars state = some (turns, after)) :
    (turns.map (·.2)).map Car.mark = (cars.map (·.name)).map (·, false) := by
  rw [← takeTurns_names taken]
  obtain ⟨draws, _, rfl⟩ := takeTurns_eq_some_iff.mp taken
  simp [Car.shown, Car.mark, Car.endTurn]

private theorem Handled.told_marks {race : Race} (told : Told past race)
    (handled : Handled source race state block text next after) :
    next.cars.map Car.mark =
      (entered (block :: past)).map fun name => (name, decide (Stalls (block :: past) name)) := by
  have moves : MovesField past block ↔ block.command = .runTurn ∧ race.turn < race.attempts :=
    told.movesField_iff
  simp only [entered_cons, stalls_cons, moves]
  cases handled with
  | setUp asks asked => simp [asks, told.marks]
  | register asks known filled short fresh =>
    have unstalled : ¬ Stalls past (block.text 0) := mt (told.known _) (told.names_eq ▸ fresh)
    simp [asks, told.marks, unstalled, Car.mark]
  | event asks changed =>
    have noTurn := not_runTurn_of_event? asks
    have other := not_selectCar_of_event? asks
    simp [told.marks_of_event asks changed, noTurn, other, Bool.or_comm]
  | late asks entered planned spent => simp [asks, told.marks, Nat.not_lt_of_le spent]
  | turn asks entered left taken =>
    rw [marks_of_turn taken]
    have named : race.cars.map (·.name) = _ := told.names_eq
    simp [asks, left, named]

/-- What a block does to a race it does to what its past tells. -/
theorem Handled.told {race : Race} (told : Told past race)
    (handled : Handled source race state block text next after) : Told (block :: past) next where
  sound := handled.sound told.sound
  attempts := (handled.told_turns told).1
  turn := (handled.told_turns told).2
  marks := handled.told_marks told
  known _ stalls := handled.told_known told stalls

end Race

end Racing

namespace Progress

open Racing (drawersAt noted)
open Racing.Race (Told)

variable {State : Type} {source : Chance.Source State}

theorem Stepped.told {progress next : Progress} (told : Told past progress.race)
    (stepped : Stepped source .racing progress state block text next after) :
    Told (noted past block) next.race := by
  cases stepped with
  | utility utility =>
    rw [noted, if_pos utility]
    exact told
  | calculator inStage => cases inStage
  | racing inStage belongs handled =>
    rw [noted, if_neg (by simp [belongs.1])]
    exact handled.told told
  | lotto inStage => cases inStage

/-- The draws of a block in a racing run are those of the cars that draw at it. -/
theorem Stepped.recorded_of_race {progress next : Progress} (told : Told past progress.race)
    (stepped : Stepped source .racing progress state block text next after) :
    Recorded (fun _ other here later => Stepped other .racing progress here block text next later)
      (drawersAt past block).length source state after := by
  cases stepped with
  | utility utility =>
    rw [drawersAt, if_neg fun own => own.1 utility]
    exact .of_still fun _ _ _ => .utility utility
  | calculator inStage => cases inStage
  | racing inStage belongs handled =>
    have drawn := told.drawCount_eq block
    have declared : block.domain ≠ .utility := by simp [belongs.1]
    simp only [drawersAt, declared, ne_eq, not_false_eq_true, true_and, apply_ite List.length,
      List.length_nil, ← drawn]
    exact handled.recorded.imp fun _ _ _ _ again => .racing inStage belongs again
  | lotto inStage => cases inStage

end Progress

end MissionScript
