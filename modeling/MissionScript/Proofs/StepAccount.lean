import Mathlib.Data.List.TakeWhile
import MissionScript.Proofs.RaceSound

/-! Steps on account. A turn, a boost and a drift earn a car one step each. What the car has gone and
what waits for its next move never comes to more than that, and so 32 bits last for a long race. -/
namespace MissionScript

variable {State : Type}

/-- The block has the command and names the car, and it succeeded. -/
def Deed.didFor (command : Command) (name : String) (deed : Deed Racing.Race State) : Bool :=
  deed.did command && deed.block.text 0 = name

namespace Racing

/-- How many turns have moved the field since the car of the name was registered. -/
def turnsOf (name : String) (deeds : List (Deed Race State)) : Nat :=
  (deeds.dropWhile fun deed => !deed.didFor .selectCar name).countP Deed.moves

/-- The steps that blocks have earned the car of the name. -/
def earned (name : String) (deeds : List (Deed Race State)) : Nat :=
  deeds.countP (·.didFor .boost name) + deeds.countP (·.didFor .drift name)

private theorem turnsOf_append (known : deeds.any (·.didFor .selectCar name) = true)
    (more : List (Deed Race State)) :
    turnsOf name (deeds ++ more) = turnsOf name deeds + more.countP Deed.moves := by
  have some : (deeds.dropWhile fun deed => !deed.didFor .selectCar name) ≠ [] := by
    simpa using known
  rw [turnsOf, List.dropWhile_append, if_neg (by simpa using some), List.countP_append]
  rfl

private theorem earned_concat (name : String) (deeds : List (Deed Race State))
    (deed : Deed Race State) :
    earned name (deeds ++ [deed]) = earned name deeds + earned name [deed] := by
  simp only [earned, List.countP_append]
  omega

/-- The most turns after which no position can have come to the end of 32 bits. -/
def safeTurns : Nat := 1431655765

private theorem size_eq : UInt32.size = 3 * safeTurns + 1 := rfl

private theorem toNat_advance_le (position : UInt32) (gain : Nat) :
    (position + .ofNat gain).toNat ≤ position.toNat + gain := by
  rw [UInt32.toNat_add, UInt32.toNat_ofNat']
  exact Nat.le_trans (Nat.mod_le _ _) (Nat.add_le_add_left (Nat.mod_le _ _) _)

private theorem toNat_advance {position : UInt32} {gain : Nat}
    (fits : position.toNat + gain < UInt32.size) :
    (position + .ofNat gain).toNat = position.toNat + gain := by
  have own : (UInt32.ofNat gain).toNat = gain :=
    UInt32.toNat_ofNat_of_lt' (Nat.lt_of_le_of_lt (Nat.le_add_left _ _) fits)
  rw [UInt32.toNat_add, own]
  exact Nat.mod_eq_of_lt fits

namespace Race

variable {source : Chance.Source State} {start : State}

/-- A block that succeeds moves a car by a gain of its own. The turn pays for one step of it, and
what has waited for the others. -/
theorem Passes.gains (deed : Deed Race State) {car moved : Car}
    (passes : Passes deed.found deed.block car moved) (succeeded : deed.answer.isOk = true) :
    ∃ gain, moved.position = car.position + .ofNat gain ∧
      gain ≤ 3 * [deed].countP Deed.moves ∧
      moved.pending + gain ≤ car.pending + [deed].countP Deed.moves + earned car.name [deed] := by
  cases passes with
  | stays => exact ⟨0, by simp, Nat.zero_le _, by omega⟩
  -- An event moves nothing, but what it leaves waiting has to be earned by it.
  | @event event asks named =>
    refine ⟨0, by simp [event?_position asks], Nat.zero_le _, ?_⟩
    have waits := event?_pending asks car
    have own (command : Command) : [deed].countP (·.didFor command car.name) =
        if deed.block.command = command then 1 else 0 := by
      simp [List.countP_singleton, Deed.didFor, Deed.did, succeeded, named]
    have pays : (if deed.block.command = .boost ∨ deed.block.command = .drift then 1 else 0) ≤
        earned car.name [deed] := by
      rw [earned, own, own]
      by_cases boosts : deed.block.command = .boost
      · simp [boosts]
      · simp [boosts]
    omega
  | turn asks left draw =>
    have going : deed.found.isFinished = false := by
      simp [isFinished, Nat.ne_of_lt left]
    have moves : [deed].countP Deed.moves = 1 := by
      simp [Deed.moves, Deed.did, asks, succeeded, going]
    refine ⟨car.gain draw, car.tried_position draw, ?_, ?_⟩
    · have most := car.gain_le draw
      have waits := car.pending_le
      omega
    · have paid : (car.tried draw).endTurn.pending + car.gain draw ≤ car.pending + 1 :=
        car.pending_tried draw
      omega

/-- What every car has gone and what waits for it, on account. -/
structure Accounted (deeds : List (Deed Race State)) (car : Car) : Prop where
  known : deeds.any (·.didFor .selectCar car.name) = true
  steps : car.position.toNat + car.pending ≤ turnsOf car.name deeds + earned car.name deeds
  reach : car.position.toNat ≤ 3 * turnsOf car.name deeds

private theorem accounted_entered {deed : Deed Race State} (deeds : List (Deed Race State))
    (enters : Enters deed.block car) (succeeded : deed.answer.isOk = true) :
    Accounted (deeds ++ [deed]) car := by
  obtain ⟨asks, model, rfl⟩ := enters
  refine ⟨?_, Nat.zero_le _, Nat.zero_le _⟩
  simp [Deed.didFor, Deed.did, asks, succeeded]

private theorem Accounted.gains {deed : Deed Race State} (own : Accounted deeds car)
    (named : moved.name = car.name) (position : moved.position = car.position + .ofNat gain)
    (most : gain ≤ 3 * [deed].countP Deed.moves)
    (paid : moved.pending + gain ≤
      car.pending + [deed].countP Deed.moves + earned car.name [deed]) :
    Accounted (deeds ++ [deed]) moved := by
  have gone : moved.position.toNat ≤ car.position.toNat + gain :=
    position ▸ toNat_advance_le car.position gain
  have steps := own.steps
  have reach := own.reach
  constructor
  · rw [named, List.any_append, own.known, Bool.true_or]
  · rw [named, turnsOf_append own.known, earned_concat]
    omega
  · rw [named, turnsOf_append own.known]
    omega

private theorem Accounted.passes {deed : Deed Race State} (own : Accounted deeds car)
    (passes : Passes deed.found deed.block car moved) (succeeded : deed.answer.isOk = true) :
    Accounted (deeds ++ [deed]) moved := by
  obtain ⟨gain, position, most, paid⟩ := passes.gains deed succeeded
  exact own.gains passes.name position most paid

private theorem Accounted.fails (own : Accounted deeds car) (deed : Deed Race State) :
    Accounted (deeds ++ [deed]) car := by
  have still : car.position = car.position + .ofNat 0 := by simp
  exact own.gains rfl still (Nat.zero_le _) (by omega)

theorem accounted_of_history {race : Race}
    (history : History (handle source) .empty start deeds race state) :
    ∀ car ∈ race.cars, Accounted deeds car := by
  induction history with
  | start => simp [empty]
  | after past handled ih =>
    intro car member
    obtain ⟨text, rfl, step⟩ | ⟨_, rfl, rfl, _⟩ := handle_cases handled
    · obtain ⟨old, inside, passes⟩ | enters := step.origin car member
      · exact (ih old inside).passes passes rfl
      · exact accounted_entered _ enters rfl
    · exact (ih car member).fails _

private theorem Accounted.fits (own : Accounted deeds car)
    (safe : turnsOf car.name deeds < safeTurns) :
    car.position.toNat + (1 + car.pending) < UInt32.size := by
  have reach := own.reach
  have waits := car.pending_le
  rw [size_eq]
  omega

private theorem gone_of_history {race last : Race}
    (history : History (handle source) race state deeds last final) {place : Nat}
    (found : race.cars[place]? = some car) :
    ∃ later gone, last.cars[place]? = some later ∧ later.name = car.name ∧
      later.position = car.position + .ofNat gone ∧ gone ≤ 3 * deeds.countP Deed.moves := by
  induction history with
  | start => exact ⟨car, 0, found, rfl, by simp, Nat.zero_le _⟩
  | @after rest reached here block answer next there past handled ih =>
    obtain ⟨later, gone, behind, named, position, most⟩ := ih
    rw [List.countP_append]
    obtain ⟨text, rfl, step⟩ | ⟨_, rfl, rfl, _⟩ := handle_cases handled
    · obtain ⟨moved, ahead, passes⟩ := step.passes_at behind
      obtain ⟨gain, further, few, _⟩ :=
        passes.gains ⟨block, reached, here, .ok text, next, there⟩ rfl
      refine ⟨moved, gone + gain, ahead, passes.name.trans named, ?_, by omega⟩
      rw [further, position, UInt32.ofNat_add, UInt32.add_assoc]
    · exact ⟨later, gone, behind, named, position, by omega⟩

/-- A turn that moves the field draws for its cars, and takes each as far as its draw says. -/
theorem gains_of_turn {race : Race} (sound : race.Sound) (asks : block.command = .runTurn)
    (going : race.isFinished = false)
    (done : race.handle source block state = some (.done text (next, after))) :
    ∃ draws, Draws source race.cars state draws after ∧
      ∀ (place : Nat) car, race.cars[place]? = some car →
        ∃ (draw : Option UInt32) (moved : Car), draws[place]? = some draw ∧
          next.cars[place]? = some moved ∧ moved.name = car.name ∧
          moved.position = car.position + .ofNat (car.gain draw) := by
  have step := handled_of_done done
  cases step with
  | late _ _ planned spent =>
    have ended := (sound.isFinished_iff (Nat.pos_of_ne_zero planned)).mpr spent
    simp [going] at ended
  | setUp other | register other => simp [asks] at other
  | event happens => simp [asks, event?] at happens
  | turn _ _ left taken =>
    obtain ⟨draws, drawn, rfl⟩ := takeTurns_eq_some_iff.mp taken
    refine ⟨draws, drawn, fun place car found => ?_⟩
    obtain ⟨inside, rfl⟩ := List.getElem?_eq_some_iff.mp found
    have within : place < draws.length := drawn.length_eq ▸ inside
    refine ⟨draws[place], (race.cars[place].tried draws[place]).endTurn, by simp, ?_,
      Car.tried_name _ _, Car.tried_position _ _⟩
    have stood : (List.zipWith Car.tried race.cars draws)[place]? =
        some (race.cars[place].tried draws[place]) :=
      List.getElem?_zipWith_eq_some.mpr ⟨_, _, found, List.getElem?_eq_getElem within, rfl⟩
    rw [List.getElem?_map, List.getElem?_map, stood]
    rfl

/-- What a car has gone and what waits for its next move has been earned by turns, boosts and drifts,
and no turn takes it farther than three steps. Each turn takes it as far as its draw says, which is
exact and never back as long as the turns are safe. -/
theorem position_accounted {race : Race}
    (history : History (handle source) .empty start deeds race state) :
    (∀ car ∈ race.cars,
      car.position.toNat + car.pending ≤ turnsOf car.name deeds + earned car.name deeds ∧
      car.position.toNat ≤ 3 * turnsOf car.name deeds) ∧
    (∀ block text next after, block.command = .runTurn → race.isFinished = false →
      race.handle source block state = some (.done text (next, after)) →
      ∃ draws, Draws source race.cars state draws after ∧
        ∀ (place : Nat) car, race.cars[place]? = some car →
          ∃ (draw : Option UInt32) (moved : Car), draws[place]? = some draw ∧
            next.cars[place]? = some moved ∧ moved.name = car.name ∧
            moved.position = car.position + .ofNat (car.gain draw) ∧
            (turnsOf car.name deeds < safeTurns →
              car.position.toNat + (1 + car.pending) < UInt32.size ∧
              moved.position.toNat = car.position.toNat + car.gain draw)) ∧
    ∀ more last final, History (handle source) race state more last final →
      ∀ (place : Nat) car, race.cars[place]? = some car →
        ∃ later gone, last.cars[place]? = some later ∧ later.name = car.name ∧
          later.position = car.position + .ofNat gone ∧ gone ≤ 3 * more.countP Deed.moves ∧
          (turnsOf car.name (deeds ++ more) ≤ safeTurns → car.position ≤ later.position) := by
  have accounted := accounted_of_history history
  refine ⟨fun car member => ⟨(accounted car member).steps, (accounted car member).reach⟩, ?_, ?_⟩
  · intro block text next after asks going done
    obtain ⟨draws, drawn, places⟩ :=
      gains_of_turn (sound_of_history history sound_empty) asks going done
    refine ⟨draws, drawn, fun place car found => ?_⟩
    obtain ⟨draw, moved, drew, behind, named, position⟩ := places place car found
    refine ⟨draw, moved, drew, behind, named, position, fun safe => ?_⟩
    have fits := (accounted car (List.mem_of_getElem? found)).fits safe
    have most := car.gain_le draw
    exact ⟨fits, position ▸ toNat_advance (by omega)⟩
  · intro more last final later place car found
    obtain ⟨reached, gone, ahead, named, position, most⟩ := gone_of_history later found
    refine ⟨reached, gone, ahead, named, position, most, fun safe => ?_⟩
    have own := accounted car (List.mem_of_getElem? found)
    -- Three steps for each turn before and since, and the sum still fits.
    rw [turnsOf_append own.known] at safe
    have reach := own.reach
    rw [position, UInt32.le_iff_toNat_le, toNat_advance (by rw [size_eq]; omega)]
    exact Nat.le_add_right _ _

/-- A boost of an unknown car earns nothing. A turn, a boost and a drift take the car three steps. -/
theorem position_accounted_three :
    ∃ (deeds : List (Deed Race (List UInt32))) (race : Race),
      History (handle Chance.replay) .empty [7] deeds race [] ∧
      deeds.map (·.block) = [.bare .boost [.text "pobi"], .bare .setUpRace [.number 2],
        .bare .selectCar [.text "pobi", .text "소나타"], .bare .boost [.text "pobi"],
        .bare .drift [.text "pobi"], .bare .runTurn []] ∧
      race.cars = [⟨"pobi", .sonata, 3, false, false, none⟩] ∧
      turnsOf "pobi" deeds = 1 ∧ earned "pobi" deeds = 2 ∧
      3 ≤ turnsOf "pobi" deeds + earned "pobi" deeds := by
  have two : attempts? (.bare .setUpRace [.number 2]) = some 2 := by decide +kernel
  have known : model? (.bare .selectCar [.text "pobi", .text "소나타"]) = some .sonata := by
    decide +kernel
  let pobi : Car := ⟨"pobi", .sonata, 0, false, false, none⟩
  let ready : Car := { pobi with boosted := true, skill := some .drift }
  have starts : Handled Chance.replay .empty [7] (.bare .setUpRace [.number 2]) _ ⟨[], 2, 0⟩ [7] :=
    .setUp rfl two
  have enters : Handled Chance.replay ⟨[], 2, 0⟩ [7]
      (.bare .selectCar [.text "pobi", .text "소나타"]) _ ⟨[pobi], 2, 0⟩ [7] :=
    .register rfl known (by decide) (by decide) (by decide)
  have boosts : Handled Chance.replay ⟨[pobi], 2, 0⟩ [7] (.bare .boost [.text "pobi"]) _
      ⟨[{ pobi with boosted := true }], 2, 0⟩ [7] := .event rfl rfl
  have drifts : Handled Chance.replay ⟨[{ pobi with boosted := true }], 2, 0⟩ [7]
      (.bare .drift [.text "pobi"]) _ ⟨[ready], 2, 0⟩ [7] := .event rfl rfl
  have taken : takeTurns Chance.replay [ready] [7] = some ([(ready.tried (some 7)).shown], []) := rfl
  have turns : Handled Chance.replay ⟨[ready], 2, 0⟩ [7] (.bare .runTurn [])
      (turnText 1 [ready.tried (some 7)]) ⟨[{ pobi with position := 3 }], 2, 1⟩ [] := by
    have left : (⟨[ready], 2, 0⟩ : Race).turn < (⟨[ready], 2, 0⟩ : Race).attempts := by decide
    exact .turn rfl (List.cons_ne_nil ready []) left taken
  have unknown : History (handle Chance.replay) .empty [7]
      [⟨.bare .boost [.text "pobi"], _, _, _, _, _⟩] .empty [7] := .after .start rfl
  have history := ((((unknown.after starts.done).after enters.done).after boosts.done).after
    drifts.done).after turns.done
  have paid := ((position_accounted history).1 _ (List.mem_singleton.mpr rfl)).1
  exact ⟨_, _, history, rfl, rfl, rfl, rfl, paid⟩

end Race

end Racing

end MissionScript
