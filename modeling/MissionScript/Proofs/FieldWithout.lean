import MissionScript.Proofs.FieldRecord
import MissionScript.Proofs.RunPair

namespace MissionScript

/-- The race with all cars but those of a name. -/
def Racing.Race.without (race : Race) (name : String) : Race :=
  { race with cars := race.cars.filter (·.name ≠ name) }

/-- The block registers the car of this name, or it is an event for it. -/
def Block.Concerns (block : Block) (name : String) : Prop :=
  block.Belongs .racing ∧ (block.command = .selectCar ∨ (Racing.Race.event? block.command).isSome) ∧
    block.text 0 = name

instance (block : Block) (name : String) : Decidable (block.Concerns name) :=
  inferInstanceAs (Decidable (_ ∧ _))

namespace Racing

open Chance (Followed Happening)

variable {State : Type} {source : Chance.Source State}

/-- What is drawn for cars, in order, when each draws for its move. -/
def moveDraws (drawn : List (String × UInt32)) : List Chance.Draw :=
  drawn.map fun (_, value) => moveDraw value

/-- These cars draw, one after the other, and this happens with every source that gives all cars but
one the draws that they have here. -/
def Spared (name : String) (happens : Happening) (cars : List String) (source : Chance.Source State)
    (state after : State) : Prop :=
  ∃ drawn : List (String × UInt32), drawn.map (·.1) = cars ∧
    Followed (moveDraws drawn) (moveDraws (drawn.filter (·.1 ≠ name))) happens source state after

namespace Spared

variable {name : String} {first second both : Happening} {state middle after : State}

theorem of_still (happens : ∀ (Other : Type) (other : Chance.Source Other) here,
    first Other other here here) : Spared name first [] source state state :=
  ⟨[], rfl, .of_still happens⟩

theorem imp (spared : Spared name first cars source state after)
    (implies : ∀ (Other : Type) (other : Chance.Source Other) here later,
      first Other other here later → second Other other here later) :
    Spared name second cars source state after := by
  obtain ⟨drawn, own, followed⟩ := spared
  exact ⟨drawn, own, followed.imp implies⟩

theorem andThen (early : Spared name first cars source state middle)
    (late : Spared name second others source middle after)
    (joins : ∀ (Other : Type) (other : Chance.Source Other) here between later,
      first Other other here between → second Other other between later → both Other other here later) :
    Spared name both (cars ++ others) source state after := by
  obtain ⟨drawn, own, first⟩ := early
  obtain ⟨more, rest, second⟩ := late
  refine ⟨drawn ++ more, by rw [List.map_append, own, rest], ?_⟩
  rw [List.filter_append, moveDraws, moveDraws, List.map_append, List.map_append]
  exact first.andThen second joins

private theorem of_drawn (drawn : source.draw 0 Car.greatestDraw state = some (value, after))
    (own : String) :
    Spared name (fun _ other here later => if own = name then later = here
      else other.draw 0 Car.greatestDraw here = some (value, later)) [own] source state after := by
  refine ⟨[(own, value)], rfl, .cons drawn .nil, ?_⟩
  intro Other other here later given
  by_cases missing : own = name
  · rw [if_pos missing]
    have none : [(own, value)].filter (fun draw => draw.1 ≠ name) = [] := by simp [missing]
    rw [none] at given
    cases given
    rfl
  · rw [if_neg missing]
    have kept : [(own, value)].filter (fun draw => draw.1 ≠ name) = [(own, value)] := by
      simp [missing]
    rw [kept] at given
    cases given with
    | cons found rest =>
      cases rest
      exact found

end Spared

private theorem Draws.spared {cars : List Car} (drawn : Draws source cars state draws after)
    (name : String) :
    Spared name (fun _ other here later => ∃ rest,
        Draws other (cars.filter (·.name ≠ name)) here rest later ∧
        List.zipWith Car.tried (cars.filter (·.name ≠ name)) rest =
          (List.zipWith Car.tried cars draws).filter (·.name ≠ name))
      ((cars.filter (!·.broken)).map (·.name)) source state after := by
  induction drawn with
  | nil => exact .of_still fun _ _ _ => ⟨[], .nil, rfl⟩
  | @stalls cars state draws after car broken rest ih =>
    have passed : (car :: cars).filter (!·.broken) = cars.filter (!·.broken) := by simp [broken]
    rw [passed]
    refine ih.imp fun Other other here later ⟨others, behind, same⟩ => ?_
    by_cases missing : car.name = name
    · exact ⟨others, by simpa [missing] using behind, by simpa [missing, Car.tried_name] using same⟩
    · refine ⟨none :: others, ?_, ?_⟩
      · simpa [missing] using Draws.stalls broken behind
      · simpa [missing, Car.tried_name] using same
  | @drawn state value middle cars draws after car able drawn rest ih =>
    have first : (car :: cars).filter (!·.broken) = car :: cars.filter (!·.broken) := by simp [able]
    rw [first, List.map_cons, ← List.singleton_append]
    refine (Spared.of_drawn drawn car.name).andThen ih ?_
    intro Other other here between later own ⟨others, behind, same⟩
    by_cases missing : car.name = name
    · rw [if_pos missing] at own
      subst own
      exact ⟨others, by simpa [missing] using behind, by simpa [missing, Car.tried_name] using same⟩
    · rw [if_neg missing] at own
      refine ⟨some value :: others, ?_, ?_⟩
      · simpa [missing] using Draws.drawn able own behind
      · simpa [missing, Car.tried_name] using same

namespace Race

variable {name : String}

private theorem without_entered_iff {race : Race} :
    (race.without name).cars ≠ [] ↔ ∃ rival ∈ race.names, rival ≠ name := by
  simp [without, names]

private theorem changeFirst_without {cars others : List Car} (other : called ≠ name)
    (changed : changeFirst called event cars = some (text, others))
    (keeps : ∀ car, (event car).2.name = car.name) :
    changeFirst called event (cars.filter (·.name ≠ name)) =
      some (text, others.filter (·.name ≠ name)) := by
  induction cars generalizing others with
  | nil => simp [changeFirst] at changed
  | cons car cars ih =>
    obtain ⟨same, rfl, rfl⟩ | ⟨different, rest, found, rfl⟩ :=
      changeFirst_cons_eq_some_iff.mp changed
    · have present : car.name ≠ name := same ▸ other
      have after : (event car).2.name ≠ name := keeps car ▸ present
      simp only [List.filter_cons, decide_eq_true present, decide_eq_true after, if_true]
      exact changeFirst_cons_eq_some_iff.mpr (.inl ⟨same, rfl, rfl⟩)
    · by_cases missing : car.name = name
      · simpa [missing] using ih found
      · simp only [List.filter_cons, decide_eq_true missing, if_true]
        exact changeFirst_cons_eq_some_iff.mpr (.inr ⟨different, _, ih found, rfl⟩)

/-- What a turn tells in both races: the missing car has no track, or the race is over. -/
inductive Shorn (name : String) : String → String → Prop where
  | spent : Shorn name overText overText
  | turn (count : Nat) (moved : List Car) :
      Shorn name (turnText count moved) (turnText count (moved.filter (·.name ≠ name)))

/-- A block that concerns the missing car alone does nothing to the others. -/
theorem Handled.concerned {race : Race} (handled : Handled source race state block text next after)
    (concerns : block.Concerns name) :
    next.without name = race.without name ∧ after = state ∧ block.command ≠ .runTurn := by
  obtain ⟨_, kind, called⟩ := concerns
  cases handled with
  | setUp asks | late asks | turn asks => simp [asks, event?] at kind
  | register asks => exact ⟨by simp [without, called], rfl, by simp [asks]⟩
  | event asks changed =>
    obtain ⟨before, car, behind, split, named, _, _, rfl⟩ := changeFirst_split changed
    have own : car.name = name := named.trans called
    refine ⟨?_, rfl, not_runTurn_of_event? asks⟩
    simp [without, split, own, event?_name asks]

/-- Every other block does alike in both races, as long as a turn has a car left. -/
theorem Handled.spared {race : Race} (handled : Handled source race state block text next after)
    (apart : block.command = .selectCar ∨ (event? block.command).isSome → block.text 0 ≠ name)
    (rival : block.command = .runTurn → (race.without name).cars ≠ []) :
    Spared name (fun _ other here later => ∃ answer,
        Handled other (race.without name) here block answer (next.without name) later ∧
        (block.command ≠ .runTurn ∧ text = answer ∨
          block.command = .runTurn ∧ Shorn name text answer))
      (if block.command = .runTurn ∧ race.turn < race.attempts then
        (race.cars.filter (!·.broken)).map (·.name) else []) source state after := by
  cases handled with
  | setUp asks asked =>
    rw [if_neg (by simp [asks])]
    exact .of_still fun _ _ _ => ⟨_, .setUp asks asked, .inl ⟨by simp [asks], rfl⟩⟩
  | register asks known filled short fresh =>
    rw [if_neg (by simp [asks])]
    refine .of_still fun Other other here => ⟨_, ?_, .inl ⟨by simp [asks], rfl⟩⟩
    have absent : block.text 0 ∉ (race.without name).names := by
      intro present
      obtain ⟨car, member, named⟩ := List.mem_map.mp present
      exact fresh (List.mem_map.mpr ⟨car, List.mem_of_mem_filter member, named⟩)
    have own : Handled other (race.without name) here block _ _ here :=
      .register asks known filled short absent
    simpa [without, apart (.inl asks)] using own
  | event asks changed =>
    rw [if_neg fun own => not_runTurn_of_event? asks own.1]
    have called := apart (.inr (Option.isSome_of_eq_some asks))
    have done := changeFirst_without called changed (event?_name asks)
    exact .of_still fun _ _ _ => ⟨_, .event asks done, .inl ⟨not_runTurn_of_event? asks, rfl⟩⟩
  | late asks entered planned spent =>
    rw [if_neg fun own => Nat.not_lt_of_le spent own.2]
    exact .of_still fun _ _ _ => ⟨_, .late asks (rival asks) planned spent, .inr ⟨asks, .spent⟩⟩
  | turn asks entered left taken =>
    rw [if_pos ⟨asks, left⟩]
    obtain ⟨draws, drawn, rfl⟩ := takeTurns_eq_some_iff.mp taken
    refine (drawn.spared name).imp fun Other other here later ⟨rest, own, same⟩ => ?_
    have turns := takeTurns_eq_some_iff.mpr ⟨rest, own, rfl⟩
    rw [same] at turns
    have step : Handled other (race.without name) here block _ _ later :=
      .turn asks (rival asks) left turns
    have texts (cars : List Car) : "\n".intercalate
        (("--- Turn " ++ toString (race.turn + 1) ++ " ---") :: (cars.map Car.shown).map (·.1)) =
          turnText (race.turn + 1) cars := by
      simp [turnText_eq, Car.shown, Function.comp_def]
    have ended (cars : List Car) : ((cars.filter (·.name ≠ name)).map Car.shown).map (·.2) =
        ((cars.map Car.shown).map (·.2)).filter (·.name ≠ name) := by
      simp [Car.shown, Car.endTurn, List.filter_map, Function.comp_def]
    rw [texts]
    refine ⟨_, ?_, .inr ⟨asks, .turn _ _⟩⟩
    rw [← texts]
    simpa only [without, ended] using step

end Race

end Racing

namespace Progress

open Racing (Race Spared drawersAt)

variable {State : Type} {source : Chance.Source State} {name : String}

def without (progress : Progress) (name : String) : Progress :=
  { progress with race := progress.race.without name }

/-- What a block tells in both runs. A turn can have other winners when a car is missing, but it has
some exactly if it had some before. -/
inductive Shorn (block : Block) (name : String) : String → String → Prop where
  | same : Shorn block name text text
  | turn (asks : block.command = .runTurn) (texts : Race.Shorn name text answer)
      (both : winners?.isSome = others?.isSome) :
      Shorn block name (announced winners? text) (announced others? answer)

theorem Stepped.concerned {progress next : Progress}
    (stepped : Stepped source .racing progress state block text next after)
    (concerns : block.Concerns name) (past : List Block) :
    next.without name = progress.without name ∧ after = state ∧ drawersAt past block = [] := by
  cases stepped with
  | utility utility => exact absurd concerns.1.1 (by simp [utility])
  | calculator inStage => cases inStage
  | racing inStage belongs handled =>
    obtain ⟨same, still, noTurn⟩ := handled.concerned concerns
    refine ⟨?_, still, if_neg fun own => noTurn own.2.1⟩
    simp [without, same, toldWinners?_of_ne noTurn]
  | lotto inStage => cases inStage

/-- Winners are told in both races or in neither, since a turn is never left without a car. -/
private theorem toldWinners?_without {race changed : Race}
    (entered : block.command = .runTurn → (race.without name).cars ≠ [])
    (handled : Race.Handled source (race.without name) state block text (changed.without name) after) :
    (toldWinners? changed block).isSome = (toldWinners? (changed.without name) block).isSome := by
  by_cases asks : block.command = .runTurn
  · have kept := handled.names_eq
    have left : (changed.without name).cars ≠ [] := by
      intro none
      have gone : (changed.without name).names = [] := by rw [Race.names, none]; rfl
      rw [gone] at kept
      exact entered asks (List.map_eq_nil_iff.mp (List.append_eq_nil_iff.mp kept.symm).1)
    have whole : changed.cars ≠ [] := fun none => left (by simp [Race.without, none])
    rw [toldWinners?_of_turn asks, toldWinners?_of_turn asks, Bool.eq_iff_iff,
      Race.winners?_isSome_iff, Race.winners?_isSome_iff]
    exact and_congr_right fun _ => iff_of_true whole left
  · rw [toldWinners?_of_ne asks, toldWinners?_of_ne asks]

theorem Stepped.spared {progress next : Progress} (told : Race.Told past progress.race)
    (stepped : Stepped source .racing progress state block text next after)
    (apart : ¬ block.Concerns name)
    (rival : block.Belongs .racing → block.command = .runTurn →
      ∃ rival ∈ progress.race.names, rival ≠ name) :
    Spared name (fun _ other here later => ∃ answer,
        Stepped other .racing (progress.without name) here block answer (next.without name) later ∧
        Shorn block name text answer)
      (drawersAt past block) source state after := by
  cases stepped with
  | utility utility =>
    rw [drawersAt, if_neg fun own => own.1 utility]
    exact .of_still fun _ _ _ => ⟨"", .utility utility, .same⟩
  | calculator inStage => cases inStage
  | @racing _ changed _ inStage belongs handled =>
    have entered (asks : block.command = .runTurn) : (progress.race.without name).cars ≠ [] :=
      Racing.Race.without_entered_iff.mpr (rival belongs asks)
    have declared : block.domain ≠ .utility := by simp [belongs.1]
    have cars : drawersAt past block =
        if block.command = .runTurn ∧ progress.race.turn < progress.race.attempts then
          (progress.race.cars.filter (!·.broken)).map (·.name) else [] := by
      simp only [drawersAt, declared, ne_eq, not_false_eq_true, true_and, told.movesField_iff,
        told.drawers_eq]
    rw [cars]
    refine (handled.spared (fun kind called => apart ⟨belongs, kind, called⟩) entered).imp ?_
    rintro Other other here later ⟨answer, own, texts⟩
    have both := toldWinners?_without entered own
    have step : Stepped other .racing (progress.without name) here block _ _ later :=
      .racing inStage belongs own
    refine ⟨announced (toldWinners? (changed.without name) block) answer, ?_, ?_⟩
    · simpa only [without, both] using step
    · rcases texts with ⟨noTurn, rfl⟩ | ⟨asks, shorn⟩
      · rw [toldWinners?_of_ne noTurn, toldWinners?_of_ne noTurn]
        exact .same
      · exact .turn asks shorn both
  | lotto inStage => cases inStage

end Progress

end MissionScript
