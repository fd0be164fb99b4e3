import MissionScript.Proofs.FieldRecord
import MissionScript.Proofs.RunPair
import MissionScript.Proofs.UtilityRun

namespace MissionScript

namespace Chance

/-- A list of values played back in order, each moved into the range that is asked for. When the list
is spent, the low end of the range follows. -/
def padded : Source (List UInt32) where
  draw
    | low, high, value :: rest => some (max low (min value (max low high)), rest)
    | low, _, [] => some (low, [])
  fraction state := (0.0, state)

private theorem padded_endless : padded.Endless := by
  intro low high state
  cases state <;> rfl

private theorem padded_inRange : padded.InRange := by
  intro low high state fits value after drawn
  cases state with
  | nil =>
    obtain ⟨rfl, _⟩ := Prod.mk.inj (Option.some.inj drawn)
    exact ⟨UInt32.le_refl _, fits⟩
  | cons first rest =>
    obtain ⟨rfl, _⟩ := Prod.mk.inj (Option.some.inj drawn)
    exact moved_inRange fits first

private theorem Played.of_padded {values : List UInt32} (played : Played padded values draws after)
    (enough : draws.length ≤ values.length) :
    Played replay values draws (values.drop draws.length) := by
  induction played with
  | nil => exact .nil
  | @cons values middle draws after draw drawn rest ih =>
    cases values with
    | nil => cases enough
    | cons value values =>
      obtain ⟨_, rfl⟩ := Prod.mk.inj (Option.some.inj drawn)
      exact .cons drawn (ih (Nat.le_of_succ_le_succ enough))

private theorem Played.length_le {values : List UInt32} (played : Played replay values draws after) :
    draws.length ≤ values.length := by
  induction played with
  | nil => exact Nat.zero_le _
  | @cons values middle draws after draw drawn rest ih =>
    cases values with
    | nil => cases drawn
    | cons value values =>
      obtain ⟨_, rfl⟩ := Prod.mk.inj (Option.some.inj drawn)
      exact Nat.succ_le_succ ih

end Chance

open Chance (Recorded)

variable {State : Type} {source : Chance.Source State}

/-- How many tickets blocks buy that run. -/
def Lotto.bought (blocks : List Block) : Nat :=
  ((blocks.filter fun block => block.domain ≠ .utility ∧ block.command = .buyTickets).map
    fun block => (Lottery.purchase? block).getD 0).sum

namespace Progress

open Racing (Race drawersOf)
open Lotto (Lottery bought)

/-- How many draws blocks take that run in a stage. -/
def drawsOf (blocks : List Block) : Stage → Nat
  | .racing => (drawersOf [] blocks).length
  | .lotto => 6 * bought blocks
  | .calculator | .complete => 0

private theorem Ran.recorded_of_race {past : List Block} (told : Race.Told past progress.race)
    (ran : Ran source .racing progress state blocks texts last after) :
    Recorded (fun _ other here later => Ran other .racing progress here blocks texts last later)
      (drawersOf past blocks).length source state after := by
  induction ran generalizing past with
  | nil => exact .of_still fun _ _ _ => .nil
  | cons first rest ih =>
    have stepped := runBlock_eq_done_iff.mp first
    rw [drawersOf, List.length_append]
    exact (stepped.recorded_of_race told).andThen (ih (stepped.told told)) fun _ _ _ _ _ own later =>
      .cons own.runBlock_eq later

private theorem Ran.recorded_of_lottery
    (ran : Ran source .lotto progress state blocks texts last after) :
    Recorded (fun _ other here later => Ran other .lotto progress here blocks texts last later)
      (6 * bought blocks) source state after := by
  induction ran with
  | nil => exact .of_still fun _ _ _ => .nil
  | @cons progress block state text next middle blocks texts last after first rest ih =>
    cases runBlock_eq_done_iff.mp first with
    | utility utility =>
      have passed : bought (block :: blocks) = bought blocks := by simp [bought, utility]
      rw [passed]
      exact ih.imp fun _ _ _ _ later => .cons (Stepped.utility utility).runBlock_eq later
    | calculator inStage => cases inStage
    | racing inStage => cases inStage
    | lotto inStage belongs handled =>
      have counted : 6 * bought (block :: blocks) = Lottery.drawCount block + 6 * bought blocks := by
        by_cases buys : block.command = .buyTickets
        · simp [bought, Lottery.drawCount, Lotto.size, belongs.1, buys, Nat.mul_add]
        · simp [bought, Lottery.drawCount, buys]
      rw [counted]
      exact handled.recorded.andThen ih fun _ _ _ _ _ again later =>
        .cons (Stepped.lotto inStage belongs again).runBlock_eq later

private theorem Ran.recorded_of_still (noRace : stage ≠ .racing) (noLottery : stage ≠ .lotto)
    (ran : Ran source stage progress state blocks texts last after) :
    Recorded (fun _ other here later => Ran other stage progress here blocks texts last later) 0
      source state after := by
  induction ran with
  | nil => exact .of_still fun _ _ _ => .nil
  | cons first rest ih =>
    cases runBlock_eq_done_iff.mp first with
    | utility utility =>
      exact ih.imp fun _ _ _ _ later => .cons (Stepped.utility utility).runBlock_eq later
    | calculator inStage belongs handled =>
      exact ih.imp fun _ _ _ _ later =>
        .cons (Stepped.calculator inStage belongs handled).runBlock_eq later
    | racing inStage => exact absurd inStage noRace
    | lotto inStage => exact absurd inStage noLottery

theorem Ran.recorded (ran : Ran source stage .start state blocks texts last after) :
    Recorded (fun _ other here later => Ran other stage .start here blocks texts last later)
      (drawsOf blocks stage) source state after := by
  cases stage with
  | racing => exact ran.recorded_of_race Race.told_empty
  | lotto => exact ran.recorded_of_lottery
  | calculator | complete => exact ran.recorded_of_still (by decide) (by decide)

/-- The blocks that run in a script: all of them, or those before the one that fails. -/
inductive Executed (source : Chance.Source State) (stage : Stage) (blocks : List Block)
    (state : State) : List Block → Prop where
  | all (ran : Ran source stage .start state blocks texts last after) :
      Executed source stage blocks state blocks
  | aborted (fails : FailsAt source stage blocks state place fault) :
      Executed source stage blocks state (blocks.take place)

private theorem Executed.inStep {Other : Type} {other : Chance.Source Other}
    {Beside : State → Other → Prop}
    {here : State} {there : Other} (inStep : source.InStep other Beside)
    (inRange : other.InRange ∨ stage ≠ .lotto) (beside : Beside here there)
    (executed : Executed source stage blocks here early) :
    Executed other stage blocks there early := by
  cases executed with
  | all ran =>
    obtain ⟨_, _, _, again, _⟩ := ran.inStep inStep inRange beside (.refl _)
    exact .all again
  | aborted fails => exact .aborted (fails.inStep inStep inRange beside)

/-- A run fails at one block at most, and then it does not come to its end. -/
theorem Executed.unique (executed : Executed source stage blocks state early)
    (other : Executed source stage blocks state others) : early = others := by
  have first {place later : Nat} {fault found : Fault}
      (fails : FailsAt source stage blocks state place fault)
      (again : FailsAt source stage blocks state later found) : later ≤ place := by
    refine Nat.le_of_not_lt fun before => ?_
    obtain ⟨block, texts, reached, after, present, _, ran, _⟩ := again.split
    have inside : place < (blocks.take later).length := by
      have within := (List.getElem?_eq_some_iff.mp present).1
      rw [List.length_take]
      omega
    have quiet : ¬ FailsAt source stage (blocks.take later ++ blocks.drop later) state place fault :=
      ran.not_failsAt _ inside
    rw [List.take_append_drop] at quiet
    exact quiet fails
  cases executed with
  | all ran =>
    cases other with
    | all => rfl
    | aborted fails => exact absurd fails ran.unfailing
  | aborted fails =>
    cases other with
    | all ran => exact absurd fails ran.unfailing
    | aborted again => rw [Nat.le_antisymm (first again fails) (first fails again)]

end Progress

namespace Script

open Progress

/-- The draws of a run are those of the blocks that run in it. -/
theorem run_recorded {script : Script}
    (ran : script.run source status time state = some (report, after)) :
    ∃ executed, Executed source status.stage script.blocks state executed ∧
      Recorded (fun _ other here later => script.run other status time here = some (report, later))
        (drawsOf executed status.stage) source state after := by
  by_cases nonempty : script.blocks = []
  · have still (Other : Type) (other : Chance.Source Other) (here : Other) :
        script.run other status time here = some (⟨[emptyScriptLine], status, time⟩, here) := by
      simp [run, nonempty]
    obtain ⟨rfl, rfl⟩ := Prod.mk.inj (Option.some.inj (ran.symm.trans (still _ source state)))
    have none : drawsOf [] status.stage = 0 := by cases status.stage <;> rfl
    refine ⟨[], ?_, ?_⟩
    · rw [nonempty]
      exact .all .nil
    · rw [none]
      exact .of_still still
  obtain ⟨lines, told, moment⟩ := report
  obtain ⟨rfl, ⟨texts, last, trace, rfl, rfl⟩ |
    ⟨before, block, rest, texts, reached, fault, split, trace, rejected, rfl, rfl⟩⟩ :=
    course_of_run nonempty ran
  · exact ⟨script.blocks, .all trace,
      trace.recorded.imp fun _ _ _ _ again => again.run_eq nonempty _⟩
  · obtain ⟨blocks⟩ := script
    obtain rfl : blocks = before ++ block :: rest := split
    have fails := failsAt_of_rejected trace rejected rest
    have executed := Executed.aborted fails
    rw [List.take_left] at executed
    exact ⟨before, executed,
      trace.recorded.imp fun _ _ _ _ again => run_of_rejected again rejected rest _⟩

/-- How many draws a run takes. The blocks that run are the same with every source, and their draws
are all that a run asks for: in a race, each turn of the plan asks for one from every car that is
registered by then and that no failure has named since the turn before it; in a lottery, each ticket
asks for six; and nothing else asks for any. A list that is played back lasts exactly if it holds as
many values. -/
theorem run_draws (script : Script) (status : Status) (time : Timestamp) :
    ∃ executed,
      (∀ {State : Type} (source : Chance.Source State) (state : State) report after draws,
        script.run source.counting status time (state, 0) = some (report, after, draws) →
        draws = drawsOf executed status.stage ∧
          Executed source status.stage script.blocks state executed) ∧
      (∀ {State : Type} (source : Chance.Source State), source.Endless → source.InRange →
        ∀ state, ∃ report after, script.run source.counting status time (state, 0) =
          some (report, after, drawsOf executed status.stage)) ∧
      ∀ values, (script.run Chance.replay status time values).isSome ↔
        drawsOf executed status.stage ≤ values.length := by
  have total {State : Type} {source : Chance.Source State} (endless : source.Endless)
      (inRange : source.InRange) (state : State) :
      ∃ report after, script.run source status time state = some (report, after) := by
    obtain ⟨⟨report, after⟩, ran⟩ :=
      Option.isSome_iff_exists.mp (run_isSome endless (.inl inRange) script time state)
    exact ⟨report, after, ran⟩
  obtain ⟨_, _, once⟩ := total Chance.least_endless Chance.least_inRange ()
  obtain ⟨executed, own, _⟩ := run_recorded once
  -- Whatever the source, a run that ends has these blocks and these draws.
  have alike {State : Type} {source : Chance.Source State} {state : State} {report after}
      (ran : script.run source status time state = some (report, after)) :
      Executed source status.stage script.blocks state executed ∧
        Recorded (fun _ other here later => script.run other status time here = some (report, later))
          (drawsOf executed status.stage) source state after := by
    obtain ⟨others, there, recorded⟩ := run_recorded ran
    obtain rfl := own.unique
      (there.inStep Chance.least_endless.inStep (.inl Chance.least_inRange) trivial)
    exact ⟨there, recorded⟩
  have counted {State : Type} {source : Chance.Source State} {state : State} {report after draws}
      (ran : script.run source.counting status time (state, 0) = some (report, after, draws)) :
      draws = drawsOf executed status.stage := by
    obtain ⟨_, _, length, followed⟩ := alike (run_of_counting ran)
    have same :=
      ran.symm.trans (followed.anywhere _ source.counting _ _ (followed.played.counting 0))
    rw [length, Nat.zero_add] at same
    exact (Prod.mk.inj (Prod.mk.inj (Option.some.inj same)).2).2
  refine ⟨executed, ?_, ?_, ?_⟩
  · intro State source state report after draws ran
    exact ⟨counted ran, (alike (run_of_counting ran)).1⟩
  · intro State source endless inRange state
    obtain ⟨report, ⟨after, draws⟩, ran⟩ := total endless.counting inRange.counting (state, 0)
    exact ⟨report, after, counted ran ▸ ran⟩
  · intro values
    constructor
    · intro lasts
      obtain ⟨⟨report, after⟩, ran⟩ := Option.isSome_iff_exists.mp lasts
      obtain ⟨_, draws, length, followed⟩ := alike ran
      exact length ▸ followed.played.length_le
    · intro enough
      obtain ⟨report, after, ran⟩ := total Chance.padded_endless Chance.padded_inRange values
      obtain ⟨_, draws, length, followed⟩ := alike ran
      rw [followed.anywhere _ _ _ _ (followed.played.of_padded (length ▸ enough))]
      rfl

/-- One of two cars is broken in the first turn, both draw in the second, and none draws when the race
is over. -/
theorem run_draws_stalled :
    let script : Script := ⟨[.bare .setUpRace [.number 2],
      .bare .selectCar [.text "pobi", .text "소나타"],
      .bare .selectCar [.text "jun", .text "제네시스"], .bare .failure [.text "jun"],
      .bare .runTurn [], .bare .runTurn [], .bare .runTurn []]⟩
    drawsOf script.blocks .racing = 3 ∧
      (∃ report, script.run Chance.least.counting ⟨.racing, false, ""⟩ ⟨0, 0⟩ ((), 0) =
        some (report, (), 3)) ∧
      (script.run Chance.replay ⟨.racing, false, ""⟩ ⟨0, 0⟩ [9, 0, 5]).isSome ∧
      script.run Chance.replay ⟨.racing, false, ""⟩ ⟨0, 0⟩ [9, 0] = none := by
  intro script
  obtain ⟨executed, counted, total, lasts⟩ := run_draws script ⟨.racing, false, ""⟩ ⟨0, 0⟩
  obtain ⟨report, _, ran⟩ := total Chance.least Chance.least_endless Chance.least_inRange ()
  have three : (script.run Chance.least.counting ⟨.racing, false, ""⟩ ⟨0, 0⟩ ((), 0)).map (·.2.2) =
      some 3 := by decide +kernel
  rw [ran] at three
  have draws : drawsOf executed .racing = 3 := Option.some.inj three
  rw [draws] at ran lasts
  refine ⟨by decide +kernel, ⟨report, ran⟩, (lasts _).mpr (by decide), ?_⟩
  exact Option.not_isSome_iff_eq_none.mp (mt (lasts _).mp (by decide))

end Script

end MissionScript
