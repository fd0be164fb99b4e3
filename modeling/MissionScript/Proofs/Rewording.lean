import MissionScript.Proofs.ReadBack
import MissionScript.Proofs.ZeroSign
import MissionScript.Run

/-! Scripts with some of their numbers written out. Commands ask an argument only for its number or
its text, and both are the same for a number and its text, but for the sign of a zero; so the run is
the same as well. -/
namespace MissionScript

open Decimal (written)

/-- The same argument, or the text of the number. -/
inductive Argument.Reworded : Argument → Argument → Prop
  | same (argument : Argument) : Reworded argument argument
  | written (value : Float) : Reworded (.number value) (.text (written value))

/-- The same block but for numbers written out among its arguments. -/
def Block.Reworded (block other : Block) : Prop :=
  ∃ arguments, List.Forall₂ Argument.Reworded block.arguments arguments ∧
    other = { block with arguments }

/-- The same script but for numbers written out among the arguments. -/
def Script.Reworded (script other : Script) : Prop :=
  List.Forall₂ Block.Reworded script.blocks other.blocks

namespace Argument.Reworded

variable {argument other : Argument}

private theorem number?_alike (reworded : argument.Reworded other) :
    Option.Rel Decimal.Alike argument.number? other.number? := by
  cases reworded with
  | same => exact Decimal.Alike.option_refl _
  | written value =>
    by_cases negative : value = -0.0
    · have number : (Argument.number (-0.0)).number? = some (-0.0) := by decide +kernel
      have text : (Argument.text (Decimal.written (-0.0))).number? = some 0.0 := by decide +kernel
      rw [negative, number, text]
      exact .some .negativeZero
    · rw [Argument.number?_written negative]
      exact Decimal.Alike.option_refl _

private theorem asText_eq (reworded : argument.Reworded other) : other.asText = argument.asText := by
  cases reworded <;> rfl

private theorem getElem? {arguments others : List Argument}
    (reworded : List.Forall₂ Argument.Reworded arguments others) (place : Nat) :
    Option.Rel Argument.Reworded arguments[place]? others[place]? := by
  induction reworded generalizing place with
  | nil => exact .none
  | cons first rest ih =>
    cases place with
    | zero => exact .some first
    | succ place => exact ih place

end Argument.Reworded

namespace Block.Reworded

variable {block other : Block}

private theorem domain_eq (reworded : block.Reworded other) : other.domain = block.domain := by
  obtain ⟨arguments, _, rfl⟩ := reworded
  rfl

private theorem command_eq (reworded : block.Reworded other) : other.command = block.command := by
  obtain ⟨arguments, _, rfl⟩ := reworded
  rfl

private theorem label_eq (reworded : block.Reworded other) : other.label = block.label := by
  obtain ⟨arguments, _, rfl⟩ := reworded
  rfl

private theorem argument (reworded : block.Reworded other) (place : Nat) :
    Option.Rel Argument.Reworded block.arguments[place]? other.arguments[place]? := by
  obtain ⟨arguments, reworded, rfl⟩ := reworded
  exact Argument.Reworded.getElem? reworded place

private theorem number?_alike (reworded : block.Reworded other) (place : Nat) :
    Option.Rel Decimal.Alike (block.number? place) (other.number? place) := by
  have argument := reworded.argument place
  unfold Block.number?
  generalize block.arguments[place]? = own, other.arguments[place]? = given at argument
  cases argument with
  | none => exact .none
  | some reworded => exact reworded.number?_alike

private theorem map_asText_eq (reworded : block.Reworded other) (place : Nat) :
    other.arguments[place]?.map Argument.asText = block.arguments[place]?.map Argument.asText := by
  have argument := reworded.argument place
  generalize block.arguments[place]? = own, other.arguments[place]? = given at argument
  cases argument with
  | none => rfl
  | some reworded => exact congrArg some reworded.asText_eq

private theorem text_eq (reworded : block.Reworded other) (place : Nat) :
    other.text place = block.text place :=
  congrArg (Option.getD · "") (reworded.map_asText_eq place)

end Block.Reworded

section Run

variable {block other : Block} {State : Type} (source : Chance.Source State)

private theorem Calculator.handle_reworded {first second : Calculator} (alike : first.Alike second)
    (reworded : block.Reworded other) :
    Outcome.Alike Alike (first.handle block) (second.handle other) := by
  have number := reworded.number?_alike 0
  simp only [handle, reworded.command_eq, reworded.label_eq]
  generalize block.number? 0 = own, other.number? 0 = given at number
  split
  · cases number with
    | none => exact ⟨rfl, alike⟩
    | some numbers => exact enter_alike alike numbers
  · split
    · exact ⟨rfl, alike⟩
    · exact await_alike alike _ _

private theorem Racing.Race.handle_reworded (reworded : block.Reworded other) (race : Race)
    (state : State) : race.handle source other state = race.handle source block state := by
  have entry : race.registerEntry other = race.registerEntry block := by
    have model := congrArg (Option.map Model.read) (reworded.map_asText_eq 1)
    simp only [Option.map_map, Function.comp_def] at model
    simp only [registerEntry, reworded.text_eq, model]
  have number := reworded.number?_alike 0
  simp only [handle, reworded.command_eq, reworded.text_eq, entry]
  generalize block.number? 0 = own, other.number? 0 = given at number
  cases number with
  | none => rfl
  | some alike => simp only [setUp, alike.natural?_eq]

private theorem Lotto.Lottery.handle_reworded (reworded : block.Reworded other) (lottery : Lottery)
    (state : State) : lottery.handle source other state = lottery.handle source block state := by
  have number := reworded.number?_alike 0
  simp only [handle, reworded.command_eq, reworded.text_eq]
  generalize block.number? 0 = own, other.number? 0 = given at number
  cases number with
  | none => rfl
  | some alike => simp only [buy, ticketCount, Option.bind_some, alike.natural?_eq]

namespace Progress

/-- The same progress but for the signs of zeros in the calculator. -/
structure CalculatesAlike (first second : Progress) : Prop where
  calculator : first.calculator.Alike second.calculator
  race : first.race = second.race
  lottery : first.lottery = second.lottery
  cleared : first.cleared = second.cleared

private theorem CalculatesAlike.refl (progress : Progress) : progress.CalculatesAlike progress :=
  ⟨⟨Decimal.Alike.option_refl _, rfl, rfl⟩, rfl, rfl, rfl⟩

/-- What a block and the same block reworded make of progress that is alike. -/
def AlikeAfter (first second : Option (Outcome (Progress × State) String)) : Prop :=
  Option.Rel (Outcome.Alike fun left right => left.1.CalculatesAlike right.1 ∧ left.2 = right.2)
    first second

variable {first second : Progress}

private theorem runCalculator_reworded (alike : first.CalculatesAlike second)
    (reworded : block.Reworded other) (state : State) :
    AlikeAfter (some (first.runCalculator block state))
      (some (second.runCalculator other state)) := by
  have handled := Calculator.handle_reworded alike.calculator reworded
  exact .some ⟨handled.answer, { alike with calculator := handled.state }, rfl⟩

private theorem runRacing_reworded (alike : first.CalculatesAlike second)
    (reworded : block.Reworded other) (state : State) :
    AlikeAfter (first.runRacing source block state) (second.runRacing source other state) := by
  unfold runRacing
  rw [reworded.command_eq, ← alike.race, Racing.Race.handle_reworded source reworded]
  cases first.race.handle source block state with
  | none => exact .none
  | some handled =>
    obtain ⟨answer, race, after⟩ := handled
    cases answer with
    | error fault => exact .some ⟨rfl, { alike with race := rfl }, rfl⟩
    | ok text =>
      simp only [Option.bind_eq_bind, Option.bind_some]
      split
      · exact .some ⟨rfl, { alike with race := rfl }, rfl⟩
      · exact .some ⟨rfl, { alike with race := rfl, cleared := rfl }, rfl⟩

private theorem runLotto_reworded (alike : first.CalculatesAlike second)
    (reworded : block.Reworded other) (state : State) :
    AlikeAfter (first.runLotto source block state) (second.runLotto source other state) := by
  unfold runLotto
  rw [reworded.command_eq, ← alike.lottery, Lotto.Lottery.handle_reworded source reworded]
  cases first.lottery.handle source block state with
  | none => exact .none
  | some handled =>
    obtain ⟨answer, lottery, after⟩ := handled
    cases answer with
    | error fault => exact .some ⟨rfl, { alike with lottery := rfl }, rfl⟩
    | ok text =>
      refine .some ⟨rfl, { alike with lottery := rfl, cleared := ?_ }, rfl⟩
      exact congrArg (· || _) alike.cleared

private theorem runBlock_reworded (alike : first.CalculatesAlike second)
    (reworded : block.Reworded other) (stage : Stage) (state : State) :
    AlikeAfter (runBlock source stage first block state)
      (runBlock source stage second other state) := by
  unfold runBlock
  rw [reworded.domain_eq, reworded.command_eq]
  split
  · exact .some ⟨rfl, alike, rfl⟩
  split
  · exact .some ⟨rfl, alike, rfl⟩
  split
  · exact .some ⟨rfl, alike, rfl⟩
  split
  · exact runCalculator_reworded alike reworded state
  · exact runRacing_reworded source alike reworded state
  · exact runLotto_reworded source alike reworded state
  · exact .some ⟨rfl, alike, rfl⟩

/-- Step by step the reworded blocks run to the same lines and the same chance. -/
theorem runBlocks_reworded {blocks others : List Block}
    (reworded : List.Forall₂ Block.Reworded blocks others) (stage : Stage)
    (alike : first.CalculatesAlike second) (state : State) :
    Option.Rel (fun left right => left.1 = right.1 ∧ Option.Rel CalculatesAlike left.2.1 right.2.1 ∧
        left.2.2 = right.2.2)
      (runBlocks source stage blocks first state) (runBlocks source stage others second state) := by
  induction reworded generalizing first second state with
  | nil => exact .some ⟨rfl, .some alike, rfl⟩
  | @cons block other blocks others same rest ih =>
    have step := runBlock_reworded source alike same stage state
    simp only [runBlocks, line, abortedLine, same.label_eq]
    generalize runBlock source stage first block state = own,
      runBlock source stage second other state = given at step
    cases step with
    | none => exact .none
    | @some one two step =>
      obtain ⟨answer, first, after⟩ := one
      obtain ⟨shown, second, _⟩ := two
      obtain ⟨answers, alike, rfl⟩ := step
      cases answer with
      | error fault =>
        cases shown with
        | error other =>
          have messages : fault.message = other.message := Except.error.inj answers
          simp only [Option.bind_eq_bind, Option.bind_some, messages]
          exact .some ⟨rfl, .none, rfl⟩
        | ok => cases answers
      | ok text =>
        cases shown with
        | error => cases answers
        | ok other =>
          obtain rfl : text = other := Except.ok.inj answers
          have further := ih alike after
          simp only [Option.bind_eq_bind, Option.bind_some]
          generalize runBlocks source stage blocks first after = own,
            runBlocks source stage others second after = given at further
          cases further with
          | none => exact .none
          | some further =>
            obtain ⟨lines, last, chance⟩ := further
            exact .some ⟨congrArg (_ :: ·) lines, last, chance⟩

private theorem CalculatesAlike.closingLines_eq (alike : first.CalculatesAlike second)
    (stage : Stage) :
    first.closingLines stage = second.closingLines stage := by
  obtain ⟨total, pending, _⟩ := alike.calculator
  have written : first.calculator.total.map Decimal.written =
      second.calculator.total.map Decimal.written := by
    generalize first.calculator.total = own, second.calculator.total = given at total
    cases total with
    | none => rfl
    | some same => exact congrArg some same.written_eq
  simp only [closingLines, pending, written]

private theorem CalculatesAlike.clears_eq (alike : first.CalculatesAlike second) (stage : Stage) :
    first.clears stage = second.clears stage := by
  simp only [clears, alike.cleared, alike.calculator.operations]

end Progress

end Run

namespace Script

/-- A number other than the negative zero and its text give the same number and the same text; and a
script runs to the same report, and leaves the same chance, with any of its numbers written out. -/
theorem run_reworded :
    (∀ value : Float, value ≠ -0.0 →
      (Argument.number value).number? = (Argument.text (written value)).number? ∧
        (Argument.number value).asText = (Argument.text (written value)).asText) ∧
    ∀ {State : Type} (source : Chance.Source State) (script other : Script), script.Reworded other →
      ∀ status time state,
        other.run source status time state = script.run source status time state := by
  refine ⟨fun value other => ⟨(Argument.number?_written other).symm, rfl⟩, ?_⟩
  intro State source script other reworded status time state
  have empty : other.blocks.isEmpty = script.blocks.isEmpty := by
    rw [Bool.eq_iff_iff, List.isEmpty_iff_length_eq_zero, List.isEmpty_iff_length_eq_zero,
      reworded.length_eq]
  have ran := Progress.runBlocks_reworded source reworded status.stage (.refl .start) state
  simp only [run, empty]
  split
  · rfl
  generalize Progress.runBlocks source status.stage script.blocks .start state = own,
    Progress.runBlocks source status.stage other.blocks .start state = given at ran
  cases ran with
  | none => rfl
  | @some one two ran =>
    obtain ⟨lines, last, after⟩ := one
    obtain ⟨_, end?, _⟩ := two
    obtain ⟨rfl, ends, rfl⟩ := ran
    cases ends with
    | none => rfl
    | some alike =>
      simp only [Option.bind_eq_bind, Option.bind_some, alike.closingLines_eq, alike.clears_eq]

/-- A tenth, the negative zero, and what is no number. -/
theorem run_reworded_tenth :
    let script : Script := ⟨[.bare .inputNumber [.number 0.1], .bare .multiply [],
      .bare .inputNumber [.number (-0.0)], .bare .inputNumber [.number (0.0 / 0.0)]]⟩
    let other : Script := ⟨[.bare .inputNumber [.text "0.1"], .bare .multiply [],
      .bare .inputNumber [.text "0"], .bare .inputNumber [.text "NaN"]]⟩
    (0.1 : Float) ≠ -0.0 ∧ (Argument.number 0.1).number? = (Argument.text "0.1").number? ∧
      script.Reworded other ∧
        other.run Chance.least .initial ⟨0, 0⟩ () = script.run Chance.least .initial ⟨0, 0⟩ () := by
  intro script other
  have tenth : written 0.1 = "0.1" := by decide +kernel
  have zero : written (-0.0) = "0" := by decide +kernel
  have unknown : written (0.0 / 0.0) = "NaN" := by decide +kernel
  have apart : (0.1 : Float) ≠ -0.0 := by decide +kernel
  have reworded : script.Reworded other :=
    .cons ⟨_, .cons (tenth ▸ .written 0.1) .nil, rfl⟩ <| .cons ⟨_, .nil, rfl⟩ <|
      .cons ⟨_, .cons (zero ▸ .written (-0.0)) .nil, rfl⟩ <|
        .cons ⟨_, .cons (unknown ▸ .written (0.0 / 0.0)) .nil, rfl⟩ .nil
  exact ⟨apart, tenth ▸ (run_reworded.1 0.1 apart).1, reworded,
    run_reworded.2 Chance.least script other reworded .initial ⟨0, 0⟩ ()⟩

end Script

end MissionScript
