import MissionScript.Proofs.LottoScript
import MissionScript.Proofs.RaceScript
import MissionScript.Proofs.Refusal

/-! What a block can do in a run. A block that runs does one of four things, a block that fails has
one of five reasons, and a failure leaves the progress and the source as they were. -/
namespace MissionScript.Progress

open Racing (Race)
open Lotto (Lottery)

variable {State : Type} {source : Chance.Source State} {stage : Stage}

/-- How a stage takes a block: without a look at its command, not at all, or as one of its own. -/
inductive Admission (stage : Stage) (block : Block) : Prop where
  | utility (utility : block.domain = .utility)
  | foreign (declared : block.domain ≠ .utility) (other : stage.domain? ≠ some block.domain)
  | mismatched (declared : block.domain ≠ .utility) (inStage : stage.domain? = some block.domain)
      (other : block.command.domain ≠ block.domain)
  | calculator (inStage : stage = .calculator) (belongs : block.Belongs .calculator)
  | racing (inStage : stage = .racing) (belongs : block.Belongs .racing)
  | lotto (inStage : stage = .lotto) (belongs : block.Belongs .lotto)

theorem admission (stage : Stage) (block : Block) : Admission stage block := by
  by_cases inStage : stage.domain? = some block.domain
  · by_cases owned : block.command.domain = block.domain
    · cases declared : block.domain with
      | calculator =>
        refine .calculator ?_ ⟨declared, owned.trans declared⟩
        cases stage <;> simp_all [Stage.domain?]
      | racing =>
        refine .racing ?_ ⟨declared, owned.trans declared⟩
        cases stage <;> simp_all [Stage.domain?]
      | lotto =>
        refine .lotto ?_ ⟨declared, owned.trans declared⟩
        cases stage <;> simp_all [Stage.domain?]
      | utility => exact .utility declared
    · by_cases utility : block.domain = .utility
      · exact .utility utility
      · exact .mismatched utility inStage owned
  · by_cases utility : block.domain = .utility
    · exact .utility utility
    · exact .foreign utility inStage

/-- The winners that a block names: those after a turn, once the race is finished. -/
def toldWinners? (race : Race) (block : Block) : Option (List String) :=
  race.winners?.filter fun _ => block.command = .runTurn

/-- A text with the winners behind it, if there are any to name. -/
def announced (winners? : Option (List String)) (text : String) : String :=
  match winners? with
  | none => text
  | some winners => text ++ "\n[WINNERS]: " ++ ", ".intercalate winners

/-- What a block that runs makes of the progress. -/
inductive Stepped (source : Chance.Source State) (stage : Stage) (progress : Progress)
    (state : State) (block : Block) : String → Progress → State → Prop where
  | utility (utility : block.domain = .utility) :
      Stepped source stage progress state block "" progress state
  | calculator (inStage : stage = .calculator) (belongs : block.Belongs .calculator)
      (handled : progress.calculator.handle block = .done text changed) :
      Stepped source stage progress state block text { progress with calculator := changed } state
  | racing (inStage : stage = .racing) (belongs : block.Belongs .racing)
      (handled : Race.Handled source progress.race state block text changed after) :
      Stepped source stage progress state block (announced (toldWinners? changed block) text)
        { progress with
          race := changed, cleared := progress.cleared || (toldWinners? changed block).isSome }
        after
  | lotto (inStage : stage = .lotto) (belongs : block.Belongs .lotto)
      (handled : Lottery.Handled source progress.lottery state block text changed after) :
      Stepped source stage progress state block text
        { progress with
          lottery := changed, cleared := progress.cleared || block.command = .checkResult }
        after

/-- Why a run ends at a block, and the fault that it meets. -/
inductive Rejected (stage : Stage) (progress : Progress) (block : Block) : Fault → Prop where
  | stage (declared : block.domain ≠ .utility) (other : stage.domain? ≠ some block.domain) :
      Rejected stage progress block (.stageMismatch stage block.domain)
  | command (declared : block.domain ≠ .utility) (inStage : stage.domain? = some block.domain)
      (other : block.command.domain ≠ block.domain) :
      Rejected stage progress block (.commandMismatch block.command block.domain)
  | calculator (inStage : stage = .calculator) (belongs : block.Belongs .calculator)
      (failed : progress.calculator.handle block = .failed fault progress.calculator) :
      Rejected stage progress block fault
  | racing (inStage : stage = .racing) (belongs : block.Belongs .racing)
      (refused : progress.race.Refused block fault) : Rejected stage progress block fault
  | lotto (inStage : stage = .lotto) (belongs : block.Belongs .lotto)
      (refused : progress.lottery.Refused block fault) : Rejected stage progress block fault

theorem runRacing_eq {progress : Progress} {block : Block} {changed : Race}
    (handled : Race.Handled source progress.race state block text changed after) :
    progress.runRacing source block state =
      some (.done (announced (toldWinners? changed block) text)
        ({ progress with
            race := changed, cleared := progress.cleared || (toldWinners? changed block).isSome },
          after)) := by
  unfold runRacing toldWinners?
  rw [handled.done]
  dsimp only [Option.bind_eq_bind, Option.bind_some, Outcome.done]
  split
  · rename_i quiet
    simp [quiet, announced]
  · rename_i winners told
    simp [told, announced]

theorem Stepped.runBlock_eq {progress : Progress}
    (stepped : Stepped source stage progress state block text next after) :
    runBlock source stage progress block state = some (.done text (next, after)) := by
  cases stepped with
  | utility utility => exact runBlock_utility utility _ _
  | calculator inStage belongs handled =>
    rw [inStage, runBlock_calculator belongs, runCalculator, handled]
    rfl
  | racing inStage belongs handled => rw [inStage, runBlock_racing belongs, runRacing_eq handled]
  | lotto inStage belongs handled =>
    rw [inStage, runBlock_lotto belongs, runLotto, handled.done]
    rfl

theorem Rejected.runBlock_eq {progress : Progress} {block : Block}
    (rejected : Rejected stage progress block fault) (source : Chance.Source State) (state : State) :
    runBlock source stage progress block state = some (.failed fault (progress, state)) := by
  cases rejected with
  | stage declared other => simp only [runBlock, if_neg declared, if_pos other]
  | command declared inStage other =>
    simp [runBlock, declared, inStage, other]
  | calculator inStage belongs failed =>
    rw [inStage, runBlock_calculator belongs, runCalculator, failed]
    rfl
  | racing inStage belongs refused =>
    rw [inStage, runBlock_racing belongs, runRacing, refused.handle_eq]
    rfl
  | lotto inStage belongs refused =>
    rw [inStage, runBlock_lotto belongs, runLotto, refused.handle_eq]
    rfl

/-- A block runs or is rejected, unless the source runs out. -/
theorem stepped_or_rejected (source : Chance.Source State) (stage : Stage) (progress : Progress)
    (block : Block) (state : State) :
    runBlock source stage progress block state = none ∨
      (∃ text next after, Stepped source stage progress state block text next after) ∨
      ∃ fault, Rejected stage progress block fault := by
  cases admission stage block with
  | utility utility => exact .inr (.inl ⟨_, _, _, .utility utility⟩)
  | foreign declared other => exact .inr (.inr ⟨_, .stage declared other⟩)
  | mismatched declared inStage other => exact .inr (.inr ⟨_, .command declared inStage other⟩)
  | calculator inStage belongs =>
    rcases handled : progress.calculator.handle block with ⟨answer, calculator⟩
    cases answer with
    | ok text => exact .inr (.inl ⟨text, _, _, .calculator inStage belongs handled⟩)
    | error fault =>
      obtain rfl := Calculator.unchanged_of_failed handled
      exact .inr (.inr ⟨_, .calculator inStage belongs handled⟩)
  | racing inStage belongs =>
    rcases Race.handled_or_refused progress.race block source state with
      out | ⟨text, race, after, handled⟩ | ⟨fault, refused⟩
    · refine .inl ?_
      rw [inStage, runBlock_racing belongs, runRacing, out]
      rfl
    · exact .inr (.inl ⟨_, _, _, .racing inStage belongs handled⟩)
    · exact .inr (.inr ⟨_, .racing inStage belongs refused⟩)
  | lotto inStage belongs =>
    rcases Lottery.handled_or_refused progress.lottery block source state with
      out | ⟨text, lottery, after, handled⟩ | ⟨fault, refused⟩
    · refine .inl ?_
      rw [inStage, runBlock_lotto belongs, runLotto, out]
      rfl
    · exact .inr (.inl ⟨_, _, _, .lotto inStage belongs handled⟩)
    · exact .inr (.inr ⟨_, .lotto inStage belongs refused⟩)

/-- A block runs exactly by one of the four steps. -/
theorem runBlock_eq_done_iff {progress : Progress} :
    runBlock source stage progress block state = some (.done text (next, after)) ↔
      Stepped source stage progress state block text next after := by
  constructor
  · intro ran
    rcases stepped_or_rejected source stage progress block state with
      out | ⟨answer, changed, later, stepped⟩ | ⟨fault, rejected⟩
    · simp [out] at ran
    · rw [stepped.runBlock_eq] at ran
      obtain ⟨rfl, rfl, rfl⟩ := Outcome.some_done_inj.mp ran
      exact stepped
    · simp [rejected.runBlock_eq, Outcome.done, Outcome.failed] at ran
  · exact Stepped.runBlock_eq

/-- A block fails exactly for one of the five reasons, and then nothing is changed or drawn. -/
theorem runBlock_eq_failed_iff {progress : Progress} :
    runBlock source stage progress block state = some (.failed fault (next, after)) ↔
      Rejected stage progress block fault ∧ next = progress ∧ after = state := by
  constructor
  · intro failed
    rcases stepped_or_rejected source stage progress block state with
      out | ⟨text, changed, later, stepped⟩ | ⟨found, rejected⟩
    · simp [out] at failed
    · simp [stepped.runBlock_eq, Outcome.done, Outcome.failed] at failed
    · rw [rejected.runBlock_eq] at failed
      obtain ⟨rfl, rfl, rfl⟩ : found = fault ∧ progress = next ∧ state = after := by
        simpa [Outcome.failed] using failed
      exact ⟨rejected, rfl, rfl⟩
  · rintro ⟨rejected, rfl, rfl⟩
    exact rejected.runBlock_eq source after

/-- A source that never runs out gives every block an outcome. Only tickets ask for draws that keep
to their ranges. -/
theorem runBlock_isSome (endless : source.Endless) (inRange : source.InRange ∨ stage ≠ .lotto)
    (progress : Progress) (block : Block) (state : State) :
    (runBlock source stage progress block state).isSome := by
  cases admission stage block with
  | utility utility => simp [runBlock_utility utility]
  | foreign declared other => simp [(Rejected.stage declared other).runBlock_eq]
  | mismatched declared inStage other => simp [(Rejected.command declared inStage other).runBlock_eq]
  | calculator inStage belongs => simp [inStage, runBlock_calculator belongs]
  | racing inStage belongs =>
    rw [inStage, runBlock_racing belongs]
    exact runRacing_isSome endless progress block state
  | lotto inStage belongs =>
    rw [inStage, runBlock_lotto belongs]
    exact runLotto_isSome endless (inRange.resolve_right (not_not_intro inStage)) progress block state

end MissionScript.Progress
