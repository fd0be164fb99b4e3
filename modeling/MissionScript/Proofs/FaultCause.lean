import MissionScript.Proofs.BlockStep

/-! What the fault of a run tells. A block out of place is told by the two mismatches and by nothing
else; every other fault is a rule that was not kept or, in a race, a car that is not there. -/
namespace MissionScript

/-- The fault tells that a block is out of place: in the mission of another domain, or under a
domain that does not own its command. -/
def Fault.isMismatch : Fault → Bool
  | stageMismatch .. | commandMismatch .. => true
  | validation _ | carNotFound _ | infrastructure _ => false

/-- The block declares the domain of the stage and carries a command of it. -/
def Block.InPlace (block : Block) (stage : Stage) : Prop :=
  stage.domain? = some block.domain ∧ block.command.domain = block.domain

private theorem Operator.ofCommand?_isSome {command : Command} (owned : command.domain = .calculator)
    (other : command ≠ .inputNumber) : ∃ operator, ofCommand? command = some operator := by
  cases command <;> simp_all [ofCommand?, Command.domain]

private theorem Operator.fault_of_apply {operator : Operator}
    (refused : operator.apply left right = .error fault) :
    fault = .validation .divisionByZero := by
  cases operator with
  | add | subtract | multiply => cases refused
  | divide =>
    simp only [apply] at refused
    split at refused
    · exact (Except.error.inj refused).symm
    · cases refused

/-- A calculator fails on a block of its own only for a rule that was not kept. -/
theorem Calculator.validation_of_failed {calculator : Calculator}
    (owned : block.command.domain = .calculator)
    (failed : calculator.handle block = .failed fault next) :
    ∃ violation, fault = .validation violation := by
  have told {violation} {left : Calculator}
      (refused : (.refused violation left : Outcome Calculator String) = .failed fault next) :
      ∃ violation, fault = .validation violation := by
    obtain ⟨rfl, _⟩ : .validation violation = fault ∧ left = next := by
      simpa [Outcome.refused, Outcome.failed] using refused
    exact ⟨violation, rfl⟩
  unfold handle at failed
  split at failed
  · split at failed
    · exact told failed
    · unfold enter at failed
      split at failed
      · simp [Outcome.done, Outcome.failed] at failed
      · exact told failed
      · dsimp only at failed
        split at failed
        · rename_i refused
          obtain ⟨rfl, _⟩ : _ = fault ∧ _ = next := by simpa [Outcome.failed] using failed
          exact ⟨_, Operator.fault_of_apply refused⟩
        · simp [Outcome.done, Outcome.failed] at failed
  · rename_i noNumber
    obtain ⟨operator, known⟩ := Operator.ofCommand?_isSome owned noNumber
    rw [known] at failed
    dsimp only at failed
    unfold await at failed
    split at failed
    · exact told failed
    · exact told failed
    · simp [Outcome.done, Outcome.failed] at failed

namespace Progress

variable {stage : Stage}

/-- What a fault tells of the block at which it ends a run. -/
inductive Cause (stage : Stage) (block : Block) : Fault → Prop where
  | foreign (declared : block.domain ≠ .utility) (other : stage.domain? ≠ some block.domain) :
      Cause stage block (.stageMismatch stage block.domain)
  | mismatched (declared : block.domain ≠ .utility) (inStage : stage.domain? = some block.domain)
      (other : block.command.domain ≠ block.domain) :
      Cause stage block (.commandMismatch block.command block.domain)
  | rule (inPlace : block.InPlace stage) (violation : Violation) :
      Cause stage block (.validation violation)
  | absent (inStage : stage = .racing) (belongs : block.Belongs .racing) :
      Cause stage block (.carNotFound (block.text 0))

theorem inPlace_of_belongs {block : Block} {domain : Domain} (inStage : stage.domain? = some domain)
    (belongs : block.Belongs domain) : block.InPlace stage :=
  ⟨belongs.1 ▸ inStage, belongs.2.trans belongs.1.symm⟩

theorem Rejected.cause {progress : Progress} {block : Block}
    (rejected : Rejected stage progress block fault) : Cause stage block fault := by
  cases rejected with
  | stage declared other => exact .foreign declared other
  | command declared inStage other => exact .mismatched declared inStage other
  | calculator inStage belongs failed =>
    obtain ⟨violation, rfl⟩ := Calculator.validation_of_failed belongs.2 failed
    exact .rule (inPlace_of_belongs (by rw [inStage]; rfl) belongs) violation
  | racing inStage belongs refused =>
    have inPlace : block.InPlace stage := inPlace_of_belongs (by rw [inStage]; rfl) belongs
    cases refused with
    | event asks absent => exact .absent inStage belongs
    | foreign other => exact absurd belongs.2 other
    | setUp | entry | taken | long | turn => exact .rule inPlace _
  | lotto inStage belongs refused =>
    have inPlace : block.InPlace stage := inPlace_of_belongs (by rw [inStage]; rfl) belongs
    cases refused with
    | foreign other => exact absurd belongs.2 other
    | count | tooMany | winning | bonus | noTickets | undrawn => exact .rule inPlace _

/-- A block in its place is never told to be out of place. -/
theorem Cause.isMismatch_eq_false {block : Block} (cause : Cause stage block fault)
    (inPlace : block.InPlace stage) : fault.isMismatch = false := by
  cases cause with
  | foreign declared other => exact absurd inPlace.1 other
  | mismatched declared inStage other => exact absurd inPlace.2 other
  | rule | absent => rfl

/-- What a fault that ends a run tells of its block: of which kind the block is out of place, or else
which kinds of fault are left for it. -/
structure TellsOf (stage : Stage) (block : Block) (fault : Fault) : Prop where
  command : (∃ command domain, fault = .commandMismatch command domain) ↔
    stage.domain? = some block.domain ∧ block.command.domain ≠ block.domain
  domain : (∃ mission domain, fault = .stageMismatch mission domain) ↔
    block.domain ≠ .utility ∧ stage.domain? ≠ some block.domain
  car : ∀ name, fault = .carNotFound name → stage = .racing
  outside : ∀ message, fault ≠ .infrastructure message

theorem Cause.tellsOf {block : Block} (cause : Cause stage block fault) :
    TellsOf stage block fault := by
  cases cause with
  | foreign declared other =>
    refine ⟨iff_of_false nofun fun own => other own.1, ?_, nofun, nofun⟩
    exact iff_of_true ⟨_, _, rfl⟩ ⟨declared, other⟩
  | mismatched declared inStage other =>
    refine ⟨iff_of_true ⟨_, _, rfl⟩ ⟨inStage, other⟩, ?_, nofun, nofun⟩
    exact iff_of_false nofun fun own => own.2 inStage
  | rule inPlace violation =>
    refine ⟨iff_of_false nofun fun own => own.2 inPlace.2, ?_, nofun, nofun⟩
    exact iff_of_false nofun fun own => own.2 inPlace.1
  | absent inStage belongs =>
    have inPlace : block.InPlace stage := inPlace_of_belongs (by rw [inStage]; rfl) belongs
    refine ⟨iff_of_false nofun fun own => own.2 inPlace.2, ?_, fun _ _ => inStage, nofun⟩
    exact iff_of_false nofun fun own => own.2 inPlace.1

end Progress

end MissionScript
