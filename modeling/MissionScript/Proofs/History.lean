import Mathlib.Data.List.Induction
import MissionScript.Block
import MissionScript.Outcome

/-! Blocks handled one after the other. A block that fails does not end the sequence, so a history
notes of every block what it found, what it answered and what it left. -/
namespace MissionScript

/-- How blocks act on a model with a source of chance beside it. A block has no outcome when the
source runs out. -/
abbrev Handler (Model State : Type) : Type :=
  Model → Block → State → Option (Outcome (Model × State) String)

/-- A block that was handled. The source stood at `state` before it and stands at `after` since. -/
structure Deed (Model State : Type) where
  block : Block
  found : Model
  state : State
  answer : Except Fault String
  left : Model
  after : State

variable {Model State : Type} {handle : Handler Model State}

namespace Deed

/-- The block has the command, and it succeeded. -/
def did (command : Command) (deed : Deed Model State) : Bool :=
  deed.block.command = command && deed.answer.isOk

@[simp]
theorem did_ok (command : Command) (block : Block) (found left : Model) (state after : State)
    (text : String) : did command ⟨block, found, state, .ok text, left, after⟩ =
      decide (block.command = command) := by
  simp [did, Except.isOk, Except.toBool]

@[simp]
theorem did_error (command : Command) (block : Block) (found left : Model) (state after : State)
    (fault : Fault) : did command ⟨block, found, state, .error fault, left, after⟩ = false := by
  simp [did, Except.isOk, Except.toBool]

end Deed

/-- The last block with a command that succeeded. -/
def latest? (command : Command) (deeds : List (Deed Model State)) : Option (Deed Model State) :=
  (deeds.filter (·.did command)).getLast?

section Latest

variable {deeds : List (Deed Model State)} {block : Block} {found left : Model} {state after : State}

theorem latest?_done (asks : block.command = command) (text : String) :
    latest? command (deeds ++ [⟨block, found, state, .ok text, left, after⟩]) =
      some ⟨block, found, state, .ok text, left, after⟩ := by
  simp [latest?, List.filter_append, asks]

theorem latest?_failed (command : Command) (fault : Fault) :
    latest? command (deeds ++ [⟨block, found, state, .error fault, left, after⟩]) =
      latest? command deeds := by
  simp [latest?, List.filter_append]

theorem latest?_other (other : block.command ≠ command) (text : String) :
    latest? command (deeds ++ [⟨block, found, state, .ok text, left, after⟩]) =
      latest? command deeds := by
  simp [latest?, List.filter_append, other]

end Latest

/-- The blocks that were handled from a model and a state of the source on, and where they lead. -/
inductive History (handle : Handler Model State) (model : Model) (state : State) :
    List (Deed Model State) → Model → State → Prop where
  | start : History handle model state [] model state
  | after (past : History handle model state deeds found here)
      (handled : handle found block here = some ⟨answer, left, later⟩) :
      History handle model state (deeds ++ [⟨block, found, here, answer, left, later⟩]) left later

namespace History

/-- When every block has an outcome, so has every sequence of blocks. -/
theorem exists_of_total (total : ∀ model block state, (handle model block state).isSome)
    (model : Model) (state : State) (blocks : List Block) :
    ∃ deeds left later, History handle model state deeds left later ∧
      deeds.map (·.block) = blocks := by
  induction blocks using List.reverseRecOn with
  | nil => exact ⟨[], model, state, .start, rfl⟩
  | append_singleton blocks block ih =>
    obtain ⟨deeds, found, here, past, rfl⟩ := ih
    obtain ⟨⟨answer, left, later⟩, handled⟩ :=
      Option.isSome_iff_exists.mp (total found block here)
    exact ⟨_, left, later, .after past handled, by simp⟩

/-- What every block keeps, the one that fails too, holds in the end. -/
theorem keeps {model last : Model} (history : History handle model state deeds last final)
    (Holds : Model → Prop) (first : Holds model)
    (keeps : ∀ {found block here answer left later},
      handle found block here = some ⟨answer, left, later⟩ → Holds found → Holds left) :
    Holds last := by
  induction history with
  | start => exact first
  | after past handled ih => exact keeps handled ih

end History

end MissionScript
