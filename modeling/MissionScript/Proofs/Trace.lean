import MissionScript.Run

/-! Runs as traces. A run that no fault ends is a chain of blocks, each of which answers a text and
hands its progress on; the report of the run is read off that chain. -/
namespace MissionScript

/-- The block declares a domain, and its command belongs to it. -/
def Block.Belongs (block : Block) (domain : Domain) : Prop :=
  block.domain = domain ∧ block.command.domain = domain

instance (block : Block) (domain : Domain) : Decidable (block.Belongs domain) :=
  inferInstanceAs (Decidable (_ ∧ _))

theorem insertIdx_append {Entry : Type} (front : List Entry) (entry : Entry) (back : List Entry) :
    (front ++ back).insertIdx front.length entry = front ++ entry :: back := by
  induction front with
  | nil => rfl
  | cons first front ih => exact congrArg (first :: ·) ih

namespace Progress

variable {State : Type} {source : Chance.Source State} {stage : Stage}

theorem runBlock_utility (utility : block.domain = .utility) (progress : Progress) (state : State) :
    runBlock source stage progress block state = some (.done "" (progress, state)) := by
  simp [runBlock, utility]

theorem runBlock_calculator (belongs : block.Belongs .calculator) (progress : Progress)
    (state : State) : runBlock source .calculator progress block state =
      some (progress.runCalculator block state) := by
  simp [runBlock, belongs.1, belongs.2, Stage.domain?]

theorem runBlock_racing (belongs : block.Belongs .racing) (progress : Progress) (state : State) :
    runBlock source .racing progress block state = progress.runRacing source block state := by
  simp [runBlock, belongs.1, belongs.2, Stage.domain?]

theorem runBlock_lotto (belongs : block.Belongs .lotto) (progress : Progress) (state : State) :
    runBlock source .lotto progress block state = progress.runLotto source block state := by
  simp [runBlock, belongs.1, belongs.2, Stage.domain?]

/-- Blocks that run one after the other without a fault, with the text of each. -/
inductive Ran (source : Chance.Source State) (stage : Stage) :
    Progress → State → List Block → List String → Progress → State → Prop where
  | nil : Ran source stage progress state [] [] progress state
  | cons (first : runBlock source stage progress block state = some (.done text (next, middle)))
      (rest : Ran source stage next middle blocks texts last after) :
      Ran source stage progress state (block :: blocks) (text :: texts) last after

/-- A trace runs to its end and answers the lines of its blocks. -/
theorem Ran.runBlocks_eq (ran : Ran source stage progress state blocks texts last after) :
    runBlocks source stage blocks progress state =
      some (List.zipWith line blocks texts, some last, after) := by
  induction ran with
  | nil => rfl
  | cons first rest ih => simp [runBlocks, first, ih, Outcome.done]

/-- When every block gives an outcome, the run is a trace to its end or ends at a fault. -/
theorem ran_or_fault {blocks : List Block} (total : ∀ block ∈ blocks, ∀ progress state,
      (runBlock source stage progress block state).isSome) (progress : Progress) (state : State) :
    (∃ texts last after, Ran source stage progress state blocks texts last after) ∨
      ∃ lines after, runBlocks source stage blocks progress state = some (lines, none, after) := by
  induction blocks generalizing progress state with
  | nil => exact .inl ⟨[], progress, state, .nil⟩
  | cons block blocks ih =>
    have rest := ih fun later member => total later (List.mem_cons_of_mem _ member)
    obtain ⟨⟨answer, next, middle⟩, first⟩ :=
      Option.isSome_iff_exists.mp (total block (List.mem_cons_self ..) progress state)
    cases answer with
    | error fault =>
      exact .inr ⟨[abortedLine block fault], middle, by simp [runBlocks, first]⟩
    | ok text =>
      rcases rest next middle with ⟨texts, last, after, ran⟩ | ⟨lines, after, stopped⟩
      · exact .inl ⟨text :: texts, last, after, .cons first ran⟩
      · exact .inr ⟨line block text :: lines, after, by simp [runBlocks, first, stopped]⟩

end Progress

/-- The report tells of a fault. No run that comes to its end leaves this message. -/
def Report.Aborted (report : Report) : Prop := report.status.message = Status.failureMessage

instance (report : Report) : Decidable report.Aborted := inferInstanceAs (Decidable (_ = _))

theorem Status.afterRun_message_ne (status : Status) (cleared : Bool) :
    (status.afterRun cleared).message ≠ failureMessage := by
  have clearedApart (stage : Stage) : stage.clearedMessage? ≠ some failureMessage := by
    cases stage <;> decide +kernel
  have finishedApart (stage : Stage) : stage.finishedMessage ≠ failureMessage := by
    cases stage <;> decide +kernel
  unfold afterRun
  split
  · rename_i message found
    intro same
    have told := (Option.filter_eq_some_iff.mp found).1
    exact clearedApart _ (told.trans (congrArg some same))
  · exact finishedApart _

theorem Status.afterRun_cleared {status : Status} (mission : status.stage ≠ .complete)
    (cleared : Bool) : (status.afterRun cleared).cleared = cleared := by
  obtain ⟨stage, _, _⟩ := status
  cases stage with
  | calculator | racing | lotto => cases cleared <;> rfl
  | complete => exact absurd rfl mission

variable {State : Type} {source : Chance.Source State} {script : Script} {status : Status}

theorem Progress.Ran.run_eq
    (ran : Ran source status.stage .start state script.blocks texts last after)
    (nonempty : script.blocks ≠ []) (time : Timestamp) :
    script.run source status time state =
      some (⟨List.zipWith line script.blocks texts ++ last.closingLines status.stage,
        status.afterRun (last.clears status.stage), time⟩, after) := by
  simp [Script.run, nonempty, ran.runBlocks_eq]

theorem Script.run_of_fault (stopped : Progress.runBlocks source status.stage script.blocks .start
      state = some (lines, none, after)) (nonempty : script.blocks ≠ []) (time : Timestamp) :
    script.run source status time state = some (⟨lines, status.afterFault, time⟩, after) := by
  simp [Script.run, nonempty, stopped]

end MissionScript
