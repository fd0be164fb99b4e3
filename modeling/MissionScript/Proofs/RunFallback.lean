import MissionScript.Proofs.Course
import MissionScript.Proofs.FaultCause

/-! Branches that a run never takes. The calculator has a total whenever an operator waits, so no
number is combined with a substitute for one; and a handler is only given blocks that are in their
place, so it never has to tell that one is not. -/
namespace MissionScript

namespace Calculator

/-- Nothing waits and nothing was counted as long as there is no total. -/
structure Grounded (calculator : Calculator) : Prop where
  pending : calculator.pending.isSome → calculator.total.isSome
  counted : 0 < calculator.operations → calculator.total.isSome

private theorem grounded_empty : empty.Grounded := ⟨nofun, by decide⟩

private theorem grounded_of_total {calculator : Calculator} (known : calculator.total.isSome) :
    calculator.Grounded := ⟨fun _ => known, fun _ => known⟩

private theorem total_of_done {calculator : Calculator}
    (done : calculator.handle block = .done text next) :
    next.total.isSome := by
  unfold handle at done
  split at done
  · split at done
    · simp [Outcome.refused, Outcome.done] at done
    · unfold enter at done
      split at done
      · obtain ⟨_, rfl⟩ := Outcome.done_inj.mp done
        rfl
      · simp [Outcome.refused, Outcome.done] at done
      · dsimp only at done
        split at done
        · simp [Outcome.failed, Outcome.done] at done
        · obtain ⟨_, rfl⟩ := Outcome.done_inj.mp done
          rfl
  · split at done
    · simp [Outcome.failed, Outcome.done] at done
    · unfold await at done
      split at done
      · simp [Outcome.refused, Outcome.done] at done
      · simp [Outcome.refused, Outcome.done] at done
      · rename_i known _
        obtain ⟨_, rfl⟩ := Outcome.done_inj.mp done
        exact Option.isSome_of_eq_some known

/-- What a number answers that completes an operation on a total. -/
def combined (calculator : Calculator) (operator : Operator) (total number : Float) :
    Outcome Calculator String :=
  match operator.apply total number with
  | .error fault => .failed fault calculator
  | .ok result =>
    .done ("[CALC] " ++ Decimal.written total ++ " " ++ operator.symbol ++ " "
        ++ Decimal.written number ++ " = " ++ Decimal.written result)
      { total := some result, pending := none, operations := calculator.operations + 1 }

private theorem Grounded.enter_eq {calculator : Calculator} (grounded : calculator.Grounded)
    (waits : calculator.pending = some operator) (number : Float) :
    ∃ total, calculator.total = some total ∧
      calculator.enter number = calculator.combined operator total number := by
  obtain ⟨total, known⟩ := Option.isSome_iff_exists.mp (grounded.pending (by rw [waits]; rfl))
  refine ⟨total, known, ?_⟩
  unfold enter
  rw [waits, known]
  rfl

end Calculator

namespace Progress

open Racing (Race)
open Lotto (Lottery)

variable {State : Type} {source : Chance.Source State} {stage : Stage}

/-- A block that runs leaves the calculator grounded. -/
theorem Stepped.grounded {progress next : Progress}
    (stepped : Stepped source stage progress state block text next after)
    (grounded : progress.calculator.Grounded) : next.calculator.Grounded := by
  cases stepped with
  | calculator inStage belongs handled =>
    exact Calculator.grounded_of_total (Calculator.total_of_done handled)
  | utility | racing | lotto => exact grounded

theorem Ran.grounded (ran : Ran source stage progress state blocks texts last after)
    (grounded : progress.calculator.Grounded) : last.calculator.Grounded := by
  induction ran with
  | nil => exact grounded
  | cons first rest ih => exact ih ((runBlock_eq_done_iff.mp first).grounded grounded)

/-- The handler of the domain that a block declares never tells that the block is out of place. -/
structure Suited (source : Chance.Source State) (progress : Progress) (block : Block)
    (state : State) : Prop where
  calculator : block.domain = .calculator → ∀ fault next,
    progress.calculator.handle block = .failed fault next → fault.isMismatch = false
  racing : block.domain = .racing → ∀ fault next after,
    progress.race.handle source block state = some (.failed fault (next, after)) →
      fault.isMismatch = false
  lotto : block.domain = .lotto → ∀ fault next after,
    progress.lottery.handle source block state = some (.failed fault (next, after)) →
      fault.isMismatch = false

private theorem suited_of_inPlace {block : Block} (inPlace : block.InPlace stage)
    (source : Chance.Source State) (progress : Progress) (state : State) :
    Suited source progress block state where
  calculator declared fault next failed := by
    obtain ⟨violation, rfl⟩ :=
      Calculator.validation_of_failed (inPlace.2.trans declared) failed
    rfl
  racing declared fault next after failed := by
    cases (Race.handle_eq_failed_iff.mp failed).1 with
    | foreign other => exact absurd (inPlace.2.trans declared) other
    | setUp | entry | taken | long | event | turn => rfl
  lotto declared fault next after failed := by
    cases (Lottery.handle_eq_failed_iff.mp failed).1 with
    | foreign other => exact absurd (inPlace.2.trans declared) other
    | count | tooMany | winning | bonus | noTickets | undrawn => rfl

/-- A block that is not in its place is answered without a handler: nothing is looked at but the block
and the stage. -/
private theorem runBlock_of_not_inPlace {block : Block} (misplaced : ¬ block.InPlace stage) :
    ∃ answer, ∀ (State : Type) (source : Chance.Source State) progress state,
      runBlock source stage progress block state = some ⟨answer, progress, state⟩ := by
  cases admission stage block with
  | utility utility => exact ⟨_, fun _ _ progress state => runBlock_utility utility progress state⟩
  | foreign declared other =>
    exact ⟨_, fun _ source _ state => (Rejected.stage declared other).runBlock_eq source state⟩
  | mismatched declared inStage other =>
    exact ⟨_, fun _ source _ state =>
      (Rejected.command declared inStage other).runBlock_eq source state⟩
  | calculator inStage belongs =>
    exact absurd (inPlace_of_belongs (by rw [inStage]; rfl) belongs) misplaced
  | racing inStage belongs =>
    exact absurd (inPlace_of_belongs (by rw [inStage]; rfl) belongs) misplaced
  | lotto inStage belongs =>
    exact absurd (inPlace_of_belongs (by rw [inStage]; rfl) belongs) misplaced

/-- The fault at a place has a cause in the block at this place. -/
theorem FailsAt.tellsOf (fails : FailsAt source stage blocks state place fault) :
    ∃ block, blocks[place]? = some block ∧ TellsOf stage block fault := by
  obtain ⟨block, _, _, _, found, _, _, rejected⟩ := fails.split
  exact ⟨block, found, rejected.cause.tellsOf⟩

end Progress

namespace Script

open Progress

/-- No run takes a branch that is there only in case. Wherever it stands, a number behind an operator
is combined with the total of the calculator; and handlers are given only blocks that are in their
places, of which they never tell that they are not. The first block that fails is told to be out of
place exactly if it is, with what is wrong about it; only a race misses a car, and nothing outside of
the script fails. A run is aborted exactly if a block fails, and then its last line tells that fault. -/
theorem run_takes_no_fallback {State : Type} (source : Chance.Source State) (script : Script)
    (status : Status) (state : State) :
    (∀ before rest texts reached middle, script.blocks = before ++ rest →
      Ran source status.stage .start state before texts reached middle →
      reached.calculator.Grounded ∧
      (∀ operator number, reached.calculator.pending = some operator →
        ∃ total, reached.calculator.total = some total ∧
          reached.calculator.enter number = reached.calculator.combined operator total number) ∧
      ∀ block ∈ rest.head?,
        (block.InPlace status.stage → Suited source reached block middle) ∧
        (¬ block.InPlace status.stage → ∃ answer, ∀ progress state,
          runBlock source status.stage progress block state = some ⟨answer, progress, state⟩)) ∧
    (∀ place fault, FailsAt source status.stage script.blocks state place fault →
      ∃ block, script.blocks[place]? = some block ∧ TellsOf status.stage block fault) ∧
    ∀ time report after, script.blocks ≠ [] →
      script.run source status time state = some (report, after) →
      (report.Aborted ↔ ∃ place fault, FailsAt source status.stage script.blocks state place fault) ∧
      ∀ place block fault, script.blocks[place]? = some block →
        FailsAt source status.stage script.blocks state place fault →
        report.lines.getLast? = some ("[ABORTED] " ++ block.label ++ ": " ++ fault.message) := by
  refine ⟨?_, ?_, ?_⟩
  · intro before rest texts reached middle _ trace
    have grounded := trace.grounded Calculator.grounded_empty
    refine ⟨grounded, fun operator number waits => grounded.enter_eq waits number, ?_⟩
    intro block _
    refine ⟨fun inPlace => suited_of_inPlace inPlace source reached middle, fun misplaced => ?_⟩
    obtain ⟨answer, same⟩ := runBlock_of_not_inPlace misplaced
    exact ⟨answer, same State source⟩
  · intro place fault fails
    exact fails.tellsOf
  · intro time report after nonempty ran
    refine ⟨⟨fun aborted => ?_, fun ⟨place, fault, fails⟩ => ?_⟩, ?_⟩
    · obtain ⟨place, _, fault, _, fails, _⟩ := failsAt_of_aborted nonempty ran aborted
      exact ⟨place, fault, fails⟩
    · obtain ⟨_, _, _, _, own⟩ := run_of_failsAt fails time
      obtain ⟨rfl, _⟩ := Prod.mk.inj (Option.some.inj (ran.symm.trans own))
      rfl
    · intro place block fault found fails
      obtain ⟨_, _, _, same, own⟩ := run_of_failsAt fails time
      obtain ⟨rfl, _⟩ := Prod.mk.inj (Option.some.inj (ran.symm.trans own))
      obtain rfl := Option.some.inj (found.symm.trans same)
      exact List.getLast?_concat

/-- After `8 /` the calculator has a total to divide, and the command of a race ends the run although
its block declares the domain of the stage. -/
theorem run_takes_no_fallback_borrowed_command :
    let number : Block := .bare .inputNumber [.number 8]
    let boost : Block := { Block.bare .boost [.text "pobi"] with domain := .calculator }
    let script : Script := ⟨[number, .bare .divide [], boost]⟩
    let fault : Fault := .commandMismatch .boost .calculator
    (∃ texts reached, Ran Chance.least .calculator .start () (script.blocks.take 2) texts reached () ∧
      reached.calculator.pending = some .divide ∧
      ∃ total, reached.calculator.total = some total ∧
        reached.calculator.enter 0 = reached.calculator.combined .divide total 0) ∧
    (FailsAt Chance.least .calculator script.blocks () 2 fault ∧
      ∃ block, script.blocks[2]? = some block ∧ TellsOf .calculator block fault) ∧
    ∃ report, script.run Chance.least .initial ⟨0, 0⟩ () = some (report, ()) ∧ report.Aborted ∧
      report.lines.getLast? = some ("[ABORTED] : [ERROR] command RACING_BOOST does not belong to the " ++
        "calculator domain.") := by
  intro number boost script fault
  obtain ⟨stands, told, ends⟩ := run_takes_no_fallback Chance.least script .initial ()
  have given : number.number? 0 = some 8 := by decide +kernel
  obtain ⟨text, entered⟩ :
      ∃ text, Calculator.empty.handle number = .done text ⟨some 8, none, 0⟩ := by
    have asks : number.command = .inputNumber := rfl
    simp only [Calculator.handle, if_pos asks, given]
    exact ⟨_, rfl⟩
  have first : Stepped Chance.least .calculator .start () number _ _ () :=
    .calculator rfl ⟨rfl, rfl⟩ entered
  have second : Stepped Chance.least .calculator { Progress.start with calculator := ⟨some 8, none, 0⟩ }
      () (.bare .divide []) _ { Progress.start with calculator := ⟨some 8, some .divide, 0⟩ } () :=
    .calculator rfl ⟨rfl, rfl⟩ rfl
  have trace := Ran.cons first.runBlock_eq (.cons second.runBlock_eq .nil)
  have rejected {progress} : Rejected .calculator progress boost fault :=
    .command (by decide) rfl (by decide)
  have fails : FailsAt Chance.least .calculator script.blocks () 2 fault :=
    failsAt_of_rejected trace rejected []
  refine ⟨⟨_, _, trace, rfl, ?_⟩, ⟨fails, told 2 fault fails⟩, ?_⟩
  · obtain ⟨_, combines, _⟩ := stands _ [boost] _ _ _ rfl trace
    exact combines .divide 0 rfl
  · have ran : (⟨[number, .bare .divide []] ++ [boost]⟩ : Script).run Chance.least .initial ⟨0, 0⟩ () =
        some (_, ()) := run_of_rejected trace rejected [] ⟨0, 0⟩
    obtain ⟨aborts, last⟩ := ends _ _ _ (by decide) ran
    refine ⟨_, ran, aborts.mpr ⟨2, fault, fails⟩, (last 2 boost fault rfl fails).trans ?_⟩
    decide +kernel

end Script

end MissionScript
