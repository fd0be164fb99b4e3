import MissionScript.Proofs.Acceptance
import MissionScript.Proofs.Formula

namespace MissionScript

namespace Calculator

private theorem handle_number (entered : block.token? = some (.number value?))
    (calculator : Calculator) : calculator.handle block =
      (value?.map calculator.enter).getD (.refused .numberExpected calculator) := by
  unfold Block.token? at entered
  split at entered
  · simp at entered
  · split at entered
    · rename_i isInput
      obtain rfl : block.number? 0 = value? := by simpa using entered
      simp only [handle, isInput, if_true]
      cases block.number? 0 <;> rfl
    · simp at entered

private theorem handle_operator (entered : block.token? = some (.operator operator))
    (calculator : Calculator) : calculator.handle block = calculator.await operator block.label := by
  unfold Block.token? at entered
  split at entered
  · simp at entered
  · split at entered
    · simp at entered
    · rename_i noInput
      obtain found : Operator.ofCommand? block.command = some operator := by simpa using entered
      simp only [handle, noInput, if_false, found]

private theorem enter_waiting (first : Float) (steps : List (Operator × Float))
    (safe : operator = .divide → ¬ value == 0.0) :
    ∃ text, (Formula.entry first steps (some operator)).state.enter value =
      .done text (Formula.entry first (steps ++ [(operator, value)]) none).state := by
  simp only [enter, Formula.state, Formula.trailing?, Formula.value?, Operator.apply_of_defined safe]
  refine ⟨_, congrArg (Outcome.done _) ?_⟩
  simp [Formula.steps]

/-- The calculator accepts a token exactly if the formula so far can be continued with it, and then
it has read the longer formula. -/
theorem handle_state (entered : block.token? = some token) (formula : Formula) :
    (∃ next text, formula.extend? token = some next ∧
        formula.state.handle block = .done text next.state) ∨
      formula.extend? token = none ∧
        ∃ fault, formula.state.handle block = .failed fault formula.state := by
  cases token with
  | operator operator =>
    rw [handle_operator entered]
    match formula with
    | .blank => exact .inr ⟨rfl, _, rfl⟩
    | .entry first steps none => exact .inl ⟨_, _, rfl, rfl⟩
    | .entry first steps (some waiting) => exact .inr ⟨rfl, _, rfl⟩
  | number value? =>
    rw [handle_number entered]
    match formula, value? with
    | .blank, none | .entry _ _ none, none | .entry _ _ (some _), none => exact .inr ⟨rfl, _, rfl⟩
    | .blank, some value => exact .inl ⟨_, _, rfl, rfl⟩
    | .entry first steps none, some value => exact .inr ⟨rfl, _, rfl⟩
    | .entry first steps (some operator), some value =>
      by_cases zero : operator = .divide ∧ value == 0.0
      · obtain ⟨rfl, zero⟩ := zero
        refine .inr ⟨by simp [Formula.extend?, zero], .validation .divisionByZero, ?_⟩
        simp only [Option.map_some, Option.getD_some, enter, Formula.state, Formula.trailing?,
          Operator.apply_divide_zero zero]
      · have safe : operator = .divide → ¬ value == 0.0 := fun division nought => zero ⟨division, nought⟩
        obtain ⟨text, combined⟩ := enter_waiting first steps safe
        exact .inl ⟨_, text, if_neg zero, combined⟩

end Calculator

namespace Progress

variable {State : Type} {source : Chance.Source State}

/-- Blocks that a calculator stage is for. -/
def FitsCalculation (block : Block) : Prop :=
  block.domain = .utility ∨ block.Belongs .calculator

instance : DecidablePred FitsCalculation := fun block =>
  inferInstanceAs (Decidable (block.domain = .utility ∨ block.Belongs .calculator))

/-- The blocks write a formula together with one more. -/
def Continues (history : List Block) (block : Block) : Prop :=
  (Formula.read? (tokensOf (history ++ [block]))).isSome

/-- The calculator has read the formula of the blocks so far. -/
def HasRead (history : List Block) (progress : Progress) : Prop :=
  ∃ formula, Formula.read? (tokensOf history) = some formula ∧
    progress.calculator = formula.state ∧ progress.cleared = false

private theorem tokensOf_utility (utility : block.domain = .utility) (history : List Block) :
    tokensOf (history ++ [block]) = tokensOf history := by
  simp [tokensOf, Block.token?, utility]

private theorem token?_of_belongs {block : Block} (belongs : block.Belongs .calculator) :
    ∃ token, block.token? = some token := by
  obtain ⟨declared, owned⟩ := belongs
  cases command : block.command <;>
    simp [Block.token?, declared, command, Operator.ofCommand?, Command.domain] at owned ⊢

private theorem read?_token (entered : block.token? = some token)
    (read : Formula.read? (tokensOf history) = some formula) :
    Formula.read? (tokensOf (history ++ [block])) = formula.extend? token := by
  have longer : tokensOf (history ++ [block]) = tokensOf history ++ [token] := by
    simp [tokensOf, entered]
  rw [longer, Formula.read?_append, read]
  simp

theorem calculationLaw :
    StageLaw source .calculator FitsCalculation Continues HasRead where
  total := by
    rintro block (utility | belongs) progress state
    · simp [runBlock_utility utility]
    · simp [runBlock_calculator belongs]
  accepts := by
    rintro history progress block ⟨formula, read, shown, _⟩ (utility | belongs) continues state
    · exact ⟨_, _, _, runBlock_utility utility progress state⟩
    · obtain ⟨token, entered⟩ := token?_of_belongs belongs
      rw [Continues, read?_token entered read] at continues
      rcases Calculator.handle_state entered formula with
        ⟨next, text, _, handled⟩ | ⟨refused, _⟩
      · refine ⟨text, { progress with calculator := next.state }, state, ?_⟩
        rw [runBlock_calculator belongs, runCalculator, shown, handled]
        rfl
      · simp [refused] at continues
  keeps := by
    rintro history progress block state text next after ⟨formula, read, shown, unsettled⟩
      (utility | belongs) ran
    · simp [runBlock_utility utility, Outcome.done] at ran
      obtain ⟨_, rfl, _⟩ := ran
      simp only [Continues, HasRead, tokensOf_utility utility]
      exact ⟨by simp [read], formula, read, shown, unsettled⟩
    · obtain ⟨token, entered⟩ := token?_of_belongs belongs
      simp only [Continues, HasRead, read?_token entered read]
      rw [runBlock_calculator belongs, runCalculator, shown] at ran
      rcases Calculator.handle_state entered formula with
        ⟨longer, said, extended, handled⟩ | ⟨_, fault, handled⟩
      · rw [handled] at ran
        simp [Outcome.within, Outcome.done] at ran
        obtain ⟨_, rfl, _⟩ := ran
        exact ⟨by simp [extended], longer, extended, rfl, unsettled⟩
      · simp [handled, Outcome.within, Outcome.failed, Outcome.done] at ran

private theorem kept_continues_iff :
    Kept Continues blocks ↔ (Formula.read? (tokensOf blocks)).isSome := by
  constructor
  · intro kept
    rcases List.eq_nil_or_concat blocks with rfl | ⟨before, block, rfl⟩
    · rfl
    · rw [List.concat_eq_append] at kept ⊢
      exact kept before block [] rfl
  · rintro readable before block after rfl
    have parts : tokensOf (before ++ block :: after) =
        tokensOf (before ++ [block]) ++ tokensOf after := by simp [tokensOf, ← List.filterMap_append]
    rw [parts, Formula.read?_append] at readable
    exact Option.isSome_of_isSome_bind readable

/-- The line that warns of an operator without a number. -/
def pendingLine : String := "[CALC] Script ended with a pending operator. (ended in A -> OP order)"

/-- No block writes the warning: the line of a block has a colon. -/
private theorem line_ne_pendingLine (block : Block) (text : String) :
    line block text ≠ pendingLine := by
  intro same
  have colon : ':' ∈ (line block text).toList := by simp [line]
  rw [same] at colon
  exact absurd colon (by decide +kernel)

/-- The last line of a calculation. -/
def totalLine (value? : Option Float) : String :=
  "[CALC] Final result: " ++ (value?.map Decimal.written).getD "none"

private theorem closingLines_calculator (progress : Progress) :
    progress.closingLines .calculator =
      (if progress.calculator.pending.isSome then [pendingLine] else []) ++
        [totalLine progress.calculator.total] := by
  rw [closingLines, if_pos rfl]
  rfl

private theorem warned_iff (blocks : List Block) (texts : List String) (pending : Bool)
    (closing : String) :
    (List.zipWith line blocks texts ++
        ((if pending then [pendingLine] else []) ++ [closing])).dropLast.getLast? =
      some pendingLine ↔ pending := by
  cases pending with
  | true => simp
  | false =>
    simp only [Bool.false_eq_true, ↓reduceIte, List.nil_append, List.dropLast_concat, iff_false]
    intro found
    obtain ⟨place, inside, written⟩ := List.getElem_of_mem (List.mem_of_getLast? found)
    rw [List.getElem_zipWith] at written
    exact line_ne_pendingLine _ _ written

private theorem clears_calculator {progress : Progress} (unsettled : progress.cleared = false)
    (counted : progress.calculator.operations = .ofNat count) (small : count < UInt32.size) :
    progress.clears .calculator = true ↔ 2 ≤ count := by
  have value : (UInt32.ofNat count).toNat = count := by
    rw [UInt32.toNat_ofNat', Nat.mod_eq_of_lt small]
  simp [clears, unsettled, counted, requiredOperations, UInt32.le_iff_toNat_le, value]

/-- A script of calculator and utility blocks comes to its end exactly if its tokens write a formula
of finite numbers in which nothing is divided by zero. Then the last line tells the value of the
formula from left to right, the warning stands before it exactly if an operator has no number behind
it, and two applied operators clear the mission. -/
theorem calculation_run (source : Chance.Source State) (script : Script) (status : Status)
    (inStage : status.stage = .calculator) (nonempty : script.blocks ≠ [])
    (short : script.blocks.length < UInt32.size)
    (fitting : ∀ block ∈ script.blocks, FitsCalculation block) (time : Timestamp) (state : State) :
    ∃ report after, script.run source status time state = some (report, after) ∧
      (¬ report.Aborted ↔ ∃ formula : Formula, formula.tokens = tokensOf script.blocks ∧
        (∀ number ∈ formula.numbers, number.isFinite) ∧ formula.Defined) ∧
      ∀ formula : Formula, formula.tokens = tokensOf script.blocks → formula.Defined →
        report.lines.getLast? = some (totalLine formula.value?) ∧
        (report.lines.dropLast.getLast? = some pendingLine ↔ formula.trailing?.isSome) ∧
        (report.status.cleared = true ↔ 2 ≤ formula.steps.length) := by
  obtain ⟨report, after, ran, accepted, complete⟩ :=
    calculationLaw.run ⟨.blank, rfl, rfl, rfl⟩ inStage nonempty fitting time state
  rw [kept_continues_iff] at accepted
  refine ⟨report, after, ran, ?_, ?_⟩
  · rw [accepted, Option.isSome_iff_exists]
    refine exists_congr fun formula => ?_
    rw [Formula.read?_eq_some_iff]
    constructor
    · rintro ⟨written, defined⟩
      refine ⟨written, fun number member => ?_, defined⟩
      exact isFinite_of_mem_tokensOf (written ▸ Formula.mem_tokens_of_mem_numbers member)
    · exact fun ⟨written, _, defined⟩ => ⟨written, defined⟩
  · intro formula written defined
    have read := Formula.read?_eq_some_iff.mpr ⟨written, defined⟩
    obtain ⟨texts, last, _, ⟨found, readLast, shown, unsettled⟩, lines, ended⟩ :=
      complete (accepted.mpr (by simp [read]))
    obtain rfl : found = formula := Option.some.inj (readLast.symm.trans read)
    have few : found.steps.length < UInt32.size := by
      have tokens := found.length_steps_le
      have blocks := List.length_filterMap_le Block.token? script.blocks
      rw [written] at tokens
      exact Nat.lt_of_le_of_lt (Nat.le_trans tokens blocks) short
    refine ⟨?_, ?_, ?_⟩
    · rw [lines, closingLines_calculator, shown]
      simp [Formula.state]
    · rw [lines, closingLines_calculator, shown]
      exact warned_iff ..
    · rw [ended, Status.afterRun_cleared (by simp [inStage])]
      exact clears_calculator unsettled (by rw [shown]; rfl) few

/-- The script `8 / 4 - 3 +` is cleared with a warning, and its total is less than zero. -/
theorem calculation_run_quotient :
    let script : Script := ⟨[.bare .inputNumber [.number 8], .bare .divide [],
      .bare .inputNumber [.text " 4 "], .bare .subtract [], .bare .inputNumber [.number 3],
      .bare .add []]⟩
    ∃ report after, script.run Chance.least .initial ⟨0, 0⟩ () = some (report, after) ∧
      ¬ report.Aborted ∧ report.lines.getLast? = some "[CALC] Final result: -1" ∧
      report.lines.dropLast.getLast? = some pendingLine ∧ report.status.cleared = true := by
  intro script
  let formula : Formula := .entry 8 [(.divide, 4), (.subtract, 3)] (some .add)
  have written : formula.tokens = tokensOf script.blocks := by decide +kernel
  have finite : ∀ number ∈ formula.numbers, number.isFinite := by decide +kernel
  have defined : formula.Defined := by decide +kernel
  obtain ⟨report, after, ran, accepted, told⟩ := calculation_run Chance.least script .initial rfl
    (by decide) (by decide) (by decide) ⟨0, 0⟩ ()
  obtain ⟨total, warned, cleared⟩ := told formula written defined
  refine ⟨report, after, ran, accepted.mpr ⟨formula, written, finite, defined⟩, ?_, ?_, ?_⟩
  · rw [total]
    decide +kernel
  · exact warned.mpr rfl
  · exact cleared.mpr (by decide)

end Progress

end MissionScript
