import MissionScript.Calculator

/-! Formulas as calculator blocks write them down, and the calculator as their reader. The state of
the calculator is a function of the formula read so far, and the texts it accepts are exactly the
formulas in which nothing is divided by zero. -/
namespace MissionScript

/-- What a calculator block enters: a number, if its argument is one, or an operator. -/
inductive Token
  | number (value : Option Float)
  | operator (operator : Operator)
  deriving DecidableEq, Repr

/-- The token of a block. Utility blocks enter nothing. -/
def Block.token? (block : Block) : Option Token :=
  if block.domain = .utility then none
  else if block.command = .inputNumber then some (.number (block.number? 0))
  else (Operator.ofCommand? block.command).map .operator

/-- The tokens of blocks, in order. -/
def tokensOf (blocks : List Block) : List Token := blocks.filterMap Block.token?

/-- The result of an operator, a zero divisor included. -/
def Operator.combine : Operator → Float → Float → Float
  | .add, left, right => left + right
  | .subtract, left, right => left - right
  | .multiply, left, right => left * right
  | .divide, left, right => left / right

theorem Operator.apply_of_defined {operator : Operator} {right : Float}
    (defined : operator = .divide → ¬ right == 0.0) (left : Float) :
    operator.apply left right = .ok (operator.combine left right) := by
  cases operator with
  | add | subtract | multiply => rfl
  | divide => simp only [apply, combine, if_neg (defined rfl)]

theorem Operator.apply_divide_zero {right : Float} (zero : right == 0.0) (left : Float) :
    Operator.divide.apply left right = .error (.validation .divisionByZero) := by
  simp only [apply, if_pos zero]

/-- A formula: nothing at all, or a number, then operators each with the number behind it, and
perhaps one more operator. -/
inductive Formula
  | blank
  | entry (first : Float) (steps : List (Operator × Float)) (trailing : Option Operator)
  deriving DecidableEq, Repr

namespace Formula

/-- The operators that have a number behind them, with those numbers. -/
def steps : Formula → List (Operator × Float)
  | blank => []
  | entry _ steps _ => steps

/-- The numbers of a formula, in order. -/
def numbers : Formula → List Float
  | blank => []
  | entry first steps _ => first :: steps.map (·.2)

/-- The operator at the end, when no number follows it. -/
def trailing? : Formula → Option Operator
  | blank => none
  | entry _ _ trailing => trailing

/-- How a formula is written. -/
def tokens : Formula → List Token
  | blank => []
  | entry first steps trailing =>
    .number (some first)
      :: (steps.flatMap fun step => [.operator step.1, .number (some step.2)])
      ++ (trailing.map Token.operator).toList

/-- Nothing is divided by zero, of either sign. -/
def Defined (formula : Formula) : Prop :=
  ∀ step ∈ formula.steps, step.1 = .divide → ¬ step.2 == 0.0

instance : DecidablePred Defined := fun formula =>
  inferInstanceAs (Decidable (∀ step ∈ formula.steps, step.1 = .divide → ¬ step.2 == 0.0))

/-- The value of a formula, taken from left to right. -/
def value? : Formula → Option Float
  | blank => none
  | entry first steps _ =>
    some (steps.foldl (fun total step => step.1.combine total step.2) first)

/-- The calculator that has read a formula. -/
def state (formula : Formula) : Calculator :=
  ⟨formula.value?, formula.trailing?, .ofNat formula.steps.length⟩

/-- The formula with one more token, if it still is one and is defined. -/
def extend? : Formula → Token → Option Formula
  | blank, .number (some value) => some (entry value [] none)
  | entry first steps none, .operator operator => some (entry first steps (some operator))
  | entry first steps (some operator), .number (some value) =>
    if operator = .divide ∧ value == 0.0 then none
    else some (entry first (steps ++ [(operator, value)]) none)
  | _, _ => none

/-- The formula that tokens write. -/
def read? (tokens : List Token) : Option Formula := tokens.foldlM extend? blank

theorem read?_append (first second : List Token) :
    read? (first ++ second) = (read? first).bind fun formula => second.foldlM extend? formula := by
  simp [read?, List.foldlM_append]

private theorem extend?_written {formula next : Formula} (defined : formula.Defined)
    (extended : formula.extend? token = some next) :
    next.tokens = formula.tokens ++ [token] ∧ next.Defined := by
  unfold extend? at extended
  split at extended
  · obtain rfl := Option.some.inj extended
    exact ⟨rfl, by simp [Defined, steps]⟩
  · obtain rfl := Option.some.inj extended
    exact ⟨by simp [tokens], defined⟩
  · rename_i first before operator value
    split at extended
    · simp at extended
    · rename_i safe
      obtain rfl := Option.some.inj extended
      refine ⟨by simp [tokens], ?_⟩
      intro step member division
      rcases List.mem_append.mp member with earlier | own
      · exact defined step earlier division
      · obtain rfl := List.mem_singleton.mp own
        exact fun zero => safe ⟨division, zero⟩
  · simp at extended

private theorem foldlM_written {formula next : Formula} (defined : formula.Defined)
    (read : more.foldlM extend? formula = some next) :
    next.tokens = formula.tokens ++ more ∧ next.Defined := by
  induction more generalizing formula with
  | nil =>
    obtain rfl : formula = next := by simpa using read
    exact ⟨by simp, defined⟩
  | cons token more ih =>
    obtain ⟨middle, extended, rest⟩ : ∃ middle, formula.extend? token = some middle ∧
        more.foldlM extend? middle = some next := by
      simpa [List.foldlM_cons, Option.bind_eq_some_iff] using read
    obtain ⟨written, safe⟩ := extend?_written defined extended
    obtain ⟨whole, safe⟩ := ih safe rest
    exact ⟨by simp [whole, written], safe⟩

private theorem foldlM_steps (first : Float) (before steps : List (Operator × Float))
    (safe : ∀ step ∈ steps, step.1 = .divide → ¬ step.2 == 0.0) :
    (steps.flatMap fun step => [Token.operator step.1, .number (some step.2)]).foldlM extend?
      (entry first before none) = some (entry first (before ++ steps) none) := by
  induction steps generalizing before with
  | nil => simp
  | cons step steps ih =>
    have own : ¬ (step.1 = .divide ∧ step.2 == 0.0) :=
      fun ⟨division, zero⟩ => safe step (List.mem_cons_self ..) division zero
    have rest := ih (before ++ [step]) fun later member => safe later (List.mem_cons_of_mem _ member)
    simp only [List.flatMap_cons, List.cons_append, List.nil_append, List.foldlM_cons, extend?,
      if_neg own, Option.bind_eq_bind, Option.bind_some, rest]
    simp

/-- Reading accepts exactly what writing produces, as long as nothing is divided by zero. -/
theorem read?_eq_some_iff {formula : Formula} :
    read? written = some formula ↔ formula.tokens = written ∧ formula.Defined := by
  constructor
  · intro read
    have undivided : blank.Defined := by simp [Defined, steps]
    simpa [tokens] using foldlM_written undivided read
  · rintro ⟨rfl, defined⟩
    cases formula with
    | blank => rfl
    | entry first steps trailing =>
      have middle := foldlM_steps first [] steps defined
      cases trailing with
      | none => simpa [read?, tokens, extend?] using middle
      | some operator =>
        simp only [List.nil_append] at middle
        simp [read?, tokens, extend?, List.foldlM_append, middle]

theorem length_steps_le (formula : Formula) : formula.steps.length ≤ formula.tokens.length := by
  cases formula with
  | blank => simp [steps]
  | entry first steps trailing =>
    have pairs : (steps.flatMap fun step =>
        [Token.operator step.1, .number (some step.2)]).length = 2 * steps.length := by
      induction steps with
      | nil => rfl
      | cons step steps ih =>
        simp only [List.flatMap_cons, List.length_append, ih, List.length_cons]
        simp
        omega
    simp only [tokens, Formula.steps, List.length_append, List.length_cons, pairs]
    omega

theorem mem_tokens_of_mem_numbers {formula : Formula} (member : number ∈ formula.numbers) :
    .number (some number) ∈ formula.tokens := by
  cases formula with
  | blank => simp [numbers] at member
  | entry first steps trailing =>
    simp only [numbers, List.mem_cons, List.mem_map] at member
    rcases member with rfl | ⟨step, present, rfl⟩
    · simp [tokens]
    · have written : .number (some step.2) ∈ steps.flatMap fun step =>
          [Token.operator step.1, .number (some step.2)] :=
        List.mem_flatMap.mpr ⟨step, present, by simp⟩
      simp [tokens, written]

end Formula

theorem isFinite_of_mem_tokensOf (member : .number (some number) ∈ tokensOf blocks) :
    number.isFinite = true := by
  obtain ⟨block, _, entered⟩ := List.mem_filterMap.mp member
  unfold Block.token? at entered
  split at entered
  · simp at entered
  · split at entered
    · obtain found : block.number? 0 = some number := by simpa using entered
      obtain ⟨argument, _, asked⟩ := Option.bind_eq_some_iff.mp found
      exact (Option.filter_eq_some_iff.mp asked).2
    · simp at entered

end MissionScript
