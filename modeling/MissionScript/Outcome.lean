import MissionScript.Fault

namespace MissionScript

/-- The answer of an operation, or the fault that stopped it, with the state it leaves. The state
is there in both cases, so what a failed operation changes can be asked. -/
structure Outcome (State : Type) (Answer : Type) where
  answer : Except Fault Answer
  state : State

namespace Outcome

variable {State Answer : Type}

/-- The operation succeeded. -/
def done (answer : Answer) (state : State) : Outcome State Answer := ⟨.ok answer, state⟩

/-- The operation broke a rule. -/
def refused (violation : Violation) (state : State) : Outcome State Answer :=
  ⟨.error (.validation violation), state⟩

/-- The operation met a fault. -/
def failed (fault : Fault) (state : State) : Outcome State Answer := ⟨.error fault, state⟩

/-- The same outcome seen as part of a larger state. -/
def within {Larger : Type} (outcome : Outcome State Answer) (place : State → Larger) :
    Outcome Larger Answer := ⟨outcome.answer, place outcome.state⟩

theorem done_inj {first second : Answer} {left right : State} :
    done first left = done second right ↔ first = second ∧ left = right := by
  simp [done]

theorem some_done_inj {Rest : Type} {first second : Answer} {left right : State}
    {rest other : Rest} : some (done first (left, rest)) = some (done second (right, other)) ↔
      first = second ∧ left = right ∧ rest = other := by
  rw [Option.some_inj, done_inj, Prod.mk.injEq]

/-- An operation beside which the rest of the state stands still succeeds on its own. -/
theorem within_eq_done_iff {Rest : Type} {outcome : Outcome State Answer} {answer : Answer}
    {next : State} {rest after : Rest} :
    some (outcome.within fun state => (state, rest)) = some (done answer (next, after)) ↔
      outcome = done answer next ∧ rest = after := by
  obtain ⟨given, left⟩ := outcome
  constructor
  · intro same
    obtain ⟨rfl, rfl, rfl⟩ : given = .ok answer ∧ left = next ∧ rest = after := by
      simpa [within, done] using same
    exact ⟨rfl, rfl⟩
  · rintro ⟨same, rfl⟩
    rw [same]
    rfl

end Outcome

end MissionScript
