import MissionScript.Proofs.Course

namespace MissionScript

namespace Chance.Source

variable {State Other : Type} {source : Source State}

/-- Seen through the function, the source draws like the other one. -/
def SeenAs (source : Source State) (other : Source Other) (see : State → Other) : Prop :=
  ∀ low high state, other.draw low high (see state) =
    (source.draw low high state).map fun (value, after) => (value, see after)

private theorem counting_seenAs (source : Source State) : source.counting.SeenAs source Prod.fst := by
  intro low high state
  cases drawn : source.draw low high state.1 <;> simp [counting, drawn]

theorem Endless.counting (endless : source.Endless) : source.counting.Endless := by
  intro low high state
  simpa [Source.counting] using endless low high state.1

theorem InRange.counting (inRange : source.InRange) : source.counting.InRange := by
  intro low high state fits value after drawn
  obtain ⟨⟨_, later⟩, found, same⟩ := Option.map_eq_some_iff.mp drawn
  obtain ⟨rfl, _⟩ := Prod.mk.inj same
  exact inRange low high state.1 fits _ _ found

end Chance.Source

open Chance.Source (SeenAs)

variable {State Other : Type} {source : Chance.Source State} {other : Chance.Source Other}
  {see : State → Other}

namespace Racing

private theorem Car.move_seen (seen : source.SeenAs other see) (car : Car) (state : State) :
    car.move other (see state) =
      (car.move source state).map fun (gone, moved, after) => (gone, moved, see after) := by
  unfold move
  split
  · rfl
  · rw [seen]
    cases source.draw 0 greatestDraw state with
    | none => rfl
    | some drawn =>
      simp only [Option.map_some]
      split <;> rfl

private theorem Race.takeTurns_seen (seen : source.SeenAs other see) (cars : List Car)
    (state : State) :
    takeTurns other cars (see state) =
      (takeTurns source cars state).map fun (turns, after) => (turns, see after) := by
  induction cars generalizing state with
  | nil => rfl
  | cons car cars ih =>
    rw [takeTurns_cons, takeTurns_cons, Car.move_seen seen]
    cases car.move source state with
    | none => rfl
    | some tried =>
      obtain ⟨_, moved, middle⟩ := tried
      simp only [Option.map_some, Option.bind_some, ih, Option.map_map]
      rfl

private theorem Race.Handled.seen {race : Race} (seen : source.SeenAs other see)
    (handled : Handled source race state block text next after) :
    Handled other race (see state) block text next (see after) := by
  cases handled with
  | setUp asks asked => exact .setUp asks asked
  | register asks known filled short fresh => exact .register asks known filled short fresh
  | event asks changed => exact .event asks changed
  | late asks entered planned spent => exact .late asks entered planned spent
  | turn asks entered left taken =>
    exact .turn asks entered left (by rw [takeTurns_seen seen, taken]; rfl)

end Racing

namespace Lotto

private theorem Pool.drawPlaces_seen (seen : source.SeenAs other see) (places : List (Fin highest))
    (pool : Pool) (state : State) :
    drawPlaces other places pool (see state) =
      (drawPlaces source places pool state).map fun (numbers, after) => (numbers, see after) := by
  induction places generalizing pool state with
  | nil => rfl
  | cons place places ih =>
    unfold drawPlaces
    rw [seen]
    cases source.draw (.ofNat place) (.ofNat (highest - 1)) state with
    | none => rfl
    | some drawn =>
      simp only [Option.map_some, Option.bind_eq_bind, Option.bind_some]
      split
      · simp only [ih]
        cases drawPlaces source places _ drawn.2 <;> rfl
      · rfl

private theorem Ticket.draw_seen (seen : source.SeenAs other see) (state : State) :
    draw other (see state) =
      (draw source state).map fun (ticket, after) => (ticket, see after) := by
  unfold draw
  rw [Pool.drawPlaces_seen seen]
  cases Pool.drawPlaces source ticketPlaces .ascending state <;> rfl

private theorem Ticket.drawMany_seen (seen : source.SeenAs other see) (count : Nat) (state : State) :
    drawMany other count (see state) =
      (drawMany source count state).map fun (tickets, after) => (tickets, see after) := by
  induction count generalizing state with
  | zero => rfl
  | succ count ih =>
    unfold drawMany
    rw [draw_seen seen]
    cases draw source state with
    | none => rfl
    | some drawn =>
      simp only [Option.map_some, Option.bind_eq_bind, Option.bind_some, ih]
      cases drawMany source count drawn.2 <;> rfl

private theorem Lottery.Handled.seen {lottery : Lottery} (seen : source.SeenAs other see)
    (handled : Handled source lottery state block text next after) :
    Handled other lottery (see state) block text next (see after) := by
  cases handled with
  | buy asks asked drawn =>
    exact .buy asks asked (by rw [Ticket.drawMany_seen seen, drawn]; rfl)
  | winning asks drawable => exact .winning asks drawable
  | bonus asks given inGame apart => exact .bonus asks given inGame apart
  | check asks checked => exact .check asks checked

end Lotto

namespace Progress

private theorem Stepped.seen {progress : Progress} (seen : source.SeenAs other see)
    (stepped : Stepped source stage progress state block text next after) :
    Stepped other stage progress (see state) block text next (see after) := by
  cases stepped with
  | utility utility => exact .utility utility
  | calculator inStage belongs handled => exact .calculator inStage belongs handled
  | racing inStage belongs handled => exact .racing inStage belongs (handled.seen seen)
  | lotto inStage belongs handled => exact .lotto inStage belongs (handled.seen seen)

private theorem Ran.seen (seen : source.SeenAs other see)
    (ran : Ran source stage progress state blocks texts last after) :
    Ran other stage progress (see state) blocks texts last (see after) := by
  induction ran with
  | nil => exact .nil
  | cons first rest ih =>
    exact .cons ((runBlock_eq_done_iff.mp first).seen seen).runBlock_eq ih

end Progress

/-- A run with a source is a run with every source that it can be seen as. -/
theorem Script.run_seen (seen : source.SeenAs other see) {script : Script}
    (ran : script.run source status time state = some (report, after)) :
    script.run other status time (see state) = some (report, see after) := by
  by_cases nonempty : script.blocks = []
  · simp only [run, nonempty, List.isEmpty_nil, if_true, Option.some.injEq, Prod.mk.injEq] at ran ⊢
    exact ⟨ran.1, congrArg see ran.2⟩
  obtain ⟨lines, told, moment⟩ := report
  obtain ⟨rfl, ⟨texts, last, trace, rfl, rfl⟩ |
    ⟨before, block, rest, texts, reached, fault, split, trace, rejected, rfl, rfl⟩⟩ :=
    course_of_run nonempty ran
  · exact (trace.seen seen).run_eq nonempty _
  · obtain ⟨blocks⟩ := script
    obtain rfl : blocks = before ++ block :: rest := split
    exact run_of_rejected (trace.seen seen) rejected rest _

/-- A count of the draws beside a source changes nothing in a run. -/
theorem Script.run_of_counting {script : Script}
    (ran : script.run source.counting status time (state, count) = some (report, after, draws)) :
    script.run source status time state = some (report, after) :=
  run_seen source.counting_seenAs ran

end MissionScript
