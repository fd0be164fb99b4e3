import Mathlib.Data.List.Forall2
import MissionScript.Proofs.RacePair

namespace MissionScript.Racing

variable {State : Type} {source : Chance.Source State}

namespace Car

/-- How many of a boost and a drift wait for the next move. -/
def pending (car : Car) : Nat :=
  (if car.boosted then 1 else 0) + (if car.skill = some .drift then 1 else 0)

private theorem toNat_bonus (car : Car) : car.bonus.toNat = car.pending := by
  unfold bonus pending
  split <;> split <;> rfl

theorem pending_le (car : Car) : car.pending ≤ 2 := by
  unfold pending
  split <;> split <;> decide

private theorem pending_spent (car : Car) : car.spent.pending = 0 := by
  cases skill : car.skill with
  | none => simp [pending, spent, skill]
  | some own => cases own <;> simp [pending, spent, skill, Option.filter]

/-- The car after a try with its draw. A broken car has none. -/
def tried (car : Car) : Option UInt32 → Car
  | none => car
  | some value =>
    if car.model.threshold ≤ value then
      { car.spent with position := car.position + (1 + car.bonus) }
    else car.spent

/-- How far a draw takes the car: one step, and one more for each of a boost and a drift that
wait, or no step at all. -/
def gain (car : Car) : Option UInt32 → Nat
  | none => 0
  | some value => if car.model.threshold ≤ value then 1 + car.pending else 0

theorem gain_le (car : Car) (draw : Option UInt32) : car.gain draw ≤ 1 + car.pending := by
  unfold gain
  split
  · exact Nat.zero_le _
  · split
    · exact Nat.le_refl _
    · exact Nat.zero_le _

/-- The steps of a try are paid for by the turn and by what has waited. -/
theorem pending_tried (car : Car) (draw : Option UInt32) :
    (car.tried draw).pending + car.gain draw ≤ car.pending + 1 := by
  cases draw with
  | none => exact Nat.le_succ _
  | some value =>
    have waits : (car.tried (some value)).pending = car.spent.pending := by
      by_cases enough : car.model.threshold ≤ value
      · rw [tried, if_pos enough]
        rfl
      · rw [tried, if_neg enough]
    have none := car.pending_spent
    have most := car.gain_le (some value)
    omega

theorem tried_name (car : Car) (draw : Option UInt32) : (car.tried draw).name = car.name := by
  unfold tried
  split
  · rfl
  · split <;> rfl

/-- In 32 bits the car goes as far as its draw takes it. -/
theorem tried_position (car : Car) (draw : Option UInt32) :
    (car.tried draw).position = car.position + .ofNat (car.gain draw) := by
  unfold tried gain
  split
  · simp
  · split
    · have steps : 1 + car.bonus = .ofNat (1 + car.pending) := by
        rw [← toNat_bonus]
        simp
      rw [steps]
    · simp [spent]

private theorem pending_boost (car : Car) : car.boost.2.pending ≤ car.pending + 1 := by
  have own : car.boost.2.pending = 1 + if car.skill = some .drift then 1 else 0 := rfl
  rw [own, pending]
  omega

private theorem pending_activate (skill : Skill) (car : Car) :
    (car.activate skill).2.pending ≤ car.pending + if skill = .drift then 1 else 0 := by
  have own : (car.activate skill).2.pending =
      (if car.boosted then 1 else 0) + if some skill = some .drift then 1 else 0 := rfl
  rw [own, pending]
  by_cases drifts : skill = .drift <;> simp [drifts]

end Car

/-- The draws of a turn, one place for each car. A broken car draws nothing. -/
inductive Draws (source : Chance.Source State) :
    List Car → State → List (Option UInt32) → State → Prop where
  | nil : Draws source [] state [] state
  | stalls (broken : car.broken = true) (rest : Draws source cars state draws after) :
      Draws source (car :: cars) state (none :: draws) after
  | drawn (able : car.broken = false)
      (drawn : source.draw 0 Car.greatestDraw state = some (value, middle))
      (rest : Draws source cars middle draws after) :
      Draws source (car :: cars) state (some value :: draws) after

theorem Draws.length_eq {cars : List Car} (drawn : Draws source cars state draws after) :
    draws.length = cars.length := by
  induction drawn with
  | nil => rfl
  | stalls broken rest ih => exact congrArg (· + 1) ih
  | drawn able drawn rest ih => exact congrArg (· + 1) ih

namespace Race

private theorem moved_iff {car next : Car} : (∃ gone, Moved source car state gone next after) ↔
    (car.broken = true ∧ next = car.tried none ∧ after = state) ∨
    ∃ value, car.broken = false ∧ source.draw 0 Car.greatestDraw state = some (value, after) ∧
      next = car.tried (some value) := by
  constructor
  · rintro ⟨gone, moved⟩
    cases moved with
    | stalls broken => exact .inl ⟨broken, rfl, rfl⟩
    | goes able drawn enough => exact .inr ⟨_, able, drawn, by simp [Car.tried, enough]⟩
    | fails able drawn short => exact .inr ⟨_, able, drawn, by simp [Car.tried, short]⟩
  · rintro (⟨broken, rfl, rfl⟩ | ⟨value, able, drawn, rfl⟩)
    · exact ⟨_, .stalls broken⟩
    · unfold Car.tried
      by_cases enough : car.model.threshold ≤ value
      · exact ⟨_, by simpa [enough] using Moved.goes able drawn enough⟩
      · exact ⟨_, by simpa [enough] using Moved.fails able drawn enough⟩

/-- The field takes its turns exactly as its draws say. -/
theorem takeTurns_eq_some_iff {cars : List Car} :
    takeTurns source cars state = some (turns, after) ↔
      ∃ draws, Draws source cars state draws after ∧
        turns = (List.zipWith Car.tried cars draws).map Car.shown := by
  induction cars generalizing state turns with
  | nil =>
    constructor
    · intro taken
      obtain ⟨rfl, rfl⟩ := Prod.mk.inj (Option.some.inj taken)
      exact ⟨[], .nil, rfl⟩
    · rintro ⟨_, ⟨⟩, rfl⟩
      rfl
  | cons car cars ih =>
    rw [takeTurns_cons_eq_some_iff]
    constructor
    · rintro ⟨gone, moved, middle, others, tried, later, rfl⟩
      obtain ⟨draws, rest, rfl⟩ := ih.mp later
      obtain ⟨broken, rfl, rfl⟩ | ⟨value, able, drawn, rfl⟩ :=
        moved_iff.mp ⟨gone, move_eq_some_iff.mp tried⟩
      · exact ⟨none :: draws, .stalls broken rest, rfl⟩
      · exact ⟨some value :: draws, .drawn able drawn rest, rfl⟩
    · rintro ⟨_, draws, rfl⟩
      cases draws with
      | stalls broken rest =>
        obtain ⟨gone, moved⟩ := moved_iff.mpr (.inl ⟨broken, rfl, rfl⟩)
        exact ⟨gone, _, _, _, move_eq_some_iff.mpr moved, ih.mpr ⟨_, rest, rfl⟩, rfl⟩
      | drawn able drawn rest =>
        obtain ⟨gone, moved⟩ := moved_iff.mpr (.inr ⟨_, able, drawn, rfl⟩)
        exact ⟨gone, _, _, _, move_eq_some_iff.mpr moved, ih.mpr ⟨_, rest, rfl⟩, rfl⟩

/-- An event turns at most one more boost or drift on, and only the events of these names do. -/
theorem event?_pending (happens : event? command = some event) (car : Car) :
    (event car).2.pending ≤
      car.pending + if command = .boost ∨ command = .drift then 1 else 0 := by
  unfold event? at happens
  split at happens
  case h_1 =>
    obtain rfl := Option.some.inj happens
    exact car.pending_boost
  case h_2 =>
    obtain rfl := Option.some.inj happens
    exact Nat.le_refl car.pending
  case h_6 => simp at happens
  all_goals
    obtain rfl := Option.some.inj happens
    exact car.pending_activate _

theorem handle_cases {race : Race}
    (handled : race.handle source block state = some ⟨answer, next, after⟩) :
    (∃ text, answer = .ok text ∧ Handled source race state block text next after) ∨
    ∃ fault, answer = .error fault ∧ next = race ∧ after = state := by
  cases answer with
  | ok text => exact .inl ⟨text, rfl, handled_of_done handled⟩
  | error fault =>
    obtain ⟨_, rfl, rfl⟩ := handle_eq_failed_iff.mp handled
    exact .inr ⟨fault, rfl, rfl, rfl⟩

/-- What a block does to a car of the race: nothing, an event that names it, or a turn. -/
inductive Passes (race : Race) (block : Block) (car : Car) : Car → Prop where
  | stays : Passes race block car car
  | event (asks : event? block.command = some event) (named : car.name = block.text 0) :
      Passes race block car (event car).2
  | turn (asks : block.command = .runTurn) (left : race.turn < race.attempts)
      (draw : Option UInt32) : Passes race block car (car.tried draw).endTurn

theorem Passes.name {race : Race} {car moved : Car} (passes : Passes race block car moved) :
    moved.name = car.name := by
  cases passes with
  | stays => rfl
  | event asks => exact event?_name asks car
  | turn asks left draw => exact car.tried_name draw

/-- The car that a block enters, at the start line with nothing that waits. -/
def Enters (block : Block) (car : Car) : Prop :=
  block.command = .selectCar ∧ ∃ model, car = ⟨block.text 0, model, 0, false, false, none⟩

private theorem changeFirst_passes (race : Race) (asks : event? block.command = some event)
    {cars others : List Car} (changed : changeFirst (block.text 0) event cars = some (text, others)) :
    List.Forall₂ (Passes race block) cars others := by
  induction cars generalizing others with
  | nil => cases changed
  | cons car cars ih =>
    obtain ⟨named, rfl, rfl⟩ | ⟨other, later, found, rfl⟩ :=
      changeFirst_cons_eq_some_iff.mp changed
    · exact .cons (.event asks named) (List.forall₂_same.mpr fun _ _ => .stays)
    · exact .cons .stays (ih found)

private theorem tried_passes {race : Race} (asks : block.command = .runTurn)
    (left : race.turn < race.attempts) {cars : List Car} {draws : List (Option UInt32)}
    (same : draws.length = cars.length) :
    List.Forall₂ (Passes race block) cars
      ((List.zipWith Car.tried cars draws).map Car.endTurn) := by
  induction cars generalizing draws with
  | nil => exact .nil
  | cons car cars ih =>
    obtain ⟨draw, draws, rfl⟩ := List.exists_cons_of_length_eq_add_one same
    exact .cons (.turn asks left draw) (ih (Nat.succ.inj same))

/-- The cars of a race keep their places, and what a block does to each of them is one of three
things. A car can enter behind them. -/
theorem Handled.passes {race : Race} (handled : Handled source race state block text next after) :
    ∃ moved entered, next.cars = moved ++ entered ∧
      List.Forall₂ (Passes race block) race.cars moved ∧ ∀ car ∈ entered, Enters block car := by
  have still : List.Forall₂ (Passes race block) race.cars race.cars :=
    List.forall₂_same.mpr fun _ _ => .stays
  cases handled with
  | setUp asks asked | late asks => exact ⟨_, [], by simp, still, by simp⟩
  | register asks known => exact ⟨race.cars, [_], rfl, still, by simp [Enters, asks]⟩
  | event asks changed =>
    exact ⟨_, [], by simp, changeFirst_passes race asks changed, by simp⟩
  | turn asks entered left taken =>
    obtain ⟨draws, drawn, rfl⟩ := takeTurns_eq_some_iff.mp taken
    refine ⟨_, [], ?_, tried_passes asks left drawn.length_eq, by simp⟩
    simp [Car.shown]

theorem Handled.passes_at {race : Race} (handled : Handled source race state block text next after)
    {place : Nat} (found : race.cars[place]? = some car) :
    ∃ moved, next.cars[place]? = some moved ∧ Passes race block car moved := by
  obtain ⟨moved, entered, cars, passes, _⟩ := handled.passes
  obtain ⟨inside, rfl⟩ := List.getElem?_eq_some_iff.mp found
  have within := Nat.lt_of_lt_of_eq inside passes.length_eq
  refine ⟨moved[place], ?_, passes.get inside within⟩
  rw [cars, List.getElem?_append_left within, List.getElem?_eq_getElem within]

/-- Every car has passed the block or has entered with it. -/
theorem Handled.origin {race : Race} (handled : Handled source race state block text next after) :
    ∀ car ∈ next.cars, (∃ old ∈ race.cars, Passes race block old car) ∨ Enters block car := by
  obtain ⟨moved, entered, cars, passes, enters⟩ := handled.passes
  intro car member
  rw [cars, List.mem_append] at member
  refine member.imp ?_ (enters car)
  intro old
  obtain ⟨place, inside, rfl⟩ := List.getElem_of_mem old
  have before := Nat.lt_of_lt_of_eq inside passes.length_eq.symm
  exact ⟨_, List.getElem_mem before, passes.get before inside⟩

end Race

end MissionScript.Racing
