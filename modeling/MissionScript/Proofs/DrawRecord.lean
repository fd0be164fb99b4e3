import Mathlib.Data.List.ReduceOption
import MissionScript.Proofs.FieldTurn
import MissionScript.Proofs.LotteryStep

/-! What is drawn. A block depends on its source through the draws that it makes and nothing else:
every source that makes these draws leads it to the same end. -/
namespace MissionScript

namespace Chance

variable {State : Type} {source : Source State}

/-- A draw: the range that was asked for, and the value. -/
structure Draw where
  low : UInt32
  high : UInt32
  value : UInt32
  deriving DecidableEq, Repr

/-- The source makes the draws one after the other. -/
inductive Played (source : Source State) : State → List Draw → State → Prop where
  | nil : Played source state [] state
  | cons {draw : Draw} (drawn : source.draw draw.low draw.high state = some (draw.value, middle))
      (rest : Played source middle draws after) : Played source state (draw :: draws) after

private theorem Played.append (first : Played source state before middle)
    (rest : Played source middle draws after) : Played source state (before ++ draws) after := by
  induction first with
  | nil => exact rest
  | cons drawn later ih => exact .cons drawn (ih rest)

private theorem Played.split {before draws : List Draw}
    (played : Played source state (before ++ draws) after) :
    ∃ middle, Played source state before middle ∧ Played source middle draws after := by
  induction before generalizing state with
  | nil => exact ⟨state, .nil, played⟩
  | cons draw before ih =>
    cases played with
    | cons drawn rest =>
      obtain ⟨middle, first, later⟩ := ih rest
      exact ⟨middle, .cons drawn first, later⟩

theorem Played.counting (played : Played source state draws after) (count : Nat) :
    Played source.counting (state, count) draws (after, count + draws.length) := by
  induction played generalizing count with
  | nil => exact .nil
  | @cons state middle draws after draw drawn rest ih =>
    have counted : source.counting.draw draw.low draw.high (state, count) =
        some (draw.value, middle, count + 1) := by
      simp [Source.counting, drawn]
    have others := ih (count + 1)
    rw [Nat.add_assoc, Nat.add_comm 1] at others
    exact .cons counted others

/-- What can happen between two states of a source. -/
abbrev Happening : Type 1 := ∀ State : Type, Source State → State → State → Prop

/-- The source makes these draws, and with every source that makes the given ones this happens. -/
structure Followed (draws given : List Draw) (happens : Happening) (source : Source State)
    (state after : State) : Prop where
  played : Played source state draws after
  anywhere : ∀ (Other : Type) (other : Source Other) (here later : Other),
    Played other here given later → happens Other other here later

namespace Followed

variable {first second both : Happening} {state middle after : State}

theorem of_still (happens : ∀ (Other : Type) (other : Source Other) here, first Other other here here) :
    Followed [] [] first source state state := by
  refine ⟨.nil, ?_⟩
  intro Other other here later played
  cases played
  exact happens Other other here

theorem imp (followed : Followed draws given first source state after)
    (implies : ∀ (Other : Type) (other : Source Other) here later,
      first Other other here later → second Other other here later) :
    Followed draws given second source state after :=
  ⟨followed.played, fun Other other here later own =>
    implies Other other here later (followed.anywhere Other other here later own)⟩

theorem andThen (early : Followed draws given first source state middle)
    (late : Followed more others second source middle after)
    (joins : ∀ (Other : Type) (other : Source Other) here between later,
      first Other other here between → second Other other between later → both Other other here later) :
    Followed (draws ++ more) (given ++ others) both source state after := by
  refine ⟨early.played.append late.played, ?_⟩
  intro Other other here later own
  obtain ⟨between, before, behind⟩ := own.split
  exact joins Other other here between later (early.anywhere Other other here between before)
    (late.anywhere Other other between later behind)

end Followed

/-- It happens by this many draws, and it happens with every source that makes them. -/
def Recorded (happens : Happening) (count : Nat) (source : Source State) (state after : State) : Prop :=
  ∃ draws, draws.length = count ∧ Followed draws draws happens source state after

namespace Recorded

variable {first second both : Happening} {state middle after : State}

theorem of_still (happens : ∀ (Other : Type) (other : Source Other) here, first Other other here here) :
    Recorded first 0 source state state := ⟨[], rfl, .of_still happens⟩

theorem imp (recorded : Recorded first count source state after)
    (implies : ∀ (Other : Type) (other : Source Other) here later,
      first Other other here later → second Other other here later) :
    Recorded second count source state after := by
  obtain ⟨draws, length, followed⟩ := recorded
  exact ⟨draws, length, followed.imp implies⟩

theorem andThen (early : Recorded first count source state middle)
    (late : Recorded second more source middle after)
    (joins : ∀ (Other : Type) (other : Source Other) here between later,
      first Other other here between → second Other other between later → both Other other here later) :
    Recorded both (count + more) source state after := by
  obtain ⟨draws, length, first⟩ := early
  obtain ⟨others, longer, second⟩ := late
  exact ⟨draws ++ others, by rw [List.length_append, length, longer], first.andThen second joins⟩

end Recorded

end Chance

open Chance (Played Recorded)

variable {State : Type} {source : Chance.Source State}

namespace Racing

/-- The draw of a car that tries to move. -/
def moveDraw (value : UInt32) : Chance.Draw := ⟨0, Car.greatestDraw, value⟩

/-- The cars that are not broken draw for their moves, in order. -/
theorem draws_iff_played {cars : List Car} {draws : List (Option UInt32)} :
    Draws source cars state draws after ↔
      draws.map Option.isSome = cars.map (!·.broken) ∧
        Played source state (draws.reduceOption.map moveDraw) after := by
  constructor
  · intro drawn
    induction drawn with
    | nil => exact ⟨rfl, .nil⟩
    | stalls broken rest ih => simpa [broken] using ih
    | drawn able drawn rest ih => exact ⟨by simp [able, ih.1], .cons drawn ih.2⟩
  · rintro ⟨shape, played⟩
    induction draws generalizing cars state with
    | nil =>
      obtain rfl : cars = [] := List.map_eq_nil_iff.mp shape.symm
      cases played
      exact .nil
    | cons draw draws ih =>
      obtain ⟨car, others, rfl, able, later⟩ := List.map_eq_cons_iff.mp shape.symm
      cases draw with
      | none => exact .stalls (by simpa using able) (ih later.symm played)
      | some value =>
        cases played with
        | cons drawn rest => exact .drawn (by simpa using able) drawn (ih later.symm rest)

/-- How many of the cars draw in a turn. -/
def ableCount (cars : List Car) : Nat := cars.countP (!·.broken)

private theorem length_of_shape {cars : List Car} {draws : List (Option UInt32)}
    (shape : draws.map Option.isSome = cars.map (!·.broken)) :
    draws.reduceOption.length = ableCount cars := by
  have counted := congrArg (List.countP id) shape
  rw [List.countP_map, List.countP_map] at counted
  rw [List.reduceOption_length_eq, ← List.countP_eq_length_filter]
  exact counted

/-- How many draws a block takes in a race. -/
def Race.drawCount (race : Race) (block : Block) : Nat :=
  if block.command = .runTurn ∧ race.turn < race.attempts then ableCount race.cars else 0

private theorem Race.takeTurns_recorded {cars : List Car}
    (taken : takeTurns source cars state = some (turns, after)) :
    Recorded (fun _ other here later => takeTurns other cars here = some (turns, later))
      (ableCount cars) source state after := by
  obtain ⟨draws, drawn, told⟩ := takeTurns_eq_some_iff.mp taken
  obtain ⟨shape, played⟩ := draws_iff_played.mp drawn
  refine ⟨_, by rw [List.length_map, length_of_shape shape], played, ?_⟩
  intro Other other here later own
  exact takeTurns_eq_some_iff.mpr ⟨draws, draws_iff_played.mpr ⟨shape, own⟩, told⟩

theorem Race.Handled.recorded {race : Race}
    (handled : Handled source race state block text next after) :
    Recorded (fun _ other here later => Handled other race here block text next later)
      (race.drawCount block) source state after := by
  cases handled with
  | setUp asks asked =>
    rw [drawCount, if_neg (by simp [asks])]
    exact .of_still fun _ _ _ => .setUp asks asked
  | register asks known filled short fresh =>
    rw [drawCount, if_neg (by simp [asks])]
    exact .of_still fun _ _ _ => .register asks known filled short fresh
  | event asks changed =>
    rw [drawCount, if_neg (fun own => not_runTurn_of_event? asks own.1)]
    exact .of_still fun _ _ _ => .event asks changed
  | late asks entered planned spent =>
    rw [drawCount, if_neg (fun own => Nat.not_lt_of_le spent own.2)]
    exact .of_still fun _ _ _ => .late asks entered planned spent
  | turn asks entered left taken =>
    rw [drawCount, if_pos ⟨asks, left⟩]
    exact (takeTurns_recorded taken).imp fun _ _ _ _ again => .turn asks entered left again

end Racing

namespace Lotto

private theorem Pool.drawPlaces_recorded {places : List (Fin highest)} {pool : Pool}
    (drawn : drawPlaces source places pool state = some (numbers, after)) :
    Recorded (fun _ other here later => drawPlaces other places pool here = some (numbers, later))
      places.length source state after := by
  induction places generalizing pool state numbers with
  | nil =>
    obtain ⟨rfl, rfl⟩ := Prod.mk.inj (Option.some.inj drawn)
    exact .of_still fun _ _ _ => rfl
  | cons place places ih =>
    obtain ⟨choice, middle, rest, inside, chosen, filled, rfl⟩ := drawPlaces_cons_eq_some drawn
    obtain ⟨draws, length, followed⟩ := ih filled
    refine ⟨⟨.ofNat place, .ofNat (highest - 1), choice⟩ :: draws, congrArg (· + 1) length,
      .cons chosen followed.played, ?_⟩
    intro Other other here later own
    cases own with
    | cons found others =>
      unfold drawPlaces
      rw [found]
      simp [inside, followed.anywhere Other other _ later others]

private theorem Ticket.draw_recorded {ticket : Ticket}
    (drawn : draw source state = some (ticket, after)) :
    Recorded (fun _ other here later => draw other here = some (ticket, later)) size source state
      after := by
  obtain ⟨numbers, filled, rfl⟩ := draw_eq_some drawn
  refine (Pool.drawPlaces_recorded filled).imp fun Other other here later again => ?_
  simp [draw, again]

private theorem Ticket.drawMany_recorded {tickets : List Ticket}
    (drawn : drawMany source count state = some (tickets, after)) :
    Recorded (fun _ other here later => drawMany other count here = some (tickets, later))
      (size * count) source state after := by
  induction count generalizing state tickets with
  | zero =>
    obtain ⟨rfl, rfl⟩ := Prod.mk.inj (Option.some.inj drawn)
    exact .of_still fun _ _ _ => rfl
  | succ count ih =>
    obtain ⟨ticket, middle, rest, taken, more, rfl⟩ := drawMany_succ_eq_some drawn
    rw [Nat.mul_succ, Nat.add_comm (size * count)]
    refine (draw_recorded taken).andThen (ih more) fun Other other here between later first others => ?_
    simp [drawMany, first, others]

/-- How many draws a block takes in a lottery. -/
def Lottery.drawCount (block : Block) : Nat :=
  if block.command = .buyTickets then size * (purchase? block).getD 0 else 0

theorem Lottery.Handled.recorded {lottery : Lottery}
    (handled : Handled source lottery state block text next after) :
    Recorded (fun _ other here later => Handled other lottery here block text next later)
      (drawCount block) source state after := by
  cases handled with
  | buy asks asked drawn =>
    rw [drawCount, if_pos asks, asked]
    exact (Ticket.drawMany_recorded drawn).imp fun _ _ _ _ again => .buy asks asked again
  | winning asks drawable =>
    rw [drawCount, if_neg (by simp [asks])]
    exact .of_still fun _ _ _ => .winning asks drawable
  | bonus asks given inGame apart =>
    rw [drawCount, if_neg (by simp [asks])]
    exact .of_still fun _ _ _ => .bonus asks given inGame apart
  | check asks checked =>
    rw [drawCount, if_neg (by simp [asks])]
    exact .of_still fun _ _ _ => .check asks checked

end Lotto

end MissionScript
