/-! Sources of chance. A source is a pair of functions on a state of its own, so whoever draws
hands the state on; a draw gives nothing when the source has run out. -/
namespace MissionScript.Chance

/-- Draws of whole numbers from an inclusive range, and of fractions below one. -/
structure Source (State : Type) where
  draw : (low high : UInt32) → State → Option (UInt32 × State)
  fraction : State → Float × State

/-- A source keeps to its ranges: from a range that holds anything it draws within it. -/
def Source.InRange {State : Type} (source : Source State) : Prop :=
  ∀ low high state, low ≤ high →
    ∀ value after, source.draw low high state = some (value, after) → low ≤ value ∧ value ≤ high

/-- A source never runs out. -/
def Source.Endless {State : Type} (source : Source State) : Prop :=
  ∀ low high state, (source.draw low high state).isSome

/-- Always the low end of the range. -/
def least : Source Unit where
  draw low _ state := some (low, state)
  fraction state := (0.0, state)

theorem least_endless : least.Endless := fun _ _ _ => rfl

theorem least_inRange : least.InRange := by
  intro low high state fits value after drawn
  obtain ⟨rfl, _⟩ := Prod.mk.inj (Option.some.inj drawn)
  exact ⟨UInt32.le_refl _, fits⟩

/-- A list of values played back in order, each moved into the range that is asked for. The
source runs out with the list. -/
def replay : Source (List UInt32) where
  draw
    | low, high, value :: rest => some (max low (min value (max low high)), rest)
    | _, _, [] => none
  fraction state := (0.0, state)

theorem moved_inRange {low high : UInt32} (fits : low ≤ high) (value : UInt32) :
    low ≤ max low (min value (max low high)) ∧ max low (min value (max low high)) ≤ high := by
  have top : max low high = high := if_pos fits
  have most : min value high ≤ high := by
    rw [show min value high = if value ≤ high then value else high from rfl]
    split
    · assumption
    · exact UInt32.le_refl high
  rw [top, show max low (min value high) = if low ≤ min value high then min value high else low from
    rfl]
  split
  · exact ⟨‹_›, most⟩
  · exact ⟨UInt32.le_refl low, fits⟩

theorem replay_draw {low high value : UInt32} (least : low ≤ value) (most : value ≤ high)
    (rest : List UInt32) : replay.draw low high (value :: rest) = some (value, rest) := by
  have top : max low high = high := if_pos (UInt32.le_trans least most)
  have moved : max low (min value (max low high)) = value := by
    rw [top, show min value high = value from if_pos most]
    exact if_pos least
  exact congrArg (fun drawn => some (drawn, rest)) moved

theorem replay_inRange : replay.InRange := by
  intro low high state fits value after drawn
  cases state with
  | nil => cases drawn
  | cons first rest =>
    obtain ⟨rfl, _⟩ := Prod.mk.inj (Option.some.inj drawn)
    exact moved_inRange fits first

/-- The same source with a count of its draws beside its state. -/
def Source.counting {State : Type} (source : Source State) : Source (State × Nat) where
  draw low high := fun (state, count) =>
    (source.draw low high state).map fun (value, after) => (value, after, count + 1)
  fraction := fun (state, count) =>
    let (value, after) := source.fraction state
    (value, after, count)

end MissionScript.Chance
