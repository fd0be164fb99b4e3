import MissionScript.Calculator
import MissionScript.Proofs.LotteryStep
import MissionScript.Proofs.RaceStep

/-! Refused blocks. Every fault of a race or a lottery has a cause in the block and in the state
before it, never in a draw, and a block that is refused leaves everything as it was. -/
namespace MissionScript

namespace Racing.Race

variable {State : Type} {source : Chance.Source State}

/-- Why a race refuses a block, and the fault it answers. -/
inductive Refused (race : Race) (block : Block) : Fault → Prop where
  | setUp (asks : block.command = .setUpRace) (unfit : attempts? block = none) :
      Refused race block (.validation .attempts)
  | entry (asks : block.command = .selectCar)
      (unfit : model? block = none ∨ (Text.trim (block.text 0)).isEmpty = true) :
      Refused race block (.validation .carEntry)
  | taken (asks : block.command = .selectCar) (known : model? block = some model)
      (filled : (Text.trim (block.text 0)).isEmpty = false) (taken : block.text 0 ∈ race.names) :
      Refused race block (.validation (.carNameTaken (block.text 0)))
  | long (asks : block.command = .selectCar) (known : model? block = some model)
      (filled : (Text.trim (block.text 0)).isEmpty = false) (fresh : block.text 0 ∉ race.names)
      (long : Car.longestName < (block.text 0).length) :
      Refused race block (.validation (.carNameLength (block.text 0)))
  | event (asks : event? block.command = some event) (absent : block.text 0 ∉ race.names) :
      Refused race block (.carNotFound (block.text 0))
  | turn (asks : block.command = .runTurn) (unready : race.cars = [] ∨ race.attempts = 0) :
      Refused race block (.validation .raceNotReady)
  | foreign (other : block.command.domain ≠ .racing) :
      Refused race block (.commandMismatch block.command .racing)

private theorem setUp_refused {race : Race} {block : Block} (unfit : attempts? block = none) :
    (match block.number? 0 with
      | none => Outcome.refused .attempts race
      | some attempts => race.setUp attempts) = .refused .attempts race := by
  unfold attempts? at unfit
  cases given : block.number? 0 with
  | none => rfl
  | some asked =>
    simp only [given, Option.bind_some] at unfit
    simp only [setUp, unfit]

private theorem registerEntry_unfit {race : Race} {block : Block}
    (unfit : model? block = none ∨ (Text.trim (block.text 0)).isEmpty = true) :
    race.registerEntry block = .refused .carEntry race := by
  unfold registerEntry
  unfold model? at unfit
  cases given : block.arguments[1]? with
  | none => rfl
  | some argument =>
    simp only [given, Option.bind_some] at unfit
    simp only [Option.map_some]
    cases read : Model.read argument.asText with
    | error fault => rfl
    | ok model =>
      have blank : (Text.trim (block.text 0)).isEmpty = true := by
        simpa [read, Except.toOption] using unfit
      simp only [blank, if_true]

private theorem registerEntry_known {race : Race} {block : Block} (known : model? block = some model)
    (filled : (Text.trim (block.text 0)).isEmpty = false) :
    race.registerEntry block = race.register (block.text 0) model := by
  obtain ⟨argument, given, read⟩ := Option.bind_eq_some_iff.mp known
  unfold registerEntry
  rw [given]
  cases entry : Model.read argument.asText with
  | error fault => simp [entry, Except.toOption] at read
  | ok found =>
    obtain rfl : found = model := by simpa [entry, Except.toOption] using read
    simp only [Option.map_some, entry, filled]
    rfl

/-- The fault is the same whatever the source could have drawn, and nothing is changed. -/
theorem Refused.handle_eq {race : Race} (refused : Refused race block fault)
    (source : Chance.Source State) (state : State) :
    race.handle source block state = some (.failed fault (race, state)) := by
  cases refused with
  | setUp asks unfit =>
    simp only [handle, asks]
    exact congrArg (fun outcome => some (outcome.within fun race => (race, state)))
      (setUp_refused unfit)
  | entry asks unfit =>
    simp only [handle, asks]
    rw [registerEntry_unfit unfit]
    rfl
  | taken asks known filled taken =>
    have present : race.cars.any (·.name = block.text 0) = true := by simpa [names] using taken
    simp only [handle, asks, registerEntry_known known filled, register, if_pos present]
    rfl
  | long asks known filled fresh long =>
    have free : ¬ race.cars.any (·.name = block.text 0) = true := by simpa [names] using fresh
    simp only [handle, asks, registerEntry_known known filled, register, if_neg free, Car.new, long,
      or_true, if_true]
    rfl
  | @event happening asks absent =>
    have missing : changeFirst (block.text 0) happening race.cars = none := by
      simpa using mt changeFirst_isSome_iff.mp absent
    rw [handle_event asks]
    unfold change
    rw [missing]
    rfl
  | turn asks unready =>
    have stopped : race.cars.isEmpty ∨ race.attempts = 0 := by simpa using unready
    simp only [handle, asks, runTurn, if_pos stopped]
    rfl
  | foreign other =>
    unfold handle
    dsimp only
    split
    case h_9 => rfl
    all_goals
      rename_i asks
      exact absurd (by rw [asks]; rfl) other

private theorem selectCar_cases (race : Race) (asks : block.command = .selectCar)
    (source : Chance.Source State) (state : State) :
    (∃ text next, Handled source race state block text next state) ∨
      ∃ fault, Refused race block fault := by
  cases known : model? block with
  | none => exact .inr ⟨_, .entry asks (.inl known)⟩
  | some model =>
    cases filled : (Text.trim (block.text 0)).isEmpty with
    | true => exact .inr ⟨_, .entry asks (.inr filled)⟩
    | false =>
      by_cases taken : block.text 0 ∈ race.names
      · exact .inr ⟨_, .taken asks known filled taken⟩
      · by_cases short : (block.text 0).length ≤ Car.longestName
        · exact .inl ⟨_, _, .register asks known filled short taken⟩
        · exact .inr ⟨_, .long asks known filled taken (Nat.lt_of_not_le short)⟩

private theorem event_cases (race : Race) (asks : event? block.command = some event)
    (source : Chance.Source State) (state : State) :
    (∃ text next, Handled source race state block text next state) ∨
      ∃ fault, Refused race block fault := by
  by_cases entered : block.text 0 ∈ race.names
  · have present : (changeFirst (block.text 0) event race.cars).isSome :=
      changeFirst_isSome_iff.mpr entered
    obtain ⟨⟨text, others⟩, changed⟩ := Option.isSome_iff_exists.mp present
    exact .inl ⟨text, _, .event asks changed⟩
  · exact .inr ⟨_, .event asks entered⟩

theorem handled_or_refused (race : Race) (block : Block) (source : Chance.Source State)
    (state : State) :
    race.handle source block state = none ∨
      (∃ text next after, Handled source race state block text next after) ∨
      ∃ fault, Refused race block fault := by
  cases asks : block.command with
  | setUpRace =>
    cases asked : attempts? block with
    | none => exact .inr (.inr ⟨_, .setUp asks asked⟩)
    | some count => exact .inr (.inl ⟨_, _, state, .setUp asks asked⟩)
  | selectCar =>
    rcases selectCar_cases race asks source state with ⟨text, next, handled⟩ | refused
    · exact .inr (.inl ⟨text, next, state, handled⟩)
    · exact .inr (.inr refused)
  | boost | failure | drift | jump | windBlock =>
    rcases event_cases race (by rw [asks]; rfl) source state with ⟨text, next, handled⟩ | refused
    · exact .inr (.inl ⟨text, next, state, handled⟩)
    · exact .inr (.inr refused)
  | runTurn =>
    by_cases unready : race.cars = [] ∨ race.attempts = 0
    · exact .inr (.inr ⟨_, .turn asks unready⟩)
    · have ready := not_or.mp unready
      by_cases left : race.turn < race.attempts
      · cases taken : takeTurns source race.cars state with
        | none =>
          have entered : ¬ (race.cars.isEmpty ∨ race.attempts = 0) := by simpa using unready
          refine .inl ?_
          simp only [handle, asks, runTurn, if_neg entered, if_neg (Nat.not_le_of_lt left), taken]
          rfl
        | some turns => exact .inr (.inl ⟨_, _, turns.2, .turn asks ready.1 left taken⟩)
      · exact .inr (.inl ⟨_, _, state, .late asks ready.1 ready.2 (Nat.le_of_not_lt left)⟩)
  | inputNumber | add | subtract | multiply | divide | buyTickets | inputWinning | inputBonus
  | checkResult => exact .inr (.inr ⟨_, .foreign (by rw [asks]; decide)⟩)

/-- A race fails on a block exactly if it refuses it, and then nothing is changed or drawn. -/
theorem handle_eq_failed_iff {race : Race} :
    race.handle source block state = some (.failed fault (next, after)) ↔
      Refused race block fault ∧ next = race ∧ after = state := by
  constructor
  · intro failed
    rcases handled_or_refused race block source state with
      none | ⟨text, changed, later, handled⟩ | ⟨found, refused⟩
    · simp [none] at failed
    · simp [handled.done, Outcome.done, Outcome.failed] at failed
    · rw [refused.handle_eq] at failed
      obtain ⟨rfl, rfl, rfl⟩ : found = fault ∧ race = next ∧ state = after := by
        simpa [Outcome.failed] using failed
      exact ⟨refused, rfl, rfl⟩
  · rintro ⟨refused, rfl, rfl⟩
    exact refused.handle_eq source after

end Racing.Race

namespace Lotto.Lottery

variable {State : Type} {source : Chance.Source State}

/-- Why a lottery refuses a block, and the fault it answers. -/
inductive Refused (lottery : Lottery) (block : Block) : Fault → Prop where
  | count (asks : block.command = .buyTickets)
      (unfit : ∀ count, (block.number? 0).bind Decimal.natural? = some count → count < 1) :
      Refused lottery block (.validation .ticketCount)
  | tooMany (asks : block.command = .buyTickets)
      (asked : (block.number? 0).bind Decimal.natural? = some count) (many : mostTickets < count) :
      Refused lottery block (.validation .tooManyTickets)
  | winning (asks : block.command = .inputWinning) (unfit : ¬ Drawable (entries block)) :
      Refused lottery block (.validation .winningNumbers)
  | bonus (asks : block.command = .inputBonus)
      (unfit : ∀ number, bonus? block = some number →
        ¬ (isInGame number = true ∧ number ∉ lottery.winning)) :
      Refused lottery block (.validation .bonusNumber)
  | noTickets (asks : block.command = .checkResult) (none : lottery.tickets = []) :
      Refused lottery block (.validation .noTickets)
  | undrawn (asks : block.command = .checkResult) (bought : lottery.tickets ≠ [])
      (missing : lottery.winning = [] ∨ lottery.bonus = none) :
      Refused lottery block (.validation .drawIncomplete)
  | foreign (other : block.command.domain ≠ .lotto) :
      Refused lottery block (.commandMismatch block.command .lotto)

private theorem ticketCount_small {asked : Float}
    (unfit : ∀ count, Decimal.natural? asked = some count → count < 1) :
    ticketCount asked = .error .ticketCount := by
  have none : (Decimal.natural? asked).filter (1 ≤ ·) = none := by
    simpa [Option.filter_eq_none_iff] using unfit
  simp only [ticketCount, none]

private theorem ticketCount_large {asked : Float} (natural : Decimal.natural? asked = some count)
    (many : mostTickets < count) : ticketCount asked = .error .tooManyTickets := by
  have least : 1 ≤ count := Nat.le_of_lt (Nat.lt_of_le_of_lt (by decide) many)
  simp only [ticketCount, natural, Option.filter_some, least, decide_true, if_true, if_pos many]

private theorem check_undrawn {lottery : Lottery} (bought : lottery.tickets ≠ [])
    (missing : lottery.winning = [] ∨ lottery.bonus = none) :
    lottery.check = .error (.validation .drawIncomplete) := by
  unfold check
  rcases missing with entered | given
  · simp [bought, entered]
  · simp [bought, given]

theorem Refused.handle_eq {lottery : Lottery} (refused : Refused lottery block fault)
    (source : Chance.Source State) (state : State) :
    lottery.handle source block state = some (.failed fault (lottery, state)) := by
  cases refused with
  | count asks unfit =>
    simp only [handle, asks]
    cases given : block.number? 0 with
    | none => rfl
    | some asked =>
      simp only [given, Option.bind_some] at unfit
      simp only [buy, ticketCount_small unfit]
      rfl
  | tooMany asks asked many =>
    obtain ⟨number, given, natural⟩ := Option.bind_eq_some_iff.mp asked
    simp only [handle, asks, given, buy, ticketCount_large natural many]
    rfl
  | winning asks unfit =>
    simp only [handle, asks]
    exact congrArg (fun outcome => some (outcome.within fun lottery => (lottery, state)))
      ((enterWinning_eq lottery (entries block)).trans (if_neg unfit))
  | bonus asks unfit =>
    unfold bonus? at unfit
    simp only [handle, asks]
    cases given : (block.number? 0).bind Decimal.natural? with
    | none => rfl
    | some number =>
      simp only [enterBonus, if_neg (unfit number given)]
      rfl
  | noTickets asks none =>
    simp only [handle, asks, check, none]
    rfl
  | undrawn asks bought missing =>
    simp only [handle, asks, check_undrawn bought missing]
    rfl
  | foreign other =>
    unfold handle
    dsimp only
    split
    case h_5 => rfl
    all_goals
      rename_i asks
      exact absurd (by rw [asks]; rfl) other

private theorem purchase_cases (lottery : Lottery) (asks : block.command = .buyTickets)
    (source : Chance.Source State) (state : State) :
    lottery.handle source block state = none ∨
      (∃ text next after, Handled source lottery state block text next after) ∨
      ∃ fault, Refused lottery block fault := by
  cases asked : purchase? block with
  | none =>
    by_cases many : ∃ count, (block.number? 0).bind Decimal.natural? = some count ∧
        mostTickets < count
    · obtain ⟨count, given, many⟩ := many
      exact .inr (.inr ⟨_, .tooMany asks given many⟩)
    · refine .inr (.inr ⟨_, .count asks ?_⟩)
      intro count given
      have few : count ≤ mostTickets := Nat.le_of_not_lt fun more => many ⟨count, given, more⟩
      have unfit : ¬ (1 ≤ count ∧ count ≤ mostTickets) := by
        simpa using Option.filter_eq_none_iff.mp asked count given
      omega
  | some count =>
    cases drawn : Ticket.drawMany source count state with
    | none =>
      obtain ⟨given, least, most⟩ := purchase?_eq_some_iff.mp asked
      obtain ⟨number, present, natural⟩ := Option.bind_eq_some_iff.mp given
      have fits := ticketCount_eq_ok_iff.mpr ⟨natural, least, most⟩
      refine .inl ?_
      simp only [handle, asks, present, buy, fits, drawn]
      rfl
    | some tickets => exact .inr (.inl ⟨_, _, tickets.2, .buy asks asked drawn⟩)

theorem handled_or_refused (lottery : Lottery) (block : Block) (source : Chance.Source State)
    (state : State) :
    lottery.handle source block state = none ∨
      (∃ text next after, Handled source lottery state block text next after) ∨
      ∃ fault, Refused lottery block fault := by
  cases asks : block.command with
  | buyTickets => exact purchase_cases lottery asks source state
  | inputWinning =>
    by_cases drawable : Drawable (entries block)
    · exact .inr (.inl ⟨_, _, state, .winning asks drawable⟩)
    · exact .inr (.inr ⟨_, .winning asks drawable⟩)
  | inputBonus =>
    by_cases fits : ∃ number, bonus? block = some number ∧ isInGame number = true ∧
        number ∉ lottery.winning
    · obtain ⟨number, given, inGame, apart⟩ := fits
      exact .inr (.inl ⟨_, _, state, .bonus asks given inGame apart⟩)
    · refine .inr (.inr ⟨_, .bonus asks ?_⟩)
      exact fun number given own => fits ⟨number, given, own⟩
  | checkResult =>
    by_cases ready : lottery.tickets ≠ [] ∧ lottery.winning ≠ [] ∧ lottery.bonus.isSome
    · obtain ⟨summary, checked⟩ := check_isOk_iff.mpr ready
      exact .inr (.inl ⟨_, _, state, .check asks checked⟩)
    · by_cases bought : lottery.tickets = []
      · exact .inr (.inr ⟨_, .noTickets asks bought⟩)
      · refine .inr (.inr ⟨_, .undrawn asks bought ?_⟩)
        by_cases entered : lottery.winning = []
        · exact .inl entered
        · exact .inr (by simpa [bought, entered] using ready)
  | inputNumber | add | subtract | multiply | divide | setUpRace | selectCar | boost | failure
  | drift | jump | windBlock | runTurn => exact .inr (.inr ⟨_, .foreign (by rw [asks]; decide)⟩)

/-- A lottery fails on a block exactly if it refuses it, and then nothing is changed or drawn. -/
theorem handle_eq_failed_iff {lottery : Lottery} :
    lottery.handle source block state = some (.failed fault (next, after)) ↔
      Refused lottery block fault ∧ next = lottery ∧ after = state := by
  constructor
  · intro failed
    rcases handled_or_refused lottery block source state with
      none | ⟨text, changed, later, handled⟩ | ⟨found, refused⟩
    · simp [none] at failed
    · simp [handled.done, Outcome.done, Outcome.failed] at failed
    · rw [refused.handle_eq] at failed
      obtain ⟨rfl, rfl, rfl⟩ : found = fault ∧ lottery = next ∧ state = after := by
        simpa [Outcome.failed] using failed
      exact ⟨refused, rfl, rfl⟩
  · rintro ⟨refused, rfl, rfl⟩
    exact refused.handle_eq source after

end Lotto.Lottery

open Racing (Race)
open Lotto (Lottery)

theorem Calculator.unchanged_of_failed {calculator : Calculator}
    (failed : calculator.handle block = .failed fault next) : next = calculator := by
  unfold handle at failed
  split at failed
  · split at failed
    · exact (congrArg Outcome.state failed).symm
    · unfold enter at failed
      split at failed
      · simp [Outcome.done, Outcome.failed] at failed
      · exact (congrArg Outcome.state failed).symm
      · dsimp only at failed
        split at failed
        · exact (congrArg Outcome.state failed).symm
        · simp [Outcome.done, Outcome.failed] at failed
  · split at failed
    · exact (congrArg Outcome.state failed).symm
    · unfold await at failed
      split at failed
      · exact (congrArg Outcome.state failed).symm
      · exact (congrArg Outcome.state failed).symm
      · simp [Outcome.done, Outcome.failed] at failed

/-- A block that fails changes neither a calculator nor a race nor a lottery, whatever they hold, and
leaves the source as it was. It draws nothing on the way either: under any other source, and even
under one that has run out, it fails alike. -/
theorem failure_changes_nothing (block : Block) :
    (∀ (calculator : Calculator) fault next, calculator.handle block = .failed fault next →
      next = calculator) ∧
    (∀ (State : Type) (source : Chance.Source State) (race : Race) state fault next after,
      race.handle source block state = some (.failed fault (next, after)) →
      next = race ∧ after = state ∧
        ∀ (Other : Type) (other : Chance.Source Other) rest,
          race.handle other block rest = some (.failed fault (race, rest))) ∧
    (∀ (State : Type) (source : Chance.Source State) (lottery : Lottery) state fault next after,
      lottery.handle source block state = some (.failed fault (next, after)) →
      next = lottery ∧ after = state ∧
        ∀ (Other : Type) (other : Chance.Source Other) rest,
          lottery.handle other block rest = some (.failed fault (lottery, rest))) := by
  refine ⟨?_, ?_, ?_⟩
  · intro calculator fault next failed
    exact Calculator.unchanged_of_failed failed
  · intro State source race state fault next after failed
    obtain ⟨refused, rfl, rfl⟩ := Race.handle_eq_failed_iff.mp failed
    exact ⟨rfl, rfl, fun Other other rest => refused.handle_eq other rest⟩
  · intro State source lottery state fault next after failed
    obtain ⟨refused, rfl, rfl⟩ := Lottery.handle_eq_failed_iff.mp failed
    exact ⟨rfl, rfl, fun Other other rest => refused.handle_eq other rest⟩

/-- A bonus number that was drawn as a winning number, after a lottery was set up for it, and the same
block where it does not belong. -/
theorem failure_changes_nothing_drawn_bonus :
    let block : Block := .bare .inputBonus [.number 7]
    let calculator : Calculator := ⟨some 1, some .divide, 3⟩
    let race : Race := ⟨[⟨"pobi", .sonata, 2, true, false, none⟩], 3, 1⟩
    let lottery : Lottery := ⟨[[1, 2, 3, 4, 5, 6]], [7, 8, 9, 10, 11, 12], some 13, 1000⟩
    (∃ fault next, calculator.handle block = .failed fault next ∧ next = calculator) ∧
    (∃ fault next after, race.handle Chance.replay block [9] = some (.failed fault (next, after)) ∧
      next = race ∧ after = [9] ∧
      race.handle Chance.replay block [] = some (.failed fault (race, []))) ∧
    ∃ next after, lottery.handle Chance.replay block [9] =
        some (.failed (.validation .bonusNumber) (next, after)) ∧
      next = lottery ∧ after = [9] ∧
      lottery.handle Chance.replay block [] = some (.failed (.validation .bonusNumber) (lottery, [])) := by
  intro block calculator race lottery
  obtain ⟨still, stood, kept⟩ := failure_changes_nothing block
  have given : Lottery.bonus? block = some 7 := by decide +kernel
  have mismatched : calculator.handle block = .failed _ calculator := rfl
  have foreign : race.handle Chance.replay block [9] = some (.failed _ (race, [9])) := rfl
  have drawn : lottery.Refused block (.validation .bonusNumber) := by
    refine .bonus rfl ?_
    intro number entered
    obtain rfl : 7 = number := Option.some.inj (given.symm.trans entered)
    decide
  have failed := drawn.handle_eq Chance.replay [9]
  refine ⟨⟨_, _, mismatched, still _ _ _ mismatched⟩, ⟨_, _, _, foreign, ?_⟩, ⟨_, _, failed, ?_⟩⟩
  · obtain ⟨same, rest, anywhere⟩ := stood _ _ _ _ _ _ _ foreign
    exact ⟨same, rest, anywhere _ Chance.replay []⟩
  · obtain ⟨same, rest, anywhere⟩ := kept _ _ _ _ _ _ _ failed
    exact ⟨same, rest, anywhere _ Chance.replay []⟩

end MissionScript
