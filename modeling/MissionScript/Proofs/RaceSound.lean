import Mathlib.Data.List.Nodup
import MissionScript.Proofs.FieldTurn
import MissionScript.Proofs.History

namespace MissionScript

variable {State : Type}

/-- The block ran a turn, and the race was not finished before it. -/
def Deed.moves (deed : Deed Racing.Race State) : Bool :=
  deed.did .runTurn && !deed.found.isFinished

@[simp]
private theorem Deed.moves_ok (block : Block) (found left : Racing.Race) (state after : State)
    (text : String) : moves ⟨block, found, state, .ok text, left, after⟩ =
      (decide (block.command = .runTurn) && !found.isFinished) := by
  simp [moves]

@[simp]
private theorem Deed.moves_error (block : Block) (found left : Racing.Race) (state after : State)
    (fault : Fault) : moves ⟨block, found, state, .error fault, left, after⟩ = false := by
  simp [moves]

namespace Racing.Race

variable {source : Chance.Source State} {start : State}

/-- What every race keeps to. -/
structure Sound (race : Race) : Prop where
  apart : race.names.Nodup
  length : ∀ name ∈ race.names, 1 ≤ name.length ∧ name.length ≤ 5
  filled : ∀ name ∈ race.names, (Text.trim name).isEmpty = false
  turn : race.turn ≤ race.attempts

theorem sound_empty : Sound .empty where
  apart := .nil
  length := by simp [names, empty]
  filled := by simp [names, empty]
  turn := Nat.le_refl 0

/-- Nothing has been planned, and no car has left the start line. -/
structure Unplanned (race : Race) : Prop where
  attempts : race.attempts = 0
  turn : race.turn = 0
  position : ∀ car ∈ race.cars, car.position = 0

private theorem unplanned_empty : Unplanned .empty where
  attempts := rfl
  turn := rfl
  position := by simp [empty]

/-- A sound race is finished as soon as no turn of the plan is left. -/
theorem Sound.isFinished_iff {race : Race} (sound : race.Sound) (planned : 0 < race.attempts) :
    race.isFinished = true ↔ race.attempts ≤ race.turn := by
  have within := sound.turn
  simp only [isFinished, Bool.and_eq_true, decide_eq_true_eq, beq_iff_eq]
  omega

theorem Handled.entry {race : Race} (handled : Handled source race state block text next after)
    (asks : block.command = .selectCar) : (Text.trim (block.text 0)).isEmpty = false ∧
      (block.text 0).length ≤ Car.longestName ∧ block.text 0 ∉ race.names := by
  cases handled with
  | register _ known filled short fresh => exact ⟨filled, short, fresh⟩
  | event happens => simp [asks, event?] at happens
  | setUp other | late other | turn other => simp [asks] at other

theorem Handled.sound {race : Race} (handled : Handled source race state block text next after)
    (sound : race.Sound) : next.Sound := by
  have turn := (handled.clock sound.turn).sound sound.turn
  have names := handled.names_eq
  by_cases enters : block.command = .selectCar
  · obtain ⟨filled, short, fresh⟩ := handled.entry enters
    have some := Nat.pos_of_ne_zero (filled_length filled)
    rw [if_pos enters] at names
    refine ⟨?_, ?_, ?_, turn⟩
    · rw [names, ← List.concat_eq_append]
      exact List.Nodup.concat fresh sound.apart
    · rw [names, List.forall_mem_append, List.forall_mem_singleton]
      exact ⟨sound.length, some, short⟩
    · rw [names, List.forall_mem_append, List.forall_mem_singleton]
      exact ⟨sound.filled, filled⟩
  · rw [if_neg enters, List.append_nil] at names
    exact ⟨names ▸ sound.apart, names ▸ sound.length, names ▸ sound.filled, turn⟩

private theorem Handled.unplanned {race : Race}
    (handled : Handled source race state block text next after)
    (noSetUp : block.command ≠ .setUpRace) (unplanned : race.Unplanned) : next.Unplanned := by
  have within : race.turn ≤ race.attempts := by
    rw [unplanned.turn]
    exact Nat.zero_le _
  have position : ∀ car ∈ next.cars, car.position = 0 := by
    intro car member
    obtain ⟨old, inside, passes⟩ | ⟨_, model, rfl⟩ := handled.origin car member
    · cases passes with
      | stays => exact unplanned.position _ inside
      | event asks => exact (event?_position asks old).trans (unplanned.position old inside)
      | turn asks left =>
        rw [unplanned.attempts] at left
        exact absurd left (Nat.not_lt_zero _)
    · rfl
  cases handled.clock within with
  | starts asks => exact absurd asks noSetUp
  | runs _ _ planned => exact absurd unplanned.attempts planned
  | stands _ _ same kept =>
    exact ⟨same.trans unplanned.attempts, kept.trans unplanned.turn, position⟩

/-- What every step keeps holds wherever a history leads. -/
theorem keeps_of_history {race last : Race}
    (history : History (handle source) race state deeds last final) (Holds : Race → Prop)
    (first : Holds race) (keeps : ∀ {found here block text left later}, Holds found →
      Handled source found here block text left later → Holds left) : Holds last := by
  refine history.keeps Holds first fun handled holds => ?_
  obtain ⟨_, _, step⟩ | ⟨_, _, rfl, _⟩ := handle_cases handled
  · exact keeps holds step
  · exact holds

theorem sound_of_history {race last : Race}
    (history : History (handle source) race state deeds last final) (sound : race.Sound) :
    last.Sound :=
  keeps_of_history history Sound sound fun sound step => step.sound sound

private theorem unplanned_of_history {race : Race}
    (history : History (handle source) .empty start deeds race state)
    (noSetUp : ∀ deed ∈ deeds, deed.did .setUpRace = false) : race.Unplanned := by
  induction history with
  | start => exact unplanned_empty
  | after past handled ih =>
    rw [List.forall_mem_append, List.forall_mem_singleton] at noSetUp
    obtain ⟨text, rfl, step⟩ | ⟨_, _, rfl, _⟩ := handle_cases handled
    · exact step.unplanned (by simpa using noSetUp.2) (ih noSetUp.1)
    · exact ih noSetUp.1

/-- Names stay where they are. -/
theorem names_prefix_of_history {race last : Race}
    (history : History (handle source) race state deeds last final) :
    race.names <+: last.names := by
  refine keeps_of_history history (race.names <+: ·.names) List.prefix_rfl ?_
  intro found here block text left later kept step
  rw [step.names_eq]
  exact kept.trans (List.prefix_append _ _)

private theorem Handled.counted {race : Race}
    (handled : Handled source race state block text next after)
    (sound : race.Sound) (noSetUp : block.command ≠ .setUpRace) :
    next.attempts = race.attempts ∧ next.turn = race.turn +
      if block.command = .runTurn ∧ race.isFinished = false then 1 else 0 := by
  cases handled.clock sound.turn with
  | starts asks => exact absurd asks noSetUp
  | runs asks _ planned same counted =>
    -- The clock stops at the plan, and there a sound race is finished.
    have finished := sound.isFinished_iff (Nat.pos_of_ne_zero planned)
    refine ⟨same, ?_⟩
    rw [counted]
    cases ended : race.isFinished with
    | true =>
      rw [Nat.min_eq_right (Nat.le_succ_of_le (finished.mp ended))]
      simpa using Nat.le_antisymm (finished.mp ended) sound.turn
    | false =>
      have left := Nat.lt_of_not_le (mt finished.mpr (by simp [ended]))
      rw [Nat.min_eq_left left]
      simp [asks]
  | stands _ noTurn same kept => exact ⟨same, by simp [noTurn, kept]⟩

/-- Up to the next set-up the plan stays, and the turns that are run are counted. -/
theorem counted_of_history {race last : Race}
    (history : History (handle source) race state deeds last final) (sound : race.Sound)
    (noSetUp : ∀ deed ∈ deeds, deed.did .setUpRace = false) :
    last.attempts = race.attempts ∧ last.turn = race.turn + deeds.countP Deed.moves := by
  induction history with
  | start => exact ⟨rfl, rfl⟩
  | after past handled ih =>
    rw [List.forall_mem_append, List.forall_mem_singleton] at noSetUp
    obtain ⟨kept, turns⟩ := ih noSetUp.1
    rw [List.countP_append, List.countP_singleton]
    obtain ⟨text, rfl, step⟩ | ⟨_, rfl, rfl, _⟩ := handle_cases handled
    · obtain ⟨same, counted⟩ :=
        step.counted (sound_of_history past sound) (by simpa using noSetUp.2)
      refine ⟨same.trans kept, ?_⟩
      rw [counted, turns, Nat.add_assoc]
      simp
    · exact ⟨kept, by simpa using turns⟩

private theorem turnText_ne_overText (turn : Nat) (cars : List Car) :
    turnText turn cars ≠ overText := by
  have header : ∃ rest, turnText turn cars = "--- Turn " ++ rest := by
    rw [turnText_eq]
    cases cars with
    | nil => exact ⟨toString turn ++ " ---", by simp [String.append_assoc]⟩
    | cons car cars =>
      rw [List.map_cons, String.intercalate_cons_cons]
      exact ⟨_, by rw [String.append_assoc, String.append_assoc, String.append_assoc]⟩
  obtain ⟨rest, starts⟩ := header
  intro same
  rw [starts] at same
  simpa [overText] using congrArg (·.toList.head?) same

/-- A turn in a race that is ready. The notice of the end is its answer exactly when the race is
finished, and then nothing has changed and nothing was drawn, wherever the draws would come from.
Otherwise one more turn is counted and no car is left broken. -/
theorem runTurn_of_ready (endless : source.Endless) {race : Race} (sound : race.Sound)
    (asks : block.command = .runTurn) (entered : race.cars ≠ []) (planned : 0 < race.attempts)
    (state : State) :
    ∃ text next after, race.handle source block state = some (.done text (next, after)) ∧
      (text = overText ↔ race.isFinished = true) ∧
      (race.isFinished = true → next = race ∧
        ∀ {Other : Type} (other : Chance.Source Other) here,
          race.handle other block here = some (.done overText (race, here))) ∧
      (race.isFinished = false →
        next.turn = race.turn + 1 ∧ ∀ car ∈ next.cars, car.broken = false) := by
  have finished := sound.isFinished_iff planned
  by_cases spent : race.attempts ≤ race.turn
  -- The notice is given without a look at the source, so any source does.
  · have ended {Other : Type} (other : Chance.Source Other) (here : Other) :
        race.handle other block here = some (.done overText (race, here)) :=
      (Handled.late asks entered (Nat.ne_zero_of_lt planned) spent).done
    have done := finished.mpr spent
    exact ⟨_, _, _, ended source state, by simp [done], fun _ => ⟨rfl, ended⟩, by simp [done]⟩
  · obtain ⟨⟨turns, after⟩, taken⟩ :=
      Option.isSome_iff_exists.mp (takeTurns_isSome endless race.cars state)
    have going := eq_false_of_ne_true (mt finished.mp spent)
    have step := Handled.turn asks entered (Nat.lt_of_not_le spent) taken
    obtain ⟨draws, drawn, rfl⟩ := takeTurns_eq_some_iff.mp taken
    refine ⟨_, _, _, step.done, ?_, by simp [going], fun _ => ⟨rfl, ?_⟩⟩
    · have moving := turnText_ne_overText (race.turn + 1) (List.zipWith Car.tried race.cars draws)
      simpa [going, turnText_eq, Car.shown] using moving
    · intro car member
      obtain ⟨_, turn, rfl⟩ := List.mem_map.mp member
      obtain ⟨moved, _, rfl⟩ := List.mem_map.mp turn
      rfl

/-- Every sequence of blocks leads to a sound race, where turns are told, counted and brought to
their end by the plan, and from which on the names keep their places. -/
theorem history_sound (endless : source.Endless) (start : State) :
    (∀ blocks, ∃ deeds race state, History (handle source) .empty start deeds race state ∧
      deeds.map (·.block) = blocks) ∧
    ∀ deeds race state, History (handle source) .empty start deeds race state →
      race.Sound ∧
      ((∀ deed ∈ deeds, deed.did .setUpRace = false) → race.Unplanned) ∧
      (∀ block, block.command = .runTurn → race.cars ≠ [] → 0 < race.attempts →
        ∃ text next after, race.handle source block state = some (.done text (next, after)) ∧
          (text = overText ↔ race.isFinished = true) ∧
          (race.isFinished = true → next = race ∧
            ∀ {Other : Type} (other : Chance.Source Other) here,
              race.handle other block here = some (.done overText (race, here))) ∧
          (race.isFinished = false →
            next.turn = race.turn + 1 ∧ ∀ car ∈ next.cars, car.broken = false)) ∧
      (∀ block text next after, block.command = .setUpRace →
        race.handle source block state = some (.done text (next, after)) →
        ∃ count, attempts? block = some count ∧
          ∀ more last final, History (handle source) next after more last final →
            (∀ deed ∈ more, deed.did .setUpRace = false) →
            last.attempts = count ∧ last.turn = more.countP Deed.moves ∧
              (last.isFinished = true ↔ more.countP Deed.moves = count)) ∧
      ∀ more last final, History (handle source) race state more last final →
        race.names <+: last.names := by
  refine ⟨History.exists_of_total (handle_isSome endless) .empty start, ?_⟩
  intro deeds race state history
  have sound := sound_of_history history sound_empty
  refine ⟨sound, unplanned_of_history history, ?_, ?_, fun _ _ _ => names_prefix_of_history⟩
  · intro block asks entered planned
    exact runTurn_of_ready endless sound asks entered planned state
  · intro block text next after asks done
    have step := handled_of_done done
    cases step.clock sound.turn with
    | runs other | stands other => simp [asks] at other
    | starts _ asked anew =>
      refine ⟨next.attempts, asked, fun more last final later noSetUp => ?_⟩
      obtain ⟨kept, turns⟩ := counted_of_history later (step.sound sound) noSetUp
      rw [anew, Nat.zero_add] at turns
      have some := (attempts?_eq_some_iff.mp asked).2.1
      refine ⟨kept, turns, ?_⟩
      rw [← turns, ← kept]
      simp [isFinished, kept, Nat.pos_of_ne_zero (Nat.ne_of_gt some)]

/-- An unknown car, a turn of two, and then a plan of one turn instead, which ends the race. -/
theorem history_sound_planned_again :
    ∃ (deeds more : List (Deed Race Unit)) (planned race : Race),
      Chance.least.Endless ∧
      History (handle Chance.least) .empty () deeds planned () ∧
      deeds.map (·.block) = [.bare .boost [.text "pobi"], .bare .setUpRace [.number 2],
        .bare .selectCar [.text "pobi", .text "소나타"], .bare .runTurn [],
        .bare .setUpRace [.number 1]] ∧
      History (handle Chance.least) planned () more race () ∧
      more.map (·.block) = [.bare .runTurn [], .bare .jump []] ∧
      planned.Sound ∧ planned.turn = 0 ∧ race.turn = 1 ∧ race.isFinished = true := by
  have two : attempts? (.bare .setUpRace [.number 2]) = some 2 := by decide +kernel
  have one : attempts? (.bare .setUpRace [.number 1]) = some 1 := by decide +kernel
  have known : model? (.bare .selectCar [.text "pobi", .text "소나타"]) = some .sonata := by
    decide +kernel
  let pobi : Car := ⟨"pobi", .sonata, 0, false, false, none⟩
  have starts : Handled Chance.least .empty () (.bare .setUpRace [.number 2]) _ ⟨[], 2, 0⟩ () :=
    .setUp rfl two
  have enters : Handled Chance.least ⟨[], 2, 0⟩ () (.bare .selectCar [.text "pobi", .text "소나타"])
      _ ⟨[pobi], 2, 0⟩ () := .register rfl known (by decide) (by decide) (by decide)
  have taken : takeTurns Chance.least [pobi] () = some ([pobi.shown], ()) := rfl
  have runs (count : Nat) (some : 0 < count) : Handled Chance.least ⟨[pobi], count, 0⟩ ()
      (.bare .runTurn []) (turnText 1 [pobi]) ⟨[pobi], count, 1⟩ () := by
    have left : (⟨[pobi], count, 0⟩ : Race).turn < (⟨[pobi], count, 0⟩ : Race).attempts := some
    exact .turn rfl (List.cons_ne_nil pobi []) left taken
  have restarts : Handled Chance.least ⟨[pobi], 2, 1⟩ () (.bare .setUpRace [.number 1]) _
      ⟨[pobi], 1, 0⟩ () := .setUp rfl one
  have unknown : History (handle Chance.least) .empty ()
      [⟨.bare .boost [.text "pobi"], _, _, _, _, _⟩] .empty () := .after .start rfl
  have unfinished := ((unknown.after starts.done).after enters.done).after (runs 2 (by decide)).done
  have history := unfinished.after restarts.done
  have ended : History (handle Chance.least) ⟨[pobi], 1, 0⟩ () [_] ⟨[pobi], 1, 1⟩ () :=
    .after .start (runs 1 (by decide)).done
  have later : History (handle Chance.least) _ _ (_ ++ [⟨.bare .jump [], _, _, _, _, _⟩]) _ _ :=
    ended.after rfl
  obtain ⟨_, races⟩ := history_sound Chance.least_endless ()
  obtain ⟨_, _, _, plan, _⟩ := races _ _ _ unfinished
  obtain ⟨count, asked, counted⟩ := plan _ _ _ _ rfl restarts.done
  obtain rfl := Option.some.inj (one.symm.trans asked)
  obtain ⟨_, turn, finished⟩ := counted _ _ _ later (by decide)
  exact ⟨_, _, _, _, Chance.least_endless, history, rfl, later, rfl, (races _ _ _ history).1, rfl,
    turn, finished.mpr rfl⟩

end Racing.Race

end MissionScript
