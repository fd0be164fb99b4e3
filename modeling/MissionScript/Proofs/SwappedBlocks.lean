import MissionScript.Proofs.DrawAccount
import MissionScript.Proofs.SkillRun

namespace MissionScript

/-- The commands that act on one car of a race. -/
def Command.carCommands : List Command :=
  [.selectCar, .boost, .failure, .drift, .jump, .windBlock]

/-- Two blocks that touch different things in a race: one of them plans it and the other does not, or they
name different cars, and at most one of them lets its car in. No turn is among them. -/
structure Block.Independent (first second : Block) : Prop where
  noTurn : first.command ≠ .runTurn ∧ second.command ≠ .runTurn
  apart : (first.command = .setUpRace ↔ second.command ≠ .setUpRace) ∨
    first.command ∈ Command.carCommands ∧ second.command ∈ Command.carCommands ∧
      first.text 0 ≠ second.text 0 ∧ ¬ (first.command = .selectCar ∧ second.command = .selectCar)

namespace Block.Independent

variable {first second : Block}

private theorem plan (independent : first.Independent second) :
    ¬ (first.command = .setUpRace ∧ second.command = .setUpRace) := by
  rintro ⟨one, two⟩
  obtain planned | ⟨inside, _⟩ := independent.apart
  · exact planned.mp one two
  · simp [one, Command.carCommands] at inside

private theorem entry (independent : first.Independent second) :
    ¬ (first.command = .selectCar ∧ second.command = .selectCar) := by
  rintro ⟨one, two⟩
  obtain planned | ⟨_, _, _, apart⟩ := independent.apart
  · simp [one, two] at planned
  · exact apart ⟨one, two⟩

private theorem name (independent : first.Independent second) (acts : first.command ≠ .setUpRace)
    (other : second.command ≠ .setUpRace) : first.text 0 ≠ second.text 0 := by
  obtain planned | ⟨_, _, apart, _⟩ := independent.apart
  · exact absurd (planned.mpr other) acts
  · exact apart

end Block.Independent

namespace Racing.Race

variable {State : Type} {source : Chance.Source State}

private theorem changeFirst_append {Answer : Type} {answer : Answer} {name : String}
    {event : Car → Answer × Car} {cars : List Car} {late : Car} (other : late.name ≠ name) :
    changeFirst name event (cars ++ [late]) = some (answer, others) ↔
      ∃ rest, changeFirst name event cars = some (answer, rest) ∧ others = rest ++ [late] := by
  induction cars generalizing others with
  | nil => simp [changeFirst, other]
  | cons car cars ih =>
    rw [List.cons_append, changeFirst_cons_eq_some_iff]
    simp only [changeFirst_cons_eq_some_iff, ih]
    constructor
    · rintro (⟨same, rfl, rfl⟩ | ⟨different, _, ⟨rest, found, rfl⟩, rfl⟩)
      · exact ⟨_, .inl ⟨same, rfl, rfl⟩, rfl⟩
      · exact ⟨_, .inr ⟨different, rest, found, rfl⟩, rfl⟩
    · rintro ⟨_, ⟨same, rfl, rfl⟩ | ⟨different, rest, found, rfl⟩, rfl⟩
      · exact .inl ⟨same, rfl, rfl⟩
      · exact .inr ⟨different, _, ⟨rest, found, rfl⟩, rfl⟩

private theorem changeFirst_swap {Answer : Type} {text answer : Answer} {one two : String}
    {event happening : Car → Answer × Car} {cars middle last : List Car} (apart : one ≠ two)
    (keeps : ∀ car, (event car).2.name = car.name)
    (holds : ∀ car, (happening car).2.name = car.name)
    (first : changeFirst one event cars = some (text, middle))
    (second : changeFirst two happening middle = some (answer, last)) :
    ∃ between, changeFirst two happening cars = some (answer, between) ∧
      changeFirst one event between = some (text, last) := by
  induction cars generalizing middle last with
  | nil => simp [changeFirst] at first
  | cons car cars ih =>
    obtain ⟨same, rfl, rfl⟩ | ⟨different, rest, found, rfl⟩ :=
      changeFirst_cons_eq_some_iff.mp first
    · have passed : (event car).2.name ≠ two := by rw [keeps, same]; exact apart
      obtain ⟨own, _⟩ | ⟨_, behind, later, rfl⟩ := changeFirst_cons_eq_some_iff.mp second
      · exact absurd own passed
      · exact ⟨car :: behind,
          changeFirst_cons_eq_some_iff.mpr (.inr ⟨keeps car ▸ passed, behind, later, rfl⟩),
          changeFirst_cons_eq_some_iff.mpr (.inl ⟨same, rfl, rfl⟩)⟩
    · obtain ⟨own, rfl, rfl⟩ | ⟨passed, behind, later, rfl⟩ :=
        changeFirst_cons_eq_some_iff.mp second
      · exact ⟨(happening car).2 :: cars,
          changeFirst_cons_eq_some_iff.mpr (.inl ⟨own, rfl, rfl⟩),
          changeFirst_cons_eq_some_iff.mpr
            (.inr ⟨(holds car).symm ▸ different, rest, found, rfl⟩)⟩
      · obtain ⟨between, early, late⟩ := ih found later
        exact ⟨car :: between,
          changeFirst_cons_eq_some_iff.mpr (.inr ⟨passed, between, early, rfl⟩),
          changeFirst_cons_eq_some_iff.mpr (.inr ⟨different, behind, late, rfl⟩)⟩

private theorem Handled.swap {race : Race} (independent : first.Independent second)
    (one : Handled source race state first text middle between)
    (two : Handled source middle between second answer last after) :
    ∃ other there, Handled source race state second answer other there ∧
      Handled source other there first text last after := by
  obtain ⟨noTurn, noOther⟩ := independent.noTurn
  cases one with
  | late asks | turn asks => exact absurd asks noTurn
  | setUp asks asked =>
    cases two with
    | late asks | turn asks => exact absurd asks noOther
    | setUp again => exact absurd ⟨asks, again⟩ independent.plan
    | register enters known filled short fresh =>
      exact ⟨_, _, .register enters known filled short fresh, .setUp asks asked⟩
    | event happens changed => exact ⟨_, _, .event happens changed, .setUp asks asked⟩
  | register enters known filled short fresh =>
    cases two with
    | late asks | turn asks => exact absurd asks noOther
    | setUp asks asked =>
      exact ⟨_, _, .setUp asks asked, .register enters known filled short fresh⟩
    | register again => exact absurd ⟨enters, again⟩ independent.entry
    | event happens changed =>
      have apart := independent.name (by simp [enters]) (not_setUp_of_event? happens)
      obtain ⟨rest, found, rfl⟩ := (changeFirst_append apart).mp changed
      have names := changeFirst_names (event?_name happens) found
      exact ⟨_, _, .event happens found,
        .register enters known filled short (by rw [Race.names, names]; exact fresh)⟩
  | event happens changed =>
    cases two with
    | late asks | turn asks => exact absurd asks noOther
    | setUp asks asked => exact ⟨_, _, .setUp asks asked, .event happens changed⟩
    | register enters known filled short fresh =>
      have apart := independent.name (not_setUp_of_event? happens) (by simp [enters])
      have names := changeFirst_names (event?_name happens) changed
      refine ⟨_, _, .register enters known filled short ?_,
        .event happens ((changeFirst_append apart.symm).mpr ⟨_, changed, rfl⟩)⟩
      rw [Race.names, ← names]
      exact fresh
    | event again found =>
      have apart :=
        independent.name (not_setUp_of_event? happens) (not_setUp_of_event? again)
      obtain ⟨between, early, late⟩ :=
        changeFirst_swap apart (event?_name happens) (event?_name again) changed found
      exact ⟨_, _, .event again early, .event happens late⟩

end Racing.Race

namespace Progress

variable {State : Type} {source : Chance.Source State}

private theorem stepped_iff_of_ne (belongs : block.Belongs .racing) (noTurn : block.command ≠ .runTurn)
    {progress : Progress} : Stepped source .racing progress state block text next after ↔
      ∃ changed, Racing.Race.Handled source progress.race state block text changed after ∧
        next = { progress with race := changed } := by
  constructor
  · intro stepped
    obtain ⟨told, changed, handled, rfl, rfl⟩ := stepped.handled belongs
    exact ⟨changed, by simpa [toldWinners?_of_ne noTurn, announced] using handled,
      by simp [toldWinners?_of_ne noTurn]⟩
  · rintro ⟨changed, handled, rfl⟩
    simpa [toldWinners?_of_ne noTurn, announced] using
      (Stepped.racing rfl belongs handled : Stepped source .racing progress state block _ _ after)

/-- Independent blocks lead to the same progress in either order. -/
theorem Stepped.swap {progress : Progress} (independent : first.Independent second)
    (one : Stepped source .racing progress state first text middle between)
    (two : Stepped source .racing middle between second answer last after) :
    ∃ other there, Stepped source .racing progress state second answer other there ∧
      Stepped source .racing other there first text last after := by
  by_cases passed : first.domain = .utility
  · obtain ⟨rfl, rfl, rfl⟩ := one.unique (.utility passed)
    exact ⟨last, after, two, .utility passed⟩
  by_cases spared : second.domain = .utility
  · obtain ⟨rfl, rfl, rfl⟩ := two.unique (.utility spared)
    exact ⟨progress, state, .utility spared, one⟩
  obtain ⟨noTurn, noOther⟩ := independent.noTurn
  have belongs := one.belongs passed
  have owned := two.belongs spared
  obtain ⟨race, handled, rfl⟩ := (stepped_iff_of_ne belongs noTurn).mp one
  obtain ⟨later, again, rfl⟩ := (stepped_iff_of_ne owned noOther).mp two
  obtain ⟨other, there, early, late⟩ := handled.swap independent again
  exact ⟨_, there, (stepped_iff_of_ne owned noOther).mpr ⟨other, early, rfl⟩,
    (stepped_iff_of_ne belongs noTurn).mpr ⟨later, late, rfl⟩⟩

/-- A trace stays one when independent neighbours change places. Their texts go with them. -/
theorem Ran.swap {before rest : List Block} {progress : Progress}
    (independent : first.Independent second)
    (ran : Ran source .racing progress state (before ++ first :: second :: rest) texts last after) :
    ∃ front text answer back, front.length = before.length ∧ texts = front ++ text :: answer :: back ∧
      Ran source .racing progress state (before ++ second :: first :: rest)
        (front ++ answer :: text :: back) last after := by
  obtain ⟨front, behind, reached, here, rfl, early, late⟩ := ran.split
  cases late with
  | cons one others =>
    cases others with
    | cons two back =>
      obtain ⟨other, there, sooner, later⟩ := (runBlock_eq_done_iff.mp one).swap independent
        (runBlock_eq_done_iff.mp two)
      exact ⟨front, _, _, _, early.length_eq, rfl,
        early.append (.cons sooner.runBlock_eq (.cons later.runBlock_eq back))⟩

end Progress

namespace Script

open Chance (Followed)
open Progress

variable {State : Type} {source : Chance.Source State} {status : Status}

private theorem zipWith_neighbours {before rest : List Block} {front back : List String}
    (place : front.length = before.length) :
    List.zipWith line (before ++ first :: second :: rest) (front ++ text :: answer :: back) =
      List.zipWith line before front ++ line first text :: line second answer ::
        List.zipWith line rest back :=
  List.zipWith_append place.symm

/-- Independent neighbours change places, and their lines in the report with them. -/
theorem run_swap {before rest : List Block} {first second : Block} {front back : List String}
    (independent : first.Independent second) (inStage : status.stage = .racing)
    (place : front.length = before.length)
    (ran : (⟨before ++ first :: second :: rest⟩ : Script).run source status time state =
      some (⟨front ++ one :: two :: back, told, moment⟩, after))
    (unaborted : ¬ Report.Aborted ⟨front ++ one :: two :: back, told, moment⟩) :
    (⟨before ++ second :: first :: rest⟩ : Script).run source status time state =
      some (⟨front ++ two :: one :: back, told, moment⟩, after) := by
  obtain ⟨texts, last, trace⟩ := ran_of_unaborted (by simp) ran unaborted
  rw [inStage] at trace
  obtain ⟨own, text, answer, later, length, rfl, swapped⟩ := trace.swap independent
  have whole := run_eq_of_race inStage trace (by simp) time
  have other := run_eq_of_race inStage swapped (by simp) time
  rw [zipWith_neighbours length] at whole other
  obtain ⟨lines, rfl, rfl⟩ : _ ∧ _ ∧ _ := by simpa using ran.symm.trans whole
  have same : front.length = (List.zipWith line before own).length := by simp [place, length]
  obtain ⟨rfl, behind⟩ := List.append_inj lines same
  obtain ⟨rfl, rfl, rfl⟩ : _ ∧ _ ∧ _ := by simpa using behind
  exact other

/-- Independent neighbours of a racing script that runs to its end can change places. Their lines change
places with them, and all else stays: the other lines, the status, the time and the draws. Every source
that makes these draws leads both scripts to these reports. -/
theorem run_swapped {before rest : List Block} {first second : Block}
    (inStage : status.stage = .racing)
    (ran : (⟨before ++ first :: second :: rest⟩ : Script).run source status time state =
      some (report, after))
    (unaborted : ¬ report.Aborted) (independent : first.Independent second) :
    ∃ front text answer back swapped draws, front.length = before.length ∧
      report.lines =
        front ++ (first.label ++ ": " ++ text) :: (second.label ++ ": " ++ answer) :: back ∧
      swapped = { report with lines :=
        front ++ (second.label ++ ": " ++ answer) :: (first.label ++ ": " ++ text) :: back } ∧
      ¬ swapped.Aborted ∧
      (⟨before ++ second :: first :: rest⟩ : Script).run source status time state =
        some (swapped, after) ∧
      Followed draws draws (fun _ other here later =>
        (⟨before ++ first :: second :: rest⟩ : Script).run other status time here =
            some (report, later) ∧
          (⟨before ++ second :: first :: rest⟩ : Script).run other status time here =
            some (swapped, later)) source state after := by
  obtain ⟨texts, last, trace⟩ := ran_of_unaborted (by simp) ran unaborted
  rw [inStage] at trace
  obtain ⟨own, text, answer, later, length, rfl, _⟩ := trace.swap independent
  have whole := run_eq_of_race inStage trace (by simp) time
  rw [zipWith_neighbours length] at whole
  obtain rfl : report = _ := (Prod.mk.inj (Option.some.inj (ran.symm.trans whole))).1
  have place : (List.zipWith line before own).length = before.length := by simp [length]
  obtain ⟨_, _, draws, _, followed⟩ := run_recorded ran
  exact ⟨_, text, answer, _, _, draws, place, rfl, rfl, unaborted,
    run_swap independent inStage place ran unaborted,
    followed.imp fun _ _ _ _ again => ⟨again, run_swap independent inStage place again unaborted⟩⟩

/-- A car enters before another one is boosted, or after it. -/
theorem run_swapped_entry :
    let setUp : Block := .bare .setUpRace [.number 1]
    let pobi : Block := .bare .selectCar [.text "pobi", .text "소나타"]
    let jun : Block := .bare .selectCar [.text "jun", .text "제네시스"]
    let boost : Block := .bare .boost [.text "pobi"]
    let turn : Block := .bare .runTurn []
    ∃ report swapped,
      (⟨[setUp, pobi, jun, boost, turn]⟩ : Script).run Chance.replay ⟨.racing, false, ""⟩ ⟨0, 0⟩
        [9, 4, 7] = some (report, [7]) ∧ ¬ report.Aborted ∧ jun.Independent boost ∧
      (⟨[setUp, pobi, boost, jun, turn]⟩ : Script).run Chance.replay ⟨.racing, false, ""⟩ ⟨0, 0⟩
        [9, 4, 7] = some (swapped, [7]) ∧
      report.lines.drop 2 = [": [CAR REGISTERED] jun (Genesis) registered.",
        ": Boost applied to pobi! It moves extra on the next turn.",
        ": --- Turn 1 ---\npobi: --\njun: -\n[WINNERS]: pobi"] ∧
      swapped.lines.drop 2 = [": Boost applied to pobi! It moves extra on the next turn.",
        ": [CAR REGISTERED] jun (Genesis) registered.",
        ": --- Turn 1 ---\npobi: --\njun: -\n[WINNERS]: pobi"] ∧
      swapped.status = report.status := by
  intro setUp pobi jun boost turn
  have told : ((⟨[setUp, pobi] ++ jun :: boost :: [turn]⟩ : Script).run Chance.replay
      ⟨.racing, false, ""⟩ ⟨0, 0⟩ [9, 4, 7]).map (fun (report, after) =>
        (decide report.Aborted, report.lines.drop 2, after)) =
      some (false, [": [CAR REGISTERED] jun (Genesis) registered.",
        ": Boost applied to pobi! It moves extra on the next turn.",
        ": --- Turn 1 ---\npobi: --\njun: -\n[WINNERS]: pobi"], [7]) := by decide +kernel
  obtain ⟨⟨report, after⟩, ran, same⟩ := Option.map_eq_some_iff.mp told
  obtain ⟨unaborted, lines, rfl⟩ : decide report.Aborted = false ∧ _ ∧ after = _ := by
    simpa only [Prod.mk.injEq] using same
  have independent : jun.Independent boost :=
    ⟨by decide, .inr ⟨by decide, by decide, by decide, by decide⟩⟩
  have finished := of_decide_eq_false unaborted
  obtain ⟨front, text, answer, back, _, _, place, shown, rfl, _, ends, _⟩ :=
    run_swapped rfl ran finished independent
  obtain ⟨_, _, rfl⟩ : ∃ one two, front = [one, two] := List.length_eq_two.mp place
  rw [shown] at lines
  obtain ⟨one, two, behind⟩ : jun.label ++ ": " ++ text = _ ∧
      boost.label ++ ": " ++ answer = _ ∧ back = _ := by
    simpa only [List.drop_succ_cons, List.drop_zero, List.cons_append, List.nil_append,
      List.cons.injEq] using lines
  exact ⟨report, _, ran, finished, independent, ends, by rw [shown]; exact lines,
    by simp [one, two, behind], rfl⟩

end Script

end MissionScript
