import MissionScript.Proofs.IdleSkill
import MissionScript.Proofs.RaceSound
import MissionScript.Proofs.RunPair

/-! The result of a race. A race that is over keeps its cars where they are until it is set up again, but
cars can still enter, at the start line; they join the winners exactly if no car has left it. -/
namespace MissionScript

namespace Racing

variable {State : Type} {source : Chance.Source State}

instance lawfulOrderMax : Std.LawfulOrderMax UInt32 where
  max_le_iff one other bound := by
    rw [show max one other = if one ≤ other then other else one from rfl]
    split
    · rename_i less
      exact ⟨fun within => ⟨UInt32.le_trans less within, within⟩, And.right⟩
    · rename_i more
      have less := UInt32.le_of_lt (UInt32.not_le.mp more)
      exact ⟨fun within => ⟨within, UInt32.le_trans less within⟩, And.left⟩
  max_eq_or one other := by
    rw [show max one other = if one ≤ other then other else one from rfl]
    split
    · exact .inr rfl
    · exact .inl rfl

/-- The names of those who are farthest. -/
def leaders? (places : List (String × UInt32)) : Option (List String) :=
  (places.map (·.2)).max?.map fun farthest => (places.filter (·.2 = farthest)).map (·.1)

/-- Those who are farthest are those whom nobody has passed. -/
theorem leaders?_eq {places : List (String × UInt32)} (entered : places ≠ []) :
    leaders? places =
      some ((places.filter fun place => ∀ other ∈ places, other.2 ≤ place.2).map (·.1)) := by
  obtain ⟨farthest, most⟩ : ∃ farthest, (places.map (·.2)).max? = some farthest :=
    Option.isSome_iff_exists.mp (by simpa using entered)
  obtain ⟨member, bound⟩ := List.max?_eq_some_iff.mp most
  rw [leaders?, most, Option.map_some]
  congr 2
  refine List.filter_congr fun place inside => decide_eq_decide.mpr ⟨?_, ?_⟩
  · rintro rfl other there
    exact bound _ (List.mem_map_of_mem there)
  · intro least
    refine UInt32.le_antisymm (bound _ (List.mem_map_of_mem inside)) ?_
    obtain ⟨other, there, rfl⟩ := List.mem_map.mp member
    exact least other there

/-- Whoever enters at the start line is farthest only where nobody has left it. -/
private theorem leaders?_append {places : List (String × UInt32)}
    (led : leaders? places = some leaders)
    (late : List String) : leaders? (places ++ late.map (·, 0)) =
      some (leaders ++ if ∀ place ∈ places, place.2 = 0 then late else []) := by
  have entered : places ≠ [] := by
    rintro rfl
    cases led
  rw [leaders?_eq entered] at led
  obtain rfl := Option.some.inj led
  rw [leaders?_eq (List.append_ne_nil_of_left_ne_nil entered _), List.filter_append, List.map_append]
  have passes (place : String × UInt32) :
      (∀ other ∈ places ++ late.map (·, 0), other.2 ≤ place.2) ↔
        ∀ other ∈ places, other.2 ≤ place.2 := by
    simp +contextual [or_imp, forall_and, UInt32.zero_le]
  simp only [passes, List.filter_map, Function.comp_def, UInt32.le_zero_iff]
  by_cases still : ∀ place ∈ places, place.2 = 0
  · simp only [eq_true still, decide_true, List.filter_true, if_true, List.map_map, Function.comp_def,
      List.map_id']
  · simp only [eq_false still, decide_false, List.filter_false, if_false, List.map_nil]

private theorem mem_of_leaders? {places : List (String × UInt32)}
    (led : leaders? places = some leaders) :
    ∀ name ∈ leaders, name ∈ places.map (·.1) := by
  obtain ⟨farthest, _, rfl⟩ := Option.map_eq_some_iff.mp led
  intro name member
  obtain ⟨place, inside, rfl⟩ := List.mem_map.mp member
  exact List.mem_map.mpr ⟨place, List.mem_of_mem_filter inside, rfl⟩

namespace Race

/-- How far each car has come, by name. -/
def places (race : Race) : List (String × UInt32) := race.cars.map fun car => (car.name, car.position)

/-- No car has left the start line. -/
def AtStartLine (race : Race) : Prop := ∀ car ∈ race.cars, car.position = 0

instance (race : Race) : Decidable race.AtStartLine := inferInstanceAs (Decidable (∀ car ∈ _, _))

theorem winners?_eq_leaders? {race : Race} (finished : race.isFinished = true) :
    race.winners? = leaders? race.places := by
  rw [winners?_eq, if_pos finished]
  rfl

/-- The race is over and stays as it was, but for the cars that have entered since. -/
structure Stands (race later : Race) (since : List String) : Prop where
  finished : later.isFinished = true
  places : later.places = race.places ++ since.map (·, 0)

private theorem Stands.names {race later : Race} (stands : race.Stands later since) :
    later.names = race.names ++ since := by
  have own := congrArg (List.map (·.1)) stands.places
  simpa [Race.names, Race.places, Function.comp_def] using own

/-- The winners are those of the race that stands, and whoever has entered since if no car has left the
start line. -/
theorem Stands.winners {race later : Race} {winners : List String} (stands : race.Stands later since)
    (finished : race.isFinished = true) (won : race.winners? = some winners) :
    later.winners? = some (winners ++ if race.AtStartLine then since else []) := by
  rw [winners?_eq_leaders? finished] at won
  rw [winners?_eq_leaders? stands.finished, stands.places, leaders?_append won]
  have same : (∀ place ∈ race.places, place.2 = 0) ↔ race.AtStartLine := by
    simp [AtStartLine, Race.places]
  by_cases still : race.AtStartLine
  · rw [if_pos still, if_pos (same.mpr still)]
  · rw [if_neg still, if_neg (mt same.mp still)]

private theorem Stands.refl {race : Race} (finished : race.isFinished = true) : race.Stands race [] :=
  ⟨finished, by simp⟩

private theorem Stands.trans {race middle later : Race} (first : race.Stands middle since)
    (second : middle.Stands later further) : race.Stands later (since ++ further) :=
  ⟨second.finished, by rw [second.places, first.places, List.map_append, List.append_assoc]⟩

private theorem Handled.going_of_setUp {race : Race}
    (handled : Handled source race state block text next after)
    (asks : block.command = .setUpRace) : next.isFinished = false := by
  cases handled with
  | setUp _ asked =>
    have least := (attempts?_eq_some_iff.mp asked).2.1
    simp [isFinished]
    omega
  | event happens => simp [asks, event?] at happens
  | register other | late other | turn other => simp [asks] at other

/-- A block that is not a set-up leaves the result as it stands. -/
theorem Handled.stands {race : Race} (handled : Handled source race state block text next after)
    (noSetUp : block.command ≠ .setUpRace) (finished : race.isFinished = true) :
    race.Stands next (if block.command = .selectCar then [block.text 0] else []) := by
  cases handled with
  | setUp asks => exact absurd asks noSetUp
  | register asks known filled short fresh => exact ⟨finished, by simp [places, asks]⟩
  | event asks changed =>
    have other := not_selectCar_of_event? asks
    obtain ⟨before, car, behind, split, _, _, _, rfl⟩ := changeFirst_split changed
    refine ⟨finished, ?_⟩
    simp [places, other, split, event?_name asks, event?_position asks]
  | late asks entered planned spent => exact ⟨finished, by simp [asks]⟩
  | turn asks entered left taken =>
    simp only [isFinished, Bool.and_eq_true, decide_eq_true_eq, beq_iff_eq] at finished
    omega

private theorem Handled.finishing {race : Race}
    (handled : Handled source race state block text next after)
    (going : race.isFinished = false) (finished : next.isFinished = true) :
    block.command = .runTurn ∧ next.cars ≠ [] := by
  cases handled with
  | setUp asks asked =>
    have again := (Handled.setUp asks asked : Handled source race state block _ _ _).going_of_setUp asks
    simp [again] at finished
  | register asks => exact absurd finished (by simpa [isFinished] using going)
  | event asks => exact absurd finished (by simpa [isFinished] using going)
  | late asks => simp [going] at finished
  | turn asks entered left taken =>
    exact ⟨asks, (Handled.turn asks entered left taken).cars_ne_nil asks⟩

end Race

end Racing

namespace Progress

open Racing (Race)

variable {State : Type} {source : Chance.Source State}

private theorem runRacing_cases {progress : Progress}
    (ran : progress.runRacing source block state = some ⟨answer, next, after⟩) :
    (∃ text, Race.Handled source progress.race state block text next.race after ∧
      answer = .ok (announced (toldWinners? next.race block) text)) ∨
    ∃ fault, answer = .error fault ∧ next = progress ∧ after = state := by
  rcases Race.handled_or_refused progress.race block source state with
    out | ⟨text, race, later, handled⟩ | ⟨fault, refused⟩
  · simp [runRacing, out] at ran
  · rw [runRacing_eq handled] at ran
    cases ran
    exact .inl ⟨text, handled, rfl⟩
  · rw [runRacing, refused.handle_eq] at ran
    cases ran
    exact .inr ⟨fault, rfl, rfl, rfl⟩

private theorem race_keeps_of_history {progress last : Progress}
    (history : History (runRacing source) progress state deeds last final) (Holds : Race → Prop)
    (first : Holds progress.race) (keeps : ∀ {found here block text left later}, Holds found →
      Race.Handled source found here block text left later → Holds left) : Holds last.race := by
  refine history.keeps (Holds ·.race) first fun handled holds => ?_
  obtain ⟨_, step, _⟩ | ⟨_, _, rfl, _⟩ := runRacing_cases handled
  · exact keeps holds step
  · exact holds

/-- Up to the next set-up a result stands. -/
theorem stands_of_history {race : Race} {progress last : Progress}
    (history : History (runRacing source) progress state deeds last final)
    (stands : Race.Stands race progress.race since)
    (noSetUp : ∀ deed ∈ deeds, deed.did .setUpRace = false) :
    ∃ later, Race.Stands race last.race (since ++ later) := by
  induction history with
  | start => exact ⟨[], by simpa using stands⟩
  | after past handled ih =>
    rw [List.forall_mem_append, List.forall_mem_singleton] at noSetUp
    obtain ⟨later, kept⟩ := ih noSetUp.1
    obtain ⟨_, step, rfl⟩ | ⟨_, _, rfl, _⟩ := runRacing_cases handled
    · have own := step.stands (by simpa using noSetUp.2) kept.finished
      exact ⟨_, by rw [← List.append_assoc]; exact kept.trans own⟩
    · exact ⟨later, kept⟩

/-- The block ran the turn that ended the race, and it named the winners. -/
structure Finishes (deed : Deed Progress State) (winners : List String) : Prop where
  turn : deed.did .runTurn = true
  going : deed.found.race.isFinished = false
  finished : deed.left.race.isFinished = true
  won : deed.left.race.winners? = some winners
  told : ∃ text, deed.answer = .ok (announced (some winners) text)

/-- Whenever a race is over, a turn has ended it, and its result stands since. -/
theorem finished_of_history {progress : Progress}
    (history : History (runRacing source) .start first deeds progress state)
    (finished : progress.race.isFinished = true) :
    ∃ before final behind winners since, deeds = before ++ final :: behind ∧
      Finishes final winners ∧ (∀ deed ∈ behind, deed.did .setUpRace = false) ∧
      Race.Stands final.left.race progress.race since := by
  induction history with
  | start => cases finished
  | @after deeds found here block answer left later past handled ih =>
    obtain ⟨text, step, rfl⟩ | ⟨fault, rfl, rfl, _⟩ := runRacing_cases handled
    · cases going : found.race.isFinished with
      | true =>
        have noSetUp : block.command ≠ .setUpRace := by
          intro asks
          rw [step.going_of_setUp asks] at finished
          cases finished
        obtain ⟨before, final, behind, winners, since, rfl, finishes, quiet, stands⟩ := ih going
        refine ⟨before, final, behind ++ [_], winners, _, List.append_assoc .., finishes, ?_,
          stands.trans (step.stands noSetUp going)⟩
        rw [List.forall_mem_append, List.forall_mem_singleton]
        exact ⟨quiet, by simpa using noSetUp⟩
      | false =>
        obtain ⟨asks, entered⟩ := step.finishing going finished
        obtain ⟨winners, won⟩ :=
          Option.isSome_iff_exists.mp (Race.winners?_isSome_iff.mpr ⟨finished, entered⟩)
        refine ⟨deeds, _, [], winners, [], rfl, ⟨by simp [asks], going, finished, won, text, ?_⟩, by simp,
          .refl finished⟩
        rw [toldWinners?_of_turn asks, won]
    · obtain ⟨before, final, behind, winners, since, rfl, finishes, quiet, stands⟩ := ih finished
      refine ⟨before, final, behind ++ [_], winners, since, List.append_assoc .., finishes, ?_, stands⟩
      rw [List.forall_mem_append, List.forall_mem_singleton]
      exact ⟨quiet, by simp⟩

private theorem runRacing_of_stands {race : Race} {last : Progress} {winners : List String}
    (stands : Race.Stands race last.race since) (finished : race.isFinished = true)
    (won : race.winners? = some winners) (asks : block.command = .runTurn)
    (source : Chance.Source State) (state : State) :
    last.runRacing source block state =
      some (.done (announced (some (winners ++ if race.AtStartLine then since else [])) Race.overText)
        ({ last with cleared := true }, state)) := by
  have named := stands.winners finished won
  obtain ⟨_, entered⟩ := Race.winners?_isSome_iff.mp (Option.isSome_of_eq_some named)
  have ended := stands.finished
  simp only [Race.isFinished, Bool.and_eq_true, decide_eq_true_eq, beq_iff_eq] at ended
  have late : Race.Handled source last.race state block Race.overText last.race state :=
    .late asks entered (by omega) (by omega)
  rw [runRacing_eq late, toldWinners?_of_turn asks, named, Option.isSome_some, Bool.or_true]

/-- Names that join others, none of which they were among, leave these as they were exactly if there are
none of them. -/
private theorem joined_iff {leaders late names : List String} (within : ∀ name ∈ leaders, name ∈ names)
    (apart : ∀ name ∈ late, name ∉ names) :
    (leaders ++ late = leaders ↔ late = []) ∧
      ((∀ name ∈ leaders ++ late, name ∈ names) ↔ late = []) := by
  refine ⟨by simp, fun all => List.eq_nil_iff_forall_not_mem.mpr fun name member => ?_, ?_⟩
  · exact apart name member (all name (List.mem_append_right _ member))
  · rintro rfl
    simpa using within

/-- The result of a race. Whenever a race is over, some turn has ended it and named the winners. Until
the next set-up, whatever is tried and wherever the draws come from, each turn is told as one after the
end, draws nothing, and names those winners again, with the cars that have entered since behind them if no
car had left the start line in the turn that ended the race. So the winners stay, and nobody but cars
of that turn is named, exactly if no car has entered since or some car had left the line. -/
theorem result_of_history {progress : Progress}
    (history : History (runRacing source) .start first deeds progress state)
    (finished : progress.race.isFinished = true) :
    ∃ before final behind winners, deeds = before ++ final :: behind ∧ Finishes final winners ∧
      (∀ deed ∈ behind, deed.did .setUpRace = false) ∧
      ∀ {Other : Type} (other : Chance.Source Other) there more last later,
        History (runRacing other) progress there more last later →
        (∀ deed ∈ more, deed.did .setUpRace = false) →
        ∃ since told, last.race.names = final.left.race.names ++ since ∧
          told = winners ++ (if final.left.race.AtStartLine then since else []) ∧
          (∀ (turn : Block) (here : Other), turn.command = .runTurn →
            last.runRacing other turn here =
              some (.done (announced (some told) Race.overText) ({ last with cleared := true }, here))) ∧
          (told = winners ↔ since = [] ∨ ¬ final.left.race.AtStartLine) ∧
          ((∀ name ∈ told, name ∈ final.left.race.names) ↔
            since = [] ∨ ¬ final.left.race.AtStartLine) := by
  obtain ⟨before, final, behind, winners, early, split, finishes, quiet, standing⟩ :=
    finished_of_history history finished
  refine ⟨before, final, behind, winners, split, finishes, quiet, ?_⟩
  intro Other other there more last later future noSetUp
  obtain ⟨since, stands⟩ := stands_of_history future standing noSetUp
  have sound : last.race.Sound :=
    race_keeps_of_history future Race.Sound
      (race_keeps_of_history history Race.Sound Race.sound_empty fun sound step => step.sound sound)
      fun sound step => step.sound sound
  have within : ∀ name ∈ winners, name ∈ final.left.race.names := by
    have won := finishes.won
    rw [Race.winners?_eq_leaders? finishes.finished] at won
    simpa [Race.places, Race.names, Function.comp_def] using Racing.mem_of_leaders? won
  have apart : ∀ name ∈ early ++ since, name ∉ final.left.race.names := by
    have distinct := sound.apart
    rw [stands.names, List.nodup_append] at distinct
    exact fun name member present => distinct.2.2 name present name member rfl
  refine ⟨early ++ since, _, stands.names, rfl,
    fun turn here asks => runRacing_of_stands stands finishes.finished finishes.won asks other here, ?_⟩
  by_cases still : final.left.race.AtStartLine
  · rw [if_pos still, or_iff_left (not_not_intro still)]
    exact joined_iff within apart
  · rw [if_neg still, iff_true_intro (Or.inr still : early ++ since = [] ∨ _), List.append_nil]
    simpa using within

/-- The car that ended the race had left the line, so one that enters afterwards is not named. -/
theorem result_of_history_late_car :
    ∃ (deeds more : List (Deed Progress Unit)) (progress last : Progress),
      History (runRacing Chance.greatest) .start () deeds progress () ∧
      deeds.map (·.block) = [.bare .setUpRace [.number 1],
        .bare .selectCar [.text "pobi", .text "소나타"], .bare .runTurn []] ∧
      progress.race.isFinished = true ∧
      History (runRacing Chance.greatest) progress () more last () ∧
      more.map (·.block) =
        [.bare .boost [.text "jun"], .bare .selectCar [.text "jun", .text "소나타"]] ∧
      last.race.names = ["pobi", "jun"] ∧
      last.runRacing Chance.greatest (.bare .runTurn []) () =
        some (.done (announced (some ["pobi"]) Race.overText) ({ last with cleared := true }, ())) := by
  have asked : Race.attempts? (.bare .setUpRace [.number 1]) = some 1 := by decide +kernel
  have known : ∀ name ∈ ["pobi", "jun"],
      Race.model? (.bare .selectCar [.text name, .text "소나타"]) = some .sonata := by decide +kernel
  let pobi : Racing.Car := ⟨"pobi", .sonata, 0, false, false, none⟩
  let moved : Racing.Car := { pobi with position := 1 }
  let jun : Racing.Car := ⟨"jun", .sonata, 0, false, false, none⟩
  have starts : Race.Handled Chance.greatest start.race () (.bare .setUpRace [.number 1]) _
      ⟨[], 1, 0⟩ () := .setUp rfl asked
  have enters : Race.Handled Chance.greatest ⟨[], 1, 0⟩ ()
      (.bare .selectCar [.text "pobi", .text "소나타"]) _ ⟨[pobi], 1, 0⟩ () :=
    .register rfl (known "pobi" (by simp)) (by decide +kernel) (by decide) (by decide)
  have taken : Race.takeTurns Chance.greatest [pobi] () = some ([moved.shown], ()) := rfl
  have left : (⟨[pobi], 1, 0⟩ : Race).turn < (⟨[pobi], 1, 0⟩ : Race).attempts := Nat.zero_lt_one
  have ends : Race.Handled Chance.greatest ⟨[pobi], 1, 0⟩ () (.bare .runTurn [])
      (Race.turnText 1 [moved]) ⟨[moved], 1, 1⟩ () := .turn rfl (List.cons_ne_nil _ _) left taken
  have follows : Race.Handled Chance.greatest ⟨[moved], 1, 1⟩ ()
      (.bare .selectCar [.text "jun", .text "소나타"]) _ ⟨[moved, jun], 1, 1⟩ () :=
    .register rfl (known "jun" (by simp)) (by decide +kernel) (by decide) (by decide)
  let done : Progress := { start with race := ⟨[moved], 1, 1⟩, cleared := true }
  have unknown : runRacing Chance.greatest done (.bare .boost [.text "jun"]) () =
      some (.failed (.carNotFound "jun") (done, ())) := rfl
  have first : History (runRacing Chance.greatest) start () [_] _ () :=
    History.start.after (runRacing_eq starts)
  have history := (first.after (runRacing_eq enters)).after (runRacing_eq ends)
  have alone : History (runRacing Chance.greatest) done () [_] done () := .after .start unknown
  have more := alone.after (runRacing_eq follows)
  obtain ⟨before, final, behind, winners, split, finishes, _, later⟩ := result_of_history history rfl
  obtain ⟨since, told, _, same, turns, _⟩ := later Chance.greatest () _ _ () more (by simp; decide)
  -- Only the last of the three blocks is a turn.
  have ended : final.left = done := by
    have asks := finishes.turn
    rcases before with _ | ⟨_, _ | ⟨_, _ | ⟨_, _⟩⟩⟩
    · obtain ⟨rfl, _⟩ := List.cons.inj split
      cases asks
    · obtain ⟨_, split⟩ := List.cons.inj split
      obtain ⟨rfl, _⟩ := List.cons.inj split
      cases asks
    · obtain ⟨_, split⟩ := List.cons.inj split
      obtain ⟨_, split⟩ := List.cons.inj split
      obtain ⟨rfl, _⟩ := List.cons.inj split
      rfl
    · simp at split
  have won : winners = ["pobi"] := by
    have named : done.race.winners? = some ["pobi"] := by decide
    exact Option.some.inj (finishes.won.symm.trans (ended ▸ named))
  have left : ¬ final.left.race.AtStartLine := by
    rw [ended]
    decide
  rw [if_neg left, List.append_nil, won] at same
  subst same
  exact ⟨_, _, _, _, history, rfl, rfl, more, rfl, rfl, turns _ () rfl⟩

/-- One car is on the line when the race ends and wins, and then another car enters and is named beside
it. -/
theorem result_changes_at_start_line :
    let script : Script := ⟨[.bare .setUpRace [.number 1],
      .bare .selectCar [.text "pobi", .text "소나타"], .bare .runTurn [],
      .bare .selectCar [.text "jun", .text "소나타"], .bare .runTurn []]⟩
    ∃ report, script.run Chance.replay ⟨.racing, false, ""⟩ ⟨0, 0⟩ [0] = some (report, []) ∧
      report.lines[2]? = some ": --- Turn 1 ---\npobi: \n[WINNERS]: pobi" ∧
      report.lines[4]? = some
        ": [RACE OVER] All attempts are done. Check the winners.\n[WINNERS]: pobi, jun" := by
  intro script
  have told : (script.run Chance.replay ⟨.racing, false, ""⟩ ⟨0, 0⟩ [0]).map
      (fun (report, after) => (after, report.lines[2]?, report.lines[4]?)) =
      some ([], some ": --- Turn 1 ---\npobi: \n[WINNERS]: pobi", some
        ": [RACE OVER] All attempts are done. Check the winners.\n[WINNERS]: pobi, jun") := by
    decide +kernel
  obtain ⟨⟨report, after⟩, ran, lines⟩ := Option.map_eq_some_iff.mp told
  obtain ⟨rfl, first, last⟩ : after = [] ∧ _ ∧ _ := by simpa using lines
  exact ⟨report, ran, first, last⟩

end Progress

end MissionScript
