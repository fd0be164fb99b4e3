import MissionScript.Proofs.Acceptance
import MissionScript.Proofs.RaceStep

/-! Racing scripts. Which blocks run can be read off the script, without any chance; and so can
whether the mission is cleared, from the set-ups and the turns that follow each of them. -/
namespace MissionScript

namespace Racing

/-- The condition of a racing block on the blocks before it. -/
def Fits (before : List Block) (block : Block) : Prop :=
  match block.command with
  | .setUpRace =>
    ∃ count ∈ (block.number? 0).bind Decimal.natural?, 1 ≤ count ∧ count ≤ 4294967295
  | .selectCar =>
    (Text.trim (block.text 0)).isEmpty = false ∧ (block.text 0).length ≤ 5 ∧
      (∀ earlier ∈ before, earlier.command = .selectCar → earlier.text 0 ≠ block.text 0) ∧
      ∃ argument ∈ block.arguments[1]?, (Model.read argument.asText).isOk
  | .boost | .failure | .drift | .jump | .windBlock =>
    ∃ earlier ∈ before, earlier.command = .selectCar ∧ earlier.text 0 = block.text 0
  | .runTurn =>
    (∃ earlier ∈ before, earlier.command = .setUpRace) ∧
      ∃ earlier ∈ before, earlier.command = .selectCar
  | _ => False

instance (before : List Block) (block : Block) : Decidable (Fits before block) := by
  delta Fits
  exact match block.command with
    | .setUpRace => inferInstance
    | .selectCar => inferInstance
    | .boost | .failure | .drift | .jump | .windBlock => inferInstance
    | .runTurn => inferInstance
    | .inputNumber | .add | .subtract | .multiply | .divide => inferInstance
    | .buyTickets | .inputWinning | .inputBonus | .checkResult => inferInstance

/-- The turns before the next set-up. -/
def turnsAhead (blocks : List Block) : Nat :=
  (blocks.takeWhile (·.command ≠ .setUpRace)).countP (·.command = .runTurn)

/-- Some set-up is followed by as many turns as it asks for, before the next one. -/
def Decided (blocks : List Block) : Prop :=
  ∃ before setUp after count, blocks = before ++ setUp :: after ∧ setUp.command = .setUpRace ∧
    (setUp.number? 0).bind Decimal.natural? = some count ∧ count ≤ turnsAhead after

theorem turnsAhead_cons (block : Block) (blocks : List Block) :
    turnsAhead (block :: blocks) =
      if block.command = .setUpRace then 0
      else turnsAhead blocks + if block.command = .runTurn then 1 else 0 := by
  by_cases starts : block.command = .setUpRace
  · simp [turnsAhead, starts]
  · simp [turnsAhead, starts, List.countP_cons]

private theorem decided_cons {block : Block} {blocks : List Block} :
    Decided (block :: blocks) ↔
      (block.command = .setUpRace ∧
        ∃ count, (block.number? 0).bind Decimal.natural? = some count ∧ count ≤ turnsAhead blocks) ∨
      Decided blocks := by
  constructor
  · rintro ⟨before, setUp, after, count, split, starts, asked, enough⟩
    cases before with
    | nil =>
      obtain ⟨rfl, rfl⟩ := List.cons.inj split
      exact .inl ⟨starts, count, asked, enough⟩
    | cons head before =>
      obtain ⟨rfl, rfl⟩ := List.cons.inj split
      exact .inr ⟨before, setUp, after, count, rfl, starts, asked, enough⟩
  · rintro (⟨starts, count, asked, enough⟩ | ⟨before, setUp, after, count, rfl, own⟩)
    · exact ⟨[], block, blocks, count, rfl, starts, asked, enough⟩
    · exact ⟨block :: before, setUp, after, count, rfl, own⟩

end Racing

namespace Progress

open Racing (Race)

variable {State : Type} {source : Chance.Source State}

private theorem runRacing_done {progress next : Progress}
    (ran : progress.runRacing source block state = some (.done text (next, after))) :
    ∃ answer, Race.Handled source progress.race state block answer next.race after ∧
      next.cleared =
        (progress.cleared || (next.race.winners?.isSome && block.command = .runTurn)) := by
  unfold runRacing at ran
  obtain ⟨⟨answer, race, later⟩, handled, ended⟩ := Option.bind_eq_some_iff.mp ran
  cases answer with
  | error fault => simp [Outcome.failed, Outcome.done] at ended
  | ok answer =>
    have step := Race.handled_of_done handled
    dsimp only at ended
    split at ended
    · rename_i quiet
      obtain ⟨rfl, rfl, rfl⟩ := Outcome.some_done_inj.mp ended
      refine ⟨answer, step, ?_⟩
      cases won : race.winners? with
      | none => simp
      | some winners =>
        have noTurn : block.command ≠ .runTurn := by simpa [won] using quiet
        simp [noTurn]
    · rename_i winners told
      obtain ⟨rfl, rfl, rfl⟩ := Outcome.some_done_inj.mp ended
      refine ⟨answer, step, ?_⟩
      obtain ⟨won, asks⟩ := Option.filter_eq_some_iff.mp told
      simp [won, of_decide_eq_true asks]

private theorem runRacing_of_handled {progress : Progress} {changed : Race}
    (handled : Race.Handled source progress.race state block answer changed after) :
    ∃ text next, progress.runRacing source block state = some (.done text (next, after)) := by
  unfold runRacing
  rw [handled.done]
  dsimp only [Option.bind_eq_bind, Option.bind_some, Outcome.done]
  split <;> exact ⟨_, _, rfl⟩

theorem runRacing_isSome (endless : source.Endless) (progress : Progress) (block : Block)
    (state : State) : (progress.runRacing source block state).isSome := by
  obtain ⟨⟨answer, race, after⟩, handled⟩ :=
    Option.isSome_iff_exists.mp (Race.handle_isSome endless progress.race block state)
  unfold runRacing
  rw [handled]
  cases answer with
  | error fault => rfl
  | ok text =>
    dsimp only [Option.bind_eq_bind, Option.bind_some]
    split <;> rfl

/-- The race shows the registrations and the set-ups of the blocks so far. -/
structure ShowsRace (history : List Block) (progress : Progress) : Prop where
  names : progress.race.names =
    (history.filter (·.command = .selectCar)).map (·.text 0)
  planned : progress.race.attempts ≠ 0 ↔ ∃ earlier ∈ history, earlier.command = .setUpRace
  sound : progress.race.turn ≤ progress.race.attempts

private theorem ShowsRace.mem_names_iff (shows : ShowsRace history progress) :
    name ∈ progress.race.names ↔
      ∃ earlier ∈ history, earlier.command = .selectCar ∧ earlier.text 0 = name := by
  simp [shows.names, and_assoc]

private theorem ShowsRace.entered_iff (shows : ShowsRace history progress) :
    progress.race.cars ≠ [] ↔ ∃ earlier ∈ history, earlier.command = .selectCar := by
  have none : progress.race.cars = [] ↔ progress.race.names = [] := by simp [Race.names]
  simp [none, shows.names]

private theorem handled_of_fits (endless : source.Endless) (shows : ShowsRace history progress)
    (fits : Racing.Fits history block) (state : State) :
    ∃ answer next after, Race.Handled source progress.race state block answer next after := by
  have event {happening} (asks : Race.event? block.command = some happening)
      (named : ∃ earlier ∈ history, earlier.command = .selectCar ∧ earlier.text 0 = block.text 0) :
      ∃ answer next after, Race.Handled source progress.race state block answer next after := by
    have entered : (Race.changeFirst (block.text 0) happening progress.race.cars).isSome :=
      Race.changeFirst_isSome_iff.mpr (shows.mem_names_iff.mpr named)
    obtain ⟨⟨answer, others⟩, changed⟩ := Option.isSome_iff_exists.mp entered
    exact ⟨answer, _, state, .event asks changed⟩
  unfold Racing.Fits at fits
  split at fits
  case h_1 asks =>
    obtain ⟨count, asked, least, most⟩ := fits
    have found : Race.attempts? block = some count :=
      Race.attempts?_eq_some_iff.mpr ⟨asked, least, most⟩
    exact ⟨_, _, state, .setUp asks found⟩
  case h_2 asks =>
    obtain ⟨filled, short, fresh, argument, given, known⟩ := fits
    obtain ⟨model, entry⟩ := (Race.model?_isSome_iff.mpr ⟨argument, given, known⟩)
    have absent : block.text 0 ∉ progress.race.names := by
      rw [shows.mem_names_iff]
      rintro ⟨earlier, member, selects, same⟩
      exact fresh earlier member selects same
    exact ⟨_, _, state, .register asks entry filled short absent⟩
  case h_3 asks | h_4 asks | h_5 asks | h_6 asks | h_7 asks => exact event (by rw [asks]; rfl) fits
  case h_8 asks =>
    have planned := shows.planned.mpr fits.1
    have entered := shows.entered_iff.mpr fits.2
    by_cases left : progress.race.turn < progress.race.attempts
    · obtain ⟨⟨turns, after⟩, taken⟩ := Option.isSome_iff_exists.mp
        (Race.takeTurns_isSome endless progress.race.cars state)
      exact ⟨_, _, after, .turn asks entered left taken⟩
    · exact ⟨_, _, state, .late asks entered planned (Nat.le_of_not_lt left)⟩
  case h_9 => exact False.elim fits

private theorem fits_of_handled {progress : Progress} {block : Block} {next : Race}
    (shows : ShowsRace history progress)
    (handled : Race.Handled source progress.race state block answer next after) :
    Racing.Fits history block := by
  unfold Racing.Fits
  cases handled with
  | setUp asks asked =>
    obtain ⟨asked, least, most⟩ := Race.attempts?_eq_some_iff.mp asked
    simp only [asks]
    exact ⟨_, asked, least, most⟩
  | register asks known filled short fresh =>
    simp only [asks]
    refine ⟨filled, short, ?_, Race.model?_isSome_iff.mp ⟨_, known⟩⟩
    intro earlier member selects same
    exact fresh (shows.mem_names_iff.mpr ⟨earlier, member, selects, same⟩)
  | event asks changed =>
    have named := Race.changeFirst_isSome_iff.mp (Option.isSome_of_eq_some changed)
    have earlier := shows.mem_names_iff.mp named
    split <;> first
      | exact earlier
      | simp [Race.event?, *] at asks
  | late asks entered planned spent =>
    simp only [asks]
    exact ⟨shows.planned.mp planned, shows.entered_iff.mp entered⟩
  | turn asks entered left taken =>
    simp only [asks]
    exact ⟨shows.planned.mp (Nat.ne_zero_of_lt left), shows.entered_iff.mp entered⟩

private theorem shows_of_handled {progress next : Progress} (shows : ShowsRace history progress)
    (handled : Race.Handled source progress.race state block answer next.race after) :
    ShowsRace (history ++ [block]) next where
  names := by
    rw [handled.names_eq, shows.names]
    by_cases selects : block.command = .selectCar <;> simp [List.filter_append, selects]
  planned := by
    cases handled.clock shows.sound with
    | starts asks asked anew =>
      have least := (Race.attempts?_eq_some_iff.mp asked).2.1
      simp [asks]
      omega
    | runs asks entered planned same counted => simp [same, asks, shows.planned]
    | stands noSetUp noTurn same kept => simp [same, noSetUp, shows.planned]
  sound := (handled.clock shows.sound).sound shows.sound

/-- The law of the racing stage: no draw decides whether a block runs. -/
theorem raceLaw (endless : source.Endless) :
    StageLaw source .racing (·.Belongs .racing) Racing.Fits ShowsRace where
  total := by
    intro block belongs progress state
    rw [runBlock_racing belongs]
    exact runRacing_isSome endless progress block state
  accepts := by
    intro history progress block shows belongs fits state
    obtain ⟨answer, next, after, handled⟩ := handled_of_fits endless shows fits state
    obtain ⟨text, last, ran⟩ := runRacing_of_handled handled
    exact ⟨text, last, after, by rw [runBlock_racing belongs, ran]⟩
  keeps := by
    intro history progress block state text next after shows belongs ran
    rw [runBlock_racing belongs] at ran
    obtain ⟨answer, handled, _⟩ := runRacing_done ran
    exact ⟨fits_of_handled shows handled, shows_of_handled shows handled⟩

/-- At the end of a trace the mission is cleared if it was before, if the turns that were left have
been run, or if the blocks themselves decide a race. -/
theorem Ran.cleared_iff (ran : Ran source .racing progress state blocks texts last after)
    (racing : ∀ block ∈ blocks, block.Belongs .racing)
    (sound : progress.race.turn ≤ progress.race.attempts) :
    last.cleared = true ↔ progress.cleared = true ∨
      (0 < progress.race.attempts ∧ 0 < Racing.turnsAhead blocks ∧
        progress.race.attempts ≤ progress.race.turn + Racing.turnsAhead blocks) ∨
      Racing.Decided blocks := by
  induction ran with
  | nil => simp [Racing.turnsAhead, Racing.Decided]
  | @cons progress block state text next middle blocks texts last after first rest ih =>
    rw [runBlock_racing (racing block (List.mem_cons_self ..))] at first
    obtain ⟨answer, handled, cleared⟩ := runRacing_done first
    have clock := handled.clock sound
    rw [ih (fun later member => racing later (List.mem_cons_of_mem _ member)) (clock.sound sound),
      cleared, Racing.turnsAhead_cons, Racing.decided_cons]
    cases clock with
    | starts asks asked anew =>
      obtain ⟨given, least, _⟩ := Race.attempts?_eq_some_iff.mp asked
      -- A set-up asks for one turn at least, so its own turns cannot be none.
      have turns : (0 < next.race.attempts ∧ 0 < Racing.turnsAhead blocks ∧
            next.race.attempts ≤ Racing.turnsAhead blocks) ↔
          next.race.attempts ≤ Racing.turnsAhead blocks := by omega
      simp [asks, given, anew, turns]
    | runs asks entered planned same counted =>
      -- This turn is the last one, or the others have to follow.
      have turns : (0 < progress.race.attempts ∧
            min (progress.race.turn + 1) progress.race.attempts = progress.race.attempts) ∨
          (0 < progress.race.attempts ∧ 0 < Racing.turnsAhead blocks ∧ progress.race.attempts ≤
            min (progress.race.turn + 1) progress.race.attempts + Racing.turnsAhead blocks) ↔
          0 < progress.race.attempts ∧ 0 < Racing.turnsAhead blocks + 1 ∧
            progress.race.attempts ≤ progress.race.turn + (Racing.turnsAhead blocks + 1) := by
        omega
      simp only [asks, reduceCtorEq, ↓reduceIte, false_and, false_or]
      rw [← turns]
      simp [Race.winners?_isSome_iff, entered, Race.isFinished, same, counted, or_assoc]
    | stands noSetUp noTurn same kept => simp [noSetUp, noTurn, same, kept]

/-- A script of racing blocks comes to its end exactly if every block fits after the blocks before
it. Then the mission is cleared exactly if some set-up is followed by as many turns as it asks for,
before the next one. -/
theorem race_run {source : Chance.Source State} (endless : source.Endless) (script : Script)
    (status : Status) (inStage : status.stage = .racing) (nonempty : script.blocks ≠ [])
    (racing : ∀ block ∈ script.blocks, block.Belongs .racing) (time : Timestamp) (state : State) :
    ∃ report after, script.run source status time state = some (report, after) ∧
      (¬ report.Aborted ↔ Kept Racing.Fits script.blocks) ∧
      (¬ report.Aborted → (report.status.cleared = true ↔ Racing.Decided script.blocks)) := by
  have start : ShowsRace [] .start := ⟨rfl, by simp [Progress.start, Race.empty], Nat.le_refl 0⟩
  obtain ⟨report, after, ran, accepted, complete⟩ :=
    (raceLaw endless).run start inStage nonempty racing time state
  refine ⟨report, after, ran, accepted, ?_⟩
  intro finished
  obtain ⟨texts, last, trace, _, _, ended⟩ := complete finished
  have cleared := trace.cleared_iff racing (Nat.le_refl 0)
  rw [ended, Status.afterRun_cleared (by simp [inStage])]
  simpa [clears, Progress.start, Race.empty] using cleared

/-- A race of one turn stays won when a longer one is set up after it. -/
theorem race_run_again :
    let script : Script := ⟨[.bare .setUpRace [.number 1],
      .bare .selectCar [.text " pobi", .text "sonata"], .bare .boost [.text " pobi"],
      .bare .runTurn [], .bare .setUpRace [.text "3"], .bare .runTurn []]⟩
    ∃ report after, script.run Chance.least ⟨.racing, false, ""⟩ ⟨0, 0⟩ () = some (report, after) ∧
      ¬ report.Aborted ∧ report.status.cleared = true := by
  intro script
  obtain ⟨report, after, ran, accepted, cleared⟩ := race_run Chance.least_endless script
    ⟨.racing, false, ""⟩ rfl (by decide) (by decide) ⟨0, 0⟩ ()
  have finished : ¬ report.Aborted := accepted.mpr (by decide +kernel)
  refine ⟨report, after, ran, finished, (cleared finished).mpr ?_⟩
  exact ⟨[], _, _, 1, rfl, rfl, by decide +kernel, by decide⟩

end Progress

end MissionScript
