import MissionScript.Proofs.PaletteScript
import MissionScript.Proofs.RaceSound
import MissionScript.Proofs.SkillRun
import MissionScript.Proofs.UtilityRun

namespace MissionScript

/-- The first argument of the block is a text, and not a number. -/
def Block.namedByText (block : Block) : Bool :=
  match block.arguments[0]? with
  | some (Argument.text _) => true
  | _ => false

namespace Progress

open Racing (Race)

variable {State : Type} {source : Chance.Source State}

/-- The cars that racing blocks bring onto the track, each with the block that registers it. The new
cars of a block stand behind all that were there before it. -/
def entrants (source : Chance.Source State) :
    List Block → Progress → State → List (Block × Racing.Car)
  | [], _, _ => []
  | block :: blocks, progress, state =>
    match runBlock source .racing progress block state with
    | some ⟨.ok _, next, middle⟩ =>
      (next.race.cars.drop progress.race.cars.length).map (block, ·)
        ++ entrants source blocks next middle
    | _ => []

private theorem Stepped.entrant {progress next : Progress}
    (stepped : Stepped source .racing progress state block text next after)
    (belongs : block.Belongs .racing) :
    if block.command = .selectCar then
      ∃ car, next.race.cars.drop progress.race.cars.length = [car] ∧ car.name = block.text 0
    else next.race.cars.drop progress.race.cars.length = [] := by
  have named := stepped.names_eq
  simp only [belongs, true_and] at named
  have length : progress.race.names.length = progress.race.cars.length := List.length_map ..
  have fresh : (next.race.cars.drop progress.race.cars.length).map (·.name) =
      if block.command = .selectCar then [block.text 0] else [] := by
    calc (next.race.cars.drop progress.race.cars.length).map (·.name)
        = next.race.names.drop progress.race.names.length := by
          rw [length, Race.names, List.map_drop]
      _ = _ := by rw [named, List.drop_left]
  split at fresh
  · rw [if_pos ‹_›]
    exact List.map_eq_singleton_iff.mp fresh
  · rw [if_neg ‹_›]
    exact List.map_eq_nil_iff.mp fresh

private theorem Stepped.carName?_eq {progress next : Progress}
    (stepped : Stepped source .racing progress state block text next after)
    (belongs : block.Belongs .racing) : Script.carName? block =
      if block.command = .selectCar ∧ block.namedByText then some (block.text 0) else none := by
  unfold Script.carName?
  by_cases registers : block.command = .selectCar
  · obtain ⟨_, _, handled, _, _⟩ := stepped.handled belongs
    obtain ⟨filled, short, _⟩ := handled.entry registers
    cases given : block.arguments[0]? with
    | none => simp [Block.namedByText, given]
    | some argument =>
      cases argument with
      | number value => simp [Block.namedByText, given]
      | text name =>
        have named : block.text 0 = name := by simp [Block.text, given, Argument.asText]
        rw [named] at filled short
        have allowed : ¬ Script.longestCarName < name.length := Nat.not_lt_of_le short
        simp [Block.namedByText, given, registers, named, filled, allowed]
  · simp [registers]

/-- Along a trace the editor reads off the names of the cars that text registers. -/
theorem Ran.carNames_eq (ran : Ran source .racing progress state blocks texts last after)
    (racing : ∀ block ∈ blocks, block.Belongs .racing) :
    blocks.filterMap Script.carName? =
      ((entrants source blocks progress state).filter (·.1.namedByText)).map (·.2.name) := by
  induction ran with
  | nil => rfl
  | @cons progress block state text next middle blocks texts last after first rest ih =>
    have belongs := racing block (List.mem_cons_self ..)
    have stepped := runBlock_eq_done_iff.mp first
    have later := ih fun other member => racing other (List.mem_cons_of_mem _ member)
    have entrant := stepped.entrant belongs
    have named := stepped.carName?_eq belongs
    by_cases registers : block.command = .selectCar
    · rw [if_pos registers] at entrant
      obtain ⟨car, brought, same⟩ := entrant
      cases text : block.namedByText <;>
        simp [entrants, first, Outcome.done, brought, named, registers, text, same, later]
    · rw [if_neg registers] at entrant
      simp [entrants, first, Outcome.done, entrant, named, registers, later]

/-- The names of all entrants are those that the race has in the end and had not before. -/
theorem Ran.names_eq (ran : Ran source .racing progress state blocks texts last after)
    (racing : ∀ block ∈ blocks, block.Belongs .racing) :
    last.race.names =
      progress.race.names ++ (entrants source blocks progress state).map (·.2.name) := by
  induction ran with
  | nil => simp [entrants]
  | @cons progress block state text next middle blocks texts last after first rest ih =>
    have belongs := racing block (List.mem_cons_self ..)
    have stepped := runBlock_eq_done_iff.mp first
    have entrant := stepped.entrant belongs
    rw [ih fun other member => racing other (List.mem_cons_of_mem _ member), stepped.names_eq]
    by_cases registers : block.command = .selectCar
    · rw [if_pos registers] at entrant
      obtain ⟨car, brought, same⟩ := entrant
      simp [entrants, first, Outcome.done, brought, registers, belongs, same]
    · rw [if_neg registers] at entrant
      simp [entrants, first, Outcome.done, entrant, registers]

private theorem Ran.belongs (ran : Ran source .racing progress state blocks texts last after)
    (member : block ∈ blocks) (declared : block.domain ≠ .utility) : block.Belongs .racing := by
  induction ran with
  | nil => cases member
  | cons first rest ih =>
    rcases List.mem_cons.mp member with rfl | later
    · exact (runBlock_eq_done_iff.mp first).belongs declared
    · exact ih later

theorem Ran.sound (ran : Ran source .racing progress state blocks texts last after)
    (sound : progress.race.Sound) : last.race.Sound := by
  induction ran with
  | nil => exact sound
  | cons first rest ih =>
    cases runBlock_eq_done_iff.mp first with
    | utility => exact ih sound
    | calculator inStage => cases inStage
    | racing _ _ handled => exact ih (handled.sound sound)
    | lotto inStage => cases inStage

private theorem event_cases (event : (Race.event? block.command).isSome)
    (belongs : block.Belongs .racing)
    (source : Chance.Source State) (progress : Progress) (state : State) :
    if block.text 0 ∈ progress.race.names then
      ∃ text next, Stepped source .racing progress state block text next state
    else Rejected .racing progress block (.carNotFound (block.text 0)) := by
  obtain ⟨happening, asks⟩ := Option.isSome_iff_exists.mp event
  split
  · rename_i entered
    have present : (Race.changeFirst (block.text 0) happening progress.race.cars).isSome :=
      Race.changeFirst_isSome_iff.mpr entered
    obtain ⟨⟨text, others⟩, changed⟩ := Option.isSome_iff_exists.mp present
    exact ⟨_, _, .racing rfl belongs (.event asks changed)⟩
  · rename_i absent
    exact .racing rfl belongs (.event asks absent)

end Progress

namespace Template

private theorem event_of_instantiate {command : Command} (event : (Racing.Race.event? command).isSome)
    (script : Script) (id : String) :
    ∃ block, instantiate .racing command script id = .ok block ∧ block.command = command ∧
      block.Belongs .racing ∧
      block.arguments = [.text (script.carNames.head?.getD carPlaceholder)] := by
  cases command <;> cases event
  all_goals
    refine ⟨_, rfl, rfl, ⟨rfl, rfl⟩, ?_⟩
    cases names : script.carNames <;> simp [block, initialArguments, carEvent, names]

end Template

namespace Script

open Progress

variable {State : Type} {source : Chance.Source State} {status : Status}

private theorem ran_of_unfailing {script : Script}
    (ran : script.run source status time state = some (report, after))
    (unfailing : ∀ place fault, ¬ FailsAt source status.stage script.blocks state place fault) :
    ∃ texts last, Ran source status.stage .start state script.blocks texts last after := by
  by_cases nonempty : script.blocks = []
  · obtain ⟨_, rfl⟩ : _ = report ∧ state = after := by simpa [run, nonempty] using ran
    exact ⟨[], .start, nonempty ▸ .nil⟩
  obtain ⟨_, ⟨texts, last, trace, _⟩ |
    ⟨before, block, rest, texts, reached, fault, split, trace, rejected, _⟩⟩ :=
    course_of_run nonempty ran
  · exact ⟨texts, last, trace⟩
  · exact absurd (split ▸ failsAt_of_rejected trace rejected rest) (unfailing _ _)

/-- What the editor offers after a run without a fault, and what becomes of an event that it makes.
The names are those of the cars that the run registers from a text, in the order of their
registration and each once. Where there is one, a new event names the first and runs; where there is
none, the event names nobody and ends the run. -/
theorem carNames_run {script : Script} (inStage : status.stage = .racing)
    (owned : ∀ block ∈ script.blocks, block.domain = block.command.domain)
    (ran : script.run source status time state = some (report, after))
    (unfailing : ∀ place fault, ¬ FailsAt source .racing script.blocks state place fault) :
    script.carNames =
      ((entrants source script.blocks .start state).filter (·.1.namedByText)).map (·.2.name) ∧
    script.carNames.Nodup ∧
    ∀ command ∈ [Command.boost, .failure, .drift, .jump, .windBlock], ∀ id,
      ∃ block, Template.instantiate .racing command script id = .ok block ∧
        (∀ first others, script.carNames = first :: others → block.arguments = [.text first] ∧
          ∃ longer later, (script.push block).run source status time state = some (longer, later) ∧
            ¬ longer.Aborted) ∧
        (script.carNames = [] → block.arguments = [.text "Driver name"] ∧
          FailsAt source .racing (script.push block).blocks state script.blocks.length
            (.carNotFound "Driver name") ∧
          ∃ longer later, (script.push block).run source status time state = some (longer, later) ∧
            longer.Aborted ∧
            longer.lines.getLast? = some ("[ABORTED] " ++ block.label ++ ": " ++
              "[ERROR] car 'Driver name' not found. (check that it is registered)")) := by
  rw [← inStage] at unfailing
  obtain ⟨texts, last, trace⟩ := ran_of_unfailing ran unfailing
  rw [inStage] at trace
  have racing : ∀ block ∈ script.blocks, block.Belongs .racing := fun block member =>
    trace.belongs member (owned block member ▸ block.command.domain_ne_utility)
  have sound := trace.sound Racing.Race.sound_empty
  have offered : script.carNames = _ := trace.carNames_eq racing
  have entered : script.carNames.Sublist last.race.names := by
    rw [offered, trace.names_eq racing]
    exact (List.filter_sublist.map _).trans (List.sublist_append_right _ _)
  refine ⟨offered, entered.nodup sound.apart, fun command listed id => ?_⟩
  have event : (Racing.Race.event? command).isSome := by
    simp only [List.mem_cons, List.not_mem_nil, or_false] at listed
    rcases listed with rfl | rfl | rfl | rfl | rfl <;> rfl
  obtain ⟨block, made, rfl, belongs, named⟩ := Template.event_of_instantiate event script id
  have text : block.text 0 = script.carNames.head?.getD Template.carPlaceholder := by
    simp [Block.text, named, Argument.asText]
  have outcome := event_cases event belongs source last after
  refine ⟨block, made, fun first others names => ⟨by rw [named, names]; rfl, ?_⟩, fun none => ?_⟩
  · have own : block.text 0 = first := by rw [text, names]; rfl
    have member : block.text 0 ∈ last.race.names :=
      own ▸ entered.subset (names ▸ List.mem_cons_self ..)
    rw [if_pos member] at outcome
    obtain ⟨answer, next, stepped⟩ := outcome
    have longer := trace.append (.cons stepped.runBlock_eq .nil)
    rw [← inStage] at longer
    have ran := Progress.Ran.run_eq longer (by simp) time
    exact ⟨_, _, ran, Status.afterRun_message_ne _ _⟩
  · have nobody : block.text 0 = "Driver name" := by rw [text, none]; rfl
    have absent : block.text 0 ∉ last.race.names := by
      intro member
      have short := (sound.length _ member).2
      rw [nobody] at short
      exact absurd short (by decide)
    rw [if_neg absent, nobody] at outcome
    refine ⟨by rw [named, none]; rfl, failsAt_of_rejected trace outcome [], ?_⟩
    rw [← inStage] at trace outcome
    have told : (Fault.carNotFound "Driver name").message =
        "[ERROR] car 'Driver name' not found. (check that it is registered)" := by decide
    exact ⟨_, _, run_of_rejected trace outcome [] time, rfl, by simp [abortedLine, told]⟩

/-- A car that a number names takes part in the race, and the editor does not offer it. -/
theorem carNames_run_numbered :
    let numbered : Block := .bare .selectCar [.number 7, .text "소나타"]
    let named : Block := .bare .selectCar [.text "jun", .text "제네시스"]
    (⟨[numbered, named]⟩ : Script).carNames = ["jun"] ∧
    ((entrants Chance.least [numbered, named] .start ()).map (·.2.name)) = ["7", "jun"] ∧
    (∃ block, Template.instantiate .racing .boost ⟨[numbered, named]⟩ "b" = .ok block ∧
      block.arguments = [.text "jun"] ∧
      ∃ longer later, (⟨[numbered, named, block]⟩ : Script).run Chance.least ⟨.racing, false, ""⟩
        ⟨0, 0⟩ () = some (longer, later) ∧ ¬ longer.Aborted) ∧
    ∃ block, Template.instantiate .racing .drift ⟨[numbered]⟩ "d" = .ok block ∧
      FailsAt Chance.least .racing [numbered, block] () 1 (.carNotFound "Driver name") := by
  intro numbered named
  have complete (script : Script) (nonempty : script.blocks ≠ [])
      (told : (script.run Chance.least ⟨.racing, false, ""⟩ ⟨0, 0⟩ ()).map (decide ·.1.Aborted) =
        some false) :
      ∃ report after,
        script.run Chance.least ⟨.racing, false, ""⟩ ⟨0, 0⟩ () = some (report, after) ∧
        ∀ place fault, ¬ FailsAt Chance.least .racing script.blocks () place fault := by
    obtain ⟨⟨report, after⟩, ran, unaborted⟩ := Option.map_eq_some_iff.mp told
    obtain ⟨_, _, trace⟩ := ran_of_unaborted nonempty ran (of_decide_eq_false unaborted)
    exact ⟨report, after, ran, fun _ _ => trace.unfailing⟩
  obtain ⟨report, after, ran, unfailing⟩ :=
    complete ⟨[numbered, named]⟩ (by simp) (by decide +kernel)
  obtain ⟨offered, _, events⟩ := carNames_run rfl (by decide) ran unfailing
  have both : entrants Chance.least [numbered, named] .start () =
      [(numbered, ⟨"7", .sonata, 0, false, false, none⟩),
        (named, ⟨"jun", .genesis, 0, false, false, none⟩)] := by decide +kernel
  rw [both] at offered
  obtain ⟨boost, made, runs, _⟩ := events .boost (by decide) "b"
  obtain ⟨alone, later, own, quiet⟩ :=
    complete ⟨[numbered]⟩ (by simp) (by decide +kernel)
  obtain ⟨_, _, others⟩ := carNames_run rfl (by decide) own quiet
  obtain ⟨drift, new, _, fails⟩ := others .drift (by decide) "d"
  exact ⟨offered, by rw [both]; rfl, ⟨boost, made, runs "jun" [] offered⟩, drift, new,
    (fails rfl).2.1⟩

end Script

end MissionScript
