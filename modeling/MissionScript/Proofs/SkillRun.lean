import MissionScript.Proofs.DisplacedDrift
import MissionScript.Proofs.RunPair

namespace MissionScript

namespace Progress

open Racing (Race Car Activates Drifts distance?)

variable {State : Type} {source : Chance.Source State}

theorem Stepped.belongs {progress : Progress}
    (stepped : Stepped source .racing progress state block text next after)
    (declared : block.domain ≠ .utility) : block.Belongs .racing := by
  cases stepped with
  | utility utility => exact absurd utility declared
  | calculator inStage => cases inStage
  | racing _ belongs _ => exact belongs
  | lotto inStage => cases inStage

theorem Stepped.handled {progress : Progress}
    (stepped : Stepped source .racing progress state block text next after)
    (belongs : block.Belongs .racing) :
    ∃ told changed, Race.Handled source progress.race state block told changed after ∧
      text = announced (toldWinners? changed block) told ∧
      next = { progress with
        race := changed, cleared := progress.cleared || (toldWinners? changed block).isSome } := by
  cases stepped with
  | utility utility => simp [belongs.1] at utility
  | calculator inStage => cases inStage
  | racing _ _ handled => exact ⟨_, _, handled, rfl, rfl⟩
  | lotto inStage => cases inStage

theorem Stepped.names_eq {progress next : Progress}
    (stepped : Stepped source .racing progress state block text next after) :
    next.race.names = progress.race.names ++
      if block.Belongs .racing ∧ block.command = .selectCar then [block.text 0] else [] := by
  cases stepped with
  | utility utility => simp [Block.Belongs, utility]
  | calculator inStage => cases inStage
  | racing inStage belongs handled => simp only [handled.names_eq, belongs, true_and]
  | lotto inStage => cases inStage

/-- The names that blocks register, in their order. -/
def namesOf (blocks : List Block) : List String :=
  (blocks.filter fun block => block.Belongs .racing ∧ block.command = .selectCar).map (·.text 0)

theorem Ran.names_eq_append (ran : Ran source .racing progress state blocks texts last after) :
    last.race.names = progress.race.names ++ namesOf blocks := by
  induction ran with
  | nil => simp [namesOf]
  | @cons progress block state text next middle blocks texts last after own rest ih =>
    rw [ih, (runBlock_eq_done_iff.mp own).names_eq, List.append_assoc]
    by_cases registers : block.Belongs .racing ∧ block.command = .selectCar <;>
      simp [namesOf, registers]

private theorem Ran.mem_names_iff (ran : Ran source .racing progress state blocks texts last after) :
    name ∈ last.race.names ↔ name ∈ progress.race.names ∨
      ∃ earlier ∈ blocks, earlier.Belongs .racing ∧ earlier.command = .selectCar ∧
        earlier.text 0 = name := by
  simp [ran.names_eq_append, namesOf, and_assoc]

private theorem toldWinners?_eq {left right : Race} (matched : left.Matched Car.unskilled right)
    (block : Block) : toldWinners? left block = toldWinners? right block := by
  unfold toldWinners?
  rw [matched.winners_eq]

private theorem announced_eq (winners? : Option (List String)) : ∃ rest : String,
    rest.toList.head? ≠ some '-' ∧ ∀ text, announced winners? text = text ++ rest := by
  cases winners? with
  | none => exact ⟨"", by decide, fun text => by simp [announced]⟩
  | some winners =>
    refine ⟨"\n[WINNERS]: " ++ ", ".intercalate winners, by simp, fun text => ?_⟩
    rw [← String.append_assoc]
    rfl

private theorem Stepped.plain {left right : Progress} (alike : left.race.Matched Car.plain right.race)
    (stepped : Stepped source .racing left state block text next after) :
    ∃ other, Stepped source .racing right state block text other after ∧
      next.race.Matched Car.plain other.race := by
  cases stepped with
  | utility utility => exact ⟨right, .utility utility, alike⟩
  | calculator inStage => cases inStage
  | racing inStage belongs handled =>
    obtain ⟨race, done, races⟩ := handled.plain alike
    rw [toldWinners?_eq races.unskilled]
    exact ⟨_, .racing inStage belongs done, races⟩
  | lotto inStage => cases inStage

private theorem Ran.plain {left right : Progress} (alike : left.race.Matched Car.plain right.race)
    (ran : Ran source .racing left state blocks texts last after) :
    ∃ final, Ran source .racing right state blocks texts final after := by
  induction ran generalizing right with
  | nil => exact ⟨right, .nil⟩
  | cons own rest ih =>
    obtain ⟨other, stepped, races⟩ := (runBlock_eq_done_iff.mp own).plain alike
    obtain ⟨final, others⟩ := ih races
    exact ⟨final, .cons stepped.runBlock_eq others⟩

private theorem Stepped.apart {left right : Progress} (apart : left.race.Apart name right.race)
    (stepped : Stepped source .racing left state block text next after) :
    ∃ answer other, Stepped source .racing right state block answer other after ∧
      Race.Fate name block left.race next.race other.race text answer := by
  cases stepped with
  | utility utility =>
    refine ⟨"", right, .utility utility, .waits ?_ rfl rfl apart⟩
    simp [Activates, Block.Belongs, utility]
  | calculator inStage => cases inStage
  | racing inStage belongs handled =>
    obtain ⟨answer, race, done, fate⟩ := handled.apart apart belongs
    refine ⟨_, _, .racing inStage belongs done, ?_⟩
    cases fate with
    | replaced activates same still alike =>
      exact .replaced activates (by rw [same, toldWinners?_eq alike.unskilled]) still alike
    | waits passive same still apart =>
      exact .waits passive (by rw [same, toldWinners?_eq apart.unskilled]) still apart
    | wasted same still gone alike =>
      exact .wasted (by rw [same, toldWinners?_eq alike.unskilled]) still gone alike
    | used far differ =>
      obtain ⟨_, ends, told⟩ := announced_eq (toldWinners? _ block)
      obtain ⟨_, otherEnds, otherTold⟩ := announced_eq (toldWinners? race block)
      exact .used far (by rw [told, otherTold]; exact differ.before ends otherEnds)
  | lotto inStage => cases inStage

/-- The drift that waits now is used by one of the blocks: the car moves before another skill takes
the place of the drift. -/
inductive DriftUsed (source : Chance.Source State) (name : String) :
    Progress → State → List Block → Prop where
  | now {progress next : Progress} (waits : Drifts name progress.race.cars)
      (stepped : Stepped source .racing progress state block text next middle)
      (far : distance? name next.race.cars ≠ distance? name progress.race.cars) :
      DriftUsed source name progress state (block :: rest)
  | later {progress next : Progress} (waits : Drifts name progress.race.cars)
      (stepped : Stepped source .racing progress state block text next middle)
      (kept : ¬ Activates block name) (used : DriftUsed source name next middle rest) :
      DriftUsed source name progress state (block :: rest)

private theorem DriftUsed.drifts {progress : Progress}
    (used : DriftUsed source name progress state blocks) :
    Drifts name progress.race.cars := by
  cases used with
  | now waits => exact waits
  | later waits => exact waits

private theorem not_driftUsed_nil {progress : Progress} :
    ¬ DriftUsed source name progress state [] := by
  intro used
  cases used

private theorem driftUsed_cons_iff {progress next : Progress} (waits : Drifts name progress.race.cars)
    (stepped : Stepped source .racing progress state block text next middle) :
    DriftUsed source name progress state (block :: rest) ↔
      distance? name next.race.cars ≠ distance? name progress.race.cars ∨
        ¬ Activates block name ∧ DriftUsed source name next middle rest := by
  constructor
  · intro used
    cases used with
    | now _ other far =>
      obtain ⟨_, rfl, _⟩ := stepped.unique other
      exact .inl far
    | later _ other kept used =>
      obtain ⟨_, rfl, rfl⟩ := stepped.unique other
      exact .inr ⟨kept, used⟩
  · rintro (far | ⟨kept, used⟩)
    · exact .now waits stepped far
    · exact .later waits stepped kept used

/-- A displaced drift is missed exactly if it would have been used. -/
theorem Ran.texts_eq_iff {left right : Progress} (apart : left.race.Apart name right.race)
    (ran : Ran source .racing left state blocks texts last after)
    (beside : Ran source .racing right state blocks answers final later) :
    texts = answers ↔ ¬ DriftUsed source name left state blocks := by
  induction ran generalizing right answers with
  | nil =>
    cases beside
    simp [not_driftUsed_nil]
  | cons own rest ih =>
    cases beside with
    | cons first others =>
      have stepped := runBlock_eq_done_iff.mp own
      obtain ⟨answer, other, matching, fate⟩ := stepped.apart apart
      obtain ⟨rfl, rfl, rfl⟩ := matching.unique (runBlock_eq_done_iff.mp first)
      rw [driftUsed_cons_iff apart.cars.drifts stepped]
      cases fate with
      | replaced activates same still alike =>
        obtain ⟨_, again⟩ := rest.plain alike
        obtain ⟨rfl, _⟩ := again.unique others
        simp [same, still, activates]
      | waits passive same still apart =>
        simp [same, still, passive, ih apart others]
      | wasted same still gone alike =>
        obtain ⟨_, again⟩ := rest.plain alike
        obtain ⟨rfl, _⟩ := again.unique others
        simp [same, still, mt DriftUsed.drifts gone]
      | used far differ => simp [differ.ne, far]

/-- An idle skill is activated for a car that is there. It displaces the drift that waits, or it makes
no difference at all. -/
private theorem stepped_of_idle {progress : Progress} (belongs : block.Belongs .racing)
    (idle : block.command = .jump ∨ block.command = .windBlock)
    (entered : block.text 0 ∈ progress.race.names) (source : Chance.Source State) (state : State) :
    ∃ text next, Stepped source .racing progress state block text next state ∧
      next.calculator = progress.calculator ∧ next.lottery = progress.lottery ∧
      next.cleared = progress.cleared ∧
      (progress.race.Apart (block.text 0) next.race ∨
        ¬ Drifts (block.text 0) progress.race.cars ∧
          progress.race.Matched Car.plain next.race) := by
  obtain ⟨skill, asks, other⟩ : ∃ skill, Race.event? block.command = some (Car.activate skill) ∧
      skill ≠ .drift := by
    rcases idle with asks | asks
    · exact ⟨.jump, by rw [asks]; rfl, by decide⟩
    · exact ⟨.windBlock, by rw [asks]; rfl, by decide⟩
  obtain ⟨⟨text, cars⟩, changed⟩ :=
    Option.isSome_iff_exists.mp (Race.changeFirst_isSome_iff.mpr entered)
  refine ⟨_, _, .racing rfl belongs (.event asks changed), rfl, rfl, ?_, ?_⟩
  · rw [toldWinners?_of_ne (Race.not_runTurn_of_event? asks)]
    exact Bool.or_false _
  · by_cases drifts : Drifts (block.text 0) progress.race.cars
    · exact .inl ⟨rfl, rfl, Race.displaced_of_activated drifts other changed⟩
    · exact .inr ⟨drifts, rfl, rfl, Race.plain_of_activated drifts other changed⟩

/-- Behind one more idle skill the blocks still run, with the same draws and a level end. Their texts
are the same exactly if no drift that waits is used. -/
theorem Ran.after_idle {reached : Progress} (belongs : block.Belongs .racing)
    (idle : block.command = .jump ∨ block.command = .windBlock)
    (entered : block.text 0 ∈ reached.race.names)
    (late : Ran source .racing reached middle rest answers last after) :
    ∃ text others final,
      Ran source .racing reached middle (block :: rest) (text :: others) final after ∧
      last.Level final ∧
      (others = answers ↔ ¬ DriftUsed source (block.text 0) reached middle rest) := by
  obtain ⟨text, next, stepped, calculator, lottery, cleared, fate⟩ :=
    stepped_of_idle belongs idle entered source middle
  have bare : reached.race.Matched Car.unskilled next.race := by
    rcases fate with apart | ⟨_, alike⟩
    · exact apart.unskilled
    · exact alike.unskilled
  have level : reached.Level next := by
    refine ⟨calculator.symm, ⟨bare.attempts, bare.turn, ?_⟩, lottery ▸ .refl _, cleared.symm⟩
    exact Race.map_eq_of_alike Car.mark_of_unskilled bare.cars
  obtain ⟨others, final, later, beside, ends, rfl, _⟩ :=
    late.inStep source.inStep_self (.inr (by decide)) rfl level
  refine ⟨text, others, final, .cons stepped.runBlock_eq beside, ends, ?_⟩
  rcases fate with apart | ⟨quiet, alike⟩
  · rw [eq_comm]
    exact late.texts_eq_iff apart beside
  · obtain ⟨_, again⟩ := late.plain alike
    obtain ⟨rfl, _⟩ := again.unique beside
    simp [mt DriftUsed.drifts quiet]

end Progress

namespace Script

open Progress
open Racing (Race)

variable {State : Type} {source : Chance.Source State} {status : Status}

private theorem lines_inj {blocks : List Block} {texts answers : List String}
    (own : texts.length = blocks.length) (other : answers.length = blocks.length) :
    List.zipWith line blocks texts = List.zipWith line blocks answers ↔ texts = answers := by
  induction blocks generalizing texts answers with
  | nil => simp [List.length_eq_zero_iff.mp own, List.length_eq_zero_iff.mp other]
  | cons block blocks ih =>
    obtain ⟨text, texts, rfl⟩ := List.exists_cons_of_length_eq_add_one own
    obtain ⟨answer, answers, rfl⟩ := List.exists_cons_of_length_eq_add_one other
    have rest := ih (Nat.succ.inj own) (Nat.succ.inj other)
    simp [rest, line]

/-- The report of a racing script whose blocks all run. -/
theorem run_eq_of_race {script : Script} (inStage : status.stage = .racing)
    (trace : Ran source .racing .start state script.blocks texts last after)
    (nonempty : script.blocks ≠ []) (time : Timestamp) :
    script.run source status time state =
      some (⟨List.zipWith line script.blocks texts, status.afterRun (last.clears .racing), time⟩,
        after) := by
  rw [← inStage] at trace
  rw [trace.run_eq nonempty, inStage]
  simp [closingLines]

/-- One more jump or wind block in a racing script that runs, for a car that is registered by then,
changes neither the status nor the time nor any draw. It changes none of the other lines exactly if
no drift is used from there on that waits for the car at that point. -/
theorem idle_skill_run {before rest : List Block} {block : Block} (inStage : status.stage = .racing)
    (ran : (⟨before ++ rest⟩ : Script).run source status time state = some (report, after))
    (unaborted : ¬ report.Aborted) (belongs : block.Belongs .racing)
    (idle : block.command = .jump ∨ block.command = .windBlock)
    (registered : ∃ earlier ∈ before, earlier.Belongs .racing ∧ earlier.command = .selectCar ∧
      earlier.text 0 = block.text 0) :
    ∃ texts reached middle text longer,
      Ran source .racing .start state before texts reached middle ∧
      (⟨before ++ block :: rest⟩ : Script).run source status time state = some (longer, after) ∧
      longer.status = report.status ∧ longer.time = report.time ∧
      longer.lines[before.length]? = some (block.label ++ ": " ++ text) ∧
      (longer.lines.eraseIdx before.length = report.lines ↔
        ¬ DriftUsed source (block.text 0) reached middle rest) := by
  have nonempty : before ++ rest ≠ [] := by
    obtain ⟨earlier, member, _⟩ := registered
    exact List.append_ne_nil_of_left_ne_nil (List.ne_nil_of_mem member) rest
  obtain ⟨texts, last, trace⟩ := ran_of_unaborted nonempty ran unaborted
  rw [inStage] at trace
  have reported := run_eq_of_race inStage trace nonempty time
  obtain rfl : report = _ := (Prod.mk.inj (Option.some.inj (ran.symm.trans reported))).1
  obtain ⟨own, answers, reached, middle, rfl, early, late⟩ := trace.split
  have entered : block.text 0 ∈ reached.race.names := early.mem_names_iff.mpr (.inr registered)
  obtain ⟨text, others, final, longer, level, texts⟩ := late.after_idle belongs idle entered
  have inserted := run_eq_of_race inStage (early.append longer) (by simp) time
  have front : before.length = own.length := early.length_eq.symm
  have place : (List.zipWith line before own).length = before.length := by simp [front]
  rw [List.zipWith_append front] at inserted
  refine ⟨own, reached, middle, text, _, early, inserted, ?_, rfl, ?_, ?_⟩
  · rw [level.clears]
  · rw [List.getElem?_append_right (Nat.le_of_eq place), place, Nat.sub_self]
    rfl
  · have kept : others.length = rest.length := by simpa using longer.length_eq
    rw [← texts, List.eraseIdx_append_of_length_le (Nat.le_of_eq place), place, Nat.sub_self,
      List.zipWith_append front, List.append_cancel_left_eq]
    exact lines_inj kept late.length_eq

/-- Where no drift waits, a jump before the only turn of a race leaves every other line as it was. -/
theorem idle_skill_run_undrifted :
    let register : Block := .bare .selectCar [.text "pobi", .text "소나타"]
    let setUp : Block := .bare .setUpRace [.number 1]
    let jump : Block := .bare .jump [.text "pobi"]
    let turn : Block := .bare .runTurn []
    ∃ report longer,
      (⟨[register, setUp, turn]⟩ : Script).run Chance.greatest ⟨.racing, false, ""⟩ ⟨0, 0⟩ () =
        some (report, ()) ∧
      (⟨[register, setUp, jump, turn]⟩ : Script).run Chance.greatest ⟨.racing, false, ""⟩ ⟨0, 0⟩ () =
        some (longer, ()) ∧
      longer.lines.eraseIdx 2 = report.lines ∧ longer.status = report.status := by
  intro register setUp jump turn
  have finished : ((⟨[register, setUp] ++ [turn]⟩ : Script).run Chance.greatest
      ⟨.racing, false, ""⟩ ⟨0, 0⟩ ()).map (decide ·.1.Aborted) = some false := by decide +kernel
  obtain ⟨⟨report, _⟩, ran, unaborted⟩ := Option.map_eq_some_iff.mp finished
  have belongs : jump.Belongs .racing := ⟨rfl, rfl⟩
  obtain ⟨texts, reached, middle, text, longer, early, inserted, status, _, _, lines⟩ :=
    idle_skill_run rfl ran (of_decide_eq_false unaborted) belongs (.inl rfl)
      ⟨register, by simp, ⟨rfl, rfl⟩, rfl, rfl⟩
  have asked : Race.attempts? setUp = some 1 := by decide +kernel
  have known : Race.model? register = some .sonata := by decide +kernel
  have filled : (Text.trim (register.text 0)).isEmpty = false := by decide +kernel
  have registered : Stepped Chance.greatest .racing .start () register _ _ () :=
    .racing rfl ⟨rfl, rfl⟩ (.register rfl known filled (by decide) (by decide))
  have planned (progress : Progress) : Stepped Chance.greatest .racing progress () setUp _ _ () :=
    .racing rfl ⟨rfl, rfl⟩ (.setUp rfl asked)
  obtain ⟨_, rfl, _⟩ :=
    early.unique (.cons registered.runBlock_eq (.cons (planned _).runBlock_eq .nil))
  refine ⟨report, longer, ran, inserted, lines.mpr (mt DriftUsed.drifts ?_), status⟩
  decide

/-- A jump takes the place of a drift, and the car goes one step less. -/
theorem idle_skill_displaces_drift :
    let setUp : Block := .bare .setUpRace [.number 1]
    let register : Block := .bare .selectCar [.text "pobi", .text "소나타"]
    let drift : Block := .bare .drift [.text "pobi"]
    let jump : Block := .bare .jump [.text "pobi"]
    let turn : Block := .bare .runTurn []
    Chance.greatest.InRange ∧ ∃ report longer,
      (⟨[setUp, register, drift, turn]⟩ : Script).run Chance.greatest ⟨.racing, false, ""⟩ ⟨0, 0⟩ () =
        some (report, ()) ∧ ¬ report.Aborted ∧
      (⟨[setUp, register, drift, jump, turn]⟩ : Script).run Chance.greatest ⟨.racing, false, ""⟩
        ⟨0, 0⟩ () = some (longer, ()) ∧
      report.lines[3]? = some ": --- Turn 1 ---\npobi: --\n[WINNERS]: pobi" ∧
      longer.lines[4]? = some ": --- Turn 1 ---\npobi: -\n[WINNERS]: pobi" ∧
      longer.lines.eraseIdx 3 ≠ report.lines := by
  intro setUp register drift jump turn
  have far : ((⟨[setUp, register, drift, turn]⟩ : Script).run Chance.greatest ⟨.racing, false, ""⟩
      ⟨0, 0⟩ ()).map (fun (report, _) => (decide report.Aborted, report.lines[3]?)) =
      some (false, some ": --- Turn 1 ---\npobi: --\n[WINNERS]: pobi") := by decide +kernel
  have near : ((⟨[setUp, register, drift, jump, turn]⟩ : Script).run Chance.greatest
      ⟨.racing, false, ""⟩ ⟨0, 0⟩ ()).map (·.1.lines[4]?) =
      some (some ": --- Turn 1 ---\npobi: -\n[WINNERS]: pobi") := by decide +kernel
  obtain ⟨⟨report, _⟩, ran, told⟩ := Option.map_eq_some_iff.mp far
  obtain ⟨⟨longer, _⟩, inserted, other⟩ := Option.map_eq_some_iff.mp near
  obtain ⟨unaborted, track⟩ := Prod.mk.inj told
  refine ⟨Chance.greatest_inRange, report, longer, ran, of_decide_eq_false unaborted, inserted, track,
    other, fun same => ?_⟩
  have place : (longer.lines.eraseIdx 3)[3]? = longer.lines[4]? := by
    simp [List.getElem?_eraseIdx]
  rw [same, track, other] at place
  exact absurd place (by decide)

end Script

end MissionScript
