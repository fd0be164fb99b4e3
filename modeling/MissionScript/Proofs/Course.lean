import MissionScript.Proofs.BlockStep

/-! The course of a run. The blocks of a script run one after the other up to the first that fails.
The report is read off these blocks alone: what stands behind the failing block does not matter, and
neither does what stands behind a cut for the lines before it. -/
namespace MissionScript

namespace Progress

variable {State : Type} {source : Chance.Source State} {stage : Stage}

theorem Ran.length_eq (ran : Ran source stage progress state blocks texts last after) :
    texts.length = blocks.length := by
  induction ran with
  | nil => rfl
  | cons first rest ih => simp [ih]

theorem Ran.append (first : Ran source stage progress state before texts reached middle)
    (rest : Ran source stage reached middle blocks answers last after) :
    Ran source stage progress state (before ++ blocks) (texts ++ answers) last after := by
  induction first with
  | nil => exact rest
  | cons own later ih => exact .cons own (ih rest)

theorem Ran.split {before blocks : List Block}
    (ran : Ran source stage progress state (before ++ blocks) texts last after) :
    ∃ own rest reached middle, texts = own ++ rest ∧
      Ran source stage progress state before own reached middle ∧
      Ran source stage reached middle blocks rest last after := by
  induction before generalizing progress state texts with
  | nil => exact ⟨[], texts, progress, state, rfl, .nil, ran⟩
  | cons block before ih =>
    cases ran with
    | cons first later =>
      obtain ⟨own, rest, reached, middle, rfl, early, late⟩ := ih later
      exact ⟨_ :: own, rest, reached, middle, rfl, .cons first early, late⟩

theorem Stepped.unique {progress : Progress}
    (first : Stepped source stage progress state block text next middle)
    (second : Stepped source stage progress state block answer other later) :
    text = answer ∧ next = other ∧ middle = later := by
  have same := first.runBlock_eq.symm.trans second.runBlock_eq
  exact Outcome.some_done_inj.mp same

theorem Ran.unique (first : Ran source stage progress state blocks texts last after)
    (second : Ran source stage progress state blocks answers final later) :
    texts = answers ∧ last = final ∧ after = later := by
  induction first generalizing answers with
  | nil =>
    cases second
    exact ⟨rfl, rfl, rfl⟩
  | cons own rest ih =>
    cases second with
    | cons other others =>
      obtain ⟨rfl, rfl, rfl⟩ :=
        (runBlock_eq_done_iff.mp own).unique (runBlock_eq_done_iff.mp other)
      obtain ⟨rfl, rfl, rfl⟩ := ih others
      exact ⟨rfl, rfl, rfl⟩

theorem Ran.runBlocks_append (ran : Ran source stage progress state before texts reached middle)
    (blocks : List Block) :
    runBlocks source stage (before ++ blocks) progress state =
      (runBlocks source stage blocks reached middle).map fun (lines, last, after) =>
        (List.zipWith line before texts ++ lines, last, after) := by
  induction ran with
  | nil => simp
  | cons first rest ih =>
    simp only [List.cons_append, runBlocks, first, Outcome.done, Option.bind_eq_bind,
      Option.bind_some, ih]
    cases runBlocks source stage blocks _ _ <;> rfl

private theorem Rejected.runBlocks_cons {progress : Progress} {block : Block}
    (rejected : Rejected stage progress block fault) (source : Chance.Source State) (state : State)
    (rest : List Block) : runBlocks source stage (block :: rest) progress state =
      some ([abortedLine block fault], none, state) := by
  simp [runBlocks, rejected.runBlock_eq, Outcome.failed]

/-- The lines of a run, how it ends and the source behind it: the blocks run to their end, or one of
them is rejected where the blocks before it have led. -/
inductive Course (source : Chance.Source State) (stage : Stage) (progress : Progress)
    (state : State) (blocks : List Block) : List String → Option Progress → State → Prop where
  | complete (ran : Ran source stage progress state blocks texts last after) :
      Course source stage progress state blocks (List.zipWith line blocks texts) (some last) after
  | aborted (split : blocks = before ++ block :: rest)
      (ran : Ran source stage progress state before texts reached after)
      (rejected : Rejected stage reached block fault) :
      Course source stage progress state blocks
        (List.zipWith line before texts ++ [abortedLine block fault]) none after

/-- Every run that ends has a course. -/
theorem course_of_runBlocks {blocks : List Block}
    (ran : runBlocks source stage blocks progress state = some (lines, last, after)) :
    Course source stage progress state blocks lines last after := by
  induction blocks generalizing progress state lines with
  | nil =>
    obtain ⟨rfl, rfl, rfl⟩ : [] = lines ∧ some progress = last ∧ state = after := by
      simpa [runBlocks] using ran
    exact .complete .nil
  | cons block blocks ih =>
    rcases stepped_or_rejected source stage progress block state with
      out | ⟨text, next, middle, stepped⟩ | ⟨fault, rejected⟩
    · simp [runBlocks, out] at ran
    · have first : Ran source stage progress state [block] [text] next middle :=
        .cons stepped.runBlock_eq .nil
      have joined := first.runBlocks_append blocks
      rw [List.singleton_append, ran] at joined
      obtain ⟨⟨others, ending, later⟩, rest, same⟩ := Option.map_eq_some_iff.mp joined.symm
      obtain ⟨rfl, rfl, rfl⟩ : _ = lines ∧ ending = last ∧ later = after := by
        simpa using same
      cases ih rest with
      | complete trace => exact .complete (.cons stepped.runBlock_eq trace)
      | aborted split trace rejected =>
        exact .aborted (by rw [split, List.cons_append]) (.cons stepped.runBlock_eq trace) rejected
    · rw [rejected.runBlocks_cons] at ran
      obtain ⟨rfl, rfl, rfl⟩ : _ = lines ∧ none = last ∧ state = after := by simpa using ran
      exact .aborted (List.nil_append (block :: blocks)).symm .nil rejected

/-- The block at a place fails, after all blocks before it have run. -/
def FailsAt (source : Chance.Source State) (stage : Stage) (blocks : List Block) (state : State)
    (place : Nat) (fault : Fault) : Prop :=
  ∃ block texts reached middle next after, blocks[place]? = some block ∧
    Ran source stage .start state (blocks.take place) texts reached middle ∧
    runBlock source stage reached block middle = some (.failed fault (next, after))

theorem FailsAt.split (fails : FailsAt source stage blocks state place fault) :
    ∃ block texts reached after, blocks[place]? = some block ∧
      blocks = blocks.take place ++ block :: blocks.drop (place + 1) ∧
      Ran source stage .start state (blocks.take place) texts reached after ∧
      Rejected stage reached block fault := by
  obtain ⟨block, texts, reached, middle, next, after, found, ran, failed⟩ := fails
  obtain ⟨inside, rfl⟩ := List.getElem?_eq_some_iff.mp found
  refine ⟨_, texts, reached, middle, found, ?_, ran, (runBlock_eq_failed_iff.mp failed).1⟩
  rw [← List.drop_eq_getElem_cons inside, List.take_append_drop]

theorem failsAt_of_rejected (ran : Ran source stage .start state before texts reached after)
    (rejected : Rejected stage reached block fault) (rest : List Block) :
    FailsAt source stage (before ++ block :: rest) state before.length fault := by
  refine ⟨block, texts, reached, after, reached, after, by simp, ?_, rejected.runBlock_eq source after⟩
  simpa using ran

private theorem closingLines_eq (progress : Progress) (stage : Stage) :
    progress.closingLines stage =
      if stage = .calculator then
        (if progress.calculator.pending.isSome then
          ["[CALC] Script ended with a pending operator. (ended in A -> OP order)"] else []) ++
          ["[CALC] Final result: " ++ (progress.calculator.total.map Decimal.written).getD "none"]
      else [] := rfl

private theorem closingLines_length (progress : Progress) (stage : Stage) :
    (progress.closingLines stage ≠ [] ↔ stage = .calculator) ∧
      (progress.closingLines stage).length ≤ 2 := by
  rw [closingLines_eq]
  split
  · rename_i calculating
    split <;> simp [calculating]
  · rename_i other
    simp [other]

end Progress

private theorem Status.afterRun_stage (status : Status) (cleared : Bool) :
    (status.afterRun cleared).stage = status.stage := by
  unfold afterRun
  split <;> rfl

private theorem Status.clearedMessage_of_afterRun {status : Status} {wins : Bool}
    (won : (status.afterRun wins).cleared = true) :
    status.stage.clearedMessage? = some (status.afterRun wins).message := by
  unfold afterRun at won ⊢
  split at won
  · rename_i message told
    exact (Option.filter_eq_some_iff.mp told).1
  · cases won

namespace Script

open Progress

variable {State : Type} {source : Chance.Source State} {status : Status}

/-- A report comes from the course of the run. -/
theorem course_of_run {script : Script} (nonempty : script.blocks ≠ [])
    (ran : script.run source status time state = some (report, after)) :
    report.time = time ∧
    ((∃ texts last, Ran source status.stage .start state script.blocks texts last after ∧
        report.lines = List.zipWith line script.blocks texts ++ last.closingLines status.stage ∧
        report.status = status.afterRun (last.clears status.stage)) ∨
      ∃ before block rest texts reached fault, script.blocks = before ++ block :: rest ∧
        Ran source status.stage .start state before texts reached after ∧
        Rejected status.stage reached block fault ∧
        report.lines = List.zipWith line before texts ++ [abortedLine block fault] ∧
        report.status = status.afterFault) := by
  unfold run at ran
  rw [if_neg (by simpa using nonempty)] at ran
  obtain ⟨⟨lines, last, later⟩, blocks, ended⟩ := Option.bind_eq_some_iff.mp ran
  cases course_of_runBlocks blocks with
  | complete trace =>
    obtain ⟨rfl, rfl⟩ := Prod.mk.inj (Option.some.inj ended)
    exact ⟨rfl, .inl ⟨_, _, trace, rfl, rfl⟩⟩
  | aborted split trace rejected =>
    obtain ⟨rfl, rfl⟩ := Prod.mk.inj (Option.some.inj ended)
    exact ⟨rfl, .inr ⟨_, _, _, _, _, _, split, trace, rejected, rfl, rfl⟩⟩

theorem ran_of_unaborted {script : Script} (nonempty : script.blocks ≠ [])
    (ran : script.run source status time state = some (report, after))
    (unaborted : ¬ report.Aborted) :
    ∃ texts last, Ran source status.stage .start state script.blocks texts last after := by
  obtain ⟨_, ⟨texts, last, trace, _⟩ | ⟨_, _, _, _, _, _, _, _, _, _, ended⟩⟩ :=
    course_of_run nonempty ran
  · exact ⟨texts, last, trace⟩
  · exact absurd (by rw [Report.Aborted, ended]; rfl) unaborted

/-- A report that tells of a fault ends with the line of the block that failed. -/
theorem failsAt_of_aborted {script : Script} (nonempty : script.blocks ≠ [])
    (ran : script.run source status time state = some (report, after)) (aborted : report.Aborted) :
    ∃ place block fault, script.blocks[place]? = some block ∧
      FailsAt source status.stage script.blocks state place fault ∧
      report.lines.getLast? = some (abortedLine block fault) := by
  obtain ⟨_, ⟨_, _, _, _, ended⟩ | ⟨before, block, rest, texts, reached, fault, split, trace,
    rejected, lines, _⟩⟩ := course_of_run nonempty ran
  · rw [Report.Aborted, ended] at aborted
    exact absurd aborted (Status.afterRun_message_ne _ _)
  · refine ⟨before.length, block, fault, by simp [split], ?_, by simp [lines]⟩
    rw [split]
    exact failsAt_of_rejected trace rejected rest

/-- A source that never runs out gives every script a report. -/
theorem run_isSome (endless : source.Endless) (inRange : source.InRange ∨ status.stage ≠ .lotto)
    (script : Script) (time : Timestamp) (state : State) :
    (script.run source status time state).isSome := by
  by_cases nonempty : script.blocks = []
  · simp [run, nonempty]
  have total : ∀ block ∈ script.blocks, ∀ progress state,
      (runBlock source status.stage progress block state).isSome :=
    fun block _ progress state => runBlock_isSome endless inRange progress block state
  rcases ran_or_fault total .start state with
    ⟨texts, last, after, trace⟩ | ⟨lines, after, stopped⟩
  · rw [trace.run_eq nonempty]
    rfl
  · rw [run_of_fault stopped nonempty]
    rfl

/-- Whatever stands behind a rejected block, the report is the same. -/
theorem run_of_rejected (ran : Ran source status.stage .start state before texts reached after)
    (rejected : Rejected status.stage reached block fault) (rest : List Block) (time : Timestamp) :
    (⟨before ++ block :: rest⟩ : Script).run source status time state =
      some (⟨List.zipWith line before texts ++ [abortedLine block fault], status.afterFault, time⟩,
        after) := by
  refine run_of_fault ?_ (by simp) time
  rw [ran.runBlocks_append, rejected.runBlocks_cons]
  rfl

/-- A failing block ends the run: nothing behind it is reported. -/
theorem run_of_failsAt {script : Script}
    (fails : FailsAt source status.stage script.blocks state place fault) (time : Timestamp) :
    ∃ block texts after, script.blocks[place]? = some block ∧
      script.run source status time state =
        some (⟨List.zipWith line (script.blocks.take place) texts ++ [abortedLine block fault],
          status.afterFault, time⟩, after) := by
  obtain ⟨block, texts, reached, after, found, split, trace, rejected⟩ := fails.split
  have own := run_of_rejected trace rejected (script.blocks.drop (place + 1)) time
  rw [← split] at own
  exact ⟨block, texts, after, found, own⟩

/-- A report begins with the lines of the blocks that ran, whatever stands behind these. -/
theorem lines_take_of_ran {rest : List Block}
    (trace : Ran source status.stage .start state before texts reached middle)
    (ran : (⟨before ++ rest⟩ : Script).run source status time state = some (report, after)) :
    report.lines.take before.length = List.zipWith line before texts := by
  have length : (List.zipWith line before texts).length = before.length := by
    simp [trace.length_eq]
  by_cases nonempty : before ++ rest = []
  · obtain ⟨rfl, rfl⟩ := List.append_eq_nil_iff.mp nonempty
    simp
  · unfold run at ran
    rw [if_neg (by simpa using nonempty)] at ran
    obtain ⟨⟨lines, last, later⟩, blocks, ended⟩ := Option.bind_eq_some_iff.mp ran
    rw [trace.runBlocks_append] at blocks
    obtain ⟨⟨others, _, _⟩, _, same⟩ := Option.map_eq_some_iff.mp blocks
    obtain ⟨rfl, _⟩ := Prod.mk.inj same
    -- Closing lines stand behind the lines of all blocks.
    have front : ∃ closing, report.lines = List.zipWith line before texts ++ closing := by
      dsimp only at ended
      split at ended <;> obtain ⟨rfl, rfl⟩ := Prod.mk.inj (Option.some.inj ended)
      · exact ⟨others, rfl⟩
      · exact ⟨others ++ _, List.append_assoc ..⟩
    obtain ⟨closing, same⟩ := front
    rw [same, List.take_append_of_le_length (Nat.le_of_eq length.symm), ← length, List.take_length]

/-- Whatever a run reports, it keeps the stage and the time, and it is cleared only with the message
of the stage. -/
theorem status_of_run {script : Script} (nonempty : script.blocks ≠ [])
    (ran : script.run source status time state = some (report, after)) :
    report.status.stage = status.stage ∧
      (report.status.cleared = true → status.stage.clearedMessage? = some report.status.message) ∧
      report.time = time := by
  obtain ⟨sameTime, ⟨texts, last, _, _, ended⟩ | ⟨_, _, _, _, _, _, _, _, _, _, ended⟩⟩ :=
    course_of_run nonempty ran
  · rw [ended]
    exact ⟨Status.afterRun_stage _ _, Status.clearedMessage_of_afterRun, sameTime⟩
  · rw [ended]
    exact ⟨rfl, by simp [Status.afterFault], sameTime⟩

private theorem run_of_ran {blocks : List Block}
    (trace : Ran source status.stage .start state blocks texts last after) (time : Timestamp) :
    ∃ report later, (⟨blocks⟩ : Script).run source status time state = some (report, later) := by
  by_cases nonempty : blocks = []
  · exact ⟨_, state, by rw [run, nonempty]; rfl⟩
  · exact ⟨_, after, Ran.run_eq trace nonempty time⟩

private theorem run_cut_of_ran {before rest : List Block}
    (trace : Ran source status.stage .start state before texts middle later)
    (ran : (⟨before ++ rest⟩ : Script).run source status time state = some (report, after)) :
    ∃ cut final, (⟨before⟩ : Script).run source status time state = some (cut, final) ∧
      cut.lines.take before.length = report.lines.take before.length := by
  obtain ⟨cut, final, alone⟩ := run_of_ran trace time
  refine ⟨cut, final, alone, ?_⟩
  rw [← List.append_nil before] at alone
  exact (lines_take_of_ran trace alone).trans (lines_take_of_ran trace ran).symm

/-- A script that is cut after some blocks reports the same lines up to there. -/
theorem run_cut {script : Script} (ran : script.run source status time state = some (report, after))
    (count : Nat) :
    ∃ cut later, (⟨script.blocks.take count⟩ : Script).run source status time state =
        some (cut, later) ∧
      cut.lines.take count = report.lines.take count := by
  obtain ⟨blocks⟩ := script
  by_cases whole : blocks.length ≤ count
  · rw [List.take_of_length_le whole]
    exact ⟨report, after, ran, rfl⟩
  have inside : count < blocks.length := Nat.lt_of_not_le whole
  have length : (blocks.take count).length = count := List.length_take_of_le (Nat.le_of_lt inside)
  have parts := List.take_append_drop count blocks
  have nonempty : blocks ≠ [] := List.ne_nil_of_length_pos (Nat.zero_lt_of_lt inside)
  -- A cut among the blocks that ran has a trace of its own.
  have early {texts middle between}
      (trace : Ran source status.stage .start state (blocks.take count) texts middle between) :
      ∃ cut later, (⟨blocks.take count⟩ : Script).run source status time state =
          some (cut, later) ∧
        cut.lines.take count = report.lines.take count := by
    rw [← parts] at ran
    simpa only [length] using run_cut_of_ran trace ran
  obtain ⟨_, ⟨texts, last, trace, _⟩ |
    ⟨before, block, rest, texts, reached, fault, split, trace, rejected, _⟩⟩ :=
    course_of_run nonempty ran
  · rw [← parts] at trace
    obtain ⟨own, _, middle, between, _, first, _⟩ := trace.split
    exact early first
  · obtain rfl : blocks = before ++ block :: rest := split
    by_cases short : count ≤ before.length
    · have taken : (before ++ block :: rest).take count = before.take count :=
        List.take_append_of_le_length short
      rw [← List.take_append_drop count before] at trace
      obtain ⟨own, _, middle, between, _, first, _⟩ := trace.split
      exact early (taken ▸ first)
    · -- The failing block stands before the cut.
      obtain ⟨more, rfl⟩ := Nat.exists_eq_add_of_lt (Nat.lt_of_not_le short)
      have taken : (before ++ block :: rest).take (before.length + more + 1) =
          before ++ block :: rest.take more := by
        rw [Nat.add_assoc, List.take_length_add_append, List.take_succ_cons]
      rw [taken]
      have same := (run_of_rejected trace rejected rest time).symm.trans ran
      exact ⟨report, after, (run_of_rejected trace rejected _ time).trans same, rfl⟩

/-- The course of a script with at least one block. A block that runs has one line, its label and its
text, and a block that fails has the last line, its label and its fault. Behind the lines of all blocks
a calculation tells its total, with a warning before it if an operator waits. What stands behind the
block that fails leaves the report and the source as they are, and a script that is cut has the same
lines up to the cut. -/
theorem run_course (source : Chance.Source State) (script : Script) (status : Status)
    (nonempty : script.blocks ≠ []) (time : Timestamp) (state : State) :
    (source.Endless → source.InRange ∨ status.stage ≠ .lotto →
      (script.run source status time state).isSome) ∧
    ((∀ place fault, ¬ FailsAt source status.stage script.blocks state place fault) →
      ∀ report after, script.run source status time state = some (report, after) →
      ∃ texts last closing, Ran source status.stage .start state script.blocks texts last after ∧
        texts.length = script.blocks.length ∧
        report.lines =
          List.zipWith (fun block text => block.label ++ ": " ++ text) script.blocks texts ++ closing ∧
        (closing ≠ [] ↔ status.stage = .calculator) ∧ closing.length ≤ 2 ∧
        closing =
          if status.stage = .calculator then
            (if last.calculator.pending.isSome then
              ["[CALC] Script ended with a pending operator. (ended in A -> OP order)"] else []) ++
              ["[CALC] Final result: " ++ (last.calculator.total.map Decimal.written).getD "none"]
          else []) ∧
    (∀ place fault, FailsAt source status.stage script.blocks state place fault →
      ∃ block texts reached report after, script.blocks[place]? = some block ∧
        Ran source status.stage .start state (script.blocks.take place) texts reached after ∧
        texts.length = place ∧
        report.lines =
          List.zipWith (fun block text => block.label ++ ": " ++ text)
            (script.blocks.take place) texts ++
          ["[ABORTED] " ++ block.label ++ ": " ++ fault.message] ∧
        report.status = ⟨status.stage, false, Status.failureMessage⟩ ∧
        script.run source status time state = some (report, after) ∧
        ∀ others, (⟨script.blocks.take (place + 1) ++ others⟩ : Script).run source status time state =
          some (report, after)) ∧
    ∀ report after, script.run source status time state = some (report, after) →
      (∀ count, ∃ cut later, (⟨script.blocks.take count⟩ : Script).run source status time state =
          some (cut, later) ∧
        cut.lines.take count = report.lines.take count) ∧
      report.status.stage = status.stage ∧
      (report.status.cleared = true → status.stage.clearedMessage? = some report.status.message) ∧
      report.time = time := by
  refine ⟨?_, ?_, ?_, ?_⟩
  · intro endless inRange
    exact run_isSome endless inRange script time state
  · intro unfailing report after ran
    obtain ⟨_, ⟨texts, last, trace, lines, _⟩ |
      ⟨before, block, rest, texts, reached, fault, split, trace, rejected, _⟩⟩ :=
      course_of_run nonempty ran
    · obtain ⟨closes, few⟩ := closingLines_length last status.stage
      exact ⟨texts, last, _, trace, trace.length_eq, lines, closes, few, closingLines_eq ..⟩
    · exact absurd (split ▸ failsAt_of_rejected trace rejected rest) (unfailing _ _)
  · intro place fault fails
    obtain ⟨block, texts, reached, after, found, split, trace, rejected⟩ := fails.split
    have inside := (List.getElem?_eq_some_iff.mp found).1
    have count : texts.length = place := by
      rw [trace.length_eq, List.length_take_of_le (Nat.le_of_lt inside)]
    refine ⟨block, texts, reached, ⟨_, status.afterFault, time⟩, after, found, trace, count, rfl, rfl,
      ?_, ?_⟩
    · have own := run_of_rejected trace rejected (script.blocks.drop (place + 1)) time
      rw [← split] at own
      exact own
    · intro others
      have taken : script.blocks.take (place + 1) = script.blocks.take place ++ [block] := by
        rw [List.take_add_one, found]
        rfl
      rw [taken, List.append_assoc]
      exact run_of_rejected trace rejected others time
  · intro report after ran
    exact ⟨run_cut ran, status_of_run nonempty ran⟩

/-- A drift of a car that was never registered ends the run, and no turn behind it is reported. -/
theorem run_course_unknown_car :
    let register : Block :=
      { Block.bare .selectCar [.text "pobi", .text "소나타"] with label := "Register driver/car" }
    let note : Block := { Block.bare .checkResult [] with domain := .utility, label := "Note" }
    let drift : Block := { Block.bare .drift [.text "jun"] with label := "Skill: drift" }
    let script : Script := ⟨[register, note, drift, .bare .runTurn []]⟩
    ∃ report after, script.run Chance.least ⟨.racing, true, ""⟩ ⟨0, 0⟩ () = some (report, after) ∧
      report.lines = [
        "Register driver/car: [CAR REGISTERED] pobi (Sonata) registered.",
        "Note: ",
        "[ABORTED] Skill: drift: [ERROR] car 'jun' not found. (check that it is registered)"] ∧
      report.status =
        ⟨.racing, false, "Mission failed: an error occurred while running the script."⟩ ∧
      (⟨[register, note, drift]⟩ : Script).run Chance.least ⟨.racing, true, ""⟩ ⟨0, 0⟩ () =
        some (report, after) := by
  intro register note drift script
  have known : Racing.Race.model? register = some .sonata := by decide +kernel
  have filled : (Text.trim (register.text 0)).isEmpty = false := by decide +kernel
  have registered : Stepped Chance.least .racing .start () register _ _ () :=
    .racing rfl ⟨rfl, rfl⟩ (.register rfl known filled (by decide) (by decide))
  have noted (progress : Progress) :
      Stepped Chance.least .racing progress () note "" progress () := .utility rfl
  have early : Ran Chance.least .racing .start () [register, note] _ _ () :=
    .cons registered.runBlock_eq (.cons (noted _).runBlock_eq .nil)
  have fails : FailsAt Chance.least .racing script.blocks () 2 (.carNotFound "jun") :=
    failsAt_of_rejected early (.racing rfl ⟨rfl, rfl⟩ (.event rfl (by decide))) _
  obtain ⟨_, _, aborted, _⟩ :=
    run_course Chance.least script ⟨.racing, true, ""⟩ (by decide) ⟨0, 0⟩ ()
  obtain ⟨block, texts, reached, report, after, found, trace, _, lines, ended, ran, others⟩ :=
    aborted 2 (.carNotFound "jun") fails
  obtain rfl : drift = block := Option.some.inj found
  obtain ⟨rfl, _, _⟩ := early.unique trace
  refine ⟨report, after, ran, lines.trans ?_, ended, others []⟩
  decide +kernel

end Script

end MissionScript
