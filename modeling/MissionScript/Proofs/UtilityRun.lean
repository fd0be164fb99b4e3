import MissionScript.Proofs.Course

namespace MissionScript

/-- The report with a line more, put in at a place. -/
def Report.withLine (place : Nat) (line : String) (report : Report) : Report :=
  { report with lines := report.lines.insertIdx place line }

namespace Progress

variable {State : Type} {source : Chance.Source State} {stage : Stage}

/-- How far blocks lead: all of them run, one of them is rejected, or the source runs out on them
whatever stands behind. -/
inductive Leads (source : Chance.Source State) (stage : Stage) (progress : Progress) (state : State)
    (blocks : List Block) : Prop where
  | through (ran : Ran source stage progress state blocks texts reached middle)
  | rejected (split : blocks = before ++ block :: others)
      (ran : Ran source stage progress state before texts reached middle)
      (rejected : Rejected stage reached block fault)
  | out (none : ∀ rest, runBlocks source stage (blocks ++ rest) progress state = none)

private theorem leads (source : Chance.Source State) (stage : Stage) (progress : Progress)
    (state : State)
    (blocks : List Block) : Leads source stage progress state blocks := by
  induction blocks generalizing progress state with
  | nil => exact .through .nil
  | cons block blocks ih =>
    rcases stepped_or_rejected source stage progress block state with
      out | ⟨text, next, middle, stepped⟩ | ⟨fault, rejected⟩
    · exact .out fun rest => by simp [runBlocks, out]
    · cases ih next middle with
      | through ran => exact .through (.cons stepped.runBlock_eq ran)
      | rejected split ran refused =>
        exact .rejected (by rw [split, List.cons_append]) (.cons stepped.runBlock_eq ran) refused
      | out none =>
        refine .out fun rest => ?_
        simp [runBlocks, stepped.runBlock_eq, Outcome.done, none rest]
    · exact .rejected (List.nil_append (block :: blocks)).symm .nil rejected

theorem Ran.not_failsAt {before : List Block}
    (ran : Ran source stage .start state before texts reached middle) (rest : List Block)
    (inside : place < before.length) :
    ¬ FailsAt source stage (before ++ rest) state place fault := by
  rintro ⟨block, answers, found, between, next, after, present, own, failed⟩
  rw [List.getElem?_append_left inside] at present
  rw [List.take_append_of_le_length (Nat.le_of_lt inside)] at own
  obtain ⟨within, rfl⟩ := List.getElem?_eq_some_iff.mp present
  have parts := List.take_append_drop place before
  rw [List.drop_eq_getElem_cons within] at parts
  rw [← parts] at ran
  obtain ⟨_, _, _, _, _, first, later⟩ := ran.split
  obtain ⟨_, rfl, rfl⟩ := first.unique own
  cases later with
  | cons done others =>
    rw [done] at failed
    simp [Outcome.done, Outcome.failed] at failed

theorem Ran.unfailing (ran : Ran source stage .start state blocks texts last after) :
    ¬ FailsAt source stage blocks state place fault := by
  intro fails
  obtain ⟨block, _, _, _, found, _⟩ := fails.split
  have inside := (List.getElem?_eq_some_iff.mp found).1
  have quiet : ¬ FailsAt source stage (blocks ++ []) state place fault := ran.not_failsAt [] inside
  rw [List.append_nil] at quiet
  exact quiet fails

/-- The report of a run that has come to these lines and, unless a fault ended it, to this progress. -/
def reported (status : Status) (time : Timestamp) (lines : List String) : Option Progress → Report
  | none => ⟨lines, status.afterFault, time⟩
  | some last =>
    ⟨lines ++ last.closingLines status.stage, status.afterRun (last.clears status.stage), time⟩

private theorem reported_insert (status : Status) (time : Timestamp) (front : List String)
    (line : String)
    (back : List String) (last : Option Progress) :
    reported status time (front ++ line :: back) last =
      (reported status time (front ++ back) last).withLine front.length line := by
  cases last with
  | none => simp only [reported, Report.withLine, insertIdx_append]
  | some last =>
    simp only [reported, Report.withLine, List.append_assoc, List.cons_append, insertIdx_append]

end Progress

namespace Script

open Progress

variable {State : Type} {source : Chance.Source State} {status : Status}

theorem run_eq_reported (source : Chance.Source State) {blocks : List Block} (status : Status)
    (nonempty : blocks ≠ []) (time : Timestamp) (state : State) :
    (⟨blocks⟩ : Script).run source status time state =
      (runBlocks source status.stage blocks .start state).map fun (lines, last, after) =>
        (reported status time lines last, after) := by
  have some : ¬ blocks.isEmpty = true := by simpa using nonempty
  simp only [run, if_neg some]
  cases runBlocks source status.stage blocks .start state with
  | none => rfl
  | some ended =>
    obtain ⟨lines, last, after⟩ := ended
    cases last <;> rfl

private theorem run_utility_of_ran {before rest : List Block} {block : Block}
    (utility : block.domain = .utility) (nonempty : before ++ rest ≠ [])
    (ran : Ran source status.stage .start state before texts reached middle) (time : Timestamp) :
    (⟨before ++ block :: rest⟩ : Script).run source status time state =
      ((⟨before ++ rest⟩ : Script).run source status time state).map fun (report, after) =>
        (report.withLine before.length (line block ""), after) := by
  have length : (List.zipWith line before texts).length = before.length := by simp [ran.length_eq]
  have own : Ran source status.stage reached middle [block] [""] reached middle :=
    .cons (runBlock_utility utility reached middle) .nil
  have longer := own.runBlocks_append rest
  rw [List.singleton_append] at longer
  rw [run_eq_reported source status (by simp) time state,
    run_eq_reported source status nonempty time state, ran.runBlocks_append, ran.runBlocks_append,
    longer]
  cases runBlocks source status.stage rest reached middle with
  | none => rfl
  | some ended =>
    obtain ⟨lines, last, after⟩ := ended
    have inserted :=
      reported_insert status time (List.zipWith line before texts) (line block "") lines last
    rw [length] at inserted
    exact congrArg (fun report => some (report, after)) inserted

/-- One more utility block in a script. A run that ends at a fault before the block is the same run.
Otherwise the block adds its line at its place, and everything else stays: the other lines, the status,
the time and the source. A run that its source does not last for stays without a report. -/
theorem utility_run (before rest : List Block) {block : Block} (utility : block.domain = .utility)
    (nonempty : before ++ rest ≠ []) (source : Chance.Source State) (status : Status)
    (time : Timestamp) (state : State) :
    ((∃ place < before.length, ∃ fault,
        FailsAt source status.stage (before ++ rest) state place fault) →
      (⟨before ++ block :: rest⟩ : Script).run source status time state =
        (⟨before ++ rest⟩ : Script).run source status time state) ∧
    ((¬ ∃ place < before.length, ∃ fault,
        FailsAt source status.stage (before ++ rest) state place fault) →
      (⟨before ++ block :: rest⟩ : Script).run source status time state =
        ((⟨before ++ rest⟩ : Script).run source status time state).map fun (report, after) =>
          (report.withLine before.length (block.label ++ ": "), after)) ∧
    ∀ report after, (⟨before ++ rest⟩ : Script).run source status time state = some (report, after) →
      (¬ ∃ place < before.length, ∃ fault,
        FailsAt source status.stage (before ++ rest) state place fault) →
      before.length ≤ report.lines.length := by
  cases leads source status.stage .start state before with
  | through ran =>
    refine ⟨?_, fun _ => ?_, fun report after reports _ => ?_⟩
    · rintro ⟨place, inside, fault, fails⟩
      exact absurd fails (ran.not_failsAt rest inside)
    · have own : line block "" = block.label ++ ": " := String.append_empty
      rw [run_utility_of_ran utility nonempty ran time, own]
    · have taken := congrArg List.length (lines_take_of_ran ran reports)
      simp only [List.length_take, List.length_zipWith, ran.length_eq, Nat.min_self] at taken
      omega
  | @rejected early failing others texts reached middle fault split ran rejected =>
    subst split
    have fails := failsAt_of_rejected ran rejected (others ++ rest)
    have same (back : List Block) := run_of_rejected ran rejected (others ++ back) time
    simp only [List.append_assoc, List.cons_append]
    have before : ∃ place < (early ++ failing :: others).length, ∃ fault, FailsAt source status.stage
        (early ++ failing :: (others ++ rest)) state place fault :=
      ⟨early.length, by simp, fault, fails⟩
    exact ⟨fun _ => (same (block :: rest)).trans (same rest).symm, absurd before,
      fun _ _ _ => absurd before⟩
  | out none =>
    have gone {back : List Block} (some : before ++ back ≠ []) :
        (⟨before ++ back⟩ : Script).run source status time state = .none := by
      rw [run_eq_reported source status some, none back]
      rfl
    rw [gone nonempty, gone (by simp)]
    exact ⟨fun _ => rfl, fun _ => rfl, by simp⟩

/-- A note before a block that fails adds its line, and one behind it adds none. -/
theorem utility_run_around_fault :
    let register : Block := .bare .selectCar [.text "pobi", .text "소나타"]
    let drift : Block := .bare .drift [.text "jun"]
    let note : Block := { Block.bare .buyTickets [] with domain := .utility, label := "Note" }
    ∃ report, (⟨[register, drift]⟩ : Script).run Chance.least ⟨.racing, true, ""⟩ ⟨0, 0⟩ () =
        some (report, ()) ∧ report.Aborted ∧
      (⟨[register, note, drift]⟩ : Script).run Chance.least ⟨.racing, true, ""⟩ ⟨0, 0⟩ () =
        some (report.withLine 1 "Note: ", ()) ∧
      (⟨[register, drift, note]⟩ : Script).run Chance.least ⟨.racing, true, ""⟩ ⟨0, 0⟩ () =
        some (report, ()) := by
  intro register drift note
  have known : Racing.Race.model? register = some .sonata := by decide +kernel
  have filled : (Text.trim (register.text 0)).isEmpty = false := by decide +kernel
  let pobi : Racing.Car := ⟨"pobi", .sonata, 0, false, false, none⟩
  have registered : Stepped Chance.least .racing .start () register _
      { Progress.start with race := ⟨[pobi], 0, 0⟩ } () :=
    .racing rfl ⟨rfl, rfl⟩ (.register rfl known filled (by decide) (by decide))
  have first : Ran Chance.least .racing .start () [register] _
      { Progress.start with race := ⟨[pobi], 0, 0⟩ } () := .cons registered.runBlock_eq .nil
  have rejected : Rejected .racing { Progress.start with race := ⟨[pobi], 0, 0⟩ } drift
      (.carNotFound "jun") := .racing rfl ⟨rfl, rfl⟩ (.event rfl (by decide))
  have ended : ((⟨[register, drift]⟩ : Script).run Chance.least ⟨.racing, true, ""⟩ ⟨0, 0⟩ ()).map
      (decide ·.1.Aborted) = some true := by decide +kernel
  obtain ⟨⟨report, _⟩, ran, aborted⟩ := Option.map_eq_some_iff.mp ended
  have utility : note.domain = .utility := rfl
  obtain ⟨_, early, _⟩ :=
    utility_run [register] [drift] utility (by simp) Chance.least ⟨.racing, true, ""⟩ ⟨0, 0⟩ ()
  obtain ⟨late, _⟩ :=
    utility_run [register, drift] [] utility (by simp) Chance.least ⟨.racing, true, ""⟩ ⟨0, 0⟩ ()
  refine ⟨report, ran, of_decide_eq_true aborted, (early ?_).trans (congrArg _ ran),
    (late ?_).trans ran⟩
  · rintro ⟨place, inside, fault, fails⟩
    exact first.not_failsAt [drift] inside fails
  · exact ⟨1, by decide, _, failsAt_of_rejected first rejected []⟩

end Script

end MissionScript
