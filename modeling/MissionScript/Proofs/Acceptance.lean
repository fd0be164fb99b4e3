import MissionScript.Proofs.Trace

/-! Which scripts a stage accepts. A stage has a law when the blocks before a block decide whether
it runs: then a script runs to its end exactly if every block is allowed after those before it. -/
namespace MissionScript

/-- Every block is allowed after the blocks before it. -/
def Kept (Allowed : List Block → Block → Prop) (blocks : List Block) : Prop :=
  ∀ before block after, blocks = before ++ block :: after → Allowed before block

private theorem kept_nil {Allowed : List Block → Block → Prop} : Kept Allowed [] := by
  intro before block after split
  simp at split

private theorem kept_cons {Allowed : List Block → Block → Prop} {block : Block} {blocks : List Block} :
    Kept Allowed (block :: blocks) ↔
      Allowed [] block ∧ Kept (fun before => Allowed (block :: before)) blocks := by
  constructor
  · intro kept
    refine ⟨kept [] block blocks rfl, ?_⟩
    intro before later after split
    exact kept (block :: before) later after (by rw [split]; rfl)
  · intro ⟨first, rest⟩ before later after split
    cases before with
    | nil =>
      obtain ⟨rfl, rfl⟩ := List.cons.inj split
      exact first
    | cons head before =>
      obtain ⟨rfl, rfl⟩ := List.cons.inj split
      exact rest before later after rfl

instance Kept.decidable : (blocks : List Block) → (Allowed : List Block → Block → Prop) →
    [∀ before block, Decidable (Allowed before block)] → Decidable (Kept Allowed blocks)
  | [], _, _ => .isTrue kept_nil
  | block :: blocks, Allowed, _ =>
    have := Kept.decidable blocks fun before => Allowed (block :: before)
    decidable_of_iff _ kept_cons.symm

namespace Progress

variable {State : Type}

/-- What a stage makes of its blocks. The history of blocks that ran tells all of the progress that
the next block depends on. -/
structure StageLaw (source : Chance.Source State) (stage : Stage) (Fitting : Block → Prop)
    (Allowed : List Block → Block → Prop) (Tells : List Block → Progress → Prop) : Prop where
  total : Fitting block → ∀ progress state, (runBlock source stage progress block state).isSome
  accepts : Tells history progress → Fitting block → Allowed history block → ∀ state,
    ∃ text next after, runBlock source stage progress block state = some (.done text (next, after))
  keeps : Tells history progress → Fitting block →
    runBlock source stage progress block state = some (.done text (next, after)) →
    Allowed history block ∧ Tells (history ++ [block]) next

variable {source : Chance.Source State} {stage : Stage} {Fitting : Block → Prop}
  {Allowed : List Block → Block → Prop} {Tells : List Block → Progress → Prop}

private theorem StageLaw.kept_of_ran (law : StageLaw source stage Fitting Allowed Tells)
    (ran : Ran source stage progress state blocks texts last after)
    (fitting : ∀ block ∈ blocks, Fitting block) (tells : Tells history progress) :
    Kept (fun before => Allowed (history ++ before)) blocks ∧ Tells (history ++ blocks) last := by
  induction ran generalizing history with
  | nil => exact ⟨kept_nil, by simpa using tells⟩
  | @cons progress block state text next middle blocks texts last after first rest ih =>
    have own := law.keeps tells (fitting block (List.mem_cons_self ..)) first
    have later := ih (fun next member => fitting next (List.mem_cons_of_mem _ member)) own.2
    simp only [List.append_assoc, List.singleton_append] at later
    exact ⟨kept_cons.mpr ⟨by simpa using own.1, later.1⟩, later.2⟩

private theorem StageLaw.ran_of_kept (law : StageLaw source stage Fitting Allowed Tells)
    (fitting : ∀ block ∈ blocks, Fitting block) (tells : Tells history progress)
    (kept : Kept (fun before => Allowed (history ++ before)) blocks) (state : State) :
    ∃ texts last after, Ran source stage progress state blocks texts last after := by
  induction blocks generalizing history progress state with
  | nil => exact ⟨[], progress, state, .nil⟩
  | cons block blocks ih =>
    obtain ⟨own, later⟩ := kept_cons.mp kept
    have fits := fitting block (List.mem_cons_self ..)
    obtain ⟨text, next, middle, first⟩ := law.accepts tells fits (by simpa using own) state
    obtain ⟨texts, last, after, rest⟩ :=
      ih (fun next member => fitting next (List.mem_cons_of_mem _ member))
        (law.keeps tells fits first).2 (by simpa using later) middle
    exact ⟨text :: texts, last, after, .cons first rest⟩

/-- The report of a script under a law. The run is aborted exactly if some block is not allowed
after the blocks before it; otherwise the report is the one of a trace whose end is told by the
whole script. -/
theorem StageLaw.run (law : StageLaw source stage Fitting Allowed Tells)
    (start : Tells [] .start) {script : Script} {status : Status} (inStage : status.stage = stage)
    (nonempty : script.blocks ≠ []) (fitting : ∀ block ∈ script.blocks, Fitting block)
    (time : Timestamp) (state : State) :
    ∃ report after, script.run source status time state = some (report, after) ∧
      (¬ report.Aborted ↔ Kept Allowed script.blocks) ∧
      (¬ report.Aborted → ∃ texts last,
        Ran source stage .start state script.blocks texts last after ∧ Tells script.blocks last ∧
        report.lines = List.zipWith line script.blocks texts ++ last.closingLines stage ∧
        report.status = status.afterRun (last.clears stage)) := by
  subst inStage
  rcases ran_or_fault (fun block member => law.total (fitting block member)) .start state with
    ⟨texts, last, after, ran⟩ | ⟨lines, after, stopped⟩
  · obtain ⟨kept, tells⟩ := law.kept_of_ran ran fitting start
    refine ⟨_, after, ran.run_eq nonempty time, ?_, ?_⟩
    · exact iff_of_true (Status.afterRun_message_ne _ _) kept
    · intro _
      exact ⟨texts, last, ran, tells, rfl, rfl⟩
  · have aborted : Report.Aborted ⟨lines, status.afterFault, time⟩ := rfl
    refine ⟨_, after, Script.run_of_fault stopped nonempty time, ?_, ?_⟩
    · refine iff_of_false (fun complete => complete aborted) ?_
      intro kept
      obtain ⟨texts, last, final, ran⟩ := law.ran_of_kept fitting start kept state
      simp [ran.runBlocks_eq] at stopped
    · exact fun complete => False.elim (complete aborted)

end Progress

end MissionScript
