import MissionScript.Palette
import MissionScript.Proofs.Course
import MissionScript.Proofs.EditorStep
import MissionScript.Proofs.FaultCause

/-! Scripts that the editor builds from the palette of a stage. Every block of the palette is in its
place there, and no change of the editor takes a block out of it; so such a script is never refused
as a whole, and every other stage refuses it at its first block. -/
namespace MissionScript

private theorem Stage.domain?_inj {stage other : Stage} (same : stage.domain? = other.domain?) :
    stage = other := by
  revert same
  cases stage <;> cases other <;> decide

private theorem Stage.domain?_ne_utility (stage : Stage) : stage.domain? ≠ some .utility := by
  cases stage <;> decide

theorem Command.domain_ne_utility (command : Command) : command.domain ≠ .utility := by
  cases command <;> decide

/-- The scripts that the editor can build with the palette of a stage. -/
inductive Script.Composed (stage : Stage) : Script → Prop where
  | empty : Composed stage .empty
  | push (earlier : Composed stage script) (command : Command) (id : String)
      (made : Template.instantiate stage command script id = .ok block) :
      Composed stage (script.push block)
  | remove (earlier : Composed stage script) (id : String) : Composed stage (script.remove id).2
  | reorder (earlier : Composed stage script) (dragged target : String) :
      Composed stage (script.reorder dragged target)
  | setArgument (earlier : Composed stage script) (id : String) (place : Nat) (value : Argument) :
      Composed stage (script.setArgument id place value).state
  | clear (earlier : Composed stage script) : Composed stage .empty

variable {block : Block} {command : Command} {id : String} {template : Template}

namespace Template

/-- The palettes follow the domains: a template is shown where its domain is accepted. -/
theorem mem_stages_iff (listed : template ∈ catalogue) (stage : Stage) :
    stage ∈ template.stages ↔ stage.domain? = some template.domain := by
  revert template
  cases stage <;> decide

private theorem exists_template (command : Command) :
    ∃ template ∈ catalogue, template.command = command := by
  cases command <;> decide

private theorem descriptors_length (listed : template ∈ catalogue) :
    template.descriptors.length = template.arguments.length ∧
      (template.descriptors.head? = some carDescriptor → template.descriptors.length = 1) := by
  revert template
  decide +kernel

private theorem initialArguments_length (listed : template ∈ catalogue) (script : Script) :
    (template.initialArguments script).length = template.descriptors.length := by
  obtain ⟨own, offered⟩ := descriptors_length listed
  unfold initialArguments
  split
  · rename_i descriptor name head first
    split
    · rename_i same
      exact (offered (head.trans (congrArg some same))).symm
    · exact own.symm
  · exact own.symm

private theorem template_of_instantiate (made : instantiate stage command script id = .ok block) :
    ∃ template ∈ catalogue, stage ∈ template.stages ∧ template.command = command ∧
      block = template.block id script := by
  unfold instantiate at made
  split at made
  · cases made
  · rename_i template found
    obtain ⟨listed, shown⟩ := List.mem_filter.mp (List.mem_of_find?_eq_some found)
    refine ⟨template, listed, of_decide_eq_true shown, ?_, (Except.ok.inj made).symm⟩
    simpa using List.find?_some found

/-- A stage makes blocks exactly for the commands of its domain. -/
theorem instantiate_isOk_iff (stage : Stage) (command : Command) (script : Script) (id : String) :
    (∃ block, instantiate stage command script id = .ok block) ↔
      stage.domain? = some command.domain := by
  constructor
  · rintro ⟨block, made⟩
    obtain ⟨template, listed, shown, rfl, _⟩ := template_of_instantiate made
    exact (mem_stages_iff listed stage).mp shown
  · intro accepted
    obtain ⟨template, listed, rfl⟩ := exists_template command
    have shown : template ∈ palette stage :=
      List.mem_filter.mpr ⟨listed, decide_eq_true ((mem_stages_iff listed stage).mpr accepted)⟩
    have found : ((palette stage).find? (·.command = template.command)).isSome :=
      List.find?_isSome.mpr ⟨template, shown, decide_eq_true rfl⟩
    obtain ⟨other, found⟩ := Option.isSome_iff_exists.mp found
    exact ⟨other.block id script, by simp only [instantiate, found]⟩

/-- A new block carries its command under the domain of the command, and one argument for each of
its descriptors. -/
theorem block_of_instantiate (made : instantiate stage command script id = .ok block) :
    block.id = id ∧ block.command = command ∧ block.domain = command.domain ∧
      ∃ descriptors, block.descriptors = some descriptors ∧
        block.arguments.length = descriptors.length := by
  obtain ⟨template, listed, _, rfl, rfl⟩ := template_of_instantiate made
  exact ⟨rfl, rfl, rfl, template.descriptors, rfl, initialArguments_length listed script⟩

end Template

namespace Script

/-- Every change of the editor leaves the blocks in their places. -/
theorem Composed.inPlace (composed : Composed stage script) :
    ∀ block ∈ script.blocks, block.InPlace stage := by
  induction composed with
  | empty | clear =>
    intro block member
    cases member
  | push earlier command id made ih =>
    intro block member
    rcases List.mem_append.mp member with old | new
    · exact ih block old
    · obtain rfl := List.mem_singleton.mp new
      obtain ⟨_, rfl, owned, _⟩ := Template.block_of_instantiate made
      have accepted := (Template.instantiate_isOk_iff ..).mp ⟨_, made⟩
      exact ⟨accepted.trans (congrArg some owned.symm), owned.symm⟩
  | remove earlier id ih => exact fun block member => ih block (mem_of_mem_remove member)
  | reorder earlier dragged target ih =>
    exact fun block member => ih block ((Script.reorder_perm ..).mem_iff.mp member)
  | setArgument earlier id place value ih =>
    intro block member
    obtain ⟨old, own, arguments, rfl⟩ := mem_of_mem_setArgument member
    exact ih old own

open Progress

/-- A script from the palette of a stage never meets a mismatch in this stage, and every other stage
refuses it at its first block. The palette makes a block exactly if the stage accepts the domain of
the command; the block declares this domain and has an argument for each of its descriptors. -/
theorem composed_run (stage : Stage) :
    (∀ script, Composed stage script →
      (∀ (State : Type) (source : Chance.Source State) (state : State) place fault,
        FailsAt source stage script.blocks state place fault → fault.isMismatch = false) ∧
      (∀ (State : Type) (source : Chance.Source State) (status : Status) time state report after,
        status.stage = stage → script.blocks ≠ [] →
        script.run source status time state = some (report, after) → report.Aborted →
        ∃ place block fault, script.blocks[place]? = some block ∧
          FailsAt source stage script.blocks state place fault ∧ fault.isMismatch = false ∧
          report.lines.getLast? = some ("[ABORTED] " ++ block.label ++ ": " ++ fault.message)) ∧
      ∀ (State : Type) (source : Chance.Source State) (status : Status) time state first rest,
        status.stage ≠ stage → script.blocks = first :: rest →
        script.run source status time state =
          some (⟨["[ABORTED] " ++ first.label ++ ": " ++
            ("[ERROR] " ++ Named.name first.domain ++ " blocks cannot be used in the " ++
            Named.name status.stage ++ " mission.")], status.afterFault, time⟩, state)) ∧
    ∀ command script id,
      ((∃ block, Template.instantiate stage command script id = .ok block) ↔
        stage.domain? = some command.domain) ∧
      ∀ block, Template.instantiate stage command script id = .ok block →
        block.command = command ∧ block.domain = command.domain ∧
          ∃ descriptors, block.descriptors = some descriptors ∧
            block.arguments.length = descriptors.length := by
  refine ⟨fun script composed => ?_, fun command script id => ⟨?_, fun block made => ?_⟩⟩
  · have matched {State : Type} {source : Chance.Source State} {state place fault}
        (fails : FailsAt source stage script.blocks state place fault) :
        fault.isMismatch = false := by
      obtain ⟨block, _, _, _, found, _, _, rejected⟩ := fails.split
      exact rejected.cause.isMismatch_eq_false
        (composed.inPlace block (List.mem_of_getElem? found))
    refine ⟨fun _ _ _ _ _ => matched, ?_, ?_⟩
    · rintro State source status time state report after rfl nonempty ran aborted
      obtain ⟨place, block, fault, found, fails, last⟩ := failsAt_of_aborted nonempty ran aborted
      exact ⟨place, block, fault, found, fails, matched fails, last⟩
    · intro State source status time state first rest other split
      obtain ⟨blocks⟩ := script
      obtain rfl : blocks = first :: rest := split
      obtain ⟨accepted, _⟩ := composed.inPlace first (List.mem_cons_self ..)
      have declared : first.domain ≠ .utility := by
        intro utility
        exact stage.domain?_ne_utility (accepted.trans (congrArg some utility))
      have foreign : status.stage.domain? ≠ some first.domain := by
        intro same
        exact other (Stage.domain?_inj (same.trans accepted.symm))
      exact run_of_rejected .nil (.stage declared foreign) rest time
  · exact Template.instantiate_isOk_iff stage command script id
  · exact (Template.block_of_instantiate made).2

/-- An event that is dragged before the registration of its car ends the run there, as it should,
and in another mission the event is refused for its domain. -/
theorem composed_run_dragged :
    ∃ register boost, Template.instantiate .racing .selectCar .empty "a" = .ok register ∧
      Template.instantiate .racing .boost (Script.empty.push register) "b" = .ok boost ∧
      boost.domain = .racing ∧
      let script := ((Script.empty.push register).push boost).reorder "b" "a"
      (∃ fault, FailsAt Chance.least .racing script.blocks () 0 fault ∧
        fault = .carNotFound "pobi" ∧ fault.isMismatch = false) ∧
      script.run Chance.least ⟨.lotto, true, ""⟩ ⟨0, 0⟩ () = some (⟨["[ABORTED] Boost event: " ++
          "[ERROR] racing blocks cannot be used in the LOTTO mission."],
        ⟨.lotto, false, Status.failureMessage⟩, ⟨0, 0⟩⟩, ()) := by
  refine ⟨_, _, rfl, rfl, ?_, ?_⟩
  · exact ((composed_run .racing).2 .boost _ "b").2 _ rfl |>.2.1
  intro script
  have composed : Composed .racing script :=
    .reorder (.push (.push .empty .selectCar "a" rfl) .boost "b" rfl) "b" "a"
  have fails : FailsAt Chance.least .racing script.blocks () 0 (.carNotFound "pobi") :=
    failsAt_of_rejected .nil (.racing rfl ⟨rfl, rfl⟩ (.event rfl (by decide))) _
  obtain ⟨matched, _, elsewhere⟩ := (composed_run .racing).1 script composed
  refine ⟨⟨_, fails, rfl, matched _ _ _ _ _ fails⟩, ?_⟩
  rw [elsewhere Unit Chance.least ⟨.lotto, true, ""⟩ ⟨0, 0⟩ () _ _ (by decide) rfl]
  decide +kernel

end Script

end MissionScript
