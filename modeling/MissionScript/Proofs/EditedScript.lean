import MissionScript.Proofs.EditorStep

/-! Scripts that are changed by the editor. No change loses, doubles or alters a block beyond its
arguments: what stands in a script is what was pushed, was not removed since, and has the arguments
that were set since. -/
namespace MissionScript

namespace Script

/-- A change of the editor. -/
inductive Edit
  | push (block : Block)
  | remove (id : String)
  | reorder (dragged target : String)
  | setArgument (id : String) (place : Nat) (value : Argument)
  | clear
  deriving DecidableEq, Repr

/-- The script after a change. -/
def edit (script : Script) : Edit → Script
  | .push block => script.push block
  | .remove id => (script.remove id).2
  | .reorder dragged target => script.reorder dragged target
  | .setArgument id place value => (script.setArgument id place value).state
  | .clear => .empty

/-- The scripts that changes make from an empty one. A block is pushed under an identifier that is
free by then; all other changes may name any identifier and any place. -/
inductive Edited : List Edit → Script → Prop
  | empty : Edited [] .empty
  | after (earlier : Edited edits script) (edit : Edit)
      (free : ∀ block, edit = .push block → block.id ∉ script.ids) :
      Edited (edits ++ [edit]) (script.edit edit)

end Script

/-- What a change makes of a block that stays. -/
def Block.edited (block : Block) : Script.Edit → Block
  | .setArgument id place value =>
    if block.id = id then
      { block with
        arguments := (Script.putArgument block.arguments place value).getD block.arguments }
    else block
  | _ => block

@[simp] private theorem Block.edited_id (block : Block) (edit : Script.Edit) :
    (block.edited edit).id = block.id := by
  unfold edited
  split
  · split <;> rfl
  · rfl

private theorem Block.edited_eq (block : Block) (edit : Script.Edit) :
    ∃ arguments, block.edited edit = { block with arguments } := by
  unfold edited
  split
  · split
    · exact ⟨_, rfl⟩
    · exact ⟨block.arguments, rfl⟩
  · exact ⟨block.arguments, rfl⟩

private theorem Block.foldl_edited_eq (block : Block) (edits : List Script.Edit) :
    ∃ arguments, edits.foldl Block.edited block = { block with arguments } := by
  induction edits generalizing block with
  | nil => exact ⟨block.arguments, rfl⟩
  | cons edit edits ih =>
    obtain ⟨first, own⟩ := block.edited_eq edit
    obtain ⟨arguments, rest⟩ := ih (block.edited edit)
    refine ⟨arguments, ?_⟩
    rw [List.foldl_cons, rest, own]

private theorem Block.foldl_edited_id (block : Block) (edits : List Script.Edit) :
    (edits.foldl Block.edited block).id = block.id := by
  obtain ⟨arguments, same⟩ := block.foldl_edited_eq edits
  rw [same]

namespace Script

variable {script : Script} {id : String}

/-- Under distinct identifiers an argument is set in the block with the identifier and in no other. -/
theorem setArgument_blocks (distinct : script.ids.Nodup) (id : String) (place : Nat)
    (value : Argument) : (script.setArgument id place value).state.blocks =
      script.blocks.map (·.edited (.setArgument id place value)) := by
  have kept {part : List Block} (others : ∀ other ∈ part, other.id ≠ id) :
      part.map (·.edited (.setArgument id place value)) = part := by
    refine (List.map_congr_left fun other member => ?_).trans part.map_id
    exact if_neg (others other member)
  rcases script.absent_or_holds id with absent | ⟨before, block, after, holds⟩
  · rw [setArgument_of_absent absent]
    exact (kept fun other member named => absent (List.mem_map.mpr ⟨other, member, named⟩)).symm
  · obtain ⟨first, rest⟩ := holds.others distinct
    have own : block.edited (.setArgument id place value) = { block with
        arguments := (putArgument block.arguments place value).getD block.arguments } :=
      if_pos holds.named
    rw [holds.setArgument_eq, holds.split, List.map_append, List.map_cons, kept first, kept rest, own]
    cases putArgument block.arguments place value with
    | none => exact holds.split
    | some arguments => rfl

private theorem ids_edit_nodup (distinct : script.ids.Nodup) (edit : Edit)
    (free : ∀ block, edit = .push block → block.id ∉ script.ids) :
    (script.edit edit).ids.Nodup := by
  cases edit with
  | push block =>
    rw [Script.edit, push, ids, List.map_append]
    refine List.nodup_append.mpr ⟨distinct, List.nodup_singleton _, ?_⟩
    rintro old member _ (_ | ⟨_, ⟨⟩⟩) rfl
    exact free block rfl member
  | remove id =>
    rw [Script.edit, ids, remove_blocks distinct]
    exact distinct.sublist (List.filter_sublist.map _)
  | reorder dragged target =>
    exact ((script.reorder_perm dragged target).map _).nodup_iff.mpr distinct
  | setArgument id place value =>
    have same : (script.setArgument id place value).state.ids = script.ids := by
      simp [ids, setArgument_blocks distinct, Function.comp_def]
    exact same ▸ distinct
  | clear => exact List.nodup_nil

private theorem mem_edit_iff (distinct : script.ids.Nodup) (edit : Edit) (block : Block) :
    block ∈ (script.edit edit).blocks ↔ edit = .push block ∨
      ∃ old ∈ script.blocks, edit ≠ .clear ∧ edit ≠ .remove old.id ∧ block = old.edited edit := by
  cases edit with
  | push pushed => simp [Script.edit, push, Block.edited, or_comm, eq_comm]
  | remove id =>
    rw [Script.edit, remove_blocks distinct, List.mem_filter]
    constructor
    · rintro ⟨member, other⟩
      refine .inr ⟨block, member, nofun, fun same => ?_, rfl⟩
      exact of_decide_eq_true other (Edit.remove.inj same).symm
    · rintro (pushed | ⟨old, member, _, other, rfl⟩)
      · cases pushed
      · exact ⟨member, decide_eq_true fun same => other (congrArg Edit.remove same.symm)⟩
  | reorder dragged target =>
    rw [Script.edit, (script.reorder_perm dragged target).mem_iff]
    simp [Block.edited]
  | setArgument id place value =>
    rw [Script.edit, setArgument_blocks distinct]
    simp [eq_comm]
  | clear => simp [Script.edit, Script.empty]

theorem Edited.distinct (edited : Edited edits script) : script.ids.Nodup := by
  induction edited with
  | empty => exact List.nodup_nil
  | after earlier edit free ih => exact ids_edit_nodup ih edit free

/-- The block was pushed, and none of the changes since then has taken it out. -/
structure Standing (edits : List Edit) (pushed : Block) (since : List Edit) : Prop where
  made : ∃ earlier, edits = earlier ++ .push pushed :: since
  uncleared : .clear ∉ since
  unremoved : .remove pushed.id ∉ since

private theorem standing_concat_iff (edits : List Edit) (edit : Edit) (pushed : Block)
    (since : List Edit) :
    Standing (edits ++ [edit]) pushed since ↔ since = [] ∧ edit = .push pushed ∨
      ∃ before, since = before ++ [edit] ∧ Standing edits pushed before ∧ edit ≠ .clear ∧
        edit ≠ .remove pushed.id := by
  constructor
  · rintro ⟨⟨earlier, split⟩, uncleared, unremoved⟩
    rcases List.eq_nil_or_concat since with rfl | ⟨before, last, rfl⟩
    · exact .inl ⟨rfl, (List.append_inj' split rfl).2 |> List.singleton_inj.mp⟩
    · rw [List.concat_eq_append] at split uncleared unremoved ⊢
      rw [← List.cons_append, ← List.append_assoc] at split
      obtain ⟨rfl, same⟩ := List.append_inj' split rfl
      obtain rfl := List.singleton_inj.mp same
      simp only [List.mem_append, List.mem_singleton, not_or] at uncleared unremoved
      exact .inr ⟨before, rfl, ⟨⟨earlier, rfl⟩, uncleared.1, unremoved.1⟩, Ne.symm uncleared.2,
        Ne.symm unremoved.2⟩
  · rintro (⟨rfl, rfl⟩ | ⟨before, rfl, ⟨⟨earlier, rfl⟩, uncleared, unremoved⟩, keeps, spares⟩)
    · exact ⟨⟨edits, rfl⟩, List.not_mem_nil, List.not_mem_nil⟩
    · refine ⟨⟨earlier, by simp⟩, ?_, ?_⟩
      · simp [uncleared, keeps.symm]
      · simp [unremoved, spares.symm]

/-- In a script stand the blocks that were pushed and not taken out since, with the arguments that
were set since. -/
theorem Edited.mem_iff (edited : Edited edits script) (block : Block) :
    block ∈ script.blocks ↔
      ∃ pushed since, Standing edits pushed since ∧ block = since.foldl Block.edited pushed := by
  induction edited generalizing block with
  | empty =>
    refine iff_of_false List.not_mem_nil ?_
    rintro ⟨pushed, since, ⟨⟨earlier, split⟩, _, _⟩, _⟩
    simp at split
  | @after edits script earlier edit free ih =>
    rw [mem_edit_iff earlier.distinct]
    constructor
    · rintro (rfl | ⟨old, member, keeps, spares, rfl⟩)
      · exact ⟨block, [], (standing_concat_iff ..).mpr (.inl ⟨rfl, rfl⟩), rfl⟩
      · obtain ⟨pushed, since, standing, rfl⟩ := (ih old).mp member
        rw [Block.foldl_edited_id] at spares
        refine ⟨pushed, since ++ [edit], ?_, by rw [List.foldl_append]; rfl⟩
        exact (standing_concat_iff ..).mpr (.inr ⟨since, rfl, standing, keeps, spares⟩)
    · rintro ⟨pushed, since, standing, rfl⟩
      rcases (standing_concat_iff ..).mp standing with
        ⟨rfl, rfl⟩ | ⟨before, rfl, standing, keeps, spares⟩
      · exact .inl rfl
      · refine .inr ⟨_, (ih _).mpr ⟨pushed, before, standing, rfl⟩, keeps, ?_, ?_⟩
        · rwa [Block.foldl_edited_id]
        · rw [List.foldl_append]
          rfl

/-- A block that stands has the identifier under which it was pushed, and no other block has it. -/
theorem Edited.mem_ids_iff (edited : Edited edits script) (id : String) :
    id ∈ script.ids ↔ ∃ pushed since, Standing edits pushed since ∧ pushed.id = id := by
  rw [ids, List.mem_map]
  constructor
  · rintro ⟨block, member, rfl⟩
    obtain ⟨pushed, since, standing, rfl⟩ := (edited.mem_iff block).mp member
    exact ⟨pushed, since, standing, (Block.foldl_edited_id ..).symm⟩
  · rintro ⟨pushed, since, standing, rfl⟩
    exact ⟨_, (edited.mem_iff _).mpr ⟨pushed, since, standing, rfl⟩, Block.foldl_edited_id ..⟩

/-- Editing keeps the identifiers distinct. An identifier is present exactly if it was pushed and not
taken out since, and its block is the one that was pushed then, with the arguments that were set
since. A removal answers the block that it takes out and keeps the others in their order; setting an
argument reaches one place of one block or changes nothing; moving keeps all blocks. Every place
that a change goes by lies inside of the list where it takes out or puts in. -/
theorem edited_keeps_blocks (edited : Edited edits script) :
    script.ids.Nodup ∧
    (∀ id, id ∈ script.ids ↔ ∃ pushed since, Standing edits pushed since ∧ pushed.id = id) ∧
    (∀ block ∈ script.blocks, ∃ pushed since, Standing edits pushed since ∧
      block = since.foldl Block.edited pushed ∧ ∃ arguments, block = { pushed with arguments }) ∧
    (∀ id, id ∉ script.ids ∧ script.remove id = (none, script) ∨
      ∃ before block after, script.Holds id before block after ∧
        script.remove id = (some block, ⟨before ++ after⟩)) ∧
    (∀ id place value,
      id ∉ script.ids ∧ script.setArgument id place value = .refused (.blockMissing id) script ∨
      ∃ before block after, script.Holds id before block after ∧
        (place < block.arguments.length ∧ script.setArgument id place value = .done ()
            ⟨before ++ { block with arguments := block.arguments.set place value } :: after⟩ ∨
          place = block.arguments.length ∧ script.setArgument id place value = .done ()
            ⟨before ++ { block with arguments := block.arguments ++ [value] } :: after⟩ ∨
          block.arguments.length < place ∧
            script.setArgument id place value = .refused (.argumentGap place id) script)) ∧
    (∀ dragged target, (script.reorder dragged target).blocks.Perm script.blocks) ∧
    (∀ id place, script.place? id = some place → place < script.blocks.length) ∧
    ∀ dragged target place, dragged ∈ script.ids → script.place? target = some place →
      place ≤ (script.remove dragged).2.blocks.length := by
  refine ⟨edited.distinct, edited.mem_ids_iff, ?_, ?_, ?_, script.reorder_perm,
    fun id place => place?_lt, ?_⟩
  · intro block member
    obtain ⟨pushed, since, standing, rfl⟩ := (edited.mem_iff block).mp member
    exact ⟨pushed, since, standing, rfl, pushed.foldl_edited_eq since⟩
  · intro id
    rcases script.absent_or_holds id with absent | ⟨before, block, after, holds⟩
    · exact .inl ⟨absent, remove_of_absent absent⟩
    · exact .inr ⟨before, block, after, holds, holds.remove_eq⟩
  · intro id place value
    rcases script.absent_or_holds id with absent | ⟨before, block, after, holds⟩
    · exact .inl ⟨absent, setArgument_of_absent absent place value⟩
    · exact .inr ⟨before, block, after, holds, holds.setArgument_cases place value⟩
  · intro dragged target place present found
    rcases script.absent_or_holds dragged with absent | ⟨before, block, after, holds⟩
    · exact absurd present absent
    · rw [holds.remove_eq]
      exact holds.target_le found

/-- A block that is removed and pushed again stands as it was pushed the second time, while the other
one has moved and has the argument that was set. -/
theorem edited_keeps_blocks_again :
    ∃ script, Edited
        [.push { Block.bare .inputNumber [.text "1"] with id := "a" },
          .push { Block.bare .add [] with id := "b" }, .reorder "a" "b",
          .setArgument "a" 0 (.text "x"), .setArgument "b" 3 (.text "y"), .remove "b",
          .push { Block.bare .divide [.text "5"] with id := "b" }, .remove "c"] script ∧
      script.blocks = [{ Block.bare .inputNumber [.text "x"] with id := "a" },
        { Block.bare .divide [.text "5"] with id := "b" }] ∧
      (∃ pushed since, Standing
        [.push { Block.bare .inputNumber [.text "1"] with id := "a" },
          .push { Block.bare .add [] with id := "b" }, .reorder "a" "b",
          .setArgument "a" 0 (.text "x"), .setArgument "b" 3 (.text "y"), .remove "b",
          .push { Block.bare .divide [.text "5"] with id := "b" }, .remove "c"] pushed since ∧
        pushed.id = "b") ∧
      script.ids.Nodup := by
  have first : Edited _ _ := Edited.empty.after
    (.push { Block.bare .inputNumber [.text "1"] with id := "a" }) (by rintro _ ⟨⟩; decide)
  have second := first.after (.push { Block.bare .add [] with id := "b" }) (by rintro _ ⟨⟩; decide)
  have moved := second.after (.reorder "a" "b") (by rintro _ ⟨⟩)
  have set := (moved.after (.setArgument "a" 0 (.text "x")) (by rintro _ ⟨⟩)).after
    (.setArgument "b" 3 (.text "y")) (by rintro _ ⟨⟩)
  have removed := set.after (.remove "b") (by rintro _ ⟨⟩)
  have last := (removed.after (.push { Block.bare .divide [.text "5"] with id := "b" })
    (by rintro _ ⟨⟩; decide)).after (.remove "c") (by rintro _ ⟨⟩)
  obtain ⟨distinct, present, _⟩ := edited_keeps_blocks last
  exact ⟨_, last, by decide, (present "b").mp (by decide), distinct⟩

end Script

end MissionScript
