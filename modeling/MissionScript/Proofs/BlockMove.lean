import MissionScript.Proofs.EditorStep

namespace MissionScript

private theorem getElem?_move_of_outside {Entry : Type} {entries : List Entry} {entry : Entry}
    {origin goal place : Nat} (outside : place < min origin goal ∨ max origin goal < place) :
    ((entries.eraseIdx origin).insertIdx goal entry)[place]? = entries[place]? := by
  rcases outside with below | above
  · rw [List.getElem?_insertIdx_of_lt (by omega), List.getElem?_eraseIdx_of_lt (by omega)]
  · rw [List.getElem?_insertIdx_of_gt (by omega), List.getElem?_eraseIdx_of_ge (by omega),
      Nat.sub_add_cancel (by omega)]

namespace Script

variable {script : Script} {id dragged target : String}

private theorem Holds.idxOf_eq (holds : script.Holds id before block after) :
    script.ids.idxOf id = before.length := by
  have fresh : id ∉ before.map (·.id) := by
    intro member
    obtain ⟨other, inside, named⟩ := List.mem_map.mp member
    exact holds.first other inside named
  rw [ids, holds.split, List.map_append, List.map_cons, List.idxOf_append_of_notMem fresh, holds.named,
    List.idxOf_cons_self, List.length_map, Nat.add_zero]

private theorem place?_eq (present : id ∈ script.ids) :
    script.place? id = some (script.ids.idxOf id) := by
  rcases script.absent_or_holds id with absent | ⟨before, block, after, holds⟩
  · exact absurd present absent
  · rw [holds.place?_eq, holds.idxOf_eq]

/-- A move takes the dragged block out of its place and puts it in at the one of its target. -/
theorem reorder_eq (apart : dragged ≠ target) (present : dragged ∈ script.ids)
    (aimed : target ∈ script.ids) :
    ∃ block, script.blocks[script.ids.idxOf dragged]? = some block ∧ block.id = dragged ∧
      script.reorder dragged target =
        ⟨(script.blocks.eraseIdx (script.ids.idxOf dragged)).insertIdx (script.ids.idxOf target) block⟩ := by
  rcases script.absent_or_holds dragged with absent | ⟨before, block, after, holds⟩
  · exact absurd present absent
  have found : script.blocks[script.ids.idxOf dragged]? = some block := by
    rw [holds.idxOf_eq, holds.split]
    simp
  refine ⟨block, found, holds.named, ?_⟩
  unfold reorder remove
  rw [if_neg apart, place?_eq present, place?_eq aimed]
  dsimp only
  rw [found]

private theorem reorder_of_still
    (still : dragged = target ∨ dragged ∉ script.ids ∨ target ∉ script.ids) :
    script.reorder dragged target = script := by
  unfold reorder
  rcases still with same | absent | absent
  · rw [if_pos same]
  · rw [remove_of_absent absent]
    split <;> rfl
  · rw [place?_of_absent absent]
    split
    · rfl
    · rcases script.remove dragged with ⟨_ | _, _⟩ <;> rfl

private theorem idxOf_of_getElem? (distinct : script.ids.Nodup)
    (found : script.blocks[place]? = some block) :
    script.ids.idxOf block.id = place := by
  obtain ⟨inside, rfl⟩ := List.getElem?_eq_some_iff.mp found
  have within : place < script.ids.length := by simpa [ids] using inside
  have own : script.ids[place] = script.blocks[place].id := List.getElem_map ..
  rw [← own, distinct.idxOf_getElem]

private theorem reorder_place (aimed : target ∈ script.ids)
    (moved : script.reorder dragged target =
      ⟨(script.blocks.eraseIdx origin).insertIdx (script.ids.idxOf target) block⟩) :
    (script.reorder dragged target).blocks[script.ids.idxOf target]? = some block := by
  have inside : script.ids.idxOf target < script.blocks.length := by
    simpa [ids] using List.idxOf_lt_length_iff.mpr aimed
  have fits : script.ids.idxOf target ≤ (script.blocks.eraseIdx origin).length := by
    rw [List.length_eraseIdx]
    split <;> omega
  rw [moved, List.getElem?_insertIdx_self, if_pos fits]

/-- Under distinct identifiers a move is undone by dragging the block onto the one that stands, since
then, where it came from. -/
theorem reorder_back (distinct : script.ids.Nodup) (apart : dragged ≠ target)
    (present : dragged ∈ script.ids) (aimed : target ∈ script.ids) :
    ∃ other, (script.reorder dragged target).blocks[script.ids.idxOf dragged]? = some other ∧
      (script.reorder dragged target).reorder dragged other.id = script := by
  obtain ⟨block, found, rfl, moved⟩ := reorder_eq apart present aimed
  obtain ⟨inside, own⟩ := List.getElem?_eq_some_iff.mp found
  have placed := reorder_place aimed moved
  have perm := script.reorder_perm block.id target
  have names : (script.reorder block.id target).ids.Perm script.ids := perm.map Block.id
  have kept := names.nodup_iff.mpr distinct
  obtain ⟨other, there⟩ : ∃ other,
      (script.reorder block.id target).blocks[script.ids.idxOf block.id]? = some other :=
    ⟨_, List.getElem?_eq_getElem (perm.length_eq ▸ inside)⟩
  -- The identifiers tell the two places of the move apart, and so its two blocks.
  have goal := idxOf_of_getElem? kept placed
  have origin := idxOf_of_getElem? kept there
  have different : block.id ≠ other.id := by
    intro same
    rw [← same, goal] at origin
    exact apart ((List.idxOf_inj present).mp origin.symm)
  have entered : other.id ∈ (script.reorder block.id target).ids :=
    List.mem_map_of_mem (List.mem_of_getElem? there)
  obtain ⟨again, taken, _, back⟩ := reorder_eq different (names.mem_iff.mpr present) entered
  rw [goal, placed] at taken
  cases taken
  have whole := List.insertIdx_eraseIdx_getElem inside
  rw [own] at whole
  refine ⟨other, there, ?_⟩
  rw [back, goal, origin, moved, List.eraseIdx_insertIdx_self, whole]

/-- What a move does. Without two different blocks nothing changes. Otherwise the blocks stay the same
ones: the dragged block comes to stand where its target stood, the others keep their order, and
nothing stirs outside of the way between. Under distinct identifiers the way back is a move too. -/
theorem reorder_moves (script : Script) (dragged target : String) :
    let origin := script.ids.idxOf dragged
    let goal := script.ids.idxOf target
    let moved := script.reorder dragged target
    (dragged = target ∨ dragged ∉ script.ids ∨ target ∉ script.ids → moved = script) ∧
    (dragged ≠ target → dragged ∈ script.ids → target ∈ script.ids →
      ∃ block, script.blocks[origin]? = some block ∧ block.id = dragged ∧
        moved.blocks.Perm script.blocks ∧ moved.blocks[goal]? = some block ∧
        moved.blocks.eraseIdx goal = script.blocks.eraseIdx origin ∧
        (∀ place, place < min origin goal ∨ max origin goal < place →
          moved.blocks[place]? = script.blocks[place]?) ∧
        (script.ids.Nodup → ∃ other, moved.blocks[origin]? = some other ∧
          moved.reorder dragged other.id = script)) := by
  intro origin goal moved
  refine ⟨reorder_of_still, fun apart present aimed => ?_⟩
  obtain ⟨block, found, named, reordered⟩ := reorder_eq apart present aimed
  refine ⟨block, found, named, script.reorder_perm dragged target, reorder_place aimed reordered, ?_, ?_,
    fun distinct => reorder_back distinct apart present aimed⟩
  · rw [show moved = _ from reordered, List.eraseIdx_insertIdx_self]
  · intro place outside
    rw [show moved = _ from reordered, getElem?_move_of_outside outside]

/-- One of two blocks with an identifier is dragged down, and a block of another script goes up and
down again. -/
theorem reorder_moves_duplicate :
    let named (id : String) (command : Command) : Block := { Block.bare command [] with id }
    let twice : Script := ⟨[named "a" .add, named "b" .add, named "a" .divide, named "c" .add]⟩
    let once : Script := ⟨[named "a" .add, named "b" .add, named "c" .add]⟩
    (twice.reorder "a" "c").blocks[3]? = some (named "a" .add) ∧
      (twice.reorder "a" "c").blocks.eraseIdx 3 = twice.blocks.eraseIdx 0 ∧
      twice.reorder "a" "d" = twice ∧
      (once.reorder "c" "a").blocks = [named "c" .add, named "a" .add, named "b" .add] ∧
      (once.reorder "c" "a").reorder "c" "b" = once := by
  intro named twice once
  obtain ⟨block, found, _, _, placed, others, _⟩ :=
    (reorder_moves twice "a" "c").2 (by decide) (by decide) (by decide)
  obtain rfl : named "a" .add = block := Option.some.inj found
  have still := (reorder_moves twice "a" "d").1 (by decide)
  obtain ⟨_, _, _, _, _, _, _, back⟩ :=
    (reorder_moves once "c" "a").2 (by decide) (by decide) (by decide)
  obtain ⟨other, there, restored⟩ := back (by decide)
  obtain rfl : named "b" .add = other := Option.some.inj there
  exact ⟨placed, others, still, rfl, restored⟩

end Script

end MissionScript
