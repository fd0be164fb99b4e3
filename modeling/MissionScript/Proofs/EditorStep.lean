import Mathlib.Data.List.InsertIdx
import Mathlib.Data.List.Nodup
import MissionScript.Script

namespace MissionScript.Script

def ids (script : Script) : List String := script.blocks.map (·.id)

/-- The first block with an identifier, between the blocks that stand around it. -/
structure Holds (script : Script) (id : String) (before : List Block) (block : Block)
    (after : List Block) : Prop where
  split : script.blocks = before ++ block :: after
  named : block.id = id
  first : ∀ other ∈ before, other.id ≠ id

variable {script : Script} {id : String} {before after : List Block} {block : Block}

theorem absent_or_holds (script : Script) (id : String) :
    id ∉ script.ids ∨ ∃ before block after, script.Holds id before block after := by
  cases found : script.blocks.find? (·.id = id) with
  | none =>
    refine .inl fun present => ?_
    obtain ⟨block, member, named⟩ := List.mem_map.mp present
    exact List.find?_eq_none.mp found block member (decide_eq_true named)
  | some block =>
    obtain ⟨named, before, after, split, first⟩ := List.find?_eq_some_iff_append.mp found
    exact .inr ⟨before, block, after, split, of_decide_eq_true named, by simpa using first⟩

theorem place?_of_absent (absent : id ∉ script.ids) : script.place? id = none := by
  rw [place?, List.findIdx?_eq_none_iff]
  intro block member
  exact decide_eq_false fun named => absent (List.mem_map.mpr ⟨block, member, named⟩)

theorem remove_of_absent (absent : id ∉ script.ids) : script.remove id = (none, script) := by
  rw [remove, place?_of_absent absent]

theorem setArgument_of_absent (absent : id ∉ script.ids) (place : Nat) (value : Argument) :
    script.setArgument id place value = .refused (.blockMissing id) script := by
  unfold setArgument
  rw [place?_of_absent absent]
  cases script.blocks.find? (·.id = id) <;> rfl

theorem Holds.place?_eq (holds : script.Holds id before block after) :
    script.place? id = some before.length := by
  have none : before.findIdx? (·.id = id) = none :=
    List.findIdx?_eq_none_iff.mpr fun other member => decide_eq_false (holds.first other member)
  simp [place?, holds.split, List.findIdx?_append, List.findIdx?_cons, none, holds.named]

theorem Holds.remove_eq (holds : script.Holds id before block after) :
    script.remove id = (some block, ⟨before ++ after⟩) := by
  rw [remove, holds.place?_eq]
  simp [holds.split, List.eraseIdx_append_of_length_le]

theorem Holds.setArgument_eq (holds : script.Holds id before block after) (place : Nat)
    (value : Argument) : script.setArgument id place value =
      match putArgument block.arguments place value with
      | none => .refused (.argumentGap place id) script
      | some arguments => .done () ⟨before ++ { block with arguments } :: after⟩ := by
  have found : script.blocks.find? (·.id = id) = some block :=
    List.find?_eq_some_iff_append.mpr ⟨decide_eq_true holds.named, before, after, holds.split,
      by simpa using holds.first⟩
  unfold setArgument
  rw [found, holds.place?_eq]
  dsimp only
  cases putArgument block.arguments place value with
  | none => rfl
  | some arguments => simp [holds.split]

/-- What a block does with a place of its arguments: one that it has is replaced, the one behind the
last is filled, and any other is refused. -/
theorem Holds.setArgument_cases (holds : script.Holds id before block after) (place : Nat)
    (value : Argument) :
    place < block.arguments.length ∧ script.setArgument id place value =
        .done () ⟨before ++ { block with arguments := block.arguments.set place value } :: after⟩ ∨
      place = block.arguments.length ∧ script.setArgument id place value =
        .done () ⟨before ++ { block with arguments := block.arguments ++ [value] } :: after⟩ ∨
      block.arguments.length < place ∧
        script.setArgument id place value = .refused (.argumentGap place id) script := by
  rw [holds.setArgument_eq]
  unfold putArgument
  rcases Nat.lt_trichotomy place block.arguments.length with inside | last | gap
  · exact .inl ⟨inside, by rw [if_pos inside]⟩
  · exact .inr (.inl ⟨last, by rw [if_neg (Nat.not_lt_of_ge (Nat.le_of_eq last.symm)), if_pos last]⟩)
  · exact .inr (.inr ⟨gap, by rw [if_neg (Nat.lt_asymm gap), if_neg (Nat.ne_of_gt gap)]⟩)

theorem place?_lt (found : script.place? id = some place) : place < script.blocks.length := by
  rcases script.absent_or_holds id with absent | ⟨before, block, after, holds⟩
  · rw [place?_of_absent absent] at found
    cases found
  · obtain rfl := Option.some.inj (holds.place?_eq.symm.trans found)
    simp [holds.split]

theorem Holds.target_le (holds : script.Holds dragged before block after)
    (found : script.place? target = some place) : place ≤ (before ++ after).length := by
  have inside := place?_lt found
  rw [holds.split] at inside
  simp only [List.length_append, List.length_cons] at inside ⊢
  omega

theorem reorder_perm (script : Script) (dragged target : String) :
    (script.reorder dragged target).blocks.Perm script.blocks := by
  unfold reorder
  split
  · exact .refl _
  rcases script.absent_or_holds dragged with absent | ⟨before, block, after, holds⟩
  · rw [remove_of_absent absent]
  · rw [holds.remove_eq]
    cases found : script.place? target with
    | none => exact .refl _
    | some place =>
      rw [holds.split]
      exact (List.perm_insertIdx block _ (holds.target_le found)).trans List.perm_middle.symm

/-- Under distinct identifiers the others are all others. -/
theorem Holds.others (holds : script.Holds id before block after) (distinct : script.ids.Nodup) :
    (∀ other ∈ before, other.id ≠ id) ∧ ∀ other ∈ after, other.id ≠ id := by
  refine ⟨holds.first, fun other member same => ?_⟩
  rw [ids, holds.split, List.map_append, List.map_cons] at distinct
  have fresh := (List.nodup_cons.mp (List.nodup_append.mp distinct).2.1).1
  exact fresh (List.mem_map.mpr ⟨other, member, same.trans holds.named.symm⟩)

theorem remove_blocks (distinct : script.ids.Nodup) (id : String) :
    (script.remove id).2.blocks = script.blocks.filter (·.id ≠ id) := by
  rcases script.absent_or_holds id with absent | ⟨before, block, after, holds⟩
  · rw [remove_of_absent absent, eq_comm, List.filter_eq_self]
    intro block member
    exact decide_eq_true fun named => absent (List.mem_map.mpr ⟨block, member, named⟩)
  · obtain ⟨first, rest⟩ := holds.others distinct
    have kept {part : List Block} (others : ∀ other ∈ part, other.id ≠ id) :
        part.filter (·.id ≠ id) = part :=
      List.filter_eq_self.mpr fun other member => decide_eq_true (others other member)
    rw [holds.remove_eq, holds.split, List.filter_append, List.filter_cons, kept first, kept rest]
    simp [holds.named]

theorem mem_of_mem_remove (member : block ∈ (script.remove id).2.blocks) :
    block ∈ script.blocks := by
  unfold remove at member
  split at member
  · exact member
  · exact List.mem_of_mem_eraseIdx member

theorem mem_of_mem_setArgument
    (member : block ∈ (script.setArgument id place value).state.blocks) :
    ∃ earlier ∈ script.blocks, ∃ arguments, block = { earlier with arguments } := by
  have kept {other : Block} (own : other ∈ script.blocks) :
      ∃ earlier ∈ script.blocks, ∃ arguments, other = { earlier with arguments } :=
    ⟨other, own, other.arguments, rfl⟩
  unfold setArgument at member
  split at member
  · rename_i changed blockPlace found placed
    split at member
    · exact kept member
    · rename_i arguments put
      rcases List.mem_or_eq_of_mem_set member with old | rfl
      · exact kept old
      · exact ⟨changed, List.mem_of_find?_eq_some found, arguments, rfl⟩
  · exact kept member

end MissionScript.Script
