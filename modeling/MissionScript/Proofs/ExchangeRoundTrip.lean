import MissionScript.Exchange.Reading
import MissionScript.Proofs.ReaderLaws

namespace MissionScript

open Json (Document Reader RecordType)

def Argument.isFinite : Argument → Bool
  | number value => value.isFinite
  | text _ => true

/-- No number argument is infinite or undefined. -/
def Block.IsFinite (block : Block) : Prop := ∀ argument ∈ block.arguments, argument.isFinite = true

def Script.IsFinite (script : Script) : Prop := ∀ block ∈ script.blocks, block.IsFinite

private theorem Argument.reader_toJson (argument : Argument) (depth : Nat) :
    Argument.reader depth argument.toJson.draft =
      if argument.isFinite then .ok argument else .error .mismatch := by
  cases argument with
  | number value =>
    rw [toJson, Json.finite, isFinite]
    split <;> rfl
  | text content => rfl

/-- A written block, field by field. -/
def Block.parts (block : Block) : Block.Parts :=
  ⟨block.id, block.domain, block.command, block.label, block.arguments,
    block.descriptors.map some, block.color.map some⟩

private theorem Block.block?_parts (block : Block) : block.parts.block? = some block := by
  obtain ⟨id, domain, command, label, arguments, descriptors, color⟩ := block
  cases descriptors <;> cases color <;> rfl

theorem Block.reader_toJson {block : Block} {depth : Nat} (finite : block.IsFinite)
    (room : depth + 1 < Json.deepest) : Block.reader depth block.toJson.draft = .ok block := by
  have arguments : Reader.list Argument.reader (depth + 1)
      (Json.array (block.arguments.map Argument.toJson)).draft = .ok block.arguments := by
    refine Reader.list_of room fun argument member => ?_
    rw [argument.reader_toJson, if_pos (finite argument member)]
  have descriptors (values : List String) : Reader.optional (Reader.list Reader.string) (depth + 1)
      (Json.strings values).draft = .ok (some values) :=
    congrArg (Except.map some) (Reader.list_of room fun _ _ => rfl)
  have color (name : String) : Reader.optional Reader.string (depth + 1) (Json.string name).draft =
      .ok (some name) := rfl
  refine RecordType.read_object (Nat.lt_of_succ_lt room) block.parts ?_ block.block?_parts
  rw [Json.memberDrafts_append, Json.memberDrafts_append, List.foldlM_append, List.foldlM_append]
  simp only [Json.memberDrafts]
  rw [RecordType.foldlM_member rfl rfl rfl, RecordType.foldlM_member rfl rfl (Reader.named_of ..),
    RecordType.foldlM_member rfl rfl (Reader.named_of ..), RecordType.foldlM_member rfl rfl rfl,
    RecordType.foldlM_member rfl rfl arguments, List.foldlM_nil, pure_bind,
    RecordType.foldlM_optionalMember rfl rfl rfl _ descriptors, pure_bind,
    RecordType.foldlM_optionalMember rfl rfl rfl _ color]
  rfl

theorem Script.reader_toJson {script : Script} (finite : script.IsFinite) :
    script.toJson.document.read Script.reader = .ok script := by
  have blocks : Reader.list Block.reader 0 script.toJson.draft = .ok script.blocks :=
    Reader.list_of (by decide) fun block member =>
      Block.reader_toJson (finite block member) (by decide)
  exact Document.read_eq_ok_iff.mpr ⟨congrArg (Except.map Script.mk) blocks, rfl⟩

theorem Status.reader_toJson (status : Status) :
    status.toJson.document.read Status.reader = .ok status := by
  have record : Status.reader 0 status.toJson.draft = .ok status := by
    refine RecordType.read_object (by decide) ⟨status.stage, status.cleared, status.message⟩ ?_ rfl
    simp only [Json.memberDrafts]
    rw [RecordType.foldlM_member rfl rfl (Reader.named_of ..), RecordType.foldlM_member rfl rfl rfl,
      RecordType.foldlM_member rfl rfl rfl]
    rfl
  exact Document.read_eq_ok_iff.mpr ⟨record, rfl⟩

private theorem Argument.draft_toJson_isFinite (argument : Argument) :
    argument.toJson.draft.isFinite = true := by
  cases argument with
  | number value =>
    rw [toJson, Json.finite]
    split
    · assumption
    · rfl
  | text content => rfl

private theorem Block.draft_toJson_isFinite (block : Block) : block.toJson.draft.isFinite = true := by
  refine Json.object_isFinite.mpr (List.forall_mem_append.mpr ⟨List.forall_mem_append.mpr ⟨?_,
    Json.optionalMember_isFinite Json.strings_isFinite⟩, Json.optionalMember_isFinite fun _ => rfl⟩)
  have arguments := Json.array_isFinite.mpr (List.forall_mem_map.mpr
    fun argument (_ : argument ∈ block.arguments) => argument.draft_toJson_isFinite)
  simpa [Json.draft, Json.Draft.isFinite, Json.named] using arguments

private theorem Script.draft_toJson_isFinite (script : Script) : script.toJson.draft.isFinite = true :=
  Json.array_isFinite.mpr (List.forall_mem_map.mpr fun block _ => block.draft_toJson_isFinite)

private theorem Argument.reader_grants : Argument.reader.Grants (·.isFinite = true) := by
  intro depth draft argument finite taken
  unfold reader at taken
  split at taken
  · split at taken
    · obtain rfl := Except.ok.inj taken
      exact finite
    · obtain rfl := Except.ok.inj taken
      rfl
    · cases taken
  · cases taken

/-- Of all the fields only the arguments hold numbers. -/
def Block.Parts.IsFinite (parts : Block.Parts) : Prop :=
  ∀ argument ∈ parts.arguments.getD [], argument.isFinite = true

private theorem Block.Parts.IsFinite.block {parts : Block.Parts} {block : Block}
    (finite : parts.IsFinite)
    (complete : parts.block? = some block) : block.IsFinite := by
  simp only [block?, Option.bind_eq_bind, Option.bind_eq_some_iff] at complete
  obtain ⟨_, _, _, _, _, _, same⟩ := complete
  exact Option.some.inj same ▸ finite

private theorem Block.reader_grants : Block.reader.Grants Block.IsFinite := by
  refine RecordType.read_grants Parts.IsFinite nofun ?_ fun _ _ finite => finite.block
  simp only [recordType, List.forall_mem_cons]
  have other {α : Type} (read : Reader α) := read.grants_true
  refine ⟨(other _).at_keeps ?_ _ _, (other _).at_keeps ?_ _ _, (other _).at_keeps ?_ _ _,
    (other _).at_keeps ?_ _ _, Argument.reader_grants.list.at_keeps ?arguments _ _,
    (other _).at_keeps ?_ _ _, (other _).at_keeps ?_ _ _, nofun⟩
  case arguments => exact fun _ _ _ finite => finite
  all_goals exact fun _ _ finite _ => finite

private theorem Script.reader_grants : Script.reader.Grants Script.IsFinite := by
  intro depth draft script finite taken
  obtain ⟨blocks, read, rfl⟩ := Json.map_eq_ok taken
  exact Block.reader_grants.list depth draft blocks finite read

/-- A script comes back from its JSON exactly if all its numbers are finite, and every status comes
back. What was read as a script from a document with finite numbers, in whatever form its blocks and
names were written, comes back as well. -/
theorem exchange_round_trip :
    (∀ script : Script, script.toJson.document.read Script.reader = .ok script ↔ script.IsFinite) ∧
    (∀ status : Status, status.toJson.document.read Status.reader = .ok status) ∧
    ∀ (document : Document) (script : Script), document.draft.isFinite = true →
      document.read Script.reader = .ok script →
        script.toJson.document.read Script.reader = .ok script := by
  have granted {document : Document} {script : Script} (finite : document.draft.isFinite = true)
      (taken : document.read Script.reader = .ok script) : script.IsFinite :=
    Script.reader_grants 0 document.draft script finite (Document.read_eq_ok_iff.mp taken).1
  refine ⟨fun script => ⟨granted script.draft_toJson_isFinite, Script.reader_toJson⟩,
    Status.reader_toJson, fun document script finite taken => ?_⟩
  exact Script.reader_toJson (granted finite taken)

/-- A block without identifier, with a number, the same number as a text and a key that means
nothing, and a block that is the array of its fields. -/
theorem exchange_round_trip_forms :
    ∃ (value : Json) (script : Script),
      value = .array [
        .object [("command", .string "CALC_INPUT"), ("note", .null), ("label", .string ""),
          ("domain", .object [("calculator", .null)]),
          ("args", .array [.count 2, .string "2"])],
        .array [.string "b", .string "utility", .string "CALC_ADD", .string "", .array [],
          .array [], .null]] ∧
      script = ⟨[⟨"", .calculator, .inputNumber, "", [.number 2, .text "2"], none, none⟩,
        ⟨"b", .utility, .add, "", [], some [], none⟩]⟩ ∧
      value.document.draft.isFinite = true ∧ value.document.read Script.reader = .ok script ∧
      script.toJson.document.read Script.reader = .ok script := by
  refine ⟨_, _, rfl, rfl, ?finite, ?taken, exchange_round_trip.2.2 _ _ ?finite ?taken⟩
  case finite => rfl
  case taken => rfl

end MissionScript
