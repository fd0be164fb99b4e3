import MissionScript.Exchange.Writing
import MissionScript.Json.Reader

namespace MissionScript.Json

variable {α β Partial : Type} {depth : Nat}

private theorem drafts_eq_map (items : List Json) : drafts items = items.map draft := by
  induction items with
  | nil => rfl
  | cons item items ih => rw [drafts, ih, List.map_cons]

private theorem memberDrafts_eq_map (members : List (String × Json)) :
    memberDrafts members = members.map fun member => (some member.1, member.2.draft) := by
  induction members with
  | nil => rfl
  | cons member members ih => rw [memberDrafts, ih, List.map_cons]

theorem memberDrafts_append (front back : List (String × Json)) :
    memberDrafts (front ++ back) = memberDrafts front ++ memberDrafts back := by
  simp only [memberDrafts_eq_map, List.map_append]

namespace Reader

theorem named_of [Named α] (value : α) (depth : Nat) :
    named depth (Json.named value).draft = .ok value := by
  change named.known (Named.name value) = .ok value
  rw [named.known, Named.ofName?_name]

theorem list_of {read : Reader α} {write : α → Json} {values : List α} (room : depth < deepest)
    (law : ∀ value ∈ values, read (depth + 1) (write value).draft = .ok value) :
    list read depth (Json.array (values.map write)).draft = .ok values := by
  have items : (drafts (values.map write)).mapM (read (depth + 1)) = .ok values := by
    rw [drafts_eq_map]
    induction values with
    | nil => rfl
    | cons value values ih =>
      rw [List.map_cons, List.map_cons, List.mapM_cons, law value List.mem_cons_self,
        ih fun other member => law other (List.mem_cons_of_mem value member)]
      rfl
  rw [draft, list, within, if_pos room, items]
  rfl

end Reader

namespace RecordType

variable {type : RecordType Partial α} {read : Reader β} {get : Partial → Option β}
  {set : Partial → Option β → Partial} {record : Partial} {key : String}

theorem foldlM_member {value : β} {content : Draft}
    (known : type.fields.find? (·.name = key) = some (.at key read get set))
    (unread : get record = none) (law : read depth content = .ok value)
    (members : List (Option String × Draft)) :
    ((some key, content) :: members).foldlM (type.readMember depth) record =
      members.foldlM (type.readMember depth) (set record (some value)) := by
  have taken : type.readMember depth record (some key, content) = .ok (set record (some value)) := by
    rw [readMember, known]
    simp [Field.at, unread, law, Except.map]
  rw [List.foldlM_cons, taken]
  rfl

theorem foldlM_optionalMember {write : β → Json} {get : Partial → Option (Option β)}
    {set : Partial → Option (Option β) → Partial}
    (known : type.fields.find? (·.name = key) = some (.at key (Reader.optional read) get set))
    (unread : get record = none) (kept : set record none = record) (value? : Option β)
    (law : ∀ value, Reader.optional read depth (write value).draft = .ok (some value)) :
    (memberDrafts (optionalMember key write value?)).foldlM (type.readMember depth) record =
      pure (set record (value?.map some)) := by
  cases value? with
  | none => exact congrArg pure kept.symm
  | some value => exact foldlM_member known unread (law value) []

theorem read_object {members : List (String × Json)} {value : α} (room : depth < deepest)
    (record : Partial)
    (fields : (memberDrafts members).foldlM (type.readMember (depth + 1)) type.start = .ok record)
    (complete : type.complete? record = some value) :
    type.read depth (Json.object members).draft = .ok value := by
  rw [draft, RecordType.read, within, if_pos room, fields]
  change read.finish type record = .ok value
  rw [read.finish, complete]

end RecordType

mutual

/-- No number in the draft is infinite or undefined. -/
def Draft.isFinite : Draft → Bool
  | number value => value.all Float.isFinite
  | array items _ => areFinite items
  | object members _ => membersAreFinite members
  | _ => true

def Draft.areFinite : List Draft → Bool
  | [] => true
  | item :: items => item.isFinite && areFinite items

def Draft.membersAreFinite : List (Option String × Draft) → Bool
  | [] => true
  | (_, value) :: members => value.isFinite && membersAreFinite members

end

private theorem Draft.areFinite_iff {items : List Draft} :
    areFinite items = true ↔ ∀ item ∈ items, item.isFinite = true := by
  induction items with
  | nil => simp [areFinite]
  | cons item items ih => simp [areFinite, ih]

private theorem Draft.membersAreFinite_iff {members : List (Option String × Draft)} :
    membersAreFinite members = true ↔ ∀ member ∈ members, member.2.isFinite = true := by
  induction members with
  | nil => simp [membersAreFinite]
  | cons member members ih => simp [membersAreFinite, ih]

theorem array_isFinite {items : List Json} :
    (array items).draft.isFinite = true ↔ ∀ item ∈ items, item.draft.isFinite = true := by
  rw [draft, Draft.isFinite, Draft.areFinite_iff, drafts_eq_map, List.forall_mem_map]

theorem object_isFinite {members : List (String × Json)} :
    (object members).draft.isFinite = true ↔
      ∀ member ∈ members, member.2.draft.isFinite = true := by
  rw [draft, Draft.isFinite, Draft.membersAreFinite_iff, memberDrafts_eq_map, List.forall_mem_map]

theorem optionalMember_isFinite {key : String} {write : α → Json} {value? : Option α}
    (finite : ∀ value, (write value).draft.isFinite = true) :
    ∀ member ∈ optionalMember key write value?, member.2.draft.isFinite = true := by
  cases value? with
  | none => exact fun member present => absurd present List.not_mem_nil
  | some value => exact List.forall_mem_singleton.mpr (finite value)

theorem strings_isFinite (values : List String) : (strings values).draft.isFinite = true := by
  exact array_isFinite.mpr (List.forall_mem_map.mpr fun value _ => rfl)

/-- A document is read if its draft is and nothing stands after it. -/
theorem Document.read_eq_ok_iff {document : Document} {reader : Reader α} {value : α} :
    document.read reader = .ok value ↔
      reader 0 document.draft = .ok value ∧ document.trailing = false := by
  obtain ⟨draft, trailing⟩ := document
  rw [Document.read]
  cases reader 0 draft with
  | error flaw => exact ⟨nofun, nofun⟩
  | ok found =>
    cases trailing with
    | false => exact ⟨fun same => ⟨same, rfl⟩, And.left⟩
    | true => exact ⟨nofun, nofun⟩

private theorem bind_eq_ok {ε : Type} {action : Except ε α} {next : α → Except ε β} {result : β}
    (taken : action >>= next = .ok result) :
    ∃ value, action = .ok value ∧ next value = .ok result := by
  cases action with
  | error => cases taken
  | ok value => exact ⟨value, rfl, taken⟩

theorem map_eq_ok {ε : Type} {action : Except ε α} {change : α → β} {result : β}
    (taken : action.map change = .ok result) :
    ∃ value, action = .ok value ∧ change value = result := by
  cases action with
  | error => cases taken
  | ok value => exact ⟨value, rfl, Except.ok.inj taken⟩

private theorem exists_of_mem_mapM {ε : Type} {action : α → Except ε β} {values : List α}
    {results : List β} (taken : values.mapM action = .ok results) (member : result ∈ results) :
    ∃ value ∈ values, action value = .ok result := by
  induction values generalizing results with
  | nil =>
    obtain rfl := Except.ok.inj taken
    cases member
  | cons value values ih =>
    rw [List.mapM_cons] at taken
    obtain ⟨first, found, taken⟩ := bind_eq_ok taken
    obtain ⟨others, rest, taken⟩ := bind_eq_ok taken
    obtain rfl := Except.ok.inj taken
    rcases List.mem_cons.mp member with rfl | member
    · exact ⟨value, List.mem_cons_self, found⟩
    · obtain ⟨other, present, found⟩ := ih rest member
      exact ⟨other, List.mem_cons_of_mem value present, found⟩

private theorem within_eq_ok {inner : Nat → Except Flaw α} {value : α}
    (taken : within depth inner = .ok value) : inner (depth + 1) = .ok value := by
  unfold within at taken
  split at taken
  · exact taken
  · cases taken

/-- All that is read from finite numbers has a property. -/
def Reader.Grants (read : Reader α) (property : α → Prop) : Prop :=
  ∀ depth draft value, draft.isFinite = true → read depth draft = .ok value → property value

theorem Reader.grants_true (read : Reader α) : read.Grants fun _ => True :=
  fun _ _ _ _ _ => trivial

theorem Reader.Grants.list {read : Reader α} {property : α → Prop} (grants : read.Grants property) :
    (Reader.list read).Grants fun values => ∀ value ∈ values, property value := by
  intro depth draft values finite taken
  cases draft with
  | array items closed =>
    rw [Reader.list] at taken
    obtain ⟨values, inner, rest⟩ := bind_eq_ok (within_eq_ok taken)
    obtain ⟨_, _, rest⟩ := bind_eq_ok rest
    obtain rfl := Except.ok.inj rest
    intro value member
    obtain ⟨item, present, found⟩ := exists_of_mem_mapM inner member
    exact grants _ item value (Draft.areFinite_iff.mp finite item present) found
  | _ => cases taken

/-- A field that is read from finite numbers keeps what holds of the record. -/
def Field.Keeps (field : Field Partial) (holds : Partial → Prop) : Prop :=
  ∀ depth draft record next, draft.isFinite = true → holds record →
    field.read depth draft record = .ok next → holds next

theorem Reader.Grants.at_keeps {read : Reader β} {property : β → Prop}
    (grants : read.Grants property) {holds : Partial → Prop} {set : Partial → Option β → Partial}
    (kept : ∀ record value, holds record → property value → holds (set record (some value)))
    (name : String) (get : Partial → Option β) : (Field.at name read get set).Keeps holds := by
  intro depth draft record next finite before taken
  obtain ⟨value, found, rfl⟩ := map_eq_ok taken
  exact kept record value before (grants depth draft value finite found)

namespace RecordType

variable {type : RecordType Partial α} {holds : Partial → Prop} {record next : Partial}

private theorem readMember_keeps (keeps : ∀ field ∈ type.fields, field.Keeps holds)
    {member : Option String × Draft} (finite : member.2.isFinite = true) (before : holds record)
    (taken : type.readMember depth record member = .ok next) : holds next := by
  obtain ⟨_ | key, content⟩ := member
  · cases taken
  unfold readMember at taken
  dsimp only at taken
  split at taken
  · obtain ⟨_, _, rest⟩ := bind_eq_ok taken
    exact Except.ok.inj rest ▸ before
  · rename_i field found
    split at taken
    · cases taken
    · exact keeps field (List.mem_of_find?_eq_some found) _ content _ _ finite before taken

private theorem foldlM_readMember_keeps (keeps : ∀ field ∈ type.fields, field.Keeps holds)
    {members : List (Option String × Draft)}
    (finite : ∀ member ∈ members, member.2.isFinite = true) (before : holds record)
    (taken : members.foldlM (type.readMember depth) record = .ok next) : holds next := by
  induction members generalizing record with
  | nil => exact Except.ok.inj taken ▸ before
  | cons member members ih =>
    rw [List.foldlM_cons] at taken
    obtain ⟨middle, first, rest⟩ := bind_eq_ok taken
    exact ih (fun other present => finite other (List.mem_cons_of_mem member present))
      (readMember_keeps keeps (finite member List.mem_cons_self) before first) rest

private theorem readItems_keeps {fields : List (Field Partial)}
    (keeps : ∀ field ∈ fields, field.Keeps holds) {items : List Draft}
    (finite : ∀ item ∈ items, item.isFinite = true) (before : holds record)
    (taken : readItems depth fields items record = .ok next) : holds next := by
  induction items generalizing fields record with
  | nil =>
    rw [readItems] at taken
    exact Except.ok.inj taken ▸ before
  | cons item items ih =>
    cases fields with
    | nil => cases taken
    | cons field fields =>
      obtain ⟨middle, first, rest⟩ := bind_eq_ok taken
      exact ih (fun other member => keeps other (List.mem_cons_of_mem field member))
        (fun other member => finite other (List.mem_cons_of_mem item member))
        (keeps field List.mem_cons_self _ _ _ _ (finite item List.mem_cons_self) before first) rest

/-- What holds of an empty record and is kept by every field holds of the record that is completed,
whether it was an object or an array. -/
theorem read_grants {property : α → Prop} (holds : Partial → Prop) (start : holds type.start)
    (keeps : ∀ field ∈ type.fields, field.Keeps holds)
    (complete : ∀ record value, holds record → type.complete? record = some value →
      property value) : type.read.Grants property := by
  have finished {record value} (before : holds record)
      (taken : read.finish type record = .ok value) : property value := by
    unfold read.finish at taken
    split at taken
    · rename_i whole
      exact complete _ _ before (Except.ok.inj taken ▸ whole)
    · cases taken
  intro depth draft value finite taken
  cases draft with
  | object members closed =>
    rw [read] at taken
    obtain ⟨record, fields, rest⟩ := bind_eq_ok (within_eq_ok taken)
    obtain ⟨_, _, rest⟩ := bind_eq_ok rest
    have finite := Draft.membersAreFinite_iff.mp finite
    exact finished (foldlM_readMember_keeps keeps finite start fields) rest
  | array items closed =>
    rw [read] at taken
    obtain ⟨record, fields, rest⟩ := bind_eq_ok (within_eq_ok taken)
    obtain ⟨_, _, rest⟩ := bind_eq_ok rest
    exact finished (readItems_keeps keeps (Draft.areFinite_iff.mp finite) start fields) rest
  | _ => cases taken

end RecordType

end MissionScript.Json
