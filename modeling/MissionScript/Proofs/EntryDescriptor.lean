import MissionScript.Palette
import MissionScript.Proofs.TextParts

namespace MissionScript.Entry

/-- The kind of a descriptor: what stands before its first colon, or all of it if there is none. -/
def kindOf (descriptor : String) : String :=
  String.ofList (descriptor.toList.takeWhile (· ≠ ':'))

/-- The descriptor of a choice between options. -/
def offering (options : List String) : String := "select:" ++ ",".intercalate options

/-- Options that a descriptor can offer. A comma would divide one of them, and one word is kept for
the registered cars. -/
structure Offerable (options : List String) : Prop where
  nonempty : options ≠ []
  undivided : ∀ option ∈ options, ',' ∉ option.toList
  unreserved : options ≠ ["dynamic"]

/-- How a descriptor is read, by its form. -/
inductive ReadsAs (descriptor : String) : Option Entry → Prop where
  | number (kind : kindOf descriptor = "number") : ReadsAs descriptor (some .number)
  | text (kind : kindOf descriptor = "text") : ReadsAs descriptor (some .text)
  | bare (whole : descriptor = "select") : ReadsAs descriptor (some (.select []))
  | options (offerable : Offerable options) (whole : descriptor = offering options) :
      ReadsAs descriptor (some (.select options))
  | cars (whole : descriptor = "select:dynamic") : ReadsAs descriptor (some .selectCar)
  | unknown (kind : kindOf descriptor ∉ ["number", "text", "select"]) : ReadsAs descriptor none

variable {descriptor offer : String} {options : List String} {meaning? : Option Entry}

private theorem eq_kind_or_offer (descriptor : String) :
    descriptor = kindOf descriptor ∨ ∃ offer, descriptor = kindOf descriptor ++ ":" ++ offer := by
  have joined := Text.cut_joined ':' descriptor.toList
  rw [Text.cut_fst] at joined
  cases after : (Text.cut ':' descriptor.toList).2 with
  | none =>
    left
    rw [after, Option.elim_none, List.append_nil] at joined
    rw [kindOf, joined, String.ofList_toList]
  | some offer =>
    right
    refine ⟨String.ofList offer, String.toList_injective ?_⟩
    rw [after, Option.elim_some] at joined
    simpa [kindOf] using joined.symm

private theorem ofDescriptor?_of_kind (other : kindOf descriptor ≠ "select") :
    ofDescriptor? descriptor =
      if kindOf descriptor = "number" then some number
      else if kindOf descriptor = "text" then some text
      else none := by
  unfold ofDescriptor?
  split
  rename_i chars offer? parted
  have kind : kindOf descriptor = String.ofList chars := by rw [kindOf, ← Text.cut_fst, parted]
  rw [kind] at other ⊢
  split <;> simp_all

private theorem ofDescriptor?_offer (offer : String) :
    ofDescriptor? ("select:" ++ offer) =
      if offer = "dynamic" then some selectCar
      else some (select ((Text.fields ',' offer.toList).map String.ofList)) := by
  have parts : ("select:" ++ offer).toList = "select".toList ++ ':' :: offer.toList := by
    rw [String.toList_append]
    rfl
  unfold ofDescriptor?
  rw [parts, Text.cut_append (by decide)]
  simp

private theorem Offerable.join_ne (offerable : Offerable options) :
    ",".intercalate options ≠ "dynamic" := by
  intro reserved
  have parts := Text.fields_join offerable.undivided offerable.nonempty
  -- The word has no comma in it, so it would be the only option.
  have same : options.map String.toList = ["dynamic"].map String.toList := by
    rw [← parts, reserved]
    decide
  exact offerable.unreserved ((List.map_inj_right fun _ _ => String.toList_injective).mp same)

private theorem offerable_fields (other : offer ≠ "dynamic") :
    Offerable ((Text.fields ',' offer.toList).map String.ofList) where
  nonempty := by simp [Text.fields]
  undivided option member := by
    obtain ⟨field, inside, rfl⟩ := List.mem_map.mp member
    rw [String.toList_ofList]
    exact Text.not_mem_of_mem_fields inside
  unreserved reserved := by
    have joined := Text.join_fields offer
    rw [reserved] at joined
    exact other joined.symm

private theorem readsAs_ofDescriptor? (descriptor : String) :
    ReadsAs descriptor (ofDescriptor? descriptor) := by
  by_cases selects : kindOf descriptor = "select"
  · rcases eq_kind_or_offer descriptor with bare | ⟨offer, offered⟩
    · obtain rfl := bare.trans selects
      exact .bare rfl
    · rw [selects] at offered
      obtain rfl : descriptor = "select:" ++ offer := offered
      rw [ofDescriptor?_offer]
      split
      · rename_i reserved
        exact .cars (reserved ▸ rfl)
      · rename_i other
        refine .options (offerable_fields other) ?_
        rw [offering, Text.join_fields]
  · rw [ofDescriptor?_of_kind selects]
    split_ifs with isNumber isText
    · exact .number isNumber
    · exact .text isText
    · exact .unknown (by simp [isNumber, isText, selects])

private theorem ReadsAs.eq (reads : ReadsAs descriptor meaning?) :
    ofDescriptor? descriptor = meaning? := by
  cases reads with
  | number kind => rw [ofDescriptor?_of_kind (by simp [kind]), if_pos kind]
  | text kind => rw [ofDescriptor?_of_kind (by simp [kind]), if_neg (by simp [kind]), if_pos kind]
  | bare whole =>
    rw [whole]
    rfl
  | options offerable whole =>
    rw [whole, offering, ofDescriptor?_offer, if_neg offerable.join_ne,
      Text.fields_join offerable.undivided offerable.nonempty, List.map_map]
    simp
  | cars whole =>
    rw [whole]
    exact ofDescriptor?_offer "dynamic"
  | unknown kind =>
    simp only [List.mem_cons, List.not_mem_nil, or_false, not_or] at kind
    obtain ⟨notNumber, notText, notSelect⟩ := kind
    rw [ofDescriptor?_of_kind notSelect, if_neg notNumber, if_neg notText]

/-- A descriptor is read by its form, and in no other way. -/
theorem ofDescriptor?_eq_iff : ofDescriptor? descriptor = meaning? ↔ ReadsAs descriptor meaning? :=
  ⟨fun read => read ▸ readsAs_ofDescriptor? descriptor, ReadsAs.eq⟩

/-- Descriptors read back. Options without a comma, joined by commas behind the word for a choice, are
read as these options in their order, unless they are the reserved word alone. No entry is read exactly
where the kind is unknown, and the cars are offered by exactly one text. The kind alone makes a number or
a text, and a choice has no options or the ones that its descriptor offers. -/
theorem descriptor_read_back :
    (∀ options, Offerable options → ofDescriptor? (offering options) = some (.select options)) ∧
    ∀ descriptor,
      (ofDescriptor? descriptor = none ↔ kindOf descriptor ∉ ["number", "text", "select"]) ∧
      (ofDescriptor? descriptor = some .selectCar ↔ descriptor = "select:dynamic") ∧
      (ofDescriptor? descriptor = some .number ↔ kindOf descriptor = "number") ∧
      (ofDescriptor? descriptor = some .text ↔ kindOf descriptor = "text") ∧
      ∀ options, ofDescriptor? descriptor = some (.select options) ↔
        descriptor = "select" ∧ options = [] ∨ Offerable options ∧ descriptor = offering options := by
  refine ⟨fun options offerable => (ReadsAs.options offerable rfl).eq, fun descriptor => ?_⟩
  simp only [ofDescriptor?_eq_iff]
  refine ⟨⟨fun | .unknown kind => kind, .unknown⟩, ⟨fun | .cars whole => whole, .cars⟩,
    ⟨fun | .number kind => kind, .number⟩, ⟨fun | .text kind => kind, .text⟩,
    fun options => ⟨?_, ?_⟩⟩
  · intro reads
    cases reads with
    | bare whole => exact .inl ⟨whole, rfl⟩
    | options offerable whole => exact .inr ⟨offerable, whole⟩
  · rintro (⟨whole, rfl⟩ | ⟨offerable, whole⟩)
    · exact .bare whole
    · exact .options offerable whole

/-- Colons, empty options and the reserved word beside others are options like all; a kind is spelled
exactly, and so is the word for the cars. -/
theorem descriptor_read_back_colons :
    Offerable ["GT:2", "", "dynamic"] ∧ Offerable [""] ∧
      ofDescriptor? "select:GT:2,,dynamic" = some (.select ["GT:2", "", "dynamic"]) ∧
      ofDescriptor? "select:" = some (.select [""]) ∧
      ofDescriptor? "selector:GT" = none ∧ ofDescriptor? "select:dynamic " ≠ some .selectCar := by
  have colons : Offerable ["GT:2", "", "dynamic"] := ⟨by decide, by decide, by decide⟩
  have blank : Offerable [""] := ⟨by decide, by decide, by decide⟩
  have colonsWritten : offering ["GT:2", "", "dynamic"] = "select:GT:2,,dynamic" := by decide +kernel
  have blankWritten : offering [""] = "select:" := by decide +kernel
  obtain ⟨offered, read⟩ := descriptor_read_back
  rw [← colonsWritten, ← blankWritten]
  refine ⟨colons, blank, offered _ colons, offered _ blank, ?_, ?_⟩
  · exact (read "selector:GT").1.mpr (by decide)
  · exact mt (read "select:dynamic ").2.1.mp (by decide)

end MissionScript.Entry
