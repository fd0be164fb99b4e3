import Mathlib.Data.List.TakeWhile
import MissionScript.Text

namespace MissionScript.Text

theorem fields_eq_splitOn (separator : Char) (chars : List Char) :
    fields separator chars = chars.splitOn separator := by
  induction chars with
  | nil => rfl
  | cons char rest ih =>
    rw [List.splitOn, List.splitOnP_cons_eq_if_modifyHead]
    by_cases same : char = separator
    · rw [same, fields_separator, ih, if_pos (beq_self_eq_true separator)]
      rfl
    · rw [fields_other same, ih, if_neg (by simpa using same)]
      rfl

theorem not_mem_of_mem_fields {separator : Char} {chars field : List Char}
    (member : field ∈ fields separator chars) : separator ∉ field := by
  induction chars generalizing field with
  | nil =>
    obtain rfl := List.mem_singleton.mp member
    exact List.not_mem_nil
  | cons char rest ih =>
    by_cases same : char = separator
    · rw [same, fields_separator] at member
      rcases List.mem_cons.mp member with rfl | later
      · exact List.not_mem_nil
      · exact ih later
    · obtain ⟨first, others, split⟩ : ∃ first others, fields separator rest = first :: others :=
        ⟨_, _, rfl⟩
      rw [fields_other same, split, List.modifyHead_cons] at member
      rcases List.mem_cons.mp member with rfl | later
      · have absent : separator ∉ first := ih (split ▸ List.mem_cons_self ..)
        exact List.not_mem_cons_of_ne_of_not_mem (Ne.symm same) absent
      · exact ih (split ▸ List.mem_cons_of_mem _ later)

theorem fields_join {texts : List String} (undivided : ∀ text ∈ texts, ',' ∉ text.toList)
    (nonempty : texts ≠ []) :
    fields ',' (",".intercalate texts).toList = texts.map String.toList := by
  rw [fields_eq_splitOn, String.toList_intercalate]
  exact List.splitOn_intercalate ',' (by simpa using undivided) (by simpa using nonempty)

/-- Every text is its fields, joined by commas. -/
theorem join_fields (text : String) :
    ",".intercalate ((fields ',' text.toList).map String.ofList) = text := by
  apply String.toList_injective
  rw [String.toList_intercalate, List.map_map, fields_eq_splitOn]
  simp only [Function.comp_def, String.toList_ofList, List.map_id']
  exact List.intercalate_splitOn ','

/-- A cut goes through the first separator, or leaves the text whole. -/
theorem cut_fst (separator : Char) (chars : List Char) :
    (cut separator chars).1 = chars.takeWhile (· ≠ separator) := by
  induction chars with
  | nil => rfl
  | cons char rest ih => by_cases same : char = separator <;> simp [cut, same, ih]

theorem cut_joined (separator : Char) (chars : List Char) :
    (cut separator chars).1 ++ (cut separator chars).2.elim [] (separator :: ·) = chars := by
  induction chars with
  | nil => rfl
  | cons char rest ih =>
    by_cases same : char = separator
    · simp [cut, same]
    · simp [cut, same, ih]

theorem cut_append {separator : Char} {field : List Char} (absent : separator ∉ field)
    (rest : List Char) : cut separator (field ++ separator :: rest) = (field, some rest) := by
  induction field with
  | nil => simp [cut]
  | cons char others ih =>
    obtain ⟨different, absent⟩ := not_or.mp (mt List.mem_cons.mpr absent)
    simp [cut, Ne.symm different, ih absent]

theorem isBlank_of_isDigit {char : Char} (digit : char.isDigit = true) : isBlank char = false := by
  rw [Char.isDigit, Bool.and_eq_true, decide_eq_true_iff, decide_eq_true_iff] at digit
  obtain ⟨low, high⟩ := digit
  have low : 48 ≤ char.toNat := low
  have high : char.toNat ≤ 57 := high
  simp [isBlank, blankRanges]
  omega

private theorem dropWhile_isBlank {chars : List Char} (plain : ∀ char ∈ chars, isBlank char = false) :
    chars.dropWhile isBlank = chars :=
  List.dropWhile_eq_self_iff.mpr fun inside => by simp [plain _ (List.getElem_mem inside)]

/-- Blanks around a text without any are taken off, and nothing else. -/
theorem trimmed_padded {before chars after : List Char}
    (front : ∀ char ∈ before, isBlank char = true) (plain : ∀ char ∈ chars, isBlank char = false)
    (back : ∀ char ∈ after, isBlank char = true) : trimmed (before ++ chars ++ after) = chars := by
  have turned : ∀ char ∈ after.reverse, isBlank char = true := by simpa using back
  rw [trimmed, List.append_assoc, List.dropWhile_append_of_pos front]
  cases chars with
  | nil =>
    rw [List.nil_append, List.dropWhile_eq_nil_iff.mpr back]
    rfl
  | cons char rest =>
    have first : ¬ isBlank char = true := by simp [plain char (List.mem_cons_self ..)]
    rw [List.cons_append, List.dropWhile_cons_of_neg first, ← List.cons_append, List.reverse_append,
      List.dropWhile_append_of_pos turned,
      dropWhile_isBlank fun other member => plain other (List.mem_reverse.mp member),
      List.reverse_reverse]

theorem trimmed_of_forall {chars : List Char} (plain : ∀ char ∈ chars, isBlank char = false) :
    trimmed chars = chars := by
  have none : ∀ char ∈ ([] : List Char), isBlank char = true := by simp
  have whole := trimmed_padded none plain none
  rwa [List.nil_append, List.append_nil] at whole

end MissionScript.Text
