import MissionScript.Numeral
import MissionScript.Proofs.TextParts

namespace MissionScript.Numeral

/-- The decimal numeral of a value: ASCII digits that write it, without a zero before other digits. -/
structure IsNumeral (chars : List Char) (value : Nat) : Prop where
  nonempty : chars ≠ []
  digits : ∀ char ∈ chars, char.isDigit = true
  number : Nat.ofDigitChars 10 chars 0 = value
  leading : chars.head? = some '0' → chars = ['0']

private theorem eq_zero_of_head? {value : Nat} (zero : (Nat.toDigits 10 value).head? = some '0') :
    value = 0 := by
  induction value using Nat.strongRecOn with
  | ind value ih =>
    by_cases single : value < 10
    · rw [Nat.toDigits_of_lt_base single] at zero
      have apart : ∀ digit < 10, Nat.digitChar digit = '0' → digit = 0 := by decide
      exact apart value single (Option.some.inj zero)
    · obtain ⟨first, others, tens⟩ :=
        List.exists_cons_of_ne_nil (Nat.toDigits_ne_nil : Nat.toDigits 10 (value / 10) ≠ [])
      rw [Nat.toDigits_of_base_le (by decide) (Nat.le_of_not_lt single), tens] at zero
      have none := ih (value / 10) (by omega) (by rw [tens]; exact zero)
      omega

theorem isNumeral_toDigits (value : Nat) : IsNumeral (Nat.toDigits 10 value) value where
  nonempty := Nat.toDigits_ne_nil
  digits _ member := Nat.isDigit_of_mem_toDigits (by decide) (by decide) member
  number := Nat.ofDigitChars_ten_toDigits
  leading zero := by
    rw [eq_zero_of_head? zero]
    rfl

private theorem toDigits_inj {first second : Nat}
    (same : Nat.toDigits 10 first = Nat.toDigits 10 second) : first = second := by
  rw [← (isNumeral_toDigits first).number, same, (isNumeral_toDigits second).number]

private theorem comma_not_mem_toDigits (value : Nat) : ',' ∉ Nat.toDigits 10 value := fun member =>
  absurd ((isNumeral_toDigits value).digits ',' member) (by decide)

variable {digits : List Char}

private theorem filter_grouped (plain : ',' ∉ digits) :
    (grouped digits).filter (· ≠ ',') = digits := by
  cases digits with
  | nil => rfl
  | cons digit rest =>
    obtain ⟨different, tail⟩ := not_or.mp (mt List.mem_cons.mpr plain)
    rw [grouped, List.filter_cons_of_pos (by simpa using Ne.symm different),
      filter_groupAfter rest tail]

/-- The digits behind a leading one fall into whole groups but for their remainder, which goes with
that digit. -/
private theorem splitOn_groupAfter (plain : ',' ∉ digits) :
    ∃ leading others, (groupAfter digits).splitOn ',' = leading :: others ∧
      leading.length = digits.length % 3 ∧ ∀ group ∈ others, group.length = 3 := by
  simp only [← Text.fields_eq_splitOn]
  induction digits with
  | nil => exact ⟨[], [], rfl, rfl, by simp⟩
  | cons digit rest ih =>
    obtain ⟨different, tail⟩ := not_or.mp (mt List.mem_cons.mpr plain)
    obtain ⟨leading, others, split, remainder, whole⟩ := ih tail
    unfold groupAfter
    split
    · rename_i third
      refine ⟨[], (digit :: leading) :: others, ?_, third.symm, ?_⟩
      · rw [Text.fields_separator, Text.fields_other (Ne.symm different), split]
        rfl
      · intro group member
        rcases List.mem_cons.mp member with rfl | later
        · rw [List.length_cons, remainder]
          omega
        · exact whole group later
    · rename_i between
      refine ⟨digit :: leading, others, ?_, ?_, whole⟩
      · rw [Text.fields_other (Ne.symm different), split]
        rfl
      · rw [List.length_cons, List.length_cons, remainder]
        omega

private theorem splitOn_grouped (plain : ',' ∉ digits) (nonempty : digits ≠ []) :
    ∃ leading others, (grouped digits).splitOn ',' = leading :: others ∧
      1 ≤ leading.length ∧ leading.length ≤ 3 ∧ ∀ group ∈ others, group.length = 3 := by
  obtain ⟨digit, rest, rfl⟩ := List.exists_cons_of_ne_nil nonempty
  obtain ⟨different, tail⟩ := not_or.mp (mt List.mem_cons.mpr plain)
  obtain ⟨leading, others, split, remainder, whole⟩ := splitOn_groupAfter tail
  refine ⟨digit :: leading, others, ?_, ?_, ?_, whole⟩
  · rw [← Text.fields_eq_splitOn] at split ⊢
    rw [grouped, Text.fields_other (Ne.symm different), split]
    rfl
  · exact Nat.succ_pos _
  · rw [List.length_cons, remainder]
    omega

private theorem getLast?_groupAfter (digits : List Char) :
    (groupAfter digits).getLast? = digits.getLast? := by
  induction digits with
  | nil => rfl
  | cons digit rest ih =>
    unfold groupAfter
    split <;> simp only [List.getLast?_cons, ih, Option.getD_some]

private theorem ends_grouped (digits : List Char) :
    (grouped digits).head? = digits.head? ∧ (grouped digits).getLast? = digits.getLast? := by
  cases digits with
  | nil => exact ⟨rfl, rfl⟩
  | cons digit rest =>
    refine ⟨rfl, ?_⟩
    rw [grouped, List.getLast?_cons, List.getLast?_cons, getLast?_groupAfter]

private theorem toList_groupedText (amount : Nat) :
    (groupedText amount).toList = grouped (Nat.toDigits 10 amount) := String.toList_ofList

/-- What an amount looks like. Without its commas the text is the decimal numeral of the amount; the
commas stand at neither end, and they leave a group of one to three digits and behind it groups of
exactly three. No other amount has the same text. -/
theorem groupedText_shape (amount : Nat) :
    let text := (groupedText amount).toList
    (text.filter (· ≠ ',') = (toString amount).toList ∧ IsNumeral (text.filter (· ≠ ',')) amount) ∧
    (text.head? ≠ some ',' ∧ text.getLast? ≠ some ',') ∧
    (∃ leading others, text.splitOn ',' = leading :: others ∧
      1 ≤ leading.length ∧ leading.length ≤ 3 ∧ ∀ group ∈ others, group.length = 3) ∧
    ∀ other, groupedText other = groupedText amount → other = amount := by
  intro text
  have plain := comma_not_mem_toDigits amount
  have written : text = grouped (Nat.toDigits 10 amount) := toList_groupedText amount
  have digits : text.filter (· ≠ ',') = Nat.toDigits 10 amount := by
    rw [written, filter_grouped plain]
  obtain ⟨first, last⟩ := ends_grouped (Nat.toDigits 10 amount)
  refine ⟨⟨?_, ?_⟩, ⟨?_, ?_⟩, ?_, ?_⟩
  · rw [digits]
    exact Nat.toList_repr.symm
  · rw [digits]
    exact isNumeral_toDigits amount
  · rw [written, first]
    exact fun comma => plain (List.mem_of_head? comma)
  · rw [written, last]
    exact fun comma => plain (List.mem_of_getLast? comma)
  · rw [written]
    exact splitOn_grouped plain Nat.toDigits_ne_nil
  · intro other same
    refine toDigits_inj ?_
    rw [← filter_grouped (comma_not_mem_toDigits other), ← toList_groupedText, same]
    exact digits

/-- The largest amount of 64 bits has seven groups, and no other amount is written so. -/
theorem groupedText_shape_largest :
    groupedText 18446744073709551615 = "18,446,744,073,709,551,615" ∧
      ∀ other, groupedText other = "18,446,744,073,709,551,615" → other = 18446744073709551615 := by
  have written : groupedText 18446744073709551615 = "18,446,744,073,709,551,615" := by
    decide +kernel
  obtain ⟨_, _, _, alone⟩ := groupedText_shape 18446744073709551615
  refine ⟨written, fun other same => ?_⟩
  exact alone other (same.trans written.symm)

end MissionScript.Numeral
