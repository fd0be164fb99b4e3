import Mathlib.Data.List.Forall2
import MissionScript.Proofs.NumberEntries

namespace MissionScript

namespace Numeral

/-- The text of a number: its decimal numeral, with blanks or nothing around it. -/
def Spaced (text : String) (value : Nat) : Prop :=
  ∃ before after, (∀ char ∈ before, Text.isBlank char = true) ∧
    (∀ char ∈ after, Text.isBlank char = true) ∧
    text.toList = before ++ (toString value).toList ++ after

private theorem isDigit_of_mem_toString {value : Nat} {char : Char}
    (member : char ∈ (toString value).toList) :
    char.isDigit = true := by
  rw [Nat.toString_eq_repr, Nat.toList_repr] at member
  exact Nat.isDigit_of_mem_toDigits (by decide) (by decide) member

private theorem integer?_toString (value : Nat) : integer? (toString value).toList = some value := by
  have digits : ∀ char ∈ (toString value).toList, char.isDigit = true := fun _ =>
    isDigit_of_mem_toString
  have unsigned : digitsOf (toString value).toList = (toString value).toList := by
    unfold digitsOf
    split
    · rename_i sign
      exact absurd (digits '+' (sign ▸ List.mem_cons_self ..)) (by decide)
    · rfl
  have whole : (toString value).toList = Nat.toDigits 10 value := Nat.toList_repr
  rw [integer?, unsigned, if_pos ⟨whole ▸ Nat.toDigits_ne_nil, List.all_eq_true.mpr digits⟩, whole,
    Nat.ofDigitChars_ten_toDigits]

namespace Spaced

private theorem integer?_eq (spaced : Spaced text value) :
    integer? (Text.trimmed text.toList) = some value := by
  obtain ⟨before, after, front, back, written⟩ := spaced
  have plain : ∀ char ∈ (toString value).toList, Text.isBlank char = false := fun _ member =>
    Text.isBlank_of_isDigit (isDigit_of_mem_toString member)
  rw [written, Text.trimmed_padded front plain back, integer?_toString]

private theorem comma_not_mem (spaced : Spaced text value) : ',' ∉ text.toList := by
  obtain ⟨before, after, front, back, written⟩ := spaced
  rw [written]
  intro member
  rcases List.mem_append.mp member with early | late
  · rcases List.mem_append.mp early with blank | digit
    · exact absurd (front ',' blank) (by decide)
    · exact absurd (isDigit_of_mem_toString digit) (by decide)
  · exact absurd (back ',' late) (by decide)

private theorem plain (value : Nat) : Spaced (toString value) value :=
  ⟨[], [], by simp, by simp, by simp⟩

private theorem behind_blank (value : Nat) : Spaced (" " ++ toString value) value :=
  ⟨[' '], [], List.forall_mem_singleton.mpr rfl, by simp, by simp⟩

end Spaced

end Numeral

namespace Lotto

open Numeral (Spaced)

section Texts

variable {texts : List String} {values : List Nat} (spaced : List.Forall₂ Spaced texts values)

include spaced

private theorem splitOn_join (nonempty : texts ≠ []) :
    (",".intercalate texts).toList.splitOn ',' = texts.map String.toList := by
  have undivided : ∀ text ∈ texts, ',' ∉ text.toList := by
    clear nonempty
    induction spaced with
    | nil => simp
    | cons own rest ih => exact List.forall_mem_cons.mpr ⟨own.comma_not_mem, ih⟩
  rw [← Text.fields_eq_splitOn, Text.fields_join undivided nonempty]

private theorem integers_join : integers (",".intercalate texts) = values := by
  by_cases none : texts = []
  · obtain rfl := none
    obtain rfl := List.forall₂_nil_left_iff.mp spaced
    rfl
  · rw [integers, splitOn_join spaced none, List.filterMap_map]
    clear none
    induction spaced with
    | nil => rfl
    | cons own rest ih =>
      simp only [List.filterMap_cons, Function.comp_apply, own.integer?_eq]
      exact congrArg (_ :: ·) ih

theorem readNumbers_join (small : ∀ value ∈ values, value < UInt32.size) :
    readNumbers (",".intercalate texts) = values := by
  rw [readNumbers_eq, integers_join spaced]
  exact List.filter_eq_self.mpr fun value member => decide_eq_true (small value member)

end Texts

private theorem intercalate_comma_blank (first : String) (others : List String) :
    ", ".intercalate (first :: others) = ",".intercalate (first :: others.map (" " ++ ·)) := by
  induction others generalizing first with
  | nil => simp
  | cons second others ih =>
    have parts : first ++ ", " = first ++ "," ++ " " := by
      rw [String.append_assoc]
      rfl
    rw [List.map_cons, String.intercalate_cons_cons, String.intercalate_cons_cons,
      String.intercalate_cons_append, ih, ← String.append_assoc, parts]

private theorem listed_eq_join (values : List Nat) :
    ∃ texts, listed values = ",".intercalate texts ∧ List.Forall₂ Spaced texts values := by
  cases values with
  | nil => exact ⟨[], rfl, .nil⟩
  | cons first others =>
    refine ⟨_, intercalate_comma_blank (toString first) (others.map toString), ?_⟩
    refine .cons (.plain first) ?_
    rw [List.map_map, List.forall₂_map_left_iff]
    exact List.forall₂_same.mpr fun value _ => .behind_blank value

theorem readNumbers_listed {values : List Nat} (small : ∀ value ∈ values, value < UInt32.size) :
    readNumbers (listed values) = values := by
  obtain ⟨texts, written, spaced⟩ := listed_eq_join values
  rw [written, readNumbers_join spaced small]

private theorem Drawable.mergeSort {numbers : List Nat} (drawable : Drawable numbers) :
    Drawable numbers.mergeSort := by
  have reordered := List.mergeSort_perm numbers fun left right => decide (left ≤ right)
  refine ⟨reordered.length_eq.trans drawable.1, reordered.nodup_iff.mpr drawable.2.1, ?_⟩
  exact fun number member => drawable.2.2 number (reordered.subset member)

namespace Lottery

variable {State : Type}

private theorem handle_ordered {again : Block} {numbers : List Nat}
    (asks : again.command = .inputWinning)
    (read : entries again = numbers.mergeSort) (drawable : Drawable numbers)
    (source : Chance.Source State) (lottery : Lottery) (state : State) :
    lottery.handle source again state =
      some (.done ("[LOTTO] Winning numbers: " ++ listed numbers.mergeSort ++ " entered.")
        ({ lottery with winning := numbers.mergeSort }, state)) := by
  rw [handle_winning asks, read, if_pos drawable.mergeSort,
    List.mergeSort_eq_self _ (List.pairwise_mergeSort' _ numbers)]

/-- Printed lists read back. The numerals of numbers of 32 bits, with any blanks around them and
commas between them, are read as these numbers in their order, and so is the list of the log. So the
list in the line of an entry can be entered again: the line is the same, every lottery is left with the
same winning numbers, and the one that has them already is left as it is. -/
theorem listed_read_back :
    (∀ texts values, (∀ value ∈ values, value < UInt32.size) → List.Forall₂ Spaced texts values →
      readNumbers (",".intercalate texts) = values) ∧
    (∀ values, (∀ value ∈ values, value < UInt32.size) → readNumbers (listed values) = values) ∧
    ∀ (State : Type) (source : Chance.Source State) (lottery next : Lottery) block text state after,
      block.command = .inputWinning →
      lottery.handle source block state = some (.done text (next, after)) →
      text = "[LOTTO] Winning numbers: " ++ listed next.winning ++ " entered." ∧
      ∀ again : Block, again.command = .inputWinning → again.text 0 = listed next.winning →
        (∀ other later, Lottery.handle source other again later =
          some (.done text ({ other with winning := next.winning }, later))) ∧
        ∀ later, next.handle source again later = some (.done text (next, later)) := by
  refine ⟨?_, ?_, ?_⟩
  · intro texts values small spaced
    exact readNumbers_join spaced small
  · intro values small
    exact readNumbers_listed small
  · intro State source lottery next block text state after asks done
    have drawable := (accepts_winning_iff asks source lottery state).mp ⟨text, next, after, done⟩
    rw [handle_winning asks, if_pos drawable] at done
    obtain ⟨rfl, rfl, rfl⟩ := Outcome.some_done_inj.mp done
    refine ⟨rfl, fun again asksAgain printed => ?_⟩
    have read : entries again = (entries block).mergeSort := by
      rw [entries, printed]
      exact readNumbers_listed drawable.mergeSort.small
    exact ⟨handle_ordered asksAgain read drawable source,
      handle_ordered asksAgain read drawable source _⟩

/-- Blanks of other kinds and the largest number of 32 bits are read back, and the line of a disorderly
entry is entered once more. -/
theorem listed_read_back_disorderly :
    let block : Block := .bare .inputWinning [.text "45,+2 ,x,1,4,03,5"]
    let again : Block := .bare .inputWinning [.text "1, 2, 3, 4, 5, 45"]
    let line := "[LOTTO] Winning numbers: 1, 2, 3, 4, 5, 45 entered."
    readNumbers (",".intercalate ["\t4294967295", "0\u3000", " 7\n"]) = [4294967295, 0, 7] ∧
      readNumbers (listed [4294967295, 0, 7]) = [4294967295, 0, 7] ∧
      ∃ next, Lottery.empty.handle Chance.least block () = some (.done line (next, ())) ∧
        next.handle Chance.least again () = some (.done line (next, ())) := by
  intro block again line
  obtain ⟨joined, whole, entered⟩ := listed_read_back
  have small : ∀ value ∈ [4294967295, 0, 7], value < UInt32.size := by decide
  have spaced : List.Forall₂ Spaced ["\t4294967295", "0\u3000", " 7\n"] [4294967295, 0, 7] := by
    refine .cons ⟨['\t'], [], ?_, ?_, by decide +kernel⟩
      (.cons ⟨[], ['\u3000'], ?_, ?_, by decide +kernel⟩
        (.cons ⟨[' '], ['\n'], ?_, ?_, by decide +kernel⟩ .nil))
    all_goals exact List.all_eq_true.mp rfl
  refine ⟨joined _ _ small spaced, whole _ small, ?_⟩
  have read : entries block = [45, 2, 1, 4, 3, 5] := by decide +kernel
  have drawable : Drawable (entries block) := by
    rw [read]
    decide
  have sorted : [45, 2, 1, 4, 3, 5].mergeSort = [1, 2, 3, 4, 5, 45] :=
    mergeSort_of_perm (by decide) (by decide)
  have done : Lottery.empty.handle Chance.least block () =
      some (.done line ({ Lottery.empty with winning := [1, 2, 3, 4, 5, 45] }, ())) := by
    rw [handle_winning rfl, if_pos drawable, read, sorted]
    rfl
  obtain ⟨_, repeats⟩ := entered _ _ _ _ _ _ _ _ rfl done
  exact ⟨_, done, (repeats again rfl rfl).2 ()⟩

end Lottery

end Lotto

end MissionScript
