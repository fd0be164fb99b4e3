import MissionScript.Proofs.LotteryStep
import MissionScript.Proofs.TextParts

/-! Winning numbers as a text. Its entries are read as integers of 32 bits, so one that is larger is
passed over like an entry that is no integer at all, and the others decide. -/
namespace MissionScript

namespace Numeral

/-- The digits of a numeral, which a plus sign may precede. -/
def digitsOf : List Char → List Char
  | '+' :: digits => digits
  | digits => digits

/-- The integer that a text writes, however large it is: one or more ASCII digits, with at most a plus
sign before them. -/
def integer? (chars : List Char) : Option Nat :=
  let digits := digitsOf chars
  if digits ≠ [] ∧ digits.all Char.isDigit then some (Nat.ofDigitChars 10 digits 0) else none

private theorem le_ofDigitChars (digits : List Char) (value : Nat) :
    value ≤ Nat.ofDigitChars 10 digits value := by
  induction digits generalizing value with
  | nil => exact Nat.le_refl value
  | cons char rest ih =>
    rw [Nat.ofDigitChars_cons]
    exact Nat.le_trans (by omega) (ih _)

private theorem readDigits_toOption {largest value : Nat} (start : value ≤ largest)
    (chars : List Char) :
    (readDigits largest value chars).toOption =
      if chars.all Char.isDigit ∧ Nat.ofDigitChars 10 chars value ≤ largest then
        some (Nat.ofDigitChars 10 chars value)
      else none := by
  induction chars generalizing value with
  | nil => simp [readDigits, Except.toOption, start]
  | cons char rest ih =>
    unfold readDigits
    rw [digitValue?_eq, List.all_cons, Nat.ofDigitChars_cons, Nat.mul_comm 10 value]
    cases digit : char.isDigit with
    | false => rfl
    | true =>
      simp only [if_true, Bool.true_and]
      by_cases large : largest < value * 10 + (char.toNat - '0'.toNat)
      · -- The digits that follow leave the number too large.
        have least := le_ofDigitChars rest (value * 10 + (char.toNat - '0'.toNat))
        rw [if_pos large, if_neg fun fits => absurd fits.2 (by omega)]
        rfl
      · rw [if_neg large]
        exact ih (Nat.le_of_not_lt large)

/-- What is read up to a largest value are the integers up to it. -/
theorem readUnsigned_toOption (largest : Nat) (chars : List Char) :
    (readUnsigned largest chars).toOption = (integer? chars).filter (· ≤ largest) := by
  have read (digits : List Char) (nonempty : digits ≠ []) (own : digitsOf chars = digits) :
      (readDigits largest 0 digits).toOption = (integer? chars).filter (· ≤ largest) := by
    rw [readDigits_toOption (Nat.zero_le _), integer?, own]
    by_cases all : digits.all Char.isDigit = true
    · simp [all, nonempty, Option.filter]
    · simp [all]
  unfold readUnsigned
  split
  · rfl
  · rfl
  · rename_i digits other
    exact read digits (by rintro rfl; exact other rfl) rfl
  · rename_i nonempty _ noSign
    refine read _ nonempty ?_
    unfold digitsOf
    split
    · exact absurd rfl (noSign _)
    · rfl

end Numeral

namespace Lotto

variable {State : Type}

/-- The integers among the entries of a text, between commas and blanks. -/
def integers (text : String) : List Nat :=
  (text.toList.splitOn ',').filterMap fun entry => Numeral.integer? (Text.trimmed entry)

/-- The integers of 32 bits are read, and no others. -/
theorem readNumbers_eq (text : String) : readNumbers text = (integers text).filter (· < UInt32.size) := by
  rw [readNumbers, integers, Text.fields_eq_splitOn, List.filter_filterMap]
  refine congrArg (List.filterMap · _) (funext fun entry => ?_)
  rw [Numeral.readUnsigned_toOption]
  refine congrArg (Option.filter · _) (funext fun value => decide_eq_decide.mpr ?_)
  exact Nat.lt_succ_iff.symm

namespace Lottery

/-- The block succeeds. -/
def Accepts (source : Chance.Source State) (lottery : Lottery) (block : Block) (state : State) : Prop :=
  ∃ text next after, lottery.handle source block state = some (.done text (next, after))

/-- Six numbers are entered in order, and other ones are refused. -/
theorem handle_winning {block : Block} (asks : block.command = .inputWinning)
    (source : Chance.Source State) (lottery : Lottery) (state : State) :
    lottery.handle source block state = some (
      if Drawable (entries block) then
        .done ("[LOTTO] Winning numbers: " ++ listed (entries block).mergeSort ++ " entered.")
          ({ lottery with winning := (entries block).mergeSort }, state)
      else .refused .winningNumbers (lottery, state)) := by
  have entered := enterWinning_eq lottery (entries block)
  unfold entries at entered ⊢
  simp only [handle, asks, entered]
  split <;> rfl

theorem accepts_winning_iff {block : Block} (asks : block.command = .inputWinning)
    (source : Chance.Source State) (lottery : Lottery) (state : State) :
    lottery.Accepts source block state ↔ Drawable (entries block) := by
  unfold Accepts
  rw [handle_winning asks]
  by_cases drawable : Drawable (entries block)
  · rw [if_pos drawable]
    exact iff_of_true ⟨_, _, _, rfl⟩ drawable
  · rw [if_neg drawable]
    refine iff_of_false ?_ drawable
    rintro ⟨text, next, after, done⟩
    simp [Outcome.refused, Outcome.done] at done

end Lottery

theorem Drawable.small {numbers : List Nat} (drawable : Drawable numbers) :
    ∀ number ∈ numbers, number < UInt32.size := by
  intro number member
  have most := (drawable.2.2 number member).2
  exact Nat.lt_of_le_of_lt most (by decide)

private theorem Drawable.filter_eq {numbers : List Nat} (drawable : Drawable numbers) :
    numbers.filter (· < UInt32.size) = numbers :=
  List.filter_eq_self.mpr fun number member => decide_eq_true (drawable.small number member)

private theorem drawable_iff_of_filter {numbers : List Nat}
    (drawable : Drawable (numbers.filter (· < UInt32.size))) :
    Drawable numbers ↔ ∀ number ∈ numbers, number < UInt32.size := by
  constructor
  · exact Drawable.small
  · intro small
    rwa [List.filter_eq_self.mpr fun number member => decide_eq_true (small number member)] at drawable

/-- Leaving large numbers out makes a difference exactly where there are some and the others can be drawn. -/
private theorem drawable_filter_iff (numbers : List Nat) :
    (Drawable (numbers.filter (· < UInt32.size)) ↔ Drawable numbers) ↔
      ¬ (Drawable (numbers.filter (· < UInt32.size)) ∧ ∃ number ∈ numbers, UInt32.size ≤ number) := by
  constructor
  · rintro same ⟨drawable, number, member, large⟩
    have small := (drawable_iff_of_filter drawable).mp (same.mp drawable) number member
    exact Nat.not_lt_of_le large small
  · intro others
    constructor
    · intro drawable
      refine (drawable_iff_of_filter drawable).mpr fun number member => ?_
      exact Nat.lt_of_not_le fun large => others ⟨drawable, number, member, large⟩
    · intro drawable
      rw [drawable.filter_eq]
      exact drawable

namespace Lottery

/-- Which integers of a text are entered as winning numbers. The text is accepted exactly if its integers
below 2^32 are six different numbers of the game, and these are stored in ascending order. So all its
integers decide, except where one of them has more than 32 bits and the others can be drawn. -/
theorem winning_of_integers {block : Block} (asks : block.command = .inputWinning)
    (source : Chance.Source State) (lottery : Lottery) (state : State) :
    let given := integers (block.text 0)
    let kept := given.filter (· < UInt32.size)
    (lottery.Accepts source block state ↔ Drawable kept) ∧
    (∀ text next after, lottery.handle source block state = some (.done text (next, after)) →
      next = { lottery with winning := kept.mergeSort } ∧ kept.mergeSort.Perm kept ∧
        kept.mergeSort.Pairwise (· < ·) ∧ after = state) ∧
    (¬ Drawable kept →
      lottery.handle source block state = some (.refused .winningNumbers (lottery, state))) ∧
    (Drawable given → lottery.Accepts source block state ∧ kept = given) ∧
    ((∃ number ∈ given, number < UInt32.size ∧ ¬ (1 ≤ number ∧ number ≤ highest)) →
      ¬ lottery.Accepts source block state) ∧
    ((lottery.Accepts source block state ↔ Drawable given) ↔
      ¬ (Drawable kept ∧ ∃ number ∈ given, UInt32.size ≤ number)) := by
  intro given kept
  have read : entries block = kept := readNumbers_eq (block.text 0)
  have accepts := accepts_winning_iff asks source lottery state
  have handled := handle_winning asks source lottery state
  rw [read] at accepts handled
  refine ⟨accepts, ?_, ?_, ?_, ?_, ?_⟩
  · intro text next after done
    have drawable := accepts.mp ⟨text, next, after, done⟩
    rw [handled, if_pos drawable] at done
    obtain ⟨_, rfl, rfl⟩ := Outcome.some_done_inj.mp done
    exact ⟨rfl, List.mergeSort_perm .., mergeSort_ascending drawable.2.1, rfl⟩
  · intro refused
    rw [handled, if_neg refused]
  · intro drawable
    have same : kept = given := drawable.filter_eq
    exact ⟨accepts.mpr (same ▸ drawable), same⟩
  · rintro ⟨number, member, small, outside⟩ accepted
    have inside : number ∈ kept := List.mem_filter.mpr ⟨member, decide_eq_true small⟩
    exact outside ((accepts.mp accepted).2.2 number inside)
  · rw [accepts]
    exact drawable_filter_iff given

/-- Signs, leading zeros and blanks are read, and entries that are no integers are passed over. -/
theorem winning_of_integers_signed :
    let block : Block := .bare .inputWinning [.text "42,+16, x,,023,15 ,8,4,-1"]
    integers (block.text 0) = [42, 16, 23, 15, 8, 4] ∧
      Lottery.empty.Accepts Chance.least block () ∧
      ∀ text next, Lottery.empty.handle Chance.least block () = some (.done text (next, ())) →
        next.winning = [4, 8, 15, 16, 23, 42] := by
  intro block
  have asks : block.command = .inputWinning := rfl
  have given : integers (block.text 0) = [42, 16, 23, 15, 8, 4] := by decide +kernel
  have drawable : Drawable (integers (block.text 0)) := by
    rw [given]
    decide
  have sorted : [42, 16, 23, 15, 8, 4].mergeSort = [4, 8, 15, 16, 23, 42] :=
    mergeSort_of_perm (by decide) (by decide)
  obtain ⟨_, stored, _, accepts, _⟩ := winning_of_integers asks Chance.least Lottery.empty ()
  obtain ⟨accepted, kept⟩ := accepts drawable
  refine ⟨given, accepted, fun text next done => ?_⟩
  obtain ⟨rfl, _⟩ := stored text next () done
  rw [kept, given, sorted]

/-- An entry of more than 32 bits is passed over, and the six others are entered. -/
theorem large_integer_ignored :
    let block : Block := .bare .inputWinning [.text "4294967296,1,2,3,4,5,6"]
    integers (block.text 0) = [4294967296, 1, 2, 3, 4, 5, 6] ∧
      ¬ Drawable (integers (block.text 0)) ∧
      Lottery.empty.handle Chance.least block () =
        some (.done "[LOTTO] Winning numbers: 1, 2, 3, 4, 5, 6 entered."
          ({ Lottery.empty with winning := [1, 2, 3, 4, 5, 6] }, ())) := by
  intro block
  have given : integers (block.text 0) = [4294967296, 1, 2, 3, 4, 5, 6] := by decide +kernel
  have read : entries block = [1, 2, 3, 4, 5, 6] := by
    rw [entries, readNumbers_eq, given]
    decide
  have sorted : [1, 2, 3, 4, 5, 6].mergeSort = [1, 2, 3, 4, 5, 6] :=
    List.mergeSort_of_pairwise (by decide)
  have drawable : Drawable (entries block) := by
    rw [read]
    decide
  refine ⟨given, ?_, ?_⟩
  · rw [given]
    decide
  · rw [handle_winning rfl, if_pos drawable, read, sorted]
    rfl

end Lottery

end Lotto

end MissionScript
