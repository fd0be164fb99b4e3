import Mathlib.Tactic.Ring
import MissionScript.Chance.Keystream

/-! Draws keep to their ranges. A source of words draws by the fraction that two words write, scaled
to the range and rounded down. The second word is taken only where it can matter, and the carry from
it never leads out of the range. -/
namespace MissionScript.Chance

private theorem toNat_widened (left right : UInt32) :
    (widened left right).1.toNat = left.toNat * right.toNat / 2 ^ 32 ∧
      (widened left right).2.toNat = left.toNat * right.toNat % 2 ^ 32 := by
  have product : left.toNat * right.toNat < 2 ^ 32 * 2 ^ 32 :=
    Nat.mul_lt_mul'' left.toNat_lt right.toNat_lt
  have whole : (left.toUInt64 * right.toUInt64).toNat = left.toNat * right.toNat := by
    rw [UInt64.toNat_mul, UInt32.toNat_toUInt64, UInt32.toNat_toUInt64]
    exact Nat.mod_eq_of_lt product
  constructor
  · rw [widened, UInt64.toNat_toUInt32, UInt64.toNat_shiftRight, whole, Nat.shiftRight_eq_div_pow]
    exact Nat.mod_eq_of_lt (Nat.div_lt_of_lt_mul product)
  · rw [widened, UInt64.toNat_toUInt32, whole]

private theorem carries_iff (left right : UInt32) :
    carries left right = true ↔ 2 ^ 32 ≤ left.toNat + right.toNat := by
  have bound := right.toNat_lt
  rw [carries, decide_eq_true_iff, UInt32.lt_iff_toNat_lt, UInt32.toNat_add]
  omega

/-- How many numbers a range holds. -/
def rangeSize (low high : UInt32) : Nat := high.toNat - low.toNat + 1

/-- The number of a range that stands at the fraction of two words, rounded down. -/
def scaled (low high first second : UInt32) : Nat :=
  low.toNat + (first.toNat * 2 ^ 32 + second.toNat) * rangeSize low high / 2 ^ 64

/-- The second word can only matter where the low half of the first product is close to its end. -/
def NeedsSecond (low high first : UInt32) : Prop :=
  2 ^ 32 < first.toNat * rangeSize low high % 2 ^ 32 + rangeSize low high

instance (low high first : UInt32) : Decidable (NeedsSecond low high first) :=
  inferInstanceAs (Decidable (_ < _))

variable {low high : UInt32}

private theorem high_lt_rangeSize (low high word : UInt32) :
    word.toNat * rangeSize low high / 2 ^ 32 < rangeSize low high :=
  Nat.div_lt_of_lt_mul (Nat.mul_lt_mul_of_pos_right word.toNat_lt (Nat.succ_pos _))

private theorem scaled_le (fits : low ≤ high) (first second : UInt32) :
    scaled low high first second ≤ high.toNat := by
  have order : low.toNat ≤ high.toNat := UInt32.le_iff_toNat_le.mp fits
  have fraction : first.toNat * 2 ^ 32 + second.toNat < 2 ^ 64 := by
    have one := first.toNat_lt
    have two := second.toNat_lt
    omega
  have below : (first.toNat * 2 ^ 32 + second.toNat) * rangeSize low high / 2 ^ 64 <
      rangeSize low high :=
    Nat.div_lt_of_lt_mul (Nat.mul_lt_mul_of_pos_right fraction (Nat.succ_pos _))
  unfold rangeSize at below
  unfold scaled rangeSize
  omega

/-- The fraction of two words, word by word: the high half of the first product, and a carry when
the high half of the second product is added to its low half. -/
private theorem scaled_eq (low high first second : UInt32) :
    scaled low high first second = low.toNat + (first.toNat * rangeSize low high / 2 ^ 32 +
      (first.toNat * rangeSize low high % 2 ^ 32 +
        second.toNat * rangeSize low high / 2 ^ 32) / 2 ^ 32) := by
  have product : (first.toNat * 2 ^ 32 + second.toNat) * rangeSize low high =
      first.toNat * rangeSize low high * 2 ^ 32 + second.toNat * rangeSize low high := by ring
  rw [scaled, product]
  omega

private theorem scaled_of_first {first : UInt32} (enough : ¬ NeedsSecond low high first)
    (second : UInt32) :
    scaled low high first second = low.toNat + first.toNat * rangeSize low high / 2 ^ 32 := by
  have small := high_lt_rangeSize low high second
  unfold NeedsSecond at enough
  rw [scaled_eq]
  omega

/-- The size of a range is a word, except for the range of all words, where zero stands for it. -/
private theorem size_cases (fits : low ≤ high) :
    (high - low + 1 = 0 ∧ low = 0 ∧ rangeSize low high = 2 ^ 32) ∨
      (high - low + 1 ≠ 0 ∧ (high - low + 1).toNat = rangeSize low high) := by
  have bound := high.toNat_lt
  have wrapped : (high - low + 1).toNat = rangeSize low high % 2 ^ 32 := by
    rw [UInt32.toNat_add, UInt32.toNat_sub_of_le _ _ fits]
    rfl
  by_cases all : low.toNat = 0 ∧ high.toNat + 1 = 2 ^ 32
  · have size : rangeSize low high = 2 ^ 32 := by
      unfold rangeSize
      omega
    rw [size] at wrapped
    exact .inl ⟨UInt32.toNat_inj.mp wrapped, UInt32.toNat_inj.mp all.1, size⟩
  · have less : rangeSize low high < 2 ^ 32 := by
      unfold rangeSize
      omega
    rw [Nat.mod_eq_of_lt less] at wrapped
    refine .inr ⟨fun zero => ?_, wrapped⟩
    rw [zero] at wrapped
    exact Nat.succ_ne_zero _ wrapped.symm

private theorem needsSecond_iff {size : UInt32} (exact : size.toNat = rangeSize low high)
    (first : UInt32) :
    0 - size < (widened first size).2 ↔ NeedsSecond low high first := by
  have bound := size.toNat_lt
  have positive : 0 < rangeSize low high := Nat.succ_pos _
  rw [UInt32.lt_iff_toNat_lt, (toNat_widened _ _).2, UInt32.toNat_sub, exact, NeedsSecond]
  rw [exact] at bound
  have complement : (2 ^ 32 - rangeSize low high + (0 : UInt32).toNat) % 2 ^ 32 =
      2 ^ 32 - rangeSize low high := by
    rw [UInt32.toNat_zero]
    omega
  rw [complement]
  omega

/-- The words of an answer add up without wrapping around, because the fraction is in the range. -/
private theorem toNat_corrected (fits : low ≤ high) {size : UInt32}
    (exact : size.toNat = rangeSize low high) (first second : UInt32) :
    (low + ((widened first size).1 +
        if carries (widened first size).2 (widened second size).1 then 1 else 0)).toNat =
      scaled low high first second := by
  have inside := scaled_le fits first second
  have bound := high.toNat_lt
  have offset := (toNat_widened first size).1
  have carry : (if carries (widened first size).2 (widened second size).1 then 1 else 0 :
      UInt32).toNat = (first.toNat * rangeSize low high % 2 ^ 32 +
        second.toNat * rangeSize low high / 2 ^ 32) / 2 ^ 32 := by
    have small := high_lt_rangeSize low high second
    have most := size.toNat_lt
    have carried := carries_iff (widened first size).2 (widened second size).1
    rw [(toNat_widened first size).2, (toNat_widened second size).1, exact] at carried
    rw [exact] at most
    split
    · rename_i wraps
      have := carried.mp wraps
      rw [UInt32.toNat_one]
      omega
    · rename_i stays
      have := mt carried.mpr stays
      rw [UInt32.toNat_zero]
      omega
  rw [exact] at offset
  rw [UInt32.toNat_add, UInt32.toNat_add, offset, carry]
  rw [scaled_eq] at inside ⊢
  omega

/-- What is drawn from a range of more than one number, and which words are taken for it. -/
theorem drawUniform_eq {State : Type} (next : State → UInt32 × State) (less : low < high)
    (state : State) :
    let first := next state
    let second := next first.2
    (drawUniform next low high state).1.toNat = scaled low high first.1 second.1 ∧
      (drawUniform next low high state).2 =
        if NeedsSecond low high first.1 then second.2 else first.2 := by
  intro first second
  have fits : low ≤ high := UInt32.le_of_lt less
  have several : ¬ high ≤ low := UInt32.not_le.mpr less
  rcases size_cases fits with ⟨zero, rfl, size⟩ | ⟨word, exact⟩
  · have enough : ¬ NeedsSecond 0 high first.1 := by
      rw [NeedsSecond, size]
      omega
    rw [scaled_of_first enough, if_neg enough, size]
    simp only [drawUniform, if_neg several, if_pos zero, UInt32.toNat_zero]
    refine ⟨?_, rfl⟩
    change first.1.toNat = _
    omega
  · by_cases close : NeedsSecond low high first.1
    · have taken := (needsSecond_iff exact first.1).mpr close
      rw [if_pos close, ← toNat_corrected fits exact]
      simp only [drawUniform, if_neg several, if_neg word]
      rw [if_pos taken]
      exact ⟨rfl, rfl⟩
    · have left := mt (needsSecond_iff exact first.1).mp close
      have inside := scaled_le fits first.1 second.1
      have bound := high.toNat_lt
      have offset := (toNat_widened first.1 (high - low + 1)).1
      rw [if_neg close]
      rw [exact] at offset
      rw [scaled_of_first close] at inside ⊢
      simp only [drawUniform, if_neg several, if_neg word]
      rw [if_neg left, UInt32.toNat_add, offset]
      exact ⟨Nat.mod_eq_of_lt (by omega), rfl⟩

/-- What is owed for a range: one of its numbers, and the low end where there is no other. -/
structure KeepsRange (low high value : UInt32) : Prop where
  inside : low ≤ high → low ≤ value ∧ value ≤ high
  single : high ≤ low → value = low

private theorem keepsRange_low (low high : UInt32) : KeepsRange low high low :=
  ⟨fun fits => ⟨UInt32.le_refl low, fits⟩, fun _ => rfl⟩

private theorem keepsRange_moved (low high value : UInt32) :
    KeepsRange low high (max low (min value (max low high))) := by
  refine ⟨fun fits => moved_inRange fits value, fun single => ?_⟩
  have top : max low high = low := by
    rw [show max low high = if low ≤ high then high else low from rfl]
    split
    · rename_i fits
      exact UInt32.le_antisymm single fits
    · rfl
  obtain ⟨least, most⟩ := moved_inRange (UInt32.le_refl low) value
  rw [show max low low = low from if_pos (UInt32.le_refl low)] at least most
  rw [top]
  exact UInt32.le_antisymm most least

section Words

variable {State : Type} (next : State → UInt32 × State) (low high : UInt32) (state : State)

private theorem drawUniform_of_single (single : high ≤ low) :
    drawUniform next low high state = (low, state) := if_pos single

private theorem keepsRange_drawUniform : KeepsRange low high (drawUniform next low high state).1 := by
  by_cases single : high ≤ low
  · rw [drawUniform_of_single next low high state single]
    exact keepsRange_low low high
  · have less : low < high := UInt32.not_le.mp single
    have fits := UInt32.le_of_lt less
    have drawn := (drawUniform_eq next less state).1
    refine ⟨fun _ => ⟨?_, ?_⟩, fun same => absurd same single⟩
    · rw [UInt32.le_iff_toNat_le, drawn]
      exact Nat.le_add_right ..
    · rw [UInt32.le_iff_toNat_le, drawn]
      exact scaled_le fits ..

/-- Whatever the words of a stream are, the source behind it is fit for every run. -/
theorem ofWords_inRange : (ofWords next).InRange := by
  intro low high state fits value after drawn
  obtain rfl : (drawUniform next low high state).1 = value :=
    congrArg Prod.fst (Option.some.inj drawn)
  exact (keepsRange_drawUniform next low high state).inside fits

theorem ofWords_endless : (ofWords next).Endless := fun _ _ _ => rfl

end Words

/-- Every source keeps the contract of a draw, for all ranges. The least source and a replayed list
with a value left answer a number of the range, and so does the source behind any stream of words: it
takes no word where the range has one number at most. From a larger range it draws the fraction of
two words, scaled and rounded down, so that nothing wraps around; it takes the second word only where
this one can matter. -/
theorem draws_keep_range (low high : UInt32) :
    (∀ state, ∃ value, least.draw low high state = some (value, state) ∧
      KeepsRange low high value) ∧
    (∀ first rest, ∃ value, replay.draw low high (first :: rest) = some (value, rest) ∧
      KeepsRange low high value) ∧
    ∀ (State : Type) (next : State → UInt32 × State) state, ∃ value after,
      (ofWords next).draw low high state = some (value, after) ∧ KeepsRange low high value ∧
      (high ≤ low → after = state) ∧
      (low < high →
        let first := next state
        let second := next first.2
        value.toNat = low.toNat + (first.1.toNat * 2 ^ 32 + second.1.toNat) *
          (high.toNat - low.toNat + 1) / 2 ^ 64 ∧
        after = if NeedsSecond low high first.1 then second.2 else first.2) := by
  refine ⟨?_, ?_, ?_⟩
  · intro state
    exact ⟨low, rfl, keepsRange_low low high⟩
  · intro first rest
    exact ⟨_, rfl, keepsRange_moved low high first⟩
  · intro State next state
    refine ⟨_, _, rfl, keepsRange_drawUniform next low high state, ?_, ?_⟩
    · intro single
      exact congrArg Prod.snd (drawUniform_of_single next low high state single)
    · intro less
      exact drawUniform_eq next less state

/-- The carry of a second word leads up to the highest number, and from there no carry comes. -/
theorem draws_keep_range_carried :
    let next : List UInt32 → UInt32 × List UInt32 := fun words => (words.headD 0, words.tail)
    (∃ value, (ofWords next).draw 1 45 [4199523578, 4294967295, 7] = some (value, [7]) ∧
      1 ≤ value ∧ value ≤ 45 ∧ value.toNat = 45) ∧
    (∃ value, (ofWords next).draw 1 45 [4294967295, 4294967295, 7] =
        some (value, [4294967295, 7]) ∧
      1 ≤ value ∧ value ≤ 45 ∧ value.toNat = 45) ∧
    ∃ value, (ofWords next).draw 45 1 [7] = some (value, [7]) ∧ value = 45 := by
  intro next
  obtain ⟨_, _, words⟩ := draws_keep_range 1 45
  obtain ⟨_, _, turned⟩ := draws_keep_range 45 1
  have fits : (1 : UInt32) ≤ 45 := by decide
  have less : (1 : UInt32) < 45 := by decide
  refine ⟨?_, ?_, ?_⟩
  · obtain ⟨value, after, drawn, keeps, _, told⟩ :=
      words _ next [4199523578, 4294967295, 7]
    obtain ⟨number, rest⟩ := told less
    have needed : NeedsSecond 1 45 4199523578 := by decide
    obtain rfl : after = [7] := rest.trans (if_pos needed)
    exact ⟨value, drawn, (keeps.inside fits).1, (keeps.inside fits).2, number.trans (by decide)⟩
  · obtain ⟨value, after, drawn, keeps, _, told⟩ :=
      words _ next [4294967295, 4294967295, 7]
    obtain ⟨number, rest⟩ := told less
    have enough : ¬ NeedsSecond 1 45 4294967295 := by decide
    obtain rfl : after = [4294967295, 7] := rest.trans (if_neg enough)
    exact ⟨value, drawn, (keeps.inside fits).1, (keeps.inside fits).2, number.trans (by decide)⟩
  · obtain ⟨value, after, drawn, keeps, still, _⟩ := turned _ next [7]
    have single : (1 : UInt32) ≤ 45 := fits
    obtain rfl : after = [7] := still single
    exact ⟨value, drawn, keeps.single single⟩

end MissionScript.Chance
