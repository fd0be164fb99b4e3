import Mathlib.Data.List.Induction
import MissionScript.Proofs.LotteryRun

namespace MissionScript.Lotto

private theorem Drawable.mergeSort_sound {numbers : List Nat} (drawable : Drawable numbers) :
    Ticket.Sound numbers.mergeSort where
  length := (List.length_mergeSort _).trans drawable.1
  ascending := mergeSort_ascending drawable.2.1
  inGame number member := isInGame_iff.mpr (drawable.2.2 number (List.mem_mergeSort.mp member))

namespace Lottery

variable {State : Type} {source : Chance.Source State} {start : State}

/-- What every lottery keeps to. -/
structure Sound (lottery : Lottery) : Prop where
  tickets : ∀ ticket ∈ lottery.tickets, ticket.Sound
  limit : lottery.tickets.length ≤ 10000
  spent : lottery.spent.toNat = 1000 * lottery.tickets.length
  winning : lottery.winning = [] ∨ Ticket.Sound lottery.winning
  bonus : ∀ bonus ∈ lottery.bonus, 1 ≤ bonus ∧ bonus ≤ 45

private theorem sound_empty : Sound .empty where
  tickets := by simp [empty]
  limit := Nat.zero_le _
  spent := rfl
  winning := .inl rfl
  bonus := by simp [empty]

/-- The price of a purchase fits into 64 bits. -/
theorem toNat_spent {count : Nat} (few : count ≤ mostTickets) :
    (UInt64.ofNat count * price).toNat = 1000 * count := by
  have most : mostTickets = 10000 := rfl
  have own : (UInt64.ofNat count).toNat = count := UInt64.toNat_ofNat_of_lt' (by
    simp only [UInt64.size]
    omega)
  have each : price.toNat = 1000 := rfl
  rw [UInt64.toNat_mul, own, each, Nat.mod_eq_of_lt (by omega), Nat.mul_comm]

/-- A step keeps a lottery sound. -/
theorem Handled.sound (inRange : source.InRange) {lottery : Lottery} (sound : lottery.Sound)
    (handled : Handled source lottery state block text next after) : next.Sound := by
  cases handled with
  | buy asks asked drawn =>
    obtain ⟨rfl, own⟩ := Ticket.drawMany_sound inRange drawn
    have few := (purchase?_eq_some_iff.mp asked).2.2
    exact { sound with tickets := own, limit := few, spent := toNat_spent few }
  | winning asks drawable => exact { sound with winning := .inr drawable.mergeSort_sound }
  | bonus asks given inGame apart =>
    refine { sound with bonus := ?_ }
    rintro _ ⟨⟩
    exact isInGame_iff.mp inGame
  | check asks checked => exact sound

theorem Reached.sound (inRange : source.InRange) {lottery : Lottery}
    (reached : Reached source start blocks lottery state) : lottery.Sound :=
  reached.keeps Sound sound_empty fun sound handled => handled.sound inRange sound

/-- Every sequence of blocks leads to a lottery, with a source that never runs out. -/
theorem exists_reached (endless : source.Endless) (inRange : source.InRange) (start : State)
    (blocks : List Block) : ∃ lottery state, Reached source start blocks lottery state := by
  induction blocks using List.reverseRecOn with
  | nil => exact ⟨.empty, start, .empty⟩
  | append_singleton blocks block ih =>
    obtain ⟨lottery, state, reached⟩ := ih
    obtain ⟨⟨answer, next, after⟩, handled⟩ :=
      Option.isSome_iff_exists.mp (handle_isSome endless inRange lottery block state)
    exact ⟨next, after, .after reached handled⟩

/-- Every sequence of blocks leads to a sound lottery, and every block has an outcome there: a place
drawn from outside of the pool would leave it without one. -/
theorem reached_sound (endless : source.Endless) (inRange : source.InRange) (start : State)
    (blocks : List Block) :
    (∃ lottery state, Reached source start blocks lottery state) ∧
    ∀ lottery state, Reached source start blocks lottery state →
      lottery.Sound ∧ ∀ block, (lottery.handle source block state).isSome := by
  refine ⟨exists_reached endless inRange start blocks, ?_⟩
  intro lottery state reached
  exact ⟨reached.sound inRange, fun block => handle_isSome endless inRange lottery block state⟩

/-- A bonus number that is missing is refused, and the purchase and the draw behind it go on. -/
theorem reached_sound_refused :
    ∃ lottery, Chance.least.Endless ∧ Chance.least.InRange ∧
      Reached Chance.least () [.bare .inputBonus [], .bare .buyTickets [.number 2],
        .bare .inputWinning [.text "7,6,5,4,3,2"]] lottery () ∧
      lottery.tickets = [[1, 2, 3, 4, 5, 6], [1, 2, 3, 4, 5, 6]] ∧ lottery.Sound ∧
      (lottery.handle Chance.least (.bare .inputBonus [.number 1]) ()).isSome := by
  have asked : purchase? (.bare .buyTickets [.number 2]) = some 2 := by decide +kernel
  have drawable : Drawable (entries (.bare .inputWinning [.text "7,6,5,4,3,2"])) := by
    decide +kernel
  have refused : Reached Chance.least () [.bare .inputBonus []] .empty () := .after .empty rfl
  have reached := (refused.step (.buy rfl asked (Ticket.drawMany_least 2))).step
    (.winning rfl drawable)
  obtain ⟨sound, total⟩ :=
    (reached_sound Chance.least_endless Chance.least_inRange () _).2 _ _ reached
  exact ⟨_, Chance.least_endless, Chance.least_inRange, reached, rfl, sound, total _⟩

end Lottery

end MissionScript.Lotto
