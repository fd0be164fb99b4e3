import MissionScript.Proofs.LotteryStep

/-! The lotteries that blocks lead to. A bonus number is checked against the draw when it is
entered, but a draw that is entered later is not checked against the bonus number: what holds of the
two is exactly what this leaves. -/
namespace MissionScript.Lotto

private theorem rankOf_eq_second_iff {winning : List Nat} {bonus : Nat} {ticket : Ticket} :
    rankOf winning bonus ticket = some .second ↔
      ticket.countP (· ∈ winning) = 5 ∧ bonus ∈ ticket := by
  unfold rankOf Rank.ofMatches?
  split <;> simp_all

/-- A ticket of the second rank has five winning numbers. The one left is the bonus number, unless
that is a winning number itself. -/
private theorem left_of_second {winning : List Nat} {bonus : Nat} {ticket : Ticket}
    (sound : ticket.Sound)
    (second : rankOf winning bonus ticket = some .second) :
    ticket.countP (· ∈ winning) = 5 ∧
      (ticket.filter (· ∉ winning) = [bonus] ↔ bonus ∉ winning) := by
  obtain ⟨matched, holds⟩ := rankOf_eq_second_iff.mp second
  refine ⟨matched, ?_⟩
  have parts := List.length_eq_countP_add_countP (l := ticket) (· ∈ winning)
  have single : (ticket.filter (· ∉ winning)).length = 1 := by
    rw [← List.countP_eq_length_filter]
    have six : ticket.length = 6 := sound.length
    simp only [decide_eq_true_eq] at parts
    omega
  obtain ⟨other, only⟩ := List.length_eq_one_iff.mp single
  have member : bonus ∈ ticket.filter (· ∉ winning) ↔ bonus ∉ winning := by simp [holds]
  rw [← member, only]
  simp [eq_comm]

namespace Lottery

variable {State : Type} {source : Chance.Source State} {start : State}

/-- The lotteries that blocks lead to from an empty one, the blocks that fail included. -/
inductive Reached (source : Chance.Source State) (start : State) :
    List Block → Lottery → State → Prop where
  | empty : Reached source start [] .empty start
  | after (reached : Reached source start before lottery state)
      (handled : lottery.handle source block state = some ⟨answer, next, later⟩) :
      Reached source start (before ++ [block]) next later

theorem Reached.step {lottery : Lottery} (reached : Reached source start before lottery state)
    (handled : Handled source lottery state block text next later) :
    Reached source start (before ++ [block]) next later := .after reached handled.done

/-- What holds of an empty lottery and is kept by every step holds of all lotteries reached. -/
theorem Reached.keeps (Holds : Lottery → Prop) (empty : Holds .empty)
    (step : ∀ {lottery state block text next after}, Holds lottery →
      Handled source lottery state block text next after → Holds next)
    {lottery : Lottery} (reached : Reached source start blocks lottery state) : Holds lottery := by
  induction reached with
  | empty => exact empty
  | after reached handled ih =>
    rcases handle_cases handled with ⟨text, _, done⟩ | ⟨fault, _, rfl, _⟩
    · exact step ih done
    · exact ih

private theorem Reached.tickets_sound (inRange : source.InRange) {lottery : Lottery}
    (reached : Reached source start blocks lottery state) :
    ∀ ticket ∈ lottery.tickets, ticket.Sound := by
  refine reached.keeps (fun lottery => ∀ ticket ∈ lottery.tickets, ticket.Sound) ?_ ?_
  · simp [Lottery.empty]
  intro lottery state block text next after sound handled
  rcases handled.tickets_eq inRange with ⟨_, _, fresh⟩ | ⟨_, same⟩
  · exact fresh
  · rw [same]
    exact sound

/-- The bonus number is no winning number. -/
def BonusApart (lottery : Lottery) : Prop := ∀ bonus ∈ lottery.bonus, bonus ∉ lottery.winning

/-- The block enters a draw that lists the bonus number in force. -/
def DrawsBonus (lottery : Lottery) (block : Block) : Prop :=
  block.command = .inputWinning ∧ Drawable (entries block) ∧
    ∃ bonus ∈ lottery.bonus, bonus ∈ entries block

private theorem Handled.bonusApart_iff {lottery : Lottery} (apart : lottery.BonusApart)
    (handled : Handled source lottery state block text next after) :
    next.BonusApart ↔ ¬ lottery.DrawsBonus block := by
  rcases handled.winning_eq with ⟨asks, drawable, drawn⟩ | ⟨noDraw, kept⟩
  · rcases handled.bonus_eq with ⟨asksBonus, _⟩ | ⟨_, same⟩
    · simp [asks] at asksBonus
    · simp [BonusApart, DrawsBonus, asks, drawable, drawn, same]
  · refine iff_of_true ?_ (fun draws => noDraw draws.1)
    rcases handled.bonus_eq with ⟨_, number, _, _, absent, given⟩ | ⟨_, same⟩
    · intro bonus member
      rw [given, Option.mem_some_iff] at member
      rw [kept, ← member]
      exact absent
    · intro bonus member
      rw [kept]
      exact apart bonus (same ▸ member)

/-- Along a sequence of blocks the bonus number stays apart exactly if no block draws it. -/
theorem bonusApart_throughout_iff (blocks : List Block) :
    (∀ before lottery state, before <+: blocks → Reached source start before lottery state →
      lottery.BonusApart) ↔
    ∀ before block lottery state, before ++ [block] <+: blocks →
      Reached source start before lottery state → ¬ lottery.DrawsBonus block := by
  constructor
  · intro apart before block lottery state inside reached draws
    have handled : Handled source lottery state block _ _ state := .winning draws.1 draws.2.1
    have next := apart _ _ _ inside (reached.step handled)
    have before := apart _ _ _ ((List.prefix_append before [block]).trans inside) reached
    exact (handled.bonusApart_iff before).mp next draws
  · intro quiet before lottery state inside reached
    induction reached with
    | empty => simp [BonusApart, Lottery.empty]
    | @after before lottery state block answer next later reached handled ih =>
      have apart := ih ((List.prefix_append before [block]).trans inside)
      rcases handle_cases handled with ⟨text, _, done⟩ | ⟨fault, _, rfl, _⟩
      · exact (done.bonusApart_iff apart).mpr (quiet before block lottery state inside reached)
      · exact apart

/-- Along a sequence of blocks the bonus number stays apart from the winning numbers exactly if no
draw that is entered lists the bonus number in force. A ticket of the second rank always has five
winning numbers, and the one left is the bonus number exactly if that is apart. -/
theorem bonus_stays_apart_iff {source : Chance.Source State} (inRange : source.InRange)
    (start : State) (blocks : List Block) :
    ((∀ before lottery state, before <+: blocks → Reached source start before lottery state →
        lottery.BonusApart) ↔
      ∀ before block lottery state, before ++ [block] <+: blocks →
        Reached source start before lottery state → ¬ lottery.DrawsBonus block) ∧
    ∀ lottery state, Reached source start blocks lottery state →
      ∀ bonus ∈ lottery.bonus, ∀ ticket ∈ lottery.tickets,
        rankOf lottery.winning bonus ticket = some .second →
        ticket.countP (· ∈ lottery.winning) = 5 ∧
          (ticket.filter (· ∉ lottery.winning) = [bonus] ↔ bonus ∉ lottery.winning) := by
  refine ⟨bonusApart_throughout_iff blocks, ?_⟩
  intro lottery state reached bonus given ticket member second
  exact left_of_second (reached.tickets_sound inRange ticket member) second

private theorem entries_draw : entries (.bare .inputWinning [.text "2,3,4,5,6,7"]) =
    [2, 3, 4, 5, 6, 7] := by decide +kernel

private theorem entered_draw {lottery : Lottery}
    (reached : Reached source start before lottery state) :
    Reached source start (before ++ [.bare .inputWinning [.text "2,3,4,5,6,7"]])
      { lottery with winning := [2, 3, 4, 5, 6, 7] } state := by
  have sorted : [2, 3, 4, 5, 6, 7].mergeSort = [2, 3, 4, 5, 6, 7] :=
    List.mergeSort_of_pairwise (by decide)
  have drawable : Drawable (entries (.bare .inputWinning [.text "2,3,4,5,6,7"])) := by
    rw [entries_draw]
    decide
  rw [← sorted, ← entries_draw]
  exact reached.step (.winning rfl drawable)

/-- The draw first, then the bonus number, then a ticket of the second rank. -/
theorem bonus_stays_apart_six :
    ∃ lottery, Chance.least.InRange ∧
      Reached Chance.least () [.bare .inputWinning [.text "2,3,4,5,6,7"],
        .bare .inputBonus [.number 1], .bare .buyTickets [.text "1"]] lottery () ∧
      lottery.bonus = some 1 ∧ lottery.tickets = [[1, 2, 3, 4, 5, 6]] ∧
      [1, 2, 3, 4, 5, 6].countP (· ∈ lottery.winning) = 5 ∧
      [1, 2, 3, 4, 5, 6].filter (· ∉ lottery.winning) = [1] := by
  have given : bonus? (.bare .inputBonus [.number 1]) = some 1 := by decide +kernel
  have asked : purchase? (.bare .buyTickets [.text "1"]) = some 1 := by decide +kernel
  have entered : Reached Chance.least () [.bare .inputWinning [.text "2,3,4,5,6,7"]] _ () :=
    entered_draw .empty
  have reached := (entered.step (.bonus rfl given rfl (by decide))).step
    (.buy rfl asked (Ticket.drawMany_least 1))
  have second := (bonus_stays_apart_iff Chance.least_inRange () _).2 _ _ reached 1 rfl
    [1, 2, 3, 4, 5, 6] (by decide) (by decide)
  exact ⟨_, Chance.least_inRange, reached, rfl, rfl, second.1, second.2.mpr (by decide)⟩

/-- The bonus number first, and then a draw that lists it: a ticket of the second rank is left with
a number that was never drawn. -/
theorem bonus_drawn_later :
    ∃ lottery, Chance.least.InRange ∧
      Reached Chance.least () [.bare .inputBonus [.number 6],
        .bare .inputWinning [.text "2,3,4,5,6,7"], .bare .buyTickets [.number 1]] lottery () ∧
      lottery.bonus = some 6 ∧ 6 ∈ lottery.winning ∧ lottery.tickets = [[1, 2, 3, 4, 5, 6]] ∧
      rankOf lottery.winning 6 [1, 2, 3, 4, 5, 6] = some .second ∧
      [1, 2, 3, 4, 5, 6].filter (· ∉ lottery.winning) = [1] := by
  have given : bonus? (.bare .inputBonus [.number 6]) = some 6 := by decide +kernel
  have asked : purchase? (.bare .buyTickets [.number 1]) = some 1 := by decide +kernel
  have entered : Reached Chance.least () [.bare .inputBonus [.number 6],
      .bare .inputWinning [.text "2,3,4,5,6,7"]] _ () :=
    entered_draw (Reached.empty.step (.bonus rfl given rfl (by decide)))
  have reached := entered.step (.buy rfl asked (Ticket.drawMany_least 1))
  exact ⟨_, Chance.least_inRange, reached, rfl, by decide, rfl, by decide, by decide⟩

end Lottery

end MissionScript.Lotto
