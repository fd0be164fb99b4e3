import MissionScript.Lotto.Lottery
import MissionScript.Proofs.TicketDraw

namespace MissionScript.Lotto

/-- Six different numbers of the game, in any order. -/
def Drawable (numbers : List Nat) : Prop :=
  numbers.length = size ∧ numbers.Nodup ∧ ∀ number ∈ numbers, 1 ≤ number ∧ number ≤ highest

instance (numbers : List Nat) : Decidable (Drawable numbers) :=
  inferInstanceAs (Decidable (_ ∧ _))

namespace Lottery

variable {State : Type} {source : Chance.Source State}

/-- The number of tickets that a block asks for, when a purchase can have it. -/
def purchase? (block : Block) : Option Nat :=
  ((block.number? 0).bind Decimal.natural?).filter fun count => 1 ≤ count ∧ count ≤ mostTickets

theorem purchase?_eq_some_iff {block : Block} : purchase? block = some count ↔
    (block.number? 0).bind Decimal.natural? = some count ∧ 1 ≤ count ∧ count ≤ mostTickets := by
  simp [purchase?, Option.filter_eq_some_iff]

/-- The winning numbers that a block lists. -/
def entries (block : Block) : List Nat := readNumbers (block.text 0)

/-- The bonus number that a block gives. -/
def bonus? (block : Block) : Option Nat := (block.number? 0).bind Decimal.natural?

/-- What a lottery command makes of a lottery when it succeeds. -/
inductive Handled (source : Chance.Source State) :
    Lottery → State → Block → String → Lottery → State → Prop where
  | buy {lottery : Lottery} {tickets : List Ticket} (asks : block.command = .buyTickets)
      (asked : purchase? block = some count)
      (drawn : Ticket.drawMany source count state = some (tickets, after)) :
      Handled source lottery state block
        ("[LOTTO] Issued " ++ toString count ++ " tickets ("
          ++ toString (UInt64.ofNat count * price).toNat ++ " won).")
        { lottery with tickets, spent := .ofNat count * price } after
  | winning (asks : block.command = .inputWinning) (drawable : Drawable (entries block)) :
      Handled source lottery state block
        ("[LOTTO] Winning numbers: " ++ listed (entries block).mergeSort ++ " entered.")
        { lottery with winning := (entries block).mergeSort } state
  | bonus (asks : block.command = .inputBonus) (given : bonus? block = some number)
      (inGame : isInGame number) (apart : number ∉ lottery.winning) :
      Handled source lottery state block
        ("[LOTTO] Bonus number: " ++ toString number ++ " entered.")
        { lottery with bonus := some number } state
  | check (asks : block.command = .checkResult) (checked : lottery.check = .ok summary) :
      Handled source lottery state block summary.report lottery state

theorem ticketCount_eq_ok_iff : ticketCount asked = .ok count ↔
    Decimal.natural? asked = some count ∧ 1 ≤ count ∧ count ≤ mostTickets := by
  unfold ticketCount
  cases natural : Decimal.natural? asked with
  | none => simp
  | some number =>
    by_cases least : 1 ≤ number
    · by_cases most : mostTickets < number
      · simp [Option.filter, least, most]
        omega
      · simp [Option.filter, least, most]
        omega
    · simp [Option.filter, least]
      omega

private theorem buy_cases {lottery : Lottery}
    (bought : lottery.buy source asked state = some ⟨answer, next, after⟩) :
    (∃ violation, answer = .error (.validation violation) ∧ next = lottery ∧ after = state) ∨
    ∃ count tickets, ticketCount asked = .ok count ∧
      Ticket.drawMany source count state = some (tickets, after) ∧
      answer = .ok ("[LOTTO] Issued " ++ toString count ++ " tickets ("
        ++ toString (UInt64.ofNat count * price).toNat ++ " won).") ∧
      next = { lottery with tickets, spent := .ofNat count * price } := by
  unfold buy at bought
  cases asks : ticketCount asked with
  | error violation =>
    simp only [asks, Option.some.injEq] at bought
    cases bought
    exact .inl ⟨violation, rfl, rfl, rfl⟩
  | ok count =>
    simp only [asks] at bought
    obtain ⟨⟨tickets, later⟩, drawn, same⟩ := Option.bind_eq_some_iff.mp bought
    cases same
    exact .inr ⟨count, tickets, rfl, drawn, rfl, rfl⟩

theorem enterWinning_eq (lottery : Lottery) (numbers : List Nat) :
    lottery.enterWinning numbers = if Drawable numbers then
      .done ("[LOTTO] Winning numbers: " ++ listed numbers.mergeSort ++ " entered.")
        { lottery with winning := numbers.mergeSort }
    else .refused .winningNumbers lottery := by
  have same : (numbers.mergeSort.length = size ∧ numbers.mergeSort.Nodup ∧
      numbers.mergeSort.all isInGame) ↔ Drawable numbers := by
    rw [List.length_mergeSort, (List.mergeSort_perm numbers _).nodup_iff, List.all_eq_true]
    simp [Drawable, isInGame_iff]
  simp only [enterWinning, same]

theorem check_isOk_iff {lottery : Lottery} : (∃ summary, lottery.check = .ok summary) ↔
    lottery.tickets ≠ [] ∧ lottery.winning ≠ [] ∧ lottery.bonus.isSome := by
  unfold check
  by_cases bought : lottery.tickets = []
  · simp [bought]
  · by_cases entered : lottery.winning = []
    · simp [bought, entered]
    · cases lottery.bonus with
      | none => simp [bought, entered]
      | some bonus => simp [bought, entered]

theorem handle_cases {lottery : Lottery}
    (handled : lottery.handle source block state = some ⟨answer, next, after⟩) :
    (∃ text, answer = .ok text ∧ Handled source lottery state block text next after) ∨
    ∃ fault, answer = .error fault ∧ next = lottery ∧ after = state := by
  unfold handle at handled
  dsimp only at handled
  split at handled
  case h_1 asks =>
    split at handled
    · cases handled
      exact .inr ⟨_, rfl, rfl, rfl⟩
    · rename_i asked given
      rcases buy_cases handled with
        ⟨violation, rfl, rfl, rfl⟩ | ⟨count, tickets, fits, drawn, rfl, rfl⟩
      · exact .inr ⟨_, rfl, rfl, rfl⟩
      · obtain ⟨natural, least, most⟩ := ticketCount_eq_ok_iff.mp fits
        refine .inl ⟨_, rfl, .buy asks (purchase?_eq_some_iff.mpr ⟨?_, least, most⟩) drawn⟩
        rw [given]
        exact natural
  case h_2 asks =>
    rw [enterWinning_eq] at handled
    split at handled
    · rename_i drawable
      cases handled
      exact .inl ⟨_, rfl, .winning asks drawable⟩
    · cases handled
      exact .inr ⟨_, rfl, rfl, rfl⟩
  case h_3 asks =>
    split at handled
    · cases handled
      exact .inr ⟨_, rfl, rfl, rfl⟩
    · rename_i number given
      unfold enterBonus at handled
      split at handled
      · rename_i fits
        cases handled
        exact .inl ⟨_, rfl, .bonus asks given fits.1 fits.2⟩
      · cases handled
        exact .inr ⟨_, rfl, rfl, rfl⟩
  case h_4 asks =>
    cases checked : lottery.check with
    | error fault =>
      rw [checked] at handled
      cases handled
      exact .inr ⟨fault, rfl, rfl, rfl⟩
    | ok summary =>
      rw [checked] at handled
      cases handled
      exact .inl ⟨_, rfl, .check asks checked⟩
  case h_5 =>
    cases handled
    exact .inr ⟨_, rfl, rfl, rfl⟩

theorem Handled.done {lottery : Lottery}
    (handled : Handled source lottery state block text next after) :
    lottery.handle source block state = some (.done text (next, after)) := by
  cases handled with
  | buy asks asked drawn =>
    obtain ⟨given, least, most⟩ := purchase?_eq_some_iff.mp asked
    obtain ⟨number, present, natural⟩ := Option.bind_eq_some_iff.mp given
    have fits := ticketCount_eq_ok_iff.mpr ⟨natural, least, most⟩
    simp only [handle, asks, present]
    unfold Lottery.buy
    rw [fits]
    dsimp only
    rw [drawn]
    rfl
  | winning asks drawable =>
    have entered := (enterWinning_eq lottery (entries block)).trans (if_pos drawable)
    unfold entries at entered
    simp only [handle, asks, entered]
    rfl
  | bonus asks given inGame apart =>
    unfold bonus? at given
    simp only [handle, asks, given, enterBonus, inGame, apart]
    rfl
  | check asks checked =>
    simp only [handle, asks, checked]
    rfl

/-- Only an entry changes the winning numbers, to six that can be drawn. -/
theorem Handled.winning_eq {lottery : Lottery}
    (handled : Handled source lottery state block text next after) :
    (block.command = .inputWinning ∧ Drawable (entries block) ∧
      next.winning = (entries block).mergeSort) ∨
    (block.command ≠ .inputWinning ∧ next.winning = lottery.winning) := by
  cases handled with
  | buy asks asked drawn => exact .inr ⟨by simp [asks], rfl⟩
  | winning asks drawable => exact .inl ⟨asks, drawable, rfl⟩
  | bonus asks given inGame apart => exact .inr ⟨by simp [asks], rfl⟩
  | check asks checked => exact .inr ⟨by simp [asks], rfl⟩

/-- Only a bonus entry changes the bonus number, to one that is no winning number by then. -/
theorem Handled.bonus_eq {lottery : Lottery}
    (handled : Handled source lottery state block text next after) :
    (block.command = .inputBonus ∧ ∃ number, bonus? block = some number ∧ isInGame number ∧
      number ∉ lottery.winning ∧ next.bonus = some number) ∨
    (block.command ≠ .inputBonus ∧ next.bonus = lottery.bonus) := by
  cases handled with
  | buy asks asked drawn => exact .inr ⟨by simp [asks], rfl⟩
  | winning asks drawable => exact .inr ⟨by simp [asks], rfl⟩
  | bonus asks given inGame apart => exact .inl ⟨asks, _, given, inGame, apart, rfl⟩
  | check asks checked => exact .inr ⟨by simp [asks], rfl⟩

/-- Only a purchase changes the tickets, to as many sound ones as it asks for. -/
theorem Handled.tickets_eq (inRange : source.InRange) {lottery : Lottery}
    (handled : Handled source lottery state block text next after) :
    (block.command = .buyTickets ∧ purchase? block = some next.tickets.length ∧
      ∀ ticket ∈ next.tickets, ticket.Sound) ∨
    (block.command ≠ .buyTickets ∧ next.tickets = lottery.tickets) := by
  cases handled with
  | buy asks asked drawn =>
    obtain ⟨rfl, sound⟩ := Ticket.drawMany_sound inRange drawn
    exact .inl ⟨asks, asked, sound⟩
  | winning asks drawable => exact .inr ⟨by simp [asks], rfl⟩
  | bonus asks given inGame apart => exact .inr ⟨by simp [asks], rfl⟩
  | check asks checked => exact .inr ⟨by simp [asks], rfl⟩

theorem handle_isSome (endless : source.Endless) (inRange : source.InRange) (lottery : Lottery)
    (block : Block) (state : State) : (lottery.handle source block state).isSome := by
  unfold handle
  dsimp only
  split
  case h_1 =>
    split
    · rfl
    · unfold buy
      split
      · rfl
      · rename_i count _
        obtain ⟨⟨tickets, after⟩, drawn⟩ := Option.isSome_iff_exists.mp
          (Ticket.drawMany_isSome endless inRange count state)
        simp [drawn]
  all_goals rfl

end Lottery

end MissionScript.Lotto
