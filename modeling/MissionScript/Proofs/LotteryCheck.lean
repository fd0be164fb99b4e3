import MissionScript.Proofs.History
import MissionScript.Proofs.LotterySound
import MissionScript.Proofs.SummaryTally

/-! What a check reports. The tickets are those of the latest purchase that succeeded, the draw and
the bonus number are the latest ones that were accepted, and every ticket is counted once under what
it matches. -/
namespace MissionScript.Lotto

private theorem ofMatches?_eq_some_iff : Rank.ofMatches? matched bonus = some rank ↔
    (rank = .first ∧ matched = 6) ∨ (rank = .second ∧ matched = 5 ∧ bonus = true) ∨
      (rank = .third ∧ matched = 5 ∧ bonus = false) ∨ (rank = .fourth ∧ matched = 4) ∨
      (rank = .fifth ∧ matched = 3) := by
  unfold Rank.ofMatches?
  split <;> cases rank <;> simp_all

private theorem ofMatches?_eq_none_iff (most : matched ≤ 6) :
    Rank.ofMatches? matched bonus = none ↔ matched < 3 := by
  match matched, bonus with
  | 0, _ | 1, _ | 2, _ | 3, _ | 4, _ | 5, true | 5, false | 6, _ => simp [Rank.ofMatches?]
  | _ + 7, _ => omega

/-- The summary counts the tickets by how many of the numbers they have, with the bonus number
beside five of them. -/
structure Summary.Reports (summary : Summary) (tickets : List Ticket) (numbers : List Nat)
    (bonus : Nat) : Prop where
  first : (summary.count .first).toNat =
    tickets.countP fun ticket => ticket.countP (· ∈ numbers) = 6
  second : (summary.count .second).toNat =
    tickets.countP fun ticket => ticket.countP (· ∈ numbers) = 5 ∧ bonus ∈ ticket
  third : (summary.count .third).toNat =
    tickets.countP fun ticket => ticket.countP (· ∈ numbers) = 5 ∧ bonus ∉ ticket
  fourth : (summary.count .fourth).toNat =
    tickets.countP fun ticket => ticket.countP (· ∈ numbers) = 4
  fifth : (summary.count .fifth).toNat =
    tickets.countP fun ticket => ticket.countP (· ∈ numbers) = 3
  unranked : summary.unranked.toNat =
    tickets.countP fun ticket => ticket.countP (· ∈ numbers) < 3
  complete : (Rank.all.map fun rank => (summary.count rank).toNat).sum + summary.unranked.toNat =
    tickets.length
  won : summary.won.toNat =
    (Rank.all.map fun rank => (summary.count rank).toNat * rank.prize.toNat).sum
  spent : summary.spent.toNat = 1000 * tickets.length

private theorem Summary.Tallies.reports {summary : Summary} {tickets : List Ticket}
    {numbers : List Nat}
    (tallies : summary.Tallies (tickets.map (rankOf numbers bonus)))
    (sound : ∀ ticket ∈ tickets, ticket.Sound)
    (spent : summary.spent.toNat = 1000 * tickets.length) :
    summary.Reports tickets numbers bonus := by
  have ranked (rank : Rank) (asks : Ticket → Bool)
      (fits : ∀ ticket, rankOf numbers bonus ticket = some rank ↔ asks ticket = true) :
      (summary.count rank).toNat = tickets.countP asks := by
    rw [tallies.ranked, List.count, List.countP_map]
    refine List.countP_congr fun ticket _ => ?_
    simpa using fits ticket
  have most (ticket : Ticket) (member : ticket ∈ tickets) :
      ticket.countP (· ∈ numbers) ≤ 6 :=
    Nat.le_trans List.countP_le_length (Nat.le_of_eq (sound ticket member).length)
  refine ⟨?_, ?_, ?_, ?_, ?_, ?_, ?_, ?_, spent⟩
  case refine_6 =>
    rw [tallies.unranked, List.count, List.countP_map]
    refine List.countP_congr fun ticket member => ?_
    simpa [rankOf] using ofMatches?_eq_none_iff (most ticket member)
  case refine_7 =>
    have all := tallied_one (tickets.map (rankOf numbers bonus))
    rw [List.length_map] at all
    simpa [tallied, tallies.ranked, tallies.unranked] using all
  case refine_8 =>
    simp only [tallies.won, prizes, tallied, tallies.ranked]
  all_goals
    refine ranked _ _ fun ticket => ?_
    simp [rankOf, ofMatches?_eq_some_iff]

namespace Lottery

variable {State : Type} {source : Chance.Source State} {start : State}

/-- The tickets that the latest purchase has drawn. -/
def Issued (source : Chance.Source State) (deeds : List (Deed Lottery State))
    (tickets : List Ticket) : Prop :=
  ∃ deed ∈ latest? .buyTickets deeds, ∃ count, purchase? deed.block = some count ∧
    Ticket.drawMany source count deed.state = some (tickets, deed.after)

/-- The numbers of the latest draw that was accepted. -/
def Entered (deeds : List (Deed Lottery State)) (numbers : List Nat) : Prop :=
  ∃ deed ∈ latest? .inputWinning deeds, entries deed.block = numbers

/-- The latest bonus number that was accepted. -/
def Given (deeds : List (Deed Lottery State)) (number : Nat) : Prop :=
  ∃ deed ∈ latest? .inputBonus deeds, bonus? deed.block = some number

/-- Tickets, numbers and a bonus number that a check goes by. -/
structure InForce (source : Chance.Source State) (deeds : List (Deed Lottery State))
    (tickets : List Ticket) (numbers : List Nat) (bonus : Nat) : Prop where
  issued : Issued source deeds tickets
  entered : Entered deeds numbers
  given : Given deeds bonus

private theorem issued_iff {lottery : Lottery} {tickets : List Ticket}
    (history : History (Lottery.handle source) .empty start deeds lottery state) :
    Issued source deeds tickets ↔ tickets ≠ [] ∧ lottery.tickets = tickets := by
  unfold Issued
  induction history with
  | start => simp [latest?, empty, eq_comm]
  | after past handled ih =>
    rcases handle_cases handled with ⟨text, rfl, done⟩ | ⟨fault, rfl, rfl, rfl⟩
    · cases done with
      | buy asks asked drawn =>
        have least := (purchase?_eq_some_iff.mp asked).2.1
        have bought := List.length_pos_iff.mp (Ticket.drawMany_length drawn ▸ least)
        rw [latest?_done asks]
        constructor
        · rintro ⟨_, ⟨⟩, count, wanted, given⟩
          obtain rfl := Option.some.inj (asked.symm.trans wanted)
          obtain ⟨rfl, _⟩ := Prod.mk.inj (Option.some.inj (drawn.symm.trans given))
          exact ⟨bought, rfl⟩
        · rintro ⟨_, rfl⟩
          exact ⟨_, rfl, _, asked, drawn⟩
      | winning asks | bonus asks | check asks => rwa [latest?_other (by simp [asks])]
    · rwa [latest?_failed]

private theorem winning_cases {lottery : Lottery}
    (history : History (Lottery.handle source) .empty start deeds lottery state) :
    (lottery.winning = [] ∧ ∀ numbers, ¬ Entered deeds numbers) ∨
      ∃ numbers, lottery.winning ≠ [] ∧ lottery.winning = numbers.mergeSort ∧
        ∀ others, Entered deeds others ↔ numbers = others := by
  unfold Entered
  induction history with
  | start => exact .inl ⟨rfl, by simp [latest?]⟩
  | @after deeds found here block answer left later past handled ih =>
    rcases handle_cases handled with ⟨text, rfl, done⟩ | ⟨fault, rfl, rfl, rfl⟩
    · cases done with
      | winning asks drawable =>
        have length : (entries block).mergeSort.length = size :=
          (List.length_mergeSort _).trans drawable.1
        refine .inr ⟨entries block, List.ne_nil_of_length_eq_add_one length, rfl, ?_⟩
        simp [latest?_done asks]
      | buy asks | bonus asks | check asks => simpa [latest?_other, asks] using ih
    · simpa only [latest?_failed] using ih

private theorem given_iff {lottery : Lottery}
    (history : History (Lottery.handle source) .empty start deeds lottery state) :
    Given deeds number ↔ lottery.bonus = some number := by
  unfold Given
  induction history with
  | start => simp [latest?, empty]
  | after past handled ih =>
    rcases handle_cases handled with ⟨text, rfl, done⟩ | ⟨fault, rfl, rfl, rfl⟩
    · cases done with
      | bonus asks given => simp [latest?_done asks, given]
      | buy asks | winning asks | check asks => rwa [latest?_other (by simp [asks])]
    · rwa [latest?_failed]

theorem check_eq_of_ready {lottery : Lottery} {bonus : Nat} (bought : lottery.tickets ≠ [])
    (entered : lottery.winning ≠ []) (given : lottery.bonus = some bonus) :
    lottery.check = .ok ((lottery.tickets.map (rankOf lottery.winning bonus)).foldl
      Summary.record (.start lottery.spent)) := by
  simp [check, bought, entered, given]

private theorem inForce_iff {lottery : Lottery}
    (history : History (Lottery.handle source) .empty start deeds lottery state) :
    (∃ tickets numbers bonus, InForce source deeds tickets numbers bonus) ↔
      ∃ summary, lottery.check = .ok summary := by
  rw [check_isOk_iff]
  constructor
  · rintro ⟨tickets, numbers, bonus, issued, entered, given⟩
    obtain ⟨bought, rfl⟩ := (issued_iff history).mp issued
    have given := (given_iff history).mp given
    rcases winning_cases history with ⟨_, none⟩ | ⟨_, drawn, _, _⟩
    · exact absurd entered (none numbers)
    · exact ⟨bought, drawn, given ▸ rfl⟩
  · rintro ⟨bought, drawn, given⟩
    obtain ⟨bonus, given⟩ := Option.isSome_iff_exists.mp given
    rcases winning_cases history with ⟨none, _⟩ | ⟨numbers, _, _, only⟩
    · exact absurd none drawn
    · exact ⟨lottery.tickets, numbers, bonus, (issued_iff history).mpr ⟨bought, rfl⟩,
        (only numbers).mpr rfl, (given_iff history).mpr given⟩

private theorem rankOf_mergeSort (numbers : List Nat) (bonus : Nat) :
    rankOf numbers.mergeSort bonus = rankOf numbers bonus := by
  funext ticket
  simp [rankOf, List.mem_mergeSort]

/-- What a check answers, by what is in force. -/
theorem InForce.check_eq {lottery : Lottery} {tickets : List Ticket} {numbers : List Nat}
    {bonus : Nat} (inForce : InForce source deeds tickets numbers bonus)
    (history : History (Lottery.handle source) .empty start deeds lottery state) :
    lottery.tickets = tickets ∧ ∀ others, others ≠ [] → { lottery with tickets := others }.check =
      .ok ((others.map (rankOf numbers bonus)).foldl Summary.record (.start lottery.spent)) := by
  obtain ⟨bought, rfl⟩ := (issued_iff history).mp inForce.issued
  have given := (given_iff history).mp inForce.given
  rcases winning_cases history with ⟨_, none⟩ | ⟨drawn, some, same, only⟩
  · exact absurd inForce.entered (none numbers)
  · obtain rfl := (only numbers).mp inForce.entered
    refine ⟨rfl, fun others present => ?_⟩
    rw [← rankOf_mergeSort, ← same]
    exact check_eq_of_ready present some given

private theorem reached_of_history {lottery : Lottery}
    (history : History (Lottery.handle source) .empty start deeds lottery state) :
    Reached source start (deeds.map (·.block)) lottery state := by
  induction history with
  | start => exact .empty
  | after past handled ih =>
    rw [List.map_append]
    exact .after ih handled

/-- A check succeeds when there are a purchase, a draw and a bonus number in force, and reports the
tickets of the one against the others: each of them once, without a counter that comes to its end,
and in whatever order they stand. -/
theorem check_reports_latest (inRange : source.InRange) {lottery : Lottery}
    (history : History (Lottery.handle source) .empty start deeds lottery state)
    (asks : block.command = .checkResult) :
    ((∃ text next after, lottery.handle source block state = some (.done text (next, after))) ↔
      ∃ tickets numbers bonus, InForce source deeds tickets numbers bonus) ∧
    ∀ tickets numbers bonus, InForce source deeds tickets numbers bonus →
      ∃ summary, lottery.handle source block state =
          some (.done summary.report (lottery, state)) ∧
        lottery.check = .ok summary ∧ summary.Reports tickets numbers bonus ∧
        (∀ before ticket rest, tickets = before ++ ticket :: rest →
          ((before.map (rankOf numbers bonus)).foldl Summary.record
            (.start lottery.spent)).HasRoom (rankOf numbers bonus ticket)) ∧
        ∀ others, others.Perm tickets → { lottery with tickets := others }.check = .ok summary := by
  constructor
  · rw [inForce_iff history]
    constructor
    · rintro ⟨text, next, after, done⟩
      rcases handle_cases done with ⟨_, _, step⟩ | ⟨_, failed, _⟩
      · cases step with
        | check _ checked => exact ⟨_, checked⟩
        | buy other | winning other | bonus other => simp [asks] at other
      · cases failed
    · rintro ⟨summary, checked⟩
      exact ⟨_, _, _, (Handled.check asks checked).done⟩
  · intro tickets numbers bonus inForce
    have sound := (reached_of_history history).sound inRange
    have bought := ((issued_iff history).mp inForce.issued).1
    obtain ⟨rfl, checks⟩ := inForce.check_eq history
    have few (part : List Ticket) (inside : part.length ≤ lottery.tickets.length) :
        (part.map (rankOf numbers bonus)).length ≤ 10000 := by
      rw [List.length_map]
      exact Nat.le_trans inside sound.limit
    have all := Summary.tallies_foldl lottery.spent (few lottery.tickets (Nat.le_refl _))
    have checked : lottery.check = .ok _ := checks lottery.tickets bought
    refine ⟨_, (Handled.check asks checked).done, checked, all.reports sound.tickets ?_, ?_, ?_⟩
    · rw [Summary.foldl_record_spent]
      exact sound.spent
    · intro before ticket rest split
      have inside : before.length ≤ lottery.tickets.length := by simp [split]
      have tallies := Summary.tallies_foldl lottery.spent (few before inside)
      exact tallies.hasRoom (few before inside) _
    · intro others reordered
      have present : others ≠ [] := by
        rintro rfl
        exact bought reordered.nil_eq.symm
      have tallies := Summary.tallies_foldl lottery.spent
        (few others (Nat.le_of_eq reordered.length_eq))
      rw [checks others present, Except.ok.injEq]
      refine tallies.eq_of_perm all (reordered.symm.map _) ?_
      rw [Summary.foldl_record_spent, Summary.foldl_record_spent]

/-- A purchase in place of an earlier one, a bonus number that is missing at first, and then a check
that finds it beside five of the numbers on both tickets. -/
theorem check_reports_latest_second :
    ∃ (deeds : List (Deed Lottery Unit)) (lottery : Lottery) (summary : Summary),
      Chance.least.InRange ∧
      History (Lottery.handle Chance.least) .empty () deeds lottery () ∧
      deeds.map (·.block) = [.bare .buyTickets [.number 1], .bare .buyTickets [.text "2"],
        .bare .inputWinning [.text "1,2,3,4,5,45"], .bare .inputBonus [],
        .bare .inputBonus [.number 6]] ∧
      lottery.handle Chance.least (.bare .checkResult []) () =
        some (.done summary.report (lottery, ())) ∧
      (summary.count .second).toNat = 2 ∧ summary.won.toNat = 60000000 ∧
      summary.spent.toNat = 2000 := by
  have first : purchase? (.bare .buyTickets [.number 1]) = some 1 := by decide +kernel
  have again : purchase? (.bare .buyTickets [.text "2"]) = some 2 := by decide +kernel
  have listed : entries (.bare .inputWinning [.text "1,2,3,4,5,45"]) = [1, 2, 3, 4, 5, 45] := by
    decide +kernel
  have drawable : Drawable (entries (.bare .inputWinning [.text "1,2,3,4,5,45"])) := by
    rw [listed]
    decide
  have given : bonus? (.bare .inputBonus [.number 6]) = some 6 := by decide +kernel
  have apart : 6 ∉ (entries (.bare .inputWinning [.text "1,2,3,4,5,45"])).mergeSort := by
    rw [List.mem_mergeSort, listed]
    decide
  have fresh : History (Lottery.handle Chance.least) .empty () [] .empty () := .start
  have one := fresh.after (Handled.buy rfl first (Ticket.drawMany_least 1)).done
  have two := one.after (Handled.buy rfl again (Ticket.drawMany_least 2)).done
  have drawn := two.after (Handled.winning rfl drawable).done
  have refused : History _ _ _ (_ ++ [⟨.bare .inputBonus [], _, _, _, _, _⟩]) _ _ :=
    drawn.after rfl
  have history := refused.after (Handled.bonus rfl given rfl apart).done
  have inForce : InForce Chance.least _ [[1, 2, 3, 4, 5, 6], [1, 2, 3, 4, 5, 6]]
      [1, 2, 3, 4, 5, 45] 6 :=
    ⟨(issued_iff history).mpr ⟨by decide, rfl⟩, ⟨_, rfl, listed⟩, (given_iff history).mpr rfl⟩
  have asks : (Block.bare .checkResult []).command = .checkResult := rfl
  obtain ⟨summary, done, _, reports, _, _⟩ :=
    (check_reports_latest Chance.least_inRange history asks).2 _ _ _ inForce
  refine ⟨_, _, summary, Chance.least_inRange, history, rfl, done, reports.second, ?_, reports.spent⟩
  rw [reports.won]
  simp only [Rank.all, Named.all, List.map_cons, List.map_nil, reports.first, reports.second,
    reports.third, reports.fourth, reports.fifth]
  decide

end Lottery

end MissionScript.Lotto
