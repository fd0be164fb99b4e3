import Mathlib.Algebra.Order.Floor.Semifield
import Mathlib.Data.Rat.Floor
import Mathlib.Tactic.Ring
import MissionScript.Proofs.LotteryCheck

namespace MissionScript

private theorem Numeral.padded_two {value : Nat} (small : value < 100) :
    padded 2 value = .ofList [Nat.digitChar (value / 10), Nat.digitChar (value % 10)] := by
  unfold padded
  by_cases single : value < 10
  · rw [Nat.toDigits_of_lt_base single, Nat.div_eq_of_lt single, Nat.mod_eq_of_lt single]
    rfl
  · have tens : value / 10 < 10 := by omega
    rw [Nat.toDigits_eq_if (by decide), if_neg single, Nat.toDigits_of_lt_base tens]
    rfl

namespace Lotto

namespace Summary

/-- Where the product does not wrap around, the rate is that of whole numbers. -/
theorem toNat_returnHundredths {summary : Summary} (paid : 0 < summary.spent.toNat)
    (fits : summary.won.toNat * 20000 + 1 < UInt64.size) :
    summary.returnHundredths.toNat =
      (summary.won.toNat * 20000 / summary.spent.toNat + 1) / 2 := by
  have spent : summary.spent ≠ 0 := by
    rintro none
    simp [none] at paid
  have product : (summary.won * 20000).toNat = summary.won.toNat * 20000 := by
    rw [UInt64.toNat_mul]
    exact Nat.mod_eq_of_lt (Nat.lt_of_succ_lt fits)
  have quotient := Nat.div_le_self (summary.won.toNat * 20000) summary.spent.toNat
  rw [returnHundredths, if_neg spent, UInt64.toNat_div, UInt64.toNat_add, UInt64.toNat_div, product]
  rw [Nat.mod_eq_of_lt]
  · rfl
  · exact Nat.lt_of_le_of_lt (Nat.add_le_add_right quotient 1) fits

/-- To halve a doubled share and drop the rest twice is to add a half and drop the rest once. -/
private theorem rounded_half_up (total paid : Nat) :
    (((total * 20000 / paid + 1) / 2 : Nat) : ℤ) =
      ⌊(10000 * total / paid + 1 / 2 : ℚ)⌋ := by
  have doubled : (10000 * total / paid + 1 / 2 : ℚ) =
      ((total * 20000 : Nat) / (paid : ℚ) + 1) / (2 : Nat) := by
    push_cast
    ring
  have share : (0 : ℚ) ≤ (total * 20000 : Nat) / (paid : ℚ) := by positivity
  rw [doubled, ← Int.natCast_floor_eq_floor (by positivity), Nat.floor_div_natCast,
    Nat.floor_add_one share, Nat.floor_div_eq_div]

end Summary

namespace Lottery

variable {State : Type} {source : Chance.Source State} {start : State}

private theorem Reached.spent_eq {lottery : Lottery}
    (reached : Reached source start blocks lottery state) :
    lottery.tickets.length ≤ 10000 ∧ lottery.spent.toNat = 1000 * lottery.tickets.length := by
  refine reached.keeps (fun lottery =>
    lottery.tickets.length ≤ 10000 ∧ lottery.spent.toNat = 1000 * lottery.tickets.length) ?_ ?_
  · exact ⟨Nat.zero_le _, rfl⟩
  intro lottery state block text next after paid handled
  cases handled with
  | buy asks asked drawn =>
    obtain rfl := Ticket.drawMany_length drawn
    have few := (purchase?_eq_some_iff.mp asked).2.2
    exact ⟨few, toNat_spent few⟩
  | winning asks drawable => exact paid
  | bonus asks given inGame apart => exact paid
  | check asks checked => exact paid

private theorem tallies_of_check {lottery : Lottery} (few : lottery.tickets.length ≤ 10000)
    (checked : lottery.check = .ok summary) :
    ∃ outcomes, outcomes.length = lottery.tickets.length ∧ 0 < outcomes.length ∧
      summary.Tallies outcomes ∧ summary.spent = lottery.spent := by
  obtain ⟨bought, entered, given⟩ := check_isOk_iff.mp ⟨summary, checked⟩
  obtain ⟨bonus, given⟩ := Option.isSome_iff_exists.mp given
  obtain rfl := Except.ok.inj (checked.symm.trans (check_eq_of_ready bought entered given))
  refine ⟨lottery.tickets.map (rankOf lottery.winning bonus), List.length_map _, ?_, ?_, ?_⟩
  · rw [List.length_map]
    exact List.length_pos_iff.mpr bought
  · exact Summary.tallies_foldl lottery.spent (by rwa [List.length_map])
  · exact Summary.foldl_record_spent _ _

/-- Of what was paid for at most ten thousand tickets, the rate is computed without leaving 64 bits;
it is the exact share in hundredths of a percent with a half rounded up, and the report shows it with
two places. -/
theorem return_rate_rounded {lottery : Lottery}
    (reached : Reached source start blocks lottery state)
    (checked : lottery.check = .ok summary) :
    0 < summary.spent.toNat ∧
    summary.won.toNat * 20000 < UInt64.size ∧
    summary.won.toNat * 20000 / summary.spent.toNat + 1 < UInt64.size ∧
    (summary.returnHundredths.toNat : ℤ) =
      ⌊(10000 * summary.won.toNat / summary.spent.toNat + 1 / 2 : ℚ)⌋ ∧
    summary.report =
      "[LOTTO RESULT]\nPurchase amount: " ++ toString summary.spent.toNat ++ " won, total prize: "
        ++ Numeral.groupedText summary.won.toNat ++ " won\nReturn rate: "
        ++ toString (summary.returnHundredths.toNat / 100) ++ "."
        ++ .ofList [Nat.digitChar (summary.returnHundredths.toNat % 100 / 10),
          Nat.digitChar (summary.returnHundredths.toNat % 10)] ++ "%\n"
        ++ "\n".intercalate (Rank.all.map summary.rankLine) := by
  obtain ⟨few, paid⟩ := reached.spent_eq
  obtain ⟨outcomes, counted, present, tallies, spent⟩ := tallies_of_check few checked
  have won : summary.won.toNat ≤ outcomes.length * 2000000000 :=
    tallies.won ▸ tallied_le (fun rank => rank.prize_le) outcomes
  have fits : summary.won.toNat * 20000 + 1 < UInt64.size := by
    simp only [UInt64.size]
    omega
  have positive : 0 < summary.spent.toNat := by
    rw [spent, paid]
    omega
  have quotient := Nat.div_le_self (summary.won.toNat * 20000) summary.spent.toNat
  refine ⟨positive, Nat.lt_of_succ_lt fits,
    Nat.lt_of_le_of_lt (Nat.add_le_add_right quotient 1) fits, ?_, ?_⟩
  · rw [Summary.toNat_returnHundredths positive fits]
    exact Summary.rounded_half_up _ _
  · have places : summary.returnHundredths.toNat % 100 < 100 := Nat.mod_lt _ (by decide)
    have last : summary.returnHundredths.toNat % 100 % 10 =
        summary.returnHundredths.toNat % 10 := Nat.mod_mod_of_dvd _ (by decide)
    rw [Summary.report_eq, Numeral.padded_two places, last]

private theorem drawn_apart : Ticket.drawMany Chance.replay 3
    [0, 1, 2, 3, 4, 5, 10, 11, 12, 13, 14, 15, 20, 21, 22, 23, 24, 25] =
      some ([[1, 2, 3, 4, 5, 6], [11, 12, 13, 14, 15, 16], [21, 22, 23, 24, 25, 26]], []) := by
  have first (rest : List UInt32) : Ticket.draw Chance.replay (0 :: 1 :: 2 :: 3 :: 4 :: 5 :: rest) =
      some ([1, 2, 3, 4, 5, 6], rest) := Ticket.draw_of_ascending rfl (by decide)
  have second (rest : List UInt32) :
      Ticket.draw Chance.replay (10 :: 11 :: 12 :: 13 :: 14 :: 15 :: rest) =
        some ([11, 12, 13, 14, 15, 16], rest) := Ticket.draw_of_ascending rfl (by decide)
  have third (rest : List UInt32) :
      Ticket.draw Chance.replay (20 :: 21 :: 22 :: 23 :: 24 :: 25 :: rest) =
        some ([21, 22, 23, 24, 25, 26], rest) := Ticket.draw_of_ascending rfl (by decide)
  simp [Ticket.drawMany, first, second, third]

/-- One ticket of three wins the lowest prize: the share of five thirds is rounded up. -/
theorem return_rate_rounded_up : ∃ lottery summary,
    Reached Chance.replay [0, 1, 2, 3, 4, 5, 10, 11, 12, 13, 14, 15, 20, 21, 22, 23, 24, 25]
      [.bare .buyTickets [.number 3], .bare .inputWinning [.text "1,2,3,31,32,33"],
        .bare .inputBonus [.number 45]] lottery [] ∧
    lottery.check = .ok summary ∧ summary.won.toNat = 5000 ∧ summary.spent.toNat = 3000 ∧
    (summary.returnHundredths.toNat : ℤ) = ⌊(10000 * (5000 : Nat) / (3000 : Nat) + 1 / 2 : ℚ)⌋ ∧
    summary.report = "[LOTTO RESULT]\nPurchase amount: 3000 won, total prize: 5,000 won\n" ++
      "Return rate: 166.67%\n3 matches (5,000 won): 1\n4 matches (50,000 won): 0\n" ++
      "5 matches (1,500,000 won): 0\n5 matches + bonus (30,000,000 won): 0\n" ++
      "6 matches (2,000,000,000 won): 0" := by
  have asked : purchase? (.bare .buyTickets [.number 3]) = some 3 := by decide +kernel
  have listed : entries (.bare .inputWinning [.text "1,2,3,31,32,33"]) = [1, 2, 3, 31, 32, 33] := by
    decide +kernel
  have drawable : Drawable (entries (.bare .inputWinning [.text "1,2,3,31,32,33"])) := by
    rw [listed]
    decide
  have given : bonus? (.bare .inputBonus [.number 45]) = some 45 := by decide +kernel
  have apart : 45 ∉ (entries (.bare .inputWinning [.text "1,2,3,31,32,33"])).mergeSort := by
    rw [List.mem_mergeSort, listed]
    decide
  have reached := ((Reached.empty.step (.buy rfl asked drawn_apart)).step
    (.winning rfl drawable)).step (.bonus rfl given rfl apart)
  have sorted : (entries (.bare .inputWinning [.text "1,2,3,31,32,33"])).mergeSort =
      [1, 2, 3, 31, 32, 33] := by
    rw [listed]
    exact List.mergeSort_of_pairwise (by decide)
  rw [sorted] at reached
  obtain ⟨_, _, _, rate, shown⟩ := return_rate_rounded reached rfl
  exact ⟨_, _, reached, rfl, rfl, rfl, rate, shown.trans (by decide +kernel)⟩

end Lottery

end Lotto

end MissionScript
