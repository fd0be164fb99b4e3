import Mathlib.Algebra.GroupWithZero.Nat
import Mathlib.Data.List.Induction
import MissionScript.Lotto.Prize

namespace MissionScript.Lotto

namespace Rank

private theorem place_inj {rank other : Rank} : rank.place = other.place ↔ rank = other := by
  cases rank <;> cases other <;> decide

private theorem exists_place : ∀ place : Fin 5, ∃ rank : Rank, rank.place = place
  | 0 => ⟨fifth, rfl⟩
  | 1 => ⟨fourth, rfl⟩
  | 2 => ⟨third, rfl⟩
  | 3 => ⟨second, rfl⟩
  | 4 => ⟨first, rfl⟩

theorem prize_le (rank : Rank) : rank.prize.toNat ≤ 2000000000 := by
  cases rank <;> decide

end Rank

/-- A value of every rank, summed up over some tickets. -/
def tallied (value : Rank → Nat) (outcomes : List (Option Rank)) : Nat :=
  (Rank.all.map fun rank => outcomes.count (some rank) * value rank).sum

private theorem tallied_nil (value : Rank → Nat) : tallied value [] = 0 := by
  simp [tallied, Rank.all, Named.all]

private theorem tallied_concat (value : Rank → Nat) (outcomes : List (Option Rank))
    (outcome : Option Rank) :
    tallied value (outcomes ++ [outcome]) = tallied value outcomes + (outcome.map value).getD 0 := by
  unfold tallied Rank.all
  cases outcome with
  | none => simp [List.count_append]
  | some rank =>
    cases rank <;> simp [List.count_append, Named.all, Nat.add_mul] <;> omega

theorem tallied_le {value : Rank → Nat} (bounded : ∀ rank, value rank ≤ most)
    (outcomes : List (Option Rank)) : tallied value outcomes ≤ outcomes.length * most := by
  induction outcomes using List.reverseRecOn with
  | nil => simp [tallied_nil]
  | append_singleton outcomes outcome ih =>
    have own : (outcome.map value).getD 0 ≤ most := by
      cases outcome with
      | none => exact Nat.zero_le _
      | some rank => exact bounded rank
    rw [tallied_concat, List.length_append, List.length_singleton, Nat.add_mul, Nat.one_mul]
    exact Nat.add_le_add ih own

theorem tallied_one (outcomes : List (Option Rank)) :
    tallied (fun _ => 1) outcomes + outcomes.count none = outcomes.length := by
  induction outcomes using List.reverseRecOn with
  | nil => rfl
  | append_singleton outcomes outcome ih =>
    rw [tallied_concat, List.count_append, List.length_append, ← ih]
    cases outcome <;> simp <;> omega

/-- The prizes of some tickets taken together. -/
def prizes (outcomes : List (Option Rank)) : Nat := tallied (·.prize.toNat) outcomes

namespace Summary

/-- None of the counters that one more ticket moves is at its end. -/
def HasRoom (summary : Summary) : Option Rank → Prop
  | none => summary.unranked.toNat + 1 < UInt32.size
  | some rank => (summary.count rank).toNat + 1 < UInt32.size ∧
      summary.won.toNat + rank.prize.toNat < UInt64.size

/-- The counters of the summary are the numbers of the tickets. -/
structure Tallies (outcomes : List (Option Rank)) (summary : Summary) : Prop where
  ranked : ∀ rank, (summary.count rank).toNat = outcomes.count (some rank)
  unranked : summary.unranked.toNat = outcomes.count none
  won : summary.won.toNat = prizes outcomes

private theorem start_tallies (spent : UInt64) : (start spent).Tallies [] where
  ranked rank := by cases rank <;> rfl
  unranked := rfl
  won := rfl

private theorem count_record (summary : Summary) (outcome : Option Rank) (rank : Rank) :
    (summary.record outcome).count rank =
      if outcome = some rank then summary.count rank + 1 else summary.count rank := by
  cases outcome with
  | none => rfl
  | some own =>
    by_cases same : own = rank
    · subst same
      simp [record, count]
    · have apart : own.place.val ≠ rank.place.val := by
        rwa [Ne, Fin.val_inj, Rank.place_inj]
      simp [record, count, same, apart]

private theorem toNat_succ {counter : UInt32} (room : counter.toNat + 1 < UInt32.size) :
    (counter + 1).toNat = counter.toNat + 1 := by
  rw [UInt32.toNat_add]
  exact Nat.mod_eq_of_lt room

private theorem Tallies.record {summary : Summary} (tallies : summary.Tallies outcomes)
    (room : summary.HasRoom outcome) : (summary.record outcome).Tallies (outcomes ++ [outcome]) where
  ranked rank := by
    rw [count_record, List.count_append, List.count_singleton, ← tallies.ranked]
    by_cases same : outcome = some rank
    · subst same
      simp [toNat_succ room.1]
    · simp [same]
  unranked := by
    rw [List.count_append, List.count_singleton, ← tallies.unranked]
    cases outcome with
    | none => simp [Summary.record, toNat_succ room]
    | some rank => simp [Summary.record]
  won := by
    rw [prizes, tallied_concat, ← prizes, ← tallies.won]
    cases outcome with
    | none => rfl
    | some rank =>
      simp only [Summary.record, UInt64.toNat_add]
      exact Nat.mod_eq_of_lt room.2

/-- A purchase is too small for any counter to come to its end. -/
theorem Tallies.hasRoom {summary : Summary} (tallies : summary.Tallies outcomes)
    (few : outcomes.length ≤ 10000) (outcome : Option Rank) : summary.HasRoom outcome := by
  have counted (each : Option Rank) : outcomes.count each ≤ 10000 :=
    Nat.le_trans List.count_le_length few
  cases outcome with
  | none =>
    have unranked := tallies.unranked ▸ counted none
    simp only [HasRoom, UInt32.size]
    omega
  | some rank =>
    have ranked := tallies.ranked rank ▸ counted (some rank)
    have won : summary.won.toNat ≤ outcomes.length * 2000000000 :=
      tallies.won ▸ tallied_le (fun rank => rank.prize_le) outcomes
    have prize := rank.prize_le
    simp only [HasRoom, UInt32.size, UInt64.size]
    omega

theorem tallies_foldl (spent : UInt64) {outcomes : List (Option Rank)}
    (few : outcomes.length ≤ 10000) :
    (outcomes.foldl Summary.record (start spent)).Tallies outcomes := by
  induction outcomes using List.reverseRecOn with
  | nil => exact start_tallies spent
  | append_singleton outcomes outcome ih =>
    rw [List.length_append, List.length_singleton] at few
    have tallies := ih (by omega)
    rw [List.foldl_append]
    exact tallies.record (tallies.hasRoom (by omega) outcome)

theorem foldl_record_spent (outcomes : List (Option Rank)) (summary : Summary) :
    (outcomes.foldl Summary.record summary).spent = summary.spent := by
  induction outcomes generalizing summary with
  | nil => rfl
  | cons outcome outcomes ih =>
    rw [List.foldl_cons, ih]
    cases outcome <;> rfl

/-- Summaries of the same tickets in any order are the same, for the same amount spent. -/
theorem Tallies.eq_of_perm {left right : Summary} (tallies : left.Tallies outcomes)
    (others : right.Tallies reordered) (same : reordered.Perm outcomes)
    (spent : left.spent = right.spent) : left = right := by
  have counts : left.counts = right.counts := by
    ext place inside
    obtain ⟨rank, own⟩ := Rank.exists_place ⟨place, inside⟩
    have counted : (left.count rank).toNat = (right.count rank).toNat := by
      rw [tallies.ranked, others.ranked, same.count_eq]
    simpa [count, own] using counted
  have unranked : left.unranked = right.unranked := by
    rw [← UInt32.toNat_inj, tallies.unranked, others.unranked, same.count_eq]
  have won : left.won = right.won := by
    rw [← UInt64.toNat_inj, tallies.won, others.won]
    simp only [prizes, tallied, same.count_eq]
  obtain ⟨_, _, _, _⟩ := left
  obtain ⟨_, _, _, _⟩ := right
  simp only [mk.injEq]
  exact ⟨spent, won, counts, unranked⟩

theorem report_eq (summary : Summary) : summary.report =
    "[LOTTO RESULT]\nPurchase amount: " ++ toString summary.spent.toNat ++ " won, total prize: " ++
      Numeral.groupedText summary.won.toNat ++ " won\nReturn rate: " ++
      toString (summary.returnHundredths.toNat / 100) ++ "." ++
      Numeral.padded 2 (summary.returnHundredths.toNat % 100) ++ "%\n" ++
      "\n".intercalate (Rank.all.map summary.rankLine) := by
  unfold report
  dsimp only
  simp only [Rank.all, Named.all, List.map_cons, String.intercalate_cons_cons, String.append_assoc]
  rfl

end Summary

end MissionScript.Lotto
