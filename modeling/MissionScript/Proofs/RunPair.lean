import MissionScript.Proofs.RacePair
import MissionScript.Proofs.SourceView
import MissionScript.Proofs.SummaryTally

/-! Two runs side by side. Chance decides how far cars go and which numbers tickets have, and
nothing else: the course of a run, its status, the number of draws and all other lines are those of
the script alone. -/
namespace MissionScript

variable {First Second : Type} {first : Chance.Source First} {second : Chance.Source Second}
  {Beside : First → Second → Prop}

namespace Chance

/-- Always the high end of the range. -/
def greatest : Source Unit where
  draw _ high state := some (high, state)
  fraction state := (0.0, state)

private theorem greatest_endless : greatest.Endless := fun _ _ _ => rfl

theorem greatest_inRange : greatest.InRange := by
  intro low high state fits value after drawn
  obtain ⟨rfl, _⟩ := Prod.mk.inj (Option.some.inj drawn)
  exact ⟨fits, UInt32.le_refl _⟩

/-- As many draws have been counted on both sides. -/
def SameCount (left : First × Nat) (right : Second × Nat) : Prop := left.2 = right.2

namespace Source

theorem Endless.inStep (endless : second.Endless) : first.InStep second fun _ _ => True := by
  intro low high left right _ value after _
  obtain ⟨⟨other, later⟩, drawn⟩ := Option.isSome_iff_exists.mp (endless low high right)
  exact ⟨other, later, drawn, trivial⟩

private theorem Endless.counting_inStep (endless : second.Endless) :
    first.counting.InStep second.counting SameCount := by
  intro low high left right same value after drawn
  obtain ⟨⟨one, middle⟩, _, ended⟩ := Option.map_eq_some_iff.mp drawn
  obtain ⟨rfl, rfl⟩ := Prod.mk.inj ended
  obtain ⟨⟨other, later⟩, found⟩ := Option.isSome_iff_exists.mp (endless low high right.1)
  refine ⟨other, (later, right.2 + 1), ?_, congrArg (· + 1) same⟩
  simp [Source.counting, found]

end Source

end Chance

namespace Lotto

private theorem Pool.drawPlaces_inStep (inStep : first.InStep second Beside) (inRange : second.InRange)
    (beside : Beside here there) {places : List (Fin highest)} {pool : Pool}
    (drawn : drawPlaces first places pool here = some (numbers, after)) (other : Pool) :
    ∃ others later, drawPlaces second places other there = some (others, later) ∧
      Beside after later := by
  induction places generalizing pool other here there numbers with
  | nil =>
    obtain ⟨_, rfl⟩ := Prod.mk.inj (Option.some.inj drawn)
    exact ⟨[], there, rfl, beside⟩
  | cons place places ih =>
    obtain ⟨choice, middle, rest, _, chosen, filled, rfl⟩ := drawPlaces_cons_eq_some drawn
    obtain ⟨picked, between, found, kept⟩ := inStep _ _ _ _ beside _ _ chosen
    have inside := (choice_range inRange found).2
    obtain ⟨others, later, behind, reached⟩ :=
      ih kept filled (other.swap place picked.toNat place.isLt inside)
    unfold drawPlaces
    rw [found]
    exact ⟨other[picked.toNat] :: others, later, by simp [inside, behind], reached⟩

private theorem Ticket.draw_inStep (inStep : first.InStep second Beside) (inRange : second.InRange)
    (beside : Beside here there) (drawn : draw first here = some (ticket, after)) :
    ∃ other later, draw second there = some (other, later) ∧ Beside after later := by
  obtain ⟨numbers, filled, rfl⟩ := draw_eq_some drawn
  obtain ⟨others, later, behind, reached⟩ :=
    Pool.drawPlaces_inStep inStep inRange beside filled .ascending
  exact ⟨others.mergeSort, later, by simp [draw, behind], reached⟩

private theorem Ticket.drawMany_inStep (inStep : first.InStep second Beside) (inRange : second.InRange)
    (beside : Beside here there) {tickets : List Ticket}
    (drawn : drawMany first count here = some (tickets, after)) :
    ∃ others later, drawMany second count there = some (others, later) ∧ Beside after later ∧
      tickets.length = others.length := by
  induction count generalizing here there tickets with
  | zero =>
    obtain ⟨rfl, rfl⟩ := Prod.mk.inj (Option.some.inj drawn)
    exact ⟨[], there, rfl, beside, rfl⟩
  | succ count ih =>
    obtain ⟨ticket, middle, rest, taken, more, rfl⟩ := drawMany_succ_eq_some drawn
    obtain ⟨other, between, found, kept⟩ := draw_inStep inStep inRange beside taken
    obtain ⟨others, later, behind, reached, length⟩ := ih kept more
    exact ⟨other :: others, later, by simp [drawMany, found, behind], reached, by simp [length]⟩

/-- How a check begins to tell what a purchase has won. -/
def purchaseText (spent : UInt64) : String :=
  "[LOTTO RESULT]\nPurchase amount: " ++ toString spent.toNat ++ " won, total prize: "

private theorem exists_report (summary : Summary) :
    ∃ rest, summary.report = purchaseText summary.spent ++ rest := by
  have shown := summary.report_eq
  simp only [String.append_assoc] at shown
  have start (rest : String) : purchaseText summary.spent ++ rest =
      "[LOTTO RESULT]\nPurchase amount: " ++
        (toString summary.spent.toNat ++ (" won, total prize: " ++ rest)) := by
    unfold purchaseText
    simp only [String.append_assoc]
  exact ⟨_, shown.trans (start _).symm⟩

namespace Lottery

/-- Lotteries that agree in all that chance never touches. -/
structure Level (left right : Lottery) : Prop where
  tickets : left.tickets.length = right.tickets.length
  winning : left.winning = right.winning
  bonus : left.bonus = right.bonus
  spent : left.spent = right.spent

theorem Level.refl (lottery : Lottery) : lottery.Level lottery := ⟨rfl, rfl, rfl, rfl⟩

private theorem Level.bought_iff {left right : Lottery} (level : left.Level right) :
    left.tickets = [] ↔ right.tickets = [] := by
  rw [← List.length_eq_zero_iff, level.tickets, List.length_eq_zero_iff]

/-- What a lottery refuses can be read off what chance never touches. -/
private theorem Refused.level {left right : Lottery} (level : left.Level right)
    (refused : left.Refused block fault) : right.Refused block fault := by
  cases refused with
  | count asks unfit => exact .count asks unfit
  | tooMany asks asked many => exact .tooMany asks asked many
  | winning asks unfit => exact .winning asks unfit
  | bonus asks unfit => exact .bonus asks (level.winning ▸ unfit)
  | noTickets asks none => exact .noTickets asks (level.bought_iff.mp none)
  | undrawn asks bought missing =>
    exact .undrawn asks (mt level.bought_iff.mpr bought) (level.bonus ▸ level.winning ▸ missing)
  | foreign other => exact .foreign other

private theorem spent_of_check {lottery : Lottery} (checked : lottery.check = .ok summary) :
    summary.spent = lottery.spent := by
  unfold check at checked
  split at checked
  · cases checked
  · split at checked
    · cases checked
    · split at checked
      · cases checked
      · cases checked
        exact Summary.foldl_record_spent _ _

/-- A block does alike on lotteries that are level, and leaves them level. Only checks can tell them
apart, and not in what was spent. -/
theorem Handled.inStep (inStep : first.InStep second Beside) (inRange : second.InRange)
    (beside : Beside here there) {left right : Lottery} (level : left.Level right)
    (handled : Handled first left here block text next after) :
    ∃ answer other later, Handled second right there block answer other later ∧
      next.Level other ∧ Beside after later ∧
      (text = answer ∨ block.command = .checkResult ∧ ∃ summary tally : Summary,
        summary.spent = tally.spent ∧ text = summary.report ∧ answer = tally.report) := by
  cases handled with
  | buy asks asked drawn =>
    obtain ⟨others, later, bought, reached, length⟩ :=
      Ticket.drawMany_inStep inStep inRange beside drawn
    exact ⟨_, _, later, .buy asks asked bought, ⟨length, level.winning, level.bonus, rfl⟩, reached,
      .inl rfl⟩
  | winning asks drawable =>
    exact ⟨_, _, there, .winning asks drawable, ⟨level.tickets, rfl, level.bonus, level.spent⟩,
      beside, .inl rfl⟩
  | bonus asks given inGame apart =>
    exact ⟨_, _, there, .bonus asks given inGame (level.winning ▸ apart),
      ⟨level.tickets, level.winning, rfl, level.spent⟩, beside, .inl rfl⟩
  | check asks checked =>
    obtain ⟨bought, entered, given⟩ := check_isOk_iff.mp ⟨_, checked⟩
    obtain ⟨tally, done⟩ := check_isOk_iff.mpr
      ⟨mt level.bought_iff.mpr bought, level.winning ▸ entered, level.bonus ▸ given⟩
    have spent := (spent_of_check checked).trans (level.spent.trans (spent_of_check done).symm)
    exact ⟨_, right, there, .check asks done, level, beside,
      .inr ⟨asks, _, tally, spent, rfl, rfl⟩⟩

end Lottery

end Lotto

namespace Progress

open Racing (Car Race)
open Lotto (Lottery Summary)

/-- Two texts of a block that chance makes different: those of a turn, both with winners or both
without, and those of a check, for the same amount spent. -/
inductive Varies (block : Block) : String → String → Prop where
  | turn (asks : block.command = .runTurn) (texts : Race.TurnTexts Car.mark text answer)
      (both : winners?.isSome = others?.isSome) :
      Varies block (announced winners? text) (announced others? answer)
  | check {summary tally : Summary} {rest others : String} (asks : block.command = .checkResult)
      (spent : summary.spent = tally.spent)
      (own : summary.report = Lotto.purchaseText summary.spent ++ rest)
      (other : tally.report = Lotto.purchaseText tally.spent ++ others) :
      Varies block summary.report tally.report

/-- Progresses that agree in all that chance never touches. -/
structure Level (left right : Progress) : Prop where
  calculator : left.calculator = right.calculator
  race : left.race.Matched Car.mark right.race
  lottery : left.lottery.Level right.lottery
  cleared : left.cleared = right.cleared

theorem Level.refl (progress : Progress) : progress.Level progress :=
  ⟨rfl, .refl _ _, .refl _, rfl⟩

private theorem Level.closingLines {left right : Progress} (level : left.Level right) (stage : Stage) :
    left.closingLines stage = right.closingLines stage := by
  simp only [Progress.closingLines, level.calculator]

theorem Level.clears {left right : Progress} (level : left.Level right) (stage : Stage) :
    left.clears stage = right.clears stage := by
  simp only [Progress.clears, level.calculator, level.cleared]

private theorem Rejected.level {stage : Stage} {left right : Progress} (level : left.Level right)
    (rejected : Rejected stage left block fault) : Rejected stage right block fault := by
  cases rejected with
  | stage declared other => exact .stage declared other
  | command declared inStage other => exact .command declared inStage other
  | calculator inStage belongs failed =>
    exact .calculator inStage belongs (by rw [← level.calculator]; exact failed)
  | racing inStage belongs refused =>
    have names := Race.map_eq_of_alike Car.name_eq_of_mark level.race.cars
    exact .racing inStage belongs (level.race.refused names refused)
  | lotto inStage belongs refused => exact .lotto inStage belongs (refused.level level.lottery)

theorem toldWinners?_of_turn (asks : block.command = .runTurn) (race : Race) :
    toldWinners? race block = race.winners? := by
  unfold toldWinners?
  cases race.winners? <;> simp [asks, Option.filter]

theorem toldWinners?_of_ne (other : block.command ≠ .runTurn) (race : Race) :
    toldWinners? race block = none := by
  simp [toldWinners?, other]

private theorem toldWinners?_isSome {left right : Race} (level : left.Matched Car.mark right)
    (block : Block) :
    (toldWinners? left block).isSome = (toldWinners? right block).isSome := by
  by_cases asks : block.command = .runTurn
  · rw [toldWinners?_of_turn asks, toldWinners?_of_turn asks, level.winners_isSome]
  · rw [toldWinners?_of_ne asks, toldWinners?_of_ne asks]

/-- A block does alike on progresses that are level, and leaves them level. -/
theorem Stepped.inStep (inStep : first.InStep second Beside)
    (inRange : second.InRange ∨ stage ≠ .lotto) (beside : Beside here there)
    {left right : Progress} (level : left.Level right)
    (stepped : Stepped first stage left here block text next after) :
    ∃ answer other later, Stepped second stage right there block answer other later ∧
      next.Level other ∧ Beside after later ∧ (text = answer ∨ Varies block text answer) := by
  cases stepped with
  | utility utility => exact ⟨"", right, there, .utility utility, level, beside, .inl rfl⟩
  | calculator inStage belongs handled =>
    exact ⟨_, _, there, .calculator inStage belongs (level.calculator ▸ handled),
      ⟨rfl, level.race, level.lottery, level.cleared⟩, beside, .inl rfl⟩
  | racing inStage belongs handled =>
    obtain ⟨answer, race, later, done, races, reached, texts⟩ :=
      handled.inStep (Race.mark_preserved inStep) beside level.race
    have both := toldWinners?_isSome races block
    refine ⟨_, _, later, .racing inStage belongs done,
      ⟨level.calculator, races, level.lottery, by simp [level.cleared, both]⟩, reached, ?_⟩
    rcases texts with ⟨other, rfl⟩ | ⟨asks, texts⟩
    · exact .inl (by rw [toldWinners?_of_ne other, toldWinners?_of_ne other])
    · exact .inr (.turn asks texts both)
  | lotto inStage belongs handled =>
    obtain ⟨answer, lottery, later, done, lotteries, reached, texts⟩ := handled.inStep inStep
      (inRange.resolve_right (not_not_intro inStage)) beside level.lottery
    refine ⟨answer, _, later, .lotto inStage belongs done,
      ⟨level.calculator, level.race, lotteries, by simp [level.cleared]⟩, reached, ?_⟩
    rcases texts with same | ⟨asks, summary, tally, spent, rfl, rfl⟩
    · exact .inl same
    · obtain ⟨rest, own⟩ := Lotto.exists_report summary
      obtain ⟨others, other⟩ := Lotto.exists_report tally
      exact .inr (.check asks spent own other)

/-- Texts of the same blocks that differ in nothing but what chance decides. -/
def Alike (blocks : List Block) (texts answers : List String) : Prop :=
  ∀ (place : Nat) block text answer, blocks[place]? = some block → texts[place]? = some text →
    answers[place]? = some answer → text = answer ∨ Varies block text answer

/-- Blocks that run on one side run on the other, place for place. -/
theorem Ran.inStep (inStep : first.InStep second Beside)
    (inRange : second.InRange ∨ stage ≠ .lotto) (beside : Beside here there)
    {left right : Progress} (level : left.Level right)
    (ran : Ran first stage left here blocks texts last after) :
    ∃ answers other later, Ran second stage right there blocks answers other later ∧
      last.Level other ∧ Beside after later ∧ Alike blocks texts answers := by
  induction ran generalizing right there with
  | nil => exact ⟨[], right, there, .nil, level, beside, by simp [Alike]⟩
  | cons own rest ih =>
    obtain ⟨answer, next, middle, stepped, levels, reached, alike⟩ :=
      (runBlock_eq_done_iff.mp own).inStep inStep inRange beside level
    obtain ⟨answers, other, later, others, ends, final, alikes⟩ := ih reached levels
    refine ⟨answer :: answers, other, later, .cons stepped.runBlock_eq others, ends, final, ?_⟩
    intro place block text answer here there behind
    cases place with
    | zero =>
      simp only [List.getElem?_cons_zero, Option.some.injEq] at here there behind
      exact here ▸ there ▸ behind ▸ alike
    | succ place => exact alikes place block text answer here there behind

/-- The block that fails and its fault are the same with every source. -/
theorem FailsAt.inStep (inStep : first.InStep second Beside)
    (inRange : second.InRange ∨ stage ≠ .lotto) (beside : Beside here there)
    (fails : FailsAt first stage blocks here place fault) :
    FailsAt second stage blocks there place fault := by
  obtain ⟨block, texts, reached, middle, found, _, ran, rejected⟩ := fails.split
  obtain ⟨answers, other, later, others, level, _⟩ := ran.inStep inStep inRange beside (.refl _)
  exact ⟨block, answers, other, later, other, later, found, others,
    (rejected.level level).runBlock_eq second later⟩

end Progress

open Progress

/-- Reports that differ in nothing but lines of turns and of checks, and in these only by what
chance decides. -/
structure Report.Alike (script : Script) (left right : Report) : Prop where
  count : left.lines.length = right.lines.length
  status : left.status = right.status
  time : left.time = right.time
  lines : ∀ (place : Nat) one other,
    left.lines[place]? = some one → right.lines[place]? = some other →
    one = other ∨ ∃ block text answer, script.blocks[place]? = some block ∧
      one = block.label ++ ": " ++ text ∧ other = block.label ++ ": " ++ answer ∧
      Varies block text answer

private theorem Report.alike_of_texts {script : Script} {before : List Block}
    {texts answers : List String}
    (front : script.blocks = before ++ rest) (own : texts.length = before.length)
    (others : answers.length = before.length)
    (alike : Progress.Alike before texts answers) (behind : List String) (status : Status)
    (time : Timestamp) :
    Alike script ⟨List.zipWith line before texts ++ behind, status, time⟩
      ⟨List.zipWith line before answers ++ behind, status, time⟩ := by
  refine ⟨by simp [own, others], rfl, rfl, ?_⟩
  intro place one other first second
  have left : (List.zipWith line before texts).length = before.length := by simp [own]
  have right : (List.zipWith line before answers).length = before.length := by simp [others]
  by_cases inside : place < before.length
  · rw [List.getElem?_append_left (left ▸ inside), List.getElem?_zipWith_eq_some] at first
    rw [List.getElem?_append_left (right ▸ inside), List.getElem?_zipWith_eq_some] at second
    obtain ⟨block, text, found, told, rfl⟩ := first
    obtain ⟨_, answer, again, answered, rfl⟩ := second
    obtain rfl := Option.some.inj (found.symm.trans again)
    rcases alike place block text answer found told answered with same | varies
    · exact .inl (congrArg (line block) same)
    · refine .inr ⟨block, text, answer, ?_, rfl, rfl, varies⟩
      rw [front, List.getElem?_append_left inside, found]
  · have outside := Nat.le_of_not_lt inside
    rw [List.getElem?_append_right (left ▸ outside), left] at first
    rw [List.getElem?_append_right (right ▸ outside), right] at second
    exact .inl (Option.some.inj (first.symm.trans second))

namespace Script

/-- A run goes alike with two sources that keep step with each other. -/
theorem run_inStep (inStep : first.InStep second Beside)
    (inRange : second.InRange ∨ status.stage ≠ .lotto) (beside : Beside here there)
    {script : Script} (ran : script.run first status time here = some (left, after)) :
    ∃ right later, script.run second status time there = some (right, later) ∧
      Beside after later ∧ left.Alike script right := by
  by_cases nonempty : script.blocks = []
  · simp only [run, nonempty, List.isEmpty_nil, if_true, Option.some.injEq, Prod.mk.injEq] at ran ⊢
    obtain ⟨rfl, rfl⟩ := ran
    exact ⟨_, _, ⟨rfl, rfl⟩, beside, rfl, rfl, rfl, by simp_all⟩
  obtain ⟨lines, told, moment⟩ := left
  obtain ⟨rfl, ⟨texts, last, trace, rfl, rfl⟩ |
    ⟨before, block, rest, texts, reached, fault, split, trace, rejected, rfl, rfl⟩⟩ :=
    course_of_run nonempty ran
  · obtain ⟨answers, other, later, others, level, ends, alike⟩ :=
      trace.inStep inStep inRange beside (.refl _)
    refine ⟨_, later, others.run_eq nonempty moment, ends, ?_⟩
    rw [← level.closingLines, ← level.clears]
    exact Report.alike_of_texts (List.append_nil _).symm trace.length_eq others.length_eq alike ..
  · obtain ⟨answers, other, later, others, level, ends, alike⟩ :=
      trace.inStep inStep inRange beside (.refl _)
    have own := run_of_rejected others (rejected.level level) rest moment
    rw [← split] at own
    exact ⟨_, later, own, ends,
      Report.alike_of_texts split trace.length_eq others.length_eq alike ..⟩

/-- What chance does not decide in a run: whether and where it ends early, how many draws it takes,
the status, and every line but those of turns and of checks. -/
theorem run_indifferent_to_chance (firstEndless : first.Endless) (firstInRange : first.InRange)
    (secondEndless : second.Endless) (secondInRange : second.InRange) (script : Script)
    (status : Status) (time : Timestamp) (here : First) (there : Second) :
    ∃ left right after later draws,
      script.run first status time here = some (left, after) ∧
      script.run second status time there = some (right, later) ∧
      script.run first.counting status time (here, 0) = some (left, after, draws) ∧
      script.run second.counting status time (there, 0) = some (right, later, draws) ∧
      left.Alike script right ∧
      ∀ place fault, FailsAt first status.stage script.blocks here place fault ↔
        FailsAt second status.stage script.blocks there place fault := by
  obtain ⟨⟨left, after, draws⟩, ran⟩ := Option.isSome_iff_exists.mp
    (run_isSome firstEndless.counting (.inl firstInRange.counting) script time (here, 0))
  have beside : Chance.SameCount (here, 0) (there, 0) := rfl
  obtain ⟨right, ⟨later, _⟩, other, rfl, alike⟩ :=
    run_inStep secondEndless.counting_inStep (.inl secondInRange.counting) beside ran
  refine ⟨left, right, after, later, draws, run_of_counting ran, run_of_counting other, ran, other,
    alike, fun place fault => ⟨?_, ?_⟩⟩
  · exact FailsAt.inStep secondEndless.inStep (.inl secondInRange) trivial
  · exact FailsAt.inStep firstEndless.inStep (.inl firstInRange) trivial

/-- The only draw of this race, for the car that is not broken, decides its tracks and winners, and
nothing else. -/
theorem run_indifferent_to_chance_tracks :
    let script : Script := ⟨[.bare .setUpRace [.number 1],
      .bare .selectCar [.text "pobi", .text "소나타"],
      .bare .selectCar [.text "jun", .text "제네시스"], .bare .failure [.text "jun"],
      .bare .runTurn []]⟩
    ∃ left right, script.run Chance.least.counting ⟨.racing, false, ""⟩ ⟨0, 0⟩ ((), 0) =
        some (left, (), 1) ∧
      script.run Chance.greatest.counting ⟨.racing, false, ""⟩ ⟨0, 0⟩ ((), 0) =
        some (right, (), 1) ∧
      left.Alike script right ∧ left.lines.take 4 = right.lines.take 4 ∧
      left.lines[4]? = some ": --- Turn 1 ---\npobi: \njun: (broken)\n[WINNERS]: pobi, jun" ∧
      right.lines[4]? = some ": --- Turn 1 ---\npobi: -\njun: (broken)\n[WINNERS]: pobi" ∧
      right.status.cleared = true := by
  intro script
  obtain ⟨left, right, _, _, draws, _, _, ran, other, alike, _⟩ :=
    run_indifferent_to_chance Chance.least_endless Chance.least_inRange Chance.greatest_endless
      Chance.greatest_inRange script ⟨.racing, false, ""⟩ ⟨0, 0⟩ () ()
  have once : (script.run Chance.least.counting ⟨.racing, false, ""⟩ ⟨0, 0⟩ ((), 0)).map (·.2.2) =
      some 1 := by decide +kernel
  have even : (script.run Chance.least.counting ⟨.racing, false, ""⟩ ⟨0, 0⟩ ((), 0)).map
      (fun told => (told.1.lines.take 4, told.1.lines[4]?)) =
    (script.run Chance.greatest.counting ⟨.racing, false, ""⟩ ⟨0, 0⟩ ((), 0)).map
      (fun told => (told.1.lines.take 4,
        some ": --- Turn 1 ---\npobi: \njun: (broken)\n[WINNERS]: pobi, jun")) := by
    decide +kernel
  have won : (script.run Chance.greatest.counting ⟨.racing, false, ""⟩ ⟨0, 0⟩ ((), 0)).map
      (fun told => (told.1.status.cleared, told.1.lines[4]?)) =
    some (true, some ": --- Turn 1 ---\npobi: -\njun: (broken)\n[WINNERS]: pobi") := by
    decide +kernel
  rw [ran] at once even
  rw [other] at even won
  obtain rfl : draws = 1 := Option.some.inj once
  obtain ⟨front, turn⟩ := Prod.mk.inj (Option.some.inj even)
  obtain ⟨cleared, ahead⟩ := Prod.mk.inj (Option.some.inj won)
  exact ⟨left, right, ran, other, alike, front, turn, ahead, cleared⟩

end Script

end MissionScript
