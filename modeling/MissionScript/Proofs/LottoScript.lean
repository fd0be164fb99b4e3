import MissionScript.Proofs.Acceptance
import MissionScript.Proofs.LotteryStep

namespace MissionScript

namespace Lotto

/-- The latest entry of winning numbers. -/
def latestDraw (blocks : List Block) : Option Block :=
  (blocks.filter (·.command = .inputWinning)).getLast?

/-- The condition of a lottery block on the blocks before it. -/
def Fits (before : List Block) (block : Block) : Prop :=
  match block.command with
  | .buyTickets =>
    ∃ count ∈ (block.number? 0).bind Decimal.natural?, 1 ≤ count ∧ count ≤ 10000
  | .inputWinning =>
    (readNumbers (block.text 0)).length = 6 ∧ (readNumbers (block.text 0)).Nodup ∧
      ∀ number ∈ readNumbers (block.text 0), 1 ≤ number ∧ number ≤ 45
  | .inputBonus =>
    ∃ number ∈ (block.number? 0).bind Decimal.natural?, (1 ≤ number ∧ number ≤ 45) ∧
      ∀ latest ∈ latestDraw before, number ∉ readNumbers (latest.text 0)
  | .checkResult =>
    (∃ earlier ∈ before, earlier.command = .buyTickets) ∧
      (∃ earlier ∈ before, earlier.command = .inputWinning) ∧
      ∃ earlier ∈ before, earlier.command = .inputBonus
  | _ => False

instance (before : List Block) (block : Block) : Decidable (Fits before block) := by
  delta Fits
  exact match block.command with
    | .buyTickets => inferInstance
    | .inputWinning => inferInstance
    | .inputBonus => inferInstance
    | .checkResult => inferInstance
    | .inputNumber | .add | .subtract | .multiply | .divide => inferInstance
    | .setUpRace | .selectCar | .boost | .failure | .drift | .jump | .windBlock
    | .runTurn => inferInstance

private theorem latestDraw_concat (blocks : List Block) (block : Block) :
    latestDraw (blocks ++ [block]) =
      if block.command = .inputWinning then some block else latestDraw blocks := by
  by_cases draws : block.command = .inputWinning <;>
    simp [latestDraw, List.filter_append, draws]

end Lotto

namespace Progress

open Lotto (Lottery)

variable {State : Type} {source : Chance.Source State}

private theorem runLotto_done {progress next : Progress}
    (ran : progress.runLotto source block state = some (.done text (next, after))) :
    Lottery.Handled source progress.lottery state block text next.lottery after ∧
      next.cleared = (progress.cleared || block.command = .checkResult) := by
  unfold runLotto at ran
  obtain ⟨⟨answer, lottery, later⟩, handled, ended⟩ := Option.bind_eq_some_iff.mp ran
  rcases Lottery.handle_cases handled with ⟨said, rfl, step⟩ | ⟨fault, rfl, _⟩
  · obtain ⟨rfl, rfl, rfl⟩ := Outcome.some_done_inj.mp ended
    exact ⟨step, rfl⟩
  · simp [Outcome.failed, Outcome.done] at ended

private theorem runLotto_of_handled {progress : Progress} {changed : Lottery}
    (handled : Lottery.Handled source progress.lottery state block text changed after) :
    ∃ next, progress.runLotto source block state = some (.done text (next, after)) := by
  unfold runLotto
  rw [handled.done]
  exact ⟨_, rfl⟩

theorem runLotto_isSome (endless : source.Endless) (inRange : source.InRange) (progress : Progress)
    (block : Block) (state : State) : (progress.runLotto source block state).isSome := by
  obtain ⟨⟨answer, lottery, after⟩, handled⟩ := Option.isSome_iff_exists.mp
    (Lottery.handle_isSome endless inRange progress.lottery block state)
  unfold runLotto
  rw [handled]
  cases answer with
  | error fault => rfl
  | ok text => rfl

/-- The lottery shows the purchases and the draws of the blocks so far. -/
structure ShowsLottery (history : List Block) (progress : Progress) : Prop where
  bought : progress.lottery.tickets ≠ [] ↔ ∃ earlier ∈ history, earlier.command = .buyTickets
  entered : progress.lottery.winning ≠ [] ↔ ∃ earlier ∈ history, earlier.command = .inputWinning
  winning : ∀ number, number ∈ progress.lottery.winning ↔
    ∃ latest ∈ Lotto.latestDraw history, number ∈ Lottery.entries latest
  bonus : progress.lottery.bonus.isSome ↔ ∃ earlier ∈ history, earlier.command = .inputBonus
  cleared : progress.cleared = true ↔ ∃ earlier ∈ history, earlier.command = .checkResult

private theorem step_of_fits (endless : source.Endless) (inRange : source.InRange)
    (shows : ShowsLottery history progress) (fits : Lotto.Fits history block) (state : State) :
    ∃ text next after, Lottery.Handled source progress.lottery state block text next after := by
  unfold Lotto.Fits at fits
  split at fits
  case h_1 asks =>
    obtain ⟨count, asked, least, most⟩ := fits
    obtain ⟨⟨tickets, after⟩, drawn⟩ := Option.isSome_iff_exists.mp
      (Lotto.Ticket.drawMany_isSome endless inRange count state)
    have found := Lottery.purchase?_eq_some_iff.mpr ⟨asked, least, most⟩
    exact ⟨_, _, after, .buy asks found drawn⟩
  case h_2 asks => exact ⟨_, _, state, .winning asks fits⟩
  case h_3 asks =>
    obtain ⟨number, given, inGame, apart⟩ := fits
    have absent : number ∉ progress.lottery.winning := by
      rw [shows.winning]
      rintro ⟨latest, last, listed⟩
      exact apart latest last listed
    exact ⟨_, _, state, .bonus asks given (Lotto.isInGame_iff.mpr inGame) absent⟩
  case h_4 asks =>
    obtain ⟨summary, checked⟩ := Lottery.check_isOk_iff.mpr
      ⟨shows.bought.mpr fits.1, shows.entered.mpr fits.2.1, shows.bonus.mpr fits.2.2⟩
    exact ⟨_, _, state, .check asks checked⟩
  case h_5 => exact False.elim fits

private theorem fits_of_step {progress : Progress} {block : Block} {next : Lottery}
    (shows : ShowsLottery history progress)
    (handled : Lottery.Handled source progress.lottery state block text next after) :
    Lotto.Fits history block := by
  unfold Lotto.Fits
  cases handled with
  | buy asks asked drawn =>
    simp only [asks]
    exact ⟨_, Lottery.purchase?_eq_some_iff.mp asked⟩
  | winning asks drawable =>
    simp only [asks]
    exact drawable
  | bonus asks given inGame apart =>
    simp only [asks]
    refine ⟨_, given, Lotto.isInGame_iff.mp inGame, ?_⟩
    intro latest last listed
    exact apart ((shows.winning _).mpr ⟨latest, last, listed⟩)
  | check asks checked =>
    obtain ⟨bought, entered, bonus⟩ := Lottery.check_isOk_iff.mp ⟨_, checked⟩
    simp only [asks]
    exact ⟨shows.bought.mp bought, shows.entered.mp entered, shows.bonus.mp bonus⟩

private theorem shows_of_step (inRange : source.InRange) {progress next : Progress} {block : Block}
    (shows : ShowsLottery history progress)
    (handled : Lottery.Handled source progress.lottery state block text next.lottery after)
    (cleared : next.cleared = (progress.cleared || block.command = .checkResult)) :
    ShowsLottery (history ++ [block]) next where
  bought := by
    rcases handled.tickets_eq inRange with ⟨asks, asked, _⟩ | ⟨other, same⟩
    · have least := (Lottery.purchase?_eq_some_iff.mp asked).2.1
      refine iff_of_true ?_ ⟨block, by simp, asks⟩
      exact List.length_pos_iff.mp least
    · simp [same, other, shows.bought]
  entered := by
    rcases handled.winning_eq with ⟨asks, drawable, same⟩ | ⟨other, same⟩
    · refine iff_of_true ?_ ⟨block, by simp, asks⟩
      rw [same]
      exact List.ne_nil_of_length_eq_add_one ((List.length_mergeSort _).trans drawable.1)
    · simp [same, other, shows.entered]
  winning := by
    intro number
    rw [Lotto.latestDraw_concat]
    rcases handled.winning_eq with ⟨asks, drawable, same⟩ | ⟨other, same⟩
    · simp [same, asks]
    · simp [same, other, shows.winning]
  bonus := by
    rcases handled.bonus_eq with ⟨asks, number, _, _, _, same⟩ | ⟨other, same⟩
    · simp [same, asks]
    · simp [same, other, shows.bonus]
  cleared := by
    by_cases asks : block.command = .checkResult <;> simp [cleared, asks, shows.cleared]

/-- The law of the lottery stage: no draw decides whether a block runs. -/
theorem lottoLaw (endless : source.Endless) (inRange : source.InRange) :
    StageLaw source .lotto (·.Belongs .lotto) Lotto.Fits ShowsLottery where
  total := by
    intro block belongs progress state
    rw [runBlock_lotto belongs]
    exact runLotto_isSome endless inRange progress block state
  accepts := by
    intro history progress block shows belongs fits state
    obtain ⟨text, changed, after, handled⟩ := step_of_fits endless inRange shows fits state
    obtain ⟨next, ran⟩ := runLotto_of_handled handled
    exact ⟨text, next, after, by rw [runBlock_lotto belongs, ran]⟩
  keeps := by
    intro history progress block state text next after shows belongs ran
    rw [runBlock_lotto belongs] at ran
    obtain ⟨handled, cleared⟩ := runLotto_done ran
    exact ⟨fits_of_step shows handled, shows_of_step inRange shows handled cleared⟩

/-- A script of lottery blocks comes to its end exactly if every block fits after the blocks before
it. Then the mission is cleared exactly if there is a check in the script. -/
theorem lotto_run {source : Chance.Source State} (endless : source.Endless)
    (inRange : source.InRange) (script : Script) (status : Status)
    (inStage : status.stage = .lotto) (nonempty : script.blocks ≠ [])
    (lotto : ∀ block ∈ script.blocks, block.Belongs .lotto) (time : Timestamp) (state : State) :
    ∃ report after, script.run source status time state = some (report, after) ∧
      (¬ report.Aborted ↔ Kept Lotto.Fits script.blocks) ∧
      (¬ report.Aborted → (report.status.cleared = true ↔
        ∃ block ∈ script.blocks, block.command = .checkResult)) := by
  have start : ShowsLottery [] .start := by
    refine ⟨?_, ?_, ?_, ?_, ?_⟩ <;> simp [Progress.start, Lottery.empty, Lotto.latestDraw]
  obtain ⟨report, after, ran, accepted, complete⟩ :=
    (lottoLaw endless inRange).run start inStage nonempty lotto time state
  refine ⟨report, after, ran, accepted, ?_⟩
  intro finished
  obtain ⟨texts, last, trace, shows, _, ended⟩ := complete finished
  rw [ended, Status.afterRun_cleared (by simp [inStage]), ← shows.cleared]
  simp [clears]

/-- A draw may be entered before the purchase, and twice: only the latest one bars a bonus
number. -/
theorem lotto_run_redrawn :
    let script : Script := ⟨[.bare .inputWinning [.text "1, 2,3,x,4,,5,+7"],
      .bare .inputWinning [.text "45,44,43,42,41,40"], .bare .inputBonus [.text " 7.0 "],
      .bare .buyTickets [.number 2], .bare .checkResult []]⟩
    ∃ report after, script.run Chance.least ⟨.lotto, false, ""⟩ ⟨0, 0⟩ () = some (report, after) ∧
      ¬ report.Aborted ∧ report.status.cleared = true := by
  intro script
  obtain ⟨report, after, ran, accepted, cleared⟩ := lotto_run Chance.least_endless
    Chance.least_inRange script ⟨.lotto, false, ""⟩ rfl (by decide) (by decide) ⟨0, 0⟩ ()
  have finished : ¬ report.Aborted := accepted.mpr (by decide +kernel)
  refine ⟨report, after, ran, finished, (cleared finished).mpr ?_⟩
  exact ⟨.bare .checkResult [], by decide, rfl⟩

end Progress

end MissionScript
