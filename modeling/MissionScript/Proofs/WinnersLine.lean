import MissionScript.Proofs.OfferedCars
import MissionScript.Proofs.RaceResult
import MissionScript.Proofs.RunWithout

namespace MissionScript

namespace Racing

variable {State : Type} {source : Chance.Source State}

/-- What a turn draws of a car: its name, its track, and whether it was broken. -/
structure Row where
  name : String
  steps : Nat
  broken : Bool
  deriving DecidableEq, Repr

namespace Row

def track (row : Row) : String := .ofList (List.replicate row.steps '-')

def text (row : Row) : String :=
  row.name ++ ": " ++ row.track ++ if row.broken then "(broken)" else ""

/-- The dashes on the track. -/
def dashes (row : Row) : Nat := row.track.toList.count '-'

private theorem dashes_eq (row : Row) : row.dashes = row.steps := by
  simp [dashes, track]

/-- The rows with the most dashes, in their order. -/
def longest (rows : List Row) : List Row :=
  rows.filter fun row => ∀ other ∈ rows, other.dashes ≤ row.dashes

private theorem longest_ne_nil {rows : List Row} (drawn : rows ≠ []) : longest rows ≠ [] := by
  obtain ⟨most, greatest⟩ : ∃ most, (rows.map dashes).max? = some most :=
    Option.isSome_iff_exists.mp (by simpa using drawn)
  obtain ⟨member, bound⟩ := List.max?_eq_some_iff.mp greatest
  obtain ⟨row, inside, rfl⟩ := List.mem_map.mp member
  have long : row ∈ longest rows :=
    List.mem_filter.mpr ⟨inside, decide_eq_true fun other there => bound _ (List.mem_map_of_mem there)⟩
  exact List.ne_nil_of_mem long

end Row

/-- The row that a turn draws of a car. -/
def Car.row (car : Car) : Row := ⟨car.name, car.position.toNat, car.broken⟩

private theorem Car.tried_mark (car : Car) (draw : Option UInt32) :
    (car.tried draw).mark = car.mark := by
  unfold tried
  split
  · rfl
  · split <;> rfl

private theorem Draws.marks {cars : List Car} (drawn : Draws source cars state draws after) :
    (List.zipWith Car.tried cars draws).map Car.mark = cars.map Car.mark := by
  induction drawn with
  | nil => rfl
  | stalls _ _ ih | drawn _ _ _ ih => simp [Car.tried_mark, ih]

private theorem leaders?_rows {cars : List Car} (entered : cars ≠ []) :
    leaders? (cars.map fun car => (car.name, car.position)) =
      some ((Row.longest (cars.map Car.row)).map (·.name)) := by
  rw [leaders?_eq (by simpa using entered), Row.longest, List.filter_map, List.filter_map,
    List.map_map, List.map_map]
  refine congrArg (fun leaders => some (leaders.map Car.name)) (List.filter_congr fun car _ =>
    decide_eq_decide.mpr ?_)
  simp [Row.dashes_eq, Car.row, UInt32.le_iff_toNat_le]

/-- Within six characters behind each line break stands a colon. A name can break a line, but it is too
short to write a list of winners before its own colon. -/
def Prompt : List Char → Prop
  | [] => True
  | char :: rest => (char = '\n' → ':' ∈ rest.take 6) ∧ Prompt rest

namespace Prompt

private theorem append {front back : List Char} (first : Prompt front) (second : Prompt back) :
    Prompt (front ++ back) := by
  induction front with
  | nil => exact second
  | cons char front ih =>
    refine ⟨fun breaks => ?_, ih first.2⟩
    have soon : ':' ∈ front.take 6 ++ back.take (6 - front.length) :=
      List.mem_append_left _ (first.1 breaks)
    exact List.take_append ▸ soon

private theorem of_unbroken {chars : List Char} (unbroken : '\n' ∉ chars) : Prompt chars := by
  induction chars with
  | nil => trivial
  | cons char chars ih =>
    rw [List.mem_cons, not_or] at unbroken
    exact ⟨fun breaks => absurd breaks.symm unbroken.1, ih unbroken.2⟩

private theorem of_short {chars : List Char} (short : chars.length ≤ 6) : Prompt (chars ++ [':']) := by
  induction chars with
  | nil => exact of_unbroken (by decide)
  | cons char chars ih =>
    rw [List.length_cons] at short
    refine ⟨fun _ => ?_, ih (by omega)⟩
    rw [List.take_of_length_le (by simpa using short)]
    simp

private theorem colon {front back : List Char} (prompt : Prompt (front ++ '\n' :: back)) :
    ':' ∈ back.take 6 := by
  induction front with
  | nil => exact prompt.1 rfl
  | cons char front ih => exact ih prompt.2

private theorem intercalate {header : String} {tracks : List String} (first : Prompt header.toList)
    (others : ∀ track ∈ tracks, Prompt ('\n' :: track.toList)) :
    Prompt ("\n".intercalate (header :: tracks)).toList := by
  induction tracks generalizing header with
  | nil => simpa using first
  | cons track tracks ih =>
    rw [List.forall_mem_cons] at others
    have joined : "\n".intercalate (header :: track :: tracks) =
        "\n".intercalate ((header ++ "\n" ++ track) :: tracks) := rfl
    rw [joined]
    refine ih ?_ others.2
    simpa using first.append others.1

private theorem track {car : Car} (short : car.name.length ≤ 5) :
    Prompt ('\n' :: car.track.toList) := by
  have named : Prompt (('\n' :: car.name.toList) ++ [':']) := by
    refine of_short ?_
    rw [List.length_cons, String.length_toList]
    omega
  have drawn : Prompt (' ' :: List.replicate car.position.toNat '-' ++
      (if car.broken then "(broken)" else "").toList) := by
    refine of_unbroken ?_
    cases car.broken <;> simp
  simpa [Car.track] using named.append drawn

private theorem header (turn : Nat) : Prompt ("--- Turn " ++ toString turn ++ " ---").toList := by
  refine of_unbroken ?_
  have digits : '\n' ∉ Nat.toDigits 10 turn := fun member =>
    absurd (Nat.isDigit_of_mem_toDigits (by decide) (by decide) member) (by decide)
  simp [digits]

end Prompt

namespace Race

/-- A turn breaks its text before the tracks and in names, and neither break stands far from a colon. -/
private theorem Handled.prompt {race : Race}
    (handled : Handled source race state block text next after)
    (asks : block.command = .runTurn) (short : ∀ name ∈ race.names, name.length ≤ 5) :
    Prompt text.toList := by
  cases handled with
  | setUp other | register other => simp [asks] at other
  | event happens => simp [asks, event?] at happens
  | late => exact .of_unbroken (by decide)
  | turn _ entered left taken =>
    have names := takeTurns_names taken
    obtain ⟨draws, drawn, rfl⟩ := takeTurns_eq_some_iff.mp taken
    refine .intercalate (.header _) fun track member => ?_
    obtain ⟨_, shown, rfl⟩ := List.mem_map.mp member
    obtain ⟨car, moved, rfl⟩ := List.mem_map.mp shown
    refine .track (short _ ?_)
    rw [Race.names, ← names]
    exact List.mem_map.mpr ⟨_, shown, rfl⟩

private theorem Handled.drawn {race : Race} (handled : Handled source race state block text next after)
    (asks : block.command = .runTurn) (going : race.isFinished = false)
    (finished : next.isFinished = true) :
    ∃ moved : List Car, text = turnText next.turn moved ∧ next.cars = moved.map Car.endTurn ∧
      moved.map Car.mark = race.cars.map Car.mark := by
  cases handled with
  | setUp other | register other => simp [asks] at other
  | event happens => simp [asks, event?] at happens
  | late => simp [going] at finished
  | turn _ _ _ taken =>
    obtain ⟨draws, drawn, rfl⟩ := takeTurns_eq_some_iff.mp taken
    refine ⟨List.zipWith Car.tried race.cars draws, ?_, ?_, drawn.marks⟩
    · simp only [turnText_eq, List.map_map, Function.comp_def, Car.shown]
    · simp only [List.map_map, Function.comp_def, Car.shown]

end Race

end Racing

namespace Progress

open Racing (Car Race Row Prompt leaders?_rows)

variable {State : Type} {source : Chance.Source State}

/-- The text ends with a list of winners, on a line of its own. -/
def NamesWinners (text : String) : Prop :=
  ∃ front winners, text = front ++ "\n[WINNERS]: " ++ ", ".intercalate winners

private theorem not_namesWinners_of_prompt (prompt : Prompt text.toList) : ¬ NamesWinners text := by
  rintro ⟨front, winners, rfl⟩
  have opened : "\n[WINNERS]: ".toList = '\n' :: ("[WINNE".toList ++ "RS]: ".toList) := by decide
  rw [String.toList_append, String.toList_append, opened, List.append_assoc, List.cons_append,
    List.append_assoc] at prompt
  have colon := prompt.colon
  rw [List.take_left' (by decide)] at colon
  exact absurd colon (by decide)

/-- A turn names winners exactly if the race is finished after it. -/
theorem Stepped.namesWinners_iff {progress next : Progress} (sound : progress.race.Sound)
    (belongs : block.Belongs .racing) (asks : block.command = .runTurn)
    (stepped : Stepped source .racing progress state block text next after) :
    NamesWinners text ↔ next.race.isFinished = true := by
  obtain ⟨told, changed, handled, rfl, rfl⟩ := stepped.handled belongs
  have prompt := handled.prompt asks fun name member => (sound.length name member).2
  rw [toldWinners?_of_turn asks]
  cases won : changed.winners? with
  | none =>
    have going : ¬ changed.isFinished = true := fun finished => by
      simpa [won] using Race.winners?_isSome_iff.mpr ⟨finished, handled.cars_ne_nil asks⟩
    exact iff_of_false (not_namesWinners_of_prompt prompt) going
  | some winners =>
    have finished := (Race.winners?_isSome_iff.mp (Option.isSome_of_eq_some won)).1
    exact iff_of_true ⟨told, winners, rfl⟩ finished

/-- The turn that ends a race draws its cars in rows, and it names those with the most dashes. -/
theorem Stepped.winners_drawn {progress next : Progress} (sound : progress.race.Sound)
    (belongs : block.Belongs .racing) (asks : block.command = .runTurn)
    (stepped : Stepped source .racing progress state block text next after)
    (going : progress.race.isFinished = false) (finished : next.race.isFinished = true) :
    ∃ rows : List Row, rows.map (·.name) = progress.race.names ∧
      rows.map (·.steps) = next.race.cars.map (·.position.toNat) ∧
      rows.map (·.broken) = progress.race.cars.map (·.broken) ∧
      text = "\n".intercalate (("--- Turn " ++ toString next.race.turn ++ " ---") :: rows.map Row.text)
        ++ "\n[WINNERS]: " ++ ", ".intercalate ((Row.longest rows).map (·.name)) ∧
      Row.longest rows ≠ [] ∧ ((Row.longest rows).map (·.name)).Nodup := by
  obtain ⟨told, changed, handled, rfl, rfl⟩ := stepped.handled belongs
  have entered := handled.cars_ne_nil asks
  obtain ⟨moved, rfl, cars, marks⟩ := handled.drawn asks going finished
  have names : moved.map (·.name) = progress.race.names := by
    simpa [Race.names, Car.mark, Function.comp_def] using congrArg (List.map Prod.fst) marks
  have broken : moved.map (·.broken) = progress.race.cars.map (·.broken) := by
    simpa [Car.mark, Function.comp_def] using congrArg (List.map Prod.snd) marks
  have nonempty : moved ≠ [] := by
    rintro rfl
    exact entered cars
  have won : changed.winners? = some ((Row.longest (moved.map Car.row)).map (·.name)) := by
    rw [Race.winners?_eq_leaders? finished, ← leaders?_rows nonempty, Race.places, cars, List.map_map]
    rfl
  have rows : (moved.map Car.row).map (·.name) = progress.race.names := by
    rw [← names, List.map_map]
    rfl
  refine ⟨moved.map Car.row, rows, ?_, ?_, ?_, Racing.Row.longest_ne_nil (by simpa using nonempty), ?_⟩
  · rw [cars, List.map_map, List.map_map]
    rfl
  · rw [← broken, List.map_map]
    rfl
  · rw [toldWinners?_of_turn asks, won, List.map_map]
    rfl
  · have within : ((Row.longest (moved.map Car.row)).map (·.name)).Sublist progress.race.names := by
      rw [← rows]
      exact List.filter_sublist.map _
    exact within.nodup sound.apart

end Progress

namespace Script

open Racing (Row)
open Progress

variable {State : Type} {source : Chance.Source State} {status : Status}

/-- The winners agree with the track that they follow. In a racing run, a turn that succeeds ends with a
list of winners exactly if the race is finished after it. The turn that ends a race draws a row for each
car, in the order of the registration, and behind them it names the cars whose rows have the most dashes,
at least one and each once, in the order of the rows. -/
theorem run_winners_drawn {script : Script} (inStage : status.stage = .racing)
    (ran : script.run source status time state = some (report, final))
    (split : script.blocks = before ++ block :: rest) (belongs : block.Belongs .racing)
    (asks : block.command = .runTurn)
    (early : Ran source .racing .start state before texts reached middle)
    (done : runBlock source .racing reached block middle = some (.done text (next, after))) :
    report.lines[before.length]? = some (block.label ++ ": " ++ text) ∧
      (NamesWinners text ↔ next.race.isFinished = true) ∧
      (reached.race.isFinished = false → next.race.isFinished = true →
        ∃ rows : List Row, rows.map (·.name) = namesOf before ∧
          rows.map (·.steps) = next.race.cars.map (·.position.toNat) ∧
          rows.map (·.broken) = reached.race.cars.map (·.broken) ∧
          text = "\n".intercalate (("--- Turn " ++ toString next.race.turn ++ " ---") ::
              rows.map Row.text) ++ "\n[WINNERS]: " ++
            ", ".intercalate ((Row.longest rows).map (·.name)) ∧
          Row.longest rows ≠ [] ∧ ((Row.longest rows).map (·.name)).Nodup) := by
  have stepped := runBlock_eq_done_iff.mp done
  have sound := early.sound Racing.Race.sound_empty
  have names : reached.race.names = namesOf before := early.names_eq_append
  refine ⟨?_, stepped.namesWinners_iff sound belongs asks, fun going finished => ?_⟩
  · obtain ⟨blocks⟩ := script
    obtain rfl : blocks = (before ++ [block]) ++ rest := by simpa using split
    rw [← inStage] at early stepped
    have taken := lines_take_of_ran (early.append (.cons stepped.runBlock_eq .nil)) ran
    have place := congrArg (·[before.length]?) taken
    have told : (texts ++ [text])[before.length]? = some text := by simp [← early.length_eq]
    have inside : before.length < (before ++ [block]).length := by simp
    simp only [List.getElem?_take_of_lt inside] at place
    exact place.trans (line_at told)
  · rw [← names]
    exact stepped.winners_drawn sound belongs asks going finished

/-- Two of three cars win together, and the third is broken. -/
theorem run_winners_drawn_tied :
    let blocks : List Block := [.bare .setUpRace [.number 1],
      .bare .selectCar [.text "pobi", .text "소나타"], .bare .selectCar [.text "jun", .text "제네시스"],
      .bare .selectCar [.text "woni", .text "그랜저"], .bare .failure [.text "jun"]]
    let turn : Block := .bare .runTurn []
    ∃ report texts reached text next rows,
      (⟨blocks ++ [turn]⟩ : Script).run Chance.greatest ⟨.racing, false, ""⟩ ⟨0, 0⟩ () =
        some (report, ()) ∧
      Ran Chance.greatest .racing .start () blocks texts reached () ∧
      runBlock Chance.greatest .racing reached turn () = some (.done text (next, ())) ∧
      reached.race.isFinished = false ∧ next.race.isFinished = true ∧
      report.lines[5]? = some (": " ++ text) ∧ NamesWinners text ∧
      rows = [⟨"pobi", 1, false⟩, ⟨"jun", 0, true⟩, ⟨"woni", 1, false⟩] ∧
      text = "--- Turn 1 ---\npobi: -\njun: (broken)\nwoni: -\n[WINNERS]: pobi, woni" ∧
      (Row.longest rows).map (·.name) = ["pobi", "woni"] := by
  intro blocks turn
  have listed : namesOf blocks = ["pobi", "jun", "woni"] := by decide
  let pobi : Racing.Car := ⟨"pobi", .sonata, 0, false, false, none⟩
  let jun : Racing.Car := ⟨"jun", .genesis, 0, false, false, none⟩
  let woni : Racing.Car := ⟨"woni", .grandeur, 0, false, false, none⟩
  have ended : ((⟨blocks ++ [turn]⟩ : Script).run Chance.greatest ⟨.racing, false, ""⟩ ⟨0, 0⟩ ()).map
      (decide ·.1.Aborted) = some false := by decide +kernel
  have before : (runBlocks Chance.greatest .racing blocks .start ()).map (·.2.1.map (·.race)) =
      some (some ⟨[pobi, { jun with broken := true }, woni], 1, 0⟩) := by decide +kernel
  have behind : (runBlocks Chance.greatest .racing (blocks ++ [turn]) .start ()).map
      (·.2.1.map (·.race)) =
      some (some ⟨[{ pobi with position := 1 }, jun, { woni with position := 1 }], 1, 1⟩) := by
    decide +kernel
  obtain ⟨⟨report, _⟩, ran, unaborted⟩ := Option.map_eq_some_iff.mp ended
  obtain ⟨_, last, trace⟩ := ran_of_unaborted (by simp) ran (of_decide_eq_false unaborted)
  obtain ⟨texts, answers, reached, _, rfl, early, late⟩ := trace.split
  obtain ⟨text, rfl⟩ := List.length_eq_one_iff.mp late.length_eq
  cases late with
  | cons done rest =>
    cases rest
    rw [early.runBlocks_eq] at before
    rw [trace.runBlocks_eq] at behind
    obtain found : reached.race = _ := by simpa using before
    obtain left : last.race = _ := by simpa using behind
    have going : reached.race.isFinished = false := by rw [found]; rfl
    have finished : last.race.isFinished = true := by rw [left]; rfl
    obtain ⟨told, named, drawn⟩ := run_winners_drawn rfl ran rfl ⟨rfl, rfl⟩ rfl early done
    obtain ⟨rows, names, steps, broken, same, _⟩ := drawn going finished
    rw [left] at steps same
    rw [found] at broken
    have own : rows = [⟨"pobi", 1, false⟩, ⟨"jun", 0, true⟩, ⟨"woni", 1, false⟩] := by
      have three : rows.length = 3 := by simpa [listed] using congrArg List.length names
      obtain ⟨⟨_, _, _⟩, ⟨_, _, _⟩, ⟨_, _, _⟩, rfl⟩ := List.length_eq_three.mp three
      simp only [listed, List.map_cons, List.map_nil, List.cons.injEq, and_true] at names steps broken
      simp [names, steps, broken, pobi, jun, woni]
    refine ⟨report, texts, reached, text, last, rows, ran, early, done, going, finished, told,
      named.mpr finished, own, ?_, ?_⟩
    · rw [same, own]
      decide +kernel
    · rw [own]
      decide +kernel

end Script

end MissionScript
