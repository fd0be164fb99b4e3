import MissionScript.Proofs.IdleSkill

/-! Displaced drifts. A skill takes the place of the one that still waits, and a drift that is
displaced no longer adds its step. A race in which that has happened is followed beside the race in
which the drift still waits, up to the move that uses it. -/
namespace MissionScript.Racing

variable {State : Type} {source : Chance.Source State}

/-- The first car of a name. -/
def first? (name : String) (cars : List Car) : Option Car := cars.find? (·.name = name)

/-- A drift waits for the next move of the car. -/
def Drifts (name : String) (cars : List Car) : Prop :=
  (first? name cars).bind Car.skill = some .drift

instance (name : String) (cars : List Car) : Decidable (Drifts name cars) :=
  inferInstanceAs (Decidable (_ = _))

/-- How far the car has gone. -/
def distance? (name : String) (cars : List Car) : Option UInt32 :=
  (first? name cars).map Car.position

@[simp]
private theorem first?_cons_of_eq (named : car.name = name) (cars : List Car) :
    first? name (car :: cars) = some car := by
  simp [first?, named]

@[simp]
private theorem first?_cons_of_ne (other : car.name ≠ name) (cars : List Car) :
    first? name (car :: cars) = first? name cars := by
  simp [first?, other]

/-- The same cars, but the drift of the first one of the name waits on the left, and on the right
another skill has displaced it. -/
inductive Displaced (name : String) : List Car → List Car → Prop where
  | here {car : Car} {others : List Car} {skill : Skill} (named : car.name = name)
      (drifting : car.skill = some .drift) (idle : skill ≠ .drift) :
      Displaced name (car :: others) ({ car with skill := some skill } :: others)
  | later {car : Car} {cars rivals : List Car} (other : car.name ≠ name)
      (displaced : Displaced name cars rivals) :
      Displaced name (car :: cars) (car :: rivals)

theorem Displaced.drifts (displaced : Displaced name cars rivals) : Drifts name cars := by
  induction displaced with
  | here named drifting idle => simp [Drifts, named, drifting]
  | later other displaced ih => simpa [Drifts, other] using ih

private theorem Displaced.unskilled (displaced : Displaced name cars rivals) :
    cars.map Car.unskilled = rivals.map Car.unskilled := by
  induction displaced with
  | here named drifting idle => rfl
  | later other displaced ih => rw [List.map_cons, List.map_cons, ih]

private theorem Displaced.append (displaced : Displaced name cars rivals) (more : List Car) :
    Displaced name (cars ++ more) (rivals ++ more) := by
  induction displaced with
  | here named drifting idle => exact .here named drifting idle
  | later other displaced ih => exact .later other ih

/-- An event does not end the difference unless it activates a skill for the car itself, and no event
moves the car. -/
private theorem Displaced.event (displaced : Displaced name cars rivals)
    (happens : Race.event? command = some happening)
    (changed : Race.changeFirst target happening cars = some (text, others)) :
    ∃ rest, Race.changeFirst target happening rivals = some (text, rest) ∧
      distance? name others = distance? name cars ∧
      ((skill? command).isSome ∧ target = name ∧ others = rest ∨
        ¬ ((skill? command).isSome ∧ target = name) ∧ Displaced name others rest) := by
  obtain ⟨told, tells⟩ := Race.event?_told happens
  induction displaced generalizing others with
  | @here car back skill named drifting idle =>
    obtain ⟨found, rfl, rfl⟩ | ⟨different, rest, found, rfl⟩ :=
      Race.changeFirst_cons_eq_some_iff.mp changed
    · have kept := (Race.event?_name happens car).trans named
      have same : (happening car).1 = (happening { car with skill := some skill }).1 := by
        rw [tells, tells]
      refine ⟨(happening { car with skill := some skill }).2 :: back,
        Race.changeFirst_cons_eq_some_iff.mpr (.inl ⟨found, same, rfl⟩), ?_, ?_⟩
      · simp [distance?, kept, named, Race.event?_position happens]
      cases Race.effect happens with
      | activates chosen asks acts =>
        exact .inl ⟨by simp [asks], found.symm.trans named, by rw [acts]; rfl⟩
      | passes other keeps ignores =>
        rw [ignores car (some skill)]
        exact .inr ⟨by simp [other], .here kept ((keeps car).trans drifting) idle⟩
    · refine ⟨{ car with skill := some skill } :: rest,
        Race.changeFirst_cons_eq_some_iff.mpr (.inr ⟨different, rest, found, rfl⟩),
        by simp [distance?, named], .inr ⟨?_, .here named drifting idle⟩⟩
      rintro ⟨_, rfl⟩
      exact different named
  | @later car cars rivals other displaced ih =>
    obtain ⟨found, rfl, rfl⟩ | ⟨different, rest, found, rfl⟩ :=
      Race.changeFirst_cons_eq_some_iff.mp changed
    · have kept : (happening car).2.name ≠ name := by rwa [Race.event?_name happens]
      refine ⟨(happening car).2 :: rivals,
        Race.changeFirst_cons_eq_some_iff.mpr (.inl ⟨found, rfl, rfl⟩),
        by simp [distance?, kept, other], .inr ⟨?_, .later kept displaced⟩⟩
      rintro ⟨_, rfl⟩
      exact other found
    · obtain ⟨later, done, still, fate⟩ := ih found
      refine ⟨car :: later,
        Race.changeFirst_cons_eq_some_iff.mpr (.inr ⟨different, later, done, rfl⟩),
        by simpa [distance?, other] using still, ?_⟩
      rcases fate with ⟨acts, same, rfl⟩ | ⟨passive, apart⟩
      · exact .inl ⟨acts, same, rfl⟩
      · exact .inr ⟨passive, .later other apart⟩

/-- Two texts that begin alike, go on with runs of dashes that are not equally long, and have no dash
behind these. -/
def TracksDiffer (text answer : String) : Prop :=
  ∃ (stem one other : List Char) (long short : Nat), long ≠ short ∧
    one.head? ≠ some '-' ∧ other.head? ≠ some '-' ∧
    text.toList = stem ++ List.replicate long '-' ++ one ∧
    answer.toList = stem ++ List.replicate short '-' ++ other

private theorem takeWhile_dashes (count : Nat) {rest : List Char} (ends : rest.head? ≠ some '-') :
    (List.replicate count '-' ++ rest).takeWhile (· = '-') = List.replicate count '-' := by
  have none : rest.takeWhile (· = '-') = [] := by
    cases rest with
    | nil => rfl
    | cons first rest =>
      have other : first ≠ '-' := by simpa using ends
      simp [other]
  simp [none]

theorem TracksDiffer.ne (differ : TracksDiffer text answer) : text ≠ answer := by
  obtain ⟨stem, one, other, long, short, apart, ends, otherEnds, left, right⟩ := differ
  rintro rfl
  have same := left.symm.trans right
  rw [List.append_assoc, List.append_assoc] at same
  have dashes := congrArg (List.takeWhile (· = '-')) (List.append_cancel_left same)
  rw [takeWhile_dashes long ends, takeWhile_dashes short otherEnds] at dashes
  exact apart (by simpa using congrArg List.length dashes)

private theorem TracksDiffer.behind (differ : TracksDiffer text answer) (front : String) :
    TracksDiffer (front ++ text) (front ++ answer) := by
  obtain ⟨stem, one, other, long, short, apart, ends, otherEnds, left, right⟩ := differ
  exact ⟨front.toList ++ stem, one, other, long, short, apart, ends, otherEnds,
    by simp [left], by simp [right]⟩

theorem TracksDiffer.before (differ : TracksDiffer text answer) {last final : String}
    (fits : last.toList.head? ≠ some '-') (otherFits : final.toList.head? ≠ some '-') :
    TracksDiffer (text ++ last) (answer ++ final) := by
  obtain ⟨stem, one, other, long, short, apart, ends, otherEnds, left, right⟩ := differ
  have joined {front back : List Char} (ends : front.head? ≠ some '-')
      (fits : back.head? ≠ some '-') : (front ++ back).head? ≠ some '-' := by
    cases front with
    | nil => exact fits
    | cons first rest => exact ends
  exact ⟨stem, one ++ last.toList, other ++ final.toList, long, short, apart, joined ends fits,
    joined otherEnds otherFits, by simp [left], by simp [right]⟩

/-- The lines of a track, one below the other. -/
def drawn (lines : List String) : String := "\n".intercalate lines

private theorem TracksDiffer.below {cars rivals : List Car}
    (differ : TracksDiffer (drawn (cars.map Car.track)) (drawn (rivals.map Car.track)))
    (line : String) (entered : cars ≠ []) (beside : rivals ≠ []) :
    TracksDiffer (drawn (line :: cars.map Car.track)) (drawn (line :: rivals.map Car.track)) := by
  have above {cars : List Car} (entered : cars ≠ []) :
      drawn (line :: cars.map Car.track) = line ++ "\n" ++ drawn (cars.map Car.track) :=
    String.intercalate_cons_of_ne_nil (by simpa using entered)
  rw [above entered, above beside]
  exact differ.behind _

private theorem drawn_first (lines : List String) : ∃ rest : String, rest.toList.head? ≠ some '-' ∧
    ∀ line, drawn (line :: lines) = line ++ rest := by
  cases lines with
  | nil => exact ⟨"", by decide, fun line => by simp [drawn]⟩
  | cons next lines =>
    refine ⟨"\n" ++ drawn (next :: lines), by simp, fun line => ?_⟩
    rw [← String.append_assoc]
    exact String.intercalate_cons_cons

/-- Two positions of one car that is not broken are drawn as different tracks. -/
theorem tracks_differ {car rival : Car} (named : car.name = rival.name)
    (apart : car.position ≠ rival.position) (able : car.broken = false)
    (otherAble : rival.broken = false) : TracksDiffer car.track rival.track := by
  refine ⟨(car.name ++ ": ").toList, [], [], car.position.toNat, rival.position.toNat,
    mt UInt32.toNat_inj.mp apart, by decide, by decide, ?_, ?_⟩
  · simp [Car.track, able]
  · simp [Car.track, otherAble, named]

/-- What a turn makes of a drift that waits on one side only, as the cars stand when they have moved:
it goes on to wait, it is wasted on a move that fails, or it is used and the tracks differ. -/
inductive TurnFate (name : String) (cars moved others : List Car) : Prop where
  | waits (still : distance? name moved = distance? name cars)
      (displaced : Displaced name moved others)
  | wasted (still : distance? name moved = distance? name cars) (gone : ¬ Drifts name moved)
      (alike : moved.map Car.plain = others.map Car.plain)
  | used (entered : moved ≠ []) (beside : others ≠ [])
      (far : distance? name moved ≠ distance? name cars)
      (differ : TracksDiffer (drawn (moved.map Car.track)) (drawn (others.map Car.track)))

/-- What a move makes of it. -/
inductive MoveFate (car : Car) (skill : Skill) (next other : Car) : Prop where
  | waits (stalled : car.broken = true) (same : next = car)
      (displaced : other = { car with skill := some skill })
  | wasted (still : next.position = car.position) (gone : next.skill = none)
      (alike : next.plain = other.plain)
  | used (named : next.name = other.name) (able : next.broken = false)
      (otherAble : other.broken = false) (moved : next.position ≠ car.position)
      (apart : next.position ≠ other.position)

/-- The steps of a move with a drift and of one without are not the same, and neither are none. -/
private theorem steps_apart {car : Car} (drifting : car.skill = some .drift) (idle : skill ≠ .drift) :
    car.position + (1 + car.bonus) ≠ car.position ∧
      car.position + (1 + car.bonus) ≠
        car.position + (1 + { car with skill := some skill }.bonus) := by
  have more : car.bonus = { car with skill := some skill }.bonus + 1 := by
    simp [Car.bonus, drifting, idle]
  have few : { car with skill := some skill }.bonus = 0 ∨
      { car with skill := some skill }.bonus = 1 := by
    cases car.boosted <;> simp [Car.bonus, idle]
  rw [more]
  generalize { car with skill := some skill }.bonus = bonus at few
  rcases few with rfl | rfl <;> exact ⟨by simp, by simp⟩

private theorem move_displaced {car : Car} (drifting : car.skill = some .drift) (idle : skill ≠ .drift)
    (moved : car.move source state = some (gone, next, after)) :
    ∃ other, { car with skill := some skill }.move source state = some (gone, other, after) ∧
      MoveFate car skill next other := by
  cases Race.move_eq_some_iff.mp moved with
  | stalls broken =>
    exact ⟨_, Race.move_eq_some_iff.mpr (.stalls broken), .waits broken rfl rfl⟩
  | goes able drawn enough =>
    obtain ⟨far, apart⟩ := steps_apart drifting idle
    exact ⟨_, Race.move_eq_some_iff.mpr (.goes able drawn enough), .used rfl able able far apart⟩
  | fails able drawn short =>
    have spent : car.spent.skill = none := by simp [Car.spent, drifting]
    exact ⟨_, Race.move_eq_some_iff.mpr (.fails able drawn short),
      .wasted rfl spent (Car.spent_plain car (some skill))⟩

private theorem TurnFate.cons {car moved : Car} (fate : TurnFate name cars turned others)
    (same : moved.name = car.name) (other : car.name ≠ name) :
    TurnFate name (car :: cars) (moved :: turned) (moved :: others) := by
  have apart : moved.name ≠ name := same ▸ other
  cases fate with
  | waits still displaced =>
    exact .waits (by simpa [distance?, apart, other] using still) (.later apart displaced)
  | wasted still gone alike =>
    exact .wasted (by simpa [distance?, apart, other] using still)
      (by simpa [Drifts, apart] using gone) (congrArg (moved.plain :: ·) alike)
  | used entered beside far differ =>
    exact .used (List.cons_ne_nil _ _) (List.cons_ne_nil _ _)
      (by simpa [distance?, apart, other] using far) (differ.below moved.track entered beside)

private theorem MoveFate.turn {car next other : Car} (fate : MoveFate car skill next other)
    (drifting : car.skill = some .drift) (idle : skill ≠ .drift) (named : car.name = name)
    (kept : next.name = car.name) (cars behind : List Car) :
    TurnFate name (car :: cars) (next :: behind) (other :: behind) := by
  have called : next.name = name := kept.trans named
  cases fate with
  | waits stalled same displaced =>
    subst same displaced
    exact .waits (by simp [distance?, named]) (.here named drifting idle)
  | wasted still gone alike =>
    exact .wasted (by simp [distance?, named, called, still]) (by simp [Drifts, called, gone])
      (congrArg (· :: behind.map Car.plain) alike)
  | used same able otherAble moved apart =>
    refine .used (List.cons_ne_nil _ _) (List.cons_ne_nil _ _)
      (by simpa [distance?, named, called] using moved) ?_
    obtain ⟨rest, ends, first⟩ := drawn_first (behind.map Car.track)
    rw [List.map_cons, List.map_cons, first, first]
    exact (tracks_differ same apart able otherAble).before ends ends

private theorem Displaced.takeTurns (displaced : Displaced name cars rivals)
    (taken : Race.takeTurns source cars state = some (turns, after)) :
    ∃ moved others : List Car, turns = moved.map Car.shown ∧
      Race.takeTurns source rivals state = some (others.map Car.shown, after) ∧
      TurnFate name cars moved others := by
  induction displaced generalizing state turns with
  | @here car back skill named drifting idle =>
    obtain ⟨gone, next, middle, _, tried, later, rfl⟩ :=
      Race.takeTurns_cons_eq_some_iff.mp taken
    obtain ⟨behind, _, _, rfl, _⟩ :=
      Race.takeTurns_alike (Race.plain_preserved source) rfl rfl later
    obtain ⟨other, moves, fate⟩ := move_displaced drifting idle tried
    refine ⟨next :: behind, other :: behind, rfl, ?_,
      fate.turn drifting idle named (Race.move_name tried) back behind⟩
    exact Race.takeTurns_cons_eq_some_iff.mpr ⟨gone, other, middle, _, moves, later, rfl⟩
  | @later car cars rivals other displaced ih =>
    obtain ⟨gone, next, middle, _, tried, later, rfl⟩ :=
      Race.takeTurns_cons_eq_some_iff.mp taken
    obtain ⟨moved, others, rfl, behind, fate⟩ := ih later
    refine ⟨next :: moved, next :: others, rfl, ?_, fate.cons (Race.move_name tried) other⟩
    exact Race.takeTurns_cons_eq_some_iff.mpr ⟨gone, next, middle, _, tried, behind, rfl⟩

private theorem Displaced.endTurn (displaced : Displaced name cars rivals) :
    Displaced name (cars.map Car.endTurn) (rivals.map Car.endTurn) := by
  induction displaced with
  | here named drifting idle => exact .here named drifting idle
  | later other displaced ih => exact .later other ih

private theorem first?_endTurn (name : String) (cars : List Car) :
    first? name (cars.map Car.endTurn) = (first? name cars).map Car.endTurn := by
  unfold first?
  rw [List.find?_map]
  rfl

private theorem distance?_endTurn (name : String) (cars : List Car) :
    distance? name (cars.map Car.endTurn) = distance? name cars := by
  simp [distance?, first?_endTurn, Function.comp_def, Car.endTurn]

private theorem drifts_endTurn : Drifts name (cars.map Car.endTurn) ↔ Drifts name cars := by
  unfold Drifts
  rw [first?_endTurn]
  cases first? name cars <;> rfl

private theorem distance?_append (drifts : Drifts name cars) (more : List Car) :
    distance? name (cars ++ more) = distance? name cars := by
  unfold Drifts at drifts
  obtain ⟨car, found, _⟩ := Option.bind_eq_some_iff.mp drifts
  have same : first? name (cars ++ more) = some car := by
    unfold first? at found ⊢
    rw [List.find?_append, found, Option.some_or]
  simp only [distance?, same, found]

namespace Race

/-- Races with the same plan, where the drift of a car waits on the left and is displaced on the
right. -/
structure Apart (name : String) (left right : Race) : Prop where
  attempts : left.attempts = right.attempts
  turn : left.turn = right.turn
  cars : Displaced name left.cars right.cars

theorem Apart.unskilled {left right : Race} (apart : left.Apart name right) :
    left.Matched Car.unskilled right :=
  ⟨apart.attempts, apart.turn, apart.cars.unskilled⟩

/-- What a block makes of a drift that waits on one side only: a new skill ends the difference, it
goes on to wait, it is wasted on a move that fails, or it is used and the texts differ. -/
inductive Fate (name : String) (block : Block) (race next other : Race) (text answer : String) :
    Prop where
  | replaced (activates : Activates block name) (same : text = answer)
      (still : distance? name next.cars = distance? name race.cars)
      (alike : next.Matched Car.plain other)
  | waits (passive : ¬ Activates block name) (same : text = answer)
      (still : distance? name next.cars = distance? name race.cars) (apart : next.Apart name other)
  | wasted (same : text = answer) (still : distance? name next.cars = distance? name race.cars)
      (gone : ¬ Drifts name next.cars) (alike : next.Matched Car.plain other)
  | used (far : distance? name next.cars ≠ distance? name race.cars)
      (differ : TracksDiffer text answer)

/-- A turn carries its fate over to the races and to the texts. -/
private theorem fate_of_turn {left right : Race} (apart : left.Apart name right)
    (passive : ¬ Activates block name) (header : String)
    (fate : TurnFate name left.cars moved others) :
    Fate name block left { left with cars := moved.map Car.endTurn, turn := left.turn + 1 }
      { right with cars := others.map Car.endTurn, turn := right.turn + 1 }
      (drawn (header :: moved.map Car.track)) (drawn (header :: others.map Car.track)) := by
  have turn : left.turn + 1 = right.turn + 1 := congrArg (· + 1) apart.turn
  cases fate with
  | waits still displaced =>
    have tracks := map_eq_of_alike Car.track_of_unskilled displaced.unskilled
    exact .waits passive (by rw [tracks]) ((distance?_endTurn ..).trans still)
      ⟨apart.attempts, turn, displaced.endTurn⟩
  | wasted still gone alike =>
    have bare := map_eq_of_alike Car.unskilled_of_plain alike
    have tracks := map_eq_of_alike Car.track_of_unskilled bare
    have ended : moved.map (Car.plain ∘ Car.endTurn) = others.map (Car.plain ∘ Car.endTurn) :=
      map_eq_of_alike (fun same => congrArg Car.endTurn same) alike
    exact .wasted (by rw [tracks]) ((distance?_endTurn ..).trans still) (mt drifts_endTurn.mp gone)
      ⟨apart.attempts, turn, by simpa using ended⟩
  | used entered beside far differ =>
    exact .used (by rwa [distance?_endTurn]) (differ.below header entered beside)

/-- A block goes on alike on races that are apart, until the drift is used. -/
theorem Handled.apart {left right : Race} (apart : left.Apart name right)
    (belongs : block.Belongs .racing) (handled : Handled source left state block text next after) :
    ∃ answer other, Handled source right state block answer other after ∧
      Fate name block left next other text answer := by
  have level := apart.unskilled
  have names : left.names = right.names := map_eq_of_alike Car.name_of_unskilled level.cars
  cases handled with
  | setUp asks asked =>
    exact ⟨_, _, .setUp asks asked,
      .waits (by simp [Activates, asks, skill?]) rfl rfl ⟨rfl, rfl, apart.cars⟩⟩
  | register asks known filled short fresh =>
    exact ⟨_, _, .register asks known filled short (names ▸ fresh),
      .waits (by simp [Activates, asks, skill?]) rfl (distance?_append apart.cars.drifts _)
        ⟨apart.attempts, apart.turn, apart.cars.append _⟩⟩
  | event asks changed =>
    obtain ⟨rest, done, still, ⟨acts, named, rfl⟩ | ⟨passive, displaced⟩⟩ :=
      apart.cars.event asks changed
    · exact ⟨_, _, .event asks done,
        .replaced ⟨belongs, acts, named⟩ rfl still ⟨apart.attempts, apart.turn, rfl⟩⟩
    · exact ⟨_, _, .event asks done,
        .waits (mt And.right passive) rfl still ⟨apart.attempts, apart.turn, displaced⟩⟩
  | late asks entered planned spent =>
    refine ⟨_, right, .late asks (mt level.entered_iff.mpr entered)
      (apart.attempts ▸ planned) ?_, .waits (by simp [Activates, asks, skill?]) rfl rfl apart⟩
    rw [← apart.attempts, ← apart.turn]
    exact spent
  | turn asks entered ahead taken =>
    obtain ⟨moved, others, rfl, done, fate⟩ := apart.cars.takeTurns taken
    have ready : right.turn < right.attempts := by
      rw [← apart.attempts, ← apart.turn]
      exact ahead
    have lines (cars : List Car) : (cars.map Car.shown).map (·.1) = cars.map Car.track := by
      simp [Car.shown, Function.comp_def]
    have ends (cars : List Car) : (cars.map Car.shown).map (·.2) = cars.map Car.endTurn := by
      simp [Car.shown, Function.comp_def]
    have passive : ¬ Activates block name := by simp [Activates, asks, skill?]
    have turned :=
      fate_of_turn apart passive ("--- Turn " ++ toString (left.turn + 1) ++ " ---") fate
    rw [← lines, ← lines, ← ends, ← ends, apart.turn] at turned
    rw [apart.turn]
    exact ⟨_, _, .turn asks (mt level.entered_iff.mpr entered) ready done, turned⟩

/-- A skill of its own leaves a car plainly the same if no drift waits. -/
theorem plain_of_activated {cars others : List Car} (quiet : ¬ Drifts name cars)
    (idle : skill ≠ .drift)
    (changed : changeFirst name (Car.activate skill) cars = some (text, others)) :
    cars.map Car.plain = others.map Car.plain := by
  induction cars generalizing others with
  | nil => cases changed
  | cons car cars ih =>
    obtain ⟨named, rfl, rfl⟩ | ⟨other, later, found, rfl⟩ :=
      changeFirst_cons_eq_some_iff.mp changed
    · have none : car.skill ≠ some .drift := by simpa [Drifts, named] using quiet
      have same : car.plain = (car.activate skill).2.plain :=
        Car.plain_eq_iff.mpr ⟨some skill, rfl, by simp [none, idle]⟩
      exact congrArg (· :: cars.map Car.plain) same
    · rw [List.map_cons, List.map_cons, ih (by simpa [Drifts, other] using quiet) found]

theorem displaced_of_activated {cars others : List Car} (drifts : Drifts name cars)
    (idle : skill ≠ .drift)
    (changed : changeFirst name (Car.activate skill) cars = some (text, others)) :
    Displaced name cars others := by
  induction cars generalizing others with
  | nil => cases changed
  | cons car cars ih =>
    obtain ⟨named, rfl, rfl⟩ | ⟨other, later, found, rfl⟩ :=
      changeFirst_cons_eq_some_iff.mp changed
    · exact .here named (by simpa [Drifts, named] using drifts) idle
    · exact .later other (ih (by simpa [Drifts, other] using drifts) found)

end Race

end MissionScript.Racing
