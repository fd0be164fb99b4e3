import MissionScript.Proofs.FieldWithout
import MissionScript.Proofs.SkillRun
import MissionScript.Proofs.UtilityRun

namespace MissionScript

/-- The blocks without those that concern a car. -/
def blocksWithout (name : String) (blocks : List Block) : List Block :=
  blocks.filter fun block => ¬ block.Concerns name

def Script.without (script : Script) (name : String) : Script := ⟨blocksWithout name script.blocks⟩

namespace Progress

open Racing (Race Spared drawersOf)

variable {State Other : Type} {source : Chance.Source State} {other : Chance.Source Other}
  {name : String}

/-- Two racing runs side by side, the second one without a car. Blocks that concern the car are missing
in it, and all others are run on both sides. -/
inductive Abreast (name : String) (source : Chance.Source State) (other : Chance.Source Other) :
    Progress → State → Other → List Block → List String → List String →
      Progress → State → Other → Prop where
  | nil : Abreast name source other progress state here [] [] [] progress state here
  | gone (concerns : block.Concerns name)
      (own : Stepped source .racing progress state block text next middle)
      (same : next.without name = progress.without name)
      (rest : Abreast name source other next middle here blocks texts answers last after later) :
      Abreast name source other progress state here (block :: blocks) (text :: texts) answers last
        after later
  | kept (apart : ¬ block.Concerns name)
      (own : Stepped source .racing progress state block text next middle)
      (beside : Stepped other .racing (progress.without name) here block answer (next.without name)
        between)
      (shorn : Shorn block name text answer)
      (rest : Abreast name source other next middle between blocks texts answers last after later) :
      Abreast name source other progress state here (block :: blocks) (text :: texts)
        (answer :: answers) last after later

/-- A racing run goes on beside a run without one of its cars, as long as no turn is left without any
car. -/
theorem Ran.spared {progress : Progress} {past : List Block} (told : Race.Told past progress.race)
    (ran : Ran source .racing progress state blocks texts last after)
    (rivals : ∀ before turn rest, blocks = before ++ turn :: rest → turn.Belongs .racing →
      turn.command = .runTurn → (∃ rival ∈ progress.race.names, rival ≠ name) ∨
        ∃ earlier ∈ before, earlier.Belongs .racing ∧ earlier.command = .selectCar ∧
          earlier.text 0 ≠ name) :
    Spared name (fun _ other here later => ∃ answers,
        Abreast name source other progress state here blocks texts answers last after later)
      (drawersOf past blocks) source state after := by
  induction ran generalizing past with
  | nil => exact .of_still fun _ _ _ => ⟨[], .nil⟩
  | @cons progress block state text next middle blocks texts last after first rest ih =>
    have stepped := runBlock_eq_done_iff.mp first
    have later := ih (stepped.told told) (by
      intro before turn behind split belongs asks
      rw [stepped.names_eq]
      rcases rivals (block :: before) turn behind (by rw [split]; rfl) belongs asks with
        ⟨rival, member, different⟩ | ⟨earlier, member, own, registers, different⟩
      · exact .inl ⟨rival, List.mem_append_left _ member, different⟩
      · rcases List.mem_cons.mp member with rfl | inside
        · exact .inl ⟨_, List.mem_append_right _ (by simp [own, registers]), different⟩
        · exact .inr ⟨earlier, inside, own, registers, different⟩)
    by_cases concerns : block.Concerns name
    · obtain ⟨same, rfl, none⟩ := stepped.concerned concerns past
      rw [drawersOf, none, List.nil_append]
      exact later.imp fun _ _ _ _ ⟨answers, abreast⟩ =>
        ⟨answers, .gone concerns stepped same abreast⟩
    · have rival : block.Belongs .racing → block.command = .runTurn →
          ∃ rival ∈ progress.race.names, rival ≠ name := by
        intro belongs asks
        simpa using rivals [] block blocks rfl belongs asks
      exact (stepped.spared told concerns rival).andThen later
        fun _ _ _ _ _ ⟨answer, beside, shorn⟩ ⟨answers, abreast⟩ =>
          ⟨answer :: answers, .kept concerns stepped beside shorn abreast⟩

end Progress

namespace Script

open Progress
open Racing (Spared drawersOf)

variable {State : Type} {source : Chance.Source State} {status : Status} {name : String}

theorem line_at {before rest : List Block} {texts : List String}
    (told : texts[before.length]? = some text) :
    (List.zipWith line (before ++ block :: rest) texts)[before.length]? = some (line block text) := by
  simp [List.getElem?_zipWith, told]

end Script

end MissionScript
