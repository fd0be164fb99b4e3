import Mathlib.Data.Finset.Sort
import Mathlib.Data.List.Permutation
import Mathlib.Data.Set.Card
import Mathlib.Order.Interval.Finset.Nat
import MissionScript.Proofs.DrawRecord

/-! Tickets are drawn fairly. A ticket takes six draws, each from a place of the pool that is still to
be filled, and these draws and the orders of six different numbers are in one to one correspondence:
so every ticket comes from as many draws as its numbers have orders. -/
namespace MissionScript.Lotto

open Chance (Played)

variable {State : Type} {source : Chance.Source State}

namespace Pool

/-- The draws that fill some places: each is asked for between its place and the end of the pool. -/
def draws (places : List (Fin highest)) (choices : List UInt32) : List Chance.Draw :=
  List.zipWith (fun place choice => ⟨.ofNat place, .ofNat (highest - 1), choice⟩) places choices

example (a b c d e f : UInt32) : draws ticketPlaces [a, b, c, d, e, f] =
    [⟨0, 44, a⟩, ⟨1, 44, b⟩, ⟨2, 44, c⟩, ⟨3, 44, d⟩, ⟨4, 44, e⟩, ⟨5, 44, f⟩] := rfl

/-- One choice for each of the places, from the place itself to the end of the pool. -/
def InReach (places : List (Fin highest)) (choices : List UInt32) : Prop :=
  List.Forall₂ (fun place choice => place.val ≤ choice.toNat ∧ choice.toNat < highest) places choices

private theorem reach_range {place : Fin highest} {choice : UInt32} (behind : place.val ≤ choice.toNat)
    (inside : choice.toNat < highest) :
    .ofNat place ≤ choice ∧ choice ≤ .ofNat (highest - 1) := by
  have low : (UInt32.ofNat place).toNat = place :=
    UInt32.toNat_ofNat_of_lt' (Nat.lt_trans place.isLt (by decide))
  have high : (UInt32.ofNat (highest - 1)).toNat = 44 := rfl
  rw [UInt32.le_iff_toNat_le, UInt32.le_iff_toNat_le, low, high]
  exact ⟨behind, Nat.le_of_lt_succ inside⟩

private theorem InReach.played (reach : InReach places choices) :
    Played Chance.replay choices (draws places choices) [] := by
  induction reach with
  | nil => exact .nil
  | cons own others ih =>
    obtain ⟨least, most⟩ := reach_range own.1 own.2
    exact .cons (Chance.replay_draw least most _) ih

private theorem drawPlaces_cons {place : Fin highest} {choice : UInt32}
    (inside : choice.toNat < highest)
    (chosen : source.draw (.ofNat place) (.ofNat (highest - 1)) state = some (choice, middle))
    (places : List (Fin highest)) (pool : Pool) :
    drawPlaces source (place :: places) pool state =
      (drawPlaces source places (pool.swap place choice.toNat place.isLt inside) middle).map
        fun (numbers, after) => (pool[choice.toNat] :: numbers, after) := by
  rw [drawPlaces, chosen]
  simp [inside, Option.map_eq_bind]

private theorem InReach.drawPlaces (reach : InReach places choices)
    (played : Played source state (draws places choices) after) (pool : Pool) :
    ∃ numbers, drawPlaces source places pool state = some (numbers, after) ∧
      drawPlaces Chance.replay places pool choices = some (numbers, []) := by
  induction reach generalizing pool state with
  | nil =>
    cases played
    exact ⟨[], rfl, rfl⟩
  | @cons place choice places choices own others ih =>
    obtain ⟨least, most⟩ := reach_range own.1 own.2
    cases played with
    | cons chosen rest =>
      have below := own.2
      obtain ⟨numbers, drawn, replayed⟩ := ih rest (pool.swap place choice.toNat place.isLt below)
      refine ⟨pool[choice.toNat] :: numbers, ?_, ?_⟩
      · rw [drawPlaces_cons own.2 chosen, drawn]
        rfl
      · rw [drawPlaces_cons own.2 (Chance.replay_draw least most choices), replayed]
        rfl

private theorem drawPlaces_eq_some_iff (inRange : source.InRange) {places : List (Fin highest)}
    {pool : Pool} :
    drawPlaces source places pool state = some (numbers, after) ↔
      ∃ choices, InReach places choices ∧ Played source state (draws places choices) after ∧
        drawPlaces Chance.replay places pool choices = some (numbers, []) := by
  have exists_choices (drawn : Pool.drawPlaces source places pool state = some (numbers, after)) :
      ∃ choices, InReach places choices ∧ Played source state (draws places choices) after := by
    induction places generalizing pool state numbers with
    | nil =>
      obtain ⟨_, rfl⟩ := Prod.mk.inj (Option.some.inj drawn)
      exact ⟨[], .nil, .nil⟩
    | cons place places ih =>
      obtain ⟨choice, middle, rest, inside, chosen, filled, rfl⟩ := drawPlaces_cons_eq_some drawn
      obtain ⟨choices, reach, played⟩ := ih filled
      exact ⟨choice :: choices, .cons (choice_range inRange chosen) reach, .cons chosen played⟩
  constructor
  · intro drawn
    obtain ⟨choices, reach, played⟩ := exists_choices drawn
    obtain ⟨others, again, replayed⟩ := reach.drawPlaces played pool
    obtain ⟨rfl, _⟩ := Prod.mk.inj (Option.some.inj (drawn.symm.trans again))
    exact ⟨choices, reach, played, replayed⟩
  · rintro ⟨choices, reach, played, replayed⟩
    obtain ⟨others, drawn, again⟩ := reach.drawPlaces played pool
    obtain ⟨rfl, _⟩ := Prod.mk.inj (Option.some.inj (replayed.symm.trans again))
    exact drawn

/-- Behind a place that is filled stand all numbers of the rest that are not drawn for it. -/
private theorem exists_behind_swap {pool : Pool} {start choice other : Nat} (first : start < highest)
    (inside : choice < highest) (within : other < highest) (chosen : start ≤ choice)
    (behind : start ≤ other) (different : pool[other] ≠ pool[choice]) :
    ∃ (place : Nat) (there : place < highest), start + 1 ≤ place ∧
      (pool.swap start choice first inside)[place] = pool[other] := by
  have moved : other ≠ choice := by
    rintro rfl
    exact different rfl
  by_cases here : other = start
  · -- The number that has stood in the place goes where the drawn one comes from.
    subst here
    exact ⟨choice, inside, by omega, Vector.getElem_swap_right ..⟩
  · exact ⟨other, within, by omega, Vector.getElem_swap_of_ne here moved⟩

/-- Different numbers from the rest of the pool are drawn by one list of choices and no other, when
the places follow each other. -/
theorem existsUnique_choices {places : List (Fin highest)} {pool : Pool} (apart : pool.Apart)
    (start : Nat) (row : places.map (·.val) = List.range' start places.length) {numbers : List Nat}
    (length : numbers.length = places.length) (distinct : numbers.Nodup)
    (present : ∀ number ∈ numbers, ∃ (place : Nat) (inside : place < highest),
      start ≤ place ∧ pool[place] = number) :
    ∃! choices, InReach places choices ∧
      drawPlaces Chance.replay places pool choices = some (numbers, []) := by
  induction places generalizing pool start numbers with
  | nil =>
    obtain rfl := List.length_eq_zero_iff.mp length
    refine ⟨[], ⟨.nil, rfl⟩, ?_⟩
    rintro others ⟨reach, -⟩
    cases reach
    rfl
  | cons place places ih =>
    obtain ⟨number, numbers, rfl⟩ := List.exists_cons_of_length_eq_add_one length
    rw [List.map_cons, List.length_cons, List.range'_succ] at row
    obtain ⟨rfl, row⟩ := List.cons.inj row
    obtain ⟨fresh, others⟩ := List.nodup_cons.mp distinct
    obtain ⟨origin, inside, behind, rfl⟩ := present _ (List.mem_cons_self ..)
    obtain ⟨choice, rfl⟩ : ∃ choice : UInt32, choice.toNat = origin :=
      ⟨.ofNat origin, UInt32.toNat_ofNat_of_lt' (Nat.lt_trans inside (by decide))⟩
    have rest : ∀ number ∈ numbers, ∃ (other : Nat) (within : other < highest),
        place.val + 1 ≤ other ∧ (pool.swap place choice.toNat)[other] = number := by
      intro number member
      obtain ⟨other, within, after, rfl⟩ := present _ (List.mem_cons_of_mem _ member)
      refine exists_behind_swap place.isLt inside within behind after ?_
      intro same
      exact fresh (same ▸ member)
    obtain ⟨choices, ⟨reach, drawn⟩, only⟩ := ih (apart.swap place.isLt inside) (place.val + 1) row
      (Nat.succ.inj length) others rest
    refine ⟨choice :: choices, ⟨.cons ⟨behind, inside⟩ reach, ?_⟩, ?_⟩
    · obtain ⟨least, most⟩ := reach_range behind inside
      rw [drawPlaces_cons inside (Chance.replay_draw least most choices), drawn]
      rfl
    · rintro made ⟨own, played⟩
      cases own with
      | @cons _ other _ later fits tail =>
        obtain ⟨least, most⟩ := reach_range fits.1 fits.2
        rw [drawPlaces_cons fits.2 (Chance.replay_draw least most later)] at played
        obtain ⟨⟨left, gone⟩, filled, same⟩ := Option.map_eq_some_iff.mp played
        obtain ⟨numbers_eq, rfl⟩ := Prod.mk.inj same
        obtain ⟨first, rfl⟩ := List.cons.inj numbers_eq
        obtain rfl := UInt32.toNat_inj.mp (apart _ _ fits.2 inside first)
        rw [only later ⟨tail, filled⟩]

/-- The answer that the numbers are drawn and no choice is left. -/
def allDrawn (numbers : List Nat) : Option (List Nat × List UInt32) := some (numbers, [])

private theorem allDrawn_injective : Function.Injective allDrawn :=
  fun _ _ same => (Prod.mk.inj (Option.some.inj same)).1

/-- Choices for the six places of a ticket and orders of six different numbers are in one to one
correspondence. -/
theorem drawPlaces_bijOn : Set.BijOn (drawPlaces Chance.replay ticketPlaces .ascending)
    {choices | InReach ticketPlaces choices} (allDrawn '' {numbers | Drawable numbers}) := by
  have unique {numbers : List Nat} (drawable : Drawable numbers) :
      ∃! choices, InReach ticketPlaces choices ∧
        drawPlaces Chance.replay ticketPlaces .ascending choices = some (numbers, []) := by
    refine existsUnique_choices ascending_apart 0 (by decide) drawable.1 drawable.2.1 ?_
    intro number member
    obtain ⟨least, most⟩ := drawable.2.2 number member
    refine ⟨number - 1, by omega, Nat.zero_le _, ?_⟩
    rw [ascending, Vector.getElem_ofFn]
    exact Nat.sub_add_cancel least
  have answers {choices : List UInt32} (reach : InReach ticketPlaces choices) :
      ∃ numbers, Drawable numbers ∧
        drawPlaces Chance.replay ticketPlaces .ascending choices = some (numbers, []) := by
    obtain ⟨numbers, drawn, _⟩ := reach.drawPlaces reach.played .ascending
    obtain ⟨distinct, origin⟩ := drawPlaces_apart Chance.replay_inRange drawn ascending_apart
      (by decide) 0 (fun place _ => Nat.zero_le place)
    refine ⟨numbers, ⟨drawPlaces_length drawn, distinct, ?_⟩, drawn⟩
    intro number member
    obtain ⟨place, inside, _, rfl⟩ := origin number member
    rw [ascending, Vector.getElem_ofFn]
    exact ⟨Nat.le_add_left .., inside⟩
  refine ⟨?_, ?_, ?_⟩
  · intro choices reach
    obtain ⟨numbers, drawable, drawn⟩ := answers reach
    exact ⟨numbers, drawable, drawn.symm⟩
  · intro choices reach others again same
    obtain ⟨numbers, drawable, drawn⟩ := answers reach
    exact (unique drawable).unique ⟨reach, drawn⟩ ⟨again, same.symm.trans drawn⟩
  · rintro _ ⟨numbers, drawable, rfl⟩
    obtain ⟨choices, made, _⟩ := unique drawable
    exact ⟨choices, made⟩

end Pool

private theorem drawable_of_perm_sort {numbers : Finset Nat} (inGame : numbers ⊆ Finset.Icc 1 45)
    (six : numbers.card = 6) {order : List Nat} (reordered : order.Perm numbers.sort) :
    Drawable order := by
  refine ⟨?_, reordered.nodup_iff.mpr (Finset.sort_nodup _ _), ?_⟩
  · rw [reordered.length_eq, Finset.length_sort, six]
  · intro number member
    exact Finset.mem_Icc.mp (inGame ((Finset.mem_sort _).mp (reordered.subset member)))

private theorem mergeSort_eq_sort_iff {order : List Nat} {numbers : Finset Nat} :
    order.mergeSort = numbers.sort ↔ order.Perm numbers.sort := by
  constructor
  · intro same
    exact same ▸ (List.mergeSort_perm order _).symm
  · intro reordered
    exact mergeSort_of_perm reordered (Finset.pairwise_sort numbers _)

private theorem Drawable.perm_sort {order : List Nat} (drawable : Drawable order) :
    order.Perm order.toFinset.sort :=
  (List.toFinset_toList drawable.2.1).symm.trans (Finset.sort_perm_toList _ _).symm

namespace Ticket

private theorem draw_replay_iff {choices : List UInt32} :
    draw Chance.replay choices = some (ticket, []) ↔
      ∃ order, order.mergeSort = ticket ∧
        Pool.allDrawn order = Pool.drawPlaces Chance.replay ticketPlaces .ascending choices := by
  simp [draw, Pool.allDrawn, Prod.ext_iff, and_comm, eq_comm]

private theorem ncard_choices {numbers : Finset Nat} (inGame : numbers ⊆ Finset.Icc 1 45)
    (six : numbers.card = 6) :
    {choices | Pool.InReach ticketPlaces choices ∧
      draw Chance.replay choices = some (numbers.sort, [])}.ncard = 720 := by
  have inside : Pool.allDrawn '' {order | order.Perm numbers.sort} ⊆
      Pool.allDrawn '' {order | Drawable order} :=
    Set.image_mono fun order reordered => drawable_of_perm_sort inGame six reordered
  have same : {choices | Pool.InReach ticketPlaces choices ∧
      draw Chance.replay choices = some (numbers.sort, [])} =
        {choices | Pool.InReach ticketPlaces choices} ∩
          Set.preimage (Pool.drawPlaces Chance.replay ticketPlaces .ascending)
            (Pool.allDrawn '' {order | order.Perm numbers.sort}) := by
    ext choices
    simp [draw_replay_iff, mergeSort_eq_sort_iff]
  have orders : {order | order.Perm numbers.sort} =
      (numbers.sort.permutations.toFinset : Set (List Nat)) := by
    ext order
    simp
  calc _ = {order : List Nat | order.Perm numbers.sort}.ncard := by
        rw [same, (Pool.drawPlaces_bijOn.subset_right inside).ncard_eq,
          Set.ncard_image_of_injective _ Pool.allDrawn_injective]
    _ = numbers.sort.length.factorial := by
        rw [orders, Set.ncard_coe_finset, List.toFinset_card_of_nodup, List.length_permutations]
        exact List.nodup_permutations _ (Finset.sort_nodup _ _)
    _ = 720 := by
        rw [Finset.length_sort, six]
        rfl

/-- A ticket takes one draw for each of its six places, from the place to the end of the pool. What
these draws can give and the orders of six different numbers are in one to one correspondence, so
every six numbers of the game are a ticket by 720 of them, and nothing else ever is. -/
theorem draw_fair :
    (∀ (State : Type) (source : Chance.Source State), source.InRange → ∀ state ticket after,
      draw source state = some (ticket, after) ↔
        ∃ choices, Pool.InReach ticketPlaces choices ∧
          Played source state (Pool.draws ticketPlaces choices) after ∧
          draw Chance.replay choices = some (ticket, [])) ∧
    Set.BijOn (Pool.drawPlaces Chance.replay ticketPlaces .ascending)
      {choices | Pool.InReach ticketPlaces choices}
      (Pool.allDrawn '' {numbers | Drawable numbers}) ∧
    (∀ numbers : Finset Nat, numbers ⊆ Finset.Icc 1 45 → numbers.card = 6 →
      {choices | Pool.InReach ticketPlaces choices ∧
        draw Chance.replay choices = some (numbers.sort, [])}.ncard = 720) ∧
    ∀ choices, Pool.InReach ticketPlaces choices →
      ∃ numbers : Finset Nat, numbers ⊆ Finset.Icc 1 45 ∧ numbers.card = 6 ∧
        draw Chance.replay choices = some (numbers.sort, []) := by
  refine ⟨?_, Pool.drawPlaces_bijOn, fun numbers => ncard_choices, ?_⟩
  · intro State source inRange state ticket after
    constructor
    · intro drawn
      obtain ⟨order, filled, rfl⟩ := draw_eq_some drawn
      obtain ⟨choices, reach, played, replayed⟩ := (Pool.drawPlaces_eq_some_iff inRange).mp filled
      exact ⟨choices, reach, played, draw_replay_iff.mpr ⟨order, rfl, replayed.symm⟩⟩
    · rintro ⟨choices, reach, played, replayed⟩
      obtain ⟨order, rfl, own⟩ := draw_replay_iff.mp replayed
      have filled := (Pool.drawPlaces_eq_some_iff inRange).mpr ⟨choices, reach, played, own.symm⟩
      simp [draw, filled]
  · intro choices reach
    obtain ⟨order, drawable, drawn⟩ := Pool.drawPlaces_bijOn.mapsTo reach
    refine ⟨order.toFinset, ?_, ?_, ?_⟩
    · intro number member
      exact Finset.mem_Icc.mpr (drawable.2.2 number (List.mem_toFinset.mp member))
    · exact (List.toFinset_card_of_nodup drawable.2.1).trans drawable.1
    · exact draw_replay_iff.mpr ⟨order, mergeSort_eq_sort_iff.mpr drawable.perm_sort, drawn⟩

/-- The highest number comes first and the others ascend behind it, when every draw takes the end of
the pool: the ticket is one of 720 chances, as is the one of the least draws. -/
theorem draw_fair_last :
    Pool.InReach ticketPlaces [44, 44, 44, 44, 44, 44] ∧
    Pool.drawPlaces Chance.replay ticketPlaces .ascending [44, 44, 44, 44, 44, 44] =
      Pool.allDrawn [45, 1, 2, 3, 4, 5] ∧
    (∃ numbers : Finset Nat, numbers ⊆ Finset.Icc 1 45 ∧ numbers.card = 6 ∧
      draw Chance.replay [44, 44, 44, 44, 44, 44] = some (numbers.sort, [])) ∧
    {choices | Pool.InReach ticketPlaces choices ∧
      draw Chance.replay choices = some (({45, 1, 2, 3, 4, 5} : Finset Nat).sort, [])}.ncard = 720 ∧
    ∃ choices, Pool.InReach ticketPlaces choices ∧
      Played Chance.least () (Pool.draws ticketPlaces choices) () ∧
      draw Chance.replay choices = some ([1, 2, 3, 4, 5, 6], []) := by
  have reach : Pool.InReach ticketPlaces [44, 44, 44, 44, 44, 44] := by
    unfold Pool.InReach ticketPlaces
    decide
  obtain ⟨taken, _, counted, issued⟩ := draw_fair
  exact ⟨reach, by decide +kernel, issued _ reach, counted _ (by decide) (by decide),
    (taken Unit Chance.least Chance.least_inRange () _ ()).mp draw_least⟩

end Ticket

end MissionScript.Lotto
