import Mathlib.Data.List.Sort
import MissionScript.Lotto.Ticket

namespace MissionScript.Lotto

variable {State : Type} {source : Chance.Source State}

/-- Six different numbers of the game in order. -/
structure Ticket.Sound (ticket : Ticket) : Prop where
  length : ticket.length = size
  ascending : ticket.Pairwise (· < ·)
  inGame : ∀ number ∈ ticket, isInGame number

theorem mergeSort_of_perm {numbers ordered : List Nat} (reordered : numbers.Perm ordered)
    (sorted : ordered.Pairwise (· ≤ ·)) : numbers.mergeSort = ordered :=
  ((List.mergeSort_perm ..).trans reordered).eq_of_pairwise (fun _ _ _ _ => Nat.le_antisymm)
    (List.pairwise_mergeSort' _ numbers) sorted

theorem mergeSort_ascending {numbers : List Nat} (distinct : numbers.Nodup) :
    numbers.mergeSort.Pairwise (· < ·) := by
  have apart : numbers.mergeSort.Nodup := (List.mergeSort_perm numbers _).nodup_iff.mpr distinct
  refine ((List.pairwise_mergeSort' _ numbers).and apart).imp ?_
  rintro left right ⟨below, different⟩
  exact Nat.lt_of_le_of_ne below different

theorem isInGame_iff {number : Nat} : isInGame number = true ↔ 1 ≤ number ∧ number ≤ highest := by
  simp [isInGame]

/-- No two places of the pool hold the same number. -/
def Pool.Apart (pool : Pool) : Prop :=
  ∀ (left right : Nat) (inside : left < highest) (within : right < highest),
    pool[left] = pool[right] → left = right

theorem Pool.ascending_apart : Pool.ascending.Apart := by
  intro left right inside within same
  simp only [Pool.ascending, Vector.getElem_ofFn] at same
  omega

theorem Pool.Apart.swap {pool : Pool} (apart : pool.Apart) {first second : Nat}
    (inside : first < highest) (within : second < highest) :
    Pool.Apart (pool.swap first second inside within) := by
  intro left right _ _ same
  rw [Vector.getElem_swap, Vector.getElem_swap] at same
  split at same <;> split at same <;> (try split at same) <;> (try split at same) <;>
    · have := apart _ _ _ _ same
      omega

theorem choice_range (inRange : source.InRange) {place : Fin highest}
    (drawn : source.draw (.ofNat place) (.ofNat (highest - 1)) state = some (choice, after)) :
    place.val ≤ choice.toNat ∧ choice.toNat < highest := by
  have bound := place.isLt
  have top : highest = 45 := rfl
  have low : (UInt32.ofNat place).toNat = place :=
    UInt32.toNat_ofNat_of_lt' (Nat.lt_trans bound (by decide))
  have high : (UInt32.ofNat (highest - 1)).toNat = 44 := rfl
  have := inRange (.ofNat place) (.ofNat (highest - 1)) state
    (by rw [UInt32.le_iff_toNat_le]; omega) choice after drawn
  rw [UInt32.le_iff_toNat_le, UInt32.le_iff_toNat_le] at this
  omega

namespace Pool

theorem drawPlaces_cons_eq_some {place : Fin highest} {places : List (Fin highest)} {pool : Pool}
    (drawn : drawPlaces source (place :: places) pool state = some (numbers, after)) :
    ∃ choice middle rest, ∃ inside : choice.toNat < highest,
      source.draw (.ofNat place) (.ofNat (highest - 1)) state = some (choice, middle) ∧
      drawPlaces source places (pool.swap place choice.toNat place.isLt inside) middle =
        some (rest, after) ∧
      numbers = pool[choice.toNat] :: rest := by
  unfold drawPlaces at drawn
  obtain ⟨⟨choice, middle⟩, chosen, rest⟩ := Option.bind_eq_some_iff.mp drawn
  dsimp only at rest
  split at rest
  · rename_i inside
    obtain ⟨⟨others, later⟩, filled, same⟩ := Option.bind_eq_some_iff.mp rest
    obtain ⟨rfl, rfl⟩ := Prod.mk.inj (Option.some.inj same)
    refine ⟨choice, middle, others, inside, chosen, filled, ?_⟩
    simp
  · cases rest

theorem drawPlaces_length {places : List (Fin highest)} {pool : Pool}
    (drawn : drawPlaces source places pool state = some (numbers, after)) :
    numbers.length = places.length := by
  induction places generalizing pool state numbers with
  | nil =>
    obtain ⟨rfl, _⟩ := Prod.mk.inj (Option.some.inj drawn)
    rfl
  | cons place places ih =>
    obtain ⟨choice, middle, rest, inside, chosen, filled, rfl⟩ := drawPlaces_cons_eq_some drawn
    simp [ih filled]

/-- The numbers drawn come from different places of the pool, none of them before the first place
that is filled. -/
theorem drawPlaces_apart (inRange : source.InRange) {places : List (Fin highest)} {pool : Pool}
    (drawn : drawPlaces source places pool state = some (numbers, after)) (apart : pool.Apart)
    (ordered : places.Pairwise (· < ·)) (start : Nat) (behind : ∀ place ∈ places, start ≤ place.val) :
    numbers.Nodup ∧ ∀ number ∈ numbers, ∃ (place : Nat) (inside : place < highest),
      start ≤ place ∧ pool[place] = number := by
  induction places generalizing pool state numbers start with
  | nil =>
    obtain ⟨rfl, _⟩ := Prod.mk.inj (Option.some.inj drawn)
    simp
  | cons place places ih =>
    obtain ⟨choice, middle, rest, inside, chosen, filled, rfl⟩ := drawPlaces_cons_eq_some drawn
    have range := choice_range inRange chosen
    obtain ⟨later, ordered⟩ := List.pairwise_cons.mp ordered
    have own := behind place (List.mem_cons_self ..)
    -- What is drawn later comes from the places behind this one.
    obtain ⟨distinct, origin⟩ := ih filled (apart.swap place.isLt inside) ordered (place + 1) later
    refine ⟨List.nodup_cons.mpr ⟨?_, distinct⟩, ?_⟩
    · intro again
      obtain ⟨other, within, behind, same⟩ := origin _ again
      have := apart.swap place.isLt inside other place within place.isLt (by simp [same])
      omega
    · intro number member
      rcases List.mem_cons.mp member with rfl | member
      · exact ⟨choice.toNat, inside, by omega, rfl⟩
      · obtain ⟨other, within, behind, rfl⟩ := origin number member
        rw [Vector.getElem_swap]
        split
        · exact ⟨choice.toNat, inside, by omega, rfl⟩
        · split
          · exact ⟨place, place.isLt, own, rfl⟩
          · exact ⟨other, within, by omega, rfl⟩

private theorem drawPlaces_isSome (endless : source.Endless) (inRange : source.InRange)
    (places : List (Fin highest)) (pool : Pool) (state : State) :
    (drawPlaces source places pool state).isSome := by
  induction places generalizing pool state with
  | nil => rfl
  | cons place places ih =>
    obtain ⟨⟨choice, middle⟩, chosen⟩ := Option.isSome_iff_exists.mp
      (endless (.ofNat place) (.ofNat (highest - 1)) state)
    have inside := (choice_range inRange chosen).2
    obtain ⟨⟨rest, after⟩, filled⟩ := Option.isSome_iff_exists.mp
      (ih (pool.swap place choice.toNat) middle)
    unfold drawPlaces
    rw [chosen]
    simp [inside, filled]

end Pool

namespace Ticket

theorem draw_eq_some {ticket : Ticket} (drawn : draw source state = some (ticket, after)) :
    ∃ numbers, Pool.drawPlaces source ticketPlaces .ascending state = some (numbers, after) ∧
      ticket = numbers.mergeSort := by
  obtain ⟨⟨numbers, _⟩, filled, same⟩ := Option.map_eq_some_iff.mp drawn
  obtain ⟨rfl, rfl⟩ := Prod.mk.inj same
  exact ⟨numbers, filled, rfl⟩

/-- A ticket is sound, whatever is drawn in range. -/
theorem draw_sound (inRange : source.InRange) {ticket : Ticket}
    (drawn : draw source state = some (ticket, after)) : ticket.Sound := by
  obtain ⟨numbers, filled, rfl⟩ := draw_eq_some drawn
  obtain ⟨distinct, origin⟩ := Pool.drawPlaces_apart inRange filled Pool.ascending_apart (by decide)
    0 (fun place _ => Nat.zero_le place)
  refine ⟨?_, mergeSort_ascending distinct, ?_⟩
  · rw [List.length_mergeSort, Pool.drawPlaces_length filled]
    rfl
  · intro number member
    obtain ⟨place, inside, _, rfl⟩ := origin number (List.mem_mergeSort.mp member)
    rw [isInGame_iff, Pool.ascending, Vector.getElem_ofFn]
    exact ⟨Nat.le_add_left .., inside⟩

private theorem draw_isSome (endless : source.Endless) (inRange : source.InRange) (state : State) :
    (draw source state).isSome := by
  unfold draw
  rw [Option.isSome_map]
  exact Pool.drawPlaces_isSome endless inRange ticketPlaces .ascending state

theorem drawMany_succ_eq_some {tickets : List Ticket}
    (drawn : drawMany source (count + 1) state = some (tickets, after)) :
    ∃ first middle rest, draw source state = some (first, middle) ∧
      drawMany source count middle = some (rest, after) ∧ tickets = first :: rest := by
  unfold drawMany at drawn
  obtain ⟨⟨first, middle⟩, taken, more⟩ := Option.bind_eq_some_iff.mp drawn
  obtain ⟨⟨rest, _⟩, others, same⟩ := Option.bind_eq_some_iff.mp more
  obtain ⟨rfl, rfl⟩ := Prod.mk.inj (Option.some.inj same)
  exact ⟨first, middle, rest, taken, others, rfl⟩

theorem drawMany_length {tickets : List Ticket}
    (drawn : drawMany source count state = some (tickets, after)) : tickets.length = count := by
  induction count generalizing tickets state with
  | zero =>
    obtain ⟨rfl, _⟩ := Prod.mk.inj (Option.some.inj drawn)
    rfl
  | succ count ih =>
    obtain ⟨first, middle, rest, taken, others, rfl⟩ := drawMany_succ_eq_some drawn
    exact congrArg (· + 1) (ih others)

/-- A purchase gives as many tickets as it asks for, all of them sound. -/
theorem drawMany_sound (inRange : source.InRange) {tickets : List Ticket}
    (drawn : drawMany source count state = some (tickets, after)) :
    tickets.length = count ∧ ∀ ticket ∈ tickets, ticket.Sound := by
  refine ⟨drawMany_length drawn, ?_⟩
  induction count generalizing tickets state with
  | zero =>
    obtain ⟨rfl, _⟩ := Prod.mk.inj (Option.some.inj drawn)
    simp
  | succ count ih =>
    obtain ⟨first, middle, rest, taken, others, rfl⟩ := drawMany_succ_eq_some drawn
    exact List.forall_mem_cons.mpr ⟨draw_sound inRange taken, ih others⟩

theorem drawMany_isSome (endless : source.Endless) (inRange : source.InRange) (count : Nat)
    (state : State) : (drawMany source count state).isSome := by
  induction count generalizing state with
  | zero => rfl
  | succ count ih =>
    obtain ⟨⟨first, middle⟩, taken⟩ :=
      Option.isSome_iff_exists.mp (draw_isSome endless inRange state)
    obtain ⟨⟨rest, after⟩, others⟩ := Option.isSome_iff_exists.mp (ih middle)
    simp [drawMany, taken, others]

theorem draw_of_ascending {numbers : List Nat}
    (filled : Pool.drawPlaces source ticketPlaces .ascending state = some (numbers, after))
    (ordered : numbers.Pairwise (· ≤ ·)) : draw source state = some (numbers, after) := by
  have sorted : numbers.mergeSort = numbers :=
    List.mergeSort_of_pairwise (by simpa using ordered)
  unfold draw
  rw [filled]
  simp only [Option.map_some, sorted]

theorem draw_least : draw Chance.least () = some ([1, 2, 3, 4, 5, 6], ()) := by
  have filled : Pool.drawPlaces Chance.least ticketPlaces .ascending () =
      some ([1, 2, 3, 4, 5, 6], ()) := by decide +kernel
  exact draw_of_ascending filled (by decide)

theorem drawMany_least (count : Nat) :
    drawMany Chance.least count () = some (List.replicate count [1, 2, 3, 4, 5, 6], ()) := by
  induction count with
  | zero => rfl
  | succ count ih =>
    unfold drawMany
    rw [draw_least]
    simp only [Option.bind_eq_bind, Option.bind_some, ih]
    rfl

end Ticket

end MissionScript.Lotto
