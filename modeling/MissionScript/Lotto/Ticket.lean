import MissionScript.Chance.Source

namespace MissionScript.Lotto

/-- The highest number of the game; the lowest is one. -/
abbrev highest : Nat := 45

/-- How many numbers a ticket has, and how many are drawn. -/
abbrev size : Nat := 6

/-- The numbers of a ticket, ascending. -/
abbrev Ticket := List Nat

/-- All numbers of the game in some order. -/
abbrev Pool := Vector Nat highest

/-- The numbers in ascending order. -/
def Pool.ascending : Pool := .ofFn fun place => place.val + 1

def isInGame (number : Nat) : Bool := 1 ≤ number && number ≤ highest

/-- Fills some places of the pool one after the other, each from a place between itself and the
end, and answers the numbers that come to stand there. A draw from outside of the pool answers
nothing. -/
def Pool.drawPlaces {State : Type} (source : Chance.Source State) :
    List (Fin highest) → Pool → State → Option (List Nat × State)
  | [], _, state => some ([], state)
  | place :: places, pool, state => do
    let (choice, state) ← source.draw (.ofNat place) (.ofNat (highest - 1)) state
    if inside : choice.toNat < highest then
      let pool := pool.swap place choice.toNat
      let (numbers, state) ← drawPlaces source places pool state
      some (pool[place] :: numbers, state)
    else none

/-- The places that make a ticket. -/
def ticketPlaces : List (Fin highest) := [0, 1, 2, 3, 4, 5]

/-- Draws a ticket: six places of a fresh pool, then put in order. -/
def Ticket.draw {State : Type} (source : Chance.Source State) (state : State) :
    Option (Ticket × State) :=
  (Pool.drawPlaces source ticketPlaces .ascending state).map fun (numbers, after) =>
    (numbers.mergeSort, after)

/-- Draws a number of tickets, one after the other. -/
def Ticket.drawMany {State : Type} (source : Chance.Source State) :
    Nat → State → Option (List Ticket × State)
  | 0, state => some ([], state)
  | count + 1, state => do
    let (ticket, state) ← Ticket.draw source state
    let (tickets, state) ← drawMany source count state
    some (ticket :: tickets, state)

end MissionScript.Lotto
