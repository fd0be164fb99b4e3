import MissionScript.Block
import MissionScript.Lotto.Prize
import MissionScript.Lotto.Ticket
import MissionScript.Outcome
import MissionScript.Text

namespace MissionScript.Lotto

/-- The purchase and the draw so far. There are no winning numbers before they are entered. -/
structure Lottery where
  tickets : List Ticket
  winning : List Nat
  bonus : Option Nat
  spent : UInt64
  deriving DecidableEq, Repr

/-- The numbers as the log writes them. -/
def listed (numbers : List Nat) : String := ", ".intercalate (numbers.map toString)

/-- The numbers between the commas of a text. What is no number of 32 bits is passed over. -/
def readNumbers (text : String) : List Nat :=
  (Text.fields ',' text.toList).filterMap fun field =>
    (Numeral.readUnsigned (UInt32.size - 1) (Text.trimmed field)).toOption

/-- The rank of a ticket against the winning numbers and the bonus number. -/
def rankOf (winning : List Nat) (bonus : Nat) (ticket : Ticket) : Option Rank :=
  Rank.ofMatches? (ticket.countP (· ∈ winning)) (bonus ∈ ticket)

namespace Lottery

def empty : Lottery := ⟨[], [], none, 0⟩

/-- The price of a ticket, in won. -/
def price : UInt64 := 1000

/-- The largest purchase. -/
def mostTickets : Nat := 10000

/-- The number of tickets that a purchase asks for. -/
def ticketCount (count : Float) : Except Violation Nat :=
  match (Decimal.natural? count).filter (1 ≤ ·) with
  | none => .error .ticketCount
  | some count => if mostTickets < count then .error .tooManyTickets else .ok count

/-- Buys tickets in place of any that were bought before. -/
def buy {State : Type} (source : Chance.Source State) (lottery : Lottery) (count : Float)
    (state : State) : Option (Outcome (Lottery × State) String) :=
  match ticketCount count with
  | .error violation => some (.refused violation (lottery, state))
  | .ok count => do
    let (tickets, state) ← Ticket.drawMany source count state
    let spent := .ofNat count * price
    some (.done ("[LOTTO] Issued " ++ toString count ++ " tickets (" ++ toString spent.toNat
        ++ " won).")
      ({ lottery with tickets, spent }, state))

/-- Enters the winning numbers: six different ones of the game, in any order. -/
def enterWinning (lottery : Lottery) (numbers : List Nat) : Outcome Lottery String :=
  let winning := numbers.mergeSort
  if winning.length = size ∧ winning.Nodup ∧ winning.all isInGame then
    .done ("[LOTTO] Winning numbers: " ++ listed winning ++ " entered.") { lottery with winning }
  else .refused .winningNumbers lottery

/-- Enters the bonus number, which is no winning number entered so far. -/
def enterBonus (lottery : Lottery) (number : Nat) : Outcome Lottery String :=
  if isInGame number ∧ number ∉ lottery.winning then
    .done ("[LOTTO] Bonus number: " ++ toString number ++ " entered.")
      { lottery with bonus := some number }
  else .refused .bonusNumber lottery

/-- Checks every ticket against the draw. -/
def check (lottery : Lottery) : Except Fault Summary :=
  if lottery.tickets.isEmpty then .error (.validation .noTickets)
  else if lottery.winning.isEmpty then .error (.validation .drawIncomplete)
  else match lottery.bonus with
    | none => .error (.validation .drawIncomplete)
    | some bonus =>
      .ok ((lottery.tickets.map (rankOf lottery.winning bonus)).foldl Summary.record
        (.start lottery.spent))

/-- Handles a block by its command, whatever domain the block declares. -/
def handle {State : Type} (source : Chance.Source State) (lottery : Lottery) (block : Block)
    (state : State) : Option (Outcome (Lottery × State) String) :=
  let still (outcome : Outcome Lottery String) :=
    some (outcome.within fun lottery => (lottery, state))
  match block.command with
  | .buyTickets => match block.number? 0 with
    | none => still (.refused .ticketCount lottery)
    | some count => lottery.buy source count state
  | .inputWinning => still (lottery.enterWinning (readNumbers (block.text 0)))
  | .inputBonus => still <| match (block.number? 0).bind Decimal.natural? with
    | none => .refused .bonusNumber lottery
    | some number => lottery.enterBonus number
  | .checkResult => still ⟨lottery.check.map Summary.report, lottery⟩
  | command => some (.failed (.commandMismatch command .lotto) (lottery, state))

end Lottery

end MissionScript.Lotto
