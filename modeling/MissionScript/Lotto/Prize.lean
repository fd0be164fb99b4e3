import MissionScript.Numeral
import MissionScript.Text

namespace MissionScript.Lotto

inductive Rank
  | fifth
  | fourth
  | third
  | second
  | first
  deriving DecidableEq, Repr

instance : Named Rank where
  all := [.fifth, .fourth, .third, .second, .first]
  name
    | .fifth => "Fifth"
    | .fourth => "Fourth"
    | .third => "Third"
    | .second => "Second"
    | .first => "First"

namespace Rank

/-- The ranks, lowest first. -/
def all : List Rank := Named.all

/-- The rank of a ticket by its matches. The bonus number counts only beside five of them. -/
def ofMatches? : (matched : Nat) → (bonus : Bool) → Option Rank
  | 6, _ => some first
  | 5, true => some second
  | 5, false => some third
  | 4, _ => some fourth
  | 3, _ => some fifth
  | _, _ => none

def prize : Rank → UInt64
  | fifth => 5000
  | fourth => 50000
  | third => 1500000
  | second => 30000000
  | first => 2000000000

def condition : Rank → String
  | fifth => "3 matches"
  | fourth => "4 matches"
  | third => "5 matches"
  | second => "5 matches + bonus"
  | first => "6 matches"

/-- The place of a rank, from the lowest one up. -/
def place : Rank → Fin 5
  | fifth => 0
  | fourth => 1
  | third => 2
  | second => 3
  | first => 4

end Rank

/-- What a purchase has won. The counts of the winning tickets stand at the places of their ranks. -/
structure Summary where
  spent : UInt64
  won : UInt64
  counts : Vector UInt32 5
  unranked : UInt32
  deriving DecidableEq, Repr

namespace Summary

/-- The summary of a purchase before any ticket is counted. -/
def start (spent : UInt64) : Summary := ⟨spent, 0, .replicate 5 0, 0⟩

def count (summary : Summary) (rank : Rank) : UInt32 := summary.counts[rank.place]

/-- Counts one more ticket. -/
def record (summary : Summary) : Option Rank → Summary
  | none => { summary with unranked := summary.unranked + 1 }
  | some rank =>
    { summary with
      counts := summary.counts.set rank.place (summary.count rank + 1)
      won := summary.won + rank.prize }

/-- The share of the spent amount that came back, in percent. -/
def returnRate (summary : Summary) : Float :=
  if summary.spent = 0 then 0.0 else summary.won.toFloat / summary.spent.toFloat * 100.0

/-- The same share in hundredths of a percent, a half rounded up. -/
def returnHundredths (summary : Summary) : UInt64 :=
  if summary.spent = 0 then 0 else (summary.won * 20000 / summary.spent + 1) / 2

def rankLine (summary : Summary) (rank : Rank) : String :=
  rank.condition ++ " (" ++ Numeral.groupedText rank.prize.toNat ++ " won): "
    ++ toString (summary.count rank).toNat

/-- The lines of the report. -/
def report (summary : Summary) : String :=
  let hundredths := summary.returnHundredths.toNat
  let amounts := "Purchase amount: " ++ toString summary.spent.toNat ++ " won, total prize: "
    ++ Numeral.groupedText summary.won.toNat ++ " won"
  let rate := "Return rate: " ++ toString (hundredths / 100) ++ "."
    ++ Numeral.padded 2 (hundredths % 100) ++ "%"
  "\n".intercalate ("[LOTTO RESULT]" :: amounts :: rate :: Rank.all.map summary.rankLine)

end Summary

end MissionScript.Lotto
