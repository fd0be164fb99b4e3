import MissionScript.Numeral

namespace MissionScript

open Numeral (padded)

/-- Seconds since the start of 1970, and nanoseconds from there on. A leap second is the second
before it with a billion nanoseconds more. -/
structure Timestamp where
  seconds : Int
  nanoseconds : Nat
  deriving DecidableEq, Repr

/-- A day of the Gregorian calendar. -/
structure Date where
  year : Int
  month : Nat
  day : Nat
  deriving DecidableEq, Repr

/-- The date that lies a number of days after the first day of 1970. Years are counted from March,
so that the leap day is the last one, in cycles of four hundred years with always the same days. -/
def Date.ofDays (days : Int) : Date :=
  let shifted := days + 719468
  let cycle := Int.fdiv shifted 146097
  let dayOfCycle := (Int.fmod shifted 146097).toNat
  let yearOfCycle :=
    (dayOfCycle - dayOfCycle / 1460 + dayOfCycle / 36524 - dayOfCycle / 146096) / 365
  let dayOfYear := dayOfCycle - (365 * yearOfCycle + yearOfCycle / 4 - yearOfCycle / 100)
  let monthFromMarch := (5 * dayOfYear + 2) / 153
  let day := dayOfYear - (153 * monthFromMarch + 2) / 5 + 1
  let month := if monthFromMarch < 10 then monthFromMarch + 3 else monthFromMarch - 9
  let year : Int := yearOfCycle + cycle * 400 + if month ≤ 2 then 1 else 0
  ⟨year, month, day⟩

/-- A year in four digits. Outside of four digits it has a sign. -/
def Date.yearText (year : Int) : String :=
  if 0 ≤ year ∧ year ≤ 9999 then padded 4 year.toNat
  else (if year < 0 then "-" else "+") ++ padded 4 year.natAbs

/-- The fraction of a second in no, three, six or nine places: the fewest that are exact. -/
def fractionText (nanoseconds : Nat) : String :=
  if nanoseconds = 0 then ""
  else if nanoseconds % 1000000 = 0 then "." ++ padded 3 (nanoseconds / 1000000)
  else if nanoseconds % 1000 = 0 then "." ++ padded 6 (nanoseconds / 1000)
  else "." ++ padded 9 nanoseconds

/-- The time in the form of RFC 3339, with the zone Z. -/
def Timestamp.text (time : Timestamp) : String :=
  let date := Date.ofDays (Int.fdiv time.seconds 86400)
  let second := (Int.fmod time.seconds 86400).toNat
  Date.yearText date.year ++ "-" ++ padded 2 date.month ++ "-" ++ padded 2 date.day ++ "T"
    ++ padded 2 (second / 3600) ++ ":" ++ padded 2 (second / 60 % 60) ++ ":"
    ++ padded 2 (second % 60 + time.nanoseconds / 1000000000)
    ++ fractionText (time.nanoseconds % 1000000000) ++ "Z"

example : Timestamp.text ⟨-1, 999999999⟩ = "1969-12-31T23:59:59.999999999Z" ∧
    Timestamp.text ⟨1709164800, 500000000⟩ = "2024-02-29T00:00:00.500Z" ∧
    Timestamp.text ⟨253402300800, 0⟩ = "+10000-01-01T00:00:00Z" := by
  decide +kernel

end MissionScript
