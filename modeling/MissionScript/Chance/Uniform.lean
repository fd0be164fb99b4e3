import MissionScript.Chance.Source

/-! Whole numbers from a range out of uniform 32-bit words, by widening multiplication: the high
half of word times range is the answer, and a second word decides when the low half is so large
that the answer may be one too small. -/
namespace MissionScript.Chance

/-- The high and the low half of the product of two words. -/
def widened (left right : UInt32) : UInt32 × UInt32 :=
  let product := left.toUInt64 * right.toUInt64
  ((product >>> 32).toUInt32, product.toUInt32)

/-- Whether the sum of two words leaves the words. -/
def carries (left right : UInt32) : Bool := left + right < left

/-- Draws from a range with a given stream of words. A range with at most one number takes no word,
and the range of all words takes the next word as it is. -/
def drawUniform {State : Type} (next : State → UInt32 × State) (low high : UInt32) (state : State) :
    UInt32 × State :=
  if high ≤ low then (low, state)
  else
    let range := high - low + 1
    let (word, state) := next state
    if range = 0 then (word, state)
    else
      let (offset, remainder) := widened word range
      if 0 - range < remainder then
        let (word, state) := next state
        let correction := if carries remainder (widened word range).1 then 1 else 0
        (low + (offset + correction), state)
      else (low + offset, state)

/-- A fraction with fifty-three bits from two words, the low word first. -/
def fractionOfWords (low high : UInt32) : Float :=
  let word := high.toUInt64 <<< 32 ||| low.toUInt64
  (word >>> 11).toFloat * Float.ofBits 0x3CA0000000000000

/-- The source behind a stream of words, which never runs out. -/
def ofWords {State : Type} (next : State → UInt32 × State) : Source State where
  draw low high state := some (drawUniform next low high state)
  fraction state :=
    let (low, state) := next state
    let (high, state) := next state
    (fractionOfWords low high, state)

end MissionScript.Chance
