import MissionScript.Chance.Uniform

/-! The words of the ChaCha stream cipher with twelve rounds, as a source of chance that a seed of
sixty-four bits repeats exactly. -/
namespace MissionScript.Chance

def rotateLeft (word amount : UInt32) : UInt32 := word <<< amount ||| word >>> (32 - amount)

/-- The working block of the cipher: a square of words, four to a row. -/
abbrev Square := Vector UInt32 16

/-- Adds, mixes and rotates four words of the square. -/
def quarterRound (square : Square) (a b c d : Fin 16) : Square :=
  let step (square : Square) (a b d : Fin 16) (amount : UInt32) : Square :=
    let square := square.set a (square[a] + square[b])
    square.set d (rotateLeft (square[d] ^^^ square[a]) amount)
  step (step (step (step square a b d 16) c d b 12) a b d 8) c d b 7

/-- A round on the columns and a round on the diagonals. -/
def doubleRound (square : Square) : Square :=
  let square := quarterRound square 0 4 8 12
  let square := quarterRound square 1 5 9 13
  let square := quarterRound square 2 6 10 14
  let square := quarterRound square 3 7 11 15
  let square := quarterRound square 0 5 10 15
  let square := quarterRound square 1 6 11 12
  let square := quarterRound square 2 7 8 13
  quarterRound square 3 4 9 14

/-- The sixteen words of one block: the constants, the key, the block number and two zeros, mixed
by twelve rounds and then added to what they were. -/
def keystreamBlock (key : Vector UInt32 8) (number : UInt64) : Square :=
  let constants : Vector UInt32 4 := #v[0x61707865, 0x3320646E, 0x79622D32, 0x6B206574]
  let place : Vector UInt32 4 := #v[number.toUInt32, (number >>> 32).toUInt32, 0, 0]
  let start : Square := constants ++ key ++ place
  let mixed := (List.range 6).foldl (fun square _ => doubleRound square) start
  mixed.zipWith (· + ·) start

/-- A keystream after some of its words: the words of the current block that are still to come, and
the number of the next block. -/
structure Keystream where
  key : Vector UInt32 8
  nextBlock : UInt64
  pending : List UInt32

/-- The next word of the stream. -/
def Keystream.next (stream : Keystream) : UInt32 × Keystream :=
  match stream.pending with
  | word :: rest => (word, { stream with pending := rest })
  | [] =>
    let block := keystreamBlock stream.key stream.nextBlock
    (block[0], { stream with nextBlock := stream.nextBlock + 1, pending := block.toList.drop 1 })

/-- One step of the generator that spreads a seed over the key. -/
def spread (seed : UInt64) : UInt64 := seed * 6364136223846793005 + 11634580027462260723

/-- The key word of a state: some of its high bits, rotated right by the topmost ones. -/
def keyWord (state : UInt64) : UInt32 :=
  let word := ((state >>> 18 ^^^ state) >>> 27).toUInt32
  let amount := (state >>> 59).toUInt32
  word >>> amount ||| word <<< ((32 - amount) % 32)

/-- The keystream of a seed, from its first word on. -/
def Keystream.ofSeed (seed : UInt64) : Keystream where
  key := Vector.ofFn fun index => keyWord (Nat.repeat spread (index + 1) seed)
  nextBlock := 0
  pending := []

/-- The source that plays a keystream. -/
def keystream : Source Keystream := ofWords Keystream.next

end MissionScript.Chance
