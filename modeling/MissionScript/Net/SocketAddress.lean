namespace MissionScript.Net

/-- An address with a port. Version 4 has four octets, version 6 has eight groups of sixteen bits
and a scope, which is zero when none is given. -/
inductive SocketAddress
  | v4 (octets : List Nat) (port : Nat)
  | v6 (groups : List Nat) (scope : Nat) (port : Nat)
  deriving DecidableEq, Repr

/-- A reader takes its part from the front of the text. -/
abbrev Reader := StateT (List Char) Option

namespace Reader

/-- Takes one given character. -/
def char (expected : Char) : Reader Unit := fun
  | found :: rest => if found = expected then some ((), rest) else none
  | [] => none

/-- The value of a digit in a base up to sixteen. -/
def digit? (base : Nat) (char : Char) : Option Nat :=
  "0123456789abcdef".toList.idxOf? char.toLower |>.filter (· < base)

/-- Takes all digits that follow, of which there must be some. The flag tells whether there is a
zero in front of other digits. -/
def digits (base : Nat) : Reader (Nat × Nat × Bool) := fun chars =>
  let (taken, rest) := chars.span fun char => (digit? base char).isSome
  if taken.isEmpty then none
  else
    let values := taken.filterMap (digit? base)
    some ((values.foldl (fun value digit => value * base + digit) 0, taken.length,
      values.head? = some 0 && 1 < taken.length), rest)

/-- A decimal number up to a largest value, zeros in front of it allowed. -/
def number (largest : Nat) : Reader Nat := do
  let (value, _, _) ← digits 10
  if largest < value then failure else return value

/-- A number below 256 in at most three digits, without a zero in front. -/
def octet : Reader Nat := do
  let (value, count, zeroInFront) ← digits 10
  if 3 < count ∨ zeroInFront ∨ 255 < value then failure else return value

/-- Four hexadecimal digits at most. -/
def group : Reader Nat := do
  let (value, count, _) ← digits 16
  if 4 < count then failure else return value

/-- Four octets with points between them. -/
def octets : Reader (List Nat) := do
  let first ← octet
  let others ← [(), (), ()].mapM fun _ => char '.' *> octet
  return first :: others

/-- Two groups out of four octets. -/
def pairs : List Nat → List Nat
  | high :: low :: rest => (high * 256 + low) :: pairs rest
  | _ => []

/-- Takes groups with colons between them as long as there is room. The last two may be written as
four octets, and the flag tells whether they were. -/
def groups : (room : Nat) → (first : Bool) → List Char → (List Nat × Bool) × List Char
  | 0, _, chars => (([], false), chars)
  | room + 1, first, chars =>
    match if first then some ((), chars) else char ':' chars with
    | none => (([], false), chars)
    | some ((), body) =>
      match if room = 0 then none else octets body with
      | some (four, rest) => ((pairs four, true), rest)
      | none =>
        match group body with
        | none => (([], false), chars)
        | some (value, rest) =>
          let ((others, dotted), rest) := groups room false rest
          ((value :: others, dotted), rest)

/-- Eight groups, or fewer with two colons in place of at least one group of zeros. Octets may stand
only at the end. -/
def address6 : Reader (List Nat) := do
  let (head, dotted) ← fun chars => some (groups 8 true chars)
  if head.length = 8 then return head
  else if dotted then failure
  else
    char ':'
    char ':'
    let (tail, _) ← fun chars => some (groups (7 - head.length) true chars)
    return head ++ List.replicate (8 - head.length - tail.length) 0 ++ tail

/-- The number of a scope after a percent sign, or zero. -/
def scope : Reader Nat := (char '%' *> number (UInt32.size - 1)) <|> return 0

def port : Reader Nat := char ':' *> number (UInt16.size - 1)

def socket4 : Reader SocketAddress := do
  let octets ← octets
  return .v4 octets (← port)

def socket6 : Reader SocketAddress := do
  char '['
  let groups ← address6
  let scope ← scope
  char ']'
  return .v6 groups scope (← port)

end Reader

/-- Reads the address that makes up the whole text. -/
def SocketAddress.read? (text : String) : Option SocketAddress :=
  match (Reader.socket4 <|> Reader.socket6) text.toList with
  | some (address, []) => some address
  | _ => none

/-- The start and the length of the longest run of zeros, the first one of several. -/
def longestZeros (groups : List Nat) : Nat × Nat :=
  let runs := (List.range groups.length).map fun start =>
    (start, ((groups.drop start).takeWhile (· = 0)).length)
  runs.foldl (fun best run => if best.2 < run.2 then run else best) (0, 0)

def octetsText (octets : List Nat) : String := ".".intercalate (octets.map toString)

def groupsText (groups : List Nat) : String :=
  ":".intercalate (groups.map fun group => String.ofList (Nat.toDigits 16 group))

/-- The text of an address of version 6. An address of version 4 inside it is written in octets, and
the longest run of zeros, if it has two groups or more, as two colons. -/
def address6Text : List Nat → String
  | [0, 0, 0, 0, 0, 0xFFFF, high, low] =>
    "::ffff:" ++ octetsText [high / 256, high % 256, low / 256, low % 256]
  | groups =>
    let (start, length) := longestZeros groups
    if length < 2 then groupsText groups
    else groupsText (groups.take start) ++ "::" ++ groupsText (groups.drop (start + length))

def SocketAddress.text : SocketAddress → String
  | v4 octets port => octetsText octets ++ ":" ++ toString port
  | v6 groups scope port =>
    "[" ++ address6Text groups ++ (if scope = 0 then "" else "%" ++ toString scope) ++ "]:"
      ++ toString port

/-- Of two runs of zeros the longer one is left out, and of two equally long ones the first. -/
example : ["1.2.3.4:80", "[1:0:0:2::3]:80", "[1:0:0:2:3:0:0:4%7]:80", "[::FFFF:1.2.3.4]:80"].map
      (fun text => (SocketAddress.read? text).map SocketAddress.text) =
    [some "1.2.3.4:80", some "[1:0:0:2::3]:80", some "[1::2:3:0:0:4%7]:80",
      some "[::ffff:1.2.3.4]:80"] := by
  decide +kernel

example : ["01.2.3.4:80", "1.2.3.4", "[1::2::3]:80", "[::1.2.3.256]:80", "host:80"].map
    SocketAddress.read? = [none, none, none, none, none] := by decide +kernel

end MissionScript.Net
