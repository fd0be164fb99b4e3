import MissionScript.Decimal.Reading

namespace MissionScript.Json

/-- A number without a value lies beyond binary64, and a string without a value holds half of a
surrogate pair. Both are in order where only the grammar matters. -/
inductive Token
  | openBrace
  | closeBrace
  | openBracket
  | closeBracket
  | colon
  | comma
  | null
  | bool (value : Bool)
  | number (value : Option Float)
  | string (value : Option String)
  | stray
  deriving DecidableEq, Repr

def isSpace (char : Char) : Bool := char = ' ' || char = '\t' || char = '\n' || char = '\r'

def punctuation? : Char → Option Token
  | '\x7b' => some .openBrace
  | '\x7d' => some .closeBrace
  | '[' => some .openBracket
  | ']' => some .closeBracket
  | ':' => some .colon
  | ',' => some .comma
  | _ => none

/-- A part of a string: a character, or a code unit of UTF-16 written in hexadecimal. -/
inductive Piece
  | char (value : Char)
  | unit (code : Nat)
  deriving DecidableEq, Repr

/-- What a backslash and one more character stand for. -/
def escaped? : Char → Option Char
  | '"' => some '"'
  | '\\' => some '\\'
  | '/' => some '/'
  | 'b' => some '\x08'
  | 'f' => some '\x0c'
  | 'n' => some '\n'
  | 'r' => some '\r'
  | 't' => some '\t'
  | _ => none

def hexDigit? (char : Char) : Option Nat := "0123456789abcdef".toList.idxOf? char.toLower

/-- The code unit of four hexadecimal digits. -/
def codeUnit? (digits : List Char) : Option Nat :=
  (digits.mapM hexDigit?).map fun values => values.foldl (fun code digit => code * 16 + digit) 0

/-- The pieces of a string up to its closing quote, and the text after the quote. -/
def pieces? : List Char → Option (List Piece × List Char)
  | [] => none
  | '"' :: after => some ([], after)
  | '\\' :: 'u' :: a :: b :: c :: d :: rest => do
    let code ← codeUnit? [a, b, c, d]
    let (pieces, after) ← pieces? rest
    some (.unit code :: pieces, after)
  | '\\' :: char :: rest => do
    let value ← escaped? char
    let (pieces, after) ← pieces? rest
    some (.char value :: pieces, after)
  | char :: rest =>
    if char.toNat < 0x20 ∨ char = '\\' then none
    else do
      let (pieces, after) ← pieces? rest
      some (.char char :: pieces, after)

def isLeading (code : Nat) : Bool := 0xD800 ≤ code && code < 0xDC00

def isTrailing (code : Nat) : Bool := 0xDC00 ≤ code && code < 0xE000

/-- The characters of the pieces. A surrogate counts only as part of a pair. -/
def characters? : List Piece → Option (List Char)
  | [] => some []
  | .char value :: rest => (characters? rest).map (value :: ·)
  | .unit high :: .unit low :: rest =>
    if isLeading high && isTrailing low then
      (characters? rest).map (.ofNat (0x10000 + (high - 0xD800) * 0x400 + (low - 0xDC00)) :: ·)
    else if isLeading high || isTrailing high then none
    else (characters? (.unit low :: rest)).map (.ofNat high :: ·)
  | .unit code :: rest =>
    if isLeading code || isTrailing code then none
    else (characters? rest).map (.ofNat code :: ·)

/-- One or more digits, and the text after them. -/
def digits? (chars : List Char) : Option (List Char × List Char) :=
  let digits := chars.takeWhile Decimal.isDigit
  if digits.isEmpty then none else some (digits, chars.dropWhile Decimal.isDigit)

/-- The fraction of a number, if a point announces one. -/
def fraction? : List Char → Option (List Char × List Char)
  | '.' :: rest => digits? rest
  | chars => some ([], chars)

/-- The exponent of a number, if its mark announces one. -/
def exponent? : List Char → Option (Int × List Char)
  | mark :: rest =>
    if mark = 'e' ∨ mark = 'E' then
      let (negative, body) := match rest with
        | '-' :: body => (true, body)
        | '+' :: body => (false, body)
        | body => (false, body)
      (digits? body).map fun (digits, after) =>
        let value : Int := Decimal.valueOfDigits digits
        (if negative then -value else value, after)
    else some (0, mark :: rest)
  | [] => some (0, [])

/-- A number without its sign. Its whole part has no zero in front of other digits. -/
def number? (negative : Bool) (chars : List Char) : Option (Token × List Char) := do
  let (whole, rest) ← digits? chars
  if whole.head? = some '0' ∧ whole ≠ ['0'] then none
  let (fraction, rest) ← fraction? rest
  let (exponent, after) ← exponent? rest
  let value := (Decimal.Parts.mk whole fraction exponent).value negative
  some (.number (if value.isInf then none else some value), after)

/-- The literal, string or number at the front of a text. -/
def scalar? : List Char → Option (Token × List Char)
  | '"' :: rest => (pieces? rest).map fun (pieces, after) =>
    (.string ((characters? pieces).map .ofList), after)
  | 'n' :: 'u' :: 'l' :: 'l' :: after => some (.null, after)
  | 't' :: 'r' :: 'u' :: 'e' :: after => some (.bool true, after)
  | 'f' :: 'a' :: 'l' :: 's' :: 'e' :: after => some (.bool false, after)
  | '-' :: rest => number? true rest
  | chars => number? false chars

theorem length_of_pieces? {chars after : List Char} {pieces : List Piece}
    (found : pieces? chars = some (pieces, after)) : after.length < chars.length := by
  fun_induction pieces? chars generalizing pieces after with
  | case1 => simp at found
  | case2 => simp_all
  | case3 a b c d rest ih =>
    simp only [Option.bind_eq_bind, Option.bind_eq_some_iff] at found
    obtain ⟨_, _, ⟨_, _⟩, inner, last⟩ := found
    have := ih inner
    simp_all; omega
  | case4 char rest _ ih =>
    simp only [Option.bind_eq_bind, Option.bind_eq_some_iff] at found
    obtain ⟨_, _, ⟨_, _⟩, inner, last⟩ := found
    have := ih inner
    simp_all; omega
  | case5 => simp at found
  | case6 char rest _ _ _ _ ih =>
    simp only [Option.bind_eq_bind, Option.bind_eq_some_iff] at found
    obtain ⟨⟨_, _⟩, inner, last⟩ := found
    have := ih inner
    simp_all; omega

theorem length_of_digits? {chars digits after : List Char}
    (found : digits? chars = some (digits, after)) : after.length < chars.length := by
  unfold digits? at found
  cases chars with
  | nil => simp at found
  | cons char rest =>
    by_cases digit : Decimal.isDigit char
    · simp only [List.takeWhile_cons_of_pos digit, List.isEmpty_cons, Bool.false_eq_true, if_false,
        List.dropWhile_cons_of_pos digit, Option.some.injEq, Prod.mk.injEq] at found
      obtain ⟨_, rfl⟩ := found
      have := (List.dropWhile_suffix (l := rest) Decimal.isDigit).length_le
      simp only [List.length_cons]
      omega
    · simp [List.takeWhile_cons_of_neg digit] at found

theorem length_of_fraction? {chars digits after : List Char}
    (found : fraction? chars = some (digits, after)) : after.length ≤ chars.length := by
  unfold fraction? at found
  split at found
  · have := length_of_digits? found
    simp only [List.length_cons]
    omega
  · simp_all

theorem length_of_exponent? {chars after : List Char} {exponent : Int}
    (found : exponent? chars = some (exponent, after)) : after.length ≤ chars.length := by
  unfold exponent? at found
  split at found
  · split at found
    · simp only [Option.map_eq_some_iff] at found
      obtain ⟨⟨_, _⟩, inner, last⟩ := found
      have := length_of_digits? inner
      split at this <;> simp_all <;> omega
    · simp_all
  · simp_all

theorem length_of_number? {negative : Bool} {chars after : List Char} {token : Token}
    (found : number? negative chars = some (token, after)) : after.length < chars.length := by
  unfold number? at found
  simp only [Option.bind_eq_bind, Option.bind_eq_some_iff] at found
  obtain ⟨⟨_, _⟩, whole, found⟩ := found
  split at found
  · simp at found
  · obtain ⟨⟨_, _⟩, fraction, ⟨_, _⟩, exponent, last⟩ := by
      simpa only [Option.bind_eq_bind, Option.bind_eq_some_iff] using found
    have := length_of_digits? whole
    have := length_of_fraction? fraction
    have := length_of_exponent? exponent
    simp_all; omega

theorem length_of_scalar? {chars after : List Char} {token : Token}
    (found : scalar? chars = some (token, after)) : after.length < chars.length := by
  unfold scalar? at found
  split at found
  · simp only [Option.map_eq_some_iff] at found
    obtain ⟨⟨_, _⟩, inner, last⟩ := found
    have := length_of_pieces? inner
    simp_all; omega
  · simp_all; omega
  · simp_all; omega
  · simp_all; omega
  · have := length_of_number? found
    simp only [List.length_cons]
    omega
  · exact length_of_number? found

/-- The tokens of a text. -/
def tokens (chars : List Char) : List Token :=
  match chars with
  | [] => []
  | char :: rest =>
    if isSpace char then tokens rest
    else match punctuation? char with
      | some token => token :: tokens rest
      | none =>
        match _found : scalar? (char :: rest) with
        | none => [.stray]
        | some (token, after) => token :: tokens after
termination_by chars.length
decreasing_by
  · simp
  · simp
  · exact length_of_scalar? _found

end MissionScript.Json
