import CanvasTransform.Json.Basic

set_option autoImplicit false

/-! # JSON tokens

A text is cut into tokens: brackets, commas and colons, and *atoms*, the values that have no parts.
The lexer is strict: digits on both sides of a point, no sign but a minus, no leading zero, and no
control character inside a string. -/

namespace CanvasTransform.Json

/-- A token of a JSON text. -/
inductive Token
  | beginArray
  | endArray
  | beginObject
  | endObject
  | comma
  | colon
  | atom (value : Json)

/-! ## Strings -/

/-- A piece of a string: a character, or half of a surrogate pair spelled by an escape. -/
inductive Piece
  | char (c : Char)
  | half (unit : Nat)

/-- The text made of pieces given last first, followed by `after`. Halves have to come in pairs. -/
def joinPieces : List Piece → List Char → Option (List Char)
  | [], after => some after
  | .char c :: rest, after => joinPieces rest (c :: after)
  | .half low :: .half high :: rest, after =>
    if high < 0xDC00 ∧ 0xDC00 ≤ low then
      joinPieces rest (Char.ofNat (0x10000 + (high - 0xD800) * 0x400 + (low - 0xDC00)) :: after)
    else none
  | .half _ :: _, _ => none

def hexValue? (c : Char) : Option Nat :=
  if '0' ≤ c ∧ c ≤ '9' then some (c.toNat - 48)
  else if 'a' ≤ c ∧ c ≤ 'f' then some (c.toNat - 87)
  else if 'A' ≤ c ∧ c ≤ 'F' then some (c.toNat - 55)
  else none

/-- The piece that four hexadecimal digits spell. -/
def unitPiece? (a b c d : Char) : Option Piece := do
  let n := ((← hexValue? a) * 16 + (← hexValue? b)) * 256 + (← hexValue? c) * 16 + (← hexValue? d)
  return if 0xD800 ≤ n ∧ n < 0xE000 then .half n else .char (Char.ofNat n)

/-- The character that a one-letter escape stands for. -/
def escaped? : Char → Option Char
  | '"' => some '"'
  | '\\' => some '\\'
  | '/' => some '/'
  | 'b' => some '\x08'
  | 'f' => some '\x0c'
  | 'n' => some '\n'
  | 'r' => some '\r'
  | 't' => some '\t'
  | _ => none

/-- Read a string up to its closing quote; `before` has the pieces read so far, last first. The answer
    is the pieces, last first, and what follows the quote. -/
def scanString (before : List Piece) : List Char → Option (List Piece × List Char)
  | [] => none
  | '"' :: rest => some (before, rest)
  | '\\' :: 'u' :: a :: b :: c :: d :: rest =>
    match unitPiece? a b c d with
    | some piece => scanString (piece :: before) rest
    | none => none
  | '\\' :: e :: rest =>
    match escaped? e with
    | some c => scanString (.char c :: before) rest
    | none => none
  | c :: rest => if c.toNat < 0x20 then none else scanString (.char c :: before) rest

/-! ## Numbers -/

/-- The digits that a text begins with, and the rest. -/
def scanDigits (cs : List Char) : List Nat × List Char :=
  ((cs.takeWhile Char.isDigit).map fun c => c.toNat - 48, cs.dropWhile Char.isDigit)

/-- The digits before the point: a zero alone, or digits that do not begin with zero. -/
def scanWhole : List Char → Option (List Nat × List Char)
  | '0' :: rest => some ([0], rest)
  | cs =>
    match scanDigits cs with
    | ([], _) => none
    | found => some found

/-- The digits after the point, if there is one. -/
def scanFraction : List Char → Option (List Nat × List Char)
  | '.' :: rest =>
    match scanDigits rest with
    | ([], _) => none
    | found => some found
  | cs => some ([], cs)

/-- The digits of an exponent with the given sign. -/
def scanExponentDigits (sign : Int) (cs : List Char) : Option (Option Int × List Char) :=
  match scanDigits cs with
  | ([], _) => none
  | (digits, rest) => some (some (sign * Numeral.ofDigits digits), rest)

/-- The exponent, if there is one. -/
def scanExponent : List Char → Option (Option Int × List Char)
  | e :: rest =>
    if e = 'e' ∨ e = 'E' then
      match rest with
      | '+' :: rest => scanExponentDigits 1 rest
      | '-' :: rest => scanExponentDigits (-1) rest
      | _ => scanExponentDigits 1 rest
    else some (none, e :: rest)
  | [] => some (none, [])

/-- The number that a text begins with, and the rest. -/
def scanNumeral (cs : List Char) : Option (Numeral × List Char) := do
  let (negative, cs) :=
    match cs with
    | '-' :: rest => (true, rest)
    | _ => (false, cs)
  let (whole, cs) ← scanWhole cs
  let (fraction, cs) ← scanFraction cs
  let (exponent, cs) ← scanExponent cs
  return (⟨negative, whole, fraction, exponent⟩, cs)

/-! ## Tokens -/

def isBlank (c : Char) : Bool := c == ' ' || c == '\n' || c == '\r' || c == '\t'

/-- The token that a text without leading blanks begins with, and the rest. -/
def scanToken : List Char → Option (Token × List Char)
  | '[' :: rest => some (.beginArray, rest)
  | ']' :: rest => some (.endArray, rest)
  | '{' :: rest => some (.beginObject, rest)
  | '}' :: rest => some (.endObject, rest)
  | ',' :: rest => some (.comma, rest)
  | ':' :: rest => some (.colon, rest)
  | 'n' :: 'u' :: 'l' :: 'l' :: rest => some (.atom .null, rest)
  | 't' :: 'r' :: 'u' :: 'e' :: rest => some (.atom (.bool true), rest)
  | 'f' :: 'a' :: 'l' :: 's' :: 'e' :: rest => some (.atom (.bool false), rest)
  | '"' :: rest => do
    let (pieces, rest) ← scanString [] rest
    return (.atom (.string ((joinPieces pieces []).map String.ofList)), rest)
  | cs => do
    let (n, rest) ← scanNumeral cs
    return (.atom (.number n), rest)

/-- Read tokens to the end of the text, in at most `fuel` steps; `before` has the tokens read so far,
    last first. -/
def scanTokens (before : List Token) : Nat → List Char → Option (List Token)
  | _, [] => some before.reverse
  | 0, _ :: _ => none
  | fuel + 1, c :: rest =>
    if isBlank c then scanTokens before fuel rest
    else
      match scanToken (c :: rest) with
      | some (token, rest) => scanTokens (token :: before) fuel rest
      | none => none

/-- The tokens of a text. A step takes at least one character, so there are no more steps than
    characters. -/
def tokens? (text : String) : Option (List Token) :=
  let cs := text.toList
  scanTokens [] cs.length cs

end CanvasTransform.Json
