import CanvasTransform.Json.Basic

set_option autoImplicit false

/-! # Writing JSON

`Json.compact` writes a value without blanks. `Json.pretty` writes each element and each member on a
line of its own, indented by two blanks per level; an empty container stays on one line. A string
that is no text cannot be written and comes out empty; encoders never make one. -/

namespace CanvasTransform

namespace Numeral

/-- The text of decimal digits. -/
def digitsText (digits : List Nat) : String := String.ofList (digits.map fun d => Char.ofNat (48 + d))

/-- The text of a number. An exponent is always written with its sign. -/
def toText (n : Numeral) : String :=
  let sign := if n.negative then "-" else ""
  let fraction := if n.fraction.isEmpty then "" else "." ++ digitsText n.fraction
  let exponent :=
    match n.exponent with
    | some e => (if e < 0 then "e-" else "e+") ++ digitsText (digitsOf e.natAbs)
    | none => ""
  sign ++ digitsText n.whole ++ fraction ++ exponent

end Numeral

namespace Json

/-! ## Strings -/

/-- The lower-case hexadecimal digit of a number below 16. -/
def hexDigit (n : Nat) : Char := Char.ofNat (if n < 10 then 48 + n else 87 + n)

/-- A character inside a string. Quotes, backslashes and control characters are escaped. -/
def escape (c : Char) : List Char :=
  if c = '"' then ['\\', '"']
  else if c = '\\' then ['\\', '\\']
  else if c = '\n' then ['\\', 'n']
  else if c = '\r' then ['\\', 'r']
  else if c = '\t' then ['\\', 't']
  else if c = '\x08' then ['\\', 'b']
  else if c = '\x0c' then ['\\', 'f']
  else if c.toNat < 0x20 then
    ['\\', 'u', '0', '0', hexDigit (c.toNat / 16), hexDigit (c.toNat % 16)]
  else [c]

/-- A string in quotes. -/
def quoted (s : String) : String := "\"" ++ String.ofList (s.toList.flatMap escape) ++ "\""

/-! ## Values -/

mutual

/-- The text of a value without blanks. -/
def compact : Json → String
  | .null => "null"
  | .bool true => "true"
  | .bool false => "false"
  | .number n => n.toText
  | .string s => quoted (s.getD "")
  | .array elements => "[" ++ ",".intercalate (compactElements elements) ++ "]"
  | .object members => "\x7b" ++ ",".intercalate (compactMembers members) ++ "\x7d"

def compactElements : List Json → List String
  | [] => []
  | j :: rest => compact j :: compactElements rest

def compactMembers : List (Option String × Json) → List String
  | [] => []
  | (key, j) :: rest => (quoted (key.getD "") ++ ":" ++ compact j) :: compactMembers rest

end

/-- A new line at the given level of nesting. -/
def newline (level : Nat) : String := "\n" ++ String.ofList (List.replicate (2 * level) ' ')

/-- The parts of a container on lines of their own, one level deeper than the container. -/
def lines (opening closing : String) (level : Nat) (parts : List String) : String :=
  if parts.isEmpty then opening ++ closing
  else
    opening ++ newline (level + 1) ++ ("," ++ newline (level + 1)).intercalate parts ++
      newline level ++ closing

mutual

/-- The text of a value at the given level of nesting, over several lines. -/
def prettyAt (level : Nat) : Json → String
  | .null => "null"
  | .bool true => "true"
  | .bool false => "false"
  | .number n => n.toText
  | .string s => quoted (s.getD "")
  | .array elements => lines "[" "]" level (prettyElements (level + 1) elements)
  | .object members => lines "\x7b" "\x7d" level (prettyMembers (level + 1) members)

def prettyElements (level : Nat) : List Json → List String
  | [] => []
  | j :: rest => prettyAt level j :: prettyElements level rest

def prettyMembers (level : Nat) : List (Option String × Json) → List String
  | [] => []
  | (key, j) :: rest =>
    (quoted (key.getD "") ++ ": " ++ prettyAt level j) :: prettyMembers level rest

end

/-- The text of a value over several lines. -/
def pretty (j : Json) : String := j.prettyAt 0

end Json

end CanvasTransform
