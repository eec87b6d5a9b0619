set_option autoImplicit false

/-! # Text of 128-bit identities

An identity is written as 32 lower-case hexadecimal digits in groups of 8, 4, 4, 4 and 12 with
hyphens between them. Reading takes the digits without hyphens too, and the hyphenated form in braces
or after `urn:uuid:`. Upper and lower case are the same to it, in the digits and in what stands before
them. -/

namespace CanvasTransform.Uuid

/-- The lengths of the groups between the hyphens. -/
def groups : List Nat := [8, 4, 4, 4, 12]

/-! ## Digits -/

/-- The lower-case hexadecimal digit of a number below 16. -/
def digit (n : Nat) : Char := Char.ofNat (if n < 10 then 48 + n else 87 + n)

/-- The last `count` hexadecimal digits of a number, most significant first. -/
def digits (n : Nat) : Nat → List Char
  | 0 => []
  | count + 1 => digits (n / 16) count ++ [digit (n % 16)]

/-- The value of a hexadecimal digit in either case. -/
def digitValue? (c : Char) : Option Nat :=
  if '0' ≤ c ∧ c ≤ '9' then some (c.toNat - 48)
  else if 'a' ≤ c ∧ c ≤ 'f' then some (c.toNat - 87)
  else if 'A' ≤ c ∧ c ≤ 'F' then some (c.toNat - 55)
  else none

/-- The number with the given hexadecimal digits. -/
def ofDigits? (cs : List Char) : Option Nat :=
  cs.foldlM (fun n c => (digitValue? c).map (16 * n + ·)) 0

/-! ## Groups -/

/-- Put hyphens between groups of the given lengths. -/
def hyphenate : List Nat → List Char → List Char
  | [], cs => cs
  | [_], cs => cs
  | n :: rest, cs => cs.take n ++ '-' :: hyphenate rest (cs.drop n)

/-- Take the hyphens out of a text in groups of the given lengths. -/
def unhyphenate? : List Nat → List Char → Option (List Char)
  | [], cs => if cs.isEmpty then some [] else none
  | [n], cs => if cs.length = n then some cs else none
  | n :: rest, cs =>
    match cs.drop n with
    | '-' :: tail => (unhyphenate? rest tail).map (cs.take n ++ ·)
    | _ => none

/-! ## Identities -/

/-- The written form of an identity. -/
def format (id : BitVec 128) : String :=
  String.ofList (hyphenate groups (digits id.toNat 32))

/-- The scheme that may stand before the hyphenated form, in lower case. -/
def scheme : List Char := "urn:uuid:".toList

/-- What follows the scheme, if a text begins with it in either case. -/
def afterScheme? (cs : List Char) : Option (List Char) :=
  if (cs.take scheme.length).map Char.toLower = scheme then some (cs.drop scheme.length) else none

/-- What stands between the braces, if a text is in braces. -/
def inBraces? : List Char → Option (List Char)
  | '{' :: rest => if rest.getLast? = some '}' then some rest.dropLast else none
  | _ => none

/-- The 32 digits of a text in any of the accepted forms. -/
def body? (cs : List Char) : Option (List Char) :=
  if cs.length = 32 then some cs
  else unhyphenate? groups ((inBraces? cs <|> afterScheme? cs).getD cs)

/-- The identity that a text names. -/
def parse? (text : String) : Option (BitVec 128) :=
  ((body? text.toList).bind ofDigits?).map (BitVec.ofNat 128)

end CanvasTransform.Uuid
