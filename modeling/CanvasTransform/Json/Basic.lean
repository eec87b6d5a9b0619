set_option autoImplicit false

/-! # JSON values

A JSON value keeps what its text says and no more. Numbers keep their digits, since what a number
means depends on who asks. A string may spell half of a surrogate pair; such a string is well formed
but is no text, and is kept as `none`. Objects keep their members in order, repeated names
included. -/

namespace CanvasTransform

/-- A number as it is written: digits, most significant first, and an exponent of ten. The fraction is
    empty exactly when there is no point. -/
structure Numeral where
  negative : Bool
  whole : List Nat
  fraction : List Nat
  exponent : Option Int
deriving DecidableEq

namespace Numeral

/-- Whether the number is written without a point and without an exponent. -/
def isInteger (n : Numeral) : Bool := n.fraction.isEmpty && n.exponent.isNone

/-- The decimal digits of a number, most significant first. -/
def digitsOf (n : Nat) : List Nat := (Nat.toDigits 10 n).map fun c => c.toNat - 48

/-- The number with the given decimal digits. -/
def ofDigits (digits : List Nat) : Nat := digits.foldl (fun n d => 10 * n + d) 0

/-- An integer, written without a point. -/
def ofInt (n : Int) : Numeral := ⟨n < 0, digitsOf n.natAbs, [], none⟩

end Numeral

/-- A JSON value. -/
inductive Json
  | null
  | bool (b : Bool)
  | number (n : Numeral)
  | string (text : Option String)
  | array (elements : List Json)
  | object (members : List (Option String × Json))

namespace Json

/-- A string that is a text. -/
def text (s : String) : Json := .string (some s)

/-- An object with named members. -/
def record (fields : List (String × Json)) : Json :=
  .object (fields.map fun field => (some field.1, field.2))

/-- An object with one member. -/
def tagged (name : String) (j : Json) : Json := record [(name, j)]

end Json

end CanvasTransform
