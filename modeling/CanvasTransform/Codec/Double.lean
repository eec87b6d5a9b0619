import CanvasTransform.Binary64
import CanvasTransform.Codec.Basic
import CanvasTransform.Decimal.Shortest

set_option autoImplicit false

/-! # Double-precision numbers as JSON

A finite number is written with the fewest digits that read back: in positional notation with a point
up to sixteen places before it and five zeros after it, and with an exponent beyond. A value that is
not finite has no JSON number and is written as `null`.

Reading keeps as many digits as a 64-bit significand holds, and scales it once by a power of ten. A
value too large for the format has no answer; one too small becomes zero. -/

namespace CanvasTransform.Binary64

/-! ## Writing -/

/-- Lay out `digits` so that the point stands after `point` of them. -/
def layOut (negative : Bool) (digits : List Nat) (point : Int) : Numeral :=
  let count : Int := digits.length
  if count ≤ point ∧ point ≤ 16 then
    ⟨negative, digits ++ List.replicate (point - count).toNat 0, [0], none⟩
  else if 0 < point ∧ point ≤ 16 then
    ⟨negative, digits.take point.toNat, digits.drop point.toNat, none⟩
  else if -5 < point ∧ point ≤ 0 then
    ⟨negative, [0], List.replicate (-point).toNat 0 ++ digits, none⟩
  else ⟨negative, digits.take 1, digits.drop 1, some (point - 1)⟩

/-- The written form of a finite number. -/
def toNumeral (x : Binary64) : Numeral :=
  let (m, e) := x.parts
  if m = 0 then ⟨x.isNegative, [0], [0], none⟩
  else
    let d := Decimal.shortest ⟨m, e, m == 1 <<< 52 && decide (-1074 < e)⟩
    let digits := Numeral.digitsOf d.digits
    layOut x.isNegative digits (digits.length + d.exponent)

/-! ## Reading -/

/-- The digits of a significand that fit 64 bits, as a number, and how many more there are. -/
def takeWhole (n : Nat) : List Nat → Nat × Nat
  | [] => (n, 0)
  | d :: rest =>
    if 10 * n + d < 2 ^ 64 then takeWhole (10 * n + d) rest else (n, rest.length + 1)

/-- Go on with the digits after the point as long as they fit, and count them. -/
def takeFraction (n count : Nat) : List Nat → Nat × Nat
  | [] => (n, count)
  | d :: rest =>
    if 10 * n + d < 2 ^ 64 then takeFraction (10 * n + d) (count + 1) rest else (n, count)

def powerOfTen (n : Nat) : Float := Float.ofScientific 1 false n

/-- Divide by `10 ^ k` in steps that stay within the range of the format, at most `n` of them. -/
def scaleDown : Nat → Float → Nat → Float
  | 0, x, _ => x
  | n + 1, x, k =>
    if k ≤ 308 then x / powerOfTen k
    else if x == 0 then x
    else scaleDown n (x / powerOfTen 308) (k - 308)

/-- The number `x * 10 ^ e`, unless it is too large. -/
def scale? (x : Float) (e : Int) : Option Float :=
  if e < 0 then some (scaleDown 4 x e.natAbs)
  else if e ≤ 308 then
    let y := x * powerOfTen e.toNat
    if y.isInf then none else some y
  else if x == 0 then some x
  else none

/-- The greatest exponent that is read as such; one beyond it is as good as infinite. -/
def maxExponent : Nat := 0x7FFFFFFF

/-- The value of a written number. -/
def ofNumeral? (n : Numeral) : Option Binary64 := do
  let (whole, more) := takeWhole 0 n.whole
  let (significand, places) := takeFraction whole 0 n.fraction
  let exponent := n.exponent.getD 0
  let magnitude ←
    if exponent.natAbs ≤ maxExponent then
      scale? (Float.ofNat significand) ((more : Int) - places + exponent)
    else if significand ≠ 0 ∧ 0 < exponent then none
    else some 0
  return ofFloat (if n.negative then -magnitude else magnitude)

instance : Codec Binary64 where
  toJson x := if x.isFinite then .number x.toNumeral else .null
  ofJson?
    | .number n => ofNumeral? n
    | _ => none

end CanvasTransform.Binary64
