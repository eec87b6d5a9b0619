import CanvasTransform.Scalar

set_option autoImplicit false

/-! # Double-precision numbers

The 64-bit binary format that the engine runs on: its bits, arithmetic on them, reading a number as
an exact integer multiple of a power of two, the exact remainder, the order of the bit patterns, and
the `Scalar` instance.

A value that is not a number still has a sign bit, and the engine shows it: coordinates are sorted
by their bit patterns, and a factor lends its sign to a magnitude. A value is therefore held by its
bits, and the sign follows three rules. An operation on a value that is not a number answers with
that value, the first one where there are two. An operation on numbers that has no number for an
answer yields `undefined`, whose sign bit is set. Negation, magnitude and the lending of signs touch
the sign bit alone, whatever the value.

`parts` is the exact value; everything that must not lose a bit goes through it. -/

namespace CanvasTransform

/-- A double-precision number, given by its bits: the sign, eleven bits of exponent and fifty-two of
    fraction. -/
structure Binary64 where
  bits : UInt64
deriving DecidableEq

namespace Binary64

/-! ## Bits -/

/-- The bit that holds the sign. -/
def signBit : UInt64 := 0x8000000000000000

/-- The bits without the sign. On numbers they are ordered as the magnitudes are. -/
def magnitudeBits (x : Binary64) : UInt64 := x.bits &&& ~~~signBit

def infinity : Binary64 := ⟨0x7ff0000000000000⟩

/-- The answer of an operation on numbers that has no number for an answer. -/
def undefined : Binary64 := ⟨0xfff8000000000000⟩

/-- Whether the sign bit is set. -/
def isNegative (x : Binary64) : Bool := x.bits &&& signBit != 0

/-- Whether the value is not a number. -/
def isNaN (x : Binary64) : Bool := infinity.bits < x.magnitudeBits

def isInfinite (x : Binary64) : Bool := x.magnitudeBits == infinity.bits

/-- Whether the value is a number other than an infinity. -/
def isFinite (x : Binary64) : Bool := x.magnitudeBits < infinity.bits

/-- Whether the value is zero, of either sign. -/
def isZero (x : Binary64) : Bool := x.magnitudeBits == 0

/-- The value with its sign bit turned over. -/
def negate (x : Binary64) : Binary64 := ⟨x.bits ^^^ signBit⟩

/-- The value with its sign bit cleared. -/
def abs (x : Binary64) : Binary64 := ⟨x.magnitudeBits⟩

/-- The value with the magnitude of `a` and the sign bit of `b`. -/
def withSignOf (a b : Binary64) : Binary64 := ⟨a.magnitudeBits ||| (b.bits &&& signBit)⟩

/-- The form in which a value that is not a number leaves an operation: the first bit of its fraction
    is set. -/
def quiet (x : Binary64) : Binary64 := ⟨x.bits ||| 0x0008000000000000⟩

/-- The integer `m` and the exponent `e` with `|x| = m * 2 ^ e`, for a finite `x`. -/
def parts (x : Binary64) : Nat × Int :=
  let bits := x.bits.toNat
  let fraction : Nat := bits % (1 <<< 52)
  let exponent : Nat := bits / (1 <<< 52) % (1 <<< 11)
  if exponent = 0 then (fraction, -1074) else ((1 <<< 52) + fraction, (exponent : Int) - 1075)

/-- The position of a value in the order of the bit patterns: negative values by falling magnitude,
    then positive values by rising magnitude, and values that are not numbers at the ends. -/
def orderKey (x : Binary64) : Int :=
  let bits := (x.bits.toNat : Int)
  if x.isNegative then 0x7FFFFFFFFFFFFFFF - bits else bits

/-! ## Arithmetic -/

def toFloat (x : Binary64) : Float := Float.ofBits x.bits

/-- What an operation on numbers answers. -/
def ofFloat (x : Float) : Binary64 := if x.isNaN then undefined else ⟨x.toBits⟩

/-- An operation on one value, from one on numbers. -/
def unary (f : Float → Float) (a : Binary64) : Binary64 :=
  if a.isNaN then a.quiet else ofFloat (f a.toFloat)

/-- An operation on two values that is given for numbers. -/
def onNumbers (f : Binary64 → Binary64 → Binary64) (a b : Binary64) : Binary64 :=
  if a.isNaN then a.quiet else if b.isNaN then b.quiet else f a b

/-- An operation on two values, from one on numbers. -/
def binary (f : Float → Float → Float) : Binary64 → Binary64 → Binary64 :=
  onNumbers fun a b => ofFloat (f a.toFloat b.toFloat)

instance : Add Binary64 := ⟨binary (· + ·)⟩
instance : Sub Binary64 := ⟨binary (· - ·)⟩
instance : Mul Binary64 := ⟨binary (· * ·)⟩
instance : Div Binary64 := ⟨binary (· / ·)⟩
instance : Neg Binary64 := ⟨negate⟩
instance : LT Binary64 := ⟨fun a b => a.toFloat < b.toFloat⟩
instance : LE Binary64 := ⟨fun a b => a.toFloat ≤ b.toFloat⟩
/-- Equality of numbers: both zeros are equal, and a value that is not a number equals none. -/
instance : BEq Binary64 := ⟨fun a b => a.toFloat == b.toFloat⟩
instance : OfScientific Binary64 := ⟨fun m negative e => ofFloat (.ofScientific m negative e)⟩
instance : Zero Binary64 := ⟨⟨0⟩⟩
instance : One Binary64 := ⟨1.0⟩

instance (a b : Binary64) : Decidable (a < b) := inferInstanceAs (Decidable (a.toFloat < b.toFloat))
instance (a b : Binary64) : Decidable (a ≤ b) := inferInstanceAs (Decidable (a.toFloat ≤ b.toFloat))

/-- The remainder of the division of `a` by `b` rounded toward zero, computed exactly. It has the
    sign of `a`. -/
def remainder : Binary64 → Binary64 → Binary64 :=
  onNumbers fun a b =>
    if a.isInfinite || b.isZero then undefined
    else if b.isInfinite then a
    else
      let (m, e) := a.parts
      let (n, f) := b.parts
      let base := min e f
      let r := m <<< (e - base).toNat % n <<< (f - base).toNat
      withSignOf (ofFloat (Float.scaleB (Float.ofNat r) base)) a

/-- The remainder of `a` by `b` that is not negative. Rounding may lift it to `|b|` itself. -/
def remEuclid (a b : Binary64) : Binary64 :=
  let r := remainder a b
  if r < 0 then r + b.abs else r

instance : Scalar Binary64 where
  decLt := inferInstance
  decLe := inferInstance
  abs := abs
  copysign := withSignOf
  sqrt := unary Float.sqrt
  sin := unary Float.sin
  cos := unary Float.cos
  atan2 y x := binary (fun x y => Float.atan2 y x) x y
  round := unary Float.round
  remEuclid := remEuclid
  pi := 3.141592653589793
  isFinite := isFinite
  totalLe a b := orderKey a ≤ orderKey b

end Binary64

end CanvasTransform
