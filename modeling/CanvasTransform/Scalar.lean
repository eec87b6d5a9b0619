set_option autoImplicit false

/-! # Scalars

Coordinates, lengths, angles and scale factors are all *scalars*. The engine is written once over
any type with the operations collected in `Scalar`, so that one definition has two readings: run on
double-precision numbers it is the program, and read over the real numbers it is the geometry that
the program approximates.

The class holds operations only and no laws. A law that double precision breaks (associativity,
`x - x = 0` at infinity) can therefore never slip into a definition, and each statement about the
engine says which reading it is about.

Comparisons are spelled the way they are evaluated. In the presence of a value that is not a number
`¬ a ≤ b` and `b < a` differ, and the engine depends on which of the two is asked. -/

namespace CanvasTransform

/-- The arithmetic the engine computes with. -/
class Scalar (α : Type) extends Zero α, One α, Add α, Sub α, Mul α, Div α, Neg α, LT α, LE α,
    BEq α, OfScientific α where
  decLt : ∀ a b : α, Decidable (a < b)
  decLe : ∀ a b : α, Decidable (a ≤ b)
  /-- The magnitude. -/
  abs : α → α
  /-- The magnitude of the first value with the sign of the second. -/
  copysign : α → α → α
  sqrt : α → α
  sin : α → α
  cos : α → α
  /-- The angle of the direction `(x, y)`, given `y` first, in `[-π, π]`. -/
  atan2 : α → α → α
  /-- The nearest integer; a half goes away from zero. -/
  round : α → α
  /-- The remainder of the first value by the second that is not negative. -/
  remEuclid : α → α → α
  pi : α
  /-- Whether the value is a number other than an infinity. -/
  isFinite : α → Bool
  /-- A total order used for sorting. It agrees with `≤` on numbers and places all other values. -/
  totalLe : α → α → Bool

namespace Scalar

attribute [reducible, instance] decLt decLe

variable {α : Type} [Scalar α]

/-- The larger of two values, and the second of two equal ones: of two zeros, the sign of the second
    counts. A value that is not a number, which `b ≤ b` tells, gives way to the other; of two such
    values the first stays. -/
def max (a b : α) : α := if b < a then a else if b ≤ b then b else a

/-- The smaller of two values. Equal values and values that are not numbers are treated as by `max`. -/
def min (a b : α) : α := if a < b then a else if b ≤ b then b else a

/-- Bring `a` into the range from `lo` to `hi`, for an ordered range. A range that is not ordered
    has no answer. -/
def clamp? (a lo hi : α) : Option α :=
  if lo ≤ hi then
    let raised := if a < lo then lo else a
    some (if hi < raised then hi else raised)
  else none

/-- A full turn in radians. -/
def tau : α := 2.0 * pi

/-- A quarter turn in radians. -/
def quarterTurn : α := pi / 2.0

/-- An angle given in radians, in degrees. -/
def toDegrees (a : α) : α := a * (180.0 / pi)

/-- An angle given in degrees, in radians. -/
def toRadians (a : α) : α := a * (pi / 180.0)

/-- The distance from one to the next double-precision number, `2 ^ (-52)`, below which a change of zoom
    or a determinant counts as nothing. -/
def epsilon : α := 2.220446049250313080847263336181640625e-16

/-- Tolerance for comparing angles, in radians. -/
def angleTolerance : α := 1e-6

/-- Tolerance for comparing coordinates. -/
def coordTolerance : α := 1e-6

/-- Whether two values differ by at most `tolerance`. -/
def near (a b tolerance : α) : Bool := abs (a - b) ≤ tolerance

/-- Whether the closed ranges from `a₀` to `a₁` and from `b₀` to `b₁` meet. -/
def rangesMeet (a₀ a₁ b₀ b₁ : α) : Bool := a₀ ≤ b₁ && b₀ ≤ a₁

end Scalar

end CanvasTransform
