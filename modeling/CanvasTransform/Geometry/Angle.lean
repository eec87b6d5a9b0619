import CanvasTransform.Scalar

set_option autoImplicit false

/-! # Angles

Angles are in radians. `Angle.normalize` picks the representative in `[0, 2π)`, and `Angle.delta` is
the shortest turn from one angle to another. -/

namespace CanvasTransform.Angle

variable {α : Type} [Scalar α]

/-- The same direction, as an angle in `[0, 2π)`. The remainder of a tiny negative angle may round
    up to a whole turn, which is no turn. -/
def normalize (angle : α) : α :=
  let r := Scalar.remEuclid angle Scalar.tau
  if Scalar.tau ≤ r then 0 else r

/-- The shortest turn that leads from `b` to `a`, in `(-π, π]`. -/
def delta (a b : α) : α :=
  let d := normalize (a - b)
  if Scalar.pi < d then d - Scalar.tau else d

/-- Whether two angles point the same way. -/
def same (a b : α) : Bool := Scalar.abs (delta a b) ≤ Scalar.angleTolerance

/-- Whether an angle is a whole number of quarter turns. -/
def isQuarterTurn (angle : α) : Bool :=
  let r := Scalar.remEuclid angle Scalar.quarterTurn
  r ≤ Scalar.angleTolerance || Scalar.quarterTurn - r ≤ Scalar.angleTolerance

end CanvasTransform.Angle
