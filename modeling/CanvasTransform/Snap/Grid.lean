import CanvasTransform.Snap.Axis

set_option autoImplicit false

/-! # Rounding to a grid and to angle steps -/

namespace CanvasTransform.Snap

variable {α : Type} [Scalar α]

/-- The nearest multiple of `step`; a half goes away from zero. -/
def roundTo (value step : α) : α := Scalar.round (value / step) * step

/-- The nearest point of a grid, on the enabled axes. A grid of no size leaves the point alone. -/
def toGrid (p : Point α) (size : α) (axes : Axes) : Point α :=
  if size ≤ 0 then p
  else ⟨if axes.x then roundTo p.x size else p.x, if axes.y then roundTo p.y size else p.y⟩

/-- The nearest multiple of an increment, both in degrees, as an angle in a full turn. -/
def toIncrement (degrees increment : α) : α := Scalar.remEuclid (roundTo degrees increment) 360.0

end CanvasTransform.Snap
