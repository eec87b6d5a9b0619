import CanvasTransform.Scalar

set_option autoImplicit false

/-! # Points and displacements

A `Point` is a place in some frame; a `Vec` is a displacement in it. The difference of two points is
a displacement and a point moved by a displacement is a point, so the two cannot be mixed up. -/

namespace CanvasTransform

/-- A displacement in the plane. -/
structure Vec (α : Type) where
  x : α
  y : α
deriving BEq, DecidableEq

/-- A place in the plane. -/
structure Point (α : Type) where
  x : α
  y : α
deriving BEq, DecidableEq

variable {α : Type} [Scalar α]

/-! ## Displacements -/

namespace Vec

/-- No displacement. -/
def zero : Vec α := ⟨0, 0⟩

instance : Add (Vec α) := ⟨fun v w => ⟨v.x + w.x, v.y + w.y⟩⟩
instance : Neg (Vec α) := ⟨fun v => ⟨-v.x, -v.y⟩⟩

@[simp] theorem add_x (v w : Vec α) : (v + w).x = v.x + w.x := rfl
@[simp] theorem add_y (v w : Vec α) : (v + w).y = v.y + w.y := rfl
@[simp] theorem neg_x (v : Vec α) : (-v).x = -v.x := rfl
@[simp] theorem neg_y (v : Vec α) : (-v).y = -v.y := rfl

/-- The displacement `k` times as long. -/
def scale (v : Vec α) (k : α) : Vec α := ⟨v.x * k, v.y * k⟩

/-- The scalar product. -/
def dot (v w : Vec α) : α := v.x * w.x + v.y * w.y

/-- The length. -/
def length (v : Vec α) : α := Scalar.sqrt (v.dot v)

/-- The direction, as an angle in `[-π, π]`. -/
def direction (v : Vec α) : α := Scalar.atan2 v.y v.x

/-- The displacement turned by `angle`. -/
def rotate (v : Vec α) (angle : α) : Vec α :=
  let s := Scalar.sin angle
  let c := Scalar.cos angle
  ⟨v.x * c - v.y * s, v.x * s + v.y * c⟩

/-- Give both components the larger of the two magnitudes, each with its own sign. -/
def equalize (v : Vec α) : Vec α :=
  let magnitude := Scalar.max (Scalar.abs v.x) (Scalar.abs v.y)
  ⟨Scalar.copysign magnitude v.x, Scalar.copysign magnitude v.y⟩

end Vec

/-! ## Points -/

namespace Point

/-- The origin of the frame. -/
def origin : Point α := ⟨0, 0⟩

instance : HSub (Point α) (Point α) (Vec α) := ⟨fun p q => ⟨p.x - q.x, p.y - q.y⟩⟩
instance : HAdd (Point α) (Vec α) (Point α) := ⟨fun p v => ⟨p.x + v.x, p.y + v.y⟩⟩

@[simp] theorem sub_x (p q : Point α) : (p - q).x = p.x - q.x := rfl
@[simp] theorem sub_y (p q : Point α) : (p - q).y = p.y - q.y := rfl
@[simp] theorem add_x (p : Point α) (v : Vec α) : (p + v).x = p.x + v.x := rfl
@[simp] theorem add_y (p : Point α) (v : Vec α) : (p + v).y = p.y + v.y := rfl

/-- The displacement from the origin to the point. -/
def toVec (p : Point α) : Vec α := ⟨p.x, p.y⟩

/-- The distance between two points. -/
def distance (p q : Point α) : α := (p - q).length

end Point

end CanvasTransform
