import CanvasTransform.Geometry.Rect

set_option autoImplicit false

/-! # Shapes

A shape is a record in a document: what kind it is, where it hangs in the tree of shapes, where it
lies relative to its parent, and its own geometry (`Form`).

Kind and form are independent. The kind selects how the shape behaves, and a form that does not fit
the kind is read as far as it goes: a form without a size counts as a box of no size. -/

namespace CanvasTransform

/-- The identity of a shape: a 128-bit number. -/
abbrev ShapeId := BitVec 128

/-- What a shape is. The kind selects the shape's behaviour. -/
inductive Kind
  | rectangle | ellipse | frame | text | note | image | line | group
deriving DecidableEq

/-- What a shape hangs from. -/
inductive Parent
  | page
  | shape (id : ShapeId)
deriving DecidableEq

namespace Parent

/-- The parent shape, unless the shape lies on the page itself. -/
def shapeId? : Parent → Option ShapeId
  | page => none
  | shape id => some id

end Parent

/-! ## Forms -/

/-- The geometry of a shape in its own frame. -/
inductive Form (α : Type)
  /-- A box anchored at the shape's origin. -/
  | box (w h : α)
  /-- A box that remembers along which axes its content is mirrored. -/
  | image (w h : α) (flipX flipY : Bool)
  /-- A polyline. -/
  | line (points : List (Point α))
  /-- No geometry of its own: the bounds come from the children. -/
  | group
deriving DecidableEq

namespace Form

variable {α : Type}

/-- Width and height of a form that is a box. -/
def size? : Form α → Option (α × α)
  | box w h => some (w, h)
  | image w h _ _ => some (w, h)
  | line _ => none
  | group => none

/-- The vertices of a polyline, and none for any other form. -/
def points : Form α → List (Point α)
  | line points => points
  | _ => []

variable [Scalar α]

/-- Width and height, zero for a form without a size. -/
def extent (f : Form α) : Vec α :=
  match f.size? with
  | some (w, h) => ⟨w, h⟩
  | none => Vec.zero

/-- Whether all numbers of the form are finite. -/
def isFinite : Form α → Bool
  | box w h => Scalar.isFinite w && Scalar.isFinite h
  | image w h _ _ => Scalar.isFinite w && Scalar.isFinite h
  | line points => points.all fun p => Scalar.isFinite p.x && Scalar.isFinite p.y
  | group => true

end Form

/-! ## Shapes -/

/-- A shape as the document keeps it. -/
structure Shape (α : Type) where
  id : ShapeId
  kind : Kind
  parent : Parent
  /-- Place among the siblings; lower is further back. -/
  index : Int64
  /-- Position relative to the parent. -/
  x : α
  y : α
  /-- Rotation relative to the parent, in radians. -/
  rotation : α
  form : Form α
deriving DecidableEq

namespace Shape

variable {α : Type}

/-- The shape under another parent, its position relative to it unchanged. -/
def withParent (s : Shape α) (parent : Parent) : Shape α := { s with parent }

def withIndex (s : Shape α) (index : Int64) : Shape α := { s with index }

variable [Scalar α]

/-- A shape lying on the page, not rotated. -/
def onPage (id : ShapeId) (kind : Kind) (x y : α) (form : Form α) : Shape α :=
  { id, kind, parent := .page, index := 0, x, y, rotation := 0, form }

def rectangle (id : ShapeId) (x y w h : α) : Shape α := onPage id .rectangle x y (.box w h)

/-- An ellipse inscribed in the given box. -/
def ellipse (id : ShapeId) (x y w h : α) : Shape α := onPage id .ellipse x y (.box w h)

def frame (id : ShapeId) (x y w h : α) : Shape α := onPage id .frame x y (.box w h)

def note (id : ShapeId) (x y w h : α) : Shape α := onPage id .note x y (.box w h)

def text (id : ShapeId) (x y w h : α) : Shape α := onPage id .text x y (.box w h)

/-- An image whose content is not mirrored. -/
def image (id : ShapeId) (x y w h : α) : Shape α := onPage id .image x y (.image w h false false)

/-- A polyline with vertices relative to `(x, y)`. -/
def line (id : ShapeId) (x y : α) (points : List (Point α)) : Shape α :=
  onPage id .line x y (.line points)

/-- A group without children. -/
def group (id : ShapeId) (x y : α) : Shape α := onPage id .group x y .group

/-- The shape turned to `rotation`, brought into `[0, 2π)`. -/
def withRotation (s : Shape α) (rotation : α) : Shape α :=
  { s with rotation := Angle.normalize rotation }

/-- The map from the shape's frame into its parent's frame. -/
def localTransform (s : Shape α) : Affine α := Affine.placement s.x s.y s.rotation

/-- Width and height of the shape's form, zero for a form without a size. -/
def extent (s : Shape α) : Vec α := s.form.extent

end Shape

end CanvasTransform
