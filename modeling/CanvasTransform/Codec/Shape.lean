import CanvasTransform.Codec.Geometry
import CanvasTransform.Shape.Patch
import CanvasTransform.Text.Uuid

set_option autoImplicit false

/-! # Shapes and patches as JSON

A shape is written with all its fields, a patch with its identity and the fields that are set. -/

namespace CanvasTransform

instance : Codec ShapeId where
  toJson id := .text (Uuid.format id)
  ofJson?
    | .string (some s) => Uuid.parse? s
    | _ => none

namespace Kind

def all : List Kind := [rectangle, ellipse, frame, text, note, image, line, group]

def name : Kind → String
  | rectangle => "Rectangle"
  | ellipse => "Ellipse"
  | frame => "Frame"
  | text => "Text"
  | note => "Note"
  | image => "Image"
  | line => "Line"
  | group => "Group"

end Kind

instance : Codec Kind where
  toJson k := .text k.name
  ofJson? := Json.named? Kind.all Kind.name

instance : Codec Parent where
  toJson
    | .page => .text "Page"
    | .shape id => .tagged "Shape" (toJson id)
  ofJson? j :=
    if j.name? == some "Page" then some .page
    else
      match j.variant? with
      | some ("Shape", id) => (ofJson? id).map .shape
      | _ => none

variable {α : Type} [Codec α]

instance : Codec (Form α) where
  toJson
    | .box w h => .tagged "Geo" (.record [("w", toJson w), ("h", toJson h)])
    | .image w h flipX flipY =>
      .tagged "Image" (.record [("w", toJson w), ("h", toJson h), ("flip_x", toJson flipX),
        ("flip_y", toJson flipY)])
    | .line points => .tagged "Line" (.record [("points", toJson points)])
    | .group => .text "Group"
  ofJson? j :=
    if j.name? == some "Group" then some .group
    else
      match j.variant? with
      | some ("Geo", fields) => do
        let [w, h] ← fields.slots? ["w", "h"] | none
        return .box (← w.required?) (← h.required?)
      | some ("Image", fields) => do
        let [w, h, flipX, flipY] ← fields.slots? ["w", "h", "flip_x", "flip_y"] | none
        return .image (← w.required?) (← h.required?) (← flipX.withDefault? false)
          (← flipY.withDefault? false)
      | some ("Line", fields) => do
        let [points] ← fields.slots? ["points"] | none
        return .line (← points.required?)
      | _ => none

instance : Codec (Shape α) where
  toJson s :=
    .record [("id", toJson s.id), ("kind", toJson s.kind), ("parent", toJson s.parent),
      ("index", toJson s.index), ("x", toJson s.x), ("y", toJson s.y),
      ("rotation", toJson s.rotation), ("props", toJson s.form)]
  ofJson? j := do
    let [id, kind, parent, index, x, y, rotation, form] ←
      j.slots? ["id", "kind", "parent", "index", "x", "y", "rotation", "props"] | none
    return {
      id := ← id.required?
      kind := ← kind.required?
      parent := ← parent.required?
      index := ← index.required?
      x := ← x.required?
      y := ← y.required?
      rotation := ← rotation.required?
      form := ← form.required? }

/-- The member for a field, if it is set. -/
def optionalMember {β : Type} [Codec β] (name : String) (value : Option β) :
    List (String × Json) :=
  match value with
  | some b => [(name, toJson b)]
  | none => []

instance : Codec (Patch α) where
  toJson p :=
    .record ([("id", toJson p.id)] ++ optionalMember "x" p.x ++ optionalMember "y" p.y ++
      optionalMember "rotation" p.rotation ++ optionalMember "props" p.form)
  ofJson? j := do
    let [id, x, y, rotation, form] ← j.slots? ["id", "x", "y", "rotation", "props"] | none
    return {
      id := ← id.required?
      x := ← x.optional?
      y := ← y.optional?
      rotation := ← rotation.optional?
      form := ← form.optional? }

end CanvasTransform
