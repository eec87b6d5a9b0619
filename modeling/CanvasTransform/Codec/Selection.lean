import CanvasTransform.Codec.Shape
import CanvasTransform.Selection.Bounds
import CanvasTransform.Selection.Cursor
import CanvasTransform.Snap.Candidate
import CanvasTransform.Snap.Line

set_option autoImplicit false

/-! # Selections and snapping as JSON -/

namespace CanvasTransform

namespace Corner

def all : List Corner := [topLeft, topRight, bottomLeft, bottomRight]

def name : Corner → String
  | topLeft => "TopLeft"
  | topRight => "TopRight"
  | bottomLeft => "BottomLeft"
  | bottomRight => "BottomRight"

end Corner

namespace Edge

def all : List Edge := [top, right, bottom, left]

def name : Edge → String
  | top => "Top"
  | right => "Right"
  | bottom => "Bottom"
  | left => "Left"

end Edge

instance : Codec Corner where
  toJson c := .text c.name
  ofJson? := Json.named? Corner.all Corner.name

instance : Codec Edge where
  toJson e := .text e.name
  ofJson? := Json.named? Edge.all Edge.name

instance : Codec Handle where
  toJson
    | .corner c => .tagged "Corner" (toJson c)
    | .edge e => .tagged "Edge" (toJson e)
    | .rotate => .text "Rotate"
  ofJson? j :=
    if j.name? == some "Rotate" then some .rotate
    else
      match j.variant? with
      | some ("Corner", c) => (ofJson? c).map .corner
      | some ("Edge", e) => (ofJson? e).map .edge
      | _ => none

namespace CursorKind

def all : List CursorKind :=
  [default, resizeNwse, resizeNesw, resizeEw, resizeNs, rotate, move]

def name : CursorKind → String
  | default => "Default"
  | resizeNwse => "NwseResize"
  | resizeNesw => "NeswResize"
  | resizeEw => "EwResize"
  | resizeNs => "NsResize"
  | rotate => "Rotate"
  | move => "Move"

end CursorKind

instance : Codec CursorKind where
  toJson k := .text k.name
  ofJson? := Json.named? CursorKind.all CursorKind.name

namespace GapDirection

def all : List GapDirection := [horizontal, vertical]

def name : GapDirection → String
  | horizontal => "Horizontal"
  | vertical => "Vertical"

end GapDirection

instance : Codec GapDirection where
  toJson d := .text d.name
  ofJson? := Json.named? GapDirection.all GapDirection.name

variable {α : Type} [Codec α]

instance : Codec (OrientedBox α) where
  toJson b := .record [("rect", toJson b.rect), ("rotation", toJson b.rotation)]
  ofJson? j := do
    let [rect, rotation] ← j.slots? ["rect", "rotation"] | none
    return ⟨← rect.required?, ← rotation.required?⟩

instance : Codec (Cursor α) where
  toJson c := .record [("kind", toJson c.kind), ("rotation", toJson c.rotation)]
  ofJson? j := do
    let [kind, rotation] ← j.slots? ["kind", "rotation"] | none
    return ⟨← kind.required?, ← rotation.required?⟩

instance : Codec (GapIndicator α) where
  toJson g := .record [("start_edge", toJson g.startEdge), ("end_edge", toJson g.endEdge)]
  ofJson? j := do
    let [startEdge, endEdge] ← j.slots? ["start_edge", "end_edge"] | none
    return ⟨← startEdge.required?, ← endEdge.required?⟩

instance : Codec (SnapLine α) where
  toJson
    | .points points => .tagged "Points" (.record [("points", toJson points)])
    | .gaps direction gaps =>
      .tagged "Gaps" (.record [("direction", toJson direction), ("gaps", toJson gaps)])
  ofJson? j :=
    match j.variant? with
    | some ("Points", fields) => do
      let [points] ← fields.slots? ["points"] | none
      return .points (← points.required?)
    | some ("Gaps", fields) => do
      let [direction, gaps] ← fields.slots? ["direction", "gaps"] | none
      return .gaps (← direction.required?) (← gaps.required?)
    | _ => none

instance : Codec (Candidate α) where
  toJson c :=
    .record [("id", toJson c.id), ("bounds", toJson c.bounds), ("points", toJson c.points)]
  ofJson? j := do
    let [id, bounds, points] ← j.slots? ["id", "bounds", "points"] | none
    return ⟨← id.required?, ← bounds.required?, ← points.required?⟩

end CanvasTransform
