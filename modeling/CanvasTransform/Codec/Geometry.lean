import CanvasTransform.Camera
import CanvasTransform.Codec.Basic

set_option autoImplicit false

/-! # Geometry as JSON -/

namespace CanvasTransform

variable {α : Type} [Codec α]

instance : Codec (Point α) where
  toJson p := .record [("x", toJson p.x), ("y", toJson p.y)]
  ofJson? j := do
    let [x, y] ← j.slots? ["x", "y"] | none
    return ⟨← x.required?, ← y.required?⟩

instance : Codec (Vec α) where
  toJson v := .record [("x", toJson v.x), ("y", toJson v.y)]
  ofJson? j := do
    let [x, y] ← j.slots? ["x", "y"] | none
    return ⟨← x.required?, ← y.required?⟩

instance : Codec (Rect α) where
  toJson r :=
    .record [("x0", toJson r.x0), ("y0", toJson r.y0), ("x1", toJson r.x1), ("y1", toJson r.y1)]
  ofJson? j := do
    let [x0, y0, x1, y1] ← j.slots? ["x0", "y0", "x1", "y1"] | none
    return ⟨← x0.required?, ← y0.required?, ← x1.required?, ← y1.required?⟩

instance : Codec (Size α) where
  toJson s := .record [("width", toJson s.width), ("height", toJson s.height)]
  ofJson? j := do
    let [width, height] ← j.slots? ["width", "height"] | none
    return ⟨← width.required?, ← height.required?⟩

instance : Codec (Camera α) where
  toJson c :=
    .record [("offset", toJson c.offset), ("zoom", toJson c.zoom),
      ("min_zoom", toJson c.minZoom), ("max_zoom", toJson c.maxZoom),
      ("viewport", toJson c.viewport)]
  ofJson? j := do
    let [offset, zoom, minZoom, maxZoom, viewport] ←
      j.slots? ["offset", "zoom", "min_zoom", "max_zoom", "viewport"] | none
    return {
      offset := ← offset.required?
      zoom := ← zoom.required?
      minZoom := ← minZoom.required?
      maxZoom := ← maxZoom.required?
      viewport := ← viewport.required? }

end CanvasTransform
