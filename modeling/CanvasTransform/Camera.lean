import CanvasTransform.Geometry.Rect

set_option autoImplicit false

/-! # Camera

The camera maps page coordinates to screen pixels by a zoom and an offset. Distances that should
look the same at every zoom are given in pixels and brought to the page by `screenDistance`. -/

namespace CanvasTransform

/-- Width and height of something that is anchored elsewhere. -/
structure Size (α : Type) where
  width : α
  height : α
deriving BEq, DecidableEq

/-- Pan and zoom of the canvas, and the size of the viewport in pixels. -/
structure Camera (α : Type) where
  /-- Screen position of the page origin. -/
  offset : Vec α
  /-- Pixels per page unit. -/
  zoom : α
  minZoom : α
  maxZoom : α
  viewport : Size α
deriving BEq, DecidableEq

namespace Camera

variable {α : Type} [Scalar α]

/-- The camera of a fresh canvas. -/
def initial : Camera α :=
  { offset := Vec.zero, zoom := 1, minZoom := 0.1, maxZoom := 10.0,
    viewport := ⟨1280.0, 800.0⟩ }

/-! ## Between page and screen -/

/-- The map from the page to the screen. -/
def transform (c : Camera α) : Affine α := Affine.translate c.offset * Affine.scale c.zoom c.zoom

/-- The map from the screen to the page. -/
def inverseTransform (c : Camera α) : Affine α :=
  Affine.scale (1 / c.zoom) (1 / c.zoom) * Affine.translate (-c.offset)

def screenToPage (c : Camera α) (p : Point α) : Point α := c.inverseTransform.apply p

def pageToScreen (c : Camera α) (p : Point α) : Point α := c.transform.apply p

/-- A distance in pixels, in page units. -/
def screenDistance (c : Camera α) (pixels : α) : α := pixels / c.zoom

/-- The part of the page that is visible. -/
def viewportBounds (c : Camera α) : Rect α :=
  Rect.ofPoints (c.screenToPage Point.origin)
    (c.screenToPage ⟨c.viewport.width, c.viewport.height⟩)

/-! ## Moving the camera -/

/-- Move the page by a displacement in pixels. -/
def pan (c : Camera α) (delta : Vec α) : Camera α := { c with offset := c.offset + delta }

/-- Zoom by `factor` within the camera's range, keeping the page point under `anchor` in place. A
    change too small to matter does nothing. There is no answer when the range is not ordered. -/
def zoomAt? (c : Camera α) (anchor : Point α) (factor : α) : Option (Camera α) :=
  (Scalar.clamp? (c.zoom * factor) c.minZoom c.maxZoom).map fun zoom =>
    if Scalar.abs (zoom - c.zoom) < Scalar.epsilon then c
    else
      let page := c.screenToPage anchor
      let zoomed := { c with zoom := zoom }
      zoomed.pan (anchor - zoomed.pageToScreen page)

end Camera

end CanvasTransform
