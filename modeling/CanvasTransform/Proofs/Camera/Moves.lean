import CanvasTransform.Proofs.Geometry.Spans
import CanvasTransform.Camera

set_option autoImplicit false

/-! # Moving the camera

A user pans and zooms in any order and by any amounts. Whatever they do, every step has an answer and
leaves the zoom within the camera's range (`Camera.Follows`), so that it is never zero and the maps
between the page and the screen undo each other. The visible part of the page is then what the viewport
shows (`Camera.contains_viewportBounds_iff`).

A zoom keeps the page point under its anchor, also where the range cuts it short or where it is too
small to be made (`Camera.Follows.zoomAt?`). The offset is corrected at the new zoom by the page point
that was taken at the old one, which works because a correction moves the image of every page point
alike. -/

namespace CanvasTransform

theorem Scalar.clamp?_eq {lo hi : ℝ} (h : lo ≤ hi) (a : ℝ) :
    clamp? a lo hi = some (Min.min hi (Max.max a lo)) := by
  rw [clamp?, if_pos h, max_def_lt, min_def_lt]

theorem Rect.contains_ofPoints_iff {p q r : Point ℝ} :
    (ofPoints p q).contains r = true ↔ r.x ∈ Set.uIcc p.x q.x ∧ r.y ∈ Set.uIcc p.y q.y := by
  have hsides : ∀ a b : ℝ, Set.uIcc (Scalar.min a b) (Scalar.max a b) = Set.uIcc a b := by
    intro a b
    rw [Scalar.min_eq, Scalar.max_eq, Set.uIcc_of_le min_le_max]
    rfl
  rw [contains_iff, ofPoints, hsides, hsides]

namespace Camera

variable {c₀ c : Camera ℝ}

/-! ## Between page and screen -/

theorem pageToScreen_eq (c : Camera ℝ) (p : Point ℝ) :
    c.pageToScreen p = ⟨c.zoom * p.x + c.offset.x, c.zoom * p.y + c.offset.y⟩ := by
  ext <;> simp [pageToScreen, transform, Affine.apply, Affine.translate, Affine.scale]

theorem screenToPage_eq (c : Camera ℝ) (p : Point ℝ) :
    c.screenToPage p = ⟨(p.x - c.offset.x) / c.zoom, (p.y - c.offset.y) / c.zoom⟩ := by
  ext <;> simp [screenToPage, inverseTransform, Affine.apply, Affine.translate, Affine.scale] <;> ring

theorem pageToScreen_screenToPage (h : c.zoom ≠ 0) (p : Point ℝ) :
    c.pageToScreen (c.screenToPage p) = p := by
  rw [pageToScreen_eq, screenToPage_eq]
  ext <;> simp only [mul_div_cancel₀ _ h, sub_add_cancel]

theorem screenToPage_pageToScreen (h : c.zoom ≠ 0) (p : Point ℝ) :
    c.screenToPage (c.pageToScreen p) = p := by
  rw [pageToScreen_eq, screenToPage_eq]
  ext <;> simp only [add_sub_cancel_right, mul_div_cancel_left₀ _ h]

/-- The visible part of the page is what the viewport shows, edges included. -/
theorem contains_viewportBounds_iff (h : c.zoom ≠ 0) (p : Point ℝ) :
    c.viewportBounds.contains p = true ↔
      (c.pageToScreen p).x ∈ Set.uIcc 0 c.viewport.width ∧
        (c.pageToScreen p).y ∈ Set.uIcc 0 c.viewport.height := by
  -- along each axis, the page coordinates that the screen coordinates between two ends come from
  have haxis : ∀ x offset side : ℝ, x ∈ Set.uIcc ((0 - offset) / c.zoom) ((side - offset) / c.zoom) ↔
      c.zoom * x + offset ∈ Set.uIcc 0 side := by
    intro x offset side
    rw [← Set.preimage_const_mul_uIcc h, ← Set.preimage_add_const_uIcc]
    rfl
  rw [viewportBounds, Rect.contains_ofPoints_iff]
  simp only [screenToPage_eq, pageToScreen_eq, Point.origin, haxis]

/-! ## Steps -/

/-- The range that `c₀` has goes for `c`, and the zoom is within it. The viewport is the same. -/
structure Follows (c₀ c : Camera ℝ) : Prop where
  minZoom_le : c₀.minZoom ≤ c.zoom
  le_maxZoom : c.zoom ≤ c₀.maxZoom
  minZoom_eq : c.minZoom = c₀.minZoom
  maxZoom_eq : c.maxZoom = c₀.maxZoom
  viewport_eq : c.viewport = c₀.viewport

theorem pageToScreen_pan (c : Camera ℝ) (delta : Vec ℝ) (p : Point ℝ) :
    (c.pan delta).pageToScreen p = c.pageToScreen p + delta := by
  rw [pageToScreen_eq, pageToScreen_eq]
  ext <;> simp only [pan, Vec.add_x, Vec.add_y, Point.add_x, Point.add_y, add_assoc]

/-- A page point that is brought to a place on the screen by a pan is what is seen there. -/
theorem screenToPage_pan (h : c.zoom ≠ 0) (page screen : Point ℝ) :
    (c.pan (screen - c.pageToScreen page)).screenToPage screen = page := by
  have hthere : (c.pan (screen - c.pageToScreen page)).pageToScreen page = screen := by
    rw [pageToScreen_pan]
    ext <;> simp only [Point.add_x, Point.add_y, Point.sub_x, Point.sub_y, add_sub_cancel]
  calc (c.pan (screen - c.pageToScreen page)).screenToPage screen
      = (c.pan (screen - c.pageToScreen page)).screenToPage
          ((c.pan (screen - c.pageToScreen page)).pageToScreen page) := by rw [hthere]
    _ = page := screenToPage_pageToScreen (c := c.pan _) h page

namespace Follows

theorem pan (h : c₀.Follows c) (delta : Vec ℝ) : c₀.Follows (c.pan delta) :=
  ⟨h.minZoom_le, h.le_maxZoom, h.minZoom_eq, h.maxZoom_eq, h.viewport_eq⟩

/-- **A zoom has an answer, stays in the range and keeps the page point under its anchor.** -/
theorem zoomAt? (h : c₀.Follows c) (hmin : 0 < c₀.minZoom) (anchor : Point ℝ) (factor : ℝ) :
    ∃ c', c.zoomAt? anchor factor = some c' ∧ c₀.Follows c' ∧
      c'.screenToPage anchor = c.screenToPage anchor := by
  have hrange : c.minZoom ≤ c.maxZoom := by
    rw [h.minZoom_eq, h.maxZoom_eq]
    exact h.minZoom_le.trans h.le_maxZoom
  rw [Camera.zoomAt?, Scalar.clamp?_eq hrange, Option.map_some]
  set zoom := min c.maxZoom (max (c.zoom * factor) c.minZoom)
  have hlow : c₀.minZoom ≤ zoom := h.minZoom_eq ▸ le_min hrange (le_max_right _ _)
  have hhigh : zoom ≤ c₀.maxZoom := h.maxZoom_eq ▸ min_le_left _ _
  refine ⟨_, rfl, ?_⟩
  split_ifs with hsmall
  · exact ⟨h, rfl⟩
  · have hzoomed : c₀.Follows { c with zoom := zoom } :=
      ⟨hlow, hhigh, h.minZoom_eq, h.maxZoom_eq, h.viewport_eq⟩
    exact ⟨hzoomed.pan _, screenToPage_pan (c := { c with zoom := zoom }) (hmin.trans_le hlow).ne' _
      anchor⟩

end Follows

/-! ## Runs -/

/-- A way to move the camera. -/
inductive Move (α : Type)
  | pan (delta : Vec α)
  | zoomAt (anchor : Point α) (factor : α)

section
variable {α : Type} [Scalar α]

/-- The camera after a move, if there is an answer. -/
def move? (c : Camera α) : Move α → Option (Camera α)
  | .pan delta => some (c.pan delta)
  | .zoomAt anchor factor => c.zoomAt? anchor factor

/-- The camera after a run of moves, if each has an answer. -/
def run? (c : Camera α) (moves : List (Move α)) : Option (Camera α) := moves.foldlM move? c

end

namespace Follows

theorem move? (h : c₀.Follows c) (hmin : 0 < c₀.minZoom) (move : Move ℝ) :
    ∃ c', c.move? move = some c' ∧ c₀.Follows c' := by
  cases move with
  | pan delta => exact ⟨_, rfl, h.pan delta⟩
  | zoomAt anchor factor =>
      obtain ⟨c', hc', hfollows, -⟩ := h.zoomAt? hmin anchor factor
      exact ⟨c', hc', hfollows⟩

theorem run? (h : c₀.Follows c) (hmin : 0 < c₀.minZoom) (moves : List (Move ℝ)) :
    ∃ c', c.run? moves = some c' ∧ c₀.Follows c' := by
  induction moves generalizing c with
  | nil => exact ⟨c, rfl, h⟩
  | cons move moves ih =>
      obtain ⟨c', hc', hfollows⟩ := h.move? hmin move
      rw [Camera.run?, List.foldlM_cons, hc']
      exact ih hfollows

end Follows

/-- **Whatever run of pans and zooms has brought the camera where it is**, its zoom is in the range, the
    maps between the page and the screen undo each other, the visible part of the page is what the
    viewport shows, and one more zoom, by any factor, keeps the page point under its anchor. -/
theorem run?_keeps (hmin : 0 < c.minZoom) (hlow : c.minZoom ≤ c.zoom) (hhigh : c.zoom ≤ c.maxZoom)
    (moves : List (Move ℝ)) :
    ∃ c', c.run? moves = some c' ∧ c'.zoom ∈ Set.Icc c.minZoom c.maxZoom ∧
      (∀ p, c'.pageToScreen (c'.screenToPage p) = p ∧ c'.screenToPage (c'.pageToScreen p) = p) ∧
      (∀ p, c'.viewportBounds.contains p = true ↔
        (c'.pageToScreen p).x ∈ Set.uIcc 0 c.viewport.width ∧
          (c'.pageToScreen p).y ∈ Set.uIcc 0 c.viewport.height) ∧
      ∀ anchor factor, ∃ c'', c.run? (moves ++ [.zoomAt anchor factor]) = some c'' ∧
        c''.screenToPage anchor = c'.screenToPage anchor := by
  have hself : c.Follows c := ⟨hlow, hhigh, rfl, rfl, rfl⟩
  obtain ⟨c', hc', hfollows⟩ := hself.run? hmin moves
  have hzoom : c'.zoom ≠ 0 := (hmin.trans_le hfollows.minZoom_le).ne'
  refine ⟨c', hc', ⟨hfollows.minZoom_le, hfollows.le_maxZoom⟩, fun p => ?_, fun p => ?_,
    fun anchor factor => ?_⟩
  · exact ⟨pageToScreen_screenToPage hzoom p, screenToPage_pageToScreen hzoom p⟩
  · rw [contains_viewportBounds_iff hzoom, hfollows.viewport_eq]
  · obtain ⟨c'', hc'', -, hkeeps⟩ := hfollows.zoomAt? hmin anchor factor
    refine ⟨c'', ?_, hkeeps⟩
    rw [run?] at hc' ⊢
    rw [List.foldlM_append, hc']
    show [Move.zoomAt anchor factor].foldlM move? c' = some c''
    rw [List.foldlM_cons, move?, hc'']
    rfl

/-- A fresh camera is moved and then zoomed a thousandfold about a place on the screen. The range allows
    a tenfold zoom at most, and the place shows the page point (170, 120) before and after. -/
theorem run?_keeps_cut_short :
    let c : Camera ℝ := initial
    0 < c.minZoom ∧ c.minZoom ≤ c.zoom ∧ c.zoom ≤ c.maxZoom ∧
      ∃ c', c.run? [.pan ⟨30, -20⟩, .zoomAt ⟨200, 100⟩ 1000] = some c' ∧ c'.zoom ≤ 10.0 ∧
        c'.screenToPage ⟨200, 100⟩ = ⟨170, 120⟩ := by
  intro c
  have hmin : 0 < c.minZoom := by norm_num [c, initial]
  have hlow : c.minZoom ≤ c.zoom := by norm_num [c, initial]
  have hhigh : c.zoom ≤ c.maxZoom := by norm_num [c, initial]
  refine ⟨hmin, hlow, hhigh, ?_⟩
  obtain ⟨panned, hpanned, -, -, -, hkeeps⟩ := run?_keeps hmin hlow hhigh [.pan ⟨30, -20⟩]
  obtain rfl : c.pan ⟨30, -20⟩ = panned := Option.some.inj hpanned
  obtain ⟨zoomed, hzoomed, hpoint⟩ := hkeeps ⟨200, 100⟩ 1000
  obtain ⟨c', hc', hrange, -⟩ :=
    run?_keeps hmin hlow hhigh [.pan ⟨30, -20⟩, .zoomAt ⟨200, 100⟩ 1000]
  obtain rfl : zoomed = c' := Option.some.inj (hzoomed.symm.trans hc')
  refine ⟨zoomed, hzoomed, hrange.2, hpoint.trans ?_⟩
  rw [screenToPage_eq]
  ext <;> norm_num [c, initial, pan, Vec.zero]

end Camera

end CanvasTransform
