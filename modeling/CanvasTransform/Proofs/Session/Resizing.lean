import CanvasTransform.Proofs.Editor.Replay
import CanvasTransform.Proofs.Selection.Box
import CanvasTransform.Proofs.Session.History
import CanvasTransform.Proofs.Transform.Scaling

set_option autoImplicit false

/-! # Resizing with and without the pointer

A selection can be resized by dragging a handle or in one step. The two go different ways. A drag
writes many batches, each on top of the restored baseline, and scales by the factors that
`OrientedBox.resizeScale` reads off the pointer. `Editor.resizeSelection` is given factors, evens
them out in its own way when the selection keeps its aspect ratio (`Editor.lockedFactors`), and
writes one batch.

A drag that is released leaves what the one step with its last factors leaves
(`Course.resize_agrees`). What the earlier moves wrote does not matter (`Course.Proper.showing`),
and evening out does nothing to the factors of a drag: these have even magnitudes already whenever
the selection is locked, whichever handle is dragged (`OrientedBox.lockedFactors_resizeScale`). For
that, magnitudes and signs have to be what their names say, and nothing else is asked of the
arithmetic (`Scalar.LawfulSigns`): it is so on double-precision numbers, with all their roundings
and with values that are not numbers. -/

namespace CanvasTransform

/-! ## Magnitudes and signs -/

/-- Magnitudes have no sign of their own, and a value is its magnitude with its sign. -/
class Scalar.LawfulSigns (α : Type) [Scalar α] : Prop where
  abs_of_abs (a : α) : Scalar.abs (Scalar.abs a) = Scalar.abs a
  abs_copysign (a b : α) : Scalar.abs (Scalar.copysign a b) = Scalar.abs a
  copysign_abs_self (a : α) : Scalar.copysign (Scalar.abs a) a = a

instance : Scalar.LawfulSigns ℝ where
  abs_of_abs := abs_abs
  abs_copysign a b := by
    show |(if b < 0 then -|a| else |a|)| = |a|
    split
    · rw [abs_neg, abs_abs]
    · exact abs_abs a
  copysign_abs_self a := by
    show (if a < 0 then -|(|a|)| else |(|a|)|) = a
    rw [abs_abs]
    split
    · next h => rw [abs_of_neg h, neg_neg]
    · next h => exact abs_of_nonneg (not_lt.mp h)

namespace Binary64

/-- The sign bit and the others together are the value. -/
theorem magnitudeBits_or_sign (x : Binary64) :
    x.magnitudeBits ||| (x.bits &&& signBit) = x.bits := by
  rw [magnitudeBits, ← UInt64.toBitVec_inj]
  ext i
  cases h : x.bits.toBitVec[i] <;> simp [h]

/-- A sign that is lent does not touch the other bits. -/
theorem magnitudeBits_withSignOf (a b : Binary64) :
    (withSignOf a b).magnitudeBits = a.magnitudeBits := by
  rw [magnitudeBits, withSignOf, magnitudeBits, ← UInt64.toBitVec_inj]
  ext i
  cases h : signBit.toBitVec[i] <;> simp [h]

theorem magnitudeBits_abs (a : Binary64) : a.abs.magnitudeBits = a.magnitudeBits := by
  simp only [abs, magnitudeBits, UInt64.and_assoc, UInt64.and_self]

end Binary64

instance : Scalar.LawfulSigns Binary64 where
  abs_of_abs a := congrArg Binary64.mk a.magnitudeBits_abs
  abs_copysign a b := congrArg Binary64.mk (a.magnitudeBits_withSignOf b)
  copysign_abs_self a := by
    show Binary64.mk (a.abs.magnitudeBits ||| (a.bits &&& Binary64.signBit)) = a
    rw [a.magnitudeBits_abs, a.magnitudeBits_or_sign]

section
variable {α : Type} [Scalar α]

/-- The larger of a value and itself is the value, also when it is not a number. -/
theorem Scalar.max_self (a : α) : Scalar.max a a = a := by
  unfold Scalar.max
  split
  · rfl
  · split <;> rfl

variable [Scalar.LawfulSigns α]

open Scalar.LawfulSigns

/-- Factors of even magnitude are even already. -/
theorem Vec.equalize_of_abs_eq {v : Vec α} (h : Scalar.abs v.x = Scalar.abs v.y) :
    v.equalize = v := by
  rw [equalize, ← h, Scalar.max_self, copysign_abs_self, h, copysign_abs_self]

theorem Vec.abs_equalize (v : Vec α) :
    Scalar.abs v.equalize.x = Scalar.abs v.equalize.y := by
  simp only [equalize, abs_copysign]

theorem Editor.lockedFactors_of_abs_eq {factors : Vec α} {locked : Bool}
    (h : locked = true → Scalar.abs factors.x = Scalar.abs factors.y) :
    lockedFactors factors locked = factors := by
  unfold lockedFactors
  split
  · next huneven => exact Vec.equalize_of_abs_eq (h (Bool.and_eq_true_iff.mp huneven).1)
  · rfl

/-! ## The factors of a drag -/

/-- A locked selection is dragged to factors of even magnitude, by corners and by edges. -/
theorem OrientedBox.abs_resizeScale (box : OrientedBox α) (h : Handle) (delta : Vec α)
    (flags : Flags) :
    Scalar.abs (box.resizeScale h delta flags true).factors.x =
      Scalar.abs (box.resizeScale h delta flags true).factors.y := by
  simp only [resizeScale, Bool.true_or, if_true]
  cases h with
  | corner c => exact Vec.abs_equalize _
  | edge side =>
      cases side with
      | left | right => exact (abs_of_abs _).symm
      | top | bottom => exact abs_of_abs _
  | rotate => rfl

/-- Evening out does nothing to the factors of a drag. -/
theorem OrientedBox.lockedFactors_resizeScale (box : OrientedBox α) (h : Handle) (delta : Vec α)
    (flags : Flags) (locked : Bool) :
    Editor.lockedFactors (box.resizeScale h delta flags locked).factors locked =
      (box.resizeScale h delta flags locked).factors := by
  refine Editor.lockedFactors_of_abs_eq fun hlocked => ?_
  subst hlocked
  exact box.abs_resizeScale h delta flags

end

/-! ## One step -/

section
variable {α : Type} [Scalar α]

/-- The point that stays when a handle is dragged, as it is given for one step. -/
def Handle.scaleOrigin (h : Handle) (fromCenter : Bool) : ScaleOrigin α :=
  if fromCenter then .center else .handle h.opposite

theorem OrientedBox.anchor_scaleOrigin (box : OrientedBox α) (h : Handle) (delta : Vec α)
    (flags : Flags) (locked : Bool) :
    (h.scaleOrigin flags.alt).anchor box = (box.resizeScale h delta flags locked).anchor := by
  simp only [Handle.scaleOrigin, resizeScale, resizeAnchor]
  cases flags.alt <;> rfl

namespace Editor

variable {e : Editor α} {store : Store α} {snapshot : Snapshot α}

/-- Without a session, scaling in one step commits the scaled snapshot. -/
theorem resizeSelection_of_capture? (hbefore : e.phase.isSession = false)
    (hcapture : e.capture? store.document = some snapshot) (factors : Vec α)
    (origin : ScaleOrigin α) :
    (e.resizeSelection store factors origin).2.document.Agree
      (store.document.settle e.registry (snapshot.scale (e.canvas store.document)
        (snapshot.box.pageScale ⟨lockedFactors factors snapshot.aspectLocked,
          origin.anchor snapshot.box⟩)).updates) := by
  rw [resizeSelection, if_neg (by simp [hbefore]), hcapture]
  exact store.commit_agree e.registry _

end Editor

/-- A handle that does not snap goes where the pointer goes. -/
theorem Session.snappedHandleDrag_eq {s : Session α} {config : Config α}
    (hctrl : s.flags.ctrl = false) (hgrid : config.grid.enabled = false) (zoom : α) (h : Handle) :
    s.snappedHandleDrag config zoom h = (s.drag, []) := by
  simp [snappedHandleDrag, hctrl, hgrid]

/-- What a resize session comes to: the selection scaled by what the drag, snapped as it is, asks
    for. -/
theorem Session.outcome_of_kind {s : Session α} {h : Handle} (hkind : s.kind = .resize h)
    (c : Canvas α) (config : Config α) (zoom : α) :
    (s.update c config zoom).outcome = s.snapshot.scale c (s.snapshot.box.pageScale
      (s.snapshot.box.resizeScale h (s.snappedHandleDrag config zoom h).1 s.flags
        s.snapshot.aspectLocked)) := by
  simp only [update, resizeUpdate, hkind]

/-- What a resize session that does not snap comes to. -/
theorem Session.outcome_of_resize {s : Session α} {config : Config α} {h : Handle}
    (hkind : s.kind = .resize h) (hctrl : s.flags.ctrl = false)
    (hgrid : config.grid.enabled = false) (c : Canvas α) (zoom : α) :
    (s.update c config zoom).outcome = s.snapshot.scale c (s.snapshot.box.pageScale
      (s.snapshot.box.resizeScale h s.drag s.flags s.snapshot.aspectLocked)) := by
  rw [outcome_of_kind hkind, snappedHandleDrag_eq hctrl hgrid]

/-! ## The drag and the step -/

variable [Scalar.LawfulSigns α] {e : Editor α} {store : Store α} {h : Handle} {origin p : Point α}
  {flags : Flags} {zoom : α}

/-- **A drag of a handle comes to one step.** A resize session is opened in whatever way, on a store
    without a chain of shapes that is too deep, runs through moves and changes of the modifiers that
    leave no shape out, and is released with the pointer at `p`, where nothing snaps. It leaves the
    store, record for record, as scaling the selection there in one step does: with the factors that
    the drag from `origin` to `p` asks for, about the opposite handle or, with alt, about the
    center. -/
theorem Course.resize_agrees {c : Course α} (hregistry : e.registry = Registry.builtin)
    (hkeyed : store.document.Keyed) (hshallow : store.document.Shallow)
    (hbefore : e.phase.isSession = false) (hgrid : e.config.grid.enabled = false)
    (hproper : c.Proper (e, store))
    (hstanding : (c.run (e, store)).1.standing? = some ⟨.resize h, origin, p, flags, zoom⟩)
    (hctrl : flags.ctrl = false) (q : Point α) (m : Modifiers) :
    ∃ snapshot, e.capture? store.document = some snapshot ∧
      ((Ending.release q m).run (c.run (e, store))).2.document.Agree
        (e.resizeSelection store
          (snapshot.box.resizeScale h (p - origin) flags snapshot.aspectLocked).factors
          (h.scaleOrigin flags.alt)).2.document := by
  obtain ⟨snapshot, hcapture, hsteady, s, hs, hagree, -⟩ :=
    hproper.showing hregistry hkeyed hshallow hbefore
  -- the session that shows is the one that stands and the one of the snapshot
  obtain ⟨s', hs', heq⟩ := Editor.standing?_eq_some_iff.mp hstanding
  obtain rfl : s' = s := Option.some.inj (hs'.symm.trans hs)
  obtain ⟨s'', hs'', hsnapshot, -⟩ := hsteady.session
  obtain rfl : s'' = s' := Option.some.inj (hs''.symm.trans hs)
  obtain ⟨hkind, horigin, hcurrent, hflags, -⟩ := Standing.mk.inj heq
  have hdrag : s''.drag = p - origin := by rw [Session.drag, hcurrent, horigin]
  have houtcome : ((c.run (e, store)).1.updateOf store.document s'').outcome =
      snapshot.scale (e.canvas store.document) (snapshot.box.pageScale
        (snapshot.box.resizeScale h (p - origin) flags snapshot.aspectLocked)) := by
    rw [Editor.updateOf, Session.outcome_of_resize hkind.symm (hflags ▸ hctrl)
      (hsteady.config ▸ hgrid), hsnapshot, hdrag, ← hflags, Editor.canvas, Editor.canvas,
      hsteady.registry, hregistry]
  have hone := Editor.resizeSelection_of_capture? hbefore hcapture
    (snapshot.box.resizeScale h (p - origin) flags snapshot.aspectLocked).factors
    (h.scaleOrigin flags.alt)
  rw [snapshot.box.lockedFactors_resizeScale, snapshot.box.anchor_scaleOrigin h (p - origin),
    ← houtcome, hregistry] at hone
  refine ⟨snapshot, hcapture, ?_⟩
  rw [Ending.run_eq hs]
  exact hagree.trans hone.symm

end

/-- The box around an upright image at the origin of the page. -/
theorem Canvas.selectionBox?_image {id : ShapeId} {w h : ℝ} (hw : 0 ≤ w) (hh : 0 ≤ h)
    {box : OrientedBox ℝ} (hbox : Canvas.selectionBox?
      ⟨Document.empty.put (Shape.image id 0 0 w h), Registry.builtin⟩ [id] = some box) :
    box = ⟨⟨0, 0, w, h⟩, 0⟩ := by
  let d : Document ℝ := Document.empty.put (Shape.image id 0 0 w h)
  have hget : d.get? id = some (Shape.image id 0 0 w h) := by
    simp [d, Document.get?_put, Shape.image, Shape.onPage]
  have hpage : d.pageTransform? id = some Affine.identity := by
    rw [(Document.shallow_put rfl).pageTransform?_eq, hget, ← Affine.placement_zero]
    rfl
  exact selectionBox?_of_identity hget hpage rfl hw hh hbox

/-- The factors of a shift-drag to twice the width and half as much again as the height. -/
theorem OrientedBox.factors_shiftDrag (locked : Bool) :
    ((⟨⟨0, 0, 10, 10⟩, 0⟩ : OrientedBox ℝ).resizeScale (.corner .bottomRight)
      ((⟨20, 15⟩ : Point ℝ) - (⟨10, 10⟩ : Point ℝ)) Modifiers.shiftOnly.flags locked).factors =
      ⟨2, 2⟩ := by
  have hkept : (locked || Modifiers.shiftOnly.flags.shift) = true := Bool.or_true _
  have halt : Modifiers.shiftOnly.flags.alt = false := rfl
  have hcos : (Scalar.cos 0 : ℝ) = 1 := Real.cos_zero
  have hsin : (Scalar.sin 0 : ℝ) = 0 := Real.sin_zero
  have heven : Vec.equalize (⟨2, 3 / 2⟩ : Vec ℝ) = ⟨2, 2⟩ := by
    have hmax : Scalar.max (Scalar.abs (2 : ℝ)) (Scalar.abs (3 / 2)) = 2 := by
      rw [Scalar.max_eq]
      show max |(2 : ℝ)| |3 / 2| = 2
      norm_num [abs_of_pos]
    rw [Vec.equalize, hmax]
    show (⟨if (2 : ℝ) < 0 then -|2| else |2|, if (3 / 2 : ℝ) < 0 then -|2| else |2|⟩ : Vec ℝ) = _
    norm_num
  simp only [resizeScale, hkept, if_true, resizeAnchor]
  rw [← heven]
  congr 1
  ext <;> simp [Handle.positionOn, Handle.unit, Handle.opposite, Handle.movesX, Handle.movesY,
    Rect.position, Rect.width, Rect.height, Vec.rotate, halt, hcos, hsin] <;> norm_num

/-- An image dragged by a corner with shift held, read exactly: to twice the width and half as much
    again as the height, so that it becomes twice as large. -/
theorem Course.resize_agrees_dragged_image :
    let d : Document ℝ := Document.empty.put (Shape.image 1 0 0 10 10)
    let e : Editor ℝ := { Editor.initial Config.standard with selection := [1] }
    let h : Handle := .corner .bottomRight
    let m : Modifiers := Modifiers.shiftOnly
    let c : Course ℝ := ⟨.begin (.resize h) ⟨10, 10⟩ m, [.move ⟨20, 15⟩ m]⟩
    d.Keyed ∧ d.Shallow ∧ c.Proper (e, ⟨d, []⟩) ∧
    ∃ snapshot, e.capture? d = some snapshot ∧
      ((Ending.release ⟨20, 15⟩ m).run (c.run (e, ⟨d, []⟩))).2.document.Agree
        (e.resizeSelection ⟨d, []⟩ (snapshot.box.resizeScale h ((⟨20, 15⟩ : Point ℝ) -
          (⟨10, 10⟩ : Point ℝ)) m.flags snapshot.aspectLocked).factors
          (h.scaleOrigin false)).2.document := by
  intro d e h m c
  have hopens : (c.opening.run (e, ⟨d, []⟩)).1.phase.isSession = true := by decide +kernel +revert
  have htop : d.topLevel [1] = [1] := by
    clear hopens c m h e
    decide +kernel +revert
  have hkeyed : d.Keyed := Document.keyed_empty.put _
  have hshallow : d.Shallow := Document.shallow_put rfl
  have hskips : c.skipped (e, ⟨d, []⟩) = [] := by
    obtain ⟨snapshot, hcapture, hbegin⟩ := Editor.beginSession_of_isSession rfl hopens
    obtain ⟨htop', hbox, -⟩ := Canvas.get?_capture? hcapture 1
    rw [htop', show (e.canvas d).document.topLevel e.selection = [1] from htop] at hbox
    have hrect := Canvas.selectionBox?_image (by norm_num) (by norm_num) hbox
    let s := Session.start (.resize h) ⟨10, 10⟩ m.flags snapshot
    have hopening : c.opening.run (e, ⟨d, []⟩) =
        (e.withSession (.resize h) ⟨10, 10⟩ m.flags snapshot, ⟨d, []⟩) :=
      congrArg (·.2, _) hbegin
    have hstep : c.skipped (e, ⟨d, []⟩) =
        ((e.withSession (.resize h) ⟨10, 10⟩ m.flags snapshot).updateOf d
          (s.moveTo ⟨20, 15⟩ m.flags)).outcome.skipped := by
      have hlead : c.opening.skipped (e, ⟨d, []⟩) = [] := rfl
      rw [Course.skipped, hlead, hopening, List.nil_append, Interim.skippedAll,
        Interim.skipped_of_steer rfl rfl]
      exact List.append_nil _
    have hfactors := OrientedBox.factors_shiftDrag snapshot.aspectLocked
    have htwo : Scalar.coordTolerance < |(2 : ℝ)| := by
      unfold Scalar.coordTolerance
      norm_num
    have hcommit := (Store.commit_scale ⟨d, []⟩ (snapshot.box.resizeScale h
      ((⟨20, 15⟩ : Point ℝ) - (⟨10, 10⟩ : Point ℝ)) m.flags snapshot.aspectLocked).anchor hkeyed
      hshallow hcapture htwo htwo (Or.inl rfl)).1
    rw [← hfactors, ← hrect] at hcommit
    rw [hstep, Editor.updateOf, Session.outcome_of_resize (h := h) rfl rfl rfl]
    exact hcommit
  have hproper : c.Proper (e, ⟨d, []⟩) := ⟨hopens, by simp [c, Interim.isRemoval], rfl, hskips⟩
  have hstanding : (c.run (e, ⟨d, []⟩)).1.standing? =
      some ⟨.resize h, ⟨10, 10⟩, ⟨20, 15⟩, m.flags, e.camera.zoom⟩ :=
    Interim.standing?_move (Opening.standing?_begin rfl hopens) _ _
  exact ⟨hkeyed, hshallow, hproper,
    Course.resize_agrees rfl hkeyed hshallow rfl rfl hproper hstanding rfl _ _⟩

end CanvasTransform
