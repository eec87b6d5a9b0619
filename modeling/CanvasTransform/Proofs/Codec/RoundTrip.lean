import CanvasTransform.Codec.Config
import CanvasTransform.Codec.Selection
import CanvasTransform.Proofs.Codec.Double
import CanvasTransform.Proofs.Codec.Records
import CanvasTransform.Proofs.Text.Uuid

set_option autoImplicit false

/-! # Persisted values are read back

Every persisted type is read back as soon as its numbers are (`readsBack`, for each type), by the
forms that codecs are built from. Patches and configurations leave fields out. What is said of them is
said for every object that keeps some of their fields, and what the encoder writes is one of these. -/

namespace CanvasTransform

open Json

variable {α : Type}

/-! ## The numbers of a value -/

def Point.scalars (p : Point α) : List α := [p.x, p.y]

def Vec.scalars (v : Vec α) : List α := [v.x, v.y]

def Rect.scalars (r : Rect α) : List α := [r.x0, r.y0, r.x1, r.y1]

def Size.scalars (s : Size α) : List α := [s.width, s.height]

def Camera.scalars (c : Camera α) : List α :=
  c.offset.scalars ++ [c.zoom, c.minZoom, c.maxZoom] ++ c.viewport.scalars

def OrientedBox.scalars (b : OrientedBox α) : List α := b.rect.scalars ++ [b.rotation]

def Candidate.scalars (c : Candidate α) : List α := c.bounds.scalars ++ c.points.flatMap Point.scalars

def GapIndicator.scalars (g : GapIndicator α) : List α :=
  [g.startEdge.1, g.startEdge.2, g.endEdge.1, g.endEdge.2].flatMap Point.scalars

def SnapLine.scalars : SnapLine α → List α
  | .points ps => ps.flatMap Point.scalars
  | .gaps _ gs => gs.flatMap GapIndicator.scalars

def Form.scalars : Form α → List α
  | .box w h => [w, h]
  | .image w h _ _ => [w, h]
  | .line points => points.flatMap Point.scalars
  | .group => []

def Shape.scalars (s : Shape α) : List α := [s.x, s.y, s.rotation] ++ s.form.scalars

def Patch.scalars (p : Patch α) : List α :=
  p.x.toList ++ p.y.toList ++ p.rotation.toList ++ p.form.toList.flatMap Form.scalars

def GridConfig.scalars (g : GridConfig α) : List α := [g.size]

def Config.scalars (c : Config α) : List α :=
  [c.snapDistance, c.dragDistance, c.coarseDragDistance, c.rotationSnapDegrees,
    c.handleHitTolerance, c.rotateHandleOffset] ++ c.grid.scalars

variable [Codec α]

/-! ## Geometry -/

theorem Point.readsBack {p : Point α} (h : ∀ x ∈ p.scalars, ReadsBack x) : ReadsBack p := by
  simp only [scalars, List.forall_mem_cons] at h
  obtain ⟨hx, hy, -⟩ := h
  exact ⟨writable_record (by simp [hx, hy]),
    reads_record [("x", toJson p.x), ("y", toJson p.y)] (by simp) _ (by simp [hx, hy])⟩

theorem Vec.readsBack {v : Vec α} (h : ∀ x ∈ v.scalars, ReadsBack x) : ReadsBack v := by
  simp only [scalars, List.forall_mem_cons] at h
  obtain ⟨hx, hy, -⟩ := h
  exact ⟨writable_record (by simp [hx, hy]),
    reads_record [("x", toJson v.x), ("y", toJson v.y)] (by simp) _ (by simp [hx, hy])⟩

theorem Rect.readsBack {r : Rect α} (h : ∀ x ∈ r.scalars, ReadsBack x) : ReadsBack r := by
  simp only [scalars, List.forall_mem_cons] at h
  obtain ⟨hx₀, hy₀, hx₁, hy₁, -⟩ := h
  exact ⟨writable_record (by simp [hx₀, hy₀, hx₁, hy₁]),
    reads_record [("x0", toJson r.x0), ("y0", toJson r.y0), ("x1", toJson r.x1),
      ("y1", toJson r.y1)] (by simp) _ (by simp [hx₀, hy₀, hx₁, hy₁])⟩

theorem Size.readsBack {s : Size α} (h : ∀ x ∈ s.scalars, ReadsBack x) : ReadsBack s := by
  simp only [scalars, List.forall_mem_cons] at h
  obtain ⟨hwidth, hheight, -⟩ := h
  exact ⟨writable_record (by simp [hwidth, hheight]),
    reads_record [("width", toJson s.width), ("height", toJson s.height)] (by simp) _
      (by simp [hwidth, hheight])⟩

theorem Camera.readsBack {c : Camera α} (h : ∀ x ∈ c.scalars, ReadsBack x) : ReadsBack c := by
  simp only [scalars, List.forall_mem_append, List.forall_mem_cons] at h
  obtain ⟨⟨hoffset, hzoom, hmin, hmax, -⟩, hviewport⟩ := h
  have hoffset := Vec.readsBack hoffset
  have hviewport := Size.readsBack hviewport
  exact ⟨writable_record (by simp [hoffset, hzoom, hmin, hmax, hviewport]),
    reads_record [("offset", toJson c.offset), ("zoom", toJson c.zoom),
      ("min_zoom", toJson c.minZoom), ("max_zoom", toJson c.maxZoom),
      ("viewport", toJson c.viewport)] (by simp) _
      (by simp [hoffset, hzoom, hmin, hmax, hviewport])⟩

theorem OrientedBox.readsBack {b : OrientedBox α} (h : ∀ x ∈ b.scalars, ReadsBack x) :
    ReadsBack b := by
  simp only [scalars, List.forall_mem_append, List.forall_mem_cons] at h
  obtain ⟨hrect, hrotation, -⟩ := h
  have hrect := Rect.readsBack hrect
  exact ⟨writable_record (by simp [hrect, hrotation]),
    reads_record [("rect", toJson b.rect), ("rotation", toJson b.rotation)] (by simp) _
      (by simp [hrect, hrotation])⟩

/-- A list whose elements are read back as soon as their numbers are. -/
theorem readsBack_flatMap {β : Type} [Codec β] {scalars : β → List α}
    (hread : ∀ {b}, (∀ x ∈ scalars b, ReadsBack x) → ReadsBack b) {bs : List β}
    (h : ∀ x ∈ bs.flatMap scalars, ReadsBack x) : ReadsBack bs :=
  readsBack_list fun b hb => hread fun x hx => h x (List.mem_flatMap.2 ⟨b, hb, hx⟩)

/-! ## Identities and names -/

theorem ShapeId.readsBack (id : ShapeId) : ReadsBack id := ⟨.text _, Uuid.parse?_format id⟩

theorem Kind.readsBack (k : Kind) : ReadsBack k := ⟨.text _, by cases k <;> rfl⟩

theorem GapDirection.readsBack (d : GapDirection) : ReadsBack d := ⟨.text _, by cases d <;> rfl⟩

/-- An object with one member. -/
theorem writable_tagged {name : String} {j : Json} (h : j.Writable) : (tagged name j).Writable :=
  writable_record (by simpa using h)

theorem Handle.readsBack (h : Handle) : ReadsBack h := by
  rcases h with c | e | _
  · exact ⟨writable_tagged (.text _), by cases c <;> rfl⟩
  · exact ⟨writable_tagged (.text _), by cases e <;> rfl⟩
  · exact ⟨.text _, rfl⟩

theorem Parent.ofJson?_shape (s : String) : (ofJson? (tagged "Shape" (.text s)) : Option Parent) =
    (ofJson? (Json.text s) : Option ShapeId).map .shape := rfl

theorem Parent.readsBack (p : Parent) : ReadsBack p := by
  cases p with
  | page => exact ⟨.text _, rfl⟩
  | shape id =>
      have hid := ShapeId.readsBack id
      exact ⟨writable_tagged hid.writable, (ofJson?_shape _).trans (congrArg _ hid.reads)⟩

/-! ## Shapes -/

/-! What stands under the name of a form is a record of its fields. -/

theorem Form.ofJson?_box (ms : List (Option String × Json)) :
    (ofJson? (tagged "Geo" (.object ms)) : Option (Form α)) =
      ((Json.object ms).slots? ["w", "h"]).bind fun
        | [w, h] => do return .box (← w.required?) (← h.required?)
        | _ => none := rfl

theorem Form.ofJson?_image (ms : List (Option String × Json)) :
    (ofJson? (tagged "Image" (.object ms)) : Option (Form α)) =
      ((Json.object ms).slots? ["w", "h", "flip_x", "flip_y"]).bind fun
        | [w, h, flipX, flipY] => do
          return .image (← w.required?) (← h.required?) (← flipX.withDefault? false)
            (← flipY.withDefault? false)
        | _ => none := rfl

theorem Form.ofJson?_line (ms : List (Option String × Json)) :
    (ofJson? (tagged "Line" (.object ms)) : Option (Form α)) =
      ((Json.object ms).slots? ["points"]).bind fun
        | [points] => do return .line (← points.required?)
        | _ => none := rfl

theorem Form.readsBack {f : Form α} (h : ∀ x ∈ f.scalars, ReadsBack x) : ReadsBack f := by
  cases f with
  | box w ht =>
      simp only [scalars, List.forall_mem_cons] at h
      obtain ⟨hw, hh, -⟩ := h
      exact ⟨writable_tagged (writable_record (by simp [hw, hh])),
        (ofJson?_box _).trans (reads_record [("w", toJson w), ("h", toJson ht)] (by simp) _
          (by simp [hw, hh]))⟩
  | image w ht flipX flipY =>
      simp only [scalars, List.forall_mem_cons] at h
      obtain ⟨hw, hh, -⟩ := h
      have hx := readsBack_bool flipX
      have hy := readsBack_bool flipY
      exact ⟨writable_tagged (writable_record (by simp [hw, hh, hx, hy])),
        (ofJson?_image _).trans (reads_record [("w", toJson w), ("h", toJson ht),
          ("flip_x", toJson flipX), ("flip_y", toJson flipY)] (by simp) _
            (by simp [hw, hh, hx, hy]))⟩
  | line ps =>
      have hps := readsBack_flatMap Point.readsBack h
      exact ⟨writable_tagged (writable_record (by simp [hps])),
        (ofJson?_line _).trans (reads_record [("points", toJson ps)] (by simp) _
          (by simp [hps]))⟩
  | group => exact ⟨.text _, rfl⟩

theorem Shape.readsBack {s : Shape α} (h : ∀ x ∈ s.scalars, ReadsBack x) : ReadsBack s := by
  simp only [scalars, List.forall_mem_append, List.forall_mem_cons] at h
  obtain ⟨⟨hx, hy, hrotation, -⟩, hform⟩ := h
  have hid := ShapeId.readsBack s.id
  have hkind := Kind.readsBack s.kind
  have hparent := Parent.readsBack s.parent
  have hindex := readsBack_int64 s.index
  have hform := Form.readsBack hform
  exact ⟨writable_record (by simp [hid, hkind, hparent, hindex, hx, hy, hrotation, hform]),
    reads_record [("id", toJson s.id), ("kind", toJson s.kind), ("parent", toJson s.parent),
      ("index", toJson s.index), ("x", toJson s.x), ("y", toJson s.y),
      ("rotation", toJson s.rotation), ("props", toJson s.form)] (by simp) _
      (by simp [hid, hkind, hparent, hindex, hx, hy, hrotation, hform])⟩

/-! ## Snapping -/

theorem GapIndicator.readsBack {g : GapIndicator α} (h : ∀ x ∈ g.scalars, ReadsBack x) :
    ReadsBack g := by
  simp only [scalars, List.flatMap_cons, List.flatMap_nil, List.forall_mem_append] at h
  obtain ⟨h₁, h₂, h₃, h₄, -⟩ := h
  have hstart := readsBack_pair (Point.readsBack h₁) (Point.readsBack h₂)
  have hend := readsBack_pair (Point.readsBack h₃) (Point.readsBack h₄)
  exact ⟨writable_record (by simp [hstart, hend]),
    reads_record [("start_edge", toJson g.startEdge), ("end_edge", toJson g.endEdge)] (by simp) _
      (by simp [hstart, hend])⟩

theorem SnapLine.ofJson?_points (ms : List (Option String × Json)) :
    (ofJson? (tagged "Points" (.object ms)) : Option (SnapLine α)) =
      ((Json.object ms).slots? ["points"]).bind fun
        | [ps] => do return .points (← ps.required?)
        | _ => none := rfl

theorem SnapLine.ofJson?_gaps (ms : List (Option String × Json)) :
    (ofJson? (tagged "Gaps" (.object ms)) : Option (SnapLine α)) =
      ((Json.object ms).slots? ["direction", "gaps"]).bind fun
        | [direction, gs] => do return .gaps (← direction.required?) (← gs.required?)
        | _ => none := rfl

theorem SnapLine.readsBack {l : SnapLine α} (h : ∀ x ∈ l.scalars, ReadsBack x) : ReadsBack l := by
  cases l with
  | points ps =>
      have hps := readsBack_flatMap Point.readsBack h
      exact ⟨writable_tagged (writable_record (by simp [hps])),
        (ofJson?_points _).trans (reads_record [("points", toJson ps)] (by simp) _
          (by simp [hps]))⟩
  | gaps direction gs =>
      have hdirection := GapDirection.readsBack direction
      have hgs := readsBack_flatMap GapIndicator.readsBack h
      exact ⟨writable_tagged (writable_record (by simp [hdirection, hgs])),
        (ofJson?_gaps _).trans (reads_record [("direction", toJson direction),
          ("gaps", toJson gs)] (by simp) _ (by simp [hdirection, hgs]))⟩

theorem Candidate.readsBack {c : Candidate α} (h : ∀ x ∈ c.scalars, ReadsBack x) :
    ReadsBack c := by
  simp only [scalars, List.forall_mem_append] at h
  obtain ⟨hbounds, hpoints⟩ := h
  have hid := ShapeId.readsBack c.id
  have hbounds := Rect.readsBack hbounds
  have hpoints := readsBack_flatMap Point.readsBack hpoints
  exact ⟨writable_record (by simp [hid, hbounds, hpoints]),
    reads_record [("id", toJson c.id), ("bounds", toJson c.bounds), ("points", toJson c.points)]
      (by simp) _ (by simp [hid, hbounds, hpoints])⟩

/-! ## Patches -/

namespace Patch

variable (p : Patch α)

/-- Whether a field is written: the identity always, the others if they are set. -/
def sets (name : String) : Bool :=
  match name with
  | "id" => true
  | "x" => p.x.isSome
  | "y" => p.y.isSome
  | "rotation" => p.rotation.isSome
  | "props" => p.form.isSome
  | _ => false

/-- What stands for a field that may not be set. -/
def memberOf {β : Type} [Codec β] (value : Option β) : Json := (value.map toJson).getD .null

/-- All fields of a patch, set or not. -/
def fields : List (String × Json) :=
  [("id", toJson p.id), ("x", memberOf p.x), ("y", memberOf p.y),
    ("rotation", memberOf p.rotation), ("props", memberOf p.form)]

theorem optionalMember_eq {β : Type} [Codec β] (name : String) (value : Option β) :
    optionalMember name value = if value.isSome then [(name, memberOf value)] else [] := by
  cases value <;> rfl

/-- **A patch is written with its identity and the fields that are set**, and nothing else. -/
theorem toJson_eq : toJson p = .record (p.fields.filter (p.sets ·.1)) := by
  have hwritten : toJson p = .record ([("id", toJson p.id)] ++ optionalMember "x" p.x ++
      optionalMember "y" p.y ++ optionalMember "rotation" p.rotation ++
      optionalMember "props" p.form) := rfl
  rw [hwritten]
  simp only [optionalMember_eq, fields, sets, List.filter_cons, List.filter_nil]
  cases p.x <;> cases p.y <;> cases p.rotation <;> cases p.form <;> rfl

variable {p}

theorem optional?_memberOf {β : Type} [Codec β] (hnull : ofJson? Json.null = (none : Option β))
    {value : Option β} (h : ∀ b ∈ value, ReadsBack b) :
    (if value.isSome then Slot.value (memberOf value) else .absent).optional? = some value := by
  cases value with
  | none => rfl
  | some b => exact Slot.optional?_value (h b rfl) hnull

theorem writable_memberOf {β : Type} [Codec β] {value : Option β} (h : ∀ b ∈ value, ReadsBack b) :
    (memberOf value).Writable := by
  cases value with
  | none => exact .null
  | some b => exact (h b rfl).writable

theorem readsBack_of_mem (h : ∀ x ∈ p.scalars, ReadsBack x) : (∀ x ∈ p.x, ReadsBack x) ∧
    (∀ y ∈ p.y, ReadsBack y) ∧ (∀ r ∈ p.rotation, ReadsBack r) ∧ ∀ f ∈ p.form, ReadsBack f := by
  simp only [scalars, List.forall_mem_append, List.mem_flatMap, Option.mem_toList,
    forall_exists_index, and_imp] at h
  obtain ⟨⟨⟨hx, hy⟩, hrotation⟩, hform⟩ := h
  exact ⟨hx, hy, hrotation, fun f hf => Form.readsBack fun x hx => hform x f hf hx⟩

/-- **Exactly the fields that are set are read as set**, in any order and among members of other
    names. -/
theorem ofJson?_of_keeps (hnull : ofJson? Json.null = (none : Option α))
    (h : ∀ x ∈ p.scalars, ReadsBack x) {members : List (Option String × Json)}
    (hkeeps : Keeps p.fields p.sets members) : ofJson? (Json.object members) = some p := by
  obtain ⟨hx, hy, hrotation, hform⟩ := readsBack_of_mem h
  have hid := ShapeId.readsBack p.id
  have hread := hkeeps.slots?_eq (by simp [fields])
  refine (congrArg (Option.bind · _) hread).trans ?_
  simp [fields, slot, sets, hid, optional?_memberOf hnull hx, optional?_memberOf hnull hy,
    optional?_memberOf hnull hrotation, optional?_memberOf rfl hform]

theorem readsBack (hnull : ofJson? Json.null = (none : Option α))
    (h : ∀ x ∈ p.scalars, ReadsBack x) : ReadsBack p where
  writable := by
    obtain ⟨hx, hy, hrotation, hform⟩ := readsBack_of_mem h
    have hfields : ∀ f ∈ p.fields, f.2.Writable := by
      simp [fields, ShapeId.readsBack, writable_memberOf hx, writable_memberOf hy,
        writable_memberOf hrotation, writable_memberOf hform]
    rw [toJson_eq]
    exact writable_record fun f hf => hfields f (List.mem_of_mem_filter hf)
  reads := by
    rw [toJson_eq]
    exact ofJson?_of_keeps hnull h ⟨[], nofun, by simp⟩

end Patch

/-! ## Configurations -/

/-- The fields of a grid. -/
def GridConfig.fields (g : GridConfig α) : List (String × Json) :=
  [("enabled", toJson g.enabled), ("size", toJson g.size)]

/-- The fields of a configuration, with what stands for its grid. -/
def Config.fields (c : Config α) (grid : Json) : List (String × Json) :=
  [("snap_distance", toJson c.snapDistance), ("drag_distance", toJson c.dragDistance),
    ("coarse_drag_distance", toJson c.coarseDragDistance), ("grid", grid),
    ("rotation_snap_degrees", toJson c.rotationSnapDegrees),
    ("clone_revert_delay_ms", toJson c.cloneRevertDelay),
    ("handle_hit_tolerance", toJson c.handleHitTolerance),
    ("rotate_handle_offset", toJson c.rotateHandleOffset)]

variable [Scalar α]

/-- The grid on the fields that are kept, the standard one on the others. -/
def GridConfig.keeping (g : GridConfig α) (kept : String → Bool) : GridConfig α where
  enabled := if kept "enabled" then g.enabled else (standard : GridConfig α).enabled
  size := if kept "size" then g.size else standard.size

/-- The configuration on the fields that are kept, also of its grid, the standard one on the others. -/
def Config.keeping (c : Config α) (kept keptGrid : String → Bool) : Config α where
  snapDistance := if kept "snap_distance" then c.snapDistance else standard.snapDistance
  dragDistance := if kept "drag_distance" then c.dragDistance else standard.dragDistance
  coarseDragDistance :=
    if kept "coarse_drag_distance" then c.coarseDragDistance else standard.coarseDragDistance
  grid := if kept "grid" then c.grid.keeping keptGrid else standard.grid
  rotationSnapDegrees :=
    if kept "rotation_snap_degrees" then c.rotationSnapDegrees else standard.rotationSnapDegrees
  cloneRevertDelay :=
    if kept "clone_revert_delay_ms" then c.cloneRevertDelay
    else (standard : Config α).cloneRevertDelay
  handleHitTolerance :=
    if kept "handle_hit_tolerance" then c.handleHitTolerance else standard.handleHitTolerance
  rotateHandleOffset :=
    if kept "rotate_handle_offset" then c.rotateHandleOffset else standard.rotateHandleOffset

theorem GridConfig.ofJson?_of_keeps {g : GridConfig α} (h : ∀ x ∈ g.scalars, ReadsBack x)
    {kept : String → Bool} {members : List (Option String × Json)}
    (hkeeps : Keeps g.fields kept members) :
    ofJson? (Json.object members) = some (g.keeping kept) := by
  simp only [scalars, List.forall_mem_cons] at h
  have hread := hkeeps.slots?_eq (by simp [fields])
  refine (congrArg (Option.bind · _) hread).trans ?_
  simp [fields, withDefault?_slot (readsBack_bool g.enabled).reads, withDefault?_slot h.1.reads,
    keeping]

/-- **What a file leaves out keeps its standard value**, and nothing else does: the members may keep
    any of the fields, in any order and among members of other names, and so may the grid. -/
theorem Config.ofJson?_of_keeps {c : Config α} (h : ∀ x ∈ c.scalars, ReadsBack x)
    {kept keptGrid : String → Bool} {members gridMembers : List (Option String × Json)}
    (hgrid : Keeps c.grid.fields keptGrid gridMembers)
    (hkeeps : Keeps (c.fields (.object gridMembers)) kept members) :
    ofJson? (Json.object members) = some (c.keeping kept keptGrid) := by
  simp only [scalars, List.forall_mem_append, List.forall_mem_cons] at h
  obtain ⟨⟨hsnap, hdrag, hcoarse, hrotation, htolerance, hoffset, -⟩, hsize⟩ := h
  have hread := hkeeps.slots?_eq (by simp [fields])
  refine (congrArg (Option.bind · _) hread).trans ?_
  simp [fields, withDefault?_slot hsnap.reads, withDefault?_slot hdrag.reads,
    withDefault?_slot hcoarse.reads, withDefault?_slot hrotation.reads,
    withDefault?_slot htolerance.reads, withDefault?_slot hoffset.reads,
    withDefault?_slot (GridConfig.ofJson?_of_keeps hsize hgrid),
    withDefault?_slot (readsBack_uint64 c.cloneRevertDelay).reads, keeping]

/-- A record with all its fields is kept as a whole. -/
theorem GridConfig.readsBack {g : GridConfig α} (h : ∀ x ∈ g.scalars, ReadsBack x) :
    ReadsBack g where
  writable := by
    simp only [scalars, List.forall_mem_cons] at h
    exact writable_record (by simp [readsBack_bool, h.1])
  reads := ofJson?_of_keeps h (keeps_record g.fields)

theorem Config.readsBack {c : Config α} (h : ∀ x ∈ c.scalars, ReadsBack x) : ReadsBack c where
  writable := by
    simp only [scalars, List.forall_mem_append, List.forall_mem_cons] at h
    obtain ⟨⟨hsnap, hdrag, hcoarse, hrotation, htolerance, hoffset, -⟩, hsize⟩ := h
    exact writable_record (by simp [hsnap, hdrag, hcoarse, hrotation, htolerance, hoffset,
      GridConfig.readsBack hsize, readsBack_uint64])
  reads := ofJson?_of_keeps h (keeps_record c.grid.fields)
    (keeps_record (c.fields (toJson c.grid)))

/-! ## All of them -/

/-- The numbers are finite, and among those that are known to be restored. -/
def FiniteAmong (numbers : Binary64 → Prop) (xs : List Binary64) : Prop :=
  ∀ x ∈ xs, numbers x ∧ x.isFinite = true

/-- **Whatever is persisted is restored**, as long as its numbers are finite and a finite number is
    restored by itself. A patch is written with its identity and the fields that are set, and exactly
    those are read as set. And of a configuration any fields may be left out, also of its grid, the
    others may be in any order and among members of other names: then it is read with what it kept
    and the standard values for the rest. -/
theorem restored_of_finite {numbers : Binary64 → Prop}
    (hread : ∀ x, numbers x → x.isFinite = true → Restored x) :
    (∀ c : Config Binary64, FiniteAmong numbers c.scalars → Restored c ∧
      ∀ kept keptGrid members gridMembers text, Keeps c.grid.fields keptGrid gridMembers →
        Keeps (c.fields (.object gridMembers)) kept members →
        parse? text = some (.object members) →
        Config.ofText? text = some (c.keeping kept keptGrid)) ∧
    (∀ p : Patch Binary64, FiniteAmong numbers p.scalars → Restored p ∧
      toJson p = .record (p.fields.filter (p.sets ·.1)) ∧
      ∀ members, Keeps p.fields p.sets members → ofJson? (Json.object members) = some p) ∧
    (∀ s : Shape Binary64, FiniteAmong numbers s.scalars → Restored s) ∧
    (∀ f : Form Binary64, FiniteAmong numbers f.scalars → Restored f) ∧
    (∀ b : OrientedBox Binary64, FiniteAmong numbers b.scalars → Restored b) ∧
    (∀ l : SnapLine Binary64, FiniteAmong numbers l.scalars → Restored l) ∧
    (∀ c : Candidate Binary64, FiniteAmong numbers c.scalars → Restored c) ∧
    (∀ c : Camera Binary64, FiniteAmong numbers c.scalars → Restored c) ∧
    ∀ h : Handle, Restored h := by
  have hnumbers : ∀ {xs : List Binary64}, FiniteAmong numbers xs → ∀ x ∈ xs, ReadsBack x :=
    fun h x hx => (readsBack_iff x.writable_toJson).2 (hread x (h x hx).1 (h x hx).2)
  refine ⟨fun c h => ⟨(Config.readsBack (hnumbers h)).restored, ?_⟩, fun p h => ?_,
    fun s h => (Shape.readsBack (hnumbers h)).restored,
    fun f h => (Form.readsBack (hnumbers h)).restored,
    fun b h => (OrientedBox.readsBack (hnumbers h)).restored,
    fun l h => (SnapLine.readsBack (hnumbers h)).restored,
    fun c h => (Candidate.readsBack (hnumbers h)).restored,
    fun c h => (Camera.readsBack (hnumbers h)).restored,
    fun h => (Handle.readsBack h).restored⟩
  · intro kept keptGrid members gridMembers text hgrid hkeeps htext
    rw [Config.ofText?, htext, Option.bind_some, Config.ofJson?_of_keeps (hnumbers h) hgrid hkeeps]
  · exact ⟨(Patch.readsBack rfl (hnumbers h)).restored, p.toJson_eq,
      fun members => Patch.ofJson?_of_keeps rfl (hnumbers h)⟩

/-- A file that names one distance and the size of the grid, and something unknown between them. -/
theorem restored_of_finite_config :
    let numbers : Binary64 → Prop := fun x => ofJson? (toJson x) = some x
    let c : Config Binary64 :=
      { Config.standard with dragDistance := 4.5, snapDistance := 20.0, grid := ⟨true, 25.5⟩ }
    let read : Config Binary64 :=
      { Config.standard with dragDistance := 4.5, grid := ⟨false, 25.5⟩ }
    let grid : List (Option String × Json) := [(some "size", toJson (25.5 : Binary64))]
    let members : List (Option String × Json) :=
      [(some "drag_distance", toJson (4.5 : Binary64)), (some "version", .number (.ofInt 2)),
        (some "grid", .object grid)]
    (∀ x, numbers x → x.isFinite = true → Restored x) ∧ FiniteAmong numbers c.scalars ∧
      Restored c ∧ Config.ofText? (Json.object members).compact = some read := by
  intro numbers c read grid members
  have hread : ∀ x, numbers x → x.isFinite = true → Restored x := fun x hx _ =>
    ReadsBack.restored ⟨x.writable_toJson, hx⟩
  have hfinite : ∀ x ∈ c.scalars, ofJson? (toJson x) = some x ∧ x.isFinite = true := by
    clear hread members grid read numbers
    decide +kernel +revert
  obtain ⟨hrestored, hkeeps⟩ := (restored_of_finite hread).1 c hfinite
  have hgrid : Keeps c.grid.fields (· == "size") grid := ⟨[], nofun, .refl _⟩
  have hmembers : Keeps (c.fields (.object grid)) (fun n => n == "drag_distance" || n == "grid")
      members :=
    ⟨[("version", .number (.ofInt 2))], by simp [Config.fields], .cons _ (.swap _ _ _)⟩
  have hwritable : (Json.object grid).Writable :=
    .object (by simp [grid]) (by simp [grid, Binary64.writable_toJson])
  have htext : parse? (Json.object members).compact = some (.object members) :=
    parse?_compact (.object (by simp [members]) (by
      simp [members, Binary64.writable_toJson, hwritable, Writable.number (Numeral.proper_ofInt 2)]))
  exact ⟨hread, hfinite, hrestored, hkeeps _ _ _ _ _ hgrid hmembers htext⟩

end CanvasTransform
