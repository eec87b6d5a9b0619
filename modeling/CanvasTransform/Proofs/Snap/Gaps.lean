import CanvasTransform.Proofs.Snap.Axes
import CanvasTransform.Snap.Candidate

set_option autoImplicit false

/-! # The gaps between candidates

A gap runs from one candidate to another, and is known by these two (`Gap.spanning`). Which pairs
enclose a gap is a question about the candidates as a set: candidates are sorted only so that each pair
is looked at once, with the one in front first, and a pair with free space between the two is always
met in that order. So the gaps are the same for any order of the candidates (`Gap.mem_findAll_iff`). -/

namespace CanvasTransform

open Scalar.LawfulOrder

namespace Gap

variable {α : Type} [Scalar α] {axis : Axis} {all shapes shapes' : List (Candidate α)}
  {s e : Candidate α} {g : Gap α}

/-! ## Two candidates -/

/-- The gap from `s` to `e`, whether there is free space or not. -/
def spanning (axis : Axis) (s e : Candidate α) : Gap α where
  start := s.id
  stop := e.id
  startBounds := s.bounds
  stopBounds := e.bounds
  length := axis.near e.bounds - axis.far s.bounds
  breadth := (Scalar.max (axis.cross.near s.bounds) (axis.cross.near e.bounds),
    Scalar.min (axis.cross.far s.bounds) (axis.cross.far e.bounds))

/-- There is free space between `s` and `e`, which meet across the axis, and no other candidate stands
    in it. -/
structure IsFree (axis : Axis) (all : List (Candidate α)) (s e : Candidate α) : Prop where
  apart : ¬ axis.near e.bounds ≤ axis.far s.bounds
  meets : ¬ (spanning axis s e).breadth.2 < (spanning axis s e).breadth.1
  clear : ∀ c ∈ all, c.id ≠ s.id → c.id ≠ e.id →
    blocks axis (axis.far s.bounds) (axis.near e.bounds) (spanning axis s e).breadth c = false

theorem between?_eq : between? axis all s e =
    if axis.near e.bounds ≤ axis.far s.bounds then none
    else if (spanning axis s e).breadth.2 < (spanning axis s e).breadth.1 then none
    else if all.any fun c => c.id != s.id && c.id != e.id &&
        blocks axis (axis.far s.bounds) (axis.near e.bounds) (spanning axis s e).breadth c
    then none
    else some (spanning axis s e) := rfl

theorem between?_eq_some_iff :
    between? axis all s e = some g ↔ IsFree axis all s e ∧ g = spanning axis s e := by
  have hclear : (all.any fun c => c.id != s.id && c.id != e.id &&
      blocks axis (axis.far s.bounds) (axis.near e.bounds) (spanning axis s e).breadth c) = false ↔
      ∀ c ∈ all, c.id ≠ s.id → c.id ≠ e.id →
        blocks axis (axis.far s.bounds) (axis.near e.bounds) (spanning axis s e).breadth c = false := by
    simp only [List.any_eq_false, Bool.and_eq_true, bne_iff_ne, not_and, Bool.not_eq_true, and_imp]
  rw [between?_eq]
  split_ifs with hapart hmeets hblocked
  · exact ⟨nofun, fun h => absurd hapart h.1.apart⟩
  · exact ⟨nofun, fun h => absurd hmeets h.1.meets⟩
  · exact ⟨nofun, fun h => absurd hblocked (Bool.eq_false_iff.1 (hclear.2 h.1.clear))⟩
  · constructor
    · rintro ⟨⟩
      exact ⟨⟨hapart, hmeets, hclear.1 (Bool.eq_false_iff.2 hblocked)⟩, rfl⟩
    · rintro ⟨-, rfl⟩
      rfl

/-- Whether two candidates enclose a gap does not depend on the order of the others. -/
theorem isFree_perm (h : all.Perm shapes) : IsFree axis all s e ↔ IsFree axis shapes s e :=
  ⟨fun hfree => ⟨hfree.apart, hfree.meets, fun c hc => hfree.clear c (h.mem_iff.2 hc)⟩,
    fun hfree => ⟨hfree.apart, hfree.meets, fun c hc => hfree.clear c (h.mem_iff.1 hc)⟩⟩

/-! ## All pairs -/

section
variable {β : Type} {r : β → β → Prop} {l : List β} {a b : β}

theorem mem_of_mem_pairs (h : (a, b) ∈ pairs l) : a ∈ l ∧ b ∈ l := by
  induction l with
  | nil => cases h
  | cons c rest ih =>
      rcases List.mem_append.1 h with hfirst | hrest
      · obtain ⟨d, hd, hpair⟩ := List.mem_map.1 hfirst
        cases hpair
        exact ⟨List.mem_cons_self, List.mem_cons_of_mem _ hd⟩
      · exact ⟨List.mem_cons_of_mem _ (ih hrest).1, List.mem_cons_of_mem _ (ih hrest).2⟩

/-- Of two elements of a sorted list, the one that does not come second comes first. -/
theorem mem_pairs_of_pairwise (hrefl : ∀ a, r a a) (hsorted : l.Pairwise r) (ha : a ∈ l) (hb : b ∈ l)
    (hab : ¬ r b a) : (a, b) ∈ pairs l := by
  induction l with
  | nil => cases ha
  | cons c rest ih =>
      obtain ⟨hfirst, hrest⟩ := List.pairwise_cons.1 hsorted
      rcases List.mem_cons.1 ha with rfl | harest
      · rcases List.mem_cons.1 hb with rfl | hbrest
        · exact absurd (hrefl _) hab
        · exact List.mem_append_left _ (List.mem_map_of_mem hbrest)
      · rcases List.mem_cons.1 hb with rfl | hbrest
        · exact absurd (hfirst _ harest) hab
        · exact List.mem_append_right _ (ih hrest harest hbrest)

end

/-! ## All gaps -/

variable [Scalar.LawfulOrder α]

theorem near_lt_near (hs : s.bounds.IsNumeric) (he : e.bounds.IsNumeric)
    (hfree : IsFree axis all s e) : axis.near s.bounds < axis.near e.bounds :=
  have hs := axis.near_le_far hs
  have he := axis.near_le_far he
  Scalar.lt_of_le_of_lt hs
    (Scalar.lt_of_not_le (isNumber_of_le he).1 (isNumber_of_le hs).2 hfree.apart)

/-- **The gaps are those of all pairs of candidates that enclose one.** -/
theorem mem_findAll_iff (hnumeric : ∀ c ∈ shapes, c.bounds.IsNumeric) :
    g ∈ findAll axis shapes ↔
      ∃ s ∈ shapes, ∃ e ∈ shapes, IsFree axis shapes s e ∧ g = spanning axis s e := by
  let le (s t : Candidate α) : Bool := Scalar.totalLe (axis.near s.bounds) (axis.near t.bounds)
  have hperm : (shapes.mergeSort le).Perm shapes := shapes.mergeSort_perm le
  have htrans : ∀ s t u, le s t = true → le t u = true → le s u = true := fun _ _ _ => totalLe_trans
  have htotal : ∀ s t, (le s t || le t s) = true := fun _ _ => totalLe_total _ _
  have hsorted : (shapes.mergeSort le).Pairwise fun s t => le s t = true :=
    List.pairwise_mergeSort htrans htotal shapes
  have hrefl : ∀ s, le s s = true := fun s => by simpa only [Bool.or_self] using htotal s s
  have hfind : findAll axis shapes = (pairs (shapes.mergeSort le)).filterMap fun p =>
    between? axis (shapes.mergeSort le) p.1 p.2 := rfl
  simp only [hfind, List.mem_filterMap, between?_eq_some_iff, isFree_perm hperm, Prod.exists]
  constructor
  · rintro ⟨s, e, hpair, hgap⟩
    obtain ⟨hs, he⟩ := mem_of_mem_pairs hpair
    exact ⟨s, hperm.mem_iff.1 hs, e, hperm.mem_iff.1 he, hgap⟩
  · rintro ⟨s, hs, e, he, hgap⟩
    have hlt := near_lt_near (hnumeric s hs) (hnumeric e he) hgap.1
    have hbehind : ¬ le e s = true := Bool.eq_false_iff.1 (totalLe_of_lt hlt)
    exact ⟨s, e, mem_pairs_of_pairwise hrefl hsorted (hperm.mem_iff.2 hs)
      (hperm.mem_iff.2 he) hbehind, hgap⟩

theorem mem_findAll_perm (hnumeric : ∀ c ∈ shapes, c.bounds.IsNumeric) (h : shapes.Perm shapes') :
    g ∈ findAll axis shapes ↔ g ∈ findAll axis shapes' := by
  rw [mem_findAll_iff hnumeric, mem_findAll_iff fun c hc => hnumeric c (h.mem_iff.2 hc)]
  simp only [h.mem_iff, isFree_perm h]

end Gap

namespace Candidates

variable {α : Type} [Scalar α]

@[simp] theorem gaps_ofShapes (shapes : List (Candidate α)) (axis : Axis) :
    (ofShapes shapes).gaps axis = Gap.findAll axis shapes := by
  cases axis <;> rfl

end Candidates

end CanvasTransform
