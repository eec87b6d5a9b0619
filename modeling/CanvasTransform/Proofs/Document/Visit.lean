import CanvasTransform.Proofs.Document.Forest
import Mathlib.Data.List.Nodup
import Mathlib.Logic.Function.Iterate

set_option autoImplicit false

/-! # The walk from the page

`frontToBack` goes down from the page and leaves out the shapes that `skip` names, each with everything
beneath it. It meets the shapes from which following parents leads to the page past no shape that is
skipped (`Shallow.mem_frontToBack_iff`), and none of them twice (`Shallow.nodup_frontToBack`).

The walk is written by levels, of which it gets as many as the document has shapes. That is enough
because a chain of parents that ends at the page holds no shape twice. `Search` is the same walk
without a limit, with a stack of the shapes that are still to be looked at. Each branch of the tree
takes it a number of turns to do away with, and what it then has met is what the walk by levels meets
there (`Shallow.exists_iterate_branch`); so it comes to an end (`Shallow.search_ends`). -/

namespace CanvasTransform.Document

variable {α : Type} {d : Document α} {skip : ShapeId → Bool} {n : ℕ} {a b child id x : ShapeId}

/-! ## Depth -/

theorem Shallow.depth_le_of_inside (hd : d.Shallow) (h : d.Inside a x) : d.depth a ≤ d.depth x := by
  rcases h with rfl | h
  · exact Nat.le_refl _
  · exact Nat.le_of_lt (hd.depth_lt_of_mem_ancestors h)

/-- A chain of parents that ends at the page is in the document, so there are fewer shapes above than
    the document has. -/
theorem Shallow.depth_lt_size (hd : d.Shallow) (h : d.Rooted (.shape id)) : d.depth id < d.size := by
  have hsub : id :: d.ancestors id ⊆ d.shapes.keys := by
    intro a ha
    rw [mem_keys_iff]
    rcases List.mem_cons.1 ha with rfl | ha
    · exact h.contains
    · exact (h.above (hd.above_iff.2 ha)).contains
  have hle := (List.subperm_of_subset (hd.acyclic.nodup_walk maxDepth id) hsub).length_le
  rwa [List.length_cons, Std.TreeMap.length_keys] at hle

/-- Of the shapes on the way from a shape down to another one, all but the first lie inside the child
    through which the way leads. -/
theorem Shallow.eq_or_inside_child (hd : d.Shallow) (hp : d.parentId? child = some a)
    (hx : d.Inside child x) (hab : d.Inside a b) (hbx : d.Inside b x) : b = a ∨ d.Inside child b := by
  rcases hd.inside_total hx hbx with h | rfl | h
  · exact Or.inr h
  · exact Or.inr (Inside.refl d child)
  · obtain ⟨parent, hp', rfl | hb⟩ := hd.mem_ancestors_iff.1 h
    · exact Or.inl (Option.some.inj (hp'.symm.trans hp))
    · obtain rfl := Option.some.inj (hp'.symm.trans hp)
      have hlt := hd.depth_lt_of_mem_ancestors hb
      have hle := hd.depth_le_of_inside hab
      omega

/-- What lies inside a shape with a place on the page has one too. -/
theorem Shallow.rooted_of_inside (hd : d.Shallow) (ha : d.Rooted (.shape a)) (h : d.Inside a x) :
    d.Rooted (.shape x) := by
  induction x using hd.induction with
  | step x ih =>
      rcases h with rfl | h
      · exact ha
      · obtain ⟨parent, hp, hor⟩ := hd.mem_ancestors_iff.1 h
        exact (ih parent hp (hor.imp_left Eq.symm)).child hp

/-- A shape with a place on the page lies inside one that hangs from the page. -/
theorem Shallow.exists_root (hd : d.Shallow) (hkeyed : d.Keyed) (h : d.Rooted (.shape x)) :
    ∃ root ∈ d.children .page, d.Inside root x := by
  induction x using hd.induction with
  | step x ih =>
      cases hp : d.parentId? x with
      | none =>
          obtain ⟨s, hs⟩ := contains_iff.1 h.contains
          refine ⟨x, (mem_children_iff hkeyed).2 ⟨s, hs, ?_⟩, Inside.refl d x⟩
          cases hparent : s.parent with
          | page => rfl
          | shape parent =>
              rw [parentId?_eq_some_iff.2 ⟨s, hs, hparent⟩] at hp
              exact nomatch hp
      | some parent =>
          obtain ⟨root, hroot, hinside⟩ := ih parent hp (h.above (.parent hp))
          exact ⟨root, hroot, hd.inside_of_parentId? hp hinside⟩

/-- Nothing lies above a shape that hangs from the page. -/
theorem of_mem_children_page (hkeyed : d.Keyed) (h : id ∈ d.children .page) :
    d.Rooted (.shape id) ∧ d.ancestors id = [] := by
  obtain ⟨s, hs, hparent⟩ := (mem_children_iff hkeyed).1 h
  exact ⟨.shape hs (hparent ▸ .page), ancestors_eq_nil (parentId?_eq_none hs hparent)⟩

/-! ## Branches -/

/-- What the walk meets of a shape and what is beneath it, `n` levels down. -/
def branch (d : Document α) (skip : ShapeId → Bool) (n : ℕ) (id : ShapeId) : List ShapeId :=
  if skip id then [] else id :: d.visitFrontToBack skip n (.shape id)

theorem visitFrontToBack_succ (n : ℕ) (parent : Parent) : d.visitFrontToBack skip (n + 1) parent =
    (d.children parent).reverse.flatMap (d.branch skip n) := rfl

/-- A branch holds the shapes inside that are not too deep and to which the way down is not cut off. -/
theorem Shallow.mem_branch_iff (hd : d.Shallow) (hkeyed : d.Keyed) : x ∈ d.branch skip n id ↔
    d.Inside id x ∧ d.depth x ≤ d.depth id + n ∧
      ∀ b, d.Inside id b → d.Inside b x → skip b = false := by
  induction n generalizing id with
  | zero =>
      have honly : x ∈ d.branch skip 0 id ↔ x = id ∧ skip id = false := by
        unfold branch visitFrontToBack
        cases skip id <;> simp
      rw [honly]
      constructor
      · rintro ⟨rfl, hskip⟩
        refine ⟨Inside.refl d x, Nat.le_refl _, fun b hxb hbx => ?_⟩
        rcases hxb with rfl | hxb
        · exact hskip
        · have hlt := hd.depth_lt_of_mem_ancestors hxb
          have hle := hd.depth_le_of_inside hbx
          omega
      · rintro ⟨hinside, hle, hopen⟩
        rcases hinside with rfl | hmem
        · exact ⟨rfl, hopen x (Inside.refl d x) (Inside.refl d x)⟩
        · have hlt := hd.depth_lt_of_mem_ancestors hmem
          omega
  | succ n ih =>
      have hstep : x ∈ d.branch skip (n + 1) id ↔ skip id = false ∧
          (x = id ∨ ∃ child, d.parentId? child = some id ∧ x ∈ d.branch skip n child) := by
        rw [branch, visitFrontToBack_succ]
        cases skip id <;> simp [mem_children_shape_iff hkeyed]
      rw [hstep]
      constructor
      · rintro ⟨hskip, rfl | ⟨child, hp, hx⟩⟩
        · refine ⟨Inside.refl d x, Nat.le_add_right _ _, fun b hxb hbx => ?_⟩
          rcases hxb with rfl | hxb
          · exact hskip
          · have hlt := hd.depth_lt_of_mem_ancestors hxb
            have hle := hd.depth_le_of_inside hbx
            omega
        · obtain ⟨hinside, hle, hopen⟩ := ih.1 hx
          rw [hd.depth_eq_succ hp] at hle
          refine ⟨hd.inside_trans (hd.inside_of_parentId? hp (Inside.refl d id)) hinside,
            by omega, fun b hib hbx => ?_⟩
          rcases hd.eq_or_inside_child hp hinside hib hbx with rfl | hcb
          · exact hskip
          · exact hopen b hcb hbx
      · rintro ⟨hinside, hle, hopen⟩
        refine ⟨hopen id (Inside.refl d id) hinside, hinside.imp_right fun hmem => ?_⟩
        obtain ⟨child, hp, hchild⟩ := hd.mem_ancestors_iff_child.1 hmem
        refine ⟨child, hp, ih.2 ⟨hchild, ?_, fun b hcb hbx => hopen b ?_ hbx⟩⟩
        · rw [hd.depth_eq_succ hp]
          omega
        · exact hd.inside_trans (hd.inside_of_parentId? hp (Inside.refl d id)) hcb

/-- Branches of different shapes at the same depth have nothing in common. -/
theorem Shallow.nodup_flatMap_branch (hd : d.Shallow) (hkeyed : d.Keyed) {ids : List ShapeId}
    (hnodup : ids.Nodup) (hdepth : ∀ a ∈ ids, ∀ b ∈ ids, d.depth a = d.depth b)
    (hbranch : ∀ a ∈ ids, (d.branch skip n a).Nodup) : (ids.flatMap (d.branch skip n)).Nodup := by
  refine List.nodup_flatMap.2 ⟨hbranch, hnodup.imp_of_mem fun ha hb hne => ?_⟩
  refine List.disjoint_left.2 fun x hxa hxb => ?_
  exact hne (hd.eq_of_inside (hdepth _ ha _ hb) ((hd.mem_branch_iff hkeyed).1 hxa).1
    ((hd.mem_branch_iff hkeyed).1 hxb).1)

theorem Shallow.nodup_branch (hd : d.Shallow) (hkeyed : d.Keyed) (n : ℕ) (id : ShapeId) :
    (d.branch skip n id).Nodup := by
  induction n generalizing id with
  | zero =>
      unfold branch visitFrontToBack
      cases skip id <;> simp
  | succ n ih =>
      have hparent : ∀ child ∈ (d.children (.shape id)).reverse, d.parentId? child = some id :=
        fun child h => (mem_children_shape_iff hkeyed).1 (List.mem_reverse.1 h)
      unfold branch
      split_ifs
      · exact List.nodup_nil
      · rw [visitFrontToBack_succ, List.nodup_cons]
        refine ⟨fun hmem => ?_, hd.nodup_flatMap_branch hkeyed
          (List.nodup_reverse.2 (hkeyed.nodup_children _)) (fun a ha b hb => ?_) fun a _ => ih a⟩
        · obtain ⟨child, hchild, hmem⟩ := List.mem_flatMap.1 hmem
          exact hd.not_inside_parent (hparent child hchild) ((hd.mem_branch_iff hkeyed).1 hmem).1
        · rw [hd.depth_eq_succ (hparent a ha), hd.depth_eq_succ (hparent b hb)]

/-! ## The whole walk -/

/-- The walk from the page goes through the branches of what hangs from it, all the way down. -/
theorem Shallow.exists_frontToBack_eq (hd : d.Shallow) (hkeyed : d.Keyed) (skip : ShapeId → Bool) :
    ∃ n, d.size ≤ n + 1 ∧
      d.frontToBack skip = (d.children .page).reverse.flatMap (d.branch skip n) := by
  rw [frontToBack]
  cases hsize : d.size with
  | zero =>
      have hnone : d.children .page = [] := by
        refine List.eq_nil_iff_forall_not_mem.2 fun id hid => ?_
        have hlt := hd.depth_lt_size (of_mem_children_page hkeyed hid).1
        omega
      exact ⟨0, Nat.zero_le _, by rw [hnone]; rfl⟩
  | succ n => exact ⟨n, Nat.le_refl _, rfl⟩

/-- **What the walk meets**: the shapes with a place on the page that neither are skipped nor lie inside a
    shape that is. -/
theorem Shallow.mem_frontToBack_iff (hd : d.Shallow) (hkeyed : d.Keyed) :
    x ∈ d.frontToBack skip ↔ d.Rooted (.shape x) ∧ ∀ b, d.Inside b x → skip b = false := by
  obtain ⟨n, hn, heq⟩ := hd.exists_frontToBack_eq hkeyed skip
  rw [heq]
  simp only [List.mem_flatMap, List.mem_reverse, hd.mem_branch_iff hkeyed]
  constructor
  · rintro ⟨root, hroot, hinside, -, hopen⟩
    obtain ⟨hrooted, hnone⟩ := of_mem_children_page hkeyed hroot
    refine ⟨hd.rooted_of_inside hrooted hinside, fun b hbx => hopen b ?_ hbx⟩
    rcases hd.inside_total hinside hbx with h | rfl | h
    · exact h
    · exact Inside.refl d root
    · rw [hnone] at h
      exact absurd h List.not_mem_nil
  · rintro ⟨hrooted, hopen⟩
    obtain ⟨root, hroot, hinside⟩ := hd.exists_root hkeyed hrooted
    have hlt := hd.depth_lt_size hrooted
    exact ⟨root, hroot, hinside, by omega, fun b _ hbx => hopen b hbx⟩

theorem Shallow.nodup_frontToBack (hd : d.Shallow) (hkeyed : d.Keyed) : (d.frontToBack skip).Nodup := by
  obtain ⟨n, -, heq⟩ := hd.exists_frontToBack_eq hkeyed skip
  have hdepth : ∀ a ∈ (d.children .page).reverse, d.depth a = 0 := fun a ha => by
    rw [depth, (of_mem_children_page hkeyed (List.mem_reverse.1 ha)).2, List.length_nil]
  rw [heq]
  exact hd.nodup_flatMap_branch hkeyed (List.nodup_reverse.2 (hkeyed.nodup_children _))
    (fun a ha b hb => (hdepth a ha).trans (hdepth b hb).symm) fun a _ => hd.nodup_branch hkeyed n a

/-! ## With a stack -/

/-- Where a walk with a stack has got to. -/
structure Search where
  /-- The shapes that were met, in this order. -/
  met : List ShapeId
  /-- The shapes that are still to be looked at, the next one first. -/
  stack : List ShapeId

namespace Search

/-- One turn of the walk. The next shape is taken off the stack. If it is not skipped, it has been met,
    and its children go on the stack, the frontmost one on top. -/
def step (d : Document α) (skip : ShapeId → Bool) (s : Search) : Search :=
  match s.stack with
  | [] => s
  | id :: rest =>
    if skip id then ⟨s.met, rest⟩
    else ⟨s.met ++ [id], (d.children (.shape id)).reverse ++ rest⟩

/-- The walk from the page, before its first turn. -/
def start (d : Document α) : Search := ⟨[], (d.children .page).reverse⟩

variable {f : ShapeId → List ShapeId}

/-- Shapes on the stack are done away with one after the other. -/
theorem exists_iterate_append {ids : List ShapeId}
    (h : ∀ id ∈ ids, ∀ met rest, ∃ k, (step d skip)^[k] ⟨met, id :: rest⟩ = ⟨met ++ f id, rest⟩)
    (met rest : List ShapeId) :
    ∃ k, (step d skip)^[k] ⟨met, ids ++ rest⟩ = ⟨met ++ ids.flatMap f, rest⟩ := by
  induction ids generalizing met with
  | nil => exact ⟨0, by simp⟩
  | cons id ids ih =>
      obtain ⟨k, hk⟩ := h id (.head _) met (ids ++ rest)
      obtain ⟨l, hl⟩ := ih (fun id hid => h id (.tail _ hid)) (met ++ f id)
      refine ⟨l + k, ?_⟩
      rw [Function.iterate_add_apply, List.cons_append, hk, hl, List.flatMap_cons, List.append_assoc]

end Search

/-- The walk with a stack does away with a shape on top of the stack, and meets what is in the branch. -/
theorem Shallow.exists_iterate_branch (hd : d.Shallow) (hkeyed : d.Keyed)
    (h : d.Rooted (.shape id)) (hn : d.size ≤ d.depth id + n + 1) (met rest : List ShapeId) :
    ∃ k, (Search.step d skip)^[k] ⟨met, id :: rest⟩ = ⟨met ++ d.branch skip n id, rest⟩ := by
  -- Levels that are not in the document are not needed, so the last level has no children.
  induction n generalizing id met rest with
  | zero =>
      have hnone : d.children (.shape id) = [] := by
        refine List.eq_nil_iff_forall_not_mem.2 fun child hchild => ?_
        have hp := (mem_children_shape_iff hkeyed).1 hchild
        have hlt := hd.depth_lt_size (h.child hp)
        rw [hd.depth_eq_succ hp] at hlt
        omega
      refine ⟨1, ?_⟩
      simp only [Function.iterate_one, Search.step, branch, visitFrontToBack, hnone]
      cases skip id <;> simp
  | succ n ih =>
      have hchildren : ∀ child ∈ (d.children (.shape id)).reverse, ∀ met rest, ∃ k,
          (Search.step d skip)^[k] ⟨met, child :: rest⟩ = ⟨met ++ d.branch skip n child, rest⟩ := by
        intro child hchild
        have hp := (mem_children_shape_iff hkeyed).1 (List.mem_reverse.1 hchild)
        exact ih (h.child hp) (by rw [hd.depth_eq_succ hp]; omega)
      cases hskip : skip id with
      | true => exact ⟨1, by simp [Search.step, branch, hskip]⟩
      | false =>
          obtain ⟨k, hk⟩ := Search.exists_iterate_append hchildren (met ++ [id]) rest
          refine ⟨k + 1, ?_⟩
          rw [Function.iterate_succ_apply, Search.step]
          simp only [hskip, Bool.false_eq_true, if_false]
          rw [hk, branch, hskip, if_neg Bool.false_ne_true, visitFrontToBack_succ, List.append_assoc,
            List.singleton_append]

/-- **The walk with a stack comes to an end**, with what the walk by levels meets. -/
theorem Shallow.search_ends (hd : d.Shallow) (hkeyed : d.Keyed) (skip : ShapeId → Bool) :
    ∃ k, ∀ m, k ≤ m → (Search.step d skip)^[m] (.start d) = ⟨d.frontToBack skip, []⟩ := by
  obtain ⟨n, hn, heq⟩ := hd.exists_frontToBack_eq hkeyed skip
  have hroots : ∀ id ∈ (d.children .page).reverse, ∀ met rest, ∃ k,
      (Search.step d skip)^[k] ⟨met, id :: rest⟩ = ⟨met ++ d.branch skip n id, rest⟩ := by
    intro id hid
    exact hd.exists_iterate_branch hkeyed (of_mem_children_page hkeyed (List.mem_reverse.1 hid)).1
      (by omega)
  obtain ⟨k, hk⟩ := Search.exists_iterate_append hroots [] []
  rw [List.append_nil, List.nil_append, ← heq] at hk
  refine ⟨k, fun m hm => ?_⟩
  obtain ⟨j, rfl⟩ := Nat.exists_eq_add_of_le' hm
  rw [Function.iterate_add_apply, Search.start, hk]
  exact Function.iterate_fixed rfl j

end CanvasTransform.Document
