import CanvasTransform.Document.Basic

set_option autoImplicit false

/-! # The tree of shapes

Walking up and down the parent relation. Every walk is bounded: upward walks and the public
`descendants` stop after `maxDepth` levels, which guards against malformed documents, and the walks
that must reach everything stop after as many levels as the document has shapes, which no forest
exceeds. -/

namespace CanvasTransform.Document

variable {α : Type}

/-- The longest chain of parents that queries follow. -/
def maxDepth : Nat := 256

/-! ## Upward -/

/-- The shape that `id` hangs from, if it hangs from a shape. -/
def parentId? (d : Document α) (id : ShapeId) : Option ShapeId :=
  (d.get? id).bind (·.parent.shapeId?)

/-- The nearest `n` ancestors, nearest first. -/
def ancestorsWithin (d : Document α) : Nat → ShapeId → List ShapeId
  | 0, _ => []
  | n + 1, id =>
    match d.parentId? id with
    | some parent => parent :: d.ancestorsWithin n parent
    | none => []

/-- The ancestors, nearest first. -/
def ancestors (d : Document α) (id : ShapeId) : List ShapeId := d.ancestorsWithin maxDepth id

def isAncestor (d : Document α) (ancestor id : ShapeId) : Bool := (d.ancestors id).contains ancestor

section
variable [Scalar α]

/-- Follow the parents of `s` for at most `n` shapes, putting each frame's placement in front of the
    map collected so far. -/
def pageTransformFrom (d : Document α) : Nat → Shape α → Affine α → Option (Affine α)
  | 0, _, _ => none
  | n + 1, s, inner =>
    let outer := s.localTransform * inner
    match s.parent with
    | .page => some outer
    | .shape parent => (d.get? parent).bind fun p => d.pageTransformFrom n p outer

/-- The map from the shape's frame into the page, read off the chain of parents as it is now. There
    is none when the chain is broken or longer than `maxDepth`. -/
def pageTransform? (d : Document α) (id : ShapeId) : Option (Affine α) :=
  (d.get? id).bind fun s => d.pageTransformFrom maxDepth s Affine.identity

end

/-! ## Downward -/

/-- Everything up to `n` levels below `id`, each parent before its children and siblings back to
    front. -/
def below (d : Document α) : Nat → ShapeId → List ShapeId
  | 0, _ => []
  | n + 1, id => (d.children (.shape id)).flatMap fun child => child :: d.below n child

/-- The descendants, each parent before its children and siblings back to front. -/
def descendants (d : Document α) (id : ShapeId) : List ShapeId := d.below maxDepth id

/-- The shape and everything beneath it, however deep. -/
def subtree (d : Document α) (id : ShapeId) : List ShapeId := id :: d.below d.size id

/-- What lies in `parent`, up to `n` levels down, each parent before its children and siblings front
    to back. A shape that `skip` holds for is left out with everything beneath it. -/
def visitFrontToBack (d : Document α) (skip : ShapeId → Bool) : Nat → Parent → List ShapeId
  | 0, _ => []
  | n + 1, parent =>
    (d.children parent).reverse.flatMap fun id =>
      if skip id then [] else id :: d.visitFrontToBack skip n (.shape id)

/-- Everything that hangs from the page, front to back, without the subtrees that `skip` names. -/
def frontToBack (d : Document α) (skip : ShapeId → Bool) : List ShapeId :=
  d.visitFrontToBack skip d.size .page

/-! ## Selections -/

/-- The selected shapes that exist and have no selected ancestor, each once, in selection order. -/
def topLevel (d : Document α) (selection : List ShapeId) : List ShapeId :=
  (selection.filter fun id =>
    d.contains id && !(d.ancestors id).any selection.contains).eraseDups

end CanvasTransform.Document
