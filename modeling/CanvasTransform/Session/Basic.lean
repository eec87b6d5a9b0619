import CanvasTransform.Document.Store
import CanvasTransform.Selection.Snapshot
import CanvasTransform.Session.Flags
import CanvasTransform.TaskQueue
import CanvasTransform.Transform.Batch

set_option autoImplicit false

/-! # Sessions

A session is a drag in progress. Each move computes its updates from the snapshot, never from the
result of the move before, so what earlier moves wrote is restored underneath the new updates, and
what a container did to itself on one move never leaks into the next.

For that, and to undo everything, the session keeps a *baseline*: every shape that it has written, as
it was before the first write. These are more shapes than the snapshot has, since containers react
to what happens inside them. -/

namespace CanvasTransform

/-- What a session does with the way the pointer has come. -/
inductive SessionKind
  | resize (h : Handle)
  | rotate
  | translate
deriving DecidableEq

/-- Work that a session puts off. It changes what is shown and never a shape. -/
inductive CosmeticTask
  | clearCloning
deriving DecidableEq

/-- A drag in progress. -/
structure Session (α : Type) where
  kind : SessionKind
  /-- Where the pointer went down, on the page. -/
  origin : Point α
  /-- Where the pointer is now, on the page. -/
  current : Point α
  flags : Flags
  snapshot : Snapshot α
  /-- Every shape the session has written, as it was before. -/
  baseline : Document α
  tasks : TaskQueue CosmeticTask
  /-- The task that will clear the cloning indicator, while one is waiting. -/
  cloneTask : Option Nat
  /-- Whether the cloning indicator is showing. -/
  cloning : Bool

namespace Session

variable {α : Type}

/-- The session that starts with a press at `origin`. A translation that starts with alt held shows
    the cloning indicator. -/
def start (kind : SessionKind) (origin : Point α) (flags : Flags) (snapshot : Snapshot α) :
    Session α :=
  { kind, origin, flags, snapshot
    current := origin
    baseline := Document.empty
    tasks := TaskQueue.empty
    cloneTask := none
    cloning := kind == .translate && flags.alt }

/-- The session with the pointer and the modifiers as they are now. -/
def moveTo (s : Session α) (p : Point α) (flags : Flags) : Session α :=
  { s with current := p, flags }

/-! ## The cloning indicator -/

/-- Follow the alt key during a translation. A press shows the indicator at once; a release clears
    it after `delay`, unless alt is pressed again before. -/
def setAlt (s : Session α) (alt : Bool) (now delay : Nat) : Session α :=
  if s.kind != .translate then s
  else if alt then
    match s.cloneTask with
    | some handle =>
      { s with cloning := true, cloneTask := none, tasks := (s.tasks.cancel handle).2 }
    | none => { s with cloning := true }
  else if s.cloning && s.cloneTask.isNone then
    let (handle, tasks) := s.tasks.schedule now delay .clearCloning
    { s with tasks, cloneTask := some handle }
  else s

/-- Do one cosmetic task. -/
def perform (s : Session α) : CosmeticTask → Session α
  | .clearCloning => { s with cloning := false, cloneTask := none }

/-- Do the cosmetic tasks that are due. -/
def tick (s : Session α) (now : Nat) : Session α :=
  let (due, tasks) := s.tasks.drainDue now
  due.foldl perform { s with tasks }

/-! ## Writing and undoing -/

/-- The baseline, with the shapes of a batch that are about to be written for the first time. -/
def recordBaseline (s : Session α) (d : Document α) (batch : List (Patch α)) : Document α :=
  batch.foldl
    (fun baseline p =>
      if baseline.contains p.id then baseline
      else
        match d.get? p.id with
        | some shape => baseline.put shape
        | none => baseline)
    s.baseline

/-- The patches that undo everything the session wrote, and restore every captured shape. -/
def revert (s : Session α) : List (Patch α) :=
  s.baseline.toList.map Patch.restore ++
    (s.snapshot.shapes.filter fun shape => !s.baseline.contains shape.id).map Patch.restore

/-- Write updates as one batch: on top of the baseline, and with the reactions of containers. -/
def commit [Scalar α] (s : Session α) (registry : Registry α) (store : Store α)
    (updates : List (Patch α)) : Session α × Store α :=
  let batch := Canvas.batch ⟨store.document, registry⟩
    (s.baseline.toList.map Patch.restore ++ updates)
  ({ s with baseline := s.recordBaseline store.document batch }, store.update batch)

end Session

end CanvasTransform
