set_option autoImplicit false

/-! # Tasks with a deadline

A queue of tasks that wait for their time. Nothing runs on its own: the owner passes the time to
`TaskQueue.drainDue` and acts on the tasks it gets back. Times and delays are in milliseconds. -/

namespace CanvasTransform

/-- A task that waits until `due`. The handle names it for cancelling. -/
structure Task (τ : Type) where
  handle : Nat
  due : Nat
  payload : τ

/-- Tasks in the order in which they were scheduled, and the next handle to hand out. -/
structure TaskQueue (τ : Type) where
  nextHandle : Nat
  scheduled : List (Task τ)

namespace TaskQueue

variable {τ : Type}

def empty : TaskQueue τ := ⟨0, []⟩

def length (q : TaskQueue τ) : Nat := q.scheduled.length

def isEmpty (q : TaskQueue τ) : Bool := q.scheduled.isEmpty

/-- Let `task` become due `delay` after `now`. The handle is new.

    Times are natural numbers and have no end. A clock has one: a due time beyond what its instants
    can represent, where adding the delay panics and nothing is scheduled, is outside of the model. -/
def schedule (q : TaskQueue τ) (now delay : Nat) (task : τ) : Nat × TaskQueue τ :=
  (q.nextHandle, ⟨q.nextHandle + 1, q.scheduled ++ [⟨q.nextHandle, now + delay, task⟩]⟩)

/-- Drop a waiting task. The answer is false when it has run or was cancelled before. -/
def cancel (q : TaskQueue τ) (handle : Nat) : Bool × TaskQueue τ :=
  (q.scheduled.any (·.handle == handle),
    { q with scheduled := q.scheduled.filter (·.handle != handle) })

/-- Take out every task that is due at `now`, earliest first, and in order of scheduling among
    tasks due at the same time. -/
def drainDue (q : TaskQueue τ) (now : Nat) : List τ × TaskQueue τ :=
  let (due, waiting) := q.scheduled.partition (·.due ≤ now)
  ((due.mergeSort fun s t => s.due ≤ t.due).map (·.payload), { q with scheduled := waiting })

end TaskQueue

end CanvasTransform
