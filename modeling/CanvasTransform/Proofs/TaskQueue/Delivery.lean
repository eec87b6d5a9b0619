import CanvasTransform.TaskQueue
import Mathlib.Algebra.GroupWithZero.Nat
import Mathlib.Data.List.Basic
import Mathlib.Data.List.Count
import Mathlib.Data.List.Induction
import Mathlib.Data.List.Nodup

set_option autoImplicit false

/-! # Every task is delivered once

What a queue holds can be told from what was asked of it, without the queue: a task *waits* when a
request has scheduled it and none since has ended its wait (`TaskQueue.Waits`). A request to cancel ends
the wait of the task that it names, and a drain that of all tasks that are due by then. The times of the
requests may be in any order.

The invariant of every run (`TaskQueue.Holds`) is that the queue has exactly the tasks that wait, in the
order in which they were scheduled, and that the next handle is the number of tasks scheduled so far. So
a handle names one place in the run, and a task whose wait has ended never waits again
(`Waits.not_waits_append`). -/

namespace CanvasTransform

/-- The last of some requests is the one in question, or it came after that one. -/
theorem concat_eq_append_cons_iff {β : Type} {rs before since : List β} {r r' : β} :
    rs ++ [r] = before ++ r' :: since ↔
      (since = [] ∧ rs = before ∧ r = r') ∨
        ∃ since', since = since' ++ [r] ∧ rs = before ++ r' :: since' := by
  constructor
  · intro h
    rcases List.eq_nil_or_concat' since with rfl | ⟨since', last, rfl⟩
    · obtain ⟨hbefore, hlast⟩ := List.append_inj' h rfl
      exact Or.inl ⟨rfl, hbefore, List.singleton_inj.1 hlast⟩
    · rw [← List.cons_append, ← List.append_assoc] at h
      obtain ⟨hbefore, hlast⟩ := List.append_inj' h rfl
      rw [List.singleton_inj.1 hlast]
      exact Or.inr ⟨since', rfl, hbefore⟩
  · rintro (⟨rfl, rfl, rfl⟩ | ⟨since', rfl, rfl⟩)
    · rfl
    · simp

namespace TaskQueue

variable {τ : Type}

/-! ## Requests -/

/-- What the owner of a queue may ask of it. -/
inductive Request (τ : Type)
  | schedule (now delay : Nat) (task : τ)
  | cancel (handle : Nat)
  | drain (now : Nat)

/-- What the queue answers. -/
inductive Reply (τ : Type)
  | scheduled (handle : Nat)
  | cancelled (done : Bool)
  | drained (tasks : List τ)
deriving DecidableEq

def serve (q : TaskQueue τ) : Request τ → Reply τ × TaskQueue τ
  | .schedule now delay task =>
    (.scheduled (q.schedule now delay task).1, (q.schedule now delay task).2)
  | .cancel handle => (.cancelled (q.cancel handle).1, (q.cancel handle).2)
  | .drain now => (.drained (q.drainDue now).1, (q.drainDue now).2)

/-- The queue after requests. -/
def serveAll (q : TaskQueue τ) (rs : List (Request τ)) : TaskQueue τ :=
  rs.foldl (fun q r => (q.serve r).2) q

/-- The answers to requests. -/
def replies (q : TaskQueue τ) : List (Request τ) → List (Reply τ)
  | [] => []
  | r :: rs => (q.serve r).1 :: replies (q.serve r).2 rs

theorem serveAll_concat (q : TaskQueue τ) (rs : List (Request τ)) (r : Request τ) :
    q.serveAll (rs ++ [r]) = ((q.serveAll rs).serve r).2 := by
  simp [serveAll]

theorem replies_concat (q : TaskQueue τ) (rs : List (Request τ)) (r : Request τ) :
    q.replies (rs ++ [r]) = q.replies rs ++ [((q.serveAll rs).serve r).1] := by
  induction rs generalizing q with
  | nil => rfl
  | cons r' rs ih => simp [replies, serveAll, ih]

namespace Reply

/-- The handle that is handed out. -/
def handle? : Reply τ → Option Nat
  | scheduled handle => some handle
  | _ => none

/-- How many tasks are handed out. -/
def returned : Reply τ → Nat
  | drained tasks => tasks.length
  | _ => 0

/-- How many tasks are dropped. -/
def dropped : Reply τ → Nat
  | cancelled true => 1
  | _ => 0

end Reply

/-! ## What waits -/

/-- The task that a request brings, when `n` were scheduled before. -/
def Request.task? (n : Nat) : Request τ → Option (Task τ)
  | .schedule now delay task => some ⟨n, now + delay, task⟩
  | _ => none

/-- Whether a request ends the wait of a task. -/
def Request.Ends (t : Task τ) : Request τ → Prop
  | .schedule _ _ _ => False
  | .cancel handle => t.handle = handle
  | .drain now => t.due ≤ now

/-- How many tasks the requests schedule. -/
def schedules (rs : List (Request τ)) : Nat := rs.countP fun r => (r.task? 0).isSome

/-- The task waits after these requests: one has scheduled it, and none since has ended its wait. -/
def Waits (rs : List (Request τ)) (t : Task τ) : Prop :=
  ∃ before r since, rs = before ++ r :: since ∧ r.task? (schedules before) = some t ∧
    ∀ r' ∈ since, ¬ r'.Ends t

variable {rs : List (Request τ)} {r : Request τ} {t : Task τ} {n : Nat}

theorem Request.handle_of_task? (h : r.task? n = some t) : t.handle = n := by
  cases r with
  | schedule now delay task =>
      obtain rfl := Option.some.inj h
      rfl
  | _ => exact nomatch h

theorem schedules_concat (rs : List (Request τ)) (r : Request τ) :
    schedules (rs ++ [r]) = schedules rs + if (r.task? 0).isSome then 1 else 0 := by
  simp [schedules, List.countP_singleton]

theorem schedules_concat_of_task? (h : r.task? n = some t) :
    schedules (rs ++ [r]) = schedules rs + 1 := by
  cases r with
  | schedule now delay task => simp [schedules_concat, Request.task?]
  | _ => exact nomatch h

theorem schedules_le_append (rs rs' : List (Request τ)) : schedules rs ≤ schedules (rs ++ rs') := by
  simp [schedules]

theorem not_waits_nil : ¬ Waits [] t := by
  rintro ⟨before, r, since, h, -⟩
  simp at h

/-- What waits after one more request: what waited and whose wait the request does not end, and what
    the request schedules. -/
theorem waits_concat : Waits (rs ++ [r]) t ↔
    (Waits rs t ∧ ¬ r.Ends t) ∨ r.task? (schedules rs) = some t := by
  constructor
  · rintro ⟨before, r', since, heq, htask, hsince⟩
    rcases concat_eq_append_cons_iff.1 heq with ⟨-, rfl, rfl⟩ | ⟨since, rfl, rfl⟩
    · exact Or.inr htask
    · refine Or.inl ⟨⟨before, r', since, rfl, htask, fun x hx => ?_⟩, ?_⟩
      · exact hsince x (List.mem_append_left _ hx)
      · exact hsince r (List.mem_append_right _ (.head _))
  · rintro (⟨⟨before, r', since, rfl, htask, hsince⟩, hends⟩ | htask)
    · refine ⟨before, r', since ++ [r], by simp, htask, ?_⟩
      intro x hx
      rcases List.mem_append.1 hx with hx | hx
      · exact hsince x hx
      · rw [List.mem_singleton.1 hx]
        exact hends
    · exact ⟨rs, r, [], rfl, htask, by simp⟩

/-- A task that waits has been scheduled. -/
theorem Waits.handle_lt (h : Waits rs t) : t.handle < schedules rs := by
  induction rs using List.reverseRecOn with
  | nil => exact absurd h not_waits_nil
  | append_singleton rs r ih =>
      rcases waits_concat.1 h with ⟨h, -⟩ | htask
      · exact Nat.lt_of_lt_of_le (ih h) (schedules_le_append rs [r])
      · rw [Request.handle_of_task? htask, schedules_concat_of_task? htask]
        exact Nat.lt_succ_self _

/-- **A wait that has ended has ended for good.** -/
theorem Waits.not_waits_append (h : Waits rs t) (hends : r.Ends t) (later : List (Request τ)) :
    ¬ Waits (rs ++ r :: later) t := by
  -- a later request schedules a task with another handle
  induction later using List.reverseRecOn with
  | nil =>
      intro hwaits
      rcases waits_concat.1 hwaits with ⟨-, hnot⟩ | htask
      · exact hnot hends
      · have hlt := h.handle_lt
        rw [Request.handle_of_task? htask] at hlt
        exact Nat.lt_irrefl _ hlt
  | append_singleton later r' ih =>
      rw [← List.cons_append, ← List.append_assoc]
      intro hwaits
      rcases waits_concat.1 hwaits with ⟨hwaits, -⟩ | htask
      · exact ih hwaits
      · have hlt := Nat.lt_of_lt_of_le h.handle_lt (schedules_le_append rs (r :: later))
        rw [Request.handle_of_task? htask] at hlt
        exact Nat.lt_irrefl _ hlt

/-! ## Where tasks go -/

/-- One of the requests has scheduled the task. -/
def Scheduled (rs : List (Request τ)) (t : Task τ) : Prop :=
  ∃ before r since, rs = before ++ r :: since ∧ r.task? (schedules before) = some t

/-- A drain came when the task waited and was due. -/
def Returned (rs : List (Request τ)) (t : Task τ) : Prop :=
  ∃ before now since, rs = before ++ .drain now :: since ∧ Waits before t ∧ t.due ≤ now

/-- The task was cancelled when it waited. -/
def Dropped (rs : List (Request τ)) (t : Task τ) : Prop :=
  ∃ before since, rs = before ++ .cancel t.handle :: since ∧ Waits before t

theorem Returned.append (h : Returned rs t) (rs' : List (Request τ)) : Returned (rs ++ rs') t := by
  obtain ⟨before, now, since, rfl, hwaits⟩ := h
  exact ⟨before, now, since ++ rs', by simp, hwaits⟩

theorem Dropped.append (h : Dropped rs t) (rs' : List (Request τ)) : Dropped (rs ++ rs') t := by
  obtain ⟨before, since, rfl, hwaits⟩ := h
  exact ⟨before, since ++ rs', by simp, hwaits⟩

theorem Scheduled.of_concat (h : Scheduled (rs ++ [r]) t) :
    Scheduled rs t ∨ r.task? (schedules rs) = some t := by
  obtain ⟨before, r', since, heq, htask⟩ := h
  rcases concat_eq_append_cons_iff.1 heq with ⟨-, rfl, rfl⟩ | ⟨since, -, rfl⟩
  · exact Or.inr htask
  · exact Or.inl ⟨before, r', since, rfl, htask⟩

/-- The tasks that wait are those that were scheduled and neither returned nor dropped. -/
theorem waits_iff : Waits rs t ↔ Scheduled rs t ∧ ¬ Returned rs t ∧ ¬ Dropped rs t := by
  constructor
  · intro h
    refine ⟨?_, ?_, ?_⟩
    · obtain ⟨before, r, since, heq, htask, -⟩ := h
      exact ⟨before, r, since, heq, htask⟩
    · rintro ⟨before, now, since, rfl, hwaits, hdue⟩
      exact hwaits.not_waits_append (r := .drain now) hdue since h
    · rintro ⟨before, since, rfl, hwaits⟩
      exact hwaits.not_waits_append (r := .cancel t.handle) rfl since h
  · rintro ⟨hscheduled, hreturned, hdropped⟩
    induction rs using List.reverseRecOn with
    | nil =>
        obtain ⟨before, r, since, heq, -⟩ := hscheduled
        simp at heq
    | append_singleton rs r ih =>
        rw [waits_concat]
        refine hscheduled.of_concat.imp_left fun hscheduled => ?_
        have hwaits := ih hscheduled (fun h => hreturned (h.append [r])) fun h =>
          hdropped (h.append [r])
        refine ⟨hwaits, fun hends => ?_⟩
        cases r with
        | schedule now delay task => exact hends
        | cancel handle =>
            obtain rfl : t.handle = handle := hends
            exact hdropped ⟨rs, [], rfl, hwaits⟩
        | drain now => exact hreturned ⟨rs, now, [], rfl, hwaits, hends⟩

/-! ## What the queue holds -/

/-- The queue holds what waits after these requests. -/
structure Holds (q : TaskQueue τ) (rs : List (Request τ)) : Prop where
  next : q.nextHandle = schedules rs
  mem_iff : ∀ t, t ∈ q.scheduled ↔ Waits rs t
  ordered : q.scheduled.Pairwise fun s t => s.handle < t.handle

variable {q : TaskQueue τ}

theorem drainDue_eq (q : TaskQueue τ) (now : Nat) : q.drainDue now =
    (((q.scheduled.filter (·.due ≤ now)).mergeSort fun s t => s.due ≤ t.due).map (·.payload),
      { q with scheduled := q.scheduled.filter fun t => !decide (t.due ≤ now) }) := by
  simp [drainDue, List.partition_eq_filter_filter, Function.comp_def]

/-- One request. -/
theorem Holds.serve (h : q.Holds rs) (r : Request τ) : (q.serve r).2.Holds (rs ++ [r]) := by
  obtain ⟨hnext, hmem, hordered⟩ := h
  cases r with
  | schedule now delay task =>
      refine ⟨?_, fun t => ?_, ?_⟩
      · simp [TaskQueue.serve, TaskQueue.schedule, schedules_concat, Request.task?, hnext]
      · rw [waits_concat, ← hmem]
        simp [TaskQueue.serve, TaskQueue.schedule, Request.task?, Request.Ends, hnext, eq_comm]
      · simp only [TaskQueue.serve, TaskQueue.schedule, List.pairwise_append]
        refine ⟨hordered, List.pairwise_singleton _ _, fun s hs t ht => ?_⟩
        rw [List.mem_singleton.1 ht, hnext]
        exact ((hmem s).1 hs).handle_lt
  | cancel handle =>
      refine ⟨?_, fun t => ?_, hordered.filter _⟩
      · simp [TaskQueue.serve, TaskQueue.cancel, schedules_concat, Request.task?, hnext]
      · rw [waits_concat, ← hmem]
        simp [TaskQueue.serve, TaskQueue.cancel, Request.task?, Request.Ends]
  | drain now =>
      rw [TaskQueue.serve, drainDue_eq]
      refine ⟨?_, fun t => ?_, hordered.filter _⟩
      · simp [schedules_concat, Request.task?, hnext]
      · rw [waits_concat, ← hmem]
        simp [Request.task?, Request.Ends]

/-- **A queue holds what waits**, whatever was asked of it. -/
theorem holds_serveAll (rs : List (Request τ)) : (empty.serveAll rs).Holds rs := by
  induction rs using List.reverseRecOn with
  | nil => exact ⟨rfl, fun t => iff_of_false List.not_mem_nil not_waits_nil, .nil⟩
  | append_singleton rs r ih =>
      rw [serveAll_concat]
      exact ih.serve r

/-! ## What the queue answers -/

/-- The order in which tasks are handed out: by the time at which they are due, and in the order of
    scheduling among those due at the same time. -/
def Sooner (s t : Task τ) : Prop := s.due < t.due ∨ s.due = t.due ∧ s.handle < t.handle

/-- Sorting by due time keeps the order of scheduling among tasks due at the same time. -/
theorem pairwise_sooner_mergeSort {ts : List (Task τ)}
    (h : ts.Pairwise fun s t => s.handle < t.handle) :
    (ts.mergeSort fun s t => s.due ≤ t.due).Pairwise Sooner := by
  have htrans : ∀ a b c : Task τ, decide (a.due ≤ b.due) = true → decide (b.due ≤ c.due) = true →
      decide (a.due ≤ c.due) = true := by
    simp only [decide_eq_true_eq]
    omega
  have htotal : ∀ a b : Task τ, (decide (a.due ≤ b.due) || decide (b.due ≤ a.due)) = true := by
    simp only [Bool.or_eq_true, decide_eq_true_eq]
    omega
  -- the first task goes behind all that are due before it, and ahead of all others
  induction ts with
  | nil => simp
  | cons t ts ih =>
      obtain ⟨hfirst, hrest⟩ := List.pairwise_cons.1 h
      obtain ⟨l₁, l₂, heq, hsplit, hbefore⟩ := List.mergeSort_cons htrans htotal t ts
      have hsorted := List.pairwise_mergeSort htrans htotal (t :: ts)
      have ih := ih hrest
      rw [hsplit, List.pairwise_append] at ih
      rw [heq, List.pairwise_append, List.pairwise_cons] at hsorted ⊢
      obtain ⟨hl₁, hl₂, hcross⟩ := ih
      have hlater : ∀ s ∈ l₂, t.handle < s.handle := by
        intro s hs
        have hmem : s ∈ ts.mergeSort fun s t => decide (s.due ≤ t.due) := by
          rw [hsplit]
          exact List.mem_append_right _ hs
        exact hfirst s (List.mem_mergeSort.1 hmem)
      refine ⟨hl₁, ⟨fun s hs => ?_, hl₂⟩, fun s hs u hu => ?_⟩
      · have hle := of_decide_eq_true (hsorted.2.1.1 s hs)
        have hlt := hlater s hs
        unfold Sooner
        omega
      · rcases List.mem_cons.1 hu with rfl | hu
        · have hnot := hbefore s hs
          simp only [Bool.not_eq_true', decide_eq_false_iff_not] at hnot
          exact Or.inl (Nat.lt_of_not_le hnot)
        · exact hcross s hs u hu

/-- A drain hands out what waits and is due. -/
theorem Holds.drainDue (h : q.Holds rs) (now : Nat) :
    ∃ ts : List (Task τ), (q.drainDue now).1 = ts.map (·.payload) ∧ ts.Pairwise Sooner ∧
      ∀ t, t ∈ ts ↔ Waits rs t ∧ t.due ≤ now := by
  rw [drainDue_eq]
  refine ⟨_, rfl, pairwise_sooner_mergeSort (h.ordered.filter _), fun t => ?_⟩
  rw [List.mem_mergeSort, List.mem_filter, h.mem_iff, decide_eq_true_eq]

/-- A task is cancelled if it waits. -/
theorem Holds.cancel_iff (h : q.Holds rs) {handle : Nat} :
    (q.cancel handle).1 = true ↔ ∃ t, Waits rs t ∧ t.handle = handle := by
  simp [TaskQueue.cancel, h.mem_iff]

/-- At most one task goes by a handle. -/
theorem length_filter_handle {ts : List (Task τ)} (h : ts.Pairwise fun s t => s.handle < t.handle)
    (handle : Nat) : (ts.filter (·.handle == handle)).length =
      if ts.any (·.handle == handle) then 1 else 0 := by
  have hnodup : (ts.map (·.handle)).Nodup := List.pairwise_map.2 (h.imp Nat.ne_of_lt)
  have hcount : ts.countP (·.handle == handle) = (ts.map (·.handle)).count handle := by
    rw [List.count, List.countP_map]
    rfl
  rw [← List.countP_eq_length_filter, hcount, hnodup.count]
  simp

/-- Every task that leaves the queue with a request is accounted for in the answer. -/
theorem Holds.length_serve (h : q.Holds rs) (r : Request τ) :
    (q.serve r).2.length + (q.serve r).1.returned + (q.serve r).1.dropped =
      q.length + if (r.task? 0).isSome then 1 else 0 := by
  cases r with
  | schedule now delay task =>
      simp [TaskQueue.serve, TaskQueue.schedule, length, Reply.returned, Reply.dropped, Request.task?]
  | cancel handle =>
      have hsplit := List.length_eq_length_filter_add (l := q.scheduled) (·.handle == handle)
      have hone := length_filter_handle h.ordered handle
      simp only [TaskQueue.serve, TaskQueue.cancel, length, Reply.returned, Request.task?,
        Option.isSome_none, Bool.false_eq_true, if_false, hsplit, hone, bne]
      cases q.scheduled.any (·.handle == handle) <;> simp [Reply.dropped, Nat.add_comm]
  | drain now =>
      have hsplit := List.length_eq_length_filter_add (l := q.scheduled) fun t => decide (t.due ≤ now)
      rw [TaskQueue.serve, drainDue_eq]
      simp only [length, Reply.returned, Reply.dropped, Request.task?, List.length_map,
        List.length_mergeSort, hsplit, Option.isSome_none, Bool.false_eq_true, if_false]
      omega

theorem handles_replies (rs : List (Request τ)) :
    (empty.replies rs).filterMap Reply.handle? = List.range (schedules rs) := by
  induction rs using List.reverseRecOn with
  | nil => rfl
  | append_singleton rs r ih =>
      have hnext := (holds_serveAll rs).next
      rw [replies_concat, List.filterMap_append, ih, schedules_concat]
      cases r with
      | schedule now delay task =>
          simp [TaskQueue.serve, TaskQueue.schedule, Reply.handle?, Request.task?, hnext,
            List.range_succ]
      | _ => simp [TaskQueue.serve, Reply.handle?, Request.task?]

theorem length_serveAll (rs : List (Request τ)) :
    (empty.serveAll rs).length + ((empty.replies rs).map Reply.returned).sum +
      ((empty.replies rs).map Reply.dropped).sum = schedules rs := by
  induction rs using List.reverseRecOn with
  | nil => rfl
  | append_singleton rs r ih =>
      have hstep := (holds_serveAll rs).length_serve r
      rw [replies_concat, serveAll_concat, schedules_concat, ← ih]
      simp only [List.map_append, List.map_cons, List.map_nil, List.sum_append, List.sum_cons,
        List.sum_nil]
      omega

/-- **Every task is delivered once, and on time.** After any requests, whatever their times: no handle
    has been handed out twice, and the next one is new. The tasks that wait are those that were
    scheduled and neither returned nor dropped. A drain returns those of them that are due, by due time
    and then in the order of scheduling, and none of these waits ever again. Cancelling answers whether
    the task waits, and if so, it never waits again. The queue is as long as there are tasks that were
    scheduled and neither returned nor dropped. -/
theorem delivers_once (rs : List (Request τ)) :
    let q := empty.serveAll rs
    let answers := empty.replies rs
    let handles := answers.filterMap Reply.handle?
    (handles.Nodup ∧ (∀ h ∈ handles, h < schedules rs) ∧
      ∀ now delay task, (q.serve (.schedule now delay task)).1 = .scheduled (schedules rs)) ∧
    (∀ t, Waits rs t ↔ Scheduled rs t ∧ ¬ Returned rs t ∧ ¬ Dropped rs t) ∧
    (∀ now, ∃ ts : List (Task τ), (q.serve (.drain now)).1 = .drained (ts.map (·.payload)) ∧
      ts.Pairwise Sooner ∧ (∀ t, t ∈ ts ↔ Waits rs t ∧ t.due ≤ now) ∧
      ∀ t ∈ ts, ∀ later, ¬ Waits (rs ++ .drain now :: later) t) ∧
    (∀ h, ∃ done, (q.serve (.cancel h)).1 = .cancelled done ∧
      (done = true ↔ ∃ t, Waits rs t ∧ t.handle = h) ∧
      ∀ t, Waits rs t → t.handle = h → ∀ later, ¬ Waits (rs ++ .cancel h :: later) t) ∧
    q.length + (answers.map Reply.returned).sum + (answers.map Reply.dropped).sum = schedules rs := by
  intro q answers handles
  have hq : q.Holds rs := holds_serveAll rs
  have hhandles : handles = List.range (schedules rs) := handles_replies rs
  refine ⟨⟨?_, ?_, fun now delay task => ?_⟩, fun t => waits_iff, fun now => ?_, fun h => ?_,
    length_serveAll rs⟩
  · rw [hhandles]
    exact List.nodup_range
  · intro h hh
    rw [hhandles] at hh
    exact List.mem_range.1 hh
  · exact congrArg Reply.scheduled hq.next
  · obtain ⟨ts, hts, hsorted, hmem⟩ := hq.drainDue now
    refine ⟨ts, congrArg Reply.drained hts, hsorted, hmem, fun t ht later => ?_⟩
    obtain ⟨hwaits, hdue⟩ := (hmem t).1 ht
    exact hwaits.not_waits_append (r := .drain now) hdue later
  · refine ⟨_, rfl, hq.cancel_iff, fun t hwaits hhandle later => ?_⟩
    exact hwaits.not_waits_append (r := .cancel h) hhandle later

/-- Of two tasks the first is cancelled. The second one comes when it is due, and then never again. -/
theorem delivers_once_early :
    let rs : List (Request String) := [.schedule 0 200 "late", .schedule 0 100 "early", .cancel 0]
    let early : Task String := ⟨1, 100, "early"⟩
    Waits rs early ∧ ¬ Returned rs early ∧ ∃ ts : List (Task String),
      ((empty.serveAll rs).serve (.drain 100)).1 = .drained (ts.map (·.payload)) ∧ early ∈ ts ∧
        ∀ later, ¬ Waits (rs ++ .drain 100 :: later) early := by
  intro rs early
  have hwaits : Waits rs early := by
    refine ⟨[.schedule 0 200 "late"], .schedule 0 100 "early", [.cancel 0], rfl, rfl, ?_⟩
    intro r hr
    rw [List.mem_singleton.1 hr]
    exact Nat.one_ne_zero
  obtain ⟨-, hwhere, hdrain, -⟩ := delivers_once rs
  obtain ⟨ts, hts, -, hmem, honce⟩ := hdrain 100
  have hearly : early ∈ ts := (hmem early).2 ⟨hwaits, Nat.le_refl _⟩
  exact ⟨hwaits, ((hwhere early).1 hwaits).2.1, ts, hts, hearly, honce early hearly⟩

/-- Two tasks are due at 250. The one that is due first comes first, and the one in the future stays. -/
example : (empty.replies [.schedule 0 200 "late", .schedule 0 100 "early", .schedule 0 500 "future",
    .drain 250, .cancel 2, .cancel 0]).drop 3 =
      [.drained ["early", "late"], .cancelled true, .cancelled false] := by
  cbv

end TaskQueue

end CanvasTransform
