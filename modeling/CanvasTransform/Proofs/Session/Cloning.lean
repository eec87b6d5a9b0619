import CanvasTransform.Binary64
import CanvasTransform.Proofs.Session.Run
import CanvasTransform.Proofs.TaskQueue.Delivery

set_option autoImplicit false

/-! # The cloning indicator of a session

A translation shows the indicator while alt is held, and for a while after. The session keeps a flag, a
queue of tasks and the handle of a task for this; what they come to is one of three things
(`Indicator`), and the session agrees with it after every signal (`Session.Shows`). In particular there
is never more than one task, and the handle names it.

What the indicator shows can be told from the signals alone (`Session.cloning_follows_alt`): it shows
since the last press of alt, until a tick comes that is not before the deadline set by the first release
after that press. Signals need not come in the order of their times. -/

namespace CanvasTransform

variable {α : Type}

/-! ## The indicator -/

/-- What a cloning indicator does. -/
inductive Indicator
  | hidden
  | shown
  /-- Alt was released, and the indicator is hidden at `due`. -/
  | fading (due : Nat)
deriving DecidableEq

namespace Indicator

/-- Alt was held or not when a translation began. -/
def start (alt : Bool) : Indicator := if alt then shown else hidden

/-- Alt is held or not from `now` on. A release takes effect after `delay`. -/
def follow (i : Indicator) (alt : Bool) (now delay : Nat) : Indicator :=
  match alt, i with
  | true, _ => shown
  | false, shown => fading (now + delay)
  | false, i => i

/-- It is `now`. -/
def tick : Indicator → Nat → Indicator
  | fading due, now => if due ≤ now then hidden else fading due
  | i, _ => i

end Indicator

namespace Session

variable {s t : Session α} {i : Indicator}

/-- The indicator of the session is as given, and nothing waits but the task that hides an indicator
    that is fading. -/
def Shows (s : Session α) : Indicator → Prop
  | .hidden => s.cloning = false ∧ s.cloneTask = none ∧ s.tasks.scheduled = []
  | .shown => s.cloning = true ∧ s.cloneTask = none ∧ s.tasks.scheduled = []
  | .fading due => s.cloning = true ∧
      ∃ handle, s.cloneTask = some handle ∧ s.tasks.scheduled = [⟨handle, due, .clearCloning⟩]

theorem Shows.congr (h : s.Shows i) (hcloning : t.cloning = s.cloning)
    (htask : t.cloneTask = s.cloneTask) (htasks : t.tasks = s.tasks) : t.Shows i := by
  cases i <;> simpa only [Shows, hcloning, htask, htasks] using h

theorem Shows.cloning_iff (h : s.Shows i) : s.cloning = true ↔ i ≠ .hidden := by
  cases i <;> simp [h.1]

theorem shows_start (kind : SessionKind) (origin : Point α) (flags : Flags)
    (snapshot : Snapshot α) :
    (start kind origin flags snapshot).Shows
      (if kind = .translate then .start flags.alt else .hidden) := by
  by_cases hkind : kind = .translate
  · cases halt : flags.alt <;> simp [hkind, halt, Indicator.start, Shows, start, TaskQueue.empty]
  · simp [hkind, Shows, start, TaskQueue.empty]

/-- A release schedules a task, and a press before the task is due cancels it. -/
theorem Shows.setAlt (h : s.Shows i) (hkind : s.kind = .translate) (alt : Bool) (now delay : Nat) :
    (s.setAlt alt now delay).Shows (i.follow alt now delay) := by
  cases i with
  | hidden =>
      obtain ⟨hcloning, htask, htasks⟩ := h
      cases alt <;>
        simp [Session.setAlt, hkind, hcloning, htask, htasks, Indicator.follow, Shows]
  | shown =>
      obtain ⟨hcloning, htask, htasks⟩ := h
      cases alt <;>
        simp [Session.setAlt, hkind, hcloning, htask, htasks, Indicator.follow, Shows,
          TaskQueue.schedule]
  | fading due =>
      obtain ⟨hcloning, handle, htask, htasks⟩ := h
      cases alt <;>
        simp [Session.setAlt, hkind, hcloning, htask, htasks, Indicator.follow, Shows,
          TaskQueue.cancel]

/-- A session of another kind does not follow alt. -/
theorem setAlt_of_ne_translate (hkind : s.kind ≠ .translate) (alt : Bool) (now delay : Nat) :
    s.setAlt alt now delay = s := if_pos (by simpa using hkind)

theorem Shows.tick (h : s.Shows i) (now : Nat) : (s.tick now).Shows (i.tick now) := by
  cases i with
  | hidden | shown =>
      obtain ⟨hcloning, htask, htasks⟩ := h
      simp [Session.tick, TaskQueue.drainDue, Indicator.tick, Shows, hcloning, htask, htasks]
  | fading due =>
      obtain ⟨hcloning, handle, htask, htasks⟩ := h
      by_cases hdue : due ≤ now
      · simp [Session.tick, TaskQueue.drainDue, Indicator.tick, Shows, htasks, hdue, perform]
      · simp [Session.tick, TaskQueue.drainDue, Indicator.tick, Shows, hcloning, htask, htasks,
          hdue]

end Session

/-! ## Signals -/

/-- What a session is told of the alt key and of the time. -/
inductive Signal
  | alt (held : Bool) (now delay : Nat)
  | tick (now : Nat)
deriving DecidableEq

namespace Signal

/-- Alt is pressed. -/
def isPress : Signal → Bool
  | alt held _ _ => held
  | tick _ => false

/-- When the indicator is to be hidden, if this is the release that decides it. -/
def due? : Signal → Option Nat
  | alt false now delay => some (now + delay)
  | _ => none

/-- The deadline that the first release sets. -/
def deadline? (signals : List Signal) : Option Nat := signals.findSome? due?

/-- `since` is what has come since alt was pressed last. If alt was held when the session began, that
    counts as a press. -/
def LastPress (held : Bool) (signals since : List Signal) : Prop :=
  (∀ c ∈ since, c.isPress = false) ∧
    (held = true ∧ signals = since ∨
      ∃ before now delay, signals = before ++ alt true now delay :: since)

/-- After the first release, a tick has come that was not before its deadline. -/
def Expired (since : List Signal) : Prop :=
  ∃ before now after, since = before ++ tick now :: after ∧
    ∃ due, deadline? before = some due ∧ due ≤ now

/-! ### One more signal -/

theorem deadline?_concat (since : List Signal) (c : Signal) :
    deadline? (since ++ [c]) = (deadline? since).or c.due? := by
  simp [deadline?]

theorem lastPress_nil {held : Bool} {since : List Signal} :
    LastPress held [] since ↔ held = true ∧ since = [] := by
  constructor
  · rintro ⟨-, ⟨hheld, rfl⟩ | ⟨before, now, delay, h⟩⟩
    · exact ⟨hheld, rfl⟩
    · simp at h
  · rintro ⟨hheld, rfl⟩
    exact ⟨by simp, Or.inl ⟨hheld, rfl⟩⟩

theorem lastPress_concat_press {held : Bool} {signals since : List Signal} {now delay : Nat} :
    LastPress held (signals ++ [alt true now delay]) since ↔ since = [] := by
  constructor
  · rintro ⟨hnone, hsince⟩
    have hpress : ¬ ∃ since', since = since' ++ [alt true now delay] := by
      rintro ⟨since', rfl⟩
      exact Bool.noConfusion (hnone (alt true now delay) (by simp))
    rcases hsince with ⟨-, h⟩ | ⟨before, now', delay', h⟩
    · exact absurd ⟨signals, h.symm⟩ hpress
    · rcases concat_eq_append_cons_iff.1 h with ⟨rfl, -, -⟩ | ⟨since', h, -⟩
      · rfl
      · exact absurd ⟨since', h⟩ hpress
  · rintro rfl
    exact ⟨by simp, Or.inr ⟨signals, now, delay, rfl⟩⟩

theorem lastPress_concat {held : Bool} {signals since : List Signal} {c : Signal}
    (hc : c.isPress = false) :
    LastPress held (signals ++ [c]) since ↔
      ∃ since', LastPress held signals since' ∧ since = since' ++ [c] := by
  constructor
  · rintro ⟨hnone, ⟨hheld, rfl⟩ | ⟨before, now, delay, h⟩⟩
    · exact ⟨signals, ⟨fun d hd => hnone d (by simp [hd]), Or.inl ⟨hheld, rfl⟩⟩, rfl⟩
    · rcases concat_eq_append_cons_iff.1 h with ⟨-, -, rfl⟩ | ⟨since', rfl, hsignals⟩
      · exact Bool.noConfusion hc
      · exact ⟨since', ⟨fun d hd => hnone d (by simp [hd]),
          Or.inr ⟨before, now, delay, hsignals⟩⟩, rfl⟩
  · rintro ⟨since', ⟨hnone, hsince⟩, rfl⟩
    refine ⟨fun d hd => ?_, ?_⟩
    · rcases List.mem_append.1 hd with hd | hd
      · exact hnone d hd
      · rw [List.mem_singleton.1 hd]
        exact hc
    · rcases hsince with ⟨hheld, rfl⟩ | ⟨before, now, delay, rfl⟩
      · exact Or.inl ⟨hheld, rfl⟩
      · exact Or.inr ⟨before, now, delay, by simp⟩

theorem LastPress.concat {held : Bool} {signals since : List Signal} {c : Signal}
    (h : LastPress held signals since) (hc : c.isPress = false) :
    LastPress held (signals ++ [c]) (since ++ [c]) := (lastPress_concat hc).2 ⟨since, h, rfl⟩

/-- There is one last press at most. -/
theorem LastPress.unique {held : Bool} {signals since since' : List Signal}
    (h : LastPress held signals since) (h' : LastPress held signals since') : since = since' := by
  induction signals using List.reverseRecOn generalizing since since' with
  | nil => rw [(lastPress_nil.1 h).2, (lastPress_nil.1 h').2]
  | append_singleton signals c ih =>
      match c with
      | alt true now delay => rw [lastPress_concat_press.1 h, lastPress_concat_press.1 h']
      | alt false now delay | tick now =>
          obtain ⟨before, hbefore, rfl⟩ := (lastPress_concat rfl).1 h
          obtain ⟨before', hbefore', rfl⟩ := (lastPress_concat rfl).1 h'
          rw [ih hbefore hbefore']

theorem not_expired_nil : ¬ Expired [] := by
  rintro ⟨before, now, after, h, -⟩
  simp at h

theorem expired_concat {since : List Signal} {c : Signal} :
    Expired (since ++ [c]) ↔
      Expired since ∨ ∃ now, c = tick now ∧ ∃ due, deadline? since = some due ∧ due ≤ now := by
  constructor
  · rintro ⟨before, now, after, h, hdue⟩
    rcases concat_eq_append_cons_iff.1 h with ⟨-, rfl, rfl⟩ | ⟨after', -, rfl⟩
    · exact Or.inr ⟨now, rfl, hdue⟩
    · exact Or.inl ⟨before, now, after', rfl, hdue⟩
  · rintro (⟨before, now, after, rfl, hdue⟩ | ⟨now, rfl, hdue⟩)
    · exact ⟨before, now, after ++ [c], by simp, hdue⟩
    · exact ⟨since, now, [], rfl, hdue⟩

/-- Without a release, nothing expires. -/
theorem not_expired_of_deadline?_eq_none {since : List Signal} (h : deadline? since = none) :
    ¬ Expired since := by
  induction since using List.reverseRecOn with
  | nil => exact not_expired_nil
  | append_singleton since c ih =>
      rw [deadline?_concat, Option.or_eq_none_iff] at h
      rw [expired_concat, h.1]
      simp [ih h.1]

end Signal

/-! ## The indicator follows signals -/

namespace Indicator

open Signal

def signal (i : Indicator) : Signal → Indicator
  | .alt held now delay => i.follow held now delay
  | .tick now => i.tick now

/-- What the indicator does after some signals, told from the signals. -/
def Accounts (held : Bool) (signals : List Signal) : Indicator → Prop
  | hidden => ∀ since, LastPress held signals since → Expired since
  | shown => ∃ since, LastPress held signals since ∧ deadline? since = none
  | fading due =>
      ∃ since, LastPress held signals since ∧ deadline? since = some due ∧ ¬ Expired since

theorem accounts_start (held : Bool) : (start held).Accounts held [] := by
  cases held with
  | true => exact ⟨[], lastPress_nil.2 ⟨rfl, rfl⟩, rfl⟩
  | false => exact fun since h => Bool.noConfusion (lastPress_nil.1 h).1

theorem accounts_press (held : Bool) (signals : List Signal) (now delay : Nat) :
    shown.Accounts held (signals ++ [.alt true now delay]) :=
  ⟨[], lastPress_concat_press.2 rfl, rfl⟩

/-- One more signal is accounted for. -/
theorem Accounts.signal {i : Indicator} {held : Bool} {signals : List Signal}
    (h : i.Accounts held signals) (c : Signal) :
    (i.signal c).Accounts held (signals ++ [c]) := by
  match i, c with
  | i, .alt true now delay => exact accounts_press held signals now delay
  | hidden, .alt false now delay | hidden, .tick now =>
      intro since hsince
      obtain ⟨since', hpress, rfl⟩ := (lastPress_concat rfl).1 hsince
      exact expired_concat.2 (Or.inl (h since' hpress))
  | shown, .alt false now delay =>
      obtain ⟨since, hpress, hnone⟩ := h
      refine ⟨since ++ [.alt false now delay], hpress.concat rfl, ?_, ?_⟩
      · rw [deadline?_concat, hnone]
        rfl
      · rw [expired_concat]
        simp [not_expired_of_deadline?_eq_none hnone]
  | shown, .tick now =>
      obtain ⟨since, hpress, hnone⟩ := h
      refine ⟨since ++ [.tick now], hpress.concat rfl, ?_⟩
      rw [deadline?_concat, hnone]
      rfl
  | fading due, .alt false now delay =>
      obtain ⟨since, hpress, hdue, hexp⟩ := h
      refine ⟨since ++ [.alt false now delay], hpress.concat rfl, ?_, ?_⟩
      · rw [deadline?_concat, hdue]
        rfl
      · rw [expired_concat]
        simp [hexp]
  | fading due, .tick now =>
      obtain ⟨since, hpress, hdue, hexp⟩ := h
      by_cases hnow : due ≤ now
      · rw [Indicator.signal, Indicator.tick, if_pos hnow]
        intro since' hsince'
        obtain ⟨before, hbefore, rfl⟩ := (lastPress_concat rfl).1 hsince'
        rw [hbefore.unique hpress, expired_concat]
        exact Or.inr ⟨now, rfl, due, hdue, hnow⟩
      · rw [Indicator.signal, Indicator.tick, if_neg hnow]
        refine ⟨since ++ [.tick now], hpress.concat rfl, ?_, ?_⟩
        · rw [deadline?_concat, hdue]
          rfl
        · rw [expired_concat]
          simp [hexp, hdue, hnow]

theorem Accounts.ne_hidden_iff {i : Indicator} {held : Bool} {signals : List Signal}
    (h : i.Accounts held signals) :
    i ≠ hidden ↔ ∃ since, LastPress held signals since ∧ ¬ Expired since := by
  cases i with
  | hidden =>
      simp only [ne_eq, not_true_eq_false, false_iff, not_exists, not_and, not_not]
      exact h
  | shown =>
      obtain ⟨since, hpress, hnone⟩ := h
      simp only [ne_eq, reduceCtorEq, not_false_eq_true, true_iff]
      exact ⟨since, hpress, not_expired_of_deadline?_eq_none hnone⟩
  | fading due =>
      obtain ⟨since, hpress, -, hexp⟩ := h
      simp only [ne_eq, reduceCtorEq, not_false_eq_true, true_iff]
      exact ⟨since, hpress, hexp⟩

end Indicator

namespace Session

variable {s : Session α} {i : Indicator}

open Signal

def signal (s : Session α) : Signal → Session α
  | .alt held now delay => s.setAlt held now delay
  | .tick now => s.tick now

def signalAll (s : Session α) (signals : List Signal) : Session α := signals.foldl signal s

theorem signalAll_concat (s : Session α) (signals : List Signal) (c : Signal) :
    s.signalAll (signals ++ [c]) = (s.signalAll signals).signal c := by
  simp [signalAll]

theorem kind_signal (s : Session α) (c : Signal) : (s.signal c).kind = s.kind := by
  cases c with
  | alt held now delay => exact (sameWork_setAlt s held now delay).kind
  | tick now => exact (sameWork_tick s now).kind

theorem kind_signalAll (s : Session α) (signals : List Signal) :
    (s.signalAll signals).kind = s.kind := by
  induction signals using List.reverseRecOn with
  | nil => rfl
  | append_singleton signals c ih => rw [signalAll_concat, kind_signal, ih]

theorem Shows.signal (h : s.Shows i) (hkind : s.kind = .translate) (c : Signal) :
    (s.signal c).Shows (i.signal c) := by
  cases c with
  | alt held now delay => exact h.setAlt hkind held now delay
  | tick now => exact h.tick now

/-- Signals that do not change the indicator leave it as it is, however many come. -/
theorem Shows.signalAll_of_fixed (h : s.Shows i) (hkind : s.kind = .translate)
    {signals : List Signal} (hfixed : ∀ c ∈ signals, i.signal c = i) :
    (s.signalAll signals).Shows i := by
  induction signals using List.reverseRecOn with
  | nil => exact h
  | append_singleton signals c ih =>
      have hsignals : (s.signalAll signals).Shows i := ih fun d hd => hfixed d (by simp [hd])
      have hc : i.signal c = i := hfixed c (by simp)
      rw [signalAll_concat, ← hc]
      exact hsignals.signal (by rw [kind_signalAll, hkind]) c

/-- A session shows what the signals tell. -/
theorem exists_shows_signalAll (origin : Point α) (flags : Flags) (snapshot : Snapshot α)
    (signals : List Signal) :
    ∃ i, ((start .translate origin flags snapshot).signalAll signals).Shows i ∧
      i.Accounts flags.alt signals := by
  induction signals using List.reverseRecOn with
  | nil => exact ⟨.start flags.alt, shows_start .translate origin flags snapshot,
      Indicator.accounts_start flags.alt⟩
  | append_singleton signals c ih =>
      obtain ⟨i, hshows, haccounts⟩ := ih
      rw [signalAll_concat]
      exact ⟨i.signal c, hshows.signal (kind_signalAll _ signals) c, haccounts.signal c⟩

/-- While the indicator is hidden or about to be, another release changes nothing. -/
theorem Shows.setAlt_release (h : s.Shows i) (hi : i ≠ .shown) (now delay : Nat) :
    s.setAlt false now delay = s := by
  cases i with
  | hidden => simp [Session.setAlt, h.1]
  | shown => exact absurd rfl hi
  | fading due =>
      obtain ⟨-, handle, htask, -⟩ := h
      simp [Session.setAlt, htask]

/-- With nothing waiting, a tick changes nothing. -/
theorem Shows.tick_hidden (h : s.Shows .hidden) (now : Nat) : s.tick now = s := by
  obtain ⟨-, -, htasks⟩ := h
  have hdrain : s.tasks.drainDue now = ([], s.tasks) := by
    cases hq : s.tasks with
    | mk nextHandle scheduled =>
        rw [hq] at htasks
        simp [TaskQueue.drainDue, show scheduled = [] from htasks]
  rw [Session.tick, hdrain]
  rfl

theorem Shows.signalAll_of_ne_translate (h : s.Shows .hidden) (hkind : s.kind ≠ .translate)
    (signals : List Signal) : s.signalAll signals = s := by
  induction signals using List.reverseRecOn with
  | nil => rfl
  | append_singleton signals c ih =>
      rw [signalAll_concat, ih]
      cases c with
      | alt held now delay => exact setAlt_of_ne_translate hkind held now delay
      | tick now => exact h.tick_hidden now

/-- One task waits at most, none while the indicator is off, and the handle kept is that of the task. -/
structure KeepsTask (s : Session α) : Prop where
  length_le_one : s.tasks.length ≤ 1
  handle_iff : ∀ handle, s.cloneTask = some handle ↔ ∃ task ∈ s.tasks.scheduled, task.handle = handle
  none_waits : s.cloning = false → s.tasks.scheduled = []

theorem Shows.keepsTask (h : s.Shows i) : s.KeepsTask := by
  cases i with
  | hidden | shown =>
      obtain ⟨-, htask, htasks⟩ := h
      exact ⟨by simp [TaskQueue.length, htasks], by simp [htask, htasks], fun _ => htasks⟩
  | fading due =>
      obtain ⟨hcloning, handle, htask, htasks⟩ := h
      exact ⟨by simp [TaskQueue.length, htasks], by simp [htask, htasks], by simp [hcloning]⟩

/-- **The indicator follows presses and releases of alt.** After every sequence of signals, it shows
    exactly when alt was pressed and no tick has come at or after the deadline that the first release
    since has set. Later releases do not change the session, after a press only a release can lead
    to the indicator being hidden, and it stays hidden until a press. All along the session keeps its
    one task, and a session of another kind is not changed by any signal. -/
theorem cloning_follows_alt (origin : Point α) (flags : Flags) (snapshot : Snapshot α)
    (signals : List Signal) :
    let s := (start .translate origin flags snapshot).signalAll signals
    (s.cloning = true ↔ ∃ since, LastPress flags.alt signals since ∧ ¬ Expired since) ∧
      (∀ since, LastPress flags.alt signals since → (deadline? since).isSome →
        ∀ now delay, s.setAlt false now delay = s) ∧
      (∀ now delay more, (∀ c ∈ more, c.due? = none) →
        ((s.setAlt true now delay).signalAll more).cloning = true ∧
          ((s.setAlt true now delay).signalAll more).tasks.scheduled = []) ∧
      (s.cloning = false → ∀ more, (∀ c ∈ more, c.isPress = false) →
        (s.signalAll more).cloning = false) ∧
      s.KeepsTask ∧
      ∀ kind ≠ .translate, (start kind origin flags snapshot).signalAll signals =
        start kind origin flags snapshot := by
  intro s
  have hkind : s.kind = .translate := kind_signalAll _ signals
  obtain ⟨i, hshows, haccounts⟩ :
      ∃ i, s.Shows i ∧ i.Accounts flags.alt signals :=
    exists_shows_signalAll origin flags snapshot signals
  have hcloning : s.cloning = true ↔ i ≠ .hidden := hshows.cloning_iff
  refine ⟨hcloning.trans haccounts.ne_hidden_iff, ?later, ?press, ?cleared, hshows.keepsTask, ?kinds⟩
  case later =>
    intro since hsince hreleased now delay
    refine hshows.setAlt_release ?_ now delay
    rintro rfl
    obtain ⟨since', hsince', hnone⟩ := haccounts
    rw [hsince.unique hsince', hnone] at hreleased
    exact Bool.noConfusion hreleased
  case press =>
    intro now delay more hmore
    have hpressed : (s.setAlt true now delay).Shows .shown := hshows.setAlt hkind true now delay
    have hshown : ((s.setAlt true now delay).signalAll more).Shows .shown := by
      refine hpressed.signalAll_of_fixed (kind_signal s (.alt true now delay) ▸ hkind) ?_
      intro c hc
      match c with
      | .alt true now delay | .tick now => rfl
      | .alt false now delay => exact absurd (hmore _ hc) (Option.some_ne_none _)
    exact ⟨hshown.1, hshown.2.2⟩
  case cleared =>
    intro hoff more hmore
    have hi : i = .hidden := by
      by_contra hi
      rw [hcloning.2 hi] at hoff
      exact Bool.noConfusion hoff
    subst hi
    refine (hshows.signalAll_of_fixed hkind fun c hc => ?_).1
    match c with
    | .alt false now delay | .tick now => rfl
    | .alt true now delay => exact Bool.noConfusion (hmore _ hc)
  case kinds =>
    intro kind hkind
    have hstart := shows_start kind origin flags snapshot
    rw [if_neg hkind] at hstart
    exact hstart.signalAll_of_ne_translate hkind signals

/-- Alt is pressed at 1000 and released at 1200 with a delay of 150. The indicator shows after a tick at
    1300, and a further release changes nothing. -/
theorem cloning_follows_alt_released :
    let snapshot : Snapshot Binary64 :=
      ⟨[], ∅, ⟨Rect.zero, 0⟩, false, Rect.zero, ⟨[], [], []⟩⟩
    let begun := start .translate Point.origin ⟨false, false, false⟩ snapshot
    let s := begun.signalAll [.alt true 1000 150, .alt false 1200 150, .tick 1300]
    s.cloning = true ∧ s.setAlt false 1320 150 = s := by
  intro snapshot begun s
  let since : List Signal := [.alt false 1200 150] ++ [.tick 1300]
  have hsince : LastPress false (.alt true 1000 150 :: since) since :=
    ⟨by decide, Or.inr ⟨[], 1000, 150, rfl⟩⟩
  have hexpired : ¬ Expired since := by
    have hreleased : ¬ Expired ([] ++ [.alt false 1200 150]) := by
      rw [expired_concat]
      simp [not_expired_nil]
    rw [expired_concat]
    rintro (h | ⟨now, hnow, due, hdue, hle⟩)
    · exact hreleased h
    · cases hnow
      cases hdue
      exact absurd hle (by decide)
  obtain ⟨hcloning, hlater, -⟩ := cloning_follows_alt Point.origin ⟨false, false, false⟩ snapshot
    [.alt true 1000 150, .alt false 1200 150, .tick 1300]
  exact ⟨hcloning.2 ⟨since, hsince, hexpired⟩, hlater since hsince rfl 1320 150⟩

/-- The tick that comes at the deadline hides it. -/
example :
    let snapshot : Snapshot Binary64 :=
      ⟨[], ∅, ⟨Rect.zero, 0⟩, false, Rect.zero, ⟨[], [], []⟩⟩
    ((start .translate Point.origin ⟨false, true, false⟩ snapshot).signalAll
      [.alt false 1200 150, .alt false 1320 150, .tick 1350]).cloning = false := by
  cbv

end Session

end CanvasTransform
