import Throttle.Time

/-!
# Contexts

A context says until when a caller waits for an answer.  It is done once one of its
handles has fired or its deadline has come, and a context derived from it takes over its
handles and its deadline.  A handle that is released can no longer fire and changes
nothing.

`Context.isDone` looks at the handles as they are; to wait for the end of a context is
another matter (`Throttle.Context.Waiting`).
-/

namespace Throttle

/-- The number of a handle, counted in the order in which handles were made. -/
abbrev Handle := Nat

/-- What has become of a handle. -/
structure Signal where
  fired : Bool
  /-- How often the handle has fired; one who has seen a version waits for the next. -/
  version : Nat
  released : Bool
deriving DecidableEq, Repr

/-- A handle to which nothing has happened. -/
def Signal.quiet : Signal := ⟨false, 0, false⟩

/-- A change of one handle. -/
inductive Notice where
  /-- The handle fires, unless it has been released. -/
  | cancel (handle : Handle)
  /-- The handle is given up as it is. -/
  | release (handle : Handle)
deriving DecidableEq, Repr

namespace Notice

/-- The handle that changes. -/
def handle : Notice → Handle
  | cancel handle => handle
  | release handle => handle

@[simp] theorem handle_cancel (handle : Handle) : (cancel handle).handle = handle := rfl

@[simp] theorem handle_release (handle : Handle) : (release handle).handle = handle := rfl

/-- What becomes of the handle. -/
def change : Notice → Signal → Signal
  | cancel _, signal =>
    if signal.released then signal
    else { signal with fired := true, version := signal.version + 1 }
  | release _, signal => { signal with released := true }

theorem fired_change_of_fired (notice : Notice) {signal : Signal} (hfired : signal.fired = true) :
    (notice.change signal).fired = true := by
  cases notice with
  | cancel =>
    cases hreleased : signal.released <;> simp [change, hreleased, hfired]
  | release => exact hfired

end Notice

/-- All handles made so far. -/
structure Signals where
  signals : List Signal
deriving DecidableEq, Repr

namespace Signals

/-- No handle yet. -/
def none : Signals := ⟨[]⟩

/-- One handle more, and its number. -/
def create (handles : Signals) : Handle × Signals :=
  (handles.signals.length, ⟨handles.signals ++ [.quiet]⟩)

/-- The state of a handle; nothing has happened to one that has not been made. -/
def signal (handles : Signals) (handle : Handle) : Signal :=
  (handles.signals[handle]?).getD .quiet

/-- Whether a handle has fired. -/
def isFired (handles : Signals) (handle : Handle) : Bool := (handles.signal handle).fired

/-- The handles after a notice. -/
def apply (handles : Signals) (notice : Notice) : Signals :=
  ⟨handles.signals.modify notice.handle notice.change⟩

theorem signal_apply_self (handles : Signals) (notice : Notice)
    (hmade : notice.handle < handles.signals.length) :
    (handles.apply notice).signal notice.handle =
      notice.change (handles.signal notice.handle) := by
  simp [signal, apply, hmade]

theorem signal_apply_of_ne (handles : Signals) (notice : Notice) {handle : Handle}
    (hne : handle ≠ notice.handle) :
    (handles.apply notice).signal handle = handles.signal handle := by
  simp [signal, apply, Ne.symm hne]

/-- A handle is as it was, or a notice to it has changed it. -/
theorem signal_apply (handles : Signals) (notice : Notice) (handle : Handle) :
    (handles.apply notice).signal handle = handles.signal handle ∨
      (handles.apply notice).signal handle = notice.change (handles.signal handle) := by
  by_cases hhandle : handle = notice.handle
  · subst hhandle
    by_cases hmade : notice.handle < handles.signals.length
    · exact Or.inr (signal_apply_self handles notice hmade)
    · left
      simp [signal, apply, List.getElem?_eq_none (Nat.le_of_not_lt hmade)]
  · exact Or.inl (signal_apply_of_ne handles notice hhandle)

@[simp] theorem isFired_create (handles : Signals) (handle : Handle) :
    handles.create.2.isFired handle = handles.isFired handle := by
  unfold isFired signal create
  rcases Nat.lt_trichotomy handle handles.signals.length with hold | rfl | hnew
  · rw [List.getElem?_append_left hold]
  · simp [Signal.quiet]
  · rw [List.getElem?_eq_none (by simp; omega), List.getElem?_eq_none (by omega)]

@[simp] theorem isFired_apply_release (handles : Signals) (released handle : Handle) :
    (handles.apply (.release released)).isFired handle = handles.isFired handle := by
  unfold isFired
  rcases signal_apply handles (.release released) handle with hsame | hchanged
  · rw [hsame]
  · rw [hchanged]
    rfl

/-- A handle that has fired stays fired. -/
theorem isFired_apply_of_isFired (handles : Signals) (handle : Handle) (notice : Notice)
    (hfired : handles.isFired handle = true) : (handles.apply notice).isFired handle = true := by
  unfold isFired at hfired ⊢
  rcases signal_apply handles notice handle with hsame | hchanged
  · rw [hsame, hfired]
  · rw [hchanged, notice.fired_change_of_fired hfired]

end Signals

/-- Until when a caller waits. -/
structure Context where
  handles : List Handle
  deadline : Option Instant
deriving DecidableEq, Repr

namespace Context

/-- The context that is never done. -/
def background : Context := ⟨[], none⟩

/-- The context that a handle can cancel, too. -/
def withCancel (parent : Context) (handle : Handle) : Context :=
  { parent with handles := parent.handles ++ [handle] }

/-- The context that is done at an instant, or at its parent's deadline if that comes
first. -/
def withDeadline (parent : Context) (deadline : Instant) : Context :=
  { parent with deadline := Instant.earlier? parent.deadline (some deadline) }

/-- The context that is done after a time, unless that instant cannot be represented. -/
def withTimeout? (parent : Context) (now : Instant) (timeout : Duration) : Option Context :=
  (now.after? timeout).map parent.withDeadline

/-- Whether the deadline has come. -/
def isOver (context : Context) (now : Instant) : Bool :=
  match context.deadline with
  | some deadline => decide (deadline ≤ now)
  | none => false

/-- Whether one of the handles has fired. -/
def isCanceled (context : Context) (handles : Signals) : Bool :=
  context.handles.any handles.isFired

/-- Whether the context is done. -/
def isDone (context : Context) (handles : Signals) (now : Instant) : Bool :=
  context.isOver now || context.isCanceled handles

theorem isOver_iff (context : Context) (now : Instant) :
    context.isOver now = true ↔ ∃ deadline, context.deadline = some deadline ∧ deadline ≤ now := by
  unfold isOver
  cases context.deadline <;> simp

theorem isCanceled_iff (context : Context) (handles : Signals) :
    context.isCanceled handles = true ↔
      ∃ handle ∈ context.handles, handles.isFired handle = true :=
  List.any_eq_true

theorem isDone_iff (context : Context) (handles : Signals) (now : Instant) :
    context.isDone handles now = true ↔
      context.isOver now = true ∨ context.isCanceled handles = true :=
  Bool.or_eq_true_iff

end Context

end Throttle
