import Throttle.Context.Waiting

/-!
# A clock with appointments

A timeline is a clock, the handles as they are now, and the notices that are still to
come, in the order in which they will take effect.  Moving the clock lets every notice
due on the way take effect, one due exactly at the end included.
-/

namespace Throttle

/-- A clock, and what has happened to the handles and will happen. -/
structure Timeline where
  now : Instant
  handles : Signals
  /-- The notices still to come, the earliest first. -/
  agenda : List Appointment
deriving DecidableEq, Repr

namespace Timeline

/-- The clock at its start, without handles. -/
def initial : Timeline := ⟨.start, .none, []⟩

/-- An appointment entered behind all that are not later. -/
def enter (appointment : Appointment) : List Appointment → List Appointment
  | [] => [appointment]
  | first :: rest =>
    if appointment.time < first.time then appointment :: first :: rest
    else first :: enter appointment rest

/-- One handle more, and its number. -/
def create (timeline : Timeline) : Handle × Timeline :=
  let (handle, handles) := timeline.handles.create
  (handle, { timeline with handles })

/-- The timeline after a notice that takes effect now. -/
def apply (timeline : Timeline) (notice : Notice) : Timeline :=
  { timeline with handles := timeline.handles.apply notice }

/-- The timeline with a notice still to come. -/
def schedule (timeline : Timeline) (delay : Duration) (notice : Notice) : Timeline :=
  { timeline with agenda := enter ⟨timeline.now.after delay, notice⟩ timeline.agenda }

/-- The timeline when the clock has moved on to an instant. -/
def advanceTo (timeline : Timeline) (target : Instant) : Timeline :=
  let due := timeline.agenda.takeWhile fun appointment => decide (appointment.time ≤ target)
  { now := ⟨max timeline.now.nanos target.nanos⟩
    handles := timeline.handles.applyAll (due.map Appointment.notice)
    agenda := timeline.agenda.dropWhile fun appointment => decide (appointment.time ≤ target) }

/-- Whether a context is done now. -/
def isDone (timeline : Timeline) (context : Context) : Bool :=
  context.isDone timeline.handles timeline.now

/-- When the wait for the end of a context that begins now is over. -/
def doneFrom? (timeline : Timeline) (context : Context) : Option Instant :=
  context.doneFrom? timeline.handles timeline.now (gather timeline.agenda)

/-- How a future ends that runs under a context from now on and would come to its own end at an
instant. -/
def run (timeline : Timeline) (context : Context) (finish : Instant) : Wait :=
  context.run timeline.handles timeline.now finish (gather timeline.agenda)

theorem mem_enter {appointment entry : Appointment} {agenda : List Appointment}
    (hentry : entry ∈ enter appointment agenda) : entry = appointment ∨ entry ∈ agenda := by
  induction agenda with
  | nil => exact Or.inl (List.mem_singleton.mp hentry)
  | cons first rest ih =>
    unfold enter at hentry
    split at hentry
    · exact List.mem_cons.mp hentry
    · rcases List.mem_cons.mp hentry with rfl | hrest
      · exact Or.inr (List.mem_cons_self ..)
      · exact (ih hrest).imp_right (List.mem_cons_of_mem _)

/-- The agenda keeps its order when an appointment is entered. -/
theorem enter_ordered (appointment : Appointment) {agenda : List Appointment}
    (hordered : agenda.Pairwise fun first second => first.time ≤ second.time) :
    (enter appointment agenda).Pairwise fun first second => first.time ≤ second.time := by
  induction agenda with
  | nil => simp [enter]
  | cons first rest ih =>
    unfold enter
    rw [List.pairwise_cons] at hordered
    split
    · rename_i hearlier
      have hfirst : appointment.time ≤ first.time := Nat.le_of_lt hearlier
      refine List.pairwise_cons.mpr ⟨?_, List.pairwise_cons.mpr hordered⟩
      intro entry hentry
      rcases List.mem_cons.mp hentry with heq | hrest
      · exact heq ▸ hfirst
      · exact Nat.le_trans hfirst (hordered.1 entry hrest)
    · rename_i hlater
      refine List.pairwise_cons.mpr ⟨?_, ih hordered.2⟩
      intro entry hentry
      rcases mem_enter hentry with heq | hrest
      · exact heq ▸ Nat.le_of_not_lt hlater
      · exact hordered.1 entry hrest

end Timeline

end Throttle
