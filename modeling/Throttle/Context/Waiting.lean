import Throttle.Context

/-!
# Waiting for the end of a context

One who waits for a context watches each of its handles and sets a timer for its deadline.  A
watch is looked at when something has happened: it ends when the handle has fired, and it is
given up when the handle has been released without having fired, since then nothing more can
come.  The wait is over when one of the watches ends or the timer goes off.

What happens comes in rounds: the notices of a round take effect together, and only then does
anyone who waits have a look.  Who waits for a future under a context looks at the watches, at the
timer and then at the future, every time.
-/

namespace Throttle

/-- A notice and the instant at which it takes effect. -/
structure Appointment where
  time : Instant
  notice : Notice
deriving DecidableEq, Repr

/-- Notices that take effect together, before anyone who waits has a look. -/
structure Round where
  time : Instant
  notices : List Notice
deriving DecidableEq, Repr

/-- A round of one notice. -/
def Appointment.round (appointment : Appointment) : Round :=
  ⟨appointment.time, [appointment.notice]⟩

/-- The rounds of appointments that are in order if nobody has a look before all notices of an
instant have taken effect. -/
def gather : List Appointment → List Round
  | [] => []
  | appointment :: rest =>
    match gather rest with
    | [] => [appointment.round]
    | round :: later =>
      if appointment.time = round.time then
        ⟨round.time, appointment.notice :: round.notices⟩ :: later
      else appointment.round :: round :: later

namespace Signals

/-- The handles after notices. -/
def applyAll (handles : Signals) (notices : List Notice) : Signals :=
  notices.foldl apply handles

@[simp] theorem applyAll_nil (handles : Signals) : handles.applyAll [] = handles := rfl

@[simp] theorem applyAll_cons (handles : Signals) (notice : Notice) (rest : List Notice) :
    handles.applyAll (notice :: rest) = (handles.apply notice).applyAll rest := rfl

theorem applyAll_append (handles : Signals) (first second : List Notice) :
    handles.applyAll (first ++ second) = (handles.applyAll first).applyAll second :=
  List.foldl_append

theorem isFired_applyAll_of_isFired (handles : Signals) (handle : Handle) (notices : List Notice)
    (hfired : handles.isFired handle = true) :
    (handles.applyAll notices).isFired handle = true := by
  induction notices generalizing handles with
  | nil => exact hfired
  | cons notice rest ih => exact ih _ (isFired_apply_of_isFired handles handle notice hfired)

end Signals

/-- How far the watch over one handle has come. -/
inductive Watch where
  /-- Nothing has been looked at yet. -/
  | fresh
  /-- The handle had not fired in the version that was seen last. -/
  | waiting (seen : Nat)
  /-- The handle was released and can no longer fire. -/
  | parked
  /-- The handle has fired. -/
  | ended
deriving DecidableEq, Repr

namespace Watch

/-- Look at the newest version: it is seen then, and only a release could be told of. -/
def look (signal : Signal) : Watch :=
  if signal.fired then .ended else if signal.released then .parked else .waiting signal.version

/-- Go on with the watch as far as the handle allows it. -/
def poll (signal : Signal) : Watch → Watch
  | fresh => look signal
  | waiting seen =>
    -- a new version comes before the news of a release
    if signal.version ≠ seen then look signal
    else if signal.released then .parked
    else .waiting seen
  | parked => .parked
  | ended => .ended

end Watch

/-- How a wait ended, and when. -/
inductive Wait where
  /-- The context was done first. -/
  | done (time : Instant)
  /-- What was waited for came first. -/
  | finished (time : Instant)
deriving DecidableEq, Repr

namespace Wait

/-- Which comes first, the end of a context or another instant; at one and the same
instant the context does. -/
def race (expiry? : Option Instant) (finish : Instant) : Wait :=
  match expiry? with
  | some expiry => if expiry ≤ finish then .done expiry else .finished finish
  | none => .finished finish

/-- When the wait ended. -/
def time : Wait → Instant
  | done time => time
  | finished time => time

theorem race_of_le {expiry finish : Instant} (hle : expiry ≤ finish) :
    race (some expiry) finish = .done expiry := if_pos hle

theorem race_of_forall_not_le {expiry? : Option Instant} {finish : Instant}
    (hlate : ∀ expiry, expiry? = some expiry → ¬ expiry ≤ finish) :
    race expiry? finish = .finished finish := by
  cases expiry? with
  | none => rfl
  | some expiry => exact if_neg (hlate expiry rfl)

/-- Whether what was waited for came to its end. -/
def isFinished : Wait → Bool
  | done _ => false
  | finished _ => true

/-- What the caller gets of an outcome that was waited for. -/
def outcome {ε β : Type} (wait : Wait) (canceled : ε) (own : Except ε β) : Except ε β :=
  match wait with
  | done _ => .error canceled
  | finished _ => own

end Wait

/-- A watch over each of some handles. -/
abbrev Watches := List (Handle × Watch)

namespace Watches

/-- Go on with every watch. -/
def poll (watches : Watches) (handles : Signals) : Watches :=
  watches.map fun entry => (entry.1, entry.2.poll (handles.signal entry.1))

/-- Whether one of the watches has ended. -/
def isOver (watches : Watches) : Bool := watches.any fun entry => decide (entry.2 = .ended)

/-- When the first watch ends or the timer goes off. -/
def await? (expiry? : Option Instant) (watches : Watches) (handles : Signals) :
    List Round → Option Instant
  | [] => expiry?
  | round :: later =>
    if expiry?.any fun expiry => decide (expiry ≤ round.time) then expiry?
    else
      let changed := handles.applyAll round.notices
      let watches := watches.poll changed
      if watches.isOver then some round.time else await? expiry? watches changed later

/-- How a future ends that would come to its own end at an instant.  There is a look in every
round, and one when the timer goes off or the future has come to its end before the next round.  At
each look the watches come first, then the timer, and the future last. -/
def drive (expiry? : Option Instant) (finish : Instant) (watches : Watches)
    (handles : Signals) : List Round → Wait
  | [] => Wait.race expiry? finish
  | round :: later =>
    let unwatched := Wait.race expiry? finish
    if unwatched.time < round.time then unwatched
    else
      let changed := handles.applyAll round.notices
      let watches := watches.poll changed
      if watches.isOver then .done round.time
      else if unwatched.time = round.time then unwatched
      else drive expiry? finish watches changed later

end Watches

namespace Context

/-- When the timer of the deadline goes off that is set at an instant: at once if the deadline
has come. -/
def expiry? (context : Context) (now : Instant) : Option Instant :=
  context.deadline.map fun deadline => ⟨max now.nanos deadline.nanos⟩

/-- A watch over each handle. -/
def watches (context : Context) : Watches := context.handles.map fun handle => (handle, .fresh)

/-- When a wait for the end of the context is over that begins at an instant.  With no handle to
watch there is the timer only. -/
def doneFrom? (context : Context) (handles : Signals) (now : Instant) (rounds : List Round) :
    Option Instant :=
  if context.handles.isEmpty then context.expiry? now
  else context.watches.await? (context.expiry? now) handles (⟨now, []⟩ :: rounds)

/-- How a future ends that runs under the context from an instant on.  It is not even begun if the
context is done. -/
def run (context : Context) (handles : Signals) (now finish : Instant) (rounds : List Round) :
    Wait :=
  if context.isDone handles now then .done now
  else if context.handles.isEmpty then Wait.race (context.expiry? now) finish
  else context.watches.drive (context.expiry? now) finish handles (⟨now, []⟩ :: rounds)

end Context

end Throttle
