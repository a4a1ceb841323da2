import Throttle.Remote.Connection
import Throttle.Reply.Reading

/-!
# The store on a server

Each operation is one request to run a script.  If the server does not know the script it
is sent, and the request is made once more.

Three things can end a call: the caller's context, the command timeout and what the server
sends.  The first of them decides (`Ending.first`); at the same instant the context comes
before the others, and the timeout before the server.
-/

namespace Throttle

/-- How a call ends. -/
inductive Ending where
  /-- The caller's context is done. -/
  | canceled (time : Instant)
  /-- The command timeout is over. -/
  | timedOut (time : Instant)
  /-- Something arrives from the server. -/
  | delivered (delivery : Delivery)
  /-- Nothing ever happens. -/
  | pending

namespace Ending

/-- When a call ends this way. -/
def time? : Ending → Option Instant
  | canceled time => some time
  | timedOut time => some time
  | delivered delivery => some delivery.time
  | pending => none

/-- Whether a call has ended before an instant. -/
def isBefore (ending : Ending) (instant : Instant) : Bool :=
  match ending.time? with
  | some time => decide (time < instant)
  | none => false

/-- An ending, unless something else comes first or at the same instant. -/
def interruptedBy (ending : Ending) (other? : Option Instant) (interrupt : Instant → Ending) :
    Ending :=
  match other? with
  | some other => if ending.isBefore other then ending else interrupt other
  | none => ending

/-- The ending that comes first. -/
def first (doneAt timeoutAt : Option Instant) (delivery? : Option Delivery) : Ending :=
  let served := match delivery? with
    | some delivery => delivered delivery
    | none => pending
  (served.interruptedBy timeoutAt timedOut).interruptedBy doneAt canceled

end Ending

/-- A store on a server. -/
structure Remote (α : Type) where
  /-- What is put before every key. -/
  keyPrefix : String
  /-- How long a call may take. -/
  commandTimeout : Option Duration
  connection : Connection α

namespace Remote

variable {α : Type}

/-- The server's name for a key. -/
def serverKey (remote : Remote α) (key : String) : String := remote.keyPrefix ++ key

/-- What is appended to a key for the counter that has to live beside a bucket. -/
def windowSuffix : String := ":fixed_window"

/-- What is appended to a key for the bucket that has to live beside a counter. -/
def bucketSuffix : String := ":token_bucket"

/-- The milliseconds of a window as they are sent: at least one, in a word of 64 bits. -/
def windowMillis (window : Duration) : Nat := max window.millis 1 % twoTo 64

/-- The request to count a call. -/
def countRequest (remote : Remote α) (key : String) (window : Duration) : Evaluation where
  script := .countCall
  keys := [remote.serverKey key, remote.serverKey key ++ windowSuffix]
  arguments := [Decimal.wholeText (windowMillis window)]

/-- The request to take a token. -/
def takeRequest [Quantity α] (remote : Remote α) (wall : WallTime) (key : String) (rate : α)
    (burst : Nat) : Evaluation where
  script := .takeToken
  keys := [remote.serverKey key, remote.serverKey key ++ bucketSuffix]
  arguments :=
    [Quantity.text rate, Decimal.wholeText burst, Quantity.text (wall.inSeconds : α)]

/-- The words for a timeout. -/
def timeoutMessage (timeout : Duration) : String :=
  "command timed out after " ++ toString timeout.millis ++ "ms"

/-- The reply of an ended call, or why there is none. -/
def conclude (commandTimeout : Option Duration) (start : Instant) :
    Ending → Answer StoreFailure Reply
  | .canceled time => ⟨.error .canceled, time⟩
  | .timedOut time =>
    ⟨.error (.unavailable (commandTimeout.map timeoutMessage)), time⟩
  | .delivered ⟨time, .reply reply⟩ =>
    match reply.firstError? with
    | some error => ⟨.error error.failure, time⟩
    | none => ⟨.ok reply, time⟩
  | .delivered ⟨time, .closed⟩ => ⟨.error (.unavailable none), time⟩
  | .delivered ⟨time, .garbled⟩ => ⟨.error (.invalidReply none), time⟩
  | .pending => ⟨.error (.unavailable none), start⟩

/-- Whether a call ended with the word that the script is missing. -/
def wantsScript : Ending → Option Instant
  | .delivered ⟨time, .reply reply⟩ =>
    match reply.firstError? with
    | some error => if error.isMissingScript then some time else none
    | none => none
  | _ => none

/-- Make a request and wait for its end. -/
def roundTrip [Quantity α] (remote : Remote α) (moment : Moment) (request : Evaluation) :
    Answer StoreFailure Reply × Remote α :=
  if moment.isDone then (⟨.error .canceled, moment.now⟩, remote)
  else if remote.connection.isEnded moment.now then
    (⟨.error (.unavailable none), moment.now⟩, remote)
  else
    -- both attempts run against the same timeout, which counts from the call
    let timeoutAt := remote.commandTimeout.map moment.now.after
    let limit? := Instant.earlier? moment.doneAt timeoutAt
    let (delivery, connection) := remote.connection.send moment.now request limit?
    let ending := Ending.first moment.doneAt timeoutAt delivery
    match wantsScript ending with
    | some time =>
      -- a second time the script is not sent: its absence is then the answer
      let (delivery, connection) := (connection.load request.script).send time request limit?
      let ending := Ending.first moment.doneAt timeoutAt delivery
      (conclude remote.commandTimeout moment.now ending, { remote with connection })
    | none => (conclude remote.commandTimeout moment.now ending, { remote with connection })

/-- Read the reply of a call. -/
def readAnswer {β : Type} (answer : Answer StoreFailure Reply)
    (read : Reply → Except ReplyFault β) : Answer StoreFailure β :=
  { time := answer.time
    outcome := match answer.outcome with
      | .error failure => .error failure
      | .ok reply =>
        match read reply with
        | .ok value => .ok value
        | .error fault => .error (fault.failure reply) }

instance [Quantity α] : Store (Remote α) α where
  increment remote moment key window :=
    let (answer, remote) := remote.roundTrip moment (remote.countRequest key window)
    (readAnswer answer (Reply.readCount window), remote)
  take remote moment key rate burst :=
    let (answer, remote) :=
      remote.roundTrip moment (remote.takeRequest moment.wall key rate burst)
    (readAnswer answer Reply.readTake, remote)

/-- Let time pass up to an instant. -/
def advanceTo [Quantity α] (remote : Remote α) (target : Instant) : Remote α :=
  { remote with connection := remote.connection.advanceTo target }

/-! ## Description -/

/-- The text of a duration in the largest unit that is not above it, without zeros at the
end of the fraction. -/
def durationText (duration : Duration) : String :=
  let inUnit (unit : Nat) (name : String) : String :=
    let whole := Decimal.digits (duration.nanos / unit)
    let places := (Decimal.digits unit).length - 1
    let rest := Decimal.digits (duration.nanos % unit)
    let fraction := List.replicate (places - rest.length) '0' ++ rest
    let trimmed := (fraction.reverse.dropWhile (· = '0')).reverse
    String.ofList (if trimmed = [] then whole else whole ++ '.' :: trimmed) ++ name
  if 1000000000 ≤ duration.nanos then inUnit 1000000000 "s"
  else if 1000000 ≤ duration.nanos then inUnit 1000000 "ms"
  else if 1000 ≤ duration.nanos then inUnit 1000 "µs"
  else inUnit 1 "ns"

/-- The store in words, as it appears in logs. -/
def describe (keyPrefix : String) (commandTimeout : Option Duration) : String :=
  "RedisStore \x7b key_prefix: " ++ Text.quote keyPrefix ++ ", command_timeout: " ++
    (match commandTimeout with
      | some timeout => "Some(" ++ durationText timeout ++ ")"
      | none => "None") ++ " \x7d"

end Remote

end Throttle
