import Throttle.Failure
import Throttle.Timeline

/-!
# Stores

A store keeps the state of all keys and has two operations: to count one more call in a
key's window, and to take a token from a key's bucket.  An operation is given the moment
at which it is called and tells, with its outcome, when the caller has it.
-/

namespace Throttle

/-- The outcome of counting a call. -/
structure WindowCount where
  /-- The calls in the window, this one included. -/
  count : Nat
  /-- The time until the window ends. -/
  resetAfter : Duration
deriving DecidableEq, Repr

/-- The outcome of taking a token. -/
structure TokenTake (α : Type) where
  /-- Whether a token was taken. -/
  allowed : Bool
  /-- The tokens left in the bucket. -/
  remaining : α
deriving DecidableEq, Repr

/-- When and for how long a caller waits. -/
structure Moment where
  /-- When the call is made. -/
  now : Instant
  /-- What the wall clock shows the caller. -/
  wall : WallTime
  /-- When the caller's context is done, if ever. -/
  doneAt : Option Instant
deriving DecidableEq, Repr

/-- Whether the caller's context is done when the call is made. -/
def Moment.isDone (moment : Moment) : Bool :=
  match moment.doneAt with
  | some done => decide (done ≤ moment.now)
  | none => false

/-- An outcome, and when the caller has it. -/
structure Answer (ε β : Type) where
  outcome : Except ε β
  time : Instant

/-- The answer with its outcome judged. -/
def Answer.judge {ε ε' β γ : Type} (answer : Answer ε β) (translate : ε → ε')
    (verdict : β → γ) : Answer ε' γ :=
  { time := answer.time
    outcome := match answer.outcome with
      | .ok outcome => .ok (verdict outcome)
      | .error failure => .error (translate failure) }

/-- State that counts calls and hands out tokens by key. -/
class Store (σ : Type) (α : outParam Type) where
  /-- Count one more call in the window of a key. -/
  increment : σ → Moment → String → Duration → Answer StoreFailure WindowCount × σ
  /-- Refill the bucket of a key and take a token if there is one. -/
  take : σ → Moment → String → α → Nat → Answer StoreFailure (TokenTake α) × σ

end Throttle
