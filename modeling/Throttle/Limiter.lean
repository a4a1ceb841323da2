import Throttle.Limiter.FixedWindow
import Throttle.Limiter.TokenBucket

/-!
# Limiters

A limiter asks a store about one call for a key and turns the outcome into a verdict.  A
denial is a verdict, never a failure; a failure is the store's.
-/

namespace Throttle

/-- A way of limiting calls. -/
inductive Limiter (α : Type) [Quantity α] where
  | fixedWindow (limiter : FixedWindow)
  | tokenBucket (limiter : TokenBucket α)

namespace Limiter

variable {α σ : Type} [Quantity α] [Store σ α]

/-- Count one call for a key and decide whether it may proceed. -/
def allow (limiter : Limiter α) (store : σ) (moment : Moment) (key : String) :
    Answer (Failure α) Verdict × σ :=
  match limiter with
  | .fixedWindow limiter =>
    let (answer, store) := Store.increment store moment key limiter.window
    (answer.judge .store limiter.judge, store)
  | .tokenBucket limiter =>
    let (answer, store) := Store.take store moment key limiter.rate limiter.burst
    (answer.judge .store limiter.judge, store)

end Limiter

end Throttle
