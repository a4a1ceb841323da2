import Throttle.Store
import Throttle.Limiter.Verdict

/-!
# Token buckets

Bursts of calls up to the capacity of a bucket, which is refilled at a steady rate.
-/

namespace Throttle

/-- A rate of refill, in tokens per second, and the capacity of the bucket. -/
structure TokenBucket (α : Type) [Quantity α] where
  rate : α
  burst : Nat
  finite : Quantity.isFinite rate = true
  positive : ¬ rate ≤ Quantity.ofInt 0
  lasting : burst ≠ 0

namespace TokenBucket

variable {α : Type} [Quantity α]

/-- The limiter, if the rate is finite and positive and the bucket holds a token. -/
def new? (rate : α) (burst : Nat) : Except (Failure α) (TokenBucket α) :=
  if usable : Quantity.isFinite rate = true ∧ ¬ rate ≤ Quantity.ofInt 0 then
    if lasting : burst ≠ 0 then .ok ⟨rate, burst, usable.1, usable.2, lasting⟩
    else .error (.invalidBurst burst)
  else .error (.invalidRate rate)

/-- The capacity as a quantity. -/
def capacity (limiter : TokenBucket α) : α := Quantity.ofInt limiter.burst

/-- The time until the next whole token, none if the bucket is full; the longest duration
stands for a time that cannot be told. -/
def nextTokenAfter (limiter : TokenBucket α) (tokens : α) : Duration :=
  if limiter.capacity ≤ tokens then .zero
  else
    let missing := Quantity.floor tokens + Quantity.ofInt 1 - tokens
    (Duration.ofSeconds? (missing / limiter.rate)).getD .longest

/-- What a take says; a part of a token does not count as left. -/
def judge (limiter : TokenBucket α) (taken : TokenTake α) : Verdict :=
  let tokens := Quantity.clamp taken.remaining (Quantity.ofInt 0) limiter.capacity
  { allowed := taken.allowed
    limit := limiter.burst
    remaining := Quantity.wholeCount tokens
    resetAfter := limiter.nextTokenAfter tokens }

end TokenBucket

end Throttle
