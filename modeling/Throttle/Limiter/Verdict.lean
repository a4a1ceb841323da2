import Throttle.Time

/-!
# Verdicts

What a limiter says about one call, and the two ways in which it is told to others: as a
JSON object, with the reset time in milliseconds, and as response headers, with the reset
time as a point of the wall clock.
-/

namespace Throttle

/-- What a limiter says about one call. -/
structure Verdict where
  /-- Whether the call may proceed. -/
  allowed : Bool
  /-- The configured limit. -/
  limit : Nat
  /-- What is left after this call. -/
  remaining : Nat
  /-- The time until more is available. -/
  resetAfter : Duration
deriving DecidableEq, Repr

/-- The wall times that a calendar covers. -/
structure Calendar where
  first : WallTime
  last : WallTime

/-- The calendar in use: the years -262143 to 262142. -/
def calendar : Calendar where
  first := ⟨-8334601228800 * nanosPerSecond⟩
  last := ⟨8210266876800 * nanosPerSecond - 1⟩

/-- The longest duration that can be added to a wall time, `2 ^ 63 - 1` milliseconds. -/
def longestStep : Duration := .ofMillis (twoTo 63 - 1)

namespace Verdict

/-- The milliseconds until the reset, in a word of 64 bits. -/
def resetMillis (verdict : Verdict) : Nat := verdict.resetAfter.millis % twoTo 64

/-- The verdict as a JSON object. -/
def json (verdict : Verdict) : String :=
  "\x7b\"allowed\":" ++ (if verdict.allowed then "true" else "false") ++
    ",\"limit\":" ++ toString verdict.limit ++
    ",\"remaining\":" ++ toString verdict.remaining ++
    ",\"reset_after_ms\":" ++ toString verdict.resetMillis ++ "\x7d"

/-- When more is available, seen from a wall time; the same wall time if that point is
beyond the calendar or too far off. -/
def resetTime (verdict : Verdict) (wall : WallTime) : WallTime :=
  -- a wait has no sign, so the first wall time of the calendar cannot be passed
  let reset : WallTime := ⟨wall.nanos + verdict.resetAfter.nanos⟩
  if verdict.resetAfter ≤ longestStep ∧ reset.nanos ≤ calendar.last.nanos then reset else wall

/-- The response headers, seen from a wall time. -/
def headersAt (verdict : Verdict) (wall : WallTime) : List (String × String) :=
  [("X-RateLimit-Limit", toString verdict.limit),
   ("X-RateLimit-Remaining", toString verdict.remaining),
   ("X-RateLimit-Reset", Decimal.wholeText (verdict.resetTime wall).seconds)]

end Verdict

end Throttle
