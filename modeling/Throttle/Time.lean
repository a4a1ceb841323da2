import Throttle.Numeric.Quantity

/-!
# Durations and instants

Both are counted in nanoseconds.  An instant is a point on a clock that only moves
forward; its zero is the clock's start.  Seconds are a `Quantity`, since the refill of a
bucket is computed in them.
-/

namespace Throttle

/-- Nanoseconds in a second. -/
def nanosPerSecond : Nat := 1000000000

/-- Nanoseconds in a millisecond. -/
def nanosPerMilli : Nat := 1000000

/-- A length of time. -/
structure Duration where
  nanos : Nat
deriving DecidableEq, Repr

/-- A point on the clock. -/
structure Instant where
  nanos : Nat
deriving DecidableEq, Repr

namespace Duration

/-- No time at all. -/
def zero : Duration := ⟨0⟩

/-- The longest duration: `2 ^ 64` seconds less a nanosecond. -/
def longest : Duration := ⟨twoTo 64 * nanosPerSecond - 1⟩

/-- A whole number of milliseconds. -/
def ofMillis (count : Nat) : Duration := ⟨count * nanosPerMilli⟩

/-- A whole number of seconds. -/
def ofSeconds (count : Nat) : Duration := ⟨count * nanosPerSecond⟩

/-- The whole milliseconds in a duration. -/
def millis (duration : Duration) : Nat := duration.nanos / nanosPerMilli

instance : LE Duration := ⟨fun first second => first.nanos ≤ second.nanos⟩
instance : LT Duration := ⟨fun first second => first.nanos < second.nanos⟩
instance (first second : Duration) : Decidable (first ≤ second) :=
  inferInstanceAs (Decidable (first.nanos ≤ second.nanos))
instance (first second : Duration) : Decidable (first < second) :=
  inferInstanceAs (Decidable (first.nanos < second.nanos))

/-- The shorter of two durations. -/
def shorter (first second : Duration) : Duration := ⟨min first.nanos second.nanos⟩

/-- A duration in seconds, the whole seconds and the rest converted apart. -/
def inSeconds {α : Type} [Quantity α] (duration : Duration) : α :=
  Quantity.ofInt (duration.nanos / nanosPerSecond : Nat) +
    Quantity.ofInt (duration.nanos % nanosPerSecond : Nat) / Quantity.ofInt nanosPerSecond

/-- The duration of an amount of seconds, to the nearest nanosecond, halfway to the even
one.  An amount without a value, below zero or of `2 ^ 64` and more has none. -/
def ofSeconds? {α : Type} [Quantity α] (seconds : α) : Option Duration :=
  match Quantity.value? seconds with
  | some value =>
    let nanos := roundHalfEven (value.num.toNat * nanosPerSecond) value.den
    if 0 ≤ value.num ∧ nanos ≤ longest.nanos then some ⟨nanos⟩ else none
  | none => none

theorem shorter_le_left (first second : Duration) : shorter first second ≤ first :=
  Nat.min_le_left _ _

theorem shorter_le_right (first second : Duration) : shorter first second ≤ second :=
  Nat.min_le_right _ _

end Duration

namespace Instant

/-- The clock's start. -/
def start : Instant := ⟨0⟩

instance : LE Instant := ⟨fun first second => first.nanos ≤ second.nanos⟩
instance : LT Instant := ⟨fun first second => first.nanos < second.nanos⟩
instance (first second : Instant) : Decidable (first ≤ second) :=
  inferInstanceAs (Decidable (first.nanos ≤ second.nanos))
instance (first second : Instant) : Decidable (first < second) :=
  inferInstanceAs (Decidable (first.nanos < second.nanos))

/-- The instant a duration later. -/
def after (instant : Instant) (duration : Duration) : Instant :=
  ⟨instant.nanos + duration.nanos⟩

/-- Whether an instant can be represented: its seconds fit a signed word of 64 bits. -/
def Representable (instant : Instant) : Prop :=
  instant.nanos / nanosPerSecond < twoTo 63

instance (instant : Instant) : Decidable instant.Representable :=
  inferInstanceAs (Decidable (_ < _))

/-- The instant a duration later, if it can be represented. -/
def after? (instant : Instant) (duration : Duration) : Option Instant :=
  if (instant.after duration).Representable then some (instant.after duration) else none

/-- The time from one instant to another, none if the other is not later. -/
def timeUntil (earlier later : Instant) : Duration :=
  ⟨later.nanos - earlier.nanos⟩

/-- The earlier of two instants. -/
def earlier (first second : Instant) : Instant := ⟨min first.nanos second.nanos⟩

/-- The earlier of two instants that may never come. -/
def earlier? : Option Instant → Option Instant → Option Instant
  | some first, some second => some (first.earlier second)
  | some first, none => some first
  | none, second => second

theorem eq_of_le_of_le {first second : Instant} (hle : first ≤ second) (hge : second ≤ first) :
    first = second :=
  congrArg mk (Nat.le_antisymm hle hge)

theorem timeUntil_after (instant : Instant) (duration : Duration) :
    instant.timeUntil (instant.after duration) = duration := by
  simp [timeUntil, after]

theorem after?_eq_some {instant later : Instant} {duration : Duration}
    (hafter : instant.after? duration = some later) : later = instant.after duration := by
  unfold after? at hafter
  split at hafter
  · exact (Option.some.inj hafter).symm
  · cases hafter

end Instant

/-- What a wall clock shows: nanoseconds since the start of 1970, in either direction. -/
structure WallTime where
  nanos : Int
deriving DecidableEq, Repr

namespace WallTime

/-- The time of a count of seconds and of nanoseconds on top.  A whole second of nanoseconds
marks a leap second, which shows the second before it once more. -/
def ofParts (seconds : Int) (nanos : Nat) : WallTime :=
  let shown := if nanosPerSecond ≤ nanos then nanos - nanosPerSecond else nanos
  ⟨seconds * nanosPerSecond + shown⟩

/-- The whole seconds, rounded down. -/
def seconds (wall : WallTime) : Int := wall.nanos / nanosPerSecond

/-- The seconds with their fraction, the two parts converted apart. -/
def inSeconds {α : Type} [Quantity α] (wall : WallTime) : α :=
  Quantity.ofInt wall.seconds +
    Quantity.ofInt (wall.nanos % nanosPerSecond) / Quantity.ofInt nanosPerSecond

/-- The whole milliseconds, rounded down. -/
def millis (wall : WallTime) : Int := wall.nanos / nanosPerMilli

end WallTime

end Throttle
