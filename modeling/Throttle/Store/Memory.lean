import Throttle.Store
import Throttle.Table

/-!
# The store in memory

Windows and buckets live in two tables.  The first call of a key anchors its window: the
window ends that much later, and no call before its end moves the end.  A bucket is
refilled when it is next used, by the time since its last use.

An entry expires: a window at its end, a bucket when it would be full again.  A sweep
removes what has expired; what it removes would have been started afresh by the next
call anyway.
-/

namespace Throttle

/-- What stands in for a window whose end cannot be represented: 365 days. -/
def longestWindow : Duration := .ofSeconds (365 * 24 * 3600)

/-- The calls counted in a window, and when it ends.  The count stands for a word of 64 bits and
agrees with it as long as fewer than `2 ^ 64` calls are made in one window. -/
structure Window where
  count : Nat
  expiresAt : Instant
deriving DecidableEq, Repr

namespace Window

/-- The window before its first call. -/
def fresh (now : Instant) : Window := ⟨0, now⟩

/-- When a window anchored at an instant ends. -/
def endOf (anchor : Instant) (window : Duration) : Instant :=
  (anchor.after? window).getD (anchor.after longestWindow)

/-- The window after one more call, anchored anew if it has not begun or is over. -/
def afterCall (held : Window) (now : Instant) (window : Duration) : Window :=
  if held.count = 0 ∨ held.expiresAt ≤ now then ⟨1, endOf now window⟩
  else { held with count := held.count + 1 }

/-- What the caller is told. -/
def report (held : Window) (now : Instant) : WindowCount :=
  ⟨held.count, now.timeUntil held.expiresAt⟩

end Window

/-- The tokens of a bucket when it was last used, and when it will be full again, if that
instant can be represented. -/
structure Bucket (α : Type) where
  tokens : α
  lastUsed : Instant
  expiresAt : Option Instant
deriving DecidableEq, Repr

namespace Bucket

variable {α : Type} [Quantity α]

/-- When a bucket of so many tokens is full again. -/
def fullAt? (now : Instant) (tokens rate burst : α) : Option Instant :=
  (Duration.ofSeconds? ((burst - tokens) / rate)).bind now.after?

/-- The bucket that holds so many tokens now. -/
def holding (now : Instant) (tokens rate burst : α) : Bucket α :=
  ⟨tokens, now, fullAt? now tokens rate burst⟩

/-- The first use of a bucket: it was full, and one token is gone. -/
def opened (now : Instant) (rate burst : α) : TokenTake α × Bucket α :=
  let tokens := Quantity.greater (burst - Quantity.ofInt 1) (Quantity.ofInt 0)
  (⟨decide (Quantity.ofInt 1 ≤ burst), tokens⟩, holding now tokens rate burst)

/-- The tokens after the refill for the time since the last use. -/
def refilled (held : Bucket α) (now : Instant) (rate burst : α) : α :=
  -- no time, no refill: the tokens are then not even cut down to the capacity
  let elapsed : α := (held.lastUsed.timeUntil now).inSeconds
  if Quantity.ofInt 0 < elapsed then Quantity.lesser (held.tokens + elapsed * rate) burst
  else held.tokens

/-- A later use of a bucket. -/
def take (held : Bucket α) (now : Instant) (rate burst : α) : TokenTake α × Bucket α :=
  let tokens := held.refilled now rate burst
  let allowed := decide (Quantity.ofInt 1 ≤ tokens)
  let remaining := if allowed then tokens - Quantity.ofInt 1 else tokens
  (⟨allowed, remaining⟩, holding now remaining rate burst)

end Bucket

/-- The windows and buckets of all keys. -/
structure Memory (α : Type) where
  windows : Table String Window
  buckets : Table String (Bucket α)

namespace Memory

variable {α : Type}

/-- No key has been used yet. -/
def empty : Memory α := ⟨.empty, .empty⟩

/-- Count a call in the window of a key. -/
def increment (memory : Memory α) (now : Instant) (key : String) (window : Duration) :
    WindowCount × Memory α :=
  let held := ((memory.windows.get? key).getD (.fresh now)).afterCall now window
  (held.report now, { memory with windows := memory.windows.insert key held })

/-- Take a token from the bucket of a key. -/
def take [Quantity α] (memory : Memory α) (now : Instant) (key : String) (rate : α)
    (burst : Nat) : TokenTake α × Memory α :=
  let capacity : α := Quantity.ofInt burst
  let (taken, held) := match memory.buckets.get? key with
    | some held => held.take now rate capacity
    | none => Bucket.opened now rate capacity
  (taken, { memory with buckets := memory.buckets.insert key held })

/-- The entries that have not expired. -/
def sweep (memory : Memory α) (now : Instant) : Memory α :=
  { windows := memory.windows.filter fun _ held => decide (now < held.expiresAt)
    buckets := memory.buckets.filter fun _ held =>
      match held.expiresAt with
      | some full => decide (now < full)
      | none => true }

/-- How many entries are held, expired or not. -/
def size (memory : Memory α) : Nat := memory.windows.size + memory.buckets.size

/-- An operation that anyone may do at any time. -/
inductive Operation (α : Type) where
  | increment (key : String) (window : Duration)
  | take (key : String) (rate : α) (burst : Nat)
  | sweep
deriving DecidableEq, Repr

/-- The outcome of an operation: a sweep tells how many entries it removed. -/
inductive Outcome (α : Type) where
  | counted (count : WindowCount)
  | taken (take : TokenTake α)
  | removed (entries : Nat)
deriving DecidableEq, Repr

/-- One operation at an instant. -/
def perform [Quantity α] (memory : Memory α) (now : Instant) :
    Operation α → Outcome α × Memory α
  | .increment key window =>
    let (count, memory) := memory.increment now key window
    (.counted count, memory)
  | .take key rate burst =>
    let (taken, memory) := memory.take now key rate burst
    (.taken taken, memory)
  | .sweep => (.removed (memory.size - (memory.sweep now).size), memory.sweep now)

instance [Quantity α] : Store (Memory α) α where
  increment memory moment key window :=
    if moment.isDone then (⟨.error .canceled, moment.now⟩, memory)
    else
      let (count, memory) := memory.increment moment.now key window
      (⟨.ok count, moment.now⟩, memory)
  take memory moment key rate burst :=
    if moment.isDone then (⟨.error .canceled, moment.now⟩, memory)
    else
      let (taken, memory) := memory.take moment.now key rate burst
      (⟨.ok taken, moment.now⟩, memory)

/-! ## Small facts -/

/-- A call changes no window but its key's. -/
theorem get?_windows_increment_of_ne (memory : Memory α) (now : Instant) {key other : String}
    (hother : other ≠ key) (window : Duration) :
    (memory.increment now key window).2.windows.get? other = memory.windows.get? other :=
  Table.get?_insert_of_ne _ hother _

/-- A call changes no bucket. -/
theorem buckets_increment (memory : Memory α) (now : Instant) (key : String)
    (window : Duration) : (memory.increment now key window).2.buckets = memory.buckets := rfl

/-- A take changes no window. -/
theorem windows_take [Quantity α] (memory : Memory α) (now : Instant) (key : String) (rate : α)
    (burst : Nat) : (memory.take now key rate burst).2.windows = memory.windows := by
  unfold take
  split <;> rfl

end Memory

end Throttle
