import Throttle.KeySpace
import Throttle.Reply
import Throttle.Store

/-!
# The two scripts

Each operation of a store on a server is one script, which the server runs without
interruption.  A script is given the caller's key and a side key: it uses the side key
only while the key holds the state of the other algorithm, or while the side key is in use
already.

`Script.count` adds one to a counter and lets it expire after the window if it is new.
`Script.take` refills a bucket by the time between the clock readings of its callers, takes
a token if there is one, and lets the bucket expire after twice the time that it takes to
fill up, ten seconds at least.

Numbers pass through a script as quantities.  When a command fails, the script fails with
it, and what it wrote before stays written.
-/

namespace Throttle

/-- The scripts of the two operations. -/
inductive Script where
  | countCall
  | takeToken
deriving DecidableEq, Repr

/-- The outcome of a script, and the key space it leaves. -/
structure ScriptRun (α : Type) where
  outcome : Except CommandError Reply
  space : KeySpace α

namespace Script

variable {α : Type} [Quantity α]

/-- A whole number of a command as a script hands it on: made a quantity, and cut back to
a signed word.  What becomes of a quantity beyond the words is up to the server, which is taken to
stop at the last one. -/
def throughQuantity (α : Type) [Quantity α] (number : Int) : Int :=
  match Quantity.value? (Quantity.ofInt number : α) with
  | some value =>
    let whole := if value < 0 then value.ceil else value.floor
    max (-(twoTo 63 : Int)) (min whole ((twoTo 63 : Int) - 1))
  | none => 0

/-- The key that a script works on: the side key if it is in use, or if the key is, but
for something of another type. -/
def target (space : KeySpace α) (own : KeyType) (key side : String) : String :=
  if space.contains side ∨ (space.typeOf key ≠ .missing ∧ space.typeOf key ≠ own) then side
  else key

/-! ## Counting a call -/

/-- Add one to the counter of a key; a counter that is new expires after the window. -/
def count (space : KeySpace α) (now : Int) (key side window : String) : ScriptRun α :=
  let space := space.live now
  let counter := target space .text key side
  match space.increment counter with
  | .error error => ⟨.error error, space⟩
  | .ok (count, counted) =>
    -- only the call that began the counter sets its expiry, so the window never slides
    let expired :=
      if count = 1 then (counted.expireMillis now counter window).map Prod.snd else .ok counted
    match expired with
    | .error error => ⟨.error error, counted⟩
    | .ok left =>
      let report (number : Int) := Reply.integer (throughQuantity α number)
      ⟨.ok (.array [report count, report (left.millisLeft now counter)]), left⟩

/-! ## Taking a token -/

/-- What a bucket on the server holds: its tokens, and the clock reading of its last use. -/
structure Held (α : Type) where
  tokens : α
  lastUsed : α

/-- The bucket in a hash, if both of its fields are numbers. -/
def held? (fields : Table String (Field α)) : Option (Held α) := do
  let tokens ← (fields.get? "tokens").bind Field.number?
  let lastUsed ← (fields.get? "last_updated").bind Field.number?
  return ⟨tokens, lastUsed⟩

/-- The tokens after the refill up to a clock reading; none for a reading that is not later
than the last. -/
def refilled (held : Held α) (rate burst now : α) : α :=
  let elapsed := now - held.lastUsed
  if Quantity.ofInt 0 < elapsed then
    let tokens := held.tokens + elapsed * rate
    if burst < tokens then burst else tokens
  else held.tokens

/-- Take a token if there is one; a bucket that is not there yet is full. -/
def takeFrom (held? : Option (Held α)) (rate burst now : α) : TokenTake α :=
  match held? with
  | none => ⟨true, burst - Quantity.ofInt 1⟩
  | some held =>
    let tokens := refilled held rate burst now
    if Quantity.ofInt 1 ≤ tokens then ⟨true, tokens - Quantity.ofInt 1⟩ else ⟨false, tokens⟩

/-- The seconds after which a bucket expires. -/
def lifetime (rate burst : α) : α :=
  let seconds := Quantity.ceiling (burst / rate * Quantity.ofInt 2)
  if seconds < Quantity.ofInt 10 then Quantity.ofInt 10 else seconds

/-- A quantity as the integer argument of a command; from `10 ^ 17` on it is written with an
exponent and is none. -/
def argument? (quantity : α) : Option Int :=
  match Quantity.value? quantity with
  | some value => if value.den = 1 ∧ value.num.natAbs < tenTo 17 then some value.num else none
  | none => none

/-- Take a token from the bucket of a key. -/
def take (space : KeySpace α) (now : Int) (key side : String) (rate burst reading : α) :
    ScriptRun α :=
  let space := space.live now
  let bucket := target space .hash key side
  match space.fields bucket with
  | .error error => ⟨.error error, space⟩
  | .ok fields =>
    let taken := takeFrom (held? fields) rate burst reading
    match space.setFields bucket
        [("tokens", .number taken.remaining), ("last_updated", .number reading)] with
    | .error error => ⟨.error error, space⟩
    | .ok (_, written) =>
      -- the fields are written already when the expiry turns out to be unusable
      match written.expireSeconds now bucket (argument? (lifetime rate burst)) with
      | .error error => ⟨.error error, written⟩
      | .ok (_, left) =>
        ⟨.ok (.array [.integer (if taken.allowed then 1 else 0),
          .ofText (Quantity.scriptText taken.remaining)]), left⟩

/-! ## Running a script -/

/-- Run a script on its keys and arguments. -/
def run (script : Script) (space : KeySpace α) (now : Int) (keys arguments : List String) :
    ScriptRun α :=
  match script, keys, arguments with
  | .countCall, [key, side], [window] => count space now key side window
  | .takeToken, [key, side], [rate, burst, reading] =>
    match Quantity.scriptRead? rate, Quantity.scriptRead? burst, Quantity.scriptRead? reading with
    | some rate, some burst, some reading => take space now key side rate burst reading
    | _, _, _ => ⟨.error .notNumber, space.live now⟩
  | _, _, _ => ⟨.error .notNumber, space.live now⟩

end Script

end Throttle
