import Throttle.Numeric.Quantity
import Throttle.Table

/-!
# The key space of a server

A server holds texts, lists and hashes under keys, each with the millisecond of its expiry
if it has one.  A key lives through the millisecond of its expiry and is gone after it;
`live` drops what is gone, and every command works on what is left.

A command that fails changes nothing.  A script runs several commands, and what it wrote
before one of them failed stays (`Script`).
-/

namespace Throttle

/-- Why a command failed. -/
inductive CommandError where
  /-- The key holds a value of another type. -/
  | wrongType
  /-- An argument or a value is not an integer that fits. -/
  | notInteger
  /-- A counter is at its largest value. -/
  | overflow
  /-- An expiry cannot be represented; the command is named. -/
  | invalidExpiry (command : String)
  /-- The script computed with something that is no number. -/
  | notNumber
  /-- There is no such command. -/
  | unknownCommand
deriving DecidableEq, Repr

namespace CommandError

/-- The line that the server sends. -/
def line : CommandError → String
  | wrongType => "WRONGTYPE Operation against a key holding the wrong kind of value"
  | notInteger => "ERR value is not an integer or out of range"
  | overflow => "ERR increment or decrement would overflow"
  | invalidExpiry command => "ERR invalid expire time in '" ++ command ++ "' command"
  | notNumber => "ERR attempt to perform arithmetic on a nil value"
  | unknownCommand => "ERR unknown command"

end CommandError

/-- What a field of a hash holds: a text, or a number that a script wrote. -/
inductive Field (α : Type) where
  | text (text : String)
  | number (number : α)
deriving DecidableEq, Repr

/-- The number in a field, as a script reads it. -/
def Field.number? {α : Type} [Quantity α] : Field α → Option α
  | .text written => Quantity.scriptRead? written
  | .number value => some value

/-- What a key holds. -/
inductive Content (α : Type) where
  | text (text : String)
  | list (items : List String)
  | hash (fields : Table String (Field α))

/-- The type of a key. -/
inductive KeyType where
  | missing
  | text
  | list
  | hash
deriving DecidableEq, Repr

/-- A key's content, and the millisecond of its expiry. -/
structure Entry (α : Type) where
  content : Content α
  expiresAt : Option Int

/-- All keys of a server. -/
structure KeySpace (α : Type) where
  table : Table String (Entry α)

namespace KeySpace

variable {α : Type}

/-- A server without keys. -/
def empty : KeySpace α := ⟨.empty⟩

/-- Whether an entry is still there at a millisecond. -/
def isLive (now : Int) (entry : Entry α) : Bool :=
  match entry.expiresAt with
  | some expiry => decide (now ≤ expiry)
  | none => true

/-- What is still there at a millisecond. -/
def live (space : KeySpace α) (now : Int) : KeySpace α :=
  ⟨space.table.filter fun _ entry => isLive now entry⟩

/-- The type of a key. -/
def typeOf (space : KeySpace α) (key : String) : KeyType :=
  match space.table.get? key with
  | none => .missing
  | some entry =>
    match entry.content with
    | .text _ => .text
    | .list _ => .list
    | .hash _ => .hash

/-- Whether there is such a key. -/
def contains (space : KeySpace α) (key : String) : Bool :=
  (space.table.get? key).isSome

/-- The expiry of a key, if it has one. -/
def expiryOf? (space : KeySpace α) (key : String) : Option Int :=
  (space.table.get? key).bind Entry.expiresAt

/-- The key space with a content for a key, which keeps its expiry. -/
def write (space : KeySpace α) (key : String) (content : Content α) : KeySpace α :=
  ⟨space.table.insert key ⟨content, space.expiryOf? key⟩⟩

/-- Add one to a counter; a missing counter is zero. -/
def increment (space : KeySpace α) (key : String) :
    Except CommandError (Int × KeySpace α) :=
  let count (number : Int) : Except CommandError (Int × KeySpace α) :=
    if number = (twoTo 63 : Int) - 1 then .error .overflow
    else .ok (number + 1, space.write key (.text (Decimal.wholeText (number + 1))))
  match space.table.get? key with
  | none => count 0
  | some ⟨.text written, _⟩ =>
    match Decimal.readCanonical? written with
    | some number => count number
    | none => .error .notInteger
  | some _ => .error .wrongType

/-- Let a key expire so many milliseconds from now; one that would not outlive now is
removed.  The command is named in the error. -/
def expireAfter (space : KeySpace α) (now : Int) (key : String) (millis : Int)
    (command : String) : Except CommandError (Bool × KeySpace α) :=
  if ¬ Decimal.FitsSigned millis ∨ ¬ Decimal.FitsSigned (now + millis) then
    .error (.invalidExpiry command)
  else
    match space.table.get? key with
    | none => .ok (false, space)
    | some entry =>
      if millis ≤ 0 then .ok (true, ⟨space.table.erase key⟩)
      else .ok (true, ⟨space.table.insert key { entry with expiresAt := some (now + millis) }⟩)

/-- Let a key expire after the milliseconds that a text writes. -/
def expireMillis (space : KeySpace α) (now : Int) (key text : String) :
    Except CommandError (Bool × KeySpace α) :=
  match Decimal.readCanonical? text with
  | some millis => space.expireAfter now key millis "pexpire"
  | none => .error .notInteger

/-- Let a key expire after a number of seconds, if it is a number. -/
def expireSeconds (space : KeySpace α) (now : Int) (key : String) (seconds? : Option Int) :
    Except CommandError (Bool × KeySpace α) :=
  match seconds? with
  | some seconds => space.expireAfter now key (seconds * 1000) "expire"
  | none => .error .notInteger

/-- The milliseconds a key has left: -1 if it does not expire, -2 if there is none. -/
def millisLeft (space : KeySpace α) (now : Int) (key : String) : Int :=
  match space.table.get? key with
  | none => -2
  | some entry =>
    match entry.expiresAt with
    | some expiry => expiry - now
    | none => -1

/-- The fields of a hash; a missing key has none. -/
def fields (space : KeySpace α) (key : String) :
    Except CommandError (Table String (Field α)) :=
  match space.table.get? key with
  | none => .ok .empty
  | some ⟨.hash fields, _⟩ => .ok fields
  | some _ => .error .wrongType

/-- Set fields of a hash and tell how many are new. -/
def setFields (space : KeySpace α) (key : String) (changes : List (String × Field α)) :
    Except CommandError (Nat × KeySpace α) :=
  match space.fields key with
  | .error error => .error error
  | .ok old =>
    let new := changes.foldl (fun table change => table.insert change.1 change.2) old
    .ok (new.size - old.size, space.write key (.hash new))

/-- Append items to a list and tell its length. -/
def append (space : KeySpace α) (key : String) (items : List String) :
    Except CommandError (Nat × KeySpace α) :=
  match space.table.get? key with
  | none => .ok (items.length, space.write key (.list items))
  | some ⟨.list old, _⟩ =>
    .ok ((old ++ items).length, space.write key (.list (old ++ items)))
  | some _ => .error .wrongType

/-- Hold a text under a key, whatever it held before, without an expiry. -/
def set (space : KeySpace α) (key text : String) : KeySpace α :=
  ⟨space.table.insert key ⟨.text text, none⟩⟩

/-- Remove keys and tell how many there were. -/
def delete (space : KeySpace α) (keys : List String) : Nat × KeySpace α :=
  let left : KeySpace α := ⟨keys.foldl Table.erase space.table⟩
  (space.table.size - left.table.size, left)

/-- The keys and what they hold, in the order of the keys. -/
def dump (space : KeySpace α) : List (String × Entry α) :=
  space.table.entries.mergeSort fun first second => decide (first.1 ≤ second.1)

end KeySpace

/-! ## Commands given directly -/

/-- What a command given directly is answered with. -/
inductive CommandReply where
  | integer (number : Int)
  | simple (text : String)
  | error (line : String)
deriving DecidableEq, Repr

/-- The name of a key's type. -/
def KeyType.name : KeyType → String
  | missing => "none"
  | text => "string"
  | list => "list"
  | hash => "hash"

/-- Fields and texts in turn. -/
def pairFields {α : Type} : List String → List (String × Field α)
  | field :: text :: rest => (field, .text text) :: pairFields rest
  | _ => []

namespace KeySpace

variable {α : Type}

private def answer {β : Type} (space : KeySpace α) (outcome : Except CommandError (β × KeySpace α))
    (report : β → Int) : CommandReply × KeySpace α :=
  match outcome with
  | .ok (value, changed) => (.integer (report value), changed)
  | .error error => (.error error.line, space)

/-- Run one command at a millisecond. -/
def execute (space : KeySpace α) (now : Int) (command : List String) :
    CommandReply × KeySpace α :=
  let space := space.live now
  match command with
  | ["TYPE", key] => (.simple (space.typeOf key).name, space)
  | "EXISTS" :: keys => (.integer (keys.countP fun key => space.contains key : Nat), space)
  | "DEL" :: keys =>
    let (removed, left) := space.delete keys
    (.integer removed, left)
  | ["SET", key, text] => (.simple "OK", space.set key text)
  | "RPUSH" :: key :: items => answer space (space.append key items) Int.ofNat
  | "HSET" :: key :: changes => answer space (space.setFields key (pairFields changes)) Int.ofNat
  | ["INCR", key] => answer space (space.increment key) id
  | ["PTTL", key] => (.integer (space.millisLeft now key), space)
  | ["PEXPIRE", key, millis] =>
    answer space (space.expireMillis now key millis) fun set => if set then 1 else 0
  | ["EXPIRE", key, seconds] =>
    answer space (space.expireSeconds now key (Decimal.readCanonical? seconds)) fun set =>
      if set then 1 else 0
  | _ => (.error CommandError.unknownCommand.line, space)

end KeySpace

end Throttle
