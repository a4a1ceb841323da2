import Throttle.Reply
import Throttle.Store

/-!
# Reading replies

A store on a server needs two shapes of replies: a counter with the milliseconds its key
has left, and a flag with the text of a token count.  Every other reply is refused, with
the reason and the reply in words.
-/

namespace Throttle

/-- Why a reply is not what a call needs. -/
inductive ReplyFault where
  | countNotArray
  | unexpectedCount
  | takeNotArray
  | unexpectedTake
  | tokensNotText
  | tokensNotNumber
  | tokensOutOfRange
deriving DecidableEq, Repr

namespace ReplyFault

/-- The reason in words. -/
def message : ReplyFault → String
  | countNotArray => "increment reply is not an array"
  | unexpectedCount => "unexpected increment reply"
  | takeNotArray => "take_token reply is not an array"
  | unexpectedTake => "unexpected take_token reply"
  | tokensNotText => "token count is not UTF-8"
  | tokensNotNumber => "token count is not a decimal number"
  | tokensOutOfRange => "token count out of range"

/-- What a caller of the store is told. -/
def failure (fault : ReplyFault) (reply : Reply) : StoreFailure :=
  .invalidReply (some (fault.message ++ ": " ++ reply.describe))

end ReplyFault

namespace Reply

/-- The time a window has left: what its key has left, but never more than the window; the
whole window for a key that does not expire. -/
def timeLeft (millis : Int) (window : Duration) : Duration :=
  if 0 ≤ millis then (Duration.ofMillis millis.toNat).shorter window else window

/-- The count that a reply reports. -/
def readCount (window : Duration) : Reply → Except ReplyFault WindowCount
  | array [integer count, integer millis] =>
    if 1 ≤ count then .ok ⟨count.toNat, timeLeft millis window⟩ else .error .unexpectedCount
  | array _ => .error .unexpectedCount
  | _ => .error .countNotArray

/-- A token count in range: finite and not below zero. -/
def readTokens {α : Type} [Quantity α] (allowed : Bool) (text : String) :
    Except ReplyFault (TokenTake α) :=
  match Quantity.read? text with
  | none => .error .tokensNotNumber
  | some (tokens : α) =>
    if !Quantity.isFinite tokens ∨ tokens < Quantity.ofInt 0 then .error .tokensOutOfRange
    else .ok ⟨allowed, tokens⟩

/-- Whether an integer says that a token was taken, if it says either. -/
def readFlag? (flag : Int) : Option Bool :=
  if flag = 0 then some false else if flag = 1 then some true else none

/-- The take that a reply reports. -/
def readTake {α : Type} [Quantity α] : Reply → Except ReplyFault (TokenTake α)
  | array [integer flag, bulk bytes] =>
    match readFlag? flag with
    | none => .error .unexpectedTake
    | some allowed =>
      match String.fromUTF8? bytes with
      | none => .error .tokensNotText
      | some text => readTokens allowed text
  | array [integer flag, simple text] =>
    match readFlag? flag with
    | none => .error .unexpectedTake
    | some allowed => readTokens allowed text
  | array _ => .error .unexpectedTake
  | _ => .error .takeNotArray

end Reply

end Throttle
