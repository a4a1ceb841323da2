import Throttle.Time

/-!
# What can go wrong

A store fails because its backend cannot be reached, because the caller gave up, or
because the backend's answer makes no sense.  Everything else that can go wrong is a
setting that cannot be used, a request without a key, or a denial reported to a handler.
-/

namespace Throttle

/-- Why a store gave no answer.  A detail is missing when its words are the transport's
own, which differ from one system to the next. -/
inductive StoreFailure where
  /-- The backend could not be reached or did not answer in time. -/
  | unavailable (detail : Option String)
  /-- The caller's context was done. -/
  | canceled
  /-- The backend answered with something of another shape. -/
  | invalidReply (detail : Option String)
deriving DecidableEq, Repr

namespace StoreFailure

/-- The words for a failure, if they are the library's own. -/
def message? : StoreFailure → Option String
  | unavailable detail => detail.map ("Backend unavailable: " ++ ·)
  | canceled => some "Operation canceled"
  | invalidReply detail => detail.map ("Invalid backend response: " ++ ·)

end StoreFailure

/-- What makes a configuration unusable. -/
inductive ConfigFault where
  /-- The text is not a configuration. -/
  | unreadable
  /-- The file or the environment does not hold a configuration. -/
  | unloadable
  /-- The shared backend is chosen and its address is blank. -/
  | missingAddress
  /-- A command may take no time at all. -/
  | zeroTimeout
deriving DecidableEq, Repr

namespace ConfigFault

/-- The words for a fault, up to where a reader's own words begin. -/
def message : ConfigFault → String
  | unreadable => "Failed to parse configuration"
  | unloadable => "Failed to load"
  | missingAddress => "redis_url is required for the redis backend"
  | zeroTimeout => "command_timeout_ms must be positive"

end ConfigFault

/-- Everything that can go wrong. -/
inductive Failure (α : Type) where
  | config (fault : ConfigFault)
  | store (failure : StoreFailure)
  /-- A refill rate that is not finite and positive. -/
  | invalidRate (rate : α)
  /-- A bucket that holds nothing. -/
  | invalidBurst (burst : Nat)
  /-- A window of no length. -/
  | invalidWindow
  /-- No key could be derived from a request. -/
  | keyExtraction (detail : String)
  /-- The request was denied. -/
  | limitExceeded
deriving DecidableEq, Repr

namespace Failure

variable {α : Type}

/-- The words for a failure, if they are the library's own. -/
def message? [Quantity α] : Failure α → Option String
  | config fault => some ("Configuration error: " ++ fault.message)
  | store failure => failure.message?
  | invalidRate rate =>
    some ("Invalid refill rate: " ++ Quantity.text rate ++ ". Rate must be finite and positive.")
  | invalidBurst burst =>
    some ("Invalid burst size: " ++ toString burst ++ ". Burst must be greater than zero.")
  | invalidWindow => some "Invalid window: window must be longer than zero"
  | keyExtraction detail => some ("Key extraction failed: " ++ detail)
  | limitExceeded => some "Rate limit exceeded"

/-- Whether the caller's context was done. -/
def isCanceled : Failure α → Bool
  | store .canceled => true
  | _ => false

end Failure

end Throttle
