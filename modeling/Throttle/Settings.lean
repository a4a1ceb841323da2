import Throttle.Limiter
import Throttle.Text.Blank

/-!
# Settings

What an operator can choose: the backend that keeps the state, and the limiter over it.
Every setting has a standard value.  Settings are fit for use when the chosen backend and
the chosen algorithm can work with what they depend on; what is not chosen is not judged.
-/

namespace Throttle

/-- Which backend keeps the state. -/
inductive BackendKind where
  /-- Memory of one process. -/
  | memory
  /-- A server that several processes share. -/
  | shared
deriving DecidableEq, Repr

/-- The backends by the names that they are chosen by. -/
def BackendKind.names : List (String × BackendKind) :=
  [("memory", .memory), ("redis", .shared)]

/-- How calls are limited. -/
inductive Algorithm where
  | fixedWindow
  | tokenBucket
deriving DecidableEq, Repr

/-- The algorithms by the names that they are chosen by. -/
def Algorithm.names : List (String × Algorithm) :=
  [("fixed_window", .fixedWindow), ("token_bucket", .tokenBucket)]

/-- The settings of a store. -/
structure StoreSettings where
  backend : BackendKind := .memory
  /-- The milliseconds between two sweeps of the memory; zero for no sweeps. -/
  sweepMillis : Nat := 60000
  /-- Where the server is. -/
  address : String := "redis://127.0.0.1:6379"
  /-- What is put before every key on the server. -/
  keyPrefix : String := ""
  /-- The milliseconds a call to the server may take. -/
  commandTimeoutMillis : Option Nat := none
deriving DecidableEq, Repr

/-- The settings of a limiter. -/
structure LimiterSettings (α : Type) where
  algorithm : Algorithm
  /-- The calls allowed in a window. -/
  limit : Nat
  /-- The milliseconds of a window. -/
  windowMillis : Nat
  /-- The tokens that come back in a second. -/
  rate : α
  /-- The tokens a bucket holds. -/
  burst : Nat
deriving DecidableEq, Repr

/-- All settings. -/
structure Settings (α : Type) where
  store : StoreSettings
  limiter : LimiterSettings α
deriving DecidableEq, Repr

namespace StoreSettings

/-- The names of the settings, in the order of the fields. -/
def names : List String :=
  ["backend", "sweep_interval_ms", "redis_url", "key_prefix", "command_timeout_ms"]

/-- The time between two sweeps of the memory. -/
def sweepInterval (settings : StoreSettings) : Duration := .ofMillis settings.sweepMillis

/-- How long a call to the server may take. -/
def commandTimeout (settings : StoreSettings) : Option Duration :=
  settings.commandTimeoutMillis.map .ofMillis

/-- What makes the settings unfit for use, if anything. -/
def fault? (settings : StoreSettings) : Option ConfigFault :=
  if settings.backend = .shared ∧ Text.isAllBlank settings.address = true then
    some .missingAddress
  else if settings.commandTimeoutMillis = some 0 then some .zeroTimeout
  else none

end StoreSettings

namespace LimiterSettings

variable {α : Type} [Quantity α]

/-- The names of the settings, in the order of the fields. -/
def names : List String := ["algorithm", "limit", "window_ms", "rate", "burst"]

/-- The standard settings: a hundred calls a minute. -/
def standard : LimiterSettings α where
  algorithm := .fixedWindow
  limit := 100
  windowMillis := 60000
  rate := Quantity.ofInt 10
  burst := 20

/-- The length of a window. -/
def window (settings : LimiterSettings α) : Duration := .ofMillis settings.windowMillis

/-- The limiter that the settings describe, if there is one. -/
def build (settings : LimiterSettings α) : Except (Failure α) (Limiter α) :=
  match settings.algorithm with
  | .fixedWindow => (FixedWindow.new? settings.limit settings.window).map .fixedWindow
  | .tokenBucket => (TokenBucket.new? settings.rate settings.burst).map .tokenBucket

end LimiterSettings

namespace Settings

variable {α : Type} [Quantity α]

/-- The standard settings. -/
def standard : Settings α := ⟨{}, .standard⟩

/-- The first thing that makes the settings unfit for use, if anything: the store is looked
at before the limiter. -/
def failure? (settings : Settings α) : Option (Failure α) :=
  match settings.store.fault? with
  | some fault => some (.config fault)
  | none =>
    match settings.limiter.build with
    | .ok _ => none
    | .error failure => some failure

/-- The settings, if they are fit for use. -/
def validated (settings : Settings α) : Except (Failure α) (Settings α) :=
  match settings.failure? with
  | some failure => .error failure
  | none => .ok settings

/-- Settings that are fit for use describe a limiter. -/
theorem exists_limiter_of_failure?_eq_none (settings : Settings α)
    (hfit : settings.failure? = none) : ∃ limiter, settings.limiter.build = .ok limiter := by
  unfold failure? at hfit
  split at hfit
  · cases hfit
  · split at hfit
    · rename_i limiter hbuild
      exact ⟨limiter, hbuild⟩
    · cases hfit

end Settings

end Throttle
