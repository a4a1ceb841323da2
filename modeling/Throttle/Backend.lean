import Throttle.Remote
import Throttle.Settings
import Throttle.Store.Canned
import Throttle.Store.Sweeper

/-!
# Backends

One type for the stores that a limiter can be put over: a memory with its sweeper, a store
with answers prepared in advance, and a store on a server.
-/

namespace Throttle

/-- A store of any kind. -/
inductive Backend (α : Type) where
  | memory (store : SweptMemory α)
  | canned (store : Canned α)
  | remote (store : Remote α)

namespace Backend

variable {α : Type} [Quantity α]

instance : Store (Backend α) α where
  increment
    | memory store, moment, key, window =>
      let (answer, store) := Store.increment store moment key window
      (answer, memory store)
    | canned store, moment, key, window =>
      let (answer, store) := Store.increment store moment key window
      (answer, canned store)
    | remote store, moment, key, window =>
      let (answer, store) := Store.increment store moment key window
      (answer, remote store)
  take
    | memory store, moment, key, rate, burst =>
      let (answer, store) := Store.take store moment key rate burst
      (answer, memory store)
    | canned store, moment, key, rate, burst =>
      let (answer, store) := Store.take store moment key rate burst
      (answer, canned store)
    | remote store, moment, key, rate, burst =>
      let (answer, store) := Store.take store moment key rate burst
      (answer, remote store)

/-- Let time pass up to an instant.  A sweeper whose context is done just when a tick is due sees
that first. -/
def advanceTo (backend : Backend α) (timeline : Timeline) (target : Instant) : Backend α :=
  match backend with
  | memory store => memory (store.advanceTo timeline target false)
  | canned store => canned store
  | remote store => remote (store.advanceTo target)

/-- The backend with an empty log of commands. -/
def clearLog : Backend α → Backend α
  | remote store => remote { store with connection := store.connection.clearLog }
  | other => other

/-- The commands in the log. -/
def log : Backend α → List Command
  | remote store => store.connection.log
  | _ => []

/-- The store that settings describe, if they are fit for use and it can be reached; a memory
is swept until a context is done. -/
def ofSettings (settings : StoreSettings) (context : Context) :
    Except (Failure α) (Backend α) :=
  match settings.fault? with
  | some fault => .error (.config fault)
  | none =>
    match settings.backend with
    | .memory => .ok (memory (.sweptUntil context settings.sweepInterval))
    | .shared =>
      match Connection.dial settings.address with
      | .ok connection =>
        .ok (remote ⟨settings.keyPrefix, settings.commandTimeout, connection⟩)
      | .error failure => .error (.store failure)

end Backend

end Throttle
