import Throttle.Remote.Server

/-!
# Connections

A connection carries requests to a server in order.  The server takes up a request when it
has handled the one before, and is busy with it until it has sent its reply; a caller that
gives up waiting does not take its request back.  Once the connection has ended nothing
more is taken up.

The log holds what the server took up, with the instant at which it did.
-/

namespace Throttle

/-- A request on its way. -/
structure Sent where
  time : Instant
  request : Evaluation
deriving DecidableEq, Repr

/-- What a server took up. -/
inductive Command where
  | evaluate (keys arguments : List String)
  | loadScript
deriving DecidableEq, Repr

/-- A connection and the server behind it. -/
structure Connection (α : Type) where
  server : Server α
  /-- Until when the server is busy with what it has taken up. -/
  busyUntil : Instant
  /-- The requests that wait to be taken up, the oldest first. -/
  waiting : List Sent
  /-- When the connection ended, if it has or is going to by what was taken up. -/
  endedAt : Option Instant
  /-- What the server took up since the log was last cleared. -/
  log : List Command

/-- Something that arrives, and when. -/
structure Delivery where
  time : Instant
  arrival : Arrival

namespace Connection

variable {α : Type}

/-- A new connection to a server. -/
def ofServer (server : Server α) : Connection α := ⟨server, .start, [], none, []⟩

/-- Connect to a server by its address.  A connection over a network is not part of this
library, so no address can be reached. -/
def dial (_address : String) : Except StoreFailure (Connection α) :=
  .error (.unavailable none)

/-- When the server takes up a request, if nothing else is before it. -/
def takeUp (connection : Connection α) (sent : Sent) : Instant :=
  ⟨max sent.time.nanos connection.busyUntil.nanos⟩

/-- The server takes up a request and handles it. -/
def handle [Quantity α] (connection : Connection α) (sent : Sent) :
    Delivery × Connection α :=
  let time := connection.takeUp sent
  let (response, server) := connection.server.handle time sent.request
  let arrives := time.after response.delay
  let endedAt := match response.arrival with
    | .reply _ => none
    | _ => some arrives
  (⟨arrives, response.arrival⟩,
   { connection with
     server
     busyUntil := arrives
     endedAt
     log := connection.log ++ [.evaluate sent.request.keys sent.request.arguments] })

/-- The server takes up, in order, the requests whose turn comes up to an instant; without
an instant, all of them.  The delivery is the one to the last of the requests, if its turn
has come: a connection that ends before it delivers the end. -/
def serve [Quantity α] (limit? : Option Instant) (connection : Connection α) :
    List Sent → Option Delivery × Connection α
  | [] => (none, { connection with waiting := [] })
  | sent :: rest =>
    match connection.endedAt with
    | some ended => (some ⟨ended, .closed⟩, { connection with waiting := [] })
    | none =>
      let due := match limit? with
        | some limit => decide (connection.takeUp sent ≤ limit)
        | none => true
      if due then
        let (delivery, connection) := connection.handle sent
        match rest with
        | [] => (some delivery, { connection with waiting := [] })
        | _ => serve limit? connection rest
      else (none, { connection with waiting := sent :: rest })

/-- Let time pass up to an instant. -/
def advanceTo [Quantity α] (connection : Connection α) (target : Instant) : Connection α :=
  (connection.serve (some target) connection.waiting).2

/-- Send a request and let the server work up to an instant, or for as long as it takes. -/
def send [Quantity α] (connection : Connection α) (time : Instant) (request : Evaluation)
    (limit? : Option Instant) : Option Delivery × Connection α :=
  connection.serve limit? (connection.waiting ++ [⟨time, request⟩])

/-- Send a script, which the server takes up at once. -/
def load (connection : Connection α) (script : Script) : Connection α :=
  { connection with
    server := connection.server.learn script
    log := connection.log ++ [.loadScript] }

/-- Whether the connection has ended at an instant. -/
def isEnded (connection : Connection α) (time : Instant) : Bool :=
  match connection.endedAt with
  | some ended => decide (ended ≤ time)
  | none => false

/-- The connection with its log cleared. -/
def clearLog (connection : Connection α) : Connection α :=
  { connection with log := [] }

end Connection

end Throttle
