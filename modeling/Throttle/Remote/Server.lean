import Throttle.KeySpace.Script

/-!
# Servers

What is at the other end of a connection: a server whose replies are prepared, or one that
runs the scripts over a key space.  A server handles one command at a time and may hold its
reply back.
-/

namespace Throttle

/-- A request to run a script that the server may not know yet. -/
structure Evaluation where
  script : Script
  keys : List String
  arguments : List String
deriving DecidableEq, Repr

/-- What comes back over a connection. -/
inductive Arrival where
  | reply (reply : Reply)
  /-- The connection ends. -/
  | closed
  /-- Something that is no reply; the connection is of no use after it. -/
  | garbled

/-- What a server sends, and how long it holds it back. -/
structure Response where
  arrival : Arrival
  delay : Duration

/-- A server that runs the scripts. -/
structure ScriptServer (α : Type) where
  space : KeySpace α
  /-- What the server's clock shows at the start, in milliseconds. -/
  clock : Int
  /-- The scripts the server has been sent. -/
  known : List Script
  /-- How long the next replies are held back; once the list is used up, not at all. -/
  delays : List Duration

/-- The other end of a connection. -/
inductive Server (α : Type) where
  /-- Each request is answered by the next response. -/
  | prepared (responses : List Response)
  /-- Each request is answered by running its script. -/
  | running (server : ScriptServer α)

namespace ScriptServer

variable {α : Type}

/-- What the server's clock shows, in milliseconds. -/
def millisAt (server : ScriptServer α) (time : Instant) : Int :=
  server.clock + (time.nanos / nanosPerMilli : Nat)

/-- A server without keys that has not been sent a script. -/
def fresh (clock : Int) : ScriptServer α := ⟨.empty, clock, [], []⟩

/-- The reply to a script that the server does not know. -/
def missingScript : Reply :=
  .error ⟨"NOSCRIPT", some "No matching script. Please use EVAL."⟩

/-- Handle one request at an instant. -/
def handle [Quantity α] (server : ScriptServer α) (time : Instant) (request : Evaluation) :
    Response × ScriptServer α :=
  let delay := server.delays.head?.getD .zero
  let server := { server with delays := server.delays.tail }
  if request.script ∈ server.known then
    let run := request.script.run server.space (server.millisAt time) request.keys
      request.arguments
    let reply := match run.outcome with
      | .ok reply => reply
      | .error error => .error (.ofLine error.line)
    (⟨.reply reply, delay⟩, { server with space := run.space })
  else (⟨.reply missingScript, delay⟩, server)

end ScriptServer

namespace Server

variable {α : Type}

/-- The response when no more are prepared. -/
def exhausted : Response := ⟨.reply (.error (.ofLine "ERR no more replies")), .zero⟩

/-- Handle one request at an instant. -/
def handle [Quantity α] (server : Server α) (time : Instant) (request : Evaluation) :
    Response × Server α :=
  match server with
  | .prepared [] => (exhausted, server)
  | .prepared (response :: rest) => (response, .prepared rest)
  | .running state =>
    let (response, state) := state.handle time request
    (response, .running state)

/-- Send a script to the server. -/
def learn (server : Server α) (script : Script) : Server α :=
  match server with
  | .prepared _ => server
  | .running state => .running { state with known := script :: state.known }

end Server

end Throttle
