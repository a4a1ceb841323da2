import Throttle.Proofs.Remote.Lasting

/-!
# Many clients of one server

Any number of clients count calls for one key on the same server.  What is under way between a
caller and the server may take any time: an `Event` is one thing that happens somewhere, and a run
is any list of them.  The server takes up a request whole, and at most once: a caller whose script
the server does not know sends the script and its request once more, as `roundTrip` does.  A caller
who gives up does not take the request back, and what comes for it later is not read.

The log holds what the server has run, with what it held for the key before and after.  So the
order of the log is the order of the server, which need not be the order in which calls are made
or answers arrive.

A call that nothing disturbs is answered here as the store answers it (`Traffic.answer_of_alone`).
-/

namespace Throttle

variable {α : Type}

/-! ## A server that runs the scripts -/

/-- What a server sends for a script that it has run. -/
def ScriptRun.reply (run : ScriptRun α) : Reply :=
  match run.outcome with
  | .ok reply => reply
  | .error error => .error (.ofLine error.line)

namespace ScriptServer

variable [Quantity α] (server : ScriptServer α) (time : Instant) {request : Evaluation}

theorem handle_of_known (hknown : request.script ∈ server.known) :
    let run := request.runOn server.space (server.millisAt time)
    server.handle time request = (⟨.reply run.reply, server.delays.head?.getD .zero⟩,
      { server with delays := server.delays.tail, space := run.space }) := by
  unfold handle
  exact if_pos hknown

theorem handle_of_not_known (hknown : request.script ∉ server.known) :
    server.handle time request = (⟨.reply missingScript, server.delays.head?.getD .zero⟩,
      { server with delays := server.delays.tail }) := by
  unfold handle
  exact if_neg hknown

end ScriptServer

namespace Remote

open KeySpace

/-! ## What can happen -/

/-- What is under way between a caller and the server. -/
inductive Transit where
  /-- The request, for the first or for the second time. -/
  | request (isSecond : Bool)
  /-- The script, which the server has asked for. -/
  | script
  /-- The reply to the request. -/
  | reply (isSecond : Bool) (reply : Reply)
  | nothing

/-- A call that a client has made. -/
structure Issued (α : Type) where
  client : Remote α
  sentAt : Instant
  transit : Transit
  /-- What the caller has been told, if anything. -/
  answer? : Option (Answer StoreFailure WindowCount)

/-- What the server has done for one call. -/
structure Execution (α : Type) where
  /-- The number of the call. -/
  call : Nat
  millis : Int
  /-- The counter that was there, if any. -/
  found : Option (Entry α)
  reply : Reply
  /-- The counter that is there then, if any. -/
  left : Option (Entry α)

/-- A server and the calls that its clients have made, numbered in order. -/
structure Traffic (α : Type) where
  server : ScriptServer α
  now : Instant
  calls : List (Issued α)
  log : List (Execution α)

/-- One thing that happens; the calls are named by their numbers. -/
inductive Event (α : Type) where
  /-- A client makes a call. -/
  | send (client : Remote α)
  /-- The server takes up what a caller has sent. -/
  | execute (call : Nat)
  /-- What the server has sent reaches the caller. -/
  | receive (call : Nat)
  /-- The caller's context is done. -/
  | cancel (call : Nat)
  /-- The caller's timeout is over. -/
  | timeOut (call : Nat)
  /-- Time passes. -/
  | pass (time : Duration)

/-- The count that a caller has been told, if any. -/
def Issued.count? (call : Issued α) : Option WindowCount :=
  call.answer?.bind fun answer => answer.outcome.toOption

/-- What the caller is told if the call ends in some way. -/
def Issued.answerAt (call : Issued α) (window : Duration) (ending : Ending) :
    Answer StoreFailure WindowCount :=
  readAnswer (conclude call.client.commandTimeout call.sentAt ending) (Reply.readCount window)

/-- The call with its answer; a caller who has one is told nothing more. -/
def Issued.concludeWith (call : Issued α) (window : Duration) (ending : Ending) : Issued α :=
  { call with answer? := call.answer?.or (some (call.answerAt window ending)) }

/-- The count that the server has replied with, if a caller can read it. -/
def Execution.count? (execution : Execution α) (window : Duration) : Option Nat :=
  (Reply.readCount window execution.reply).toOption.map WindowCount.count

namespace Traffic

/-- No call yet. -/
def start (server : ScriptServer α) : Traffic α := ⟨server, .start, [], []⟩

/-- What the server's clock shows. -/
def millis (traffic : Traffic α) : Int := traffic.server.millisAt traffic.now

/-- The count that the caller of a number has been told, if any. -/
def count? (traffic : Traffic α) (index : Nat) : Option WindowCount :=
  traffic.calls[index]?.bind Issued.count?

/-- One call replaced. -/
def update (traffic : Traffic α) (index : Nat) (call : Issued α) : Traffic α :=
  { traffic with calls := traffic.calls.set index call }

variable [Quantity α]

/-- The server takes up what a caller has sent. -/
def execute (key : String) (window : Duration) (traffic : Traffic α) (index : Nat)
    (call : Issued α) : Traffic α :=
  match call.transit with
  | .request isSecond =>
    let request := call.client.countRequest key window
    let (response, server) := traffic.server.handle traffic.now request
    match response.arrival with
    | .reply reply =>
      let counter (space : KeySpace α) :=
        Script.countCall.stateAt space traffic.millis (call.client.serverKey key)
      { traffic.update index { call with transit := .reply isSecond reply } with
        server
        log := if request.script ∈ traffic.server.known then
            traffic.log ++
              [⟨index, traffic.millis, counter traffic.server.space, reply, counter server.space⟩]
          else traffic.log }
    | _ => { traffic.update index { call with transit := .nothing } with server }
  | .script =>
    { traffic.update index { call with transit := .request true } with
      server := { traffic.server with known := .countCall :: traffic.server.known } }
  | _ => traffic

/-- What the server has sent reaches a caller, who may have given up. -/
def receive (window : Duration) (traffic : Traffic α) (index : Nat) (call : Issued α) :
    Traffic α :=
  match call.transit with
  | .reply isSecond reply =>
    let ending := Ending.delivered ⟨traffic.now, .reply reply⟩
    if call.answer?.isNone ∧ isSecond = false ∧ (wantsScript ending).isSome then
      traffic.update index { call with transit := .script }
    else traffic.update index { call.concludeWith window ending with transit := .nothing }
  | _ => traffic

/-- What happens to the calls on a key with a window. -/
def step (key : String) (window : Duration) (traffic : Traffic α) : Event α → Traffic α
  | .send client =>
    { traffic with calls := traffic.calls ++ [⟨client, traffic.now, .request false, none⟩] }
  | .execute index => (traffic.calls[index]?).elim traffic (traffic.execute key window index)
  | .receive index => (traffic.calls[index]?).elim traffic (traffic.receive window index)
  | .cancel index => (traffic.calls[index]?).elim traffic fun call =>
    traffic.update index (call.concludeWith window (.canceled traffic.now))
  | .timeOut index => (traffic.calls[index]?).elim traffic fun call =>
    traffic.update index (call.concludeWith window (.timedOut traffic.now))
  | .pass time => { traffic with now := traffic.now.after time }

/-- All that happens, one thing after another. -/
def run (key : String) (window : Duration) (traffic : Traffic α) (events : List (Event α)) :
    Traffic α :=
  events.foldl (step key window) traffic

theorem run_append (key : String) (window : Duration) (traffic : Traffic α)
    (first second : List (Event α)) :
    traffic.run key window (first ++ second) =
      (traffic.run key window first).run key window second :=
  List.foldl_append

/-- The server runs the script of a request, if it knows it. -/
theorem execute_of_known {key : String} {window : Duration} {traffic : Traffic α} {index : Nat}
    {call : Issued α} {isSecond : Bool} (htransit : call.transit = .request isSecond)
    (hknown : .countCall ∈ traffic.server.known) :
    let name := call.client.serverKey key
    let run := Script.countRun traffic.server.space traffic.millis name window
    traffic.execute key window index call =
      { traffic.update index { call with transit := .reply isSecond run.reply } with
        server := { traffic.server with delays := traffic.server.delays.tail, space := run.space }
        log := traffic.log ++ [⟨index, traffic.millis,
          Script.countCall.stateAt traffic.server.space traffic.millis name, run.reply,
          Script.countCall.stateAt run.space traffic.millis name⟩] } := by
  have hscript : (call.client.countRequest key window).script ∈ traffic.server.known := hknown
  unfold execute
  rw [htransit]
  simp only
  rw [ScriptServer.handle_of_known _ _ hscript]
  simp only [if_pos hscript]
  rfl

/-- A request whose script the server does not know comes back. -/
theorem execute_of_not_known {key : String} {window : Duration} {traffic : Traffic α} {index : Nat}
    {call : Issued α} {isSecond : Bool} (htransit : call.transit = .request isSecond)
    (hknown : .countCall ∉ traffic.server.known) :
    traffic.execute key window index call =
      { traffic.update index
          { call with transit := .reply isSecond ScriptServer.missingScript } with
        server := { traffic.server with delays := traffic.server.delays.tail } } := by
  have hscript : (call.client.countRequest key window).script ∉ traffic.server.known := hknown
  unfold execute
  rw [htransit]
  simp only
  rw [ScriptServer.handle_of_not_known _ _ hscript]
  simp only [if_neg hscript]
  rfl

/-! ## A call that nothing disturbs -/

/-- What happens for a call that is made at an instant and answered at once.  To a caller who has
been answered nothing more happens. -/
def alone (client : Remote α) (now : Instant) : List (Event α) :=
  [.pass ⟨now.nanos⟩, .send client, .execute 0, .receive 0, .execute 0, .execute 0, .receive 0]

/-- **A call that nothing disturbs** is answered as the store answers it. -/
theorem answer_of_alone {remote : Remote α} {clock : Int} {space : KeySpace α} {known : List Script}
    {moment : Moment} (hidle : remote.connection.Idle clock space known moment.now)
    (htimeout : remote.commandTimeout ≠ some .zero) (hdone : moment.isDone = false) (key : String)
    (window : Duration) :
    ((start ⟨space, clock, known, []⟩).run key window (alone remote moment.now)).calls.map
        Issued.answer? =
      [some (Store.increment remote moment key window).1] := by
  have hserves : remote.Serves clock space moment.now := ⟨⟨known, hidle⟩, htimeout⟩
  obtain ⟨hmade, -, -⟩ := hserves.roundTrip rfl hdone .countCall (remote.serverKey key)
    (remote.serverKey key ++ windowSuffix) [Decimal.wholeText (windowMillis window)]
  have hstore : (Store.increment remote moment key window).1 =
      readAnswer ((Script.countRun space (moment.now.serverMillis clock) (remote.serverKey key)
        window).answer moment.now) (Reply.readCount window) :=
    congrArg (readAnswer · (Reply.readCount window)) hmade
  obtain ⟨hscript, hanswer⟩ := conclude_of_run .countCall space (moment.now.serverMillis clock)
    (remote.serverKey key) (remote.serverKey key ++ windowSuffix)
    [Decimal.wholeText (windowMillis window)] remote.commandTimeout moment.now moment.now
  set run := Script.countRun space (moment.now.serverMillis clock) (remote.serverKey key) window
  change wantsScript (.delivered ⟨moment.now, .reply run.reply⟩) = none at hscript
  change Remote.conclude remote.commandTimeout moment.now
    (.delivered ⟨moment.now, .reply run.reply⟩) = run.answer moment.now at hanswer
  have hhandle : ∀ scripts, Script.countCall ∈ scripts →
      ScriptServer.handle (⟨space, clock, scripts, []⟩ : ScriptServer α) moment.now
        (remote.countRequest key window) =
          (⟨.reply run.reply, .zero⟩, ⟨run.space, clock, scripts, []⟩) :=
    fun scripts hknown => ScriptServer.handle_of_known _ _ hknown
  have hpassed : Instant.start.after ⟨moment.now.nanos⟩ = moment.now :=
    congrArg Instant.mk (Nat.zero_add _)
  rw [hstore, ← hanswer]
  by_cases hknown : Script.countCall ∈ known
  · simp [Traffic.run, alone, step, start, execute, receive, update, hpassed, hhandle known hknown,
      hscript, Issued.concludeWith, Issued.answerAt]
  · have hmissing : ScriptServer.handle (⟨space, clock, known, []⟩ : ScriptServer α) moment.now
        (remote.countRequest key window) =
        (⟨.reply ScriptServer.missingScript, .zero⟩, ⟨space, clock, known, []⟩) :=
      ScriptServer.handle_of_not_known _ _ hknown
    have hwanted : wantsScript (.delivered ⟨moment.now, .reply ScriptServer.missingScript⟩) =
        some moment.now := rfl
    simp [Traffic.run, alone, step, start, execute, receive, update, hpassed, hmissing, hwanted,
      hhandle (.countCall :: known) (List.mem_cons_self ..),
      Issued.concludeWith, Issued.answerAt]

end Traffic

end Remote

end Throttle
