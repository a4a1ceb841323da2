import Throttle.Backend
import Throttle.Gate

/-!
# Scenarios

A scenario plays steps against limiters and gates over one store, on a clock that only
moves where a step says so: by its own length, or by the time that a call or a wait takes.
While the clock moves, the store's background sweep, the server behind a connection and the
notices still to come all have their turn.
-/

namespace Throttle

namespace Scenario

/-- A request to a gate: who sent it, and its key if it has one. -/
structure Request where
  id : String
  key : Option String
deriving DecidableEq, Repr

/-- How a gate of a scenario derives its keys. -/
inductive KeySource where
  /-- From the key that the request carries. -/
  | requestKey
  /-- Not at all. -/
  | unset
deriving DecidableEq, Repr

/-- The extractor of a key source. -/
def KeySource.extractor {α : Type} : KeySource → KeyExtractor α Request
  | requestKey => fun request =>
    match request.key with
    | some key => .ok key
    | none => .error (.keyExtraction "missing key")
  | unset => KeyExtractor.unset

/-- A gate of a scenario. -/
structure GatePlan where
  limiter : Nat
  keySource : KeySource
  /-- Whether denials are reported to a handler that keeps them. -/
  reports : Bool
deriving DecidableEq, Repr

/-- A change of a named handle, some time after a step begins. -/
structure Meanwhile where
  delay : Duration
  handle : String
  /-- Whether the handle fires; else it is released. -/
  fires : Bool
deriving DecidableEq, Repr

/-- One step.  Where a context is named, no name means the background. -/
inductive Step (α β : Type) where
  | increment (context : Option String) (key : String) (window : Duration)
  | take (context : Option String) (key : String) (rate : α) (burst : Nat)
  | allow (context : Option String) (limiter : Nat) (key : String)
  | allowGate (context : Option String) (gate : Nat) (key : String)
  | check (context : Option String) (gate : Nat) (request : Request)
  | advance (duration : Duration)
  | setWall (wall : WallTime)
  | sweep
  | sweeperActive
  | withCancel (name : String) (parent : Option String)
  | withTimeout (name : String) (parent : Option String) (timeout : Duration)
  | withDeadline (name : String) (parent : Option String) (deadline : Instant)
  | cancel (handle : String)
  | release (handle : String)
  | status (context : Option String)
  | waitDone (context : Option String) (limit : Duration) (meanwhile : List Meanwhile)
  | run (context : Option String) (sleep : Duration) (outcome : Except StoreFailure β)
      (meanwhile : List Meanwhile)
  | command (words : List String)
  | dump

/-- What a step is answered with. -/
inductive Outcome (α β : Type) where
  | counted (outcome : Except StoreFailure WindowCount)
  | taken (outcome : Except StoreFailure (TokenTake α))
  | judged (outcome : Except (Failure α) Verdict)
  | checked (outcome : Except (Failure α) Decision) (denials : List (Denial α Request))
  | elapsed (time : Instant)
  | removed (entries : Nat)
  | active (running : Bool)
  | status (done : Bool) (deadline : Option Instant)
  | waited (done : Bool)
  | ran (outcome : Except StoreFailure β) (completed : Bool)
  | replied (reply : CommandReply)
  | dumped (entries : List (String × Entry α)) (now : Int)
  /-- The step changed something and has nothing to tell. -/
  | settled
  /-- An instant could not be represented, and nothing changed. -/
  | unrepresentable
  /-- The step does not fit the scenario, and nothing changed. -/
  | unfit

/-- A scenario at some point. -/
structure Stage (α : Type) [Quantity α] where
  timeline : Timeline
  /-- What the wall clock showed, or would have shown, at the clock's start. -/
  wallAtStart : WallTime
  contexts : Table String Context
  handles : Table String Handle
  backend : Backend α
  limiters : List (Option (Limiter α))
  gates : List GatePlan

namespace Stage

variable {α β : Type} [Quantity α]

/-- A scenario before its first step. -/
def start (wall : WallTime) (backend : Backend α) (limiters : List (Option (Limiter α)))
    (gates : List GatePlan) : Stage α where
  timeline := .initial
  wallAtStart := wall
  contexts := .empty
  handles := .empty
  backend
  limiters
  gates

/-- The name of the context that ends a background sweep, and of its handle. -/
def sweepName : String := "sweep"

/-- A scenario before its first step, over a store in memory that is swept until the context
named for it is done. -/
def startSwept (wall : WallTime) (interval : Duration) (limiters : List (Option (Limiter α)))
    (gates : List GatePlan) : Stage α :=
  let (handle, timeline) := Timeline.initial.create
  let context := Context.background.withCancel handle
  { start wall (.memory (.sweptUntil context interval)) limiters gates with
    timeline
    contexts := Table.empty.insert sweepName context
    handles := Table.empty.insert sweepName handle }

/-- A scenario before its first step, over the store and the limiter that settings describe;
more limiters follow that one. -/
def ofSettings (wall : WallTime) (settings : Settings α) (limiters : List (Option (Limiter α)))
    (gates : List GatePlan) : Except (Failure α) (Stage α) := do
  let (handle, timeline) := Timeline.initial.create
  let context := Context.background.withCancel handle
  let backend ← Backend.ofSettings settings.store context
  let limiter ← settings.limiter.build
  return { start wall backend (some limiter :: limiters) gates with
    timeline
    contexts := Table.empty.insert sweepName context
    handles := Table.empty.insert sweepName handle }

/-- The context of a name. -/
def contextOf (stage : Stage α) (name : Option String) : Context :=
  (name.bind stage.contexts.get?).getD .background

/-- What the wall clock shows. -/
def wall (stage : Stage α) : WallTime :=
  ⟨stage.wallAtStart.nanos + stage.timeline.now.nanos⟩

/-- A call made now under a context. -/
def moment (stage : Stage α) (context : Option String) : Moment where
  now := stage.timeline.now
  wall := stage.wall
  doneAt := stage.timeline.doneFrom? (stage.contextOf context)

/-- The limiter of a number, if it could be made. -/
def limiter? (stage : Stage α) (index : Nat) : Option (Limiter α) :=
  (stage.limiters[index]?).join

/-- The gate of a number, if its limiter could be made. -/
def gate? (stage : Stage α) (index : Nat) : Option (GatePlan × Gate α Request) := do
  let plan ← stage.gates[index]?
  let limiter ← stage.limiter? plan.limiter
  return (plan, ⟨limiter, plan.keySource.extractor⟩)

/-- Let time pass up to an instant. -/
def advanceTo (stage : Stage α) (target : Instant) : Stage α :=
  { stage with
    backend := stage.backend.advanceTo stage.timeline target
    timeline := stage.timeline.advanceTo target }

/-- The stage after a call that changed the backend and was answered at an instant. -/
def settle (stage : Stage α) (backend : Backend α) (time : Instant) : Stage α :=
  { stage with backend }.advanceTo time

/-- The stage with a named context. -/
def name (stage : Stage α) (name : String) (context : Context) : Stage α :=
  { stage with contexts := stage.contexts.insert name context }

/-- The notice to a named handle, if there is one. -/
def notice? (stage : Stage α) (handle : String) (fires : Bool) : Option Notice :=
  (stage.handles.get? handle).map fun handle => if fires then .cancel handle else .release handle

/-- The stage after a notice to a named handle. -/
def notify (stage : Stage α) (handle : String) (fires : Bool) : Stage α :=
  match stage.notice? handle fires with
  | some notice => { stage with timeline := stage.timeline.apply notice }
  | none => stage

/-- The stage with notices still to come. -/
def expecting (stage : Stage α) (meanwhile : List Meanwhile) : Stage α :=
  meanwhile.foldl (fun stage event =>
    match stage.notice? event.handle event.fires with
    | some notice => { stage with timeline := stage.timeline.schedule event.delay notice }
    | none => stage) stage

/-- Ask a limiter about a call. -/
def ask (stage : Stage α) (context : Option String) (limiter : Limiter α) (key : String) :
    Outcome α β × Stage α :=
  let (answer, backend) := limiter.allow stage.backend (stage.moment context) key
  (.judged answer.outcome, stage.settle backend answer.time)

/-- Play one step. -/
def play (stage : Stage α) : Step α β → Outcome α β × Stage α
  | .increment context key window =>
    let (answer, backend) := Store.increment stage.backend (stage.moment context) key window
    (.counted answer.outcome, stage.settle backend answer.time)
  | .take context key rate burst =>
    let (answer, backend) := Store.take stage.backend (stage.moment context) key rate burst
    (.taken answer.outcome, stage.settle backend answer.time)
  | .allow context index key =>
    match stage.limiter? index with
    | some limiter => stage.ask context limiter key
    | none => (.unfit, stage)
  | .allowGate context index key =>
    match stage.gate? index with
    | some (_, gate) => stage.ask context gate.limiter key
    | none => (.unfit, stage)
  | .check context index request =>
    match stage.gate? index with
    | some (plan, gate) =>
      let (checked, backend) := gate.check stage.backend (stage.moment context) request
      (.checked checked.answer.outcome (if plan.reports then checked.denials else []),
       stage.settle backend checked.answer.time)
    | none => (.unfit, stage)
  | .advance duration =>
    let stage := stage.advanceTo (stage.timeline.now.after duration)
    (.elapsed stage.timeline.now, stage)
  | .setWall wall =>
    (.settled, { stage with wallAtStart := ⟨wall.nanos - stage.timeline.now.nanos⟩ })
  | .sweep =>
    match stage.backend with
    | .memory store =>
      match store.memory.perform stage.timeline.now .sweep with
      | (.removed entries, memory) =>
        (.removed entries, { stage with backend := .memory { store with memory } })
      | _ => (.unfit, stage)
    | _ => (.unfit, stage)
  | .sweeperActive =>
    match stage.backend with
    | .memory store => (.active (store.isActive stage.timeline), stage)
    | _ => (.unfit, stage)
  | .withCancel name parent =>
    let (handle, timeline) := stage.timeline.create
    let stage := { stage with timeline, handles := stage.handles.insert name handle }
    (.settled, stage.name name ((stage.contextOf parent).withCancel handle))
  | .withTimeout name parent timeout =>
    match (stage.contextOf parent).withTimeout? stage.timeline.now timeout with
    | some context => (.settled, stage.name name context)
    | none => (.unrepresentable, stage)
  | .withDeadline name parent deadline =>
    (.settled, stage.name name ((stage.contextOf parent).withDeadline deadline))
  | .cancel handle => (.settled, stage.notify handle true)
  | .release handle => (.settled, stage.notify handle false)
  | .status context =>
    let context := stage.contextOf context
    (.status (stage.timeline.isDone context) context.deadline, stage)
  | .waitDone context limit meanwhile =>
    let stage := stage.expecting meanwhile
    let wait := Wait.race (stage.timeline.doneFrom? (stage.contextOf context))
      (stage.timeline.now.after limit)
    (.waited (!wait.isFinished), stage.advanceTo wait.time)
  | .run context sleep outcome meanwhile =>
    let stage := stage.expecting meanwhile
    let wait := stage.timeline.run (stage.contextOf context) (stage.timeline.now.after sleep)
    (.ran (wait.outcome .canceled outcome) wait.isFinished, stage.advanceTo wait.time)
  | .command words =>
    match stage.backend with
    | .remote store =>
      match store.connection.server with
      | .running server =>
        let (reply, space) :=
          server.space.execute (server.millisAt stage.timeline.now) words
        let connection := { store.connection with server := .running { server with space } }
        (.replied reply, { stage with backend := .remote { store with connection } })
      | .prepared _ => (.unfit, stage)
    | _ => (.unfit, stage)
  | .dump =>
    match stage.backend with
    | .remote store =>
      match store.connection.server with
      | .running server =>
        let now := server.millisAt stage.timeline.now
        (.dumped (server.space.live now).dump now, stage)
      | .prepared _ => (.unfit, stage)
    | _ => (.unfit, stage)

/-- What can be seen of a step besides its outcome. -/
structure Trace where
  /-- How long the step took. -/
  took : Duration
  /-- What the server took up during the step. -/
  commands : List Command
  /-- How many windows and buckets are held in memory after the step. -/
  sizes : Option (Nat × Nat)

/-- Play one step and see what happens. -/
def observe (stage : Stage α) (step : Step α β) : (Outcome α β × Trace) × Stage α :=
  let (outcome, after) := { stage with backend := stage.backend.clearLog }.play step
  let sizes := match after.backend with
    | .memory store => some (store.memory.windows.size, store.memory.buckets.size)
    | _ => none
  ((outcome, ⟨stage.timeline.now.timeUntil after.timeline.now, after.backend.log, sizes⟩), after)

/-- Play steps one after another. -/
def playAll (stage : Stage α) : List (Step α β) → List (Outcome α β × Trace)
  | [] => []
  | step :: rest =>
    let (seen, after) := stage.observe step
    seen :: after.playAll rest

end Stage

end Scenario

end Throttle
