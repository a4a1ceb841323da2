import Throttle.Proofs.KeySpace.Locality

/-!
# Runs over a store on a server

A run is a list of calls.  `history` pairs every call with what its caller is told, and is made
of nothing but the operations of the store.

Between a call and its script stand the connection, the timeout, the context and the script
that the server may not have been sent yet.  With a server that answers at once they decide
one thing only: whether the call is made at all.  `Serves.perform` says so for one call, and
`Serves.history_eq` for a run: it is the run of the scripts, one after another, on the key space
of the server (`replay`).
-/

namespace Throttle

variable {α : Type}

/-- What a script's name for its side key ends in. -/
def Script.suffix : Script → String
  | countCall => Remote.windowSuffix
  | takeToken => Remote.bucketSuffix

namespace Script

theorem append_suffix_ne (script : Script) (name : String) : name ++ script.suffix ≠ name := by
  intro heq
  have hempty := String.append_eq_left_iff.mp heq
  cases script <;> exact absurd hempty (by decide)

theorem append_suffix_other_ne (script : Script) (name : String) :
    name ++ script.other.suffix ≠ name ++ script.suffix := by
  intro heq
  have hsame := (String.append_right_inj name).mp heq
  cases script <;> exact absurd hsame (by decide)

end Script

/-- What the caller of a store has of a script. -/
def ScriptRun.answer (run : ScriptRun α) (time : Instant) : Answer StoreFailure Reply where
  time := time
  outcome := match run.outcome with
    | .ok reply => .ok reply
    | .error error => .error (ServerError.ofLine error.line).failure

theorem ScriptRun.answer_congr {left right : ScriptRun α}
    (houtcome : left.outcome = right.outcome) (time : Instant) :
    left.answer time = right.answer time := by
  unfold answer
  rw [houtcome]

namespace Instant

/-- What the clock of a server shows at an instant, counted from what it showed at the start. -/
def serverMillis (clock : Int) (instant : Instant) : Int :=
  clock + (instant.nanos / nanosPerMilli : Nat)

theorem serverMillis_le {first second : Instant} (clock : Int) (hle : first ≤ second) :
    first.serverMillis clock ≤ second.serverMillis clock := by
  have hdiv : first.nanos / nanosPerMilli ≤ second.nanos / nanosPerMilli := Nat.div_le_div_right hle
  unfold serverMillis
  omega

theorem le_serverMillis (clock : Int) (instant : Instant) : clock ≤ instant.serverMillis clock := by
  have hpassed := Int.natCast_nonneg (instant.nanos / nanosPerMilli)
  unfold serverMillis
  omega

end Instant

namespace Remote

/-- What a store can be asked for. -/
inductive Operation (α : Type) where
  | increment (key : String) (window : Duration)
  | take (key : String) (rate : α) (burst : Nat)
deriving DecidableEq, Repr

/-- An operation and the moment at which it is asked for. -/
structure Call (α : Type) where
  moment : Moment
  operation : Operation α
deriving DecidableEq, Repr

/-- What the caller is told, and when. -/
inductive Outcome (α : Type) where
  | counted (answer : Answer StoreFailure WindowCount)
  | taken (answer : Answer StoreFailure (TokenTake α))

namespace Call

/-- The key of a call. -/
def key (call : Call α) : String :=
  match call.operation with
  | .increment key _ => key
  | .take key _ _ => key

/-- The script of a call. -/
def script (call : Call α) : Script :=
  match call.operation with
  | .increment .. => .countCall
  | .take .. => .takeToken

/-- What the clock of a server shows at a call. -/
def millis (call : Call α) (clock : Int) : Int := call.moment.now.serverMillis clock

end Call

namespace Outcome

/-- The count that a caller is told. -/
def count? : Outcome α → Option WindowCount
  | counted answer => answer.outcome.toOption
  | taken _ => none

/-- The take that a caller is told of. -/
def take? : Outcome α → Option (TokenTake α)
  | counted _ => none
  | taken answer => answer.outcome.toOption

end Outcome

/-- No call is earlier than one before it. -/
def Chronological (calls : List (Call α)) : Prop :=
  calls.Pairwise fun earlier later => earlier.moment.now ≤ later.moment.now

instance (calls : List (Call α)) : Decidable (Chronological calls) :=
  inferInstanceAs (Decidable (calls.Pairwise _))

theorem Call.millis_le {first second : Call α} (clock : Int)
    (hle : first.moment.now ≤ second.moment.now) : first.millis clock ≤ second.millis clock :=
  Instant.serverMillis_le clock hle

theorem Call.le_millis (call : Call α) (clock : Int) : clock ≤ call.millis clock :=
  call.moment.now.le_serverMillis clock

/-- The instant at which a run is over that begins at an instant. -/
def endOf (now : Instant) (calls : List (Call α)) : Instant :=
  calls.foldl (fun _ call => call.moment.now) now

theorem endOf_le {calls : List (Call α)} {now later : Instant} (hnow : now ≤ later)
    (hcalls : ∀ call ∈ calls, call.moment.now ≤ later) : endOf now calls ≤ later := by
  induction calls generalizing now with
  | nil => exact hnow
  | cons call rest ih =>
      exact ih (hcalls call (List.mem_cons_self ..))
        fun other hother => hcalls other (List.mem_cons_of_mem _ hother)

/-- A store on a server without keys. -/
def onFreshServer (keyPrefix : String) (commandTimeout : Option Duration) (clock : Int) :
    Remote α :=
  ⟨keyPrefix, commandTimeout, .ofServer (.running (.fresh clock))⟩

variable [Quantity α]

namespace Call

/-- What a call's caller makes of the reply to its request. -/
def outcome (call : Call α) (answer : Answer StoreFailure Reply) : Outcome α :=
  match call.operation with
  | .increment _ window => .counted (readAnswer answer (Reply.readCount window))
  | .take .. => .taken (readAnswer answer Reply.readTake)

end Call

/-- The request that a call makes. -/
def request (remote : Remote α) (call : Call α) : Evaluation :=
  match call.operation with
  | .increment key window => remote.countRequest key window
  | .take key rate burst => remote.takeRequest call.moment.wall key rate burst

/-- Make one call. -/
def perform (remote : Remote α) (call : Call α) : Outcome α × Remote α :=
  match call.operation with
  | .increment key window =>
    let (answer, remote) := Store.increment remote call.moment key window
    (.counted answer, remote)
  | .take key rate burst =>
    let (answer, remote) := Store.take remote call.moment key rate burst
    (.taken answer, remote)

/-- The calls of a run with what their callers are told. -/
def history (remote : Remote α) : List (Call α) → List (Call α × Outcome α)
  | [] => []
  | call :: rest => (call, (remote.perform call).1) :: history (remote.perform call).2 rest

/-- The store after a run. -/
def after (remote : Remote α) (calls : List (Call α)) : Remote α :=
  calls.foldl (fun remote call => (remote.perform call).2) remote

theorem history_cons (remote : Remote α) (call : Call α) (rest : List (Call α)) :
    remote.history (call :: rest) =
      (call, (remote.perform call).1) :: (remote.perform call).2.history rest := rfl

theorem perform_eq (remote : Remote α) (call : Call α) :
    remote.perform call =
      (call.outcome (remote.roundTrip call.moment (remote.request call)).1,
        (remote.roundTrip call.moment (remote.request call)).2) := by
  unfold perform request Call.outcome
  cases call.operation <;> rfl

/-- A request names its key and the side key of its script. -/
theorem request_eq (remote : Remote α) (call : Call α) :
    ∃ arguments, remote.request call = ⟨call.script,
      [remote.serverKey call.key, remote.serverKey call.key ++ call.script.suffix], arguments⟩ := by
  unfold request Call.script Call.key
  cases call.operation <;> exact ⟨_, rfl⟩

/-! ## The scripts of a run -/

/-- One call of a store whose server holds a key space and answers at once. -/
def serve (remote : Remote α) (clock : Int) (space : KeySpace α) (call : Call α) :
    Outcome α × KeySpace α :=
  if call.moment.isDone then (call.outcome ⟨.error .canceled, call.moment.now⟩, space)
  else
    let run := (remote.request call).runOn space (call.millis clock)
    (call.outcome (run.answer call.moment.now), run.space)

/-- A call whose context is done is not made. -/
theorem serve_of_done (remote : Remote α) (clock : Int) (space : KeySpace α) {call : Call α}
    (hdone : call.moment.isDone = true) :
    remote.serve clock space call = (call.outcome ⟨.error .canceled, call.moment.now⟩, space) :=
  if_pos hdone

/-- The calls of a run with their outcomes, by their scripts alone. -/
def replay (remote : Remote α) (clock : Int) (space : KeySpace α) :
    List (Call α) → List (Call α × Outcome α)
  | [] => []
  | call :: rest =>
      (call, (remote.serve clock space call).1) ::
        replay remote clock (remote.serve clock space call).2 rest

theorem replay_cons (remote : Remote α) (clock : Int) (space : KeySpace α) (call : Call α)
    (rest : List (Call α)) :
    remote.replay clock space (call :: rest) = (call, (remote.serve clock space call).1) ::
      remote.replay clock (remote.serve clock space call).2 rest := rfl

/-- The key space after a run, by its scripts alone. -/
def spaceAfter (remote : Remote α) (clock : Int) (space : KeySpace α) (calls : List (Call α)) :
    KeySpace α :=
  calls.foldl (fun space call => (remote.serve clock space call).2) space

end Remote

/-! ## An idle connection -/

namespace Connection

/-- A connection on which nothing is under way, to a server that answers at once and knows some
scripts. -/
structure Idle (connection : Connection α) (clock : Int) (space : KeySpace α)
    (known : List Script) (now : Instant) : Prop where
  server_eq : connection.server = .running ⟨space, clock, known, []⟩
  busyUntil_le : connection.busyUntil ≤ now
  waiting_eq : connection.waiting = []
  endedAt_eq : connection.endedAt = none

namespace Idle

variable {connection : Connection α} {clock : Int} {space : KeySpace α} {known : List Script}
  {now : Instant} {request : Evaluation} {limit? : Option Instant}

theorem mono {later : Instant} (hidle : connection.Idle clock space known now)
    (hlater : now ≤ later) : connection.Idle clock space known later :=
  ⟨hidle.server_eq, Nat.le_trans hidle.busyUntil_le hlater, hidle.waiting_eq, hidle.endedAt_eq⟩

theorem load (hidle : connection.Idle clock space known now) (script : Script) :
    (connection.load script).Idle clock space (script :: known) now := by
  refine ⟨?_, hidle.busyUntil_le, hidle.waiting_eq, hidle.endedAt_eq⟩
  change connection.server.learn script = _
  rw [hidle.server_eq]
  rfl

theorem takeUp_eq (hidle : connection.Idle clock space known now) :
    connection.takeUp ⟨now, request⟩ = now :=
  congrArg Instant.mk (Nat.max_eq_left hidle.busyUntil_le)

variable [Quantity α]

/-- The server takes up a request at once. -/
theorem send_eq (hidle : connection.Idle clock space known now)
    (hlimit : ∀ limit ∈ limit?, now ≤ limit) :
    connection.send now request limit? =
      (some (connection.handle ⟨now, request⟩).1,
        { (connection.handle ⟨now, request⟩).2 with waiting := [] }) := by
  unfold send
  rw [hidle.waiting_eq, List.nil_append]
  unfold serve
  rw [hidle.endedAt_eq]
  cases limit? with
  | none => simp
  | some limit => simp [hidle.takeUp_eq, hlimit limit rfl]

/-- The reply of a script that the server knows. -/
theorem send_of_known (hidle : connection.Idle clock space known now) (request : Evaluation)
    (hlimit : ∀ limit ∈ limit?, now ≤ limit) (hknown : request.script ∈ known) :
    let run := request.runOn space (now.serverMillis clock)
    (connection.send now request limit?).1 = some ⟨now, .reply (match run.outcome with
      | .ok reply => reply
      | .error error => .error (.ofLine error.line))⟩ ∧
    (connection.send now request limit?).2.Idle clock run.space known now := by
  have hserver : connection.server.handle now request =
      (⟨.reply (match (request.runOn space (now.serverMillis clock)).outcome with
        | .ok reply => reply
        | .error error => .error (.ofLine error.line)), .zero⟩,
        .running ⟨(request.runOn space (now.serverMillis clock)).space, clock,
          known, []⟩) := by
    rw [hidle.server_eq]
    unfold Server.handle ScriptServer.handle
    simp only [hknown, if_true]
    rfl
  rw [hidle.send_eq hlimit]
  unfold handle
  simp only [hidle.takeUp_eq, hserver]
  exact ⟨rfl, rfl, Nat.le_refl _, rfl, rfl⟩

/-- The reply to a script that the server does not know. -/
theorem send_of_not_known (hidle : connection.Idle clock space known now) (request : Evaluation)
    (hlimit : ∀ limit ∈ limit?, now ≤ limit) (hknown : request.script ∉ known) :
    (connection.send now request limit?).1 =
      some ⟨now, .reply ScriptServer.missingScript⟩ ∧
    (connection.send now request limit?).2.Idle clock space known now := by
  have hserver : connection.server.handle now request =
      (⟨.reply ScriptServer.missingScript, .zero⟩, .running ⟨space, clock, known, []⟩) := by
    rw [hidle.server_eq]
    unfold Server.handle ScriptServer.handle
    simp only [hknown, if_false]
    rfl
  rw [hidle.send_eq hlimit]
  unfold handle
  simp only [hidle.takeUp_eq, hserver]
  exact ⟨rfl, rfl, Nat.le_refl _, rfl, rfl⟩

end Idle

end Connection

/-! ## A call -/

theorem Instant.le_of_mem_earlier? {first? second? : Option Instant} {now : Instant}
    (hfirst : ∀ first ∈ first?, now ≤ first) (hsecond : ∀ second ∈ second?, now ≤ second) :
    ∀ earliest ∈ earlier? first? second?, now ≤ earliest := by
  intro earliest hmem
  cases first? with
  | none => exact hsecond earliest hmem
  | some first =>
      cases second? with
      | none => exact hfirst earliest hmem
      | some second =>
          obtain rfl : first.earlier second = earliest := Option.some.inj hmem
          exact Nat.le_min.mpr ⟨hfirst first rfl, hsecond second rfl⟩

/-- What arrives at once comes before everything that is later. -/
theorem Ending.first_of_later {doneAt timeoutAt : Option Instant} {delivery : Delivery}
    (hdone : ∀ done ∈ doneAt, delivery.time < done)
    (htimeout : ∀ timeout ∈ timeoutAt, delivery.time < timeout) :
    Ending.first doneAt timeoutAt (some delivery) = .delivered delivery := by
  have hkept : ∀ (other? : Option Instant) (interrupt : Instant → Ending),
      (∀ other ∈ other?, delivery.time < other) →
      (Ending.delivered delivery).interruptedBy other? interrupt = .delivered delivery := by
    intro other? interrupt hlater
    unfold interruptedBy
    cases other? with
    | none => rfl
    | some other => exact if_pos (decide_eq_true (hlater other rfl))
  unfold Ending.first
  simp only
  rw [hkept timeoutAt .timedOut htimeout, hkept doneAt .canceled hdone]

/-- What arrives at the end of the timeout comes too late. -/
theorem Ending.first_of_timeout {doneAt : Option Instant} {timeoutAt now : Instant}
    {arrival : Arrival} (hdone : ∀ done ∈ doneAt, timeoutAt < done) (hnow : timeoutAt ≤ now) :
    Ending.first doneAt (some timeoutAt) (some ⟨now, arrival⟩) = .timedOut timeoutAt := by
  have hlate : (Ending.delivered ⟨now, arrival⟩).interruptedBy (some timeoutAt) .timedOut =
      .timedOut timeoutAt := if_neg fun hbefore =>
    absurd (of_decide_eq_true hbefore) (Nat.not_lt.mpr hnow)
  unfold Ending.first
  simp only
  rw [hlate]
  unfold interruptedBy
  cases doneAt with
  | none => rfl
  | some done => exact if_pos (decide_eq_true (hdone done rfl))

/-- No script fails with the error that asks for the script. -/
theorem CommandError.not_isMissingScript (error : CommandError) :
    (ServerError.ofLine error.line).isMissingScript = false := by
  rcases error.code_ofLine with hcode | rfl
  · rw [ServerError.isMissingScript, hcode]
    rfl
  · decide

namespace Remote

variable {remote : Remote α} {clock : Int} {space : KeySpace α} {now later : Instant}

/-- A store with nothing under way, whose server holds a key space and answers at once. -/
structure Serves (remote : Remote α) (clock : Int) (space : KeySpace α) (now : Instant) :
    Prop where
  idle : ∃ known, remote.connection.Idle clock space known now
  timeout_ne : remote.commandTimeout ≠ some .zero

theorem Serves.mono (hserves : remote.Serves clock space now) (hlater : now ≤ later) :
    remote.Serves clock space later :=
  ⟨hserves.idle.imp fun _ hidle => hidle.mono hlater, hserves.timeout_ne⟩

theorem serves_onFreshServer (keyPrefix : String) {commandTimeout : Option Duration}
    (htimeout : commandTimeout ≠ some .zero) (clock : Int) :
    (onFreshServer keyPrefix commandTimeout clock : Remote α).Serves clock .empty .start :=
  ⟨⟨[], rfl, Nat.le_refl _, rfl, rfl⟩, htimeout⟩

/-- A store that gives every call up as soon as it is made, before it has sent any script. -/
structure Hurried (remote : Remote α) (clock : Int) (now : Instant) : Prop where
  idle : remote.connection.Idle clock .empty [] now
  timeout_eq : remote.commandTimeout = some .zero

theorem hurried_onFreshServer (keyPrefix : String) (clock : Int) :
    (onFreshServer keyPrefix (some .zero) clock : Remote α).Hurried clock .start :=
  ⟨⟨rfl, Nat.le_refl _, rfl, rfl⟩, rfl⟩

theorem lt_of_mem_doneAt {moment : Moment} (hdone : moment.isDone = false) :
    ∀ done ∈ moment.doneAt, moment.now < done := by
  intro done hmem
  have hpast : ¬ done ≤ moment.now := by
    unfold Moment.isDone at hdone
    rw [hmem] at hdone
    exact of_decide_eq_false hdone
  exact Nat.lt_of_not_le hpast

theorem Serves.deadlines (hserves : remote.Serves clock space now) {moment : Moment}
    (hnow : moment.now = now) (hdone : moment.isDone = false) :
    (∀ done ∈ moment.doneAt, now < done) ∧
      ∀ timeout ∈ remote.commandTimeout.map now.after, now < timeout := by
  constructor
  · exact hnow ▸ lt_of_mem_doneAt hdone
  · intro timeoutAt hmem
    obtain ⟨timeout, htimeout, rfl⟩ := Option.mem_map.mp hmem
    have hpositive : timeout.nanos ≠ 0 := by
      intro hzero
      exact hserves.timeout_ne (htimeout.trans (congrArg some (congrArg Duration.mk hzero)))
    exact Nat.lt_add_of_pos_right (Nat.pos_of_ne_zero hpositive)

variable [Quantity α]

/-- Requests are made from the prefix of a store alone. -/
theorem request_congr {other : Remote α} (hkeys : remote.keyPrefix = other.keyPrefix)
    (call : Call α) : remote.request call = other.request call := by
  unfold request countRequest takeRequest serverKey
  rw [hkeys]

/-- What a script answers with reaches the caller as it is. -/
theorem conclude_of_run (script : Script) (space : KeySpace α) (millis : Int)
    (key side : String) (arguments : List String) (commandTimeout : Option Duration)
    (start now : Instant) :
    let run := script.run space millis [key, side] arguments
    let ending := Ending.delivered ⟨now, .reply (match run.outcome with
      | .ok reply => reply
      | .error error => .error (.ofLine error.line))⟩
    wantsScript ending = none ∧ conclude commandTimeout start ending = run.answer now := by
  intro run ending
  cases houtcome : run.outcome with
  | ok reply =>
      have hreply : reply.firstError? = none := script.firstError?_of_run arguments houtcome
      simp only [ending, houtcome, wantsScript, conclude, hreply, ScriptRun.answer, and_self]
  | error error =>
      have hscript := CommandError.not_isMissingScript error
      simp only [ending, houtcome, wantsScript, conclude, Reply.firstError?, hscript,
        ScriptRun.answer, Bool.false_eq_true, if_false, and_self]

/-- A call that is made runs its script. -/
theorem Serves.roundTrip (hserves : remote.Serves clock space now) {moment : Moment}
    (hnow : moment.now = now) (hdone : moment.isDone = false) (script : Script)
    (key side : String) (arguments : List String) :
    let run := script.run space (now.serverMillis clock) [key, side] arguments
    let made := remote.roundTrip moment ⟨script, [key, side], arguments⟩
    made.1 = run.answer now ∧ made.2.Serves clock run.space now ∧
      made.2.keyPrefix = remote.keyPrefix := by
  intro run made
  obtain ⟨known, hidle⟩ := hserves.idle
  obtain ⟨hdoneAt, htimeoutAt⟩ := hserves.deadlines hnow hdone
  subst hnow
  have hlimit := Instant.le_of_mem_earlier? (fun done hmem => Nat.le_of_lt (hdoneAt done hmem))
    (fun timeout hmem => Nat.le_of_lt (htimeoutAt timeout hmem))
  have hended : remote.connection.isEnded moment.now = false := by
    unfold Connection.isEnded
    rw [hidle.endedAt_eq]
  have hfirst : ∀ arrival, Ending.first moment.doneAt
      (remote.commandTimeout.map moment.now.after) (some ⟨moment.now, arrival⟩) =
        .delivered ⟨moment.now, arrival⟩ :=
    fun arrival => Ending.first_of_later hdoneAt htimeoutAt
  have hconclude := conclude_of_run script space (moment.now.serverMillis clock) key side
    arguments remote.commandTimeout moment.now moment.now
  have hmade : made = remote.roundTrip moment ⟨script, [key, side], arguments⟩ := rfl
  unfold Remote.roundTrip at hmade
  rw [if_neg (by simp [hdone]), if_neg (by simp [hended])] at hmade
  simp only at hmade
  by_cases hknown : script ∈ known
  · obtain ⟨hdelivery, hafter⟩ := hidle.send_of_known ⟨script, [key, side], arguments⟩
      hlimit hknown
    unfold Evaluation.runOn at hdelivery hafter
    rw [hdelivery, hfirst, hconclude.1] at hmade
    simp only at hmade
    rw [hconclude.2] at hmade
    rw [hmade]
    exact ⟨rfl, ⟨⟨known, hafter⟩, hserves.timeout_ne⟩, rfl⟩
  · -- the script is sent, and the request is made once more
    obtain ⟨hmissing, hbefore⟩ := hidle.send_of_not_known
      ⟨script, [key, side], arguments⟩ hlimit hknown
    obtain ⟨hdelivery, hafter⟩ := (hbefore.load script).send_of_known
      ⟨script, [key, side], arguments⟩ hlimit (List.mem_cons_self ..)
    have hwanted : wantsScript (.delivered ⟨moment.now, .reply ScriptServer.missingScript⟩) =
        some moment.now := rfl
    unfold Evaluation.runOn at hdelivery hafter
    rw [hmissing, hfirst, hwanted] at hmade
    simp only at hmade
    rw [hdelivery, hfirst, hconclude.2] at hmade
    rw [hmade]
    exact ⟨rfl, ⟨⟨script :: known, hafter⟩, hserves.timeout_ne⟩, rfl⟩

/-- **A call over an idle connection is its script.** -/
theorem Serves.perform (hserves : remote.Serves clock space now) (call : Call α)
    (hlater : now ≤ call.moment.now) :
    (remote.perform call).1 = (remote.serve clock space call).1 ∧
      (remote.perform call).2.Serves clock (remote.serve clock space call).2 call.moment.now ∧
      (remote.perform call).2.keyPrefix = remote.keyPrefix := by
  rw [perform_eq]
  unfold serve
  by_cases hdone : call.moment.isDone = true
  · have hcanceled : remote.roundTrip call.moment (remote.request call) =
        (⟨.error .canceled, call.moment.now⟩, remote) := by
      unfold Remote.roundTrip
      rw [if_pos hdone]
    rw [if_pos hdone, hcanceled]
    exact ⟨rfl, hserves.mono hlater, rfl⟩
  · obtain ⟨arguments, hrequest⟩ := remote.request_eq call
    have hmade := (hserves.mono hlater).roundTrip rfl (Bool.eq_false_iff.mpr hdone) call.script
      (remote.serverKey call.key) (remote.serverKey call.key ++ call.script.suffix) arguments
    rw [if_neg hdone, hrequest]
    exact ⟨congrArg call.outcome hmade.1, hmade.2⟩

theorem serve_congr {other : Remote α} (hkeys : remote.keyPrefix = other.keyPrefix)
    (clock : Int) (space : KeySpace α) (call : Call α) :
    remote.serve clock space call = other.serve clock space call := by
  unfold serve
  rw [request_congr hkeys]

theorem replay_congr {other : Remote α} (hkeys : remote.keyPrefix = other.keyPrefix)
    (clock : Int) (space : KeySpace α) (calls : List (Call α)) :
    remote.replay clock space calls = other.replay clock space calls := by
  induction calls generalizing space with
  | nil => rfl
  | cons call rest ih =>
      rw [replay_cons, replay_cons, serve_congr hkeys, ih]

/-- **A run is the run of its scripts.** -/
theorem Serves.history_eq {calls : List (Call α)} (hserves : remote.Serves clock space now)
    (hordered : Chronological calls) (hnow : ∀ call ∈ calls, now ≤ call.moment.now) :
    remote.history calls = remote.replay clock space calls := by
  induction calls generalizing remote space now with
  | nil => rfl
  | cons call rest ih =>
      obtain ⟨hlater, hrest⟩ := List.pairwise_cons.mp hordered
      obtain ⟨houtcome, hafter, hkeys⟩ := hserves.perform call (hnow call (List.mem_cons_self ..))
      rw [history_cons, replay_cons, houtcome, ih hafter hrest hlater, replay_congr hkeys]

theorem replay_append (remote : Remote α) (clock : Int) (space : KeySpace α)
    (first second : List (Call α)) :
    remote.replay clock space (first ++ second) = remote.replay clock space first ++
      remote.replay clock (remote.spaceAfter clock space first) second := by
  induction first generalizing space with
  | nil => rfl
  | cons call rest ih =>
      rw [List.cons_append, replay_cons, ih, replay_cons, List.cons_append]
      rfl

theorem fst_mem_of_mem_replay {remote : Remote α} {clock : Int} {space : KeySpace α}
    {calls : List (Call α)} {entry : Call α × Outcome α}
    (hentry : entry ∈ remote.replay clock space calls) : entry.1 ∈ calls := by
  induction calls generalizing space with
  | nil => cases hentry
  | cons call rest ih =>
      rw [replay_cons] at hentry
      rcases List.mem_cons.mp hentry with rfl | hrest
      · exact List.mem_cons_self ..
      · exact List.mem_cons_of_mem _ (ih hrest)

/-- The key space that the server of a store holds. -/
def keySpace (remote : Remote α) : KeySpace α :=
  match remote.connection.server with
  | .running server => server.space
  | .prepared _ => .empty

omit [Quantity α] in
theorem Serves.keySpace_eq (hserves : remote.Serves clock space now) :
    remote.keySpace = space := by
  obtain ⟨known, hidle⟩ := hserves.idle
  unfold keySpace
  rw [hidle.server_eq]

theorem spaceAfter_congr {other : Remote α} (hkeys : remote.keyPrefix = other.keyPrefix)
    (clock : Int) (space : KeySpace α) (calls : List (Call α)) :
    remote.spaceAfter clock space calls = other.spaceAfter clock space calls := by
  unfold spaceAfter
  congr 1
  funext before call
  rw [serve_congr hkeys]

/-- What every call of a run keeps, and no time undoes, holds after the run. -/
theorem spaceAfter_invariant (holds : Int → KeySpace α → Prop) {fits : Call α → Prop}
    (hmono : ∀ {now later space}, now ≤ later → holds now space → holds later space)
    (hserve : ∀ {space call}, fits call → holds (call.millis clock) space →
      holds (call.millis clock) (remote.serve clock space call).2)
    {calls : List (Call α)} (hordered : Chronological calls) (hfits : ∀ call ∈ calls, fits call)
    {now later : Int} (hnow : now ≤ later)
    (hcalls : ∀ call ∈ calls, now ≤ call.millis clock ∧ call.millis clock ≤ later)
    {space : KeySpace α} (hholds : holds now space) :
    holds later (remote.spaceAfter clock space calls) := by
  induction calls generalizing now space with
  | nil => exact hmono hnow hholds
  | cons call rest ih =>
      obtain ⟨hlater, hrest⟩ := List.pairwise_cons.mp hordered
      obtain ⟨hbefore, hafter⟩ := hcalls call (List.mem_cons_self ..)
      refine ih hrest (fun other hother => hfits other (List.mem_cons_of_mem _ hother)) hafter
        (fun other hother => ⟨Call.millis_le clock (hlater other hother),
          (hcalls other (List.mem_cons_of_mem _ hother)).2⟩) ?_
      exact hserve (hfits call (List.mem_cons_self ..)) (hmono hbefore hholds)

/-- **After a run a store is idle again**, and its server holds what the scripts have left. -/
theorem Serves.after {calls : List (Call α)} (hserves : remote.Serves clock space now)
    (hordered : Chronological calls) (hnow : ∀ call ∈ calls, now ≤ call.moment.now) :
    (remote.after calls).Serves clock (remote.spaceAfter clock space calls) (endOf now calls) ∧
      (remote.after calls).keyPrefix = remote.keyPrefix := by
  induction calls generalizing remote space now with
  | nil => exact ⟨hserves, rfl⟩
  | cons call rest ih =>
      obtain ⟨hlater, hrest⟩ := List.pairwise_cons.mp hordered
      obtain ⟨-, hafter, hkeys⟩ := hserves.perform call (hnow call (List.mem_cons_self ..))
      obtain ⟨hserved, hsame⟩ := ih hafter hrest hlater
      rw [spaceAfter_congr hkeys] at hserved
      exact ⟨hserved, hsame.trans hkeys⟩

theorem Serves.keySpace_after {calls : List (Call α)} (hserves : remote.Serves clock space now)
    (hordered : Chronological calls) (hnow : ∀ call ∈ calls, now ≤ call.moment.now) :
    (remote.after calls).keySpace = remote.spaceAfter clock space calls :=
  (hserves.after hordered hnow).1.keySpace_eq

/-! ## A timeout of no length -/

/-- What the caller of a hurried store is told. -/
def givenUp (call : Call α) : Outcome α :=
  call.outcome ⟨.error (if call.moment.isDone then .canceled
    else .unavailable (some (timeoutMessage .zero))), call.moment.now⟩

theorem Hurried.perform (hhurried : remote.Hurried clock now) (call : Call α)
    (hlater : now ≤ call.moment.now) :
    (remote.perform call).1 = givenUp call ∧
      (remote.perform call).2.Hurried clock call.moment.now := by
  have hidle := hhurried.idle.mono hlater
  rw [perform_eq]
  unfold givenUp Remote.roundTrip
  by_cases hdone : call.moment.isDone = true
  · rw [if_pos hdone, if_pos hdone]
    exact ⟨rfl, hidle, hhurried.timeout_eq⟩
  · have hdoneAt := lt_of_mem_doneAt (Bool.eq_false_iff.mpr hdone)
    have hended : remote.connection.isEnded call.moment.now = false := by
      unfold Connection.isEnded
      rw [hidle.endedAt_eq]
    have hlimit : ∀ limit ∈ Instant.earlier? call.moment.doneAt (some call.moment.now),
        call.moment.now ≤ limit := Instant.le_of_mem_earlier?
      (fun done hmem => Nat.le_of_lt (hdoneAt done hmem))
      (fun timeout hmem => Nat.le_of_eq (congrArg Instant.nanos (Option.some.inj hmem)))
    have htimeoutAt : remote.commandTimeout.map call.moment.now.after = some call.moment.now := by
      rw [hhurried.timeout_eq]
      rfl
    obtain ⟨hdelivery, hafter⟩ := hidle.send_of_not_known (remote.request call) hlimit
      List.not_mem_nil
    rw [if_neg hdone, if_neg hdone, if_neg (by simp [hended])]
    simp only
    rw [htimeoutAt, hdelivery, Ending.first_of_timeout hdoneAt (Nat.le_refl _)]
    simp only [wantsScript, conclude, hhurried.timeout_eq]
    exact ⟨rfl, hafter, rfl⟩

theorem Hurried.history_eq {calls : List (Call α)} (hhurried : remote.Hurried clock now)
    (hordered : Chronological calls) (hnow : ∀ call ∈ calls, now ≤ call.moment.now) :
    remote.history calls = calls.map fun call => (call, givenUp call) := by
  induction calls generalizing remote now with
  | nil => rfl
  | cons call rest ih =>
      obtain ⟨hlater, hrest⟩ := List.pairwise_cons.mp hordered
      obtain ⟨houtcome, hafter⟩ := hhurried.perform call (hnow call (List.mem_cons_self ..))
      rw [history_cons, houtcome, ih hafter hrest hlater, List.map_cons]

theorem Hurried.after {calls : List (Call α)} (hhurried : remote.Hurried clock now)
    (hordered : Chronological calls) (hnow : ∀ call ∈ calls, now ≤ call.moment.now) :
    (remote.after calls).Hurried clock (endOf now calls) := by
  induction calls generalizing remote now with
  | nil => exact hhurried
  | cons call rest ih =>
      obtain ⟨hlater, hrest⟩ := List.pairwise_cons.mp hordered
      obtain ⟨-, hafter⟩ := hhurried.perform call (hnow call (List.mem_cons_self ..))
      exact ih hafter hrest hlater

omit [Quantity α] in
theorem Hurried.keySpace_eq (hhurried : remote.Hurried clock now) : remote.keySpace = .empty := by
  unfold keySpace
  rw [hhurried.idle.server_eq]

theorem Hurried.keySpace_after {calls : List (Call α)} (hhurried : remote.Hurried clock now)
    (hordered : Chronological calls) (hnow : ∀ call ∈ calls, now ≤ call.moment.now) :
    (remote.after calls).keySpace = .empty :=
  (hhurried.after hordered hnow).keySpace_eq

/-- Calls that are all given up do not depend on one another. -/
theorem Hurried.history_filter {calls : List (Call α)} (hhurried : remote.Hurried clock now)
    (hordered : Chronological calls) (hnow : ∀ call ∈ calls, now ≤ call.moment.now)
    (keep : Call α → Bool) :
    (remote.history calls).filter (fun entry => keep entry.1) =
      remote.history (calls.filter keep) := by
  have hkept : ∀ call ∈ calls.filter keep, now ≤ call.moment.now :=
    fun call hcall => hnow call (List.mem_of_mem_filter hcall)
  rw [hhurried.history_eq hordered hnow,
    hhurried.history_eq (hordered.sublist List.filter_sublist) hkept, List.filter_map]
  rfl

/-! ## A run with some of its calls -/

/-- Two runs side by side, one of which makes some of the other's calls only.  If every call
that both make is answered alike, then the smaller run is what the larger one looks like to
those who made its calls. -/
theorem replay_filter (keep : Call α → Bool) {fits : Call α → Prop}
    (related : Int → KeySpace α → KeySpace α → Prop)
    (hmono : ∀ {now later full part}, now ≤ later → related now full part →
      related later full part)
    (hkept : ∀ {now full part call}, fits call → keep call = true → related now full part →
      let left := (remote.request call).runOn full now
      let right := (remote.request call).runOn part now
      left.outcome = right.outcome ∧ related now left.space right.space)
    (hdropped : ∀ {now full part call}, fits call → keep call = false →
      related now full part → related now ((remote.request call).runOn full now).space part)
    {calls : List (Call α)} (hordered : Chronological calls) (hfits : ∀ call ∈ calls, fits call)
    {now : Int} (hnow : ∀ call ∈ calls, now ≤ call.millis clock)
    {full part : KeySpace α} (hrelated : related now full part) :
    (remote.replay clock full calls).filter (fun entry => keep entry.1) =
      remote.replay clock part (calls.filter keep) := by
  -- On the calls, with the relation as the invariant: a kept call moves both runs, a dropped
  -- one moves the larger run only.
  induction calls generalizing now full part with
  | nil => rfl
  | cons call rest ih =>
      obtain ⟨hlater, hrest⟩ := List.pairwise_cons.mp hordered
      have hcall : fits call := hfits call (List.mem_cons_self ..)
      have hnext : ∀ other ∈ rest, call.millis clock ≤ other.millis clock :=
        fun other hother => Call.millis_le clock (hlater other hother)
      have hnow' := hmono (hnow call (List.mem_cons_self ..)) hrelated
      have hstep : (keep call = true →
          (remote.serve clock full call).1 = (remote.serve clock part call).1 ∧
            related (call.millis clock) (remote.serve clock full call).2
              (remote.serve clock part call).2) ∧
          (keep call = false →
            related (call.millis clock) (remote.serve clock full call).2 part) := by
        unfold serve
        by_cases hdone : call.moment.isDone = true
        · rw [if_pos hdone, if_pos hdone]
          exact ⟨fun _ => ⟨rfl, hnow'⟩, fun _ => hnow'⟩
        · rw [if_neg hdone, if_neg hdone]
          refine ⟨fun hkeep => ?_, fun hkeep => hdropped hcall hkeep hnow'⟩
          obtain ⟨houtcome, hafter⟩ := hkept hcall hkeep hnow'
          exact ⟨congrArg call.outcome (ScriptRun.answer_congr houtcome _), hafter⟩
      have hrestFits : ∀ other ∈ rest, fits other :=
        fun other hother => hfits other (List.mem_cons_of_mem _ hother)
      rw [replay_cons]
      cases hkeep : keep call with
      | true =>
          obtain ⟨houtcome, hafter⟩ := hstep.1 hkeep
          rw [List.filter_cons_of_pos (by simpa using hkeep), List.filter_cons_of_pos hkeep,
            replay_cons, ih hrest hrestFits hnext hafter, houtcome]
      | false =>
          rw [List.filter_cons_of_neg (by simp [hkeep]), List.filter_cons_of_neg (by simp [hkeep])]
          exact ih hrest hrestFits hnext (hstep.2 hkeep)

end Remote

end Throttle
