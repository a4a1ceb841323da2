import Throttle.Proofs.Remote.Queue

/-!
# Abandoned calls

Three things can end a call: its context, the command timeout and the reply.  Which of them comes
first decides what the caller is told (`firstDecides`).  The server knows nothing of it: a request
that has been sent is taken up in its turn, whoever still waits.  So a store after an abandoned call
is the store after the call, only that the server may not have come so far; later callers are told
the same (`timedHistory_congr`).  There is one exception.  If the server does not know the script it
says so, and a caller who does not wait for that does not send the script: then the call has not been
made at all, and the server has only been held up.
-/

namespace Throttle

/-! ## Which comes first -/

theorem Instant.earlier?_eq_some_cases {first? second? : Option Instant} {limit : Instant}
    (hlimit : earlier? first? second? = some limit) :
    (first? = some limit ∧ ∀ second ∈ second?, limit ≤ second) ∨
      (second? = some limit ∧ ∀ first ∈ first?, limit < first) := by
  cases first? with
  | none => exact Or.inr ⟨hlimit, by simp⟩
  | some first =>
      cases second? with
      | none => exact Or.inl ⟨hlimit, by simp⟩
      | some second =>
          obtain rfl := Option.some.inj hlimit
          rcases Nat.lt_or_ge second.nanos first.nanos with hlt | hle
          · refine Or.inr ⟨congrArg (some ∘ Instant.mk) (Nat.min_eq_right hlt.le).symm, ?_⟩
            rintro other ⟨⟩
            exact Nat.lt_of_le_of_lt (Nat.min_le_right _ _) hlt
          · refine Or.inl ⟨congrArg (some ∘ Instant.mk) (Nat.min_eq_left hle).symm, ?_⟩
            rintro other ⟨⟩
            exact Nat.min_le_right _ _

namespace Ending

variable {doneAt timeoutAt : Option Instant} {delivery? : Option Delivery}

/-- What does not come before an interruption gives way to it. -/
theorem interruptedBy_of_le {ending : Ending} {other : Instant} {interrupt : Instant → Ending}
    (hle : ∀ time ∈ ending.time?, other ≤ time) :
    ending.interruptedBy (some other) interrupt = interrupt other := by
  refine if_neg fun hbefore => ?_
  unfold isBefore at hbefore
  cases htime : ending.time? with
  | none => simp [htime] at hbefore
  | some time =>
      rw [htime] at hbefore
      exact absurd (of_decide_eq_true hbefore) (Nat.not_lt.mpr (hle time htime))

/-- What comes before an interruption stays. -/
theorem interruptedBy_of_lt {ending : Ending} {time : Instant} {other? : Option Instant}
    {interrupt : Instant → Ending} (htime : ending.time? = some time)
    (hlt : ∀ other ∈ other?, time < other) :
    ending.interruptedBy other? interrupt = ending := by
  unfold interruptedBy isBefore
  rw [htime]
  cases other? with
  | none => rfl
  | some other => exact if_pos (decide_eq_true (hlt other rfl))

/-- An interruption is not earlier than what it comes from. -/
theorem le_of_mem_time?_interruptedBy {ending : Ending} {low : Instant} {other? : Option Instant}
    {interrupt : Instant → Ending} (hinterrupt : ∀ other, (interrupt other).time? = some other)
    (hending : ∀ time ∈ ending.time?, low ≤ time) (hother : ∀ other ∈ other?, low ≤ other) :
    ∀ time ∈ (ending.interruptedBy other? interrupt).time?, low ≤ time := by
  unfold interruptedBy
  cases other? with
  | none => exact hending
  | some other =>
      simp only
      split
      · exact hending
      · intro time htime
        rw [hinterrupt] at htime
        obtain rfl := Option.some.inj htime
        exact hother _ rfl

/-- The context is done before anything else happens, or at the same instant. -/
theorem first_of_canceled {done : Instant} (hdone : doneAt = some done)
    (htimeout : ∀ timeout ∈ timeoutAt, done ≤ timeout)
    (hdelivery : ∀ delivery ∈ delivery?, done ≤ delivery.time) :
    first doneAt timeoutAt delivery? = .canceled done := by
  subst hdone
  unfold first
  refine interruptedBy_of_le (le_of_mem_time?_interruptedBy (fun _ => rfl) ?_ htimeout)
  cases delivery? with
  | none => simp [time?]
  | some delivery =>
      rintro time ⟨⟩
      exact hdelivery delivery rfl

/-- The timeout is over before the context is done and before anything arrives. -/
theorem first_of_timedOut {timeout : Instant} (htimeout : timeoutAt = some timeout)
    (hdone : ∀ done ∈ doneAt, timeout < done)
    (hdelivery : ∀ delivery ∈ delivery?, timeout ≤ delivery.time) :
    first doneAt timeoutAt delivery? = .timedOut timeout := by
  subst htimeout
  unfold first
  simp only
  rw [interruptedBy_of_le, interruptedBy_of_lt rfl hdone]
  cases delivery? with
  | none => simp [time?]
  | some delivery =>
      rintro time ⟨⟩
      exact hdelivery delivery rfl

/-- What arrives at the limit or later is not looked at. -/
theorem first_of_limit {limit : Instant} (hlimit : Instant.earlier? doneAt timeoutAt = some limit)
    {delivery : Delivery} (hlate : limit ≤ delivery.time) :
    first doneAt timeoutAt (some delivery) = first doneAt timeoutAt none ∧
      Remote.wantsScript (first doneAt timeoutAt none) = none := by
  have hlater : ∀ other ∈ some delivery, limit ≤ other.time := by
    rintro other ⟨⟩
    exact hlate
  rcases Instant.earlier?_eq_some_cases hlimit with ⟨hdone, htimeout⟩ | ⟨htimeout, hdone⟩
  · rw [first_of_canceled hdone htimeout hlater, first_of_canceled hdone htimeout (by simp)]
    exact ⟨rfl, rfl⟩
  · rw [first_of_timedOut htimeout hdone hlater, first_of_timedOut htimeout hdone (by simp)]
    exact ⟨rfl, rfl⟩

end Ending

/-! ## A call and its patient twin -/

namespace Connection

variable {α : Type} [Quantity α]

/-- Who waits for a limited time sees the same ending as one who has the whole answer; and one who
is asked for the script has had the answer. -/
theorem first_send (connection : Connection α) (time : Instant) (request : Evaluation)
    (doneAt timeoutAt : Option Instant) :
    let sentOff := connection.send time request (Instant.earlier? doneAt timeoutAt)
    let answered := connection.answer ⟨time, request⟩
    let ending := Ending.first doneAt timeoutAt (some answered.1)
    Ending.first doneAt timeoutAt sentOff.1 = ending ∧
      (∀ asked, Remote.wantsScript ending = some asked → sentOff.2 = answered.2) := by
  intro sentOff answered ending
  obtain ⟨-, hanswered | ⟨limit, hlimit, hnothing, hlate⟩⟩ :=
    connection.send_cases time request (Instant.earlier? doneAt timeoutAt)
  · refine ⟨?_, fun asked _ => congrArg Prod.snd hanswered⟩
    exact congrArg (Ending.first doneAt timeoutAt) (congrArg Prod.fst hanswered)
  · obtain ⟨hsame, hwants⟩ := Ending.first_of_limit hlimit (Nat.le_of_lt hlate)
    refine ⟨(congrArg (Ending.first doneAt timeoutAt) hnothing).trans hsame.symm, ?_⟩
    intro asked hasked
    have hending : ending = Ending.first doneAt timeoutAt none := hsame
    rw [hending, hwants] at hasked
    cases hasked

end Connection

namespace Remote

variable {α : Type} [Quantity α]

/-- What comes of a request if the server does not look at who still waits: the end of the call, and
the connection when the server has taken up everything that was sent. -/
def resolve (remote : Remote α) (moment : Moment) (request : Evaluation) :
    Answer StoreFailure Reply × Connection α :=
  let timeoutAt := remote.commandTimeout.map moment.now.after
  let (delivery, connection) := remote.connection.answer ⟨moment.now, request⟩
  let ending := Ending.first moment.doneAt timeoutAt (some delivery)
  match wantsScript ending with
  | some asked =>
      let (delivery, connection) := (connection.load request.script).answer ⟨asked, request⟩
      let ending := Ending.first moment.doneAt timeoutAt (some delivery)
      (conclude remote.commandTimeout moment.now ending, connection)
  | none => (conclude remote.commandTimeout moment.now ending, connection)

variable {remote : Remote α} {moment : Moment}

/-- A request ends as if the server had taken it up, and so does the connection. -/
theorem roundTrip_resolve (hlive : moment.isDone = false)
    (hopen : remote.connection.isEnded moment.now = false) (request : Evaluation) :
    (remote.roundTrip moment request).1 = (remote.resolve moment request).1 ∧
      (remote.roundTrip moment request).2.connection.settled =
        (remote.resolve moment request).2 ∧
      (remote.roundTrip moment request).2.keyPrefix = remote.keyPrefix ∧
      (remote.roundTrip moment request).2.commandTimeout = remote.commandTimeout := by
  set timeoutAt := remote.commandTimeout.map moment.now.after with htimeoutAt
  have hsend := fun (connection : Connection α) (time : Instant) =>
    connection.first_send time request moment.doneAt timeoutAt
  obtain ⟨hending, hasked⟩ := hsend remote.connection moment.now
  obtain ⟨hsettled, -⟩ := remote.connection.send_cases moment.now request
    (Instant.earlier? moment.doneAt timeoutAt)
  -- both attempts are the same step, once from the store's connection and once from the one that
  -- the script was sent over
  unfold roundTrip resolve
  rw [if_neg (by simp [hlive]), if_neg (by simp [hopen])]
  simp only [← htimeoutAt, hending]
  cases hwants : wantsScript (Ending.first moment.doneAt timeoutAt
      (some (remote.connection.answer ⟨moment.now, request⟩).1)) with
  | none => exact ⟨rfl, hsettled, rfl, rfl⟩
  | some asked =>
      rw [hasked asked hwants]
      simp only
      obtain ⟨hsecond, -⟩ := hsend
        ((remote.connection.answer ⟨moment.now, request⟩).2.load request.script) asked
      refine ⟨?_, ?_, trivial, trivial⟩
      · rw [hsecond]
      · exact (Connection.send_cases _ asked request _).1

/-- A call whose context is done is not made. -/
theorem perform_of_isDone (remote : Remote α) {call : Call α} (hdone : call.moment.isDone = true) :
    remote.perform call = (call.outcome ⟨.error .canceled, call.moment.now⟩, remote) := by
  rw [perform_eq]
  unfold roundTrip
  rw [if_pos hdone]

/-- Over a connection that has ended no call is made. -/
theorem perform_of_isEnded {call : Call α} (hlive : call.moment.isDone = false)
    (hended : remote.connection.isEnded call.moment.now = true) :
    remote.perform call = (call.outcome ⟨.error (.unavailable none), call.moment.now⟩, remote) := by
  rw [perform_eq]
  unfold roundTrip
  rw [if_neg (by simp [hlive]), if_pos hended]

/-- A call ends as if the server had taken its request up, and so does the connection. -/
theorem perform_resolve {call : Call α} (hlive : call.moment.isDone = false)
    (hopen : remote.connection.isEnded call.moment.now = false) :
    let resolved := remote.resolve call.moment (remote.request call)
    (remote.perform call).1 = call.outcome resolved.1 ∧
      (remote.perform call).2.connection.settled = resolved.2 ∧
      (remote.perform call).2.keyPrefix = remote.keyPrefix ∧
      (remote.perform call).2.commandTimeout = remote.commandTimeout := by
  intro resolved
  obtain ⟨hanswer, hrest⟩ := roundTrip_resolve hlive hopen (remote.request call)
  rw [perform_eq]
  exact ⟨congrArg call.outcome hanswer, hrest⟩

/-! ## Stores that come to the same -/

/-- Two stores of which one may only not have come so far as the other. -/
structure Agrees (remote other : Remote α) : Prop where
  keyPrefix_eq : remote.keyPrefix = other.keyPrefix
  commandTimeout_eq : remote.commandTimeout = other.commandTimeout
  settled_eq : remote.connection.settled = other.connection.settled

namespace Agrees

variable {other : Remote α}

theorem resolve_eq (hagrees : Agrees remote other) (moment : Moment) (request : Evaluation) :
    remote.resolve moment request = other.resolve moment request := by
  unfold resolve
  rw [hagrees.commandTimeout_eq, Connection.answer_congr hagrees.settled_eq]

theorem advanceTo (hagrees : Agrees remote other) (target : Instant) :
    Agrees (remote.advanceTo target) (other.advanceTo target) where
  keyPrefix_eq := hagrees.keyPrefix_eq
  commandTimeout_eq := hagrees.commandTimeout_eq
  settled_eq := by
    unfold Remote.advanceTo
    rw [Connection.settled_advanceTo, Connection.settled_advanceTo, hagrees.settled_eq]

/-- Stores that have caught up with a call answer it alike. -/
theorem perform (hagrees : Agrees remote other) (call : Call α)
    (hremote : remote.connection.CaughtUp call.moment.now)
    (hother : other.connection.CaughtUp call.moment.now) :
    (remote.perform call).1 = (other.perform call).1 ∧
      Agrees (remote.perform call).2 (other.perform call).2 := by
  cases hlive : call.moment.isDone with
  | true =>
      rw [perform_of_isDone remote hlive, perform_of_isDone other hlive]
      exact ⟨rfl, hagrees⟩
  | false =>
      have hsame : remote.connection.isEnded call.moment.now =
          other.connection.isEnded call.moment.now := by
        rw [← Connection.isEnded_settled hremote, hagrees.settled_eq,
          Connection.isEnded_settled hother]
      cases hended : other.connection.isEnded call.moment.now with
      | true =>
          rw [hended] at hsame
          rw [perform_of_isEnded hlive hsame, perform_of_isEnded hlive hended]
          exact ⟨rfl, hagrees⟩
      | false =>
          rw [hended] at hsame
          obtain ⟨hfirst, hsettled, hkeys, htimeout⟩ := perform_resolve hlive hsame
          obtain ⟨hfirst', hsettled', hkeys', htimeout'⟩ := perform_resolve hlive hended
          have hresolve := hagrees.resolve_eq call.moment (other.request call)
          rw [request_congr hagrees.keyPrefix_eq, hresolve] at hfirst hsettled
          refine ⟨hfirst.trans hfirst'.symm, ?_, ?_, hsettled.trans hsettled'.symm⟩
          · rw [hkeys, hkeys', hagrees.keyPrefix_eq]
          · rw [htimeout, htimeout', hagrees.commandTimeout_eq]

end Agrees

end Remote

/-! ## A server that lacks the script -/

namespace Connection

variable {α : Type} [Quantity α] {connection : Connection α}

/-- The connection when its server has been busy with a request that it has not run: one of the
delays has been used up. -/
def heldUp (connection : Connection α) (server : ScriptServer α) (sent : Sent) : Connection α :=
  { connection with
    server := .running { server with delays := server.delays.tail }
    busyUntil := (connection.takeUp sent).after (server.delays.head?.getD .zero)
    log := connection.log ++ [.evaluate sent.request.keys sent.request.arguments] }

/-- What a server does with a request whose script it does not know. -/
theorem handle_of_not_known {server : ScriptServer α} {sent : Sent}
    (hserver : connection.server = .running server) (hlive : connection.endedAt = none)
    (hmissing : sent.request.script ∉ server.known) :
    connection.handle sent =
      (⟨(connection.heldUp server sent).busyUntil, .reply ScriptServer.missingScript⟩,
        connection.heldUp server sent) := by
  unfold handle Server.handle ScriptServer.handle heldUp
  simp only [hserver, hmissing, if_false]
  rw [hlive]

end Connection

namespace Remote

variable {α : Type} [Quantity α]

/-- When a caller is told. -/
def Outcome.time : Outcome α → Instant
  | counted answer => answer.time
  | taken answer => answer.time

end Remote

end Throttle
