import Throttle.Proofs.KeySpace.Stored

/-!
# What the two scripts do

`Script.count_cases` and `Script.take_cases` say all that a script can do to a key space that
holds what the stores have left there: it answers, or it is refused before it has written
anything, or it has written when the expiry turns out to be unusable.  Whatever happens, it
leaves such a key space behind (`Reached.stored`), and so does a server that handles the
requests of any number of stores (`Reached.handle`).
-/

namespace Throttle

variable {α : Type} [Quantity α]

open KeySpace

namespace Script

/-! ## Counting a call -/

/-- Counting a call answers, or fails before anything is written, or fails when it has begun a
counter whose expiry cannot be set. -/
theorem count_cases {space : KeySpace α} (hstored : space.Stored) (now : Int)
    (key side : String) (millis : Int) :
    let held := space.live now
    let counter := target held .text key side
    let run := count space now key side (Decimal.wholeText millis)
    (run.space.Stored ∧ (held.contains counter = true ∨ ExpiryFits now millis) ∧
      ∃ reply, run.outcome = .ok reply) ∨
    (run.space = held ∧ held.contains counter = true ∧ ∃ error, run.outcome = .error error) ∨
    (run.space = held.write counter (.text (Decimal.wholeText 1)) ∧
      held.contains counter = false ∧ ¬ ExpiryFits now millis ∧
      ∃ error, run.outcome = .error error) := by
  intro held counter run
  have hlive : held.Stored := hstored.live now
  have hrun : run = count space now key side (Decimal.wholeText millis) := rfl
  rcases hlive.increment_cases counter with
    ⟨hmissing, hincrement⟩ | ⟨hpresent, number, hlarge, hfits, hincrement⟩ |
      ⟨hpresent, error, hincrement⟩
  · have hbegun : (held.write counter (.text (Decimal.wholeText 1))).Stored :=
      hlive.write counter (.counter (by decide) (by decide))
    rcases expireMillis_cases (held.write counter (.text (Decimal.wholeText 1))) now counter
      millis with ⟨hunfit, error, hexpire⟩ | ⟨hfits, answer, left, hexpire, hleft⟩
    · have hfailed : run = ⟨.error error, held.write counter (.text (Decimal.wholeText 1))⟩ := by
        rw [hrun, count]
        simp only [counter, held] at hincrement hexpire ⊢
        simp only [hincrement, if_true, hexpire, Except.map]
      rw [hfailed]
      exact Or.inr (Or.inr ⟨rfl, hmissing, hunfit, error, rfl⟩)
    · have hanswered : ∃ reply, run = ⟨.ok reply, left⟩ := by
        rw [hrun, count]
        simp only [counter, held] at hincrement hexpire
        simp only [hincrement, if_true, hexpire, Except.map]
        exact ⟨_, rfl⟩
      obtain ⟨reply, hanswered⟩ := hanswered
      rw [hanswered]
      exact Or.inl ⟨hleft hbegun, Or.inr hfits, reply, rfl⟩
  · have hanswered : ∃ reply, run =
        ⟨.ok reply, held.write counter (.text (Decimal.wholeText number))⟩ := by
      rw [hrun, count]
      simp only [counter, held] at hincrement ⊢
      simp only [hincrement, hlarge.ne', if_false]
      exact ⟨_, rfl⟩
    obtain ⟨reply, hanswered⟩ := hanswered
    rw [hanswered]
    exact Or.inl ⟨hlive.write counter (.counter (by omega) hfits), Or.inl hpresent, reply, rfl⟩
  · have hrefused : run = ⟨.error error, held⟩ := by
      rw [hrun, count]
      simp only [counter, held] at hincrement ⊢
      simp only [hincrement]
    rw [hrefused]
    exact Or.inr (Or.inl ⟨rfl, hpresent, error, rfl⟩)

/-! ## Taking a token -/

/-- The fields of a bucket once a take has written them. -/
def takenFields {α : Type} (fields : Table String (Field α)) (tokens lastUsed : α) :
    Table String (Field α) :=
  (fields.insert "tokens" (.number tokens)).insert "last_updated" (.number lastUsed)

omit [Quantity α] in
theorem get?_takenFields_tokens (fields : Table String (Field α)) (tokens lastUsed : α) :
    (takenFields fields tokens lastUsed).get? "tokens" = some (.number tokens) := by
  rw [takenFields, Table.get?_insert_of_ne _ (by decide), Table.get?_insert_self]

omit [Quantity α] in
theorem get?_takenFields_lastUsed (fields : Table String (Field α)) (tokens lastUsed : α) :
    (takenFields fields tokens lastUsed).get? "last_updated" = some (.number lastUsed) :=
  Table.get?_insert_self _ _ _

theorem held?_of_fields {fields : Table String (Field α)} {tokens lastUsed : α}
    (htokens : fields.get? "tokens" = some (.number tokens))
    (hlastUsed : fields.get? "last_updated" = some (.number lastUsed)) :
    held? fields = some ⟨tokens, lastUsed⟩ := by
  rw [held?, htokens, hlastUsed]
  rfl

/-- Taking a token writes the bucket and then sets its expiry. -/
theorem take_of_fields {space : KeySpace α} {now : Int} {key side : String}
    {fields : Table String (Field α)}
    (hfields : (space.live now).fields (target (space.live now) .hash key side) = .ok fields)
    (rate burst reading : α) :
    take space now key side rate burst reading =
      let bucket := target (space.live now) .hash key side
      let taken := takeFrom (held? fields) rate burst reading
      let written := (space.live now).write bucket
        (.hash (takenFields fields taken.remaining reading))
      match written.expireSeconds now bucket (argument? (lifetime rate burst)) with
      | .error error => ⟨.error error, written⟩
      | .ok (_, left) => ⟨.ok (.array [.integer (if taken.allowed then 1 else 0),
          .ofText (Quantity.scriptText taken.remaining)]), left⟩ := by
  obtain ⟨new, hset⟩ := setFields_of_fields hfields
    [("tokens", .number (takeFrom (held? fields) rate burst reading).remaining),
      ("last_updated", .number reading)]
  unfold take
  simp only [hfields, hset]
  rfl

/-- Taking a token answers, or fails before anything is written, or fails when it has written
the fields of a bucket whose expiry cannot be set. -/
theorem take_cases {space : KeySpace α} (hstored : space.Stored) (now : Int)
    (key side : String) (rate burst reading : α) :
    let held := space.live now
    let bucket := target held .hash key side
    let run := take space now key side rate burst reading
    (run.space.Stored ∧ SecondsFit now (argument? (lifetime rate burst)) ∧
      ∃ reply, run.outcome = .ok reply) ∨
    (run.space = held ∧ (∃ error, held.fields bucket = .error error) ∧
      ∃ error, run.outcome = .error error) ∨
    (∃ fields, held.fields bucket = .ok fields ∧
      run.space = held.write bucket (.hash (takenFields fields
        (takeFrom (held? fields) rate burst reading).remaining reading)) ∧
      ¬ SecondsFit now (argument? (lifetime rate burst)) ∧
      ∃ error, run.outcome = .error error) := by
  intro held bucket run
  have hrun : run = take space now key side rate burst reading := rfl
  cases hfields : held.fields bucket with
  | error error =>
      have hrefused : run = ⟨.error error, held⟩ := by
        rw [hrun, take]
        simp only [held, bucket] at hfields ⊢
        simp only [hfields]
      rw [hrefused]
      exact Or.inr (Or.inl ⟨rfl, ⟨error, rfl⟩, error, rfl⟩)
  | ok fields =>
      set remaining := (takeFrom (held? fields) rate burst reading).remaining
      have hwritten : (held.write bucket (.hash (takenFields fields remaining reading))).Stored :=
        (hstored.live now).write bucket
          (.bucket (get?_takenFields_tokens ..) (get?_takenFields_lastUsed ..))
      rw [hrun, take_of_fields hfields]
      rcases expireSeconds_cases (held.write bucket (.hash (takenFields fields remaining reading)))
          now bucket (argument? (lifetime rate burst)) with
        ⟨hunfit, error, hexpire⟩ | ⟨hfits, answer, left, hexpire, hleft⟩
      · simp only [bucket, held, remaining] at hexpire ⊢
        rw [hexpire]
        exact Or.inr (Or.inr ⟨fields, rfl, rfl, hunfit, error, rfl⟩)
      · simp only [bucket, held, remaining] at hexpire ⊢
        rw [hexpire]
        exact Or.inl ⟨hleft hwritten, hfits, _, rfl⟩

/-- A take that writes what is held already writes nothing new. -/
theorem takenFields_eq_self_iff {fields : Table String (Field α)} {tokens lastUsed : α}
    (htokens : fields.get? "tokens" = some (.number tokens))
    (hlastUsed : fields.get? "last_updated" = some (.number lastUsed)) (remaining reading : α) :
    takenFields fields remaining reading = fields ↔ held? fields = some ⟨remaining, reading⟩ := by
  constructor
  · intro heq
    rw [← heq]
    exact held?_of_fields (get?_takenFields_tokens ..) (get?_takenFields_lastUsed ..)
  · intro hheld
    obtain ⟨rfl, rfl⟩ := Held.mk.inj (Option.some.inj
      ((held?_of_fields htokens hlastUsed).symm.trans hheld))
    rw [takenFields, Table.insert_eq_self fields htokens, Table.insert_eq_self fields hlastUsed]

end Script

/-! ## Errors -/

theorem ServerError.code_ofLine_err (rest : String) : (ofLine ("ERR " ++ rest)).code = "ERR" := by
  have hcharacters : ("ERR " ++ rest).toList = 'E' :: 'R' :: 'R' :: ' ' :: rest.toList := by
    rw [String.toList_append]
    rfl
  unfold ofLine
  rw [hcharacters]
  rfl

theorem CommandError.code_ofLine (error : CommandError) :
    (ServerError.ofLine error.line).code = "ERR" ∨ error = .wrongType := by
  have hcode := ServerError.code_ofLine_err
  cases error with
  | wrongType => exact Or.inr rfl
  | notInteger => exact Or.inl (hcode "value is not an integer or out of range")
  | overflow => exact Or.inl (hcode "increment or decrement would overflow")
  | notNumber => exact Or.inl (hcode "attempt to perform arithmetic on a nil value")
  | unknownCommand => exact Or.inl (hcode "unknown command")
  | invalidExpiry command =>
      have hline : (invalidExpiry command).line =
          "ERR " ++ ("invalid expire time in '" ++ command ++ "' command") := by
        rw [← String.append_assoc, ← String.append_assoc]
        rfl
      rw [hline]
      exact Or.inl (hcode _)

/-- Whatever a script fails with, its caller is told of an invalid reply. -/
theorem CommandError.failure_ofLine (error : CommandError) :
    ∃ message, (ServerError.ofLine error.line).failure = .invalidReply (some message) := by
  have hanswer : (ServerError.ofLine error.line).kind.isAnswer = true := by
    rcases error.code_ofLine with hcode | rfl
    · rw [ServerError.kind, hcode]
      rfl
    · decide
  rw [ServerError.failure, ErrorKind.failure, hanswer]
  exact ⟨_, rfl⟩

/-! ## Requests of the stores -/

/-- Run the script of a request. -/
def Evaluation.runOn (request : Evaluation) (space : KeySpace α) (now : Int) : ScriptRun α :=
  request.script.run space now request.keys request.arguments

namespace KeySpace

/-- What the stores' requests make of an empty key space, at any times and whatever becomes of
their replies. -/
inductive Reached : KeySpace α → Prop
  | empty : Reached .empty
  | count {space : KeySpace α} (hreached : Reached space) (remote : Remote α) (key : String)
      (window : Duration) (now : Int) :
      Reached ((remote.countRequest key window).runOn space now).space
  | take {space : KeySpace α} (hreached : Reached space) (remote : Remote α) (wall : WallTime)
      (key : String) (rate : α) (burst : Nat) (now : Int) :
      Reached ((remote.takeRequest wall key rate burst).runOn space now).space

variable {space : KeySpace α}

theorem Stored.count (hstored : space.Stored) (now : Int) (key side : String) (millis : Int) :
    (Script.count space now key side (Decimal.wholeText millis)).space.Stored := by
  rcases Script.count_cases hstored now key side millis with
    ⟨hafter, -⟩ | ⟨hrefused, -⟩ | ⟨hbegun, -⟩
  · exact hafter
  · exact hrefused ▸ hstored.live now
  · exact hbegun ▸ (hstored.live now).write _ (.counter (by decide) (by decide))

theorem Stored.take (hstored : space.Stored) (now : Int) (key side : String)
    (rate burst reading : α) :
    (Script.take space now key side rate burst reading).space.Stored := by
  rcases Script.take_cases hstored now key side rate burst reading with
    ⟨hafter, -⟩ | ⟨hrefused, -⟩ | ⟨fields, -, hwritten, -⟩
  · exact hafter
  · exact hrefused ▸ hstored.live now
  · exact hwritten ▸ (hstored.live now).write _
      (.bucket (Script.get?_takenFields_tokens ..) (Script.get?_takenFields_lastUsed ..))

/-- Nothing but counters and buckets is ever there. -/
theorem Reached.stored (hreached : Reached space) : space.Stored := by
  induction hreached with
  | empty => exact .empty
  | count _ remote key window now ih => exact ih.count now _ _ (Remote.windowMillis window)
  | take _ remote wall key rate burst now ih =>
      unfold Evaluation.runOn Remote.takeRequest Script.run
      simp only
      split
      · exact ih.take now _ _ _ _ _
      · exact ih.live now

/-- A request of a store. -/
def Requested (request : Evaluation) : Prop :=
  (∃ (remote : Remote α) (key : String) (window : Duration),
    request = remote.countRequest key window) ∨
  ∃ (remote : Remote α) (wall : WallTime) (key : String) (rate : α) (burst : Nat),
    request = remote.takeRequest wall key rate burst

/-- A server's key space stays one that the stores' requests can make. -/
theorem Reached.handle {server : ScriptServer α} (hreached : Reached server.space)
    {request : Evaluation} (hrequest : Requested (α := α) request) (time : Instant) :
    Reached (server.handle time request).2.space := by
  unfold ScriptServer.handle
  by_cases hknown : request.script ∈ server.known
  · simp only [hknown, if_true]
    rcases hrequest with ⟨remote, key, window, rfl⟩ | ⟨remote, wall, key, rate, burst, rfl⟩
    · exact hreached.count remote key window _
    · exact hreached.take remote wall key rate burst _
  · simp only [hknown, if_false]
    exact hreached

end KeySpace

end Throttle
