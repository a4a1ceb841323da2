import Throttle.Proofs.Remote.Run

/-!
# What waits on a connection

A server takes up the requests of a connection in order, and a caller who gives up does not take a
request back.  So what will have become of a connection when everything that waits has been taken up
(`Connection.settled`) does not depend on how far the server has come, nor on who still waits: to let
time pass leaves it as it is (`settled_advanceTo`), and a request that is sent is answered as if the
connection had been settled before (`send_cases`).
-/

namespace Throttle

namespace Connection

variable {α : Type}

/-- The connection with other requests noted as waiting. -/
def withWaiting (connection : Connection α) (waiting : List Sent) : Connection α :=
  { connection with waiting }

theorem withWaiting_self (connection : Connection α) :
    connection.withWaiting connection.waiting = connection := rfl

@[simp] theorem endedAt_withWaiting (connection : Connection α) (waiting : List Sent) :
    (connection.withWaiting waiting).endedAt = connection.endedAt := rfl

@[simp] theorem withWaiting_withWaiting (connection : Connection α) (first second : List Sent) :
    (connection.withWaiting first).withWaiting second = connection.withWaiting second := rfl

variable [Quantity α]

/-- The connection when the server has taken up everything that waits. -/
def settled (connection : Connection α) : Connection α :=
  (connection.serve none connection.waiting).2

/-- What a request is answered, and the connection when the server has come so far. -/
def answer (connection : Connection α) (sent : Sent) : Delivery × Connection α :=
  match connection.settled.endedAt with
  | some ended => (⟨ended, .closed⟩, connection.settled)
  | none => connection.settled.handle sent

/-- Everything that waits has its turn after an instant. -/
def CaughtUp (now : Instant) (connection : Connection α) : Prop :=
  ∀ sent ∈ connection.waiting.head?, connection.endedAt = none ∧ now < connection.takeUp sent

variable {connection : Connection α} {sent : Sent} {rest : List Sent} {limit? : Option Instant}

/-! ## One request after another -/

theorem handle_withWaiting (connection : Connection α) (waiting : List Sent) (sent : Sent) :
    (connection.withWaiting waiting).handle sent =
      ((connection.handle sent).1, (connection.handle sent).2.withWaiting waiting) := rfl

theorem le_time_handle (connection : Connection α) (sent : Sent) :
    connection.takeUp sent ≤ (connection.handle sent).1.time := Nat.le_add_right _ _

/-- If a request ends the connection, then when its answer arrives. -/
theorem endedAt_handle {ended : Instant}
    (hended : (connection.handle sent).2.endedAt = some ended) :
    ended = (connection.handle sent).1.time := by
  unfold handle at hended ⊢
  simp only at hended ⊢
  split at hended
  · cases hended
  · exact (Option.some.inj hended).symm

theorem serve_nil (limit? : Option Instant) (connection : Connection α) :
    connection.serve limit? [] = (none, connection.withWaiting []) := rfl

/-- On a connection that has ended, everyone is told so. -/
theorem serve_of_ended {ended : Instant} (hended : connection.endedAt = some ended)
    (limit? : Option Instant) (sent : Sent) (rest : List Sent) :
    connection.serve limit? (sent :: rest) =
      (some ⟨ended, .closed⟩, connection.withWaiting []) := by
  unfold serve withWaiting
  rw [hended]

/-- A request whose turn is still to come waits, and so do all that are behind it. -/
theorem serve_of_not_due {limit : Instant} (hlive : connection.endedAt = none)
    (hahead : limit < connection.takeUp sent) (rest : List Sent) :
    connection.serve (some limit) (sent :: rest) =
      (none, connection.withWaiting (sent :: rest)) := by
  have hnot : ¬ connection.takeUp sent ≤ limit := Nat.not_le.mpr hahead
  unfold serve withWaiting
  rw [hlive]
  simp only [hnot, decide_false, Bool.false_eq_true, if_false]

/-- The last request, when its turn has come. -/
theorem serve_singleton_of_due (hlive : connection.endedAt = none)
    (hdue : ∀ limit ∈ limit?, connection.takeUp sent ≤ limit) :
    connection.serve limit? [sent] =
      (some (connection.handle sent).1, (connection.handle sent).2.withWaiting []) := by
  unfold serve
  rw [hlive]
  cases limit? with
  | none => rfl
  | some limit =>
      simp only [hdue limit rfl, decide_true, if_true]
      rfl

/-- A request that is followed by another one, when its turn has come. -/
theorem serve_cons_of_due (hlive : connection.endedAt = none)
    (hdue : ∀ limit ∈ limit?, connection.takeUp sent ≤ limit) (next : Sent) (rest : List Sent) :
    connection.serve limit? (sent :: next :: rest) =
      (connection.handle sent).2.serve limit? (next :: rest) := by
  conv_lhs => unfold serve
  rw [hlive]
  cases limit? with
  | none => rfl
  | some limit => simp only [hdue limit rfl, decide_true, if_true]

/-- What holds of every way to serve requests: there are none, the connection has ended, the first
one is too early, it is the last one, or others follow. -/
theorem serve_induction {limit? : Option Instant}
    {motive : Connection α → List Sent → Option Delivery × Connection α → Prop}
    (nil : ∀ connection, motive connection [] (none, connection.withWaiting []))
    (ended : ∀ connection sent rest ended, connection.endedAt = some ended →
      motive connection (sent :: rest) (some ⟨ended, .closed⟩, connection.withWaiting []))
    (early : ∀ connection sent rest limit, limit? = some limit → connection.endedAt = none →
      limit < connection.takeUp sent →
        motive connection (sent :: rest) (none, connection.withWaiting (sent :: rest)))
    (last : ∀ connection sent, connection.endedAt = none →
      (∀ limit ∈ limit?, connection.takeUp sent ≤ limit) → motive connection [sent]
        (some (connection.handle sent).1, (connection.handle sent).2.withWaiting []))
    (next : ∀ connection sent next rest, connection.endedAt = none →
      (∀ limit ∈ limit?, connection.takeUp sent ≤ limit) →
        motive (connection.handle sent).2 (next :: rest)
          ((connection.handle sent).2.serve limit? (next :: rest)) →
        motive connection (sent :: next :: rest)
          ((connection.handle sent).2.serve limit? (next :: rest)))
    (connection : Connection α) (sents : List Sent) :
    motive connection sents (connection.serve limit? sents) := by
  induction sents generalizing connection with
  | nil => exact nil connection
  | cons sent rest ih =>
      cases hended : connection.endedAt with
      | some instant =>
          rw [serve_of_ended hended]
          exact ended connection sent rest instant hended
      | none =>
          by_cases hdue : ∀ limit ∈ limit?, connection.takeUp sent ≤ limit
          · cases rest with
            | nil =>
                rw [serve_singleton_of_due hended hdue]
                exact last connection sent hended hdue
            | cons second later =>
                rw [serve_cons_of_due hended hdue]
                exact next connection sent second later hended hdue (ih _)
          · push Not at hdue
            obtain ⟨limit, rfl, hahead⟩ := hdue
            have hahead : limit < connection.takeUp sent := Nat.lt_of_not_le hahead
            rw [serve_of_not_due hended hahead]
            exact early connection sent rest limit rfl hended hahead

/-- What has been noted as waiting does not matter, only what is handed over. -/
theorem serve_withWaiting (limit? : Option Instant) (connection : Connection α)
    (waiting : List Sent) (sents : List Sent) :
    (connection.withWaiting waiting).serve limit? sents = connection.serve limit? sents := by
  refine serve_induction (motive := fun connection sents served =>
    ∀ waiting, (connection.withWaiting waiting).serve limit? sents = served)
    ?_ ?_ ?_ ?_ ?_ connection sents waiting
  · intro connection waiting
    rfl
  · intro connection sent rest ended hended waiting
    rw [serve_of_ended (by exact hended), withWaiting_withWaiting]
  · rintro connection sent rest limit rfl hlive hahead waiting
    rw [serve_of_not_due (by exact hlive) (by exact hahead), withWaiting_withWaiting]
  · intro connection sent hlive hdue waiting
    rw [serve_singleton_of_due (by exact hlive) (by exact hdue), handle_withWaiting]
    rfl
  · intro connection sent next rest hlive hdue ih waiting
    rw [serve_cons_of_due (by exact hlive) (by exact hdue), handle_withWaiting]
    exact ih waiting

/-- To serve up to an instant and then all the rest is to serve all at once. -/
theorem serve_serve (limit? : Option Instant) (connection : Connection α) (sents : List Sent) :
    (connection.serve limit? sents).2.settled = (connection.serve none sents).2 := by
  unfold settled
  refine serve_induction (motive := fun connection sents served =>
    (served.2.serve none served.2.waiting).2 = (connection.serve none sents).2)
    ?_ ?_ ?_ ?_ ?_ connection sents
  · intro connection
    rfl
  · intro connection sent rest ended hended
    rw [serve_of_ended hended]
    rfl
  · intro connection sent rest limit _ _ _
    exact congrArg Prod.snd (serve_withWaiting none connection (sent :: rest) (sent :: rest))
  · intro connection sent hlive _
    rw [serve_singleton_of_due hlive (by simp)]
    rfl
  · intro connection sent next rest hlive _ ih
    rw [ih, serve_cons_of_due hlive (by simp)]

/-- Requests that are handed over one after another are served as if they came together. -/
theorem serve_append (connection : Connection α) (sents : List Sent) (sent : Sent) :
    connection.serve none (sents ++ [sent]) =
      (connection.serve none sents).2.serve none [sent] := by
  refine serve_induction (motive := fun connection sents served =>
    connection.serve none (sents ++ [sent]) = served.2.serve none [sent])
    ?_ ?_ ?_ ?_ ?_ connection sents
  · intro connection
    exact (serve_withWaiting none connection [] [sent]).symm
  · intro connection first rest ended hended
    rw [List.cons_append, serve_of_ended hended, serve_of_ended (by exact hended)]
    rfl
  · rintro connection first rest limit ⟨⟩
  · intro connection first hlive hdue
    rw [List.singleton_append, serve_cons_of_due hlive hdue, serve_withWaiting]
  · intro connection first next rest hlive hdue ih
    rw [List.cons_append, List.cons_append, serve_cons_of_due hlive hdue]
    exact ih

/-- What is answered to requests whose first turn comes after an instant arrives after it, and if
the connection ends, it ends after it. -/
theorem lt_of_serve (now : Instant) (connection : Connection α) (sents : List Sent) :
    connection.endedAt = none → (∀ sent ∈ sents.head?, now < connection.takeUp sent) →
      (∀ delivery ∈ (connection.serve none sents).1, now < delivery.time) ∧
        ∀ ended ∈ (connection.serve none sents).2.endedAt, now < ended := by
  refine serve_induction (motive := fun connection sents served =>
    connection.endedAt = none → (∀ sent ∈ sents.head?, now < connection.takeUp sent) →
      (∀ delivery ∈ served.1, now < delivery.time) ∧ ∀ ended ∈ served.2.endedAt, now < ended)
    ?_ ?_ ?_ ?_ ?_ connection sents
  · intro connection hlive _
    simp [hlive]
  · intro connection sent rest ended hended hlive
    rw [hlive] at hended
    cases hended
  · rintro connection sent rest limit ⟨⟩
  · intro connection sent _ _ _ hahead
    have harrives : now < (connection.handle sent).1.time :=
      Nat.lt_of_lt_of_le (hahead sent rfl) (connection.le_time_handle sent)
    refine ⟨?_, fun ended hended => ?_⟩
    · rintro delivery ⟨⟩
      exact harrives
    · rw [endedAt_handle hended]
      exact harrives
  · intro connection sent next rest _ _ ih _ hahead
    have harrives : now < (connection.handle sent).1.time :=
      Nat.lt_of_lt_of_le (hahead sent rfl) (connection.le_time_handle sent)
    cases hended : (connection.handle sent).2.endedAt with
    | none =>
        -- the next one has its turn when this one has been answered, at the earliest
        refine ih hended ?_
        rintro other ⟨⟩
        exact Nat.lt_of_lt_of_le harrives (Nat.le_max_right _ _)
    | some ended =>
        rw [serve_of_ended hended]
        rw [← endedAt_handle hended] at harrives
        refine ⟨?_, fun other hother => ?_⟩
        · rintro delivery ⟨⟩
          exact harrives
        · obtain rfl := Option.some.inj (hended.symm.trans hother)
          exact harrives

/-- Served up to an instant, the last request is answered as it would be without that limit, or it
is not answered: then its answer would arrive after the limit. -/
theorem serve_cases (limit? : Option Instant) (connection : Connection α) (sents : List Sent) :
    connection.serve limit? sents = connection.serve none sents ∨
      ∃ limit ∈ limit?, (connection.serve limit? sents).1 = none ∧
        ∀ delivery ∈ (connection.serve none sents).1, limit < delivery.time := by
  refine serve_induction (motive := fun connection sents served =>
    served = connection.serve none sents ∨ ∃ limit ∈ limit?, served.1 = none ∧
      ∀ delivery ∈ (connection.serve none sents).1, limit < delivery.time)
    ?_ ?_ ?_ ?_ ?_ connection sents
  · intro connection
    exact Or.inl rfl
  · intro connection sent rest ended hended
    exact Or.inl (serve_of_ended hended none sent rest).symm
  · intro connection sent rest limit hlimit hlive hahead
    refine Or.inr ⟨limit, hlimit, rfl, ?_⟩
    refine (lt_of_serve limit connection (sent :: rest) hlive ?_).1
    rintro other ⟨⟩
    exact hahead
  · intro connection sent hlive _
    exact Or.inl (serve_singleton_of_due hlive (by simp)).symm
  · intro connection sent next rest hlive _ ih
    rw [serve_cons_of_due hlive (by simp)]
    exact ih

theorem waiting_serve_none (connection : Connection α) (sents : List Sent) :
    (connection.serve none sents).2.waiting = [] := by
  refine serve_induction (motive := fun _ _ served => served.2.waiting = [])
    ?_ ?_ ?_ ?_ ?_ connection sents
  · intro connection
    rfl
  · intro connection sent rest ended _
    rfl
  · rintro connection sent rest limit ⟨⟩
  · intro connection sent _ _
    rfl
  · intro connection sent next rest _ _ ih
    exact ih

theorem settled_of_waiting_eq_nil (hnone : connection.waiting = []) :
    connection.settled = connection := by
  unfold settled
  rw [hnone, serve_nil, ← hnone, withWaiting_self]

@[simp] theorem waiting_settled (connection : Connection α) : connection.settled.waiting = [] :=
  waiting_serve_none connection connection.waiting

/-- Time does not change what will have become of a connection. -/
theorem settled_advanceTo (connection : Connection α) (target : Instant) :
    (connection.advanceTo target).settled = connection.settled :=
  serve_serve (some target) connection connection.waiting

/-- A connection that has caught up with an instant has ended by then exactly if it will have ended
by then. -/
theorem isEnded_settled {now : Instant} (hcaught : connection.CaughtUp now) :
    connection.settled.isEnded now = connection.isEnded now := by
  cases hwaiting : connection.waiting with
  | nil => rw [settled_of_waiting_eq_nil hwaiting]
  | cons sent rest =>
      obtain ⟨hlive, hahead⟩ := hcaught sent (by rw [hwaiting]; rfl)
      have hlater : ∀ ended ∈ connection.settled.endedAt, now < ended := by
        refine (lt_of_serve now connection connection.waiting hlive ?_).2
        rw [hwaiting]
        rintro other ⟨⟩
        exact hahead
      unfold isEnded
      rw [hlive]
      cases hended : connection.settled.endedAt with
      | none => rfl
      | some ended => exact decide_eq_false (Nat.not_le.mpr (hlater ended hended))

/-- To have a connection settled and then serve one request is to answer it. -/
theorem serve_settled (connection : Connection α) (sent : Sent) :
    connection.settled.serve none [sent] =
      (some (connection.answer sent).1, (connection.answer sent).2) := by
  unfold answer
  cases hended : connection.settled.endedAt with
  | some ended =>
      rw [serve_of_ended hended, ← connection.waiting_settled, withWaiting_self]
  | none =>
      have hwaiting : (connection.settled.handle sent).2.waiting = [] := connection.waiting_settled
      rw [serve_singleton_of_due hended (by simp), ← hwaiting, withWaiting_self]

theorem send_none (connection : Connection α) (time : Instant) (request : Evaluation) :
    connection.send time request none =
      (some (connection.answer ⟨time, request⟩).1, (connection.answer ⟨time, request⟩).2) := by
  rw [← serve_settled]
  exact serve_append connection connection.waiting ⟨time, request⟩

theorem answer_congr {other : Connection α} (hsettled : connection.settled = other.settled)
    (sent : Sent) : connection.answer sent = other.answer sent := by
  unfold answer
  rw [hsettled]

/-- **A limited wait for an answer.**  The caller has the answer, or it would arrive after the limit;
and what will become of the connection does not depend on the limit. -/
theorem send_cases (connection : Connection α) (time : Instant) (request : Evaluation)
    (limit? : Option Instant) :
    let answered := connection.answer ⟨time, request⟩
    (connection.send time request limit?).2.settled = answered.2 ∧
      (connection.send time request limit? = (some answered.1, answered.2) ∨
        ∃ limit ∈ limit?, (connection.send time request limit?).1 = none ∧
          limit < answered.1.time) := by
  intro answered
  have hnone : connection.serve none (connection.waiting ++ [⟨time, request⟩]) =
      (some answered.1, answered.2) := connection.send_none time request
  have hcases := serve_cases limit? connection (connection.waiting ++ [⟨time, request⟩])
  have hsettled := serve_serve limit? connection (connection.waiting ++ [⟨time, request⟩])
  rw [hnone] at hcases hsettled
  refine ⟨hsettled, hcases.imp_right ?_⟩
  rintro ⟨limit, hlimit, hnothing, hlate⟩
  exact ⟨limit, hlimit, hnothing, hlate _ rfl⟩

end Connection

end Throttle
