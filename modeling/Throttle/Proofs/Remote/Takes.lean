import Throttle.Proofs.Remote.Answered

/-!
# What a caller is told of a take

The script that takes a token works on what it finds under its target (`Script.found?`).  If it
answers, it answers with the take that it has made of that (`Remote.takenAt`), but the tokens left
are written in fourteen digits; the caller is told what the digits say (`told_of_serve`).
-/

namespace Throttle

/-- A moment at which the clock of the caller shows the time since the start. -/
def Moment.ofNanos (nanos : Nat) : Moment := ⟨⟨nanos⟩, ⟨nanos⟩, none⟩

namespace Script

section

variable {α : Type} [Quantity α]

/-- The bucket under the target of a take, if there is one. -/
def found? (space : KeySpace α) (now : Int) (key side : String) : Option (Held α) :=
  match (space.live now).fields (takeToken.targetAt space now key side) with
  | .ok fields => held? fields
  | .error _ => none

variable {space : KeySpace α} {now : Int} {key side : String} {rate burst reading : α}

/-- An answer tells what a take makes of the bucket that it finds. -/
theorem reply_of_take {reply : Reply}
    (hanswered : (take space now key side rate burst reading).outcome = .ok reply) :
    let taken := takeFrom (found? space now key side) rate burst reading
    reply = .array [.integer (if taken.allowed then 1 else 0),
      .ofText (Quantity.scriptText taken.remaining)] := by
  unfold found?
  cases hfields : (space.live now).fields (takeToken.targetAt space now key side) with
  | error error =>
      rw [take_of_refused hfields] at hanswered
      cases hanswered
  | ok fields =>
      cases hexpire : KeySpace.expireSeconds ((space.live now).write _ (.hash (takenFields fields
          (takeFrom (held? fields) rate burst reading).remaining reading))) now
          (takeToken.targetAt space now key side) (argument? (lifetime rate burst)) with
      | error error =>
          rw [take_of_unexpirable hfields hexpire] at hanswered
          cases hanswered
      | ok result =>
          rw [take_of_answered hfields hexpire] at hanswered
          exact (Except.ok.inj hanswered).symm

/-- A take that is refused leaves less than a token. -/
theorem not_one_le_of_refused {held? : Option (Held α)}
    (hrefused : (takeFrom held? rate burst reading).allowed = false) :
    ¬ Quantity.ofInt 1 ≤ (takeFrom held? rate burst reading).remaining := by
  unfold takeFrom at hrefused ⊢
  cases held? with
  | none => cases hrefused
  | some held =>
      simp only at hrefused ⊢
      split_ifs at hrefused ⊢ with htake
      exact htake

end

end Script

namespace Reply

/-- What a caller reads in an answer: the verdict of the script, and the tokens that its text
shows. -/
theorem told_of_readTake {α : Type} [Quantity α] {taken told : TokenTake α}
    (hread : readTake (.array [.integer (if taken.allowed then 1 else 0),
      .ofText (Quantity.scriptText taken.remaining)]) = .ok told) :
    told.allowed = taken.allowed ∧
      Quantity.read? (Quantity.scriptText taken.remaining) = some told.remaining ∧
      Quantity.isFinite told.remaining = true ∧ ¬ told.remaining < Quantity.ofInt 0 :=
  readTokens_eq_ok_iff.mp ((readTake_ofText ..).symm.trans hread)

end Reply

namespace Remote

/-- What the script makes of a take, in the numbers that it computes with. -/
def takenAt {α : Type} [Quantity α] (remote : Remote α) (clock : Int) (space : KeySpace α)
    (moment : Moment) (key : String) (rate : α) (burst : Nat) : TokenTake α :=
  Script.takeFrom (Script.found? space (moment.now.serverMillis clock) (remote.serverKey key)
    (remote.serverKey key ++ bucketSuffix)) rate (Quantity.ofInt burst) moment.wall.inSeconds

variable {remote : Remote Binary64} {clock : Int} {space : KeySpace Binary64} {now : Instant}
  {moment : Moment} {key : String} {rate : Binary64} {burst : Nat}

/-- A take is a run of its script. -/
theorem serve_take (remote : Remote Binary64) (clock : Int) (space : KeySpace Binary64)
    (hlive : moment.isDone = false) (key : String) (hfinite : Quantity.isFinite rate = true)
    (burst : Nat) :
    let run := Script.take space (moment.now.serverMillis clock) (remote.serverKey key)
      (remote.serverKey key ++ bucketSuffix) rate (Quantity.ofInt burst) moment.wall.inSeconds
    remote.serve clock space ⟨moment, .take key rate burst⟩ =
      (.taken (readAnswer (run.answer moment.now) Reply.readTake), run.space) := by
  intro run
  have hrun : (remote.request ⟨moment, .take key rate burst⟩).runOn space
      (moment.now.serverMillis clock) = run :=
    Script.run_takeToken hfinite burst moment.wall
  unfold serve
  rw [hlive, if_neg Bool.false_ne_true]
  change (Call.outcome _
      (ScriptRun.answer (Evaluation.runOn _ _ (moment.now.serverMillis clock)) _),
    (Evaluation.runOn _ _ (moment.now.serverMillis clock)).space) = _
  rw [hrun]
  rfl

/-- **What the caller of a take is told** is what the script makes of it, as its text shows it. -/
theorem told_of_serve (hfinite : Quantity.isFinite rate = true) {told : TokenTake Binary64}
    (htold : (remote.serve clock space ⟨moment, .take key rate burst⟩).1.take? = some told) :
    let taken := remote.takenAt clock space moment key rate burst
    told.allowed = taken.allowed ∧
      Quantity.read? (Quantity.scriptText taken.remaining) = some told.remaining ∧
      Quantity.isFinite told.remaining = true ∧ ¬ told.remaining < Quantity.ofInt 0 := by
  intro taken
  cases hlive : moment.isDone with
  | true =>
      unfold serve at htold
      rw [hlive, if_pos rfl] at htold
      cases htold
  | false =>
      rw [serve_take remote clock space hlive key hfinite burst] at htold
      cases houtcome : (Script.take space (moment.now.serverMillis clock) (remote.serverKey key)
          (remote.serverKey key ++ bucketSuffix) rate (Quantity.ofInt burst)
          moment.wall.inSeconds).outcome with
      | error error =>
          unfold ScriptRun.answer at htold
          rw [houtcome] at htold
          cases htold
      | ok reply =>
          have hreply := Script.reply_of_take houtcome
          unfold ScriptRun.answer readAnswer at htold
          simp only [houtcome] at htold
          cases hread : Reply.readTake (α := Binary64) reply with
          | error fault =>
              rw [hread] at htold
              cases htold
          | ok read =>
              rw [hread] at htold
              obtain rfl : read = told := Option.some.inj htold
              rw [hreply] at hread
              exact Reply.told_of_readTake hread

end Remote

end Throttle
