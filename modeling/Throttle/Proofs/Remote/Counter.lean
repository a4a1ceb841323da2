import Throttle.Proofs.Numeric.Nearest
import Throttle.Proofs.Remote.Bucket

/-!
# Counters on a server

What an increment does to the counter that a server holds for a key, wherever it holds it: it
begins one (`Script.countRun_of_absent`), or adds one to it and leaves its expiry alone
(`Script.countRun_of_present`).

The numbers of the answer pass through the arithmetic of the script.  In `Binary64` they come
out as they were up to `2 ^ 53` (`Script.throughQuantity_of_le`), and not below that beyond it
(`Script.le_throughQuantity`).
-/

namespace Throttle

open KeySpace

namespace Script

/-! ## Whole numbers in a script -/

theorem throughQuantity_of_le {number : Int} (hsize : number.natAbs ≤ twoTo 53) :
    throughQuantity Binary64 number = number := by
  have hbound : twoTo 53 ≤ twoTo 63 - 1 := by decide
  rw [throughQuantity, Binary64.quantity_ofInt, Binary64.quantity_value?,
    Binary64.value?_ofInt hsize]
  simp only [Rat.ceil_intCast, Rat.floor_intCast, ite_self]
  omega

theorem le_throughQuantity {small whole : Nat} (hsmall : small ≤ twoTo 53) (hle : small ≤ whole)
    (hbounded : whole ≤ twoTo 64) : (small : Int) ≤ throughQuantity Binary64 whole := by
  obtain ⟨value, hvalue, hvalueLe⟩ := Binary64.le_value?_ofInt hsmall hle hbounded
  have hnonneg : ¬ value < 0 := not_lt.mpr ((Nat.cast_nonneg small).trans hvalueLe)
  have hfloor : (small : Int) ≤ value.floor := Rat.le_floor_iff.mpr (by exact_mod_cast hvalueLe)
  have hbound : twoTo 53 ≤ twoTo 63 - 1 := by decide
  rw [throughQuantity, Binary64.quantity_ofInt, Binary64.quantity_value?, hvalue]
  simp only
  rw [if_neg hnonneg]
  omega

end Script

/-! ## One increment -/

variable {α : Type}

/-- A counter, with the millisecond of its expiry. -/
def counterEntry (count : Nat) (expiry : Int) : Entry α :=
  ⟨.text (Decimal.wholeText count), some expiry⟩

/-- What an increment answers with: the count, and the milliseconds left. -/
def countReply (α : Type) [Quantity α] (count : Nat) (left : Int) : Reply :=
  .array [.integer (Script.throughQuantity α count), .integer (Script.throughQuantity α left)]

namespace Script

theorem readCanonical?_wholeText {number : Int} (hfits : Decimal.FitsSigned number) :
    Decimal.readCanonical? (Decimal.wholeText number) = some number :=
  (Decimal.readCanonical?_eq_some_iff _ _).mpr ⟨rfl, hfits⟩

theorem increment_of_absent {space : KeySpace α} {name : String}
    (habsent : space.table.get? name = none) :
    space.increment name = .ok (1, space.write name (.text (Decimal.wholeText 1))) := by
  unfold increment
  rw [habsent]
  rfl

theorem increment_of_present {space : KeySpace α} {name : String} {count : Nat} {expiry : Int}
    (hpresent : space.table.get? name = some (counterEntry count expiry))
    (hcount : count + 1 < twoTo 63) :
    space.increment name = .ok (((count + 1 : Nat) : Int),
      space.write name (.text (Decimal.wholeText (count + 1 : Nat)))) := by
  have hread : Decimal.readCanonical? (Decimal.wholeText count) = some (count : Int) :=
    readCanonical?_wholeText ⟨by omega, by omega⟩
  unfold increment
  rw [hpresent]
  simp only [counterEntry, hread]
  rw [if_neg (by omega)]
  rfl

variable {space : KeySpace α} {now : Int} {name : String}

theorem expiryOf?_of_get? {held? : Option (Entry α)} (hget : space.table.get? name = held?) :
    space.expiryOf? name = held?.bind Entry.expiresAt := by
  rw [expiryOf?, hget]

theorem millisLeft_of_absent (habsent : space.table.get? name = none) :
    space.millisLeft now name = -2 := by
  rw [millisLeft, habsent]

theorem millisLeft_of_expiry {entry : Entry α} {expiry : Int}
    (hget : space.table.get? name = some entry) (hexpiry : entry.expiresAt = some expiry) :
    space.millisLeft now name = expiry - now := by
  rw [millisLeft, hget]
  simp only [hexpiry]

/-- An expiry that fits is set, or the name is given up at once if there are no milliseconds. -/
theorem expireMillis_of_fits {millis : Nat} {entry : Entry α} (hfits : ExpiryFits now millis)
    (hget : space.table.get? name = some entry) :
    space.expireMillis now name (Decimal.wholeText millis) =
      .ok (true, if millis = 0 then ⟨space.table.erase name⟩
        else ⟨space.table.insert name { entry with expiresAt := some (now + millis) }⟩) := by
  have hpasses : ¬ (¬ Decimal.FitsSigned millis ∨ ¬ Decimal.FitsSigned (now + millis)) :=
    fun hunfit => hunfit.elim (· hfits.1) (· hfits.2)
  unfold expireMillis
  rw [readCanonical?_wholeText hfits.1]
  simp only
  rw [expireAfter, if_neg hpasses, hget]
  rcases Nat.eq_zero_or_pos millis with hzero | hpositive
  · rw [if_pos hzero, hzero]
    rfl
  · rw [if_neg hpositive.ne']
    exact if_neg (by omega)

theorem le_of_stateAt {count : Nat} {expiry : Int} (hapart : space.Apart now name)
    (hpresent : countCall.stateAt space now name = some (counterEntry count expiry)) :
    now ≤ expiry := by
  have hlater := hapart.stateAt_later le_rfl countCall
  rw [hpresent, eq_comm, Option.filter_eq_some_iff] at hlater
  exact of_decide_eq_true hlater.2

variable [Quantity α]

/-- The run of a request to count a call. -/
def countRun (space : KeySpace α) (now : Int) (name : String) (window : Duration) : ScriptRun α :=
  countCall.run space now [name, name ++ countCall.suffix]
    [Decimal.wholeText (Remote.windowMillis window)]

/-- **An increment begins a counter** where there is none: its window is then refused, and the
call fails; or it is over at once, and nothing is left; or it lets the counter expire. -/
theorem countRun_of_absent (hapart : space.Apart now name)
    (habsent : countCall.stateAt space now name = none) (window : Duration) :
    let millis : Nat := Remote.windowMillis window
    let run := countRun space now name window
    run.space.Apart now name ∧
    ((¬ ExpiryFits now millis ∧ ∃ error, run.outcome = .error error) ∨
    (ExpiryFits now millis ∧ millis = 0 ∧ run.outcome = .ok (countReply α 1 (-2)) ∧
      countCall.stateAt run.space now name = none) ∨
    (ExpiryFits now millis ∧ 0 < millis ∧ run.outcome = .ok (countReply α 1 millis) ∧
      countCall.stateAt run.space now name = some (counterEntry 1 (now + millis)))) := by
  intro millis run
  obtain ⟨hafter, hstate, -⟩ := hapart.run countCall [Decimal.wholeText millis]
  change run.space.Apart now name at hafter
  change countCall.stateAt run.space now name = run.space.entryAt now _ at hstate
  refine ⟨hafter, ?_⟩
  rw [hapart.stateAt_eq countCall] at habsent
  rw [hstate]
  have hrun : run =
      count space now name (name ++ countCall.suffix) (Decimal.wholeText millis) := rfl
  set target := countCall.targetAt space now name (name ++ countCall.suffix) with htarget
  set begun := (space.live now).write target (.text (Decimal.wholeText 1)) with hbegun
  have hincrement := increment_of_absent habsent
  have hheld : begun.table.get? target = some ⟨.text (Decimal.wholeText 1), none⟩ := by
    rw [hbegun, get?_write_self, expiryOf?_of_get? habsent]
    rfl
  by_cases hfits : ExpiryFits now millis
  · have hexpire := expireMillis_of_fits hfits hheld
    rcases Nat.eq_zero_or_pos millis with hzero | hpositive
    · -- a window of no milliseconds removes the counter that was just begun
      rw [if_pos hzero] at hexpire
      have hgone : (⟨begun.table.erase target⟩ : KeySpace α).table.get? target = none :=
        Table.get?_erase_self _ _
      refine Or.inr (Or.inl ⟨hfits, hzero, ?_, ?_⟩)
      · rw [hrun, count_of_begun hincrement hexpire, millisLeft_of_absent hgone]
        rfl
      · rw [hrun, count_of_begun hincrement hexpire, entryAt_eq_filter, hgone, Option.filter_none]
    · rw [if_neg hpositive.ne'] at hexpire
      have hset : (⟨begun.table.insert target (counterEntry 1 (now + millis))⟩ :
          KeySpace α).table.get? target = some (counterEntry 1 (now + millis)) :=
        Table.get?_insert_self _ _ _
      have hleft := (millisLeft_of_expiry hset rfl).trans (add_sub_cancel_left now (millis : Int))
      refine Or.inr (Or.inr ⟨hfits, hpositive, ?_, ?_⟩)
      · rw [hrun, count_of_begun hincrement hexpire]
        exact congrArg (fun left => Except.ok (countReply α 1 left)) hleft
      · rw [hrun, count_of_begun hincrement hexpire, entryAt_eq_filter]
        exact (congrArg (Option.filter (isLive now)) hset).trans
          (Option.filter_some_pos (decide_eq_true (by omega)))
  · rcases expireMillis_cases begun now target millis with ⟨-, error, hexpire⟩ | ⟨hcontra, -⟩
    · exact Or.inl ⟨hfits, error, by rw [hrun, count_of_unexpirable hincrement hexpire]⟩
    · exact absurd hcontra hfits

/-- **An increment adds one to a counter** and leaves its expiry alone, whatever window it asks
for. -/
theorem countRun_of_present (hapart : space.Apart now name) {count : Nat} {expiry : Int}
    (hpresent : countCall.stateAt space now name = some (counterEntry count expiry))
    (hpositive : 1 ≤ count) (hcount : count + 1 < twoTo 63) (window : Duration) :
    let run := countRun space now name window
    run.space.Apart now name ∧ run.outcome = .ok (countReply α (count + 1) (expiry - now)) ∧
      countCall.stateAt run.space now name = some (counterEntry (count + 1) expiry) := by
  intro run
  obtain ⟨hafter, hstate, -⟩ := hapart.run countCall
    [Decimal.wholeText (Remote.windowMillis window)]
  change run.space.Apart now name at hafter
  change countCall.stateAt run.space now name = run.space.entryAt now _ at hstate
  rw [hapart.stateAt_eq countCall] at hpresent
  set target := countCall.targetAt space now name (name ++ countCall.suffix) with htarget
  set counted := (space.live now).write target (.text (Decimal.wholeText (count + 1 : Nat)))
    with hcounted
  have hrun : run = ⟨.ok (.array [.integer (throughQuantity α (count + 1 : Nat)),
      .integer (throughQuantity α (counted.millisLeft now target))]), counted⟩ :=
    count_of_counted (increment_of_present hpresent hcount) (by omega)
  have hexpiry : (space.live now).expiryOf? target = some expiry := expiryOf?_of_get? hpresent
  have hleft : counted.millisLeft now target = expiry - now :=
    millisLeft_of_expiry (get?_write_self ..) hexpiry
  refine ⟨hafter, ?_, ?_⟩
  · rw [hrun, hleft]
    rfl
  · rw [hstate, hrun, hcounted, entryAt_write, hexpiry]
    rfl

end Script

/-! ## The answer -/

namespace Reply

/-- What is left of a window is never more than the window. -/
theorem timeLeft_le (millis : Int) (window : Duration) : timeLeft millis window ≤ window := by
  unfold timeLeft
  split_ifs
  · exact Duration.shorter_le_right _ _
  · exact Nat.le_refl _

theorem readCount_countReply {count : Nat} (hpositive : 1 ≤ count) (hcount : count ≤ twoTo 64)
    (left : Int) (window : Duration) :
    readCount window (countReply Binary64 count left) =
      .ok ⟨(Script.throughQuantity Binary64 count).toNat,
        timeLeft (Script.throughQuantity Binary64 left) window⟩ := by
  have hone := Script.le_throughQuantity (show 1 ≤ twoTo 53 by decide) hpositive hcount
  unfold countReply readCount
  exact if_pos hone

theorem readCount_of_le {count : Nat} (hpositive : 1 ≤ count) (hcount : count ≤ twoTo 53)
    {left : Int} (hleft : left.natAbs ≤ twoTo 53) (window : Duration) :
    readCount window (countReply Binary64 count left) = .ok ⟨count, timeLeft left window⟩ := by
  have hlarge : twoTo 53 ≤ twoTo 64 := by decide
  rw [readCount_countReply hpositive (hcount.trans hlarge), Script.throughQuantity_of_le hleft,
    Script.throughQuantity_of_le (by simpa using hcount), Int.toNat_natCast]

end Reply

namespace Remote

theorem readAnswer_of_read {β : Type} {read : Reply → Except ReplyFault β} {reply : Reply}
    {value : β} (hread : read reply = .ok value) (time : Instant) :
    readAnswer ⟨.ok reply, time⟩ read = ⟨.ok value, time⟩ := by
  unfold readAnswer
  simp only [hread]

theorem readAnswer_of_fault {β : Type} {read : Reply → Except ReplyFault β} {reply : Reply}
    {fault : ReplyFault} (hread : read reply = .error fault) (time : Instant) :
    readAnswer ⟨.ok reply, time⟩ read = ⟨.error (fault.failure reply), time⟩ := by
  unfold readAnswer
  simp only [hread]

variable [Quantity α]

/-- An increment of a run is a run of its script. -/
theorem serve_increment (remote : Remote α) (clock : Int) (space : KeySpace α) {call : Call α}
    {key : String} {window : Duration} (hoperation : call.operation = .increment key window)
    (hdone : call.moment.isDone = false) :
    let run := Script.countRun space (call.millis clock) (remote.serverKey key) window
    remote.serve clock space call =
      (.counted (readAnswer (run.answer call.moment.now) (Reply.readCount window)), run.space) := by
  unfold serve request Call.outcome
  rw [hdone, hoperation]
  rfl

end Remote

end Throttle
