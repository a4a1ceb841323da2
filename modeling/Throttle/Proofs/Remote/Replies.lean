import Throttle.Proofs.Limiter.Bounds
import Throttle.Proofs.Numeric.Reading

/-!
# Which replies are answers

What a reply has to be is said here without the reader.  A reply that reports a count is a pair of
integers, the count and the milliseconds that are left of it (`Reports`).  A reply that hands out
tokens is a pair of a flag and a text that writes an amount (`HandsOut`).  Of all values that a
server may send, however deep, these are answers, and any other is an invalid reply and nothing
else (`reply_is_answer_iff`).
-/

namespace Throttle

open Binary64

namespace Reply

/-! ## The two shapes -/

/-- A reply reports a count and how long its window goes on: no longer than a window lasts, and as
long as that if the count is kept forever. -/
inductive Reports (window : Duration) : Reply → WindowCount → Prop
  | expiring {count left : Nat} (hcount : 1 ≤ count) :
      Reports window (array [integer count, integer left])
        ⟨count, ⟨min (left * nanosPerMilli) window.nanos⟩⟩
  | lasting {count : Nat} {left : Int} (hcount : 1 ≤ count) (hleft : left < 0) :
      Reports window (array [integer count, integer left]) ⟨count, window⟩

/-- A value holds a text, as bytes or as a line. -/
inductive Holds (text : String) : Reply → Prop
  | bulk : Holds text (bulk text.toUTF8)
  | simple : Holds text (simple text)

/-- A reply says whether a token was taken, and which amount is left. -/
inductive HandsOut : Reply → TokenTake Binary64 → Prop
  | intro {allowed : Bool} {item : Reply} {text : String} {number : Binary64}
      (hholds : Holds text item) (hreads : Reads text number) (hamount : number.IsAmount) :
      HandsOut (array [integer (if allowed then 1 else 0), item]) ⟨allowed, number⟩

variable {reply item : Reply} {window : Duration} {counted : WindowCount} {allowed : Bool}
  {text : String} {taken : TokenTake Binary64}

/-! ## Counts -/

theorem Reports.resetAfter_le (hreports : Reports window reply counted) :
    counted.resetAfter ≤ window := by
  cases hreports with
  | expiring => exact Nat.min_le_right _ _
  | lasting => exact Nat.le_refl _

theorem reports_of_one_le {count left : Int} (hcount : 1 ≤ count) :
    Reports window (array [integer count, integer left])
      ⟨count.toNat, timeLeft left window⟩ := by
  obtain ⟨count, rfl⟩ := Int.eq_ofNat_of_zero_le (show 0 ≤ count by omega)
  have hpositive : 1 ≤ count := Int.ofNat_le.mp hcount
  unfold timeLeft
  split_ifs with hleft
  · obtain ⟨left, rfl⟩ := Int.eq_ofNat_of_zero_le hleft
    exact .expiring hpositive
  · exact .lasting hpositive (Int.not_le.mp hleft)

theorem readCount_eq_ok_iff : readCount window reply = .ok counted ↔
    Reports window reply counted := by
  constructor
  · intro hread
    unfold readCount at hread
    split at hread
    · split_ifs at hread with hcount
      cases hread
      exact reports_of_one_le hcount
    · cases hread
    · cases hread
  · rintro (hcount | ⟨hcount, hleft⟩)
    · have hleast : (1 : Int) ≤ _ := Int.ofNat_le.mpr hcount
      rw [readCount, if_pos hleast, timeLeft, if_pos (Int.natCast_nonneg _)]
      rfl
    · have hleast : (1 : Int) ≤ _ := Int.ofNat_le.mpr hcount
      rw [readCount, if_pos hleast, timeLeft, if_neg (Int.not_le.mpr hleft)]
      rfl

/-! ## Takes -/

theorem readFlag?_eq_some_iff {flag : Int} :
    readFlag? flag = some allowed ↔ flag = if allowed then 1 else 0 := by
  unfold readFlag?
  cases allowed <;> split_ifs <;> simp_all

/-- A text is read wherever it is held. -/
theorem readTake_of_holds (hholds : Holds text item) :
    readTake (array [integer (if allowed then 1 else 0), item]) =
      (readTokens allowed text : Except ReplyFault (TokenTake Binary64)) := by
  cases hholds with
  | bulk => exact readTake_ofText allowed text
  | simple =>
      unfold readTake
      simp only [readFlag?_eq_some_iff.mpr rfl]

theorem readTokens_eq_ok_iff_amount : readTokens allowed text = .ok taken ↔
    taken.allowed = allowed ∧ Reads text taken.remaining ∧ taken.remaining.IsAmount := by
  rw [readTokens_eq_ok_iff, read?_eq_some_iff, isAmount_iff, quantity_ofInt]

theorem handsOut_of_readTokens (hholds : Holds text item)
    (hread : readTokens allowed text = .ok taken) :
    HandsOut (array [integer (if allowed then 1 else 0), item]) taken := by
  obtain ⟨rfl, hreads, hamount⟩ := readTokens_eq_ok_iff_amount.mp hread
  exact .intro hholds hreads hamount

theorem readTake_eq_ok_iff : readTake reply = .ok taken ↔ HandsOut reply taken := by
  constructor
  · intro hread
    unfold readTake at hread
    split at hread
    · -- a run of bytes
      rename_i flag bytes
      split at hread
      · cases hread
      · rename_i allowed hflag
        obtain rfl := readFlag?_eq_some_iff.mp hflag
        split at hread
        · cases hread
        · rename_i text htext
          obtain rfl := eq_toUTF8_of_fromUTF8? htext
          exact handsOut_of_readTokens .bulk hread
    · -- a line
      rename_i flag text
      split at hread
      · cases hread
      · rename_i allowed hflag
        obtain rfl := readFlag?_eq_some_iff.mp hflag
        exact handsOut_of_readTokens .simple hread
    · cases hread
    · cases hread
  · rintro ⟨hholds, hreads, hamount⟩
    rw [readTake_of_holds hholds]
    exact readTokens_eq_ok_iff_amount.mpr ⟨rfl, hreads, hamount⟩

/-! ## Answers -/

/-- What is read of a reply is an answer if it has the shape of one, and else an invalid reply,
told in words. -/
theorem outcome_readAnswer {β : Type} {read : Reply → Except ReplyFault β} {shape : β → Prop}
    (hread : ∀ {value : β}, read reply = .ok value ↔ shape value) (time : Instant) :
    let outcome := (Remote.readAnswer ⟨.ok reply, time⟩ read).outcome
    (∀ value, outcome = .ok value ↔ shape value) ∧
      ((∀ value, ¬ shape value) → ∃ fault : ReplyFault,
        outcome = .error (.invalidReply (some (fault.message ++ ": " ++ reply.describe)))) := by
  intro outcome
  cases hcase : read reply with
  | ok value =>
      have houtcome : outcome = .ok value :=
        congrArg Answer.outcome (Remote.readAnswer_of_read hcase time)
      refine ⟨fun other => ?_, fun hnone => absurd (hread.mp hcase) (hnone value)⟩
      rw [houtcome, ← hread, hcase, Except.ok.injEq, Except.ok.injEq]
  | error fault =>
      have houtcome : outcome = .error (fault.failure reply) :=
        congrArg Answer.outcome (Remote.readAnswer_of_fault hcase time)
      refine ⟨fun other => ?_, fun _ => ⟨fault, houtcome⟩⟩
      rw [houtcome, ← hread, hcase]
      exact iff_of_false nofun nofun

theorem exists_take_iff (hholds : Holds text item) :
    (∃ taken, HandsOut (array [integer (if allowed then 1 else 0), item]) taken) ↔
      ∃ number, Reads text number ∧ number.IsAmount := by
  constructor
  · rintro ⟨taken, hhands⟩
    rw [← readTake_eq_ok_iff, readTake_of_holds hholds] at hhands
    exact ⟨taken.remaining, (readTokens_eq_ok_iff_amount.mp hhands).2⟩
  · rintro ⟨number, hreads, hamount⟩
    exact ⟨⟨allowed, number⟩, .intro hholds hreads hamount⟩

/-- **A reply is an answer if it has the shape of one, and else it is invalid.**  Of every value
that a server may send, the reader of counts accepts those that report a count, and the reader of
takes those that hand out tokens; both get what the value says, and nothing else is the matter with
a value that they refuse.  A decimal is accepted below the overflow, and with a minus sign only if
nothing is left of it; no word is.  A limiter shows the reset time of a count as it is reported,
and this is within the window. -/
theorem reply_is_answer_iff (reply : Reply) (window : Duration) (time : Instant) :
    let counted := Remote.readAnswer ⟨.ok reply, time⟩ (readCount window)
    let taken : Answer StoreFailure (TokenTake Binary64) :=
      Remote.readAnswer ⟨.ok reply, time⟩ readTake
    ((∀ count, counted.outcome = .ok count ↔ Reports window reply count) ∧
      ((∀ count, ¬ Reports window reply count) → ∃ fault : ReplyFault, counted.outcome =
        .error (.invalidReply (some (fault.message ++ ": " ++ reply.describe))))) ∧
    ((∀ take, taken.outcome = .ok take ↔ HandsOut reply take) ∧
      ((∀ take, ¬ HandsOut reply take) → ∃ fault : ReplyFault, taken.outcome =
        .error (.invalidReply (some (fault.message ++ ": " ++ reply.describe))))) ∧
    (∀ (allowed : Bool) item text, reply = array [integer (if allowed then 1 else 0), item] →
      Holds text item → ∀ negative,
        (∀ size, Decimal.IsDecimal text.toList negative size →
          ((∃ take, taken.outcome = .ok take) ↔
            size < overflow ∧ (negative = true → size ≤ underflow))) ∧
        (Decimal.IsWord (Decimal.infinityWords ++ Decimal.noValueWords) text.toList negative →
          ¬ ∃ take, taken.outcome = .ok take)) ∧
    ∀ limiter : FixedWindow, limiter.window = window → ∀ count, counted.outcome = .ok count →
      ∃ verdict, (counted.judge (Failure.store : _ → Failure Binary64) limiter.judge).outcome =
        .ok verdict ∧ verdict.resetAfter = count.resetAfter ∧ verdict.resetAfter ≤ window := by
  intro counted taken
  have hreports : ∀ {count}, readCount window reply = .ok count ↔ Reports window reply count :=
    readCount_eq_ok_iff
  have hhands : ∀ {take}, readTake reply = .ok take ↔ HandsOut reply take := readTake_eq_ok_iff
  have hcounted := outcome_readAnswer hreports time
  have htaken := outcome_readAnswer hhands time
  refine ⟨hcounted, htaken, ?_, ?_⟩
  · rintro allowed item text hreply hholds negative
    have haccepted : (∃ take, taken.outcome = .ok take) ↔
        ∃ number, Reads text number ∧ number.IsAmount := by
      simp only [taken, htaken.1]
      rw [hreply, exists_take_iff hholds]
    rw [haccepted]
    refine ⟨fun size hdecimal => exists_amount_of_decimal hdecimal, fun hword => ?_⟩
    rintro ⟨number, hreads, hamount⟩
    exact not_amount_of_word hword hreads hamount
  · rintro limiter rfl count hcount
    have hwithin := ((hcounted.1 count).mp hcount).resetAfter_le
    have hkept : count.resetAfter.shorter limiter.window = count.resetAfter :=
      congrArg Duration.mk (Nat.min_eq_left hwithin)
    exact ⟨limiter.judge count, Answer.outcome_judge hcount _ _, hkept,
      Duration.shorter_le_right _ _⟩

/-- Minus zero, written as less than zero by so little that nothing is left of it. -/
theorem isDecimal_tiny :
    Decimal.IsDecimal "-2e-324".toList true ((2 : Nat) * 10 ^ (-324 : Int)) := by
  have hpointed : Decimal.Pointed ['2'] (2 : Nat) := .whole ⟨by simp, by simp⟩
  have hpower : Decimal.Power ('e' :: (['-'] ++ ['3', '2', '4'])) (-324) :=
    .marked (Or.inl rfl) .minus ⟨by simp, by simp⟩
  exact .intro .minus hpointed hpower

/-- Minus nothing is handed out, and of a window of ten nanoseconds no more is told. -/
theorem reply_is_answer_iff_tiny :
    (∃ take : TokenTake Binary64, (Remote.readAnswer ⟨.ok (array [integer 1, ofText "-2e-324"]),
      .start⟩ readTake).outcome = .ok take) ∧
    ∃ verdict, ((Remote.readAnswer ⟨.ok (array [integer 2, integer 86400000]), .start⟩
        (readCount FixedWindow.oneInTen.window)).judge (Failure.store : _ → Failure Binary64)
          FixedWindow.oneInTen.judge).outcome = .ok verdict ∧
      verdict.resetAfter = ⟨10⟩ ∧ verdict.resetAfter ≤ FixedWindow.oneInTen.window := by
  obtain ⟨-, -, hdecimals, -⟩ :=
    reply_is_answer_iff (array [integer 1, ofText "-2e-324"]) .zero .start
  obtain ⟨⟨hcounts, -⟩, -, -, hlimited⟩ :=
    reply_is_answer_iff (array [integer 2, integer 86400000]) FixedWindow.oneInTen.window .start
  refine ⟨?_, ?_⟩
  · have hless := mul_zpow_le_underflow_iff.mpr
      (by decide +kernel : 2 * tenTo (-324 : Int).toNat * twoTo 1075 ≤ tenTo (324 : Int).toNat)
    have haccepted := (hdecimals true _ _ rfl .bulk true).1 _ isDecimal_tiny
    exact haccepted.mpr ⟨hless.trans_lt underflow_lt_overflow, fun _ => hless⟩
  · exact hlimited FixedWindow.oneInTen rfl ⟨2, ⟨10⟩⟩
      ((hcounts _).mpr (.expiring (Nat.le_succ 1)))

end Reply

end Throttle
