import Throttle.Proofs.Memory.Reset
import Throttle.Proofs.Numeric.Counts
import Throttle.Proofs.Remote.Takes

/-!
# What a denied caller has left

A token bucket denies a call if less than a token is there, so nothing should be left.  Over a
memory this is so, whatever the bucket holds.  Over a server the verdict is made from the text that
the script answers with, and fourteen digits show a number just below one as one: the caller is then
denied with one call left (`remaining_of_denied`).
-/

namespace Throttle

open Binary64

/-! ## Verdicts -/

namespace TokenBucket

theorem allowed_judge {α : Type} [Quantity α] (limiter : TokenBucket α) (taken : TokenTake α) :
    (limiter.judge taken).allowed = taken.allowed := rfl

theorem remaining_judge {α : Type} [Quantity α] (limiter : TokenBucket α) (taken : TokenTake α) :
    (limiter.judge taken).remaining = Quantity.wholeCount
      (Quantity.clamp taken.remaining (Quantity.ofInt 0) limiter.capacity) := rfl

/-- A verdict is made of a take that is answered. -/
theorem exists_take_of_allow {α σ : Type} [Quantity α] [Store σ α] {limiter : TokenBucket α}
    {store : σ} {moment : Moment} {key : String} {verdict : Verdict}
    (hverdict : ((Limiter.tokenBucket limiter).allow store moment key).1.outcome = .ok verdict) :
    ∃ taken, (Store.take store moment key limiter.rate limiter.burst).1.outcome = .ok taken ∧
      verdict = limiter.judge taken := by
  have hjudged : ((Store.take store moment key limiter.rate limiter.burst).1.judge
      (Failure.store (α := α)) limiter.judge).outcome = .ok verdict := hverdict
  unfold Answer.judge at hjudged
  cases houtcome : (Store.take store moment key limiter.rate limiter.burst).1.outcome with
  | error failure =>
      rw [houtcome] at hjudged
      cases hjudged
  | ok taken =>
      rw [houtcome] at hjudged
      exact ⟨taken, rfl, (Except.ok.inj hjudged).symm⟩

variable {limiter : TokenBucket Binary64}

theorem one_le_capacity (hword : limiter.burst < twoTo 64) : ofInt 1 ≤ limiter.capacity := by
  rw [capacity, quantity_ofInt]
  exact one_le_ofInt (Nat.one_le_iff_ne_zero.mpr limiter.lasting) hword.le

/-- Nothing is left of less than a token. -/
theorem remaining_judge_of_short (hword : limiter.burst < twoTo 64) {taken : TokenTake Binary64}
    (hshort : ¬ ofInt 1 ≤ taken.remaining) : (limiter.judge taken).remaining = 0 := by
  rw [remaining_judge]
  unfold Quantity.clamp
  split_ifs with hlow hhigh
  · exact wholeCount_ofInt 0 (Nat.zero_le _)
  · exact absurd (one_le_of_lt (one_le_capacity hword) hhigh) hshort
  · exact wholeCount_of_not_one_le hshort

/-- One call is left of one token. -/
theorem remaining_judge_of_one (hword : limiter.burst < twoTo 64) {taken : TokenTake Binary64}
    (hone : taken.remaining = ofInt 1) : (limiter.judge taken).remaining = 1 := by
  have hlow : ¬ ofInt 1 < Quantity.ofInt 0 := by decide +kernel
  have hhigh : ¬ limiter.capacity < ofInt 1 := not_lt_of_le (one_le_capacity hword)
  rw [remaining_judge, hone]
  unfold Quantity.clamp
  rw [if_neg hlow, if_neg hhigh]
  exact wholeCount_ofInt 1 (by decide)

end TokenBucket

namespace Memory

/-- A use that is refused leaves less than a token. -/
theorem not_one_le_of_refused {α : Type} [Quantity α] {held? : Option (Bucket α)} {now : Instant}
    {rate : α} {burst : Nat} (hroom : Quantity.ofInt 1 ≤ (Quantity.ofInt burst : α))
    (hrefused : (useBucket held? now rate burst).1.allowed = false) :
    ¬ Quantity.ofInt 1 ≤ (useBucket held? now rate burst).1.remaining := by
  cases held? with
  | none => exact absurd hroom (of_decide_eq_false hrefused)
  | some held =>
      have hshort : decide (Quantity.ofInt 1 ≤ held.refilled now rate (Quantity.ofInt burst)) =
          false := hrefused
      unfold useBucket Bucket.take
      simp only [hshort, Bool.false_eq_true, if_false]
      exact of_decide_eq_false hshort

end Memory

namespace TokenBucket

/-- **A denied caller has nothing left**, whatever the store holds: always over a memory, and over
a server unless fourteen digits show the tokens that are there as one. -/
theorem remaining_of_denied (limiter : TokenBucket Binary64) (hword : limiter.burst < twoTo 64)
    (moment : Moment) (key : String) (verdict : Verdict) (hdenied : verdict.allowed = false) :
    (∀ memory : Memory Binary64,
      ((Limiter.tokenBucket limiter).allow memory moment key).1.outcome = .ok verdict →
        verdict.remaining = 0) ∧
    ∀ (remote : Remote Binary64) (clock : Int) (space : KeySpace Binary64) (now : Instant),
      remote.Serves clock space now → now ≤ moment.now →
      ((Limiter.tokenBucket limiter).allow remote moment key).1.outcome = .ok verdict →
        ∃ tokens, (remote.takenAt clock space moment key limiter.rate limiter.burst).remaining.value?
            = some tokens ∧ tokens < 1 ∧
          verdict.remaining = if tokens < nearlyOne then 0 else 1 := by
  constructor
  · intro memory hverdict
    obtain ⟨taken, htaken, rfl⟩ := exists_take_of_allow hverdict
    cases hlive : moment.isDone with
    | true =>
        have hcanceled : Store.take memory moment key limiter.rate limiter.burst =
            (⟨.error .canceled, moment.now⟩, memory) := if_pos hlive
        rw [hcanceled] at htaken
        cases htaken
    | false =>
        rw [memory.store_take hlive] at htaken
        obtain rfl := Except.ok.inj htaken
        rw [allowed_judge] at hdenied
        have hroom := one_le_capacity hword
        rw [capacity, ← quantity_ofInt] at hroom
        have hshort := Memory.not_one_le_of_refused hroom hdenied
        exact remaining_judge_of_short hword hshort
  · intro remote clock space now hserves hlater hverdict
    obtain ⟨told, htold, rfl⟩ := exists_take_of_allow hverdict
    have hserved := (hserves.perform ⟨moment, .take key limiter.rate limiter.burst⟩ hlater).1
    have htake : (remote.serve clock space
        ⟨moment, .take key limiter.rate limiter.burst⟩).1.take? = some told := by
      rw [← hserved]
      exact congrArg Except.toOption htold
    obtain ⟨hverdict, hread, hfinite, -⟩ := Remote.told_of_serve limiter.finite htake
    rw [allowed_judge] at hdenied
    have hshort := Script.not_one_le_of_refused (hverdict.symm.trans hdenied)
    obtain ⟨tokens, htokens, hless, hcases⟩ := read_of_not_one_le hshort hread hfinite
    refine ⟨tokens, htokens, hless, ?_⟩
    rcases hcases with ⟨hfar, hnothing⟩ | ⟨hnear, hone⟩
    · rw [if_pos hfar, remaining_judge_of_short hword hnothing]
    · rw [if_neg (not_lt.mpr hnear), remaining_judge_of_one hword hone]

/-- One token per second, and room for one. -/
def oneASecond : TokenBucket Binary64 :=
  ⟨ofInt 1, 1, by decide +kernel, by decide +kernel, thirds.lasting⟩

/-- Half a second after the only token was taken. -/
theorem remaining_of_denied_halfway :
    let first : Moment := .ofNanos 0
    let second : Moment := .ofNanos 500000000
    let memory : Memory Binary64 := ((Limiter.tokenBucket oneASecond).allow Memory.empty first "k").2
    let remote : Remote Binary64 :=
      ((Limiter.tokenBucket oneASecond).allow (Remote.onFreshServer "" none 0) first "k").2
    let verdict : Verdict := ⟨false, 1, 0, ⟨500000000⟩⟩
    ((Limiter.tokenBucket oneASecond).allow memory second "k").1.outcome = .ok verdict ∧
      ((Limiter.tokenBucket oneASecond).allow remote second "k").1.outcome = .ok verdict ∧
      verdict.remaining = 0 ∧
      ∃ (space : KeySpace Binary64) (tokens : Rat), remote.Serves 0 space first.now ∧
        (remote.takenAt 0 space second "k" oneASecond.rate oneASecond.burst).remaining.value? =
          some tokens ∧ tokens < 1 ∧ verdict.remaining = if tokens < nearlyOne then 0 else 1 := by
  intro first second memory remote verdict
  have hmemory : ((Limiter.tokenBucket oneASecond).allow memory second "k").1.outcome =
      .ok verdict := by decide +kernel
  have hremote : ((Limiter.tokenBucket oneASecond).allow remote second "k").1.outcome =
      .ok verdict := by decide +kernel
  obtain ⟨honMemory, honServer⟩ :=
    remaining_of_denied oneASecond (by decide +kernel) second "k" verdict rfl
  have htimeout : (none : Option Duration) ≠ some .zero := nofun
  have hfresh : (Remote.onFreshServer "" none 0 : Remote Binary64).Serves 0 .empty .start :=
    Remote.serves_onFreshServer "" htimeout 0
  obtain ⟨-, hserves, -⟩ :=
    hfresh.perform ⟨first, .take "k" oneASecond.rate oneASecond.burst⟩ (Nat.zero_le _)
  obtain ⟨tokens, htokens, hless, hremaining⟩ :=
    honServer remote 0 _ first.now hserves (by decide) hremote
  exact ⟨hmemory, hremote, honMemory memory hmemory, _, tokens, hserves, htokens, hless, hremaining⟩

/-- Fifteen digits of a token each second. -/
def nearlyOneASecond : TokenBucket Binary64 :=
  ⟨ofDecimal false 999999999999999 (-15), 1, by decide +kernel, by decide +kernel,
    thirds.lasting⟩

/-- A second after the only token was taken, fourteen digits show what has been earned as one. -/
theorem denied_with_one_left :
    let remote : Remote Binary64 := ((Limiter.tokenBucket nearlyOneASecond).allow
      (Remote.onFreshServer "" none 0) (.ofNanos 0) "k").2
    ((Limiter.tokenBucket nearlyOneASecond).allow remote (.ofNanos 1000000000) "k").1.outcome =
      .ok ⟨false, 1, 1, .zero⟩ := by
  decide +kernel

end TokenBucket

end Throttle
