import Throttle.Proofs.Memory.Denial
import Throttle.Proofs.Remote.Denied
import Throttle.Store.Canned

/-!
# Verdicts and their limits

A limiter makes its verdict from what a store says, and a store may say anything.  A fixed window
never shows more than its limit, nor a wait longer than its window.  A token bucket cuts the tokens
down to its capacity, but the capacity is a binary number: a burst of more than 53 digits is rounded
to one of them, and a full bucket then shows what the burst was rounded to.  So a verdict shows more
than its limit exactly if the bucket is full and the burst was rounded up (`within_limit`).
-/

namespace Throttle

open Binary64

/-! ## What a token bucket shows -/

namespace TokenBucket

variable {limiter : TokenBucket Binary64} {taken : TokenTake Binary64}

theorem isCount_capacity (hword : limiter.burst < twoTo 64) : limiter.capacity.IsCount := by
  rw [capacity, quantity_ofInt]
  exact isCount_ofInt hword.le

/-- Tokens that make up one at least are shown as they are, unless the bucket cannot hold them. -/
theorem clamp_of_one_le {tokens : Binary64} (hone : ofInt 1 ≤ tokens) :
    Quantity.clamp tokens (Quantity.ofInt 0) limiter.capacity =
      if limiter.capacity < tokens then limiter.capacity else tokens := by
  have hlow : ¬ tokens < Quantity.ofInt 0 :=
    not_lt_of_le (Binary64.le_of_lt (zero_lt_of_one_le hone))
  unfold Quantity.clamp
  rw [if_neg hlow]

/-- Of a full bucket the capacity is shown, which is what the burst was rounded to. -/
theorem remaining_judge_of_full (hword : limiter.burst < twoTo 64)
    (hfull : limiter.capacity ≤ taken.remaining) :
    (limiter.judge taken).remaining =
      min (nearestWhole limiter.burst) Quantity.largestCount := by
  have hone : ofInt 1 ≤ taken.remaining := Binary64.le_trans (one_le_capacity hword) hfull
  have hshown : (if limiter.capacity < taken.remaining then limiter.capacity
      else taken.remaining) = limiter.capacity := by
    split_ifs with hbeyond
    · rfl
    · obtain ⟨magnitude, hmagnitude, -⟩ := isCount_of_not_lt (isCount_capacity hword) hone hbeyond
      obtain ⟨nearest, -, hcapacity, -⟩ := exists_nearest_ofInt hword.le
      rw [capacity, quantity_ofInt, hcapacity, hmagnitude] at hfull hbeyond ⊢
      rw [finite_le_finite_iff] at hfull
      rw [finite_lt_finite_iff, not_lt] at hbeyond
      rw [Fin.le_antisymm hbeyond hfull]
  rw [remaining_judge, clamp_of_one_le hone, hshown, capacity, quantity_ofInt,
    wholeCount_ofInt_word limiter.lasting hword.le]

/-- Of a bucket with room left, less than the burst is shown: a number between the burst and what
it was rounded to would itself be nearer. -/
theorem remaining_judge_lt_burst (hword : limiter.burst < twoTo 64)
    (hroom : ¬ limiter.capacity ≤ taken.remaining) :
    (limiter.judge taken).remaining < limiter.burst := by
  by_cases hone : ofInt 1 ≤ taken.remaining
  · have hbounded : ¬ limiter.capacity < taken.remaining := fun hless =>
      hroom (Binary64.le_of_lt hless)
    obtain ⟨magnitude, hmagnitude, -⟩ := isCount_of_not_lt (isCount_capacity hword) hone hbounded
    obtain ⟨nearest, hnearest, hcapacity, -⟩ := exists_nearest_ofInt hword.le
    have hunits : units magnitude < limiter.burst * unitsInOne := by
      by_contra! hle
      rw [← Nat.mul_one (units magnitude)] at hle
      rw [capacity, quantity_ofInt, hcapacity, hmagnitude, finite_le_finite_iff, Fin.le_def,
        ← hnearest] at hroom
      exact hroom (nearestMagnitude_le Nat.one_pos hle)
    rw [remaining_judge, clamp_of_one_le hone, if_neg hbounded, hmagnitude, wholeCount_finite]
    exact (Nat.min_le_left _ _).trans_lt ((Nat.div_lt_iff_lt_mul unitsInOne_pos).mpr hunits)
  · rw [remaining_judge_of_short hword hone]
    exact Nat.pos_of_ne_zero limiter.lasting

end TokenBucket

/-! ## Verdicts from any store -/

/-- What is judged is an outcome, if there is one. -/
theorem Answer.outcome_judge {ε ε' β γ : Type} {answer : Answer ε β} {outcome : β}
    (houtcome : answer.outcome = .ok outcome) (translate : ε → ε') (verdict : β → γ) :
    (answer.judge translate verdict).outcome = .ok (verdict outcome) := by
  unfold judge
  rw [houtcome]

namespace Limiter

variable {σ : Type} [Store σ Binary64]

/-- **What a verdict shows**, whatever the store says.  A fixed window stays within its limit and
its window, and has something left only for a call that it allows.  A token bucket stays within its
limit too, unless the bucket is full and its burst is rounded to more than it is. -/
theorem within_limit (store : σ) (moment : Moment) (key : String) :
    (∀ (limiter : FixedWindow) (counted : WindowCount),
      (Store.increment store moment key limiter.window).1.outcome = .ok counted →
        ∃ verdict,
          ((Limiter.fixedWindow limiter).allow store moment key).1.outcome = .ok verdict ∧
            verdict.limit = limiter.limit ∧ verdict.remaining ≤ verdict.limit ∧
            verdict.resetAfter ≤ limiter.window ∧
            (0 < verdict.remaining → verdict.allowed = true)) ∧
    ∀ (limiter : TokenBucket Binary64) (taken : TokenTake Binary64),
      limiter.burst ≤ Quantity.largestCount →
      (Store.take store moment key limiter.rate limiter.burst).1.outcome = .ok taken →
        ∃ verdict,
          ((Limiter.tokenBucket limiter).allow store moment key).1.outcome = .ok verdict ∧
            verdict.limit = limiter.burst ∧ verdict.allowed = taken.allowed ∧
            (verdict.limit < verdict.remaining ↔ limiter.capacity ≤ taken.remaining ∧
              limiter.burst < min (nearestWhole limiter.burst) Quantity.largestCount) := by
  constructor
  · intro limiter counted hcounted
    refine ⟨limiter.judge counted, Answer.outcome_judge hcounted _ _, rfl,
      Nat.sub_le _ _, Duration.shorter_le_right _ _, ?_⟩
    exact limiter.allowed_of_remaining_pos counted
  · intro limiter taken hlargest htaken
    have hword : limiter.burst < twoTo 64 :=
      Nat.lt_of_le_pred (twoTo_pos 64) hlargest
    refine ⟨limiter.judge taken, Answer.outcome_judge htaken _ _, rfl, rfl, ?_⟩
    change limiter.burst < (limiter.judge taken).remaining ↔ _
    by_cases hfull : limiter.capacity ≤ taken.remaining
    · rw [TokenBucket.remaining_judge_of_full hword hfull]
      exact (and_iff_right hfull).symm
    · have hless := TokenBucket.remaining_judge_lt_burst hword hfull
      exact iff_of_false (Nat.lt_asymm hless) fun hboth => hfull hboth.1

/-- A token a second, and room for a number of tokens that is halfway between two that a binary
number of 64 bits can be. -/
def halfwayBurst : TokenBucket Binary64 :=
  { TokenBucket.oneASecond with burst := twoTo 53 + 3, lasting := by decide }

/-- A window of which a store tells more calls than it allows and a wait longer than it lasts, and
a bucket of which a store tells more tokens than there can be. -/
theorem within_limit_halfwayBurst :
    let moment : Moment := .ofNanos 0
    let busy : Canned Binary64 := ⟨[.count ⟨7, .longest⟩]⟩
    let flowing : Canned Binary64 := ⟨[.tokens ⟨true, infinite false⟩]⟩
    (∃ verdict,
      ((Limiter.fixedWindow FixedWindow.oneInTen).allow busy moment "k").1.outcome = .ok verdict ∧
        verdict.limit = 1 ∧ verdict.remaining ≤ verdict.limit ∧
        verdict.resetAfter ≤ FixedWindow.oneInTen.window ∧
        (0 < verdict.remaining → verdict.allowed = true)) ∧
      ∃ verdict, ((Limiter.tokenBucket halfwayBurst).allow flowing moment "k").1.outcome =
        .ok verdict ∧ verdict.limit = 9007199254740995 ∧ verdict.limit < verdict.remaining := by
  intro moment busy flowing
  have hcounted : (Store.increment busy moment "k" FixedWindow.oneInTen.window).1.outcome =
      .ok ⟨7, .longest⟩ := rfl
  have htaken : (Store.take flowing moment "k" halfwayBurst.rate halfwayBurst.burst).1.outcome =
      .ok ⟨true, infinite false⟩ := rfl
  refine ⟨(within_limit busy moment "k").1 FixedWindow.oneInTen _ hcounted, ?_⟩
  obtain ⟨verdict, hverdict, hlimit, -, habove⟩ :=
    (within_limit flowing moment "k").2 halfwayBurst _ (by decide) htaken
  exact ⟨verdict, hverdict, hlimit, habove.mpr ⟨by decide +kernel, by decide +kernel⟩⟩

/-- The first call on a fresh store leaves more than the limit. -/
theorem more_than_limit_halfwayBurst :
    ∃ verdict, ((Limiter.tokenBucket halfwayBurst).allow (Memory.empty : Memory Binary64)
      (.ofNanos 0) "k").1.outcome = .ok verdict ∧ verdict.limit = 9007199254740995 ∧
      verdict.remaining = 9007199254740996 := by
  refine ⟨⟨true, 9007199254740995, 9007199254740996, .zero⟩, ?_, rfl, rfl⟩
  decide +kernel

end Limiter

end Throttle
