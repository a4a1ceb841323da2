import Throttle.Limiter
import Throttle.Proofs.Memory.Level

/-!
# Whether the reset time can be trusted

A verdict on a token bucket tells when the next whole token has been earned.  One who calls again
at that time should be served, with as many tokens left as before (`Served`).

In exact arithmetic this takes exactly the time in which the missing part of a token is earned
(`served_iff_earned`).  The verdict rounds that time to the nearest nanosecond.  Rounded up, it can
be trusted; rounded down, it falls short by a part of a nanosecond, and the caller is refused or
left with a token less (`served_at_reset_iff`).
-/

namespace Throttle

/-! ## Readings of a verdict -/

theorem Quantity.clamp_rat {low high : Rat} (hle : low ≤ high) (value : Rat) :
    Quantity.clamp value low high = max low (min value high) := by
  unfold Quantity.clamp
  split_ifs with hlow hhigh
  · rw [min_eq_left (hlow.le.trans hle), max_eq_left hlow.le]
  · rw [min_eq_right hhigh.le, max_eq_right hle]
  · rw [min_eq_left (not_lt.mp hhigh), max_eq_right (not_lt.mp hlow)]

/-- The whole part of an amount that fits a word. -/
theorem Quantity.wholeCount_rat {value : Rat} {bound : Nat} (hbound : bound < twoTo 64)
    (hle : value ≤ bound) : Quantity.wholeCount value = ⌊value⌋.toNat := by
  have hfloor : ⌊value⌋ ≤ bound := by
    exact_mod_cast (Int.floor_le value).trans hle
  have hcount : ⌊value⌋.toNat ≤ Quantity.largestCount := by
    unfold Quantity.largestCount
    omega
  exact min_eq_left hcount

namespace TokenBucket

variable {limiter : TokenBucket Rat}

theorem rate_pos (limiter : TokenBucket Rat) : 0 < limiter.rate := by
  have hpositive := limiter.positive
  simpa using hpositive

/-- The tokens that a verdict speaks of: those left in the bucket, between none and all. -/
def shown (limiter : TokenBucket Rat) (tokens : Rat) : Rat := max 0 (min tokens limiter.burst)

theorem shown_nonneg (limiter : TokenBucket Rat) (tokens : Rat) : 0 ≤ limiter.shown tokens :=
  le_max_left _ _

theorem shown_le_burst (limiter : TokenBucket Rat) (tokens : Rat) :
    limiter.shown tokens ≤ limiter.burst :=
  max_le (Nat.cast_nonneg _) (min_le_right _ _)

theorem shown_of_mem {tokens : Rat} (hnonneg : 0 ≤ tokens) (hle : tokens ≤ limiter.burst) :
    limiter.shown tokens = tokens := by
  rw [shown, min_eq_left hle, max_eq_right hnonneg]

theorem judge_rat (hword : limiter.burst < twoTo 64) (taken : TokenTake Rat) :
    limiter.judge taken = {
      allowed := taken.allowed
      limit := limiter.burst
      remaining := ⌊limiter.shown taken.remaining⌋.toNat
      resetAfter := limiter.nextTokenAfter (limiter.shown taken.remaining) } := by
  have hclamp : Quantity.clamp taken.remaining (Quantity.ofInt 0) limiter.capacity =
      limiter.shown taken.remaining :=
    Quantity.clamp_rat (Nat.cast_nonneg _) taken.remaining
  unfold judge
  simp only [hclamp, Quantity.wholeCount_rat hword (limiter.shown_le_burst taken.remaining)]

end TokenBucket

/-! ## Calls -/

/-- A take whose caller still waits uses the bucket. -/
theorem Memory.store_take {α : Type} [Quantity α] (memory : Memory α) {moment : Moment}
    (hlive : moment.isDone = false) (key : String) (rate : α) (burst : Nat) :
    Store.take memory moment key rate burst =
      (⟨.ok (Memory.useBucket (memory.buckets.get? key) moment.now rate burst).1, moment.now⟩,
        (memory.take moment.now key rate burst).2) := by
  rw [← memory.fst_take]
  exact if_neg (by simp [hlive])

/-- A call of the limiter is a take that is judged. -/
theorem Limiter.allow_tokenBucket {α : Type} [Quantity α] (limiter : TokenBucket α)
    (memory : Memory α) {moment : Moment} (hlive : moment.isDone = false) (key : String) :
    (Limiter.tokenBucket limiter).allow memory moment key =
      (⟨.ok (limiter.judge (Memory.useBucket (memory.buckets.get? key) moment.now limiter.rate
          limiter.burst).1), moment.now⟩,
        memory.afterEvent ⟨moment.now, .take key limiter.rate limiter.burst⟩) := by
  unfold Limiter.allow
  simp only [memory.store_take hlive]
  rfl

namespace Memory

variable {α : Type} [Quantity α]

/-- Events without a take from a bucket leave it alone if no sweep removes it. -/
theorem get?_buckets_after {memory : Memory Rat} {key : String} {events : List (Event Rat)}
    (hquiet : ∀ event ∈ events, ∀ rate burst, event.operation ≠ .take key rate burst)
    (hspared : Spared key memory events) :
    (memory.after events).buckets.get? key = memory.buckets.get? key := by
  induction events generalizing memory with
  | nil => rfl
  | cons event rest ih =>
      have hrest := ih (fun other hother => hquiet other (List.mem_cons_of_mem _ hother)) hspared.2
      rw [after_cons, hrest]
      rcases bucket_cases key event with ⟨rate, burst, htake, -⟩ | ⟨hsweep, -⟩ | ⟨-, -, hstep⟩
      · exact absurd htake (hquiet event (List.mem_cons_self ..) rate burst)
      · exact hspared.1 hsweep
      · exact (hstep memory).2

/-- What a bucket holds that takes of one rate and one burst have used. -/
def Stocked (burst : Nat) (held? : Option (Bucket Rat)) : Prop :=
  ∀ held ∈ held?, 0 ≤ held.tokens ∧ held.tokens ≤ burst

/-- A use of such a bucket leaves less than its capacity. -/
theorem Stocked.remaining_mem {burst : Nat} {held? : Option (Bucket Rat)} {rate : Rat}
    (hstocked : Stocked burst held?) (hrate : 0 < rate) (hburst : 1 ≤ burst) (now : Instant) :
    0 ≤ (useBucket held? now rate burst).1.remaining ∧
      (useBucket held? now rate burst).1.remaining < burst := by
  have hone : (1 : Rat) ≤ burst := by exact_mod_cast hburst
  cases held? with
  | none =>
      rw [useBucket_none hburst]
      constructor <;> simp only <;> linarith
  | some held =>
      obtain ⟨hnonneg, hle⟩ := hstocked held rfl
      have hfull : held.refilled now rate (burst : Rat) ≤ burst := Bucket.refilled_le hle
      have hrefilled : 0 ≤ held.refilled now rate (burst : Rat) := by
        rw [Bucket.refilled_eq_min hle]
        have hearned := mul_nonneg (held.lastUsed.timeUntil now).inSeconds_nonneg hrate.le
        exact le_min (by linarith) (Nat.cast_nonneg _)
      rw [useBucket_some]
      simp only
      split_ifs with hallowed
      · constructor <;> linarith
      · exact ⟨hrefilled, lt_of_lt_of_le (not_le.mp hallowed) hone⟩

theorem Stocked.after {burst : Nat} {rate : Rat} (hrate : 0 < rate) (hburst : 1 ≤ burst)
    {key : String} {memory : Memory Rat} {events : List (Event Rat)}
    (hstocked : Stocked burst (memory.buckets.get? key))
    (huniform : Uniform key rate burst events) :
    Stocked burst ((memory.after events).buckets.get? key) := by
  induction events generalizing memory with
  | nil => exact hstocked
  | cons event rest ih =>
      refine ih ?_ huniform.of_cons
      rcases bucket_cases key event with
        ⟨otherRate, otherBurst, htake, hstep⟩ | ⟨hsweep, hstep⟩ | ⟨-, -, hstep⟩
      · obtain ⟨rfl, rfl⟩ := huniform event (List.mem_cons_self ..) _ _ htake
        rw [(hstep memory).2, useBucket_eq]
        rintro held ⟨⟩
        obtain ⟨hnonneg, hlt⟩ := hstocked.remaining_mem hrate hburst event.time
        exact ⟨hnonneg, hlt.le⟩
      · rw [(hstep memory).2, get?_buckets_sweep]
        intro held hheld
        exact hstocked held (Option.mem_filter_iff.mp hheld).1
      · rw [(hstep memory).2]
        exact hstocked

end Memory

/-! ## The next call -/

namespace TokenBucket

variable {limiter : TokenBucket Rat}

/-- What the limiter says to the next call for a bucket of so many tokens. -/
def next (limiter : TokenBucket Rat) (now : Instant) (tokens : Rat) (wait : Duration) : Verdict :=
  limiter.judge (Memory.useBucket (some (.holding now tokens limiter.rate limiter.burst))
    (now.after wait) limiter.rate limiter.burst).1

/-- The next call is allowed, and no less is left than a verdict has told. -/
def Served (verdict next : Verdict) : Prop :=
  next.allowed = true ∧ verdict.remaining ≤ next.remaining

theorem refilled_holding (now : Instant) (tokens rate burst : Rat) (wait : Duration) :
    (Bucket.holding now tokens rate burst).refilled (now.after wait) rate burst =
      if 0 < (wait.inSeconds : Rat) then min (tokens + wait.inSeconds * rate) burst
      else tokens := by
  simp [Bucket.refilled, Bucket.holding, Instant.timeUntil_after, Quantity.lesser_rat]

/-- The next call is served if the bucket holds the next whole token by then. -/
theorem served_iff_refilled (hword : limiter.burst < twoTo 64) (now : Instant)
    (taken : TokenTake Rat) (wait : Duration) :
    Served (limiter.judge taken) (limiter.next now taken.remaining wait) ↔
      ⌊limiter.shown taken.remaining⌋ + 1 ≤
        (Bucket.holding now taken.remaining limiter.rate limiter.burst).refilled (now.after wait)
          limiter.rate (limiter.burst : Rat) := by
  unfold Served next
  rw [Memory.useBucket_some, judge_rat hword, judge_rat hword]
  simp only [decide_eq_true_eq]
  generalize (Bucket.holding now taken.remaining limiter.rate limiter.burst).refilled
    (now.after wait) limiter.rate (limiter.burst : Rat) = tokens
  have hwhole : 0 ≤ ⌊limiter.shown taken.remaining⌋ :=
    Int.floor_nonneg.mpr (limiter.shown_nonneg _)
  have hbelow : (⌊limiter.shown taken.remaining⌋ : Rat) ≤ limiter.burst :=
    (Int.floor_le _).trans (limiter.shown_le_burst _)
  constructor
  · rintro ⟨hallowed, hremaining⟩
    rw [if_pos hallowed] at hremaining
    have hle : ⌊limiter.shown taken.remaining⌋ ≤ ⌊limiter.shown (tokens - 1)⌋ := by
      have hleft : 0 ≤ ⌊limiter.shown (tokens - 1)⌋ :=
        Int.floor_nonneg.mpr (limiter.shown_nonneg _)
      omega
    have hshown : limiter.shown (tokens - 1) ≤ tokens - 1 :=
      max_le (by linarith) (min_le_left _ _)
    have hreached : (⌊limiter.shown taken.remaining⌋ : Rat) ≤ tokens - 1 :=
      (Int.le_floor.mp hle).trans hshown
    linarith
  · intro hreached
    have hwholeRat : (0 : Rat) ≤ ⌊limiter.shown taken.remaining⌋ := by exact_mod_cast hwhole
    have hallowed : 1 ≤ tokens := by linarith
    refine ⟨hallowed, ?_⟩
    rw [if_pos hallowed]
    refine Int.toNat_le_toNat (Int.le_floor.mpr (le_max_of_le_right (le_min ?_ hbelow)))
    linarith

/-- A bucket that is not full has room for the next whole token. -/
theorem floor_add_one_le_burst {tokens : Rat} (hroom : tokens < limiter.burst) :
    (⌊tokens⌋ + 1 : Rat) ≤ limiter.burst := by
  have hlt : ⌊tokens⌋ < (limiter.burst : Int) := by
    exact_mod_cast (Int.floor_le _).trans_lt hroom
  exact_mod_cast hlt

/-- The next call is served at the reset time if what is left and what has been earned by then make
up the next whole token. -/
theorem served_at_reset_iff_earned (hword : limiter.burst < twoTo 64) (now : Instant)
    (taken : TokenTake Rat) :
    Served (limiter.judge taken)
        (limiter.next now taken.remaining (limiter.judge taken).resetAfter) ↔
      (⌊limiter.shown taken.remaining⌋ + 1 : Rat) ≤
        taken.remaining + limiter.rate * (limiter.judge taken).resetAfter.inSeconds := by
  rw [served_iff_refilled hword, refilled_holding]
  split_ifs with hwait
  · -- a bucket whose reset is not now has room for one more token
    have hroom : limiter.shown taken.remaining < limiter.burst := by
      by_contra hfull
      have hzero : (limiter.judge taken).resetAfter = .zero := by
        rw [judge_rat hword]
        exact if_pos (not_lt.mp hfull)
      rw [hzero] at hwait
      simp [Duration.inSeconds_rat, Duration.zero] at hwait
    rw [le_min_iff, and_iff_left (floor_add_one_le_burst hroom), mul_comm]
  · have hzero : ((limiter.judge taken).resetAfter.inSeconds : Rat) = 0 :=
      le_antisymm (not_lt.mp hwait) (Duration.inSeconds_nonneg _)
    rw [hzero, mul_zero, add_zero]

/-- The seconds in which the missing part of the next whole token is earned. -/
def missingSeconds (limiter : TokenBucket Rat) (tokens : Rat) : Rat :=
  (⌊tokens⌋ + 1 - tokens) / limiter.rate

/-- A call for a bucket that is not full is served if the missing part has been earned by then. -/
theorem served_iff_earned (hword : limiter.burst < twoTo 64) (now : Instant)
    {taken : TokenTake Rat} (hnonneg : 0 ≤ taken.remaining)
    (hroom : taken.remaining < limiter.burst) (wait : Duration) :
    Served (limiter.judge taken) (limiter.next now taken.remaining wait) ↔
      limiter.missingSeconds taken.remaining * nanosRatio ≤ wait.nanos := by
  have hmissing : limiter.missingSeconds taken.remaining * nanosRatio ≤ wait.nanos ↔
      (⌊taken.remaining⌋ + 1 : Rat) ≤ taken.remaining + wait.inSeconds * limiter.rate := by
    rw [missingSeconds, Duration.inSeconds_rat, ← le_div_iff₀ nanosRatio_pos,
      div_le_iff₀ limiter.rate_pos]
    constructor <;> intro hle <;> linarith
  rw [served_iff_refilled hword, refilled_holding, shown_of_mem hnonneg hroom.le, hmissing]
  split_ifs with hwait
  · rw [le_min_iff, and_iff_left (floor_add_one_le_burst hroom)]
  · have hzero : (wait.inSeconds : Rat) = 0 :=
      le_antisymm (not_lt.mp hwait) (Duration.inSeconds_nonneg _)
    rw [hzero, zero_mul, add_zero]

/-- The reset time is the time in which the missing part is earned, in whole nanoseconds. -/
theorem ofSeconds?_missingSeconds (hword : limiter.burst < twoTo 64) {taken : TokenTake Rat}
    (hnonneg : 0 ≤ taken.remaining) (hroom : taken.remaining < limiter.burst) :
    (limiter.judge taken).resetAfter =
      (Duration.ofSeconds? (limiter.missingSeconds taken.remaining)).getD .longest := by
  have hnot : ¬ limiter.capacity ≤ taken.remaining := not_le.mpr hroom
  rw [judge_rat hword]
  simp only [shown_of_mem hnonneg hroom.le, nextTokenAfter, if_neg hnot]
  rfl

/-- **When the reset time can be trusted.**  A limiter answers a call and leaves some tokens in the
bucket of the key.  The next call, with no sweep of the bucket in between, is served at the reset
time exactly if what was left and what has been earned by then make up the next whole token.  For a
bucket that is not full, and takes of one limiter leave no other, this says that the reset time was
not rounded down; and then it is enough to wait for one nanosecond more. -/
theorem served_at_reset_iff (limiter : TokenBucket Rat) (hword : limiter.burst < twoTo 64)
    (key : String) (memory : Memory Rat) {moment : Moment} (hlive : moment.isDone = false) :
    let first := (Limiter.tokenBucket limiter).allow memory moment key
    ∃ verdict tokens, first.1.outcome = .ok verdict ∧
      first.2.buckets.get? key =
        some (.holding moment.now tokens limiter.rate (limiter.burst : Rat)) ∧
      (∀ between : List (Memory.Event Rat),
        (∀ event ∈ between, ∀ rate burst, event.operation ≠ .take key rate burst) →
        Memory.Spared key first.2 between → ∀ later : Moment, later.isDone = false →
        ∃ next, ((Limiter.tokenBucket limiter).allow (first.2.after between) later
            key).1.outcome = .ok next ∧
          (later.now = moment.now.after verdict.resetAfter →
            (Served verdict next ↔ (⌊limiter.shown tokens⌋ + 1 : Rat) ≤
              tokens + limiter.rate * verdict.resetAfter.inSeconds) ∧
            (0 ≤ tokens → tokens < limiter.burst → (Served verdict next ↔
              limiter.missingSeconds tokens * nanosRatio ≤ verdict.resetAfter.nanos))) ∧
          (later.now = moment.now.after ⟨verdict.resetAfter.nanos + 1⟩ → 0 ≤ tokens →
            tokens < limiter.burst → verdict.resetAfter ≠ .longest → Served verdict next)) ∧
      ∀ events, memory = .after .empty events →
        Memory.Uniform key limiter.rate limiter.burst events →
        0 ≤ tokens ∧ tokens < limiter.burst := by
  intro first
  have hfirst : first = _ := Limiter.allow_tokenBucket limiter memory hlive key
  have hheld := Memory.get?_buckets_afterEvent_take memory moment.now key limiter.rate limiter.burst
  have hstart : ∀ events, memory = .after .empty events →
      Memory.Uniform key limiter.rate limiter.burst events →
      Memory.Stocked limiter.burst (memory.buckets.get? key) := by
    rintro events rfl huniform
    exact Memory.Stocked.after limiter.rate_pos (Nat.one_le_iff_ne_zero.mpr limiter.lasting) nofun
      huniform
  generalize hused : Memory.useBucket (memory.buckets.get? key) moment.now limiter.rate
    limiter.burst = used at hfirst hheld
  refine ⟨limiter.judge used.1, used.1.remaining, by rw [hfirst], ?_, ?_, ?_⟩
  · rw [hfirst]
    exact hheld
  · intro between hquiet hspared later hlater
    have hbucket : (first.2.after between).buckets.get? key =
        some (.holding moment.now used.1.remaining limiter.rate (limiter.burst : Rat)) := by
      rw [Memory.get?_buckets_after hquiet hspared, hfirst]
      exact hheld
    refine ⟨_, by rw [Limiter.allow_tokenBucket limiter _ hlater key, hbucket], ?_, ?_⟩
    · intro hnow
      rw [hnow]
      exact ⟨served_at_reset_iff_earned hword moment.now used.1,
        fun hnonneg hroom => served_iff_earned hword moment.now hnonneg hroom _⟩
    · intro hnow hnonneg hroom hknown
      rw [hnow]
      refine (served_iff_earned hword moment.now hnonneg hroom _).mpr ?_
      have hreset := ofSeconds?_missingSeconds hword hnonneg hroom
      cases hrounded : Duration.ofSeconds? (limiter.missingSeconds used.1.remaining) with
      | none =>
          rw [hrounded] at hreset
          exact absurd hreset hknown
      | some reset =>
          rw [hrounded, Option.getD_some] at hreset
          have hloss := Duration.mul_le_of_ofSeconds?_eq_some hrounded
          rw [hreset]
          push_cast
          linarith
  · intro events hmemory huniform
    have hmem := (hstart events hmemory huniform).remaining_mem limiter.rate_pos
      (Nat.one_le_iff_ne_zero.mpr limiter.lasting) moment.now
    rwa [hused] at hmem

/-- A bucket of one token that earns three in a second. -/
def thirds : TokenBucket Rat := ⟨3, 1, rfl, by decide, by decide⟩

def momentAt (nanos : Nat) : Moment := ⟨⟨nanos⟩, ⟨0⟩, none⟩

/-- A third of a second is rounded down: the caller who comes back then is refused, and told to come
back at once. -/
theorem refused_at_reset_thirds :
    let first := (Limiter.tokenBucket thirds).allow (.empty : Memory Rat) (momentAt 0) "k"
    let second := (Limiter.tokenBucket thirds).allow first.2 (momentAt 333333333) "k"
    first.1.outcome.toOption = some ⟨true, 1, 0, ⟨333333333⟩⟩ ∧
      second.1.outcome.toOption = some ⟨false, 1, 0, ⟨0⟩⟩ ∧
      ¬ ∃ verdict next, first.1.outcome = .ok verdict ∧ second.1.outcome = .ok next ∧
        Served verdict next := by
  intro first second
  have hfirst : first.1.outcome.toOption = some ⟨true, 1, 0, ⟨333333333⟩⟩ := by decide +kernel
  have hsecond : second.1.outcome.toOption = some ⟨false, 1, 0, ⟨0⟩⟩ := by decide +kernel
  refine ⟨hfirst, hsecond, ?_⟩
  rintro ⟨verdict, next, -, hnext, hallowed, -⟩
  rw [hnext] at hsecond
  obtain rfl : next = ⟨false, 1, 0, ⟨0⟩⟩ := Option.some.inj hsecond
  cases hallowed

/-- The same caller, who waits for one nanosecond more while another key is used. -/
theorem served_at_reset_iff_thirds :
    let first := (Limiter.tokenBucket thirds).allow (.empty : Memory Rat) (momentAt 0) "k"
    ∃ verdict next, first.1.outcome = .ok verdict ∧
      ((Limiter.tokenBucket thirds).allow (first.2.after [⟨⟨7⟩, .take "other" 3 1⟩, ⟨⟨9⟩, .sweep⟩])
        (momentAt 333333334) "k").1.outcome = .ok next ∧ Served verdict next := by
  intro first
  obtain ⟨verdict, tokens, hverdict, -, hnext, hstocked⟩ :=
    served_at_reset_iff thirds (by decide) "k" .empty (show (momentAt 0).isDone = false from rfl)
  have hknown : first.1.outcome.toOption = some ⟨true, 1, 0, ⟨333333333⟩⟩ := by decide +kernel
  rw [show first.1.outcome = .ok verdict from hverdict] at hknown
  obtain rfl : verdict = ⟨true, 1, 0, ⟨333333333⟩⟩ := Option.some.inj hknown
  obtain ⟨next, houtcome, -, hlater⟩ :=
    hnext [⟨⟨7⟩, .take "other" 3 1⟩, ⟨⟨9⟩, .sweep⟩] (by simp) (by decide +kernel)
      (momentAt 333333334) rfl
  obtain ⟨hnonneg, hroom⟩ := hstocked [] rfl nofun
  exact ⟨_, next, hverdict, houtcome, hlater rfl hnonneg hroom (by decide)⟩

end TokenBucket

end Throttle
