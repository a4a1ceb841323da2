import Throttle.Proofs.Memory.Admission
import Throttle.Proofs.Memory.Reset

/-!
# Denied calls are free

A denied call changes the memory: it is counted in its window, and it refills its bucket.  No
later answer shows it.  A window that is full stays full until its end, however far the count
goes beyond the limit; and to refill a bucket in two steps is to refill it once, as long as the
capacity is the same (`Bucket.refilled_holding_refilled`).

So two runs are compared, the second of which lacks some of the calls that are denied in the
first (`Thinned`).  What they hold of a key is `Alike` all along, and every call that both runs
have is answered alike.
-/

namespace Throttle

/-! ## Windows -/

namespace FixedWindow

/-- The window of a key after one more call. -/
def windowAfter (limiter : FixedWindow) (held? : Option Window) (now : Instant) : Window :=
  (held?.getD (.fresh now)).afterCall now limiter.window

variable {limiter : FixedWindow} {now : Instant}

theorem windowAfter_none : limiter.windowAfter none now = ⟨1, Window.endOf now limiter.window⟩ := by
  simp [windowAfter, Window.afterCall, Window.fresh]

theorem windowAfter_some {count : Nat} (hbegun : 0 < count) (finish : Instant) :
    limiter.windowAfter (some ⟨count, finish⟩) now =
      if finish ≤ now then ⟨1, Window.endOf now limiter.window⟩ else ⟨count + 1, finish⟩ := by
  have hnonzero : count ≠ 0 := Nat.ne_of_gt hbegun
  simp [windowAfter, Window.afterCall, hnonzero]

theorem allowed_judge_report_eq_false_iff {held : Window} :
    (limiter.judge (held.report now)).allowed = false ↔ limiter.limit < held.count := by
  rw [← Nat.not_le]
  exact decide_eq_false_iff_not

/-- Counts beyond the limit are told alike. -/
theorem judge_report_congr {held other : Window} (hexpires : held.expiresAt = other.expiresAt)
    (hagree : held.count = other.count ∨ limiter.limit < held.count ∧ limiter.limit < other.count) :
    limiter.judge (held.report now) = limiter.judge (other.report now) := by
  have hallowed : held.count ≤ limiter.limit ↔ other.count ≤ limiter.limit := by omega
  have hleft : limiter.limit - held.count = limiter.limit - other.count := by omega
  unfold judge Window.report
  rw [hexpires, hleft, Verdict.mk.injEq]
  exact ⟨decide_eq_decide.mpr hallowed, rfl, rfl, rfl⟩

/-- The windows of a key in two runs, one of which lacks some denied calls.  The counts may be
apart once both have reached the limit. -/
inductive Alike (limiter : FixedWindow) : Option Window → Option Window → Prop
  | unused : Alike limiter none none
  | begun {count other : Nat} {finish : Instant} (hcount : 0 < count) (hother : 0 < other)
      (hagree : count = other ∨ limiter.limit ≤ count ∧ limiter.limit ≤ other) :
      Alike limiter (some ⟨count, finish⟩) (some ⟨other, finish⟩)

namespace Alike

variable {more fewer : Option Window}

/-- A call that both runs have is answered alike and leaves the windows alike. -/
theorem keep (halike : limiter.Alike more fewer) (now : Instant) :
    limiter.judge ((limiter.windowAfter more now).report now) =
        limiter.judge ((limiter.windowAfter fewer now).report now) ∧
      limiter.Alike (some (limiter.windowAfter more now))
        (some (limiter.windowAfter fewer now)) := by
  cases halike with
  | unused =>
      rw [windowAfter_none]
      exact ⟨rfl, .begun Nat.one_pos Nat.one_pos (.inl rfl)⟩
  | @begun count other finish hcount hother hagree =>
      rw [windowAfter_some hcount, windowAfter_some hother]
      by_cases hover : finish ≤ now
      · rw [if_pos hover, if_pos hover]
        exact ⟨rfl, .begun Nat.one_pos Nat.one_pos (.inl rfl)⟩
      · rw [if_neg hover, if_neg hover]
        exact ⟨judge_report_congr rfl (by simp only; omega),
          .begun count.succ_pos other.succ_pos (by omega)⟩

/-- A denied call that one run lacks leaves the windows alike. -/
theorem drop (halike : limiter.Alike more fewer) (hlimit : 1 ≤ limiter.limit)
    (hdenied : (limiter.judge ((limiter.windowAfter more now).report now)).allowed = false) :
    limiter.Alike (some (limiter.windowAfter more now)) fewer := by
  rw [allowed_judge_report_eq_false_iff] at hdenied
  cases halike with
  | unused =>
      rw [windowAfter_none] at hdenied
      exact absurd hlimit (Nat.not_le.mpr hdenied)
  | @begun count other finish hcount hother hagree =>
      rw [windowAfter_some hcount] at hdenied ⊢
      split_ifs at hdenied ⊢ with hover
      · exact absurd hlimit (Nat.not_le.mpr hdenied)
      · refine .begun count.succ_pos hother (.inr ?_)
        simp only at hdenied
        omega

end Alike

end FixedWindow

/-! ## Buckets -/

/-- The seconds from one instant to a third are those over a second one in between. -/
theorem Instant.inSeconds_timeUntil_add {first second third : Instant} (hfirst : first ≤ second)
    (hsecond : second ≤ third) :
    ((first.timeUntil second).inSeconds : Rat) + (second.timeUntil third).inSeconds =
      (first.timeUntil third).inSeconds := by
  have hfirstNanos : first.nanos ≤ second.nanos := hfirst
  have hsecondNanos : second.nanos ≤ third.nanos := hsecond
  have hnanos : (second.nanos - first.nanos) + (third.nanos - second.nanos) =
      third.nanos - first.nanos := by omega
  rw [Duration.inSeconds_rat, Duration.inSeconds_rat, Duration.inSeconds_rat, ← add_div,
    ← Nat.cast_add]
  exact congrArg (fun nanos : Nat => (nanos : Rat) / nanosRatio) hnanos

/-- To refill a bucket twice is to refill it once. -/
theorem Bucket.refilled_holding_refilled {held : Bucket Rat} {rate burst : Rat}
    (hrate : 0 ≤ rate) (htokens : held.tokens ≤ burst) {now later : Instant}
    (hpast : held.lastUsed ≤ now) (hlater : now ≤ later) :
    (Bucket.holding now (held.refilled now rate burst) rate burst).refilled later rate burst =
      held.refilled later rate burst := by
  have hfull : (Bucket.holding now (held.refilled now rate burst) rate burst).tokens ≤ burst :=
    Bucket.refilled_le htokens
  set first := (held.lastUsed.timeUntil now).inSeconds * rate with hfirst
  set second := (now.timeUntil later).inSeconds * rate with hsecond
  have hearned : 0 ≤ second := mul_nonneg (Duration.inSeconds_nonneg _) hrate
  have htotal : first + second = (held.lastUsed.timeUntil later).inSeconds * rate := by
    rw [hfirst, hsecond, ← add_mul, Instant.inSeconds_timeUntil_add hpast hlater]
  calc (Bucket.holding now (held.refilled now rate burst) rate burst).refilled later rate burst
      = min (held.refilled now rate burst + second) burst := Bucket.refilled_eq_min hfull
    _ = min (min (held.tokens + first) burst + second) burst := by
        rw [Bucket.refilled_eq_min htokens]
    _ = min (held.tokens + first + second) (min (burst + second) burst) := by
        rw [← min_add_add_right, min_assoc]
    _ = min (held.tokens + (first + second)) burst := by
        rw [min_eq_right (le_add_of_nonneg_right hearned), add_assoc]
    _ = held.refilled later rate burst := by
        rw [htotal, Bucket.refilled_eq_min htokens]

namespace TokenBucket

/-- The buckets of a key in two runs, one of which lacks some denied calls.  They may have been
refilled last at different times, but hold the same after any refill to come. -/
inductive Alike (limiter : TokenBucket Rat) (now : Instant) :
    Option (Bucket Rat) → Option (Bucket Rat) → Prop
  | unused : Alike limiter now none none
  | used {held other : Bucket Rat}
      (htokens : held.tokens ≤ limiter.burst) (hpast : held.lastUsed ≤ now)
      (hother : other.tokens ≤ limiter.burst)
      (hagree : ∀ later, now ≤ later → held.refilled later limiter.rate limiter.burst =
        other.refilled later limiter.rate limiter.burst) :
      Alike limiter now (some held) (some other)

namespace Alike

variable {limiter : TokenBucket Rat} {now later : Instant} {more fewer : Option (Bucket Rat)}

theorem mono (halike : limiter.Alike now more fewer) (hlater : now ≤ later) :
    limiter.Alike later more fewer := by
  cases halike with
  | unused => exact .unused
  | used htokens hpast hother hagree =>
      exact .used htokens (Nat.le_trans hpast hlater) hother fun time htime =>
        hagree time (Nat.le_trans hlater htime)

/-- A call that both runs have takes the same and leaves the same. -/
theorem keep (halike : limiter.Alike now more fewer) (hlater : now ≤ later) :
    Memory.useBucket more later limiter.rate limiter.burst =
        Memory.useBucket fewer later limiter.rate limiter.burst ∧
      limiter.Alike later (some (Memory.useBucket more later limiter.rate limiter.burst).2)
        (some (Memory.useBucket fewer later limiter.rate limiter.burst).2) := by
  have hsame : Memory.useBucket more later limiter.rate limiter.burst =
      Memory.useBucket fewer later limiter.rate limiter.burst := by
    cases halike with
    | unused => rfl
    | used htokens hpast hother hagree =>
        simp only [Memory.useBucket_some, hagree later hlater]
  have hheld : ∀ held ∈ fewer, held.tokens ≤ limiter.burst := by
    cases halike with
    | unused => nofun
    | used htokens hpast hother hagree => simpa using hother
  have hburst : 1 ≤ limiter.burst := Nat.one_le_iff_ne_zero.mpr limiter.lasting
  have hleft : (Memory.useBucket fewer later limiter.rate limiter.burst).2.tokens ≤
      limiter.burst := Memory.useBucket_tokens_le hburst hheld
  rw [hsame]
  refine ⟨rfl, .used hleft ?_ hleft fun _ _ => rfl⟩
  rw [Memory.useBucket_eq]
  exact Nat.le_refl _

/-- A denied call that one run lacks leaves a bucket that will hold the same. -/
theorem drop (halike : limiter.Alike now more fewer) (hlater : now ≤ later)
    (hdenied : (Memory.useBucket more later limiter.rate limiter.burst).1.allowed = false) :
    limiter.Alike later (some (Memory.useBucket more later limiter.rate limiter.burst).2)
      fewer := by
  cases halike with
  | unused =>
      rw [Memory.useBucket_none (Nat.one_le_iff_ne_zero.mpr limiter.lasting)] at hdenied
      cases hdenied
  | @used held other htokens hpast hother hagree =>
      rw [Memory.useBucket_some] at hdenied ⊢
      have hshort : ¬ 1 ≤ held.refilled later limiter.rate (limiter.burst : Rat) :=
        of_decide_eq_false hdenied
      simp only [if_neg hshort]
      refine .used (Bucket.refilled_le htokens) (Nat.le_refl _) hother fun time htime => ?_
      rw [Bucket.refilled_holding_refilled limiter.rate_pos.le htokens
        (Nat.le_trans hpast hlater) htime]
      exact hagree time (Nat.le_trans hlater htime)

end Alike

end TokenBucket

/-! ## Calls -/

namespace Limiter

/-- The limiter allows the first call for a key. -/
def Admits : Limiter Rat → Prop
  | .fixedWindow limiter => 1 ≤ limiter.limit
  | .tokenBucket _ => True

/-- A limiter cannot tell two memories apart by the calls for a key. -/
def Alike (limiter : Limiter Rat) (now : Instant) (key : String) (more fewer : Memory Rat) :
    Prop :=
  match limiter with
  | .fixedWindow limiter => limiter.Alike (more.windows.get? key) (fewer.windows.get? key)
  | .tokenBucket limiter => limiter.Alike now (more.buckets.get? key) (fewer.buckets.get? key)

/-- Whether an outcome is a denial; a failure is none. -/
def denies : Except (Failure Rat) Verdict → Bool
  | .ok verdict => !verdict.allowed
  | .error _ => false

variable {limiter : Limiter Rat} {memory more fewer : Memory Rat} {moment : Moment}
  {now : Instant} {key other : String}

/-- A caller who is done is answered without a look at the memory. -/
theorem allow_of_done {α : Type} [Quantity α] (limiter : Limiter α) (memory : Memory α)
    (hdone : moment.isDone = true) (key : String) :
    limiter.allow memory moment key = (⟨.error (.store .canceled), moment.now⟩, memory) := by
  cases limiter with
  | fixedWindow limiter => exact allow_fixedWindow_of_done limiter memory hdone key
  | tokenBucket limiter =>
      have hstore : Store.take memory moment key limiter.rate limiter.burst =
          (⟨.error .canceled, moment.now⟩, memory) := if_pos hdone
      unfold allow
      simp only [hstore]
      rfl

/-- A call leaves the other keys as they are. -/
theorem get?_allow_of_ne (limiter : Limiter Rat) (memory : Memory Rat) (moment : Moment)
    (hother : other ≠ key) :
    (limiter.allow memory moment key).2.windows.get? other = memory.windows.get? other ∧
      (limiter.allow memory moment key).2.buckets.get? other = memory.buckets.get? other := by
  cases hdone : moment.isDone with
  | true => rw [allow_of_done limiter memory hdone]; exact ⟨rfl, rfl⟩
  | false =>
      cases limiter with
      | fixedWindow limiter =>
          rw [allow_fixedWindow limiter memory hdone]
          exact ⟨Memory.get?_windows_increment_of_ne memory moment.now hother limiter.window, rfl⟩
      | tokenBucket limiter =>
          rw [allow_tokenBucket limiter memory hdone]
          simp [Memory.afterEvent, Memory.perform_take, Table.get?_insert_of_ne _ hother]

theorem allow_fixedWindow_live (limiter : FixedWindow) (memory : Memory Rat)
    (hlive : moment.isDone = false) (key : String) :
    ((fixedWindow limiter).allow memory moment key).1.outcome = .ok (limiter.judge
        ((limiter.windowAfter (memory.windows.get? key) moment.now).report moment.now)) ∧
      ((fixedWindow limiter).allow memory moment key).2.windows.get? key =
        some (limiter.windowAfter (memory.windows.get? key) moment.now) := by
  rw [allow_fixedWindow limiter memory hlive]
  exact ⟨rfl, Memory.get?_windows_increment_self memory moment.now key limiter.window⟩

theorem allow_tokenBucket_live (limiter : TokenBucket Rat) (memory : Memory Rat)
    (hlive : moment.isDone = false) (key : String) :
    ((tokenBucket limiter).allow memory moment key).1.outcome = .ok (limiter.judge
        (Memory.useBucket (memory.buckets.get? key) moment.now limiter.rate limiter.burst).1) ∧
      ((tokenBucket limiter).allow memory moment key).2.buckets.get? key =
        some (Memory.useBucket (memory.buckets.get? key) moment.now limiter.rate
          limiter.burst).2 := by
  rw [allow_tokenBucket limiter memory hlive, Memory.useBucket_eq]
  exact ⟨rfl, Memory.get?_buckets_afterEvent_take ..⟩

namespace Alike

theorem mono (halike : limiter.Alike now key more fewer) {later : Instant} (hlater : now ≤ later) :
    limiter.Alike later key more fewer := by
  cases limiter with
  | fixedWindow limiter => exact halike
  | tokenBucket limiter => exact TokenBucket.Alike.mono halike hlater

/-- Only what is held of the key matters. -/
theorem congr (halike : limiter.Alike now key more fewer) {more' fewer' : Memory Rat}
    (hmore : more'.windows.get? key = more.windows.get? key ∧
      more'.buckets.get? key = more.buckets.get? key)
    (hfewer : fewer'.windows.get? key = fewer.windows.get? key ∧
      fewer'.buckets.get? key = fewer.buckets.get? key) : limiter.Alike now key more' fewer' := by
  cases limiter with
  | fixedWindow limiter =>
      show limiter.Alike _ _
      rw [hmore.1, hfewer.1]
      exact halike
  | tokenBucket limiter =>
      show limiter.Alike now _ _
      rw [hmore.2, hfewer.2]
      exact halike

/-- A call that both runs have is answered alike and leaves the memories alike. -/
theorem keep (halike : limiter.Alike now key more fewer) (hlater : now ≤ moment.now) :
    (limiter.allow more moment key).1.outcome = (limiter.allow fewer moment key).1.outcome ∧
      limiter.Alike moment.now key (limiter.allow more moment key).2
        (limiter.allow fewer moment key).2 := by
  cases hdone : moment.isDone with
  | true =>
      rw [allow_of_done limiter more hdone, allow_of_done limiter fewer hdone]
      exact ⟨rfl, halike.mono hlater⟩
  | false =>
      cases limiter with
      | fixedWindow limiter =>
          obtain ⟨hmore, hmoreLeft⟩ := allow_fixedWindow_live limiter more hdone key
          obtain ⟨hfewer, hfewerLeft⟩ := allow_fixedWindow_live limiter fewer hdone key
          obtain ⟨hanswer, hleft⟩ := FixedWindow.Alike.keep halike moment.now
          rw [hmore, hfewer, hanswer]
          refine ⟨rfl, ?_⟩
          simp only [Alike, hmoreLeft, hfewerLeft]
          exact hleft
      | tokenBucket limiter =>
          obtain ⟨hmore, hmoreLeft⟩ := allow_tokenBucket_live limiter more hdone key
          obtain ⟨hfewer, hfewerLeft⟩ := allow_tokenBucket_live limiter fewer hdone key
          obtain ⟨hanswer, hleft⟩ := TokenBucket.Alike.keep halike hlater
          rw [hmore, hfewer, hanswer]
          refine ⟨rfl, ?_⟩
          simp only [Alike, hmoreLeft, hfewerLeft]
          exact hleft

/-- A denied call that one run lacks leaves the memories alike. -/
theorem drop (halike : limiter.Alike now key more fewer) (hlater : now ≤ moment.now)
    (hadmits : limiter.Admits)
    (hdenied : denies (limiter.allow more moment key).1.outcome = true) :
    limiter.Alike moment.now key (limiter.allow more moment key).2 fewer := by
  cases hdone : moment.isDone with
  | true =>
      rw [allow_of_done limiter more hdone] at hdenied
      cases hdenied
  | false =>
      cases limiter with
      | fixedWindow limiter =>
          obtain ⟨hmore, hmoreLeft⟩ := allow_fixedWindow_live limiter more hdone key
          rw [hmore] at hdenied
          simp only [Alike, hmoreLeft]
          exact FixedWindow.Alike.drop halike hadmits (Bool.not_eq_true' _ ▸ hdenied)
      | tokenBucket limiter =>
          obtain ⟨hmore, hmoreLeft⟩ := allow_tokenBucket_live limiter more hdone key
          rw [hmore] at hdenied
          simp only [Alike, hmoreLeft]
          exact TokenBucket.Alike.drop halike hlater (Bool.not_eq_true' _ ▸ hdenied)

end Alike

end Limiter

/-! ## Runs -/

namespace Memory

/-- The calls of a run, each for a key, and what they are answered with; every key has its own
limiter. -/
def answered (limiterOf : String → Limiter Rat) (memory : Memory Rat) :
    List (Moment × String) → List ((Moment × String) × Except (Failure Rat) Verdict)
  | [] => []
  | (moment, key) :: rest =>
      ((moment, key), ((limiterOf key).allow memory moment key).1.outcome) ::
        answered limiterOf ((limiterOf key).allow memory moment key).2 rest

/-- A history without some of its denials. -/
inductive Thinned : List ((Moment × String) × Except (Failure Rat) Verdict) →
    List ((Moment × String) × Except (Failure Rat) Verdict) → Prop
  | nil : Thinned [] []
  | keep (entry) {more fewer} (hrest : Thinned more fewer) :
      Thinned (entry :: more) (entry :: fewer)
  | drop (entry) {more fewer} (hdenied : Limiter.denies entry.2 = true)
      (hrest : Thinned more fewer) : Thinned (entry :: more) fewer

theorem thinned_cons_iff {entry : (Moment × String) × Except (Failure Rat) Verdict}
    {more thinned : List ((Moment × String) × Except (Failure Rat) Verdict)} :
    Thinned (entry :: more) thinned ↔
      (∃ fewer, thinned = entry :: fewer ∧ Thinned more fewer) ∨
        Limiter.denies entry.2 = true ∧ Thinned more thinned := by
  constructor
  · rintro (_ | ⟨_, hrest⟩ | ⟨_, hdenied, hrest⟩)
    · exact .inl ⟨_, rfl, hrest⟩
    · exact .inr ⟨hdenied, hrest⟩
  · rintro (⟨fewer, rfl, hrest⟩ | ⟨hdenied, hrest⟩)
    · exact .keep entry hrest
    · exact .drop entry hdenied hrest

/-- All denials may be left out at once. -/
theorem thinned_filter (history : List ((Moment × String) × Except (Failure Rat) Verdict)) :
    Thinned history (history.filter fun entry => !Limiter.denies entry.2) := by
  induction history with
  | nil => exact .nil
  | cons entry rest ih =>
      cases hdenies : Limiter.denies entry.2 with
      | true => simpa [hdenies] using Thinned.drop entry hdenies ih
      | false => simpa [hdenies] using Thinned.keep entry ih

variable {limiterOf : String → Limiter Rat}

/-- Two memories that no limiter can tell apart by the calls for its keys. -/
def AllAlike (limiterOf : String → Limiter Rat) (now : Instant) (more fewer : Memory Rat) : Prop :=
  ∀ key, (limiterOf key).Alike now key more fewer

theorem allAlike_empty (now : Instant) : AllAlike limiterOf now .empty .empty := by
  intro key
  unfold Limiter.Alike
  cases limiterOf key with
  | fixedWindow limiter => exact .unused
  | tokenBucket limiter => exact .unused

namespace AllAlike

variable {now : Instant} {more fewer : Memory Rat} {moment : Moment}

theorem keep (halike : AllAlike limiterOf now more fewer) (hlater : now ≤ moment.now)
    (key : String) :
    AllAlike limiterOf moment.now ((limiterOf key).allow more moment key).2
      ((limiterOf key).allow fewer moment key).2 := by
  intro other
  rcases eq_or_ne other key with rfl | hother
  · exact ((halike other).keep hlater).2
  · exact ((halike other).mono hlater).congr (Limiter.get?_allow_of_ne _ _ _ hother)
      (Limiter.get?_allow_of_ne _ _ _ hother)

theorem drop (halike : AllAlike limiterOf now more fewer) (hlater : now ≤ moment.now)
    {key : String} (hadmits : (limiterOf key).Admits)
    (hdenied : Limiter.denies ((limiterOf key).allow more moment key).1.outcome = true) :
    AllAlike limiterOf moment.now ((limiterOf key).allow more moment key).2 fewer := by
  intro other
  rcases eq_or_ne other key with rfl | hother
  · exact (halike other).drop hlater hadmits hdenied
  · exact ((halike other).mono hlater).congr (Limiter.get?_allow_of_ne _ _ _ hother) ⟨rfl, rfl⟩

/-- A thinned run is answered as the history has it. -/
theorem answered_eq (halike : AllAlike limiterOf now more fewer)
    (hadmits : ∀ key, (limiterOf key).Admits) {calls : List (Moment × String)}
    (hordered : calls.Pairwise fun earlier later => earlier.1.now ≤ later.1.now)
    (hnow : ∀ call ∈ calls, now ≤ call.1.now)
    {thinned : List ((Moment × String) × Except (Failure Rat) Verdict)}
    (hthinned : Thinned (answered limiterOf more calls) thinned) :
    answered limiterOf fewer (thinned.map Prod.fst) = thinned := by
  induction calls generalizing now more fewer thinned with
  | nil =>
      cases hthinned
      rfl
  | cons call rest ih =>
      obtain ⟨moment, key⟩ := call
      obtain ⟨hlater, hrest⟩ := List.pairwise_cons.mp hordered
      have hfirst : now ≤ moment.now := hnow (moment, key) (List.mem_cons_self ..)
      rcases thinned_cons_iff.mp hthinned with ⟨kept, rfl, hkept⟩ | ⟨hdenied, hkept⟩
      · have htail := ih (halike.keep hfirst key) hrest hlater hkept
        rw [List.map_cons, answered, htail, ← ((halike key).keep hfirst).1]
      · exact ih (halike.drop hfirst (hadmits key) hdenied) hrest hlater hkept

end AllAlike

/-- **Denied calls are free.**  Every key of a memory has a limiter that allows its first call.
Leave any of the denied calls out of a run: every other call is answered as before, with the same
verdict in all its parts.  (For a counter of 64 bits this holds below `2 ^ 64` calls in one window.)
-/
theorem answered_thinned (hadmits : ∀ key, (limiterOf key).Admits)
    {calls : List (Moment × String)}
    (hordered : calls.Pairwise fun earlier later => earlier.1.now ≤ later.1.now)
    {thinned : List ((Moment × String) × Except (Failure Rat) Verdict)}
    (hthinned : Thinned (answered limiterOf .empty calls) thinned) :
    answered limiterOf .empty (thinned.map Prod.fst) = thinned :=
  (allAlike_empty ⟨0⟩).answered_eq hadmits hordered (fun call _ => Nat.zero_le call.1.now.nanos)
    hthinned

/-- One login in ten nanoseconds, and three searches in a second. -/
def limiterFor (key : String) : Limiter Rat :=
  if key = "login" then .fixedWindow ⟨1, ⟨10⟩, FixedWindow.twice.lasting⟩
  else .tokenBucket TokenBucket.thirds

/-- Two windows of logins, and two searches with an attempt in between. -/
def impatientCalls : List (Moment × String) :=
  [(TokenBucket.momentAt 0, "login"), (TokenBucket.momentAt 3, "login"),
    (TokenBucket.momentAt 4, "search"), (TokenBucket.momentAt 9, "login"),
    (TokenBucket.momentAt 10, "login"), (TokenBucket.momentAt 200000000, "search"),
    (TokenBucket.momentAt 333333338, "search")]

/-- Three of the calls are denied, and the others are answered alike without them. -/
theorem answered_thinned_impatientCalls :
    (answered limiterFor .empty impatientCalls).map (fun entry => Limiter.denies entry.2) =
        [false, true, false, true, false, true, false] ∧
      let thinned := (answered limiterFor .empty impatientCalls).filter fun entry =>
        !Limiter.denies entry.2
      answered limiterFor .empty (thinned.map Prod.fst) = thinned := by
  refine ⟨by decide +kernel, answered_thinned ?_ (by decide) (thinned_filter _)⟩
  intro key
  unfold limiterFor
  split_ifs
  · exact Nat.le_refl 1
  · exact trivial

end Memory

end Throttle
