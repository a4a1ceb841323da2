import Throttle.Proofs.Remote.Bucket

/-!
# What disagreeing clocks are worth

A bucket on a server is refilled by the time between the clock readings that its callers send,
and takes over every reading, also one that lies before the last.  So what goes back and forth
is refilled again each time it goes forth: the tokens handed out are bounded by the steps
forward, added up (`allowed_le_burst_add_rises`), and not by what lies between the
first and the last of the readings (`readings_apart_by_one_second_allow_three`).

The bound is an account of the bucket: what a take hands out and leaves is covered by what was
there and by its own step forward (`allowance_take`).
-/

namespace Throttle.Remote

open KeySpace

/-! ## Readings -/

/-- The steps forward from one reading to the next, added up. -/
def rises : List Rat → Rat
  | first :: second :: rest => max 0 (second - first) + rises (second :: rest)
  | _ => 0

theorem rises_cons_cons (first second : Rat) (rest : List Rat) :
    rises (first :: second :: rest) = max 0 (second - first) + rises (second :: rest) := rfl

theorem rises_nonneg (readings : List Rat) : 0 ≤ rises readings := by
  induction readings with
  | nil => exact le_rfl
  | cons first rest ih =>
      cases rest with
      | nil => exact le_rfl
      | cons second rest => exact add_nonneg (le_max_left _ _) ih

theorem rises_le_rises_cons (first : Rat) (rest : List Rat) :
    rises rest ≤ rises (first :: rest) := by
  cases rest with
  | nil => exact le_rfl
  | cons second rest => exact le_add_of_nonneg_left (le_max_left _ _)

/-- Readings that never go back rise by no more than their span. -/
theorem rises_le_of_sorted {first high : Rat} {rest : List Rat}
    (hsorted : (first :: rest).Pairwise (· ≤ ·))
    (hhigh : ∀ reading ∈ first :: rest, reading ≤ high) :
    rises (first :: rest) ≤ high - first := by
  induction rest generalizing first with
  | nil => exact sub_nonneg.mpr (hhigh first (List.mem_singleton_self _))
  | cons second rest ih =>
      obtain ⟨hfirst, hrest⟩ := List.pairwise_cons.mp hsorted
      have hstep : max 0 (second - first) = second - first :=
        max_eq_right (sub_nonneg.mpr (hfirst second (List.mem_cons_self ..)))
      have hafter := ih hrest fun reading hmem => hhigh reading (List.mem_cons_of_mem _ hmem)
      rw [rises_cons_cons, hstep]
      linarith

theorem rises_le_span {readings : List Rat} (hsorted : readings.Pairwise (· ≤ ·)) {low high : Rat}
    (hle : low ≤ high) (hspan : ∀ reading ∈ readings, low ≤ reading ∧ reading ≤ high) :
    rises readings ≤ high - low := by
  cases readings with
  | nil => exact sub_nonneg.mpr hle
  | cons first rest =>
      have hrises := rises_le_of_sorted hsorted fun reading hmem => (hspan reading hmem).2
      have hlow := (hspan first (List.mem_cons_self ..)).1
      linarith

/-- The reading that a call sends, if it is a take and is made. -/
def Call.reading? (call : Call Rat) : Option Rat :=
  match call.operation with
  | .increment .. => none
  | .take .. => if call.moment.isDone then none else some call.moment.wall.inSeconds

/-- The readings that the calls of a run send. -/
def readings (calls : List (Call Rat)) : List Rat := calls.filterMap Call.reading?

/-- Whether a caller is told that a token was taken. -/
def Outcome.allows {α : Type} (outcome : Outcome α) : Bool := outcome.take?.any TokenTake.allowed

/-- How many takes of a run are allowed. -/
def allowedTakes {α : Type} (history : List (Call α × Outcome α)) : Nat :=
  history.countP fun entry => entry.2.allows

/-- No caller is told of a take that fails. -/
theorem Call.take?_outcome_error {α : Type} [Quantity α] (call : Call α) (failure : StoreFailure)
    (time : Instant) : (call.outcome ⟨.error failure, time⟩).take? = none := by
  unfold outcome
  cases call.operation <;> rfl

theorem Call.not_allows_outcome_error {α : Type} [Quantity α] (call : Call α)
    (failure : StoreFailure) (time : Instant) :
    (call.outcome ⟨.error failure, time⟩).allows = false := by
  rw [Outcome.allows, call.take?_outcome_error]
  rfl

/-! ## A bucket that lasts -/

/-- The bucket of a key, if there is one, is still there at a millisecond. -/
def BucketLastsTo {α : Type} (remote : Remote α) (key : String) (now : Int) : Prop :=
  ∀ name ∈ [remote.serverKey key, remote.serverKey key ++ bucketSuffix],
    remote.keySpace.typeOf name = .hash → (remote.keySpace.live now).typeOf name = .hash

instance {α : Type} (remote : Remote α) (key : String) (now : Int) :
    Decidable (remote.BucketLastsTo key now) :=
  inferInstanceAs (Decidable (∀ name ∈ [_, _], _ → _))

/-- No call of a run finds that the bucket of a key has expired. -/
def BucketLasts {α : Type} [Quantity α] (clock : Int) (key : String) :
    Remote α → List (Call α) → Prop
  | _, [] => True
  | remote, call :: rest =>
      remote.BucketLastsTo key (call.millis clock) ∧
        BucketLasts clock key (remote.perform call).2 rest

instance decidableBucketLasts {α : Type} [Quantity α] (clock : Int) (key : String) :
    ∀ (remote : Remote α) (calls : List (Call α)), Decidable (BucketLasts clock key remote calls)
  | _, [] => isTrue trivial
  | remote, call :: rest =>
      have := decidableBucketLasts clock key (remote.perform call).2 rest
      inferInstanceAs (Decidable (remote.BucketLastsTo key (call.millis clock) ∧
        BucketLasts clock key (remote.perform call).2 rest))

theorem bucketAt_of_lasts {remote : Remote Rat} {key : String} {now later : Int}
    (hlasts : remote.BucketLastsTo key later) (hlater : now ≤ later)
    (hapart : remote.keySpace.Apart now (remote.serverKey key)) :
    remote.keySpace.bucketAt later (remote.serverKey key) =
      remote.keySpace.bucketAt now (remote.serverKey key) := by
  unfold KeySpace.bucketAt
  rw [hapart.stateAt_later hlater]
  cases hstate : Script.takeToken.stateAt remote.keySpace now (remote.serverKey key) with
  | none => rfl
  | some entry =>
      by_cases hlive : isLive later entry = true
      · rw [Option.filter_some_pos hlive]
      · rw [Option.filter_some_neg (Bool.eq_false_iff.mpr hlive)]
        -- an entry that is gone was no bucket
        have hentry := hstate
        rw [hapart.stateAt_eq, entryAt_eq_filter, Option.filter_eq_some_iff] at hentry
        have hname : Script.takeToken.targetAt remote.keySpace now (remote.serverKey key)
            (remote.serverKey key ++ Script.takeToken.suffix) ∈
              [remote.serverKey key, remote.serverKey key ++ bucketSuffix] := by
          rcases Script.takeToken.targetAt_eq_or remote.keySpace now (remote.serverKey key)
            (remote.serverKey key ++ Script.takeToken.suffix) with htarget | htarget
          · rw [htarget]
            exact List.mem_cons_self ..
          · rw [htarget]
            exact List.mem_cons_of_mem _ (List.mem_cons_self ..)
        have hgone : (remote.keySpace.live later).typeOf (Script.takeToken.targetAt remote.keySpace
            now (remote.serverKey key) (remote.serverKey key ++ Script.takeToken.suffix)) =
              .missing := by
          apply typeOf_eq_missing_iff.mpr
          rw [get?_live, hentry.1, Option.filter_some_neg (Bool.eq_false_iff.mpr hlive)]
        have htype : entry.content.type ≠ .hash := by
          intro htype
          have hthere := hlasts _ hname ((typeOf_of_get? hentry.1).trans htype)
          rw [hgone] at hthere
          cases hthere
        rw [Option.bind_none, Option.bind_some, Content.held?_eq_none htype]

/-! ## The account of a bucket -/

/-- What a bucket and the readings to come can hand out. -/
def allowance (rate burst : Rat) (held? : Option (Script.Held Rat)) (readings : List Rat) : Rat :=
  match held? with
  | none => burst + rate * rises readings
  | some held => held.tokens + rate * rises (held.lastUsed :: readings)

section

variable {rate burst : Rat} {held? : Option (Script.Held Rat)}

theorem allowance_nonneg (hrate : 0 ≤ rate) (hburst : 0 ≤ burst)
    (hheld : ∀ held ∈ held?, 0 ≤ held.tokens) (readings : List Rat) :
    0 ≤ allowance rate burst held? readings := by
  cases held? with
  | none => exact add_nonneg hburst (mul_nonneg hrate (rises_nonneg _))
  | some held => exact add_nonneg (hheld held rfl) (mul_nonneg hrate (rises_nonneg _))

/-- What a take hands out and leaves was there before it, or is its step forward. -/
theorem allowance_take (rate : Rat) (held? : Option (Script.Held Rat)) (burst reading : Rat)
    (rest : List Rat) :
    let taken := Script.takeFrom held? rate burst reading
    (if taken.allowed then 1 else 0) +
        allowance rate burst (some ⟨taken.remaining, reading⟩) rest ≤
      allowance rate burst held? (reading :: rest) := by
  intro taken
  cases held? with
  | none =>
      simp only [taken, Script.takeFrom_none, allowance, if_true]
      linarith
  | some held =>
      have hrefill := Script.refilled_le held rate burst reading
      simp only [taken, Script.takeFrom_some, allowance]
      rw [rises_cons_cons, mul_add]
      by_cases htoken : 1 ≤ Script.refilled held rate burst reading
      · simp only [htoken, if_true]
        linarith
      · simp only [htoken, if_false, Bool.false_eq_true]
        linarith

theorem allowance_skip (hrate : 0 ≤ rate) (reading : Rat) (rest : List Rat) :
    allowance rate burst none rest ≤ allowance rate burst none (reading :: rest) := by
  unfold allowance
  exact add_le_add_right (mul_le_mul_of_nonneg_left (rises_le_rises_cons _ _) hrate) _

end

/-! ## Runs -/

/-- A call on a key that takes from a bucket of this rate and this burst, if it takes. -/
def Call.OnBucket (key : String) (rate : Rat) (burst : Nat) (call : Call Rat) : Prop :=
  match call.operation with
  | .increment other _ => other = key
  | .take other otherRate otherBurst => other = key ∧ otherRate = rate ∧ otherBurst = burst

instance (key : String) (rate : Rat) (burst : Nat) (call : Call Rat) :
    Decidable (call.OnBucket key rate burst) := by
  unfold Call.OnBucket
  cases call.operation <;> infer_instance

variable {remote : Remote Rat} {clock : Int} {space : KeySpace Rat} {key : String} {rate : Rat}
  {burst : Nat}

theorem Call.OnBucket.key_eq {call : Call Rat} (hcall : call.OnBucket key rate burst) :
    call.key = key := by
  unfold OnBucket at hcall
  unfold Call.key
  cases hoperation : call.operation with
  | increment other window =>
      rw [hoperation] at hcall
      exact hcall
  | take other otherRate otherBurst =>
      rw [hoperation] at hcall
      exact hcall.1

/-- A call that sends a reading is a take that is made. -/
theorem Call.OnBucket.of_reading {call : Call Rat} (hcall : call.OnBucket key rate burst)
    {reading : Rat} (hreading : call.reading? = some reading) :
    call.operation = .take key rate burst ∧ call.moment.isDone = false ∧
      call.moment.wall.inSeconds = reading := by
  unfold OnBucket at hcall
  unfold Call.reading? at hreading
  cases hoperation : call.operation with
  | increment other window =>
      rw [hoperation] at hreading
      cases hreading
  | take other otherRate otherBurst =>
      rw [hoperation] at hcall hreading
      obtain ⟨rfl, rfl, rfl⟩ := hcall
      cases hdone : call.moment.isDone with
      | true => simp [hdone] at hreading
      | false =>
          simp only [hdone, Bool.false_eq_true, if_false, Option.some.injEq] at hreading
          exact ⟨rfl, rfl, hreading⟩

/-- A call that sends no reading leaves the bucket of its key as it is. -/
theorem serve_of_no_reading {call : Call Rat} (hkey : call.key = key)
    (hreading : call.reading? = none)
    (hapart : space.Apart (call.millis clock) (remote.serverKey key)) :
    let now := call.millis clock
    let name := remote.serverKey key
    let served := remote.serve clock space call
    served.1.allows = false ∧ served.2.Apart now name ∧
      served.2.bucketAt now name = space.bucketAt now name := by
  intro now name served
  cases hdone : call.moment.isDone with
  | true =>
      have hserved : served = (call.outcome ⟨.error .canceled, call.moment.now⟩, space) :=
        remote.serve_of_done clock space hdone
      rw [hserved]
      exact ⟨call.not_allows_outcome_error _ _, hapart, rfl⟩
  | false =>
      cases hoperation : call.operation with
      | take other otherRate otherBurst =>
          unfold Call.reading? at hreading
          rw [hoperation, hdone] at hreading
          cases hreading
      | increment other window =>
          obtain rfl : other = key := by
            rw [← hkey, Call.key, hoperation]
          let run := (remote.countRequest other window).runOn space now
          have hserved : served = (.counted (readAnswer (run.answer call.moment.now)
              (Reply.readCount window)), run.space) := by
            unfold served serve request Call.outcome
            rw [hdone, hoperation]
            rfl
          obtain ⟨hafter, -, hstate⟩ :=
            hapart.run .countCall [Decimal.wholeText (windowMillis window)]
          rw [hserved]
          exact ⟨rfl, hafter, congrArg (Option.bind · _) hstate⟩

/-- One call is within the account of the bucket. -/
theorem serve_spends {call : Call Rat} (hcall : call.OnBucket key rate burst) (hrate : 0 ≤ rate)
    (hburst : 1 ≤ burst)
    (hapart : space.Apart (call.millis clock) (remote.serverKey key))
    (hheld : ∀ held ∈ space.bucketAt (call.millis clock) (remote.serverKey key), 0 ≤ held.tokens) :
    let now := call.millis clock
    let name := remote.serverKey key
    let served := remote.serve clock space call
    served.2.Apart now name ∧ (∀ held ∈ served.2.bucketAt now name, 0 ≤ held.tokens) ∧
      ∀ rest, (if served.1.allows then 1 else 0) +
          allowance rate burst (served.2.bucketAt now name) rest ≤
        allowance rate burst (space.bucketAt now name) (call.reading?.toList ++ rest) := by
  intro now name served
  cases hreading : call.reading? with
  | none =>
      obtain ⟨hallows, hafter, hbucket⟩ := serve_of_no_reading hcall.key_eq hreading hapart
      refine ⟨hafter, ?_, fun rest => ?_⟩
      · rw [hbucket]
        exact hheld
      · rw [hallows, hbucket, if_neg Bool.false_ne_true, zero_add]
        exact le_rfl
  | some reading =>
      obtain ⟨hoperation, hdone, rfl⟩ := hcall.of_reading hreading
      have hone : (1 : Rat) ≤ burst := by exact_mod_cast hburst
      have hremaining : 0 ≤ (Script.takeFrom (space.bucketAt now name) rate (burst : Rat)
          call.moment.wall.inSeconds).remaining := Script.takeFrom_nonneg hrate hone hheld
      have hspent := allowance_take rate (space.bucketAt now name) (burst : Rat)
        call.moment.wall.inSeconds
      obtain ⟨hafter, hcases⟩ := serve_take_cases call hoperation hdone hapart hrate hburst hheld
      refine ⟨hafter, ?_⟩
      rcases hcases with ⟨htake, hstate, entry, hentry, htype⟩ | ⟨htake, hbucket, -⟩ |
        ⟨htake, fields, hstate, hfields⟩
      · -- what refuses the take is no bucket
        have hnone : space.bucketAt now name = none := by
          unfold KeySpace.bucketAt
          rw [hentry, Option.bind_some, Content.held?_eq_none htype]
        have hafterNone : served.2.bucketAt now name = none :=
          (congrArg (Option.bind · _) hstate).trans hnone
        rw [hafterNone, hnone, Outcome.allows, htake]
        refine ⟨by simp, fun rest => ?_⟩
        rw [Option.any_none, if_neg Bool.false_ne_true, zero_add]
        exact allowance_skip hrate _ rest
      · -- the token is gone, although the caller is not told
        rw [hbucket, Outcome.allows, htake]
        refine ⟨by rintro held ⟨⟩; exact hremaining, fun rest => ?_⟩
        refine le_trans ?_ (hspent rest)
        rw [Option.any_none, if_neg Bool.false_ne_true]
        gcongr
        split_ifs <;> norm_num
      · have hbucket : served.2.bucketAt now name = some ⟨_, call.moment.wall.inSeconds⟩ :=
          (congrArg (Option.bind · _) hstate).trans hfields
        rw [hbucket, htake]
        exact ⟨by rintro held ⟨⟩; exact hremaining, hspent⟩

/-- A run is within the account of its bucket. -/
theorem Serves.allowedTakes_le {now : Instant} (hserves : remote.Serves clock space now)
    (hrate : 0 ≤ rate) (hburst : 1 ≤ burst) {calls : List (Call Rat)}
    (hordered : Chronological calls) (hnow : ∀ call ∈ calls, now ≤ call.moment.now)
    {millis : Int} (hmillis : ∀ call ∈ calls, millis ≤ call.millis clock)
    (hcalls : ∀ call ∈ calls, call.OnBucket key rate burst)
    (hlasts : BucketLasts clock key remote calls)
    (hapart : space.Apart millis (remote.serverKey key))
    (hheld : ∀ held ∈ space.bucketAt millis (remote.serverKey key), 0 ≤ held.tokens) :
    (allowedTakes (remote.history calls) : Rat) ≤
      allowance rate burst (space.bucketAt millis (remote.serverKey key)) (readings calls) := by
  -- On the calls: a call takes its share of the account before it, and what is left of the
  -- account covers the rest of the run.
  induction calls generalizing remote space now millis with
  | nil => exact allowance_nonneg hrate (Nat.cast_nonneg burst) hheld _
  | cons call rest ih =>
      obtain ⟨hlater, hrest⟩ := List.pairwise_cons.mp hordered
      obtain ⟨houtcome, hafter, hkeys⟩ := hserves.perform call (hnow call (List.mem_cons_self ..))
      have hname : (remote.perform call).2.serverKey key = remote.serverKey key :=
        congrArg (· ++ key) hkeys
      have hmillis' := hmillis call (List.mem_cons_self ..)
      have hbucket := bucketAt_of_lasts hlasts.1 hmillis' (by rwa [hserves.keySpace_eq])
      rw [hserves.keySpace_eq] at hbucket
      obtain ⟨hapart', hheld', hspent⟩ := serve_spends (hcalls call (List.mem_cons_self ..)) hrate
        hburst (hapart.mono hmillis') (by rwa [hbucket])
      have hrestAllowed := ih hafter hrest hlater
        (fun other hother => Call.millis_le clock (hlater other hother))
        (fun other hother => hcalls other (List.mem_cons_of_mem _ hother)) hlasts.2
        (by rwa [hname]) (by rwa [hname])
      rw [hname] at hrestAllowed
      have hreadings : readings (call :: rest) = call.reading?.toList ++ readings rest := by
        unfold readings
        rw [List.filterMap_cons]
        cases call.reading? <;> rfl
      have hcount : (allowedTakes (remote.history (call :: rest)) : Rat) =
          (if (remote.serve clock space call).1.allows then 1 else 0) +
            allowedTakes ((remote.perform call).2.history rest) := by
        unfold allowedTakes
        rw [history_cons, List.countP_cons, houtcome, add_comm]
        push_cast
        rfl
      rw [hcount, hreadings, ← hbucket]
      exact (add_le_add_right hrestAllowed _).trans (hspent (readings rest))

/-- A store that gives every call up hands nothing out. -/
theorem Hurried.allowedTakes_eq {α : Type} [Quantity α] {remote : Remote α} {now : Instant}
    (hhurried : remote.Hurried clock now) {calls : List (Call α)} (hordered : Chronological calls)
    (hnow : ∀ call ∈ calls, now ≤ call.moment.now) :
    allowedTakes (remote.history calls) = 0 := by
  rw [hhurried.history_eq hordered hnow]
  apply List.countP_eq_zero.mpr
  intro entry hentry
  obtain ⟨call, -, rfl⟩ := List.mem_map.mp hentry
  rw [givenUp, call.not_allows_outcome_error]
  exact Bool.false_ne_true

/-- **Whatever the clocks show, a bucket hands out its burst and what the steps forward from one
reading to the next earn, at most**; so if no reading lies before the last, what the span of the
readings earns. -/
theorem allowed_le_burst_add_rises (keyPrefix : String) (commandTimeout : Option Duration)
    (clock : Int) {key : String} {rate : Rat} {burst : Nat} (hrate : 0 < rate)
    (hburst : 1 ≤ burst) {calls : List (Call Rat)} (hordered : Chronological calls)
    (hcalls : ∀ call ∈ calls, call.OnBucket key rate burst)
    (hlasts : BucketLasts clock key (onFreshServer keyPrefix commandTimeout clock) calls) :
    let remote : Remote Rat := onFreshServer keyPrefix commandTimeout clock
    let allowed : Rat := allowedTakes (remote.history calls)
    allowed ≤ burst + rate * rises (readings calls) ∧
      ((readings calls).Pairwise (· ≤ ·) → ∀ low high, low ≤ high →
        (∀ reading ∈ readings calls, low ≤ reading ∧ reading ≤ high) →
        allowed ≤ burst + rate * (high - low)) := by
  intro remote allowed
  have hbound : allowed ≤ burst + rate * rises (readings calls) := by
    by_cases htimeout : commandTimeout = some .zero
    · subst htimeout
      have hnone := (hurried_onFreshServer (α := Rat) keyPrefix clock).allowedTakes_eq hordered
        fun _ _ => Nat.zero_le _
      have hzero : allowed = 0 := by
        rw [← Nat.cast_zero]
        exact congrArg Nat.cast hnone
      rw [hzero]
      have hrises := rises_nonneg (readings calls)
      positivity
    · have hserves : remote.Serves clock .empty .start :=
        serves_onFreshServer keyPrefix htimeout clock
      exact hserves.allowedTakes_le hrate.le hburst hordered (fun _ _ => Nat.zero_le _)
        (fun call _ => call.le_millis clock) hcalls hlasts (apart_empty _ _) (by rintro held ⟨⟩)
  refine ⟨hbound, fun hsorted low high hle hspan => hbound.trans ?_⟩
  gcongr
  exact rises_le_span hsorted hle hspan

/-- One token a second and a bucket of one, asked by two clocks that are a second apart, all in
one millisecond of the server. -/
def disagreeingRun : List (Call Rat) :=
  [1, 0, 1, 0, 1].map fun seconds : Int =>
    ⟨⟨.start, ⟨seconds * nanosPerSecond⟩, none⟩, .take "k" 1 1⟩

theorem allowed_le_burst_add_rises_disagreeingRun :
    let remote : Remote Rat := onFreshServer "" none 0
    BucketLasts 0 "k" remote disagreeingRun ∧ rises (readings disagreeingRun) = 2 ∧
      (allowedTakes (remote.history disagreeingRun) : Rat) ≤ (1 : Nat) + 1 * 2 := by
  have hrises : rises (readings disagreeingRun) = 2 := by decide +kernel
  have hlasts : BucketLasts 0 "k" (onFreshServer "" none 0) disagreeingRun := by decide +kernel
  have hcalls : ∀ call ∈ disagreeingRun, call.OnBucket "k" 1 1 := by decide
  have hbound := (allowed_le_burst_add_rises "" none 0 (by decide) (by decide) (by decide) hcalls
    hlasts).1
  rw [hrises] at hbound
  exact ⟨hlasts, hrises, hbound⟩

/-- The readings span one second, and earn one token; still three takes are allowed. -/
theorem readings_apart_by_one_second_allow_three :
    readings disagreeingRun = [1, 0, 1, 0, 1] ∧
      BucketLasts 0 "k" (onFreshServer "" none 0) disagreeingRun ∧
      allowedTakes ((onFreshServer "" none 0).history disagreeingRun) = 3 ∧
      ¬ (allowedTakes ((onFreshServer "" none 0).history disagreeingRun) : Rat) ≤
        (1 : Nat) + 1 * (1 - 0) := by
  have hallowed : allowedTakes ((onFreshServer "" none 0).history disagreeingRun) = 3 := by
    decide +kernel
  refine ⟨by decide +kernel, by decide +kernel, hallowed, ?_⟩
  rw [hallowed]
  norm_num

end Throttle.Remote
