import Throttle.Proofs.Memory.Bucket

/-!
# What is seen of sweeping buckets

A sweep removes a bucket at the instant at which it is full again, and the next take finds a
full bucket whether it was removed or kept.  The instant is a whole number of nanoseconds,
though, and the refill time was rounded to it.  Rounded up, it does no harm.  Rounded down, it
lets a sweep remove a bucket that is not full, and a take in that very nanosecond is then
given tokens that were not earned; one nanosecond later the bucket is full (`refilled_eq`).

So a run is told from the same run without its sweeps by exactly this (`HandsBack`).  The
proof runs both side by side.  Their buckets are the same, or one was removed at or after its
expiry (`Lags`); a removed bucket that a take is still to ask for before it is full is `Owed`.
-/

namespace Throttle.Memory

variable {key : String} {rate : Rat} {burst : Nat} {now later : Instant}

/-! ## Buckets of one rate -/

/-- A bucket as takes of one rate and one burst leave it. -/
structure Filling (rate : Rat) (burst : Nat) (now : Instant) (held : Bucket Rat) : Prop where
  tokens_le : held.tokens ≤ burst
  lastUsed_le : held.lastUsed ≤ now
  expiresAt_eq : held.expiresAt = Bucket.fullAt? held.lastUsed held.tokens rate (burst : Rat)

theorem filling_useBucket {held? : Option (Bucket Rat)} (hburst : 1 ≤ burst)
    (hheld : ∀ held ∈ held?, Filling rate burst now held) :
    Filling rate burst later (useBucket held? later rate burst).2 := by
  have htokens : (useBucket held? later rate burst).2.tokens ≤ burst :=
    useBucket_tokens_le hburst fun held hmem => (hheld held hmem).tokens_le
  cases held? <;> exact ⟨htokens, Nat.le_refl _, rfl⟩

namespace Filling

variable {held : Bucket Rat}

theorem mono (hfilling : Filling rate burst now held) (hlater : now ≤ later) :
    Filling rate burst later held :=
  ⟨hfilling.tokens_le, Nat.le_trans hfilling.lastUsed_le hlater, hfilling.expiresAt_eq⟩

/-- A nanosecond after its expiry at the latest, a bucket is full. -/
theorem refilled_eq (hfilling : Filling rate burst now held) (hrate : 0 < rate) {full : Instant}
    (hfull : held.expiresAt = some full) (hlater : full < later) :
    held.refilled later rate (burst : Rat) = burst := by
  rw [hfilling.expiresAt_eq, Bucket.fullAt?, Option.bind_eq_some_iff] at hfull
  obtain ⟨duration, hduration, hafter⟩ := hfull
  have hnanos : full.nanos = held.lastUsed.nanos + duration.nanos :=
    congrArg Instant.nanos (Instant.after?_eq_some hafter)
  have hround := Duration.mul_le_of_ofSeconds?_eq_some hduration
  have helapsed : (duration.nanos : Rat) + 1 ≤ (held.lastUsed.timeUntil later).nanos := by
    have hlt : full.nanos < later.nanos := hlater
    have hle : duration.nanos + 1 ≤ later.nanos - held.lastUsed.nanos := by omega
    exact_mod_cast hle
  refine le_antisymm (Bucket.refilled_le hfilling.tokens_le) (not_lt.mp ?_)
  rw [Bucket.refilled_lt_iff hrate hfilling.tokens_le, not_lt]
  linarith

end Filling

/-! ## Two runs side by side -/

/-- A bucket expires at an instant at which it is not full. -/
def ExpiresEarly (rate : Rat) (burst : Nat) (time : Instant) : Option (Bucket Rat) → Prop
  | some held =>
      held.expiresAt = some time ∧ held.refilled time rate (burst : Rat) < (burst : Rat)
  | none => False

/-- The refill time of such a bucket was rounded down. -/
theorem expiresEarly_iff {held : Bucket Rat} (hfilling : Filling rate burst now held)
    (hrate : 0 < rate) (time : Instant) :
    ExpiresEarly rate burst time (some held) ↔ held.expiresAt = some time ∧
      (held.lastUsed.timeUntil time).nanos < (burst - held.tokens) / rate * nanosRatio := by
  rw [ExpiresEarly, Bucket.refilled_lt_iff hrate hfilling.tokens_le]

instance (rate : Rat) (burst : Nat) (time : Instant) :
    (held? : Option (Bucket Rat)) → Decidable (ExpiresEarly rate burst time held?)
  | some _ => inferInstanceAs (Decidable (_ ∧ _))
  | none => .isFalse not_false

/-- What is held of a bucket in a run, and what is kept of it in the run without sweeps. -/
inductive Lags (rate : Rat) (burst : Nat) (now : Instant) :
    Option (Bucket Rat) → Option (Bucket Rat) → Prop
  /-- The bucket is the same. -/
  | same {held? : Option (Bucket Rat)} (hfilling : ∀ held ∈ held?, Filling rate burst now held) :
      Lags rate burst now held? held?
  /-- The bucket was swept, at its expiry or later. -/
  | swept {kept : Bucket Rat} {full : Instant} (hfilling : Filling rate burst now kept)
      (hfull : kept.expiresAt = some full) (hpast : full ≤ now) :
      Lags rate burst now none (some kept)

/-- A bucket that was swept is asked for a token at its expiry, at which it is not full. -/
def Owed (key : String) (rate : Rat) (burst : Nat) (held? kept? : Option (Bucket Rat))
    (events : List (Event Rat)) : Prop :=
  held? = none ∧ ∃ time, ExpiresEarly rate burst time kept? ∧ ⟨time, .take key rate burst⟩ ∈ events

namespace Lags

variable {held? kept? : Option (Bucket Rat)}

theorem mono (hlags : Lags rate burst now held? kept?) (hlater : now ≤ later) :
    Lags rate burst later held? kept? := by
  cases hlags with
  | same hfilling => exact .same fun held hmem => (hfilling held hmem).mono hlater
  | swept hfilling hfull hpast =>
      exact .swept (hfilling.mono hlater) hfull (Nat.le_trans hpast hlater)

theorem filling (hlags : Lags rate burst now held? kept?) :
    ∀ kept ∈ kept?, Filling rate burst now kept := by
  cases hlags with
  | same hfilling => exact hfilling
  | swept hfilling => exact fun kept hmem => Option.some.inj hmem ▸ hfilling

theorem not_owed_self (events : List (Event Rat)) : ¬ Owed key rate burst held? held? events := by
  rintro ⟨rfl, time, hearly, -⟩
  exact hearly

/-- A use of the bucket is answered alike, and nothing is owed from then on; or the bucket was
swept before it was full, and the answers differ. -/
theorem useBucket_cases (hlags : Lags rate burst now held? kept?) (hrate : 0 < rate)
    (hburst : 1 ≤ burst) (hlater : now ≤ later) :
    (useBucket held? later rate burst = useBucket kept? later rate burst ∧
      ∀ time, later ≤ time → held? = none → ¬ ExpiresEarly rate burst time kept?) ∨
    (held? = none ∧ ExpiresEarly rate burst later kept? ∧
      (useBucket held? later rate burst).1 ≠ (useBucket kept? later rate burst).1) := by
  cases hlags with
  | same hfilling =>
      refine Or.inl ⟨rfl, ?_⟩
      rintro time - rfl hearly
      exact hearly
  | @swept kept full hfilling hfull hpast =>
      have hreached : full ≤ later := Nat.le_trans hpast hlater
      by_cases hrefilled : kept.refilled later rate (burst : Rat) = burst
      · refine Or.inl ⟨(useBucket_of_full hburst hrefilled).symm, ?_⟩
        rintro time htime - ⟨hexpiry, hless⟩
        have htimes : full = time := Option.some.inj (hfull.symm.trans hexpiry)
        have heq : time = later := Instant.eq_of_le_of_le (htimes ▸ hreached) htime
        exact hless.ne (heq ▸ hrefilled)
      · have hless := lt_of_le_of_ne (Bucket.refilled_le hfilling.tokens_le) hrefilled
        have heq : full = later := Instant.eq_of_le_of_le hreached
          (Nat.not_lt.mp fun hlt => hrefilled (hfilling.refilled_eq hrate hfull hlt))
        refine Or.inr ⟨rfl, ⟨heq ▸ hfull, hless⟩, ?_⟩
        rw [useBucket_none hburst, useBucket_some]
        intro hanswer
        obtain ⟨hallowed, hremaining⟩ := TokenTake.mk.injEq .. ▸ hanswer
        rw [if_pos (of_decide_eq_true hallowed.symm)] at hremaining
        linarith

/-- A sweep leaves the bucket or removes it, and what is owed after it is what was owed before
and what it takes away too early. -/
theorem sweep (hlags : Lags rate burst now held? kept?) {memory : Memory Rat}
    (hheld : memory.buckets.get? key = held?) {events : List (Event Rat)}
    (hlater : ∀ event ∈ events, now ≤ event.time) :
    Lags rate burst now ((memory.sweep now).buckets.get? key) kept? ∧
      (Owed key rate burst ((memory.sweep now).buckets.get? key) kept? events ↔
        (ExpiresEarly rate burst now held? ∧ ⟨now, .take key rate burst⟩ ∈ events) ∨
          Owed key rate burst held? kept? events) := by
  rw [get?_buckets_sweep, hheld]
  cases hlags with
  | swept hfilling hfull hpast =>
      refine ⟨.swept hfilling hfull hpast, ?_⟩
      simp [ExpiresEarly]
  | same hfilling =>
      cases held? with
      | none => exact ⟨.same hfilling, by simp [ExpiresEarly]⟩
      | some held =>
          cases hexpiry : held.expiresAt with
          | none =>
              rw [Option.filter_some_pos (by simp [hexpiry])]
              exact ⟨.same hfilling, by simp [ExpiresEarly, hexpiry]⟩
          | some full =>
              by_cases hlasting : now < full
              · rw [Option.filter_some_pos (by simpa [hexpiry] using hlasting)]
                refine ⟨.same hfilling, Iff.symm (or_iff_right ?_)⟩
                rintro ⟨⟨hnow, -⟩, -⟩
                have heq : full = now := Option.some.inj (hexpiry.symm.trans hnow)
                exact Nat.lt_irrefl _ (heq ▸ hlasting : now < now)
              · have hpast : full ≤ now := Nat.not_lt.mp hlasting
                rw [Option.filter_some_neg (by simpa [hexpiry] using hlasting)]
                refine ⟨.swept (hfilling held rfl) hexpiry hpast, ?_⟩
                rw [or_iff_left (not_owed_self events)]
                constructor
                · rintro ⟨-, time, hearly, hmem⟩
                  -- the take comes after the sweep, but not after the expiry
                  have htime : full = time := Option.some.inj (hexpiry.symm.trans hearly.1)
                  have heq : time = now :=
                    Instant.eq_of_le_of_le (htime ▸ hpast) (hlater _ hmem)
                  exact heq ▸ ⟨hearly, hmem⟩
                · rintro ⟨hearly, hmem⟩
                  exact ⟨rfl, now, hearly, hmem⟩

end Lags

/-! ## Runs -/

/-- A run without its sweeps. -/
def withoutSweeps {α : Type} (events : List (Event α)) : List (Event α) :=
  events.filter fun event =>
    match event.operation with
    | .sweep => false
    | _ => true

theorem withoutSweeps_cons_of_eq {event : Event Rat} (hsweep : event.operation = .sweep)
    (rest : List (Event Rat)) : withoutSweeps (event :: rest) = withoutSweeps rest := by
  simp [withoutSweeps, hsweep]

theorem withoutSweeps_cons_of_ne {event : Event Rat} (hother : event.operation ≠ .sweep)
    (rest : List (Event Rat)) : withoutSweeps (event :: rest) = event :: withoutSweeps rest := by
  rw [withoutSweeps, List.filter_cons_of_pos, withoutSweeps]
  cases hoperation : event.operation <;> simp_all

/-- A sweep of a run removes the bucket of a key at its expiry, at which it is not full, and a
take from it follows in the same nanosecond. -/
def HandsBack (key : String) (rate : Rat) (burst : Nat) (memory : Memory Rat) :
    List (Event Rat) → Prop
  | [] => False
  | event :: rest =>
      (event.operation = .sweep ∧ ExpiresEarly rate burst event.time (memory.buckets.get? key) ∧
        ⟨event.time, .take key rate burst⟩ ∈ rest) ∨
      HandsBack key rate burst (memory.afterEvent event) rest

instance decidableHandsBack (key : String) (rate : Rat) (burst : Nat) :
    (memory : Memory Rat) → (events : List (Event Rat)) →
      Decidable (HandsBack key rate burst memory events)
  | _, [] => .isFalse not_false
  | memory, event :: rest =>
      have := decidableHandsBack key rate burst (memory.afterEvent event) rest
      inferInstanceAs (Decidable (_ ∨ _))

theorem handsBack_cons_of_ne {memory : Memory Rat} {event : Event Rat}
    (hother : event.operation ≠ .sweep) (rest : List (Event Rat)) :
    HandsBack key rate burst memory (event :: rest) ↔
      HandsBack key rate burst (memory.afterEvent event) rest := by
  simp [HandsBack, hother]

theorem owed_cons_of_ne {held? kept? : Option (Bucket Rat)} {event : Event Rat}
    (hother : ∀ rate burst, event.operation ≠ .take key rate burst) (rest : List (Event Rat)) :
    Owed key rate burst held? kept? (event :: rest) ↔ Owed key rate burst held? kept? rest := by
  have hne : ∀ time, ⟨time, .take key rate burst⟩ ≠ event :=
    fun time heq => hother rate burst (heq ▸ rfl)
  simp only [Owed, List.mem_cons, hne, false_or]

/-- Two runs side by side, from buckets of which one may have been swept: the takes are
answered alike if and only if nothing is handed back, and nothing was owed. -/
theorem Lags.takesOn_eq_iff {memory other : Memory Rat} {events : List (Event Rat)}
    (hlags : Lags rate burst now (memory.buckets.get? key) (other.buckets.get? key))
    (hrate : 0 < rate) (hburst : 1 ≤ burst) (hordered : Chronological events)
    (hnow : ∀ event ∈ events, now ≤ event.time) (huniform : Uniform key rate burst events) :
    takesOn key (memory.history events) = takesOn key (other.history (withoutSweeps events)) ↔
      ¬ (HandsBack key rate burst memory events ∨
        Owed key rate burst (memory.buckets.get? key) (other.buckets.get? key) events) := by
  induction events generalizing memory other now with
  | nil => simp [withoutSweeps, HandsBack, Owed]
  | cons event rest ih =>
      obtain ⟨hlater, hrest⟩ := List.pairwise_cons.mp hordered
      have hevent : now ≤ event.time := hnow event (List.mem_cons_self ..)
      rcases bucket_cases key event with
        ⟨otherRate, otherBurst, htake, hstep⟩ | ⟨hsweep, hstep⟩ | ⟨hsweep, htake, hstep⟩
      · obtain ⟨rfl, rfl⟩ := huniform event (List.mem_cons_self ..) _ _ htake
        have hother : event.operation ≠ .sweep := by simp [htake]
        rw [withoutSweeps_cons_of_ne hother, takesOn_history_cons, takesOn_history_cons,
          (hstep memory).1, (hstep other).1, handsBack_cons_of_ne hother]
        rcases hlags.useBucket_cases hrate hburst hevent with
          ⟨hsame, hnone⟩ | ⟨hnone, hearly, hdiffer⟩
        · have hboth : Lags otherRate otherBurst event.time
              ((memory.afterEvent event).buckets.get? key)
              ((other.afterEvent event).buckets.get? key) := by
            rw [(hstep memory).2, (hstep other).2, hsame]
            exact .same fun held hmem =>
              Option.some.inj hmem ▸ filling_useBucket hburst hlags.filling
          have hnext := ih hboth hrest hlater huniform.of_cons
          have hbefore : ¬ Owed key otherRate otherBurst (memory.buckets.get? key)
              (other.buckets.get? key) (event :: rest) := by
            rintro ⟨hheld, time, hearly, hmem⟩
            refine hnone time ?_ hheld hearly
            rcases List.mem_cons.mp hmem with rfl | hmem
            · exact Nat.le_refl _
            · exact hlater _ hmem
          have hafter : ¬ Owed key otherRate otherBurst ((memory.afterEvent event).buckets.get? key)
              ((other.afterEvent event).buckets.get? key) rest := by
            rw [(hstep memory).2, (hstep other).2, hsame]
            exact Lags.not_owed_self rest
          rw [or_iff_left hafter] at hnext
          rw [or_iff_left hbefore, hsame, List.append_cancel_left_eq]
          exact hnext
        · refine iff_of_false ?_ (not_not_intro (Or.inr ⟨hnone, event.time, hearly, ?_⟩))
          · intro heq
            have hhead := List.head_eq_of_cons_eq heq
            exact hdiffer (congrArg Prod.snd hhead)
          · rw [← htake]
            exact List.mem_cons_self ..
      · obtain ⟨hnone, hleft⟩ := hstep memory
        obtain ⟨hnext, howed⟩ := (hlags.mono hevent).sweep rfl hlater
        rw [← hleft] at hnext howed
        have hother : Owed key rate burst (memory.buckets.get? key) (other.buckets.get? key)
            (event :: rest) ↔
              Owed key rate burst (memory.buckets.get? key) (other.buckets.get? key) rest :=
          owed_cons_of_ne (by simp [hsweep]) rest
        rw [withoutSweeps_cons_of_eq hsweep, takesOn_history_cons, hnone, Option.toList_none,
          List.nil_append, ih hnext hrest hlater huniform.of_cons, howed, hother, HandsBack]
        tauto
      · obtain ⟨hnone, hleft⟩ := hstep memory
        obtain ⟨hnoneOther, hleftOther⟩ := hstep other
        have hnext := hlags.mono hevent
        rw [← hleft, ← hleftOther] at hnext
        rw [withoutSweeps_cons_of_ne hsweep, takesOn_history_cons, takesOn_history_cons, hnone,
          hnoneOther, Option.toList_none, List.nil_append, List.nil_append,
          ih hnext hrest hlater huniform.of_cons, handsBack_cons_of_ne hsweep,
          owed_cons_of_ne htake, hleft, hleftOther]

theorem lags_empty : Lags rate burst .start ((empty : Memory Rat).buckets.get? key)
    ((empty : Memory Rat).buckets.get? key) :=
  .same (by simp [empty])

/-- **What is seen of sweeping.**  A run answers the takes of a key as the same run without its
sweeps does, if and only if no sweep hands back what was not earned. -/
theorem takes_eq_withoutSweeps_iff {events : List (Event Rat)} (hrate : 0 < rate)
    (hburst : 1 ≤ burst) (hordered : Chronological events)
    (huniform : Uniform key rate burst events) :
    takesOn key (empty.history events) = takesOn key (empty.history (withoutSweeps events)) ↔
      ¬ HandsBack key rate burst empty events := by
  have hiff := lags_empty.takesOn_eq_iff hrate hburst hordered
    (fun event _ => Nat.zero_le event.time.nanos) huniform
  rwa [or_iff_left (Lags.not_owed_self events)] at hiff

/-- A bucket of one token that earns three in a second, swept at its expiry a third of a
second later, and asked again in the same nanosecond. -/
def earlySweepRun : List (Event Rat) :=
  [⟨⟨0⟩, .take "k" 3 1⟩, ⟨⟨333333333⟩, .sweep⟩, ⟨⟨333333333⟩, .take "k" 3 1⟩]

/-- The sweep hands back a token of which a billionth was not earned. -/
theorem sweep_changes_answer_earlySweepRun :
    Chronological earlySweepRun ∧ Uniform "k" 3 1 earlySweepRun ∧
      takesOn "k" (empty.history earlySweepRun) =
        [(⟨0⟩, ⟨true, 0⟩), (⟨333333333⟩, ⟨true, 0⟩)] ∧
      takesOn "k" (empty.history (withoutSweeps earlySweepRun)) =
        [(⟨0⟩, ⟨true, 0⟩), (⟨333333333⟩, ⟨false, 999999999 / 1000000000⟩)] ∧
      takesOn "k" (empty.history earlySweepRun) ≠
        takesOn "k" (empty.history (withoutSweeps earlySweepRun)) := by
  refine ⟨by decide, ?_, by decide +kernel, by decide +kernel, by decide +kernel⟩
  simp +contextual [Uniform, earlySweepRun, eq_comm]

/-- The same sweep, and a take one nanosecond after it. -/
def lateTakeRun : List (Event Rat) :=
  [⟨⟨0⟩, .take "k" 3 1⟩, ⟨⟨333333333⟩, .sweep⟩, ⟨⟨333333334⟩, .take "k" 3 1⟩]

/-- A nanosecond later the sweep is not seen. -/
theorem takes_eq_withoutSweeps_iff_lateTakeRun :
    takesOn "k" (empty.history lateTakeRun) =
      takesOn "k" (empty.history (withoutSweeps lateTakeRun)) := by
  have huniform : Uniform "k" (3 : Rat) 1 lateTakeRun := by
    simp +contextual [Uniform, lateTakeRun, eq_comm]
  exact (takes_eq_withoutSweeps_iff (by norm_num) (by norm_num) (by decide) huniform).mpr
    (by decide +kernel)

/-- Sweeps are not seen at all by takes that never share a nanosecond with an earlier one. -/
theorem takes_eq_withoutSweeps_of_apart {events : List (Event Rat)} (hrate : 0 < rate)
    (hburst : 1 ≤ burst) (hordered : Chronological events)
    (huniform : Uniform key rate burst events)
    (hapart : events.Pairwise fun earlier later => earlier.operation = .sweep →
      later.operation = .take key rate burst → earlier.time ≠ later.time) :
    takesOn key (empty.history events) = takesOn key (empty.history (withoutSweeps events)) := by
  have hnever : ∀ memory, ¬ HandsBack key rate burst memory events := by
    clear hordered huniform
    induction events with
    | nil => exact fun _ => not_false
    | cons event rest ih =>
        obtain ⟨hfirst, hrest⟩ := List.pairwise_cons.mp hapart
        rintro memory (⟨hsweep, -, hmem⟩ | hlater)
        · exact hfirst _ hmem hsweep rfl rfl
        · exact ih hrest _ hlater
  refine (lags_empty.takesOn_eq_iff hrate hburst hordered
    (fun event _ => Nat.zero_le event.time.nanos) huniform).mpr ?_
  rw [or_iff_left (Lags.not_owed_self events)]
  exact hnever empty

end Throttle.Memory
