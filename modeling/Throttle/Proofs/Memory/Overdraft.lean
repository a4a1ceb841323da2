import Throttle.Proofs.Memory.Bucket
import Throttle.Proofs.Numeric.Draws

/-!
# Calls with several bursts over a memory

Callers of one key may ask with different bursts.  A refill cuts a bucket down to the burst of its
caller, but where no time has passed nothing is refilled and nothing is cut down.  So a call is
told within its burst unless it is overdrawn: an earlier call at the same instant has left more
than its whole burst.

What is left is then drawn on token by token (`takesOn_takesAt_of_lastUsed`).  From a call on that
is not overdrawn, no more calls are served at its instant than its burst has tokens (`kept_take`).
-/

namespace Throttle

open Binary64

/-! ## Levels -/

namespace Bucket

section

variable {α : Type} [Quantity α] {held : Bucket α} {now : Instant} {rate burst : α}

@[simp] theorem tokens_holding (now : Instant) (tokens rate burst : α) :
    (holding now tokens rate burst).tokens = tokens := rfl

@[simp] theorem lastUsed_holding (now : Instant) (tokens rate burst : α) :
    (holding now tokens rate burst).lastUsed = now := rfl

theorem refilled_of_passed
    (hpassed : Quantity.ofInt 0 < ((held.lastUsed.timeUntil now).inSeconds : α)) :
    held.refilled now rate burst =
      Quantity.lesser (held.tokens + (held.lastUsed.timeUntil now).inSeconds * rate) burst :=
  if_pos hpassed

theorem refilled_of_not_passed
    (hsame : ¬ Quantity.ofInt 0 < ((held.lastUsed.timeUntil now).inSeconds : α)) :
    held.refilled now rate burst = held.tokens :=
  if_neg hsame

/-- A use is a draw from what a refill leaves. -/
theorem take_eq_drawn (held : Bucket α) (now : Instant) (rate burst : α) :
    (held.take now rate burst).1 = .drawn (held.refilled now rate burst) := by
  unfold take TokenTake.drawn
  by_cases hone : Quantity.ofInt 1 ≤ held.refilled now rate burst
  · simp only [hone, decide_true, if_true]
  · simp only [hone, decide_false, Bool.false_eq_true, if_false]

/-- The first use is a draw from all there is room for. -/
theorem opened_eq_drawn (now : Instant) (rate : α) (hone : Quantity.ofInt 1 ≤ burst)
    (hrest : Quantity.ofInt 0 ≤ burst - Quantity.ofInt 1) :
    (opened now rate burst).1 = .drawn burst := by
  unfold opened TokenTake.drawn Quantity.greater
  simp only [decide_eq_true hone, if_pos hone, if_pos hrest]

end

/-- A bucket that was last used at the same instant and has more left than a caller's burst. -/
def Overdrawn (held : Bucket Binary64) (now : Instant) (burst : Nat) : Prop :=
  held.lastUsed = now ∧ ofInt burst < held.tokens

instance (held : Bucket Binary64) (now : Instant) (burst : Nat) :
    Decidable (held.Overdrawn now burst) :=
  inferInstanceAs (Decidable (_ ∧ _))

/-- A bucket with a token count that was not used later than now. -/
structure Sound (held : Bucket Binary64) (now : Instant) : Prop where
  isCount : held.tokens.IsCount
  lastUsed_le : held.lastUsed ≤ now

variable {held : Bucket Binary64} {now : Instant} {rate : Binary64} {burst : Nat}

theorem Sound.mono (hsound : held.Sound now) {later : Instant} (hlater : now ≤ later) :
    held.Sound later :=
  ⟨hsound.isCount, Nat.le_trans hsound.lastUsed_le hlater⟩

theorem refilled_of_lastUsed (hsame : held.lastUsed = now) (capacity : Binary64) :
    held.refilled now rate capacity = held.tokens := by
  apply refilled_of_not_passed
  rw [quantity_ofInt, Duration.zero_lt_inSeconds_iff, hsame]
  simp [Instant.timeUntil]

/-- **A refill leaves no more than the burst**, unless the bucket is overdrawn. -/
theorem Sound.refilled (hsound : held.Sound now) (husable : Usable rate burst) :
    (held.refilled now rate (ofInt burst)).IsCount ∧
      (held.refilled now rate (ofInt burst) ≤ ofInt burst ↔ ¬ held.Overdrawn now burst) := by
  have hcapacity := husable.isCount
  have horder : ∀ {level : Binary64}, level.IsCount →
      (level ≤ ofInt burst ↔ ¬ ofInt burst < level) :=
    fun hlevel => hlevel.isUpward.le_iff_not_lt hcapacity.isUpward
  by_cases hsame : held.lastUsed = now
  · rw [refilled_of_lastUsed hsame, horder hsound.isCount]
    exact ⟨hsound.isCount, not_congr ⟨fun hmore => ⟨hsame, hmore⟩, fun hover => hover.2⟩⟩
  · have hpassed : Quantity.ofInt 0 <
        ((held.lastUsed.timeUntil now).inSeconds : Binary64) := by
      rw [quantity_ofInt, Duration.zero_lt_inSeconds_iff]
      have hless : held.lastUsed.nanos < now.nanos := by
        refine lt_of_le_of_ne hsound.lastUsed_le fun hnanos => hsame ?_
        exact congrArg Instant.mk hnanos
      exact Nat.sub_pos_of_lt hless
    have hsum := hsound.isCount.add (isUpward_mul hpassed husable.positive husable.finite)
    obtain ⟨hcount, hle⟩ := hsum.isCount_lesser hcapacity
    rw [refilled_of_passed hpassed]
    exact ⟨hcount, iff_of_true hle fun hover => hsame hover.1⟩

end Bucket

namespace Memory

/-! ## Uses -/

/-- The tokens that a use of a bucket draws on: those after a refill, or all there is room for. -/
def levelOf {α : Type} [Quantity α] (held? : Option (Bucket α)) (now : Instant) (rate : α)
    (burst : Nat) : α :=
  match held? with
  | some held => held.refilled now rate (Quantity.ofInt burst)
  | none => Quantity.ofInt burst

/-- The bucket that a use finds is overdrawn. -/
def Overdrawn (held? : Option (Bucket Binary64)) (now : Instant) (burst : Nat) : Prop :=
  ∃ held ∈ held?, held.Overdrawn now burst

instance (held? : Option (Bucket Binary64)) (now : Instant) (burst : Nat) :
    Decidable (Overdrawn held? now burst) :=
  inferInstanceAs (Decidable (∃ held ∈ held?, held.Overdrawn now burst))

variable {held? : Option (Bucket Binary64)} {now : Instant} {rate : Binary64} {burst : Nat}

theorem useBucket_eq_drawn (husable : Usable rate burst) :
    (useBucket held? now rate burst).1 = .drawn (levelOf held? now rate burst) := by
  cases held? with
  | some held => exact held.take_eq_drawn now rate _
  | none =>
      have hrest : ofInt 0 ≤ ofInt burst - ofInt 1 := by
        obtain ⟨rest, hrest, -⟩ := husable.isCount.sub_one husable.one_le
        rw [hrest]
        exact zero_le_finite rest
      refine Bucket.opened_eq_drawn now rate ?_ ?_
      · rw [quantity_ofInt, quantity_ofInt]
        exact husable.one_le
      · rw [quantity_ofInt, quantity_ofInt, quantity_ofInt]
        exact hrest

/-- **A use draws on no more than its burst**, unless it is overdrawn. -/
theorem levelOf_spec (hsound : ∀ held ∈ held?, held.Sound now) (husable : Usable rate burst) :
    (levelOf held? now rate burst).IsCount ∧
      (levelOf held? now rate burst ≤ ofInt burst ↔ ¬ Overdrawn held? now burst) := by
  cases held? with
  | some held =>
      obtain ⟨hcount, hiff⟩ := (hsound held rfl).refilled husable
      refine ⟨hcount, hiff.trans (not_congr ⟨fun hover => ⟨held, rfl, hover⟩, ?_⟩)⟩
      rintro ⟨_, ⟨⟩, hover⟩
      exact hover
  | none =>
      refine ⟨husable.isCount, iff_of_true husable.isCount.isUpward.le_refl ?_⟩
      rintro ⟨held, hheld, -⟩
      cases hheld

theorem sound_useBucket (hsound : ∀ held ∈ held?, held.Sound now) (husable : Usable rate burst) :
    (useBucket held? now rate burst).2.Sound now := by
  have hcount := TokenTake.isCount_drawn (levelOf_spec hsound husable).1
  rw [useBucket_eq, useBucket_eq_drawn husable]
  constructor
  · rwa [Bucket.tokens_holding]
  · exact Nat.le_refl _

/-! ## Runs -/

variable {key : String}

/-- Every take from the bucket of a key can be had. -/
def AllUsable (key : String) (events : List (Event Binary64)) : Prop :=
  ∀ event ∈ events, ∀ rate burst, event.operation = .take key rate burst → Usable rate burst

/-- One event keeps the bucket of a key sound. -/
theorem sound_afterEvent {memory : Memory Binary64} {event : Event Binary64}
    (hsound : ∀ held ∈ memory.buckets.get? key, held.Sound event.time)
    (husable : ∀ rate burst, event.operation = .take key rate burst → Usable rate burst) :
    ∀ held ∈ (memory.afterEvent event).buckets.get? key, held.Sound event.time := by
  rcases bucket_cases key event with ⟨rate, burst, htake, hstep⟩ | ⟨-, hstep⟩ | ⟨-, -, hstep⟩
  · rw [(hstep memory).2]
    rintro _ ⟨⟩
    exact sound_useBucket hsound (husable rate burst htake)
  · rw [(hstep memory).2, get?_buckets_sweep]
    exact fun held hheld => hsound held (Option.filter_eq_some_iff.mp hheld).1
  · rwa [(hstep memory).2]

/-- A run leaves the bucket of a key sound. -/
theorem sound_after {memory : Memory Binary64} {events : List (Event Binary64)}
    (hordered : Chronological events) (husable : AllUsable key events) {start now : Instant}
    (hsound : ∀ held ∈ memory.buckets.get? key, held.Sound start)
    (hstart : ∀ event ∈ events, start ≤ event.time) (hstartNow : start ≤ now)
    (hnow : ∀ event ∈ events, event.time ≤ now) :
    ∀ held ∈ (memory.after events).buckets.get? key, held.Sound now := by
  induction events generalizing memory start with
  | nil => exact fun held hheld => (hsound held hheld).mono hstartNow
  | cons event rest ih =>
      obtain ⟨hlater, hrest⟩ := List.pairwise_cons.mp hordered
      have hmember : event ∈ event :: rest := List.mem_cons_self ..
      refine ih hrest (fun other hother => husable other (List.mem_cons_of_mem _ hother)) ?_ hlater
        (hnow event hmember) (fun other hother => hnow other (List.mem_cons_of_mem _ hother))
      exact sound_afterEvent
        (fun held hheld => (hsound held hheld).mono (hstart event hmember)) (husable event hmember)

/-! ## Calls at one instant -/

/-- Takes from the bucket of a key at one instant, each with its rate and its burst. -/
def takesAt (now : Instant) (key : String) (calls : List (Binary64 × Nat)) :
    List (Event Binary64) :=
  calls.map fun call => ⟨now, .take key call.1 call.2⟩

/-- What the calls at one instant are told, the first one apart. -/
theorem takesOn_takesAt_cons (memory : Memory Binary64) (now : Instant) (key : String)
    (rate : Binary64) (burst : Nat) (rest : List (Binary64 × Nat)) :
    (takesOn key (memory.history (takesAt now key ((rate, burst) :: rest)))).map Prod.snd =
      (useBucket (memory.buckets.get? key) now rate burst).1 ::
        (takesOn key ((memory.afterEvent ⟨now, .take key rate burst⟩).history
          (takesAt now key rest))).map Prod.snd := by
  have hfirst : takeOn? key (⟨now, .take key rate burst⟩,
      (memory.perform now (.take key rate burst)).1) =
        some (now, (useBucket (memory.buckets.get? key) now rate burst).1) := by
    simp [perform_take, takeOn?]
  rw [takesAt, List.map_cons, takesOn_history_cons, hfirst]
  rfl

/-- **After a use, the calls at its instant draw on what it has left.** -/
theorem takesOn_takesAt_of_lastUsed {memory : Memory Binary64} {held : Bucket Binary64}
    (hheld : memory.buckets.get? key = some held) (hsame : held.lastUsed = now)
    (calls : List (Binary64 × Nat)) :
    (takesOn key (memory.history (takesAt now key calls))).map Prod.snd =
      TokenTake.draws held.tokens calls.length := by
  induction calls generalizing memory held with
  | nil => rfl
  | cons call rest ih =>
      obtain ⟨rate, burst⟩ := call
      have hused : (useBucket (memory.buckets.get? key) now rate burst).1 = .drawn held.tokens := by
        rw [hheld, ← Bucket.refilled_of_lastUsed hsame (Quantity.ofInt burst)]
        exact held.take_eq_drawn now rate _
      have hafter := memory.get?_buckets_afterEvent_take now key rate burst
      rw [hused] at hafter
      rw [takesOn_takesAt_cons, hused, ih hafter (Bucket.lastUsed_holding ..),
        Bucket.tokens_holding, List.length_cons, TokenTake.draws]

/-- **A call may rely on its burst unless it is overdrawn.** -/
theorem kept_take {events : List (Event Binary64)} (hordered : Chronological events)
    (hevents : AllUsable key events) (hnow : ∀ event ∈ events, event.time ≤ now)
    (husable : Usable rate burst) :
    let memory : Memory Binary64 := Memory.empty.after events
    (memory.take now key rate burst).1.Kept burst
      (Overdrawn (memory.buckets.get? key) now burst) fun rest =>
        (takesOn key (memory.history (takesAt now key ((rate, burst) :: rest)))).countP
          fun take => take.2.allowed := by
  intro memory
  have hstart : ∀ instant : Instant, Instant.start ≤ instant := fun _ => Nat.zero_le _
  have hsound : ∀ held ∈ memory.buckets.get? key, held.Sound now :=
    sound_after hordered hevents (fun held hheld => nomatch hheld) (fun event _ => hstart event.time)
      (hstart now) hnow
  obtain ⟨hcount, hiff⟩ := levelOf_spec hsound husable
  have hused : (useBucket (memory.buckets.get? key) now rate burst).1 =
      .drawn (levelOf (memory.buckets.get? key) now rate burst) := useBucket_eq_drawn husable
  rw [memory.fst_take, hused]
  refine TokenTake.kept_drawn husable hcount hiff fun hsize level hlevel hunits rest _ => ?_
  have hafter := memory.get?_buckets_afterEvent_take now key rate burst
  rw [hused, hlevel] at hafter
  have htakes : (takesOn key (memory.history (takesAt now key ((rate, burst) :: rest)))).map
      Prod.snd = TokenTake.draws (finite false level) (rest.length + 1) := by
    rw [takesOn_takesAt_cons, hused, hlevel,
      takesOn_takesAt_of_lastUsed hafter (Bucket.lastUsed_holding ..), Bucket.tokens_holding,
      TokenTake.draws]
  have hgranted := TokenTake.countP_draws_le hsize hunits (rest.length + 1)
  rw [← htakes, List.countP_map] at hgranted
  exact hgranted

end Memory

end Throttle
