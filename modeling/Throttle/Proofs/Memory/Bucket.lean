import Throttle.Proofs.Memory.Run
import Throttle.Proofs.Numeric.Exact

/-!
# Buckets in the exact reading

What a bucket does over `Rat`.  As long as it holds no more than its capacity, a refill is
`min (tokens + elapsed * rate) burst` for every time that has passed, none included
(`refilled_eq_min`), and no use of it leaves more (`useBucket_tokens_le`).
-/

namespace Throttle

namespace Bucket

variable {held : Bucket Rat} {now : Instant} {rate burst : Rat}

/-- The tokens after a refill, for a bucket that holds no more than its capacity. -/
theorem refilled_eq_min (htokens : held.tokens ≤ burst) :
    held.refilled now rate burst =
      min (held.tokens + (held.lastUsed.timeUntil now).inSeconds * rate) burst := by
  have hnonneg := (held.lastUsed.timeUntil now).inSeconds_nonneg
  simp only [refilled, Quantity.lesser_rat, Quantity.ofInt_rat, Int.cast_zero]
  split_ifs with helapsed
  · rfl
  · have hzero := le_antisymm (not_lt.mp helapsed) hnonneg
    rw [hzero, zero_mul, add_zero, min_eq_left htokens]

/-- A bucket is not full as long as less time has passed than its missing tokens take. -/
theorem refilled_lt_iff (hrate : 0 < rate) (htokens : held.tokens ≤ burst) :
    held.refilled now rate burst < burst ↔
      (held.lastUsed.timeUntil now).nanos < (burst - held.tokens) / rate * nanosRatio := by
  have hmissing : (held.lastUsed.timeUntil now).nanos < (burst - held.tokens) / rate * nanosRatio ↔
      (held.lastUsed.timeUntil now).inSeconds * rate < burst - held.tokens := by
    rw [Duration.inSeconds_rat, ← lt_div_iff₀ hrate, div_lt_iff₀ nanosRatio_pos]
  rw [refilled_eq_min htokens, hmissing, min_lt_iff, lt_self_iff_false, or_false]
  constructor <;> intro hlt <;> linarith

theorem refilled_le (htokens : held.tokens ≤ burst) : held.refilled now rate burst ≤ burst := by
  rw [refilled_eq_min htokens]
  exact min_le_right _ _

end Bucket

namespace Memory

/-! ## The takes of a key -/

section

variable {α : Type}

/-- The take from the bucket of a key that an answered event is, if it is one, with its
time. -/
def takeOn? (key : String) : Event α × Outcome α → Option (Instant × TokenTake α)
  | (⟨now, .take other _ _⟩, .taken take) => if other = key then some (now, take) else none
  | _ => none

/-- The takes from the bucket of a key in a history, with their times. -/
def takesOn (key : String) (history : List (Event α × Outcome α)) :
    List (Instant × TokenTake α) :=
  history.filterMap (takeOn? key)

/-- Every take from the bucket of a key has this rate and this burst. -/
def Uniform (key : String) (rate : α) (burst : Nat) (events : List (Event α)) : Prop :=
  ∀ event ∈ events, ∀ otherRate otherBurst, event.operation = .take key otherRate otherBurst →
    otherRate = rate ∧ otherBurst = burst

theorem Uniform.of_cons {key : String} {rate : α} {burst : Nat} {event : Event α}
    {rest : List (Event α)} (huniform : Uniform key rate burst (event :: rest)) :
    Uniform key rate burst rest :=
  fun other hother => huniform other (List.mem_cons_of_mem _ hother)

variable [Quantity α]

/-- What a take does to the bucket of its key. -/
def useBucket (held? : Option (Bucket α)) (now : Instant) (rate : α) (burst : Nat) :
    TokenTake α × Bucket α :=
  match held? with
  | some held => held.take now rate (Quantity.ofInt burst)
  | none => Bucket.opened now rate (Quantity.ofInt burst)

/-- A use leaves the bucket as it tells the caller. -/
theorem useBucket_eq (held? : Option (Bucket α)) (now : Instant) (rate : α) (burst : Nat) :
    (useBucket held? now rate burst).2 =
      .holding now (useBucket held? now rate burst).1.remaining rate (Quantity.ofInt burst) := by
  cases held? <;> rfl

theorem fst_take (memory : Memory α) (now : Instant) (key : String) (rate : α) (burst : Nat) :
    (memory.take now key rate burst).1 =
      (useBucket (memory.buckets.get? key) now rate burst).1 := by
  unfold take useBucket
  cases memory.buckets.get? key <;> rfl

theorem perform_take (memory : Memory α) (now : Instant) (key : String) (rate : α)
    (burst : Nat) :
    memory.perform now (.take key rate burst) =
      let used := useBucket (memory.buckets.get? key) now rate burst
      (.taken used.1, { memory with buckets := memory.buckets.insert key used.2 }) := by
  unfold perform take useBucket
  cases hheld : memory.buckets.get? key <;> simp only [hheld]

theorem get?_buckets_afterEvent_take (memory : Memory α) (now : Instant) (key : String) (rate : α)
    (burst : Nat) :
    (memory.afterEvent ⟨now, .take key rate burst⟩).buckets.get? key =
      some (.holding now (useBucket (memory.buckets.get? key) now rate burst).1.remaining rate
        (Quantity.ofInt burst)) := by
  rw [← useBucket_eq]
  simp [afterEvent, perform_take]

/-- The takes of a run are that of its first event, if it is one, and those of the rest. -/
theorem takesOn_history_cons (memory : Memory α) (key : String) (event : Event α)
    (rest : List (Event α)) :
    takesOn key (memory.history (event :: rest)) =
      (takeOn? key (event, (memory.perform event.time event.operation).1)).toList ++
        takesOn key ((memory.afterEvent event).history rest) := by
  rw [history_cons, takesOn, List.filterMap_cons]
  cases takeOn? key (event, (memory.perform event.time event.operation).1) <;> rfl

/-- What one event does to the bucket of a key: it uses the bucket, or sweeps it, or leaves
it alone. -/
theorem bucket_cases (key : String) (event : Event α) :
    (∃ rate burst, event.operation = .take key rate burst ∧ ∀ memory : Memory α,
      takeOn? key (event, (memory.perform event.time event.operation).1) =
        some (event.time, (useBucket (memory.buckets.get? key) event.time rate burst).1) ∧
      (memory.afterEvent event).buckets.get? key =
        some (useBucket (memory.buckets.get? key) event.time rate burst).2) ∨
    (event.operation = .sweep ∧ ∀ memory : Memory α,
      takeOn? key (event, (memory.perform event.time event.operation).1) = none ∧
      (memory.afterEvent event).buckets.get? key =
        (memory.sweep event.time).buckets.get? key) ∨
    (event.operation ≠ .sweep ∧ (∀ rate burst, event.operation ≠ .take key rate burst) ∧
      ∀ memory : Memory α,
        takeOn? key (event, (memory.perform event.time event.operation).1) = none ∧
        (memory.afterEvent event).buckets.get? key = memory.buckets.get? key) := by
  obtain ⟨now, operation⟩ := event
  cases operation with
  | increment other window =>
      exact Or.inr (Or.inr ⟨by simp, by simp, fun memory => ⟨rfl,
        congrArg (Table.get? · key) (buckets_increment memory now other window)⟩⟩)
  | sweep => exact Or.inr (Or.inl ⟨rfl, fun memory => ⟨rfl, rfl⟩⟩)
  | take other rate burst =>
      by_cases hkey : other = key
      · subst hkey
        refine Or.inl ⟨rate, burst, rfl, fun memory => ⟨?_, ?_⟩⟩
        · simp [perform_take, takeOn?]
        · simp [afterEvent, perform_take]
      · refine Or.inr (Or.inr ⟨by simp, by simp [hkey], fun memory => ⟨?_, ?_⟩⟩)
        · simp [perform_take, takeOn?, hkey]
        · simp [afterEvent, perform_take, Table.get?_insert_of_ne _ (Ne.symm hkey)]

end

/-! ## The exact reading of a use -/

variable {now : Instant} {rate : Rat} {burst : Nat}

/-- The first use takes a token of a full bucket. -/
theorem useBucket_none (hburst : 1 ≤ burst) :
    useBucket none now rate burst =
      (⟨true, burst - 1⟩, .holding now (burst - 1) rate (burst : Rat)) := by
  have hone : (1 : Rat) ≤ burst := by exact_mod_cast hburst
  have hleft : (0 : Rat) ≤ burst - 1 := by linarith
  simp [useBucket, Bucket.opened, Quantity.greater_rat, hone, hleft]

/-- A later use takes a token if there is one after the refill. -/
theorem useBucket_some (held : Bucket Rat) :
    useBucket (some held) now rate burst =
      let tokens := held.refilled now rate (burst : Rat)
      let remaining := if 1 ≤ tokens then tokens - 1 else tokens
      (⟨decide (1 ≤ tokens), remaining⟩, .holding now remaining rate (burst : Rat)) := by
  simp only [useBucket, Bucket.take, Quantity.ofInt_rat, Int.cast_one, Int.cast_natCast,
    decide_eq_true_eq]

/-- A full bucket is used like one that is not there. -/
theorem useBucket_of_full (hburst : 1 ≤ burst) {held : Bucket Rat}
    (hfull : held.refilled now rate (burst : Rat) = burst) :
    useBucket (some held) now rate burst = useBucket none now rate burst := by
  have hone : (1 : Rat) ≤ burst := by exact_mod_cast hburst
  rw [useBucket_some, useBucket_none hburst, hfull]
  simp [hone]

/-- No use of a bucket leaves more than its capacity. -/
theorem useBucket_tokens_le {held? : Option (Bucket Rat)} (hburst : 1 ≤ burst)
    (hheld : ∀ held ∈ held?, held.tokens ≤ burst) :
    (useBucket held? now rate burst).2.tokens ≤ burst := by
  cases held? with
  | none =>
      rw [useBucket_none hburst]
      exact sub_le_self _ zero_le_one
  | some held =>
      have hfull : held.refilled now rate (burst : Rat) ≤ burst :=
        Bucket.refilled_le (hheld held rfl)
      rw [useBucket_some]
      simp only [Bucket.holding]
      split_ifs <;> linarith

end Memory

end Throttle
