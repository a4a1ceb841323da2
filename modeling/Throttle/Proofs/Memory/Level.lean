import Throttle.Proofs.Memory.Bucket

/-!
# A bucket allows as much as its rate does

A rate of refill and a burst bound what any interval may let through: the burst, and what is
earned in the interval.  `allowance` is what an interval from an earlier take to a later one
leaves of its bound, and `level` the least that any such interval leaves.

A bucket keeps one number and the instant of its last use.  That is enough to know the level:
the tokens after a refill are the level at the take (`level_succ` is the refill, in the
language of intervals), and a take is allowed if and only if the level is one at least.
-/

namespace Throttle.Memory

/-- The takes of one bucket, in the order in which they were made. -/
abbrev Takes := List (Instant × TokenTake Rat)

namespace Takes

variable (takes : Takes)

/-- The time of a take by its number, in seconds. -/
def timeAt (index : Nat) : Rat :=
  match takes[index]? with
  | some (time, _) => time.nanos / nanosRatio
  | none => 0

/-- Whether a take was allowed, by its number. -/
def allowedAt (index : Nat) : Bool :=
  match takes[index]? with
  | some (_, take) => take.allowed
  | none => false

/-- How many takes were allowed from one number up to, and without, another. -/
def allowedAmong (first last : Nat) : Nat :=
  ((Finset.Ico first last).filter fun index => takes.allowedAt index = true).card

/-- What the interval from one take to another leaves of its bound: the burst and what is
earned in between, less the takes that were allowed before the last. -/
def allowance (rate burst : Rat) (first last : Nat) : Rat :=
  burst + rate * (takes.timeAt last - takes.timeAt first) - takes.allowedAmong first last

/-- The least that an interval leaves which ends with a take. -/
def level (rate burst : Rat) (last : Nat) : Rat :=
  (Finset.range (last + 1)).inf' Finset.nonempty_range_add_one fun first =>
    takes.allowance rate burst first last

/-- The takes that were allowed in an interval of time, by their numbers. -/
def allowedWithin (start finish : Instant) : Finset Nat :=
  (Finset.range takes.length).filter fun index =>
    takes[index]?.any fun entry =>
      entry.2.allowed && decide (start ≤ entry.1 ∧ entry.1 ≤ finish)

variable {takes} {rate burst : Rat}

theorem timeAt_of_getElem? {index : Nat} {time : Instant} {take : TokenTake Rat}
    (hget : takes[index]? = some (time, take)) : takes.timeAt index = time.nanos / nanosRatio := by
  rw [timeAt, hget]

theorem allowedAt_of_getElem? {index : Nat} {time : Instant} {take : TokenTake Rat}
    (hget : takes[index]? = some (time, take)) : takes.allowedAt index = take.allowed := by
  rw [allowedAt, hget]

/-! ## The level -/

theorem le_level_iff {bound : Rat} {last : Nat} :
    bound ≤ takes.level rate burst last ↔
      ∀ first ≤ last, bound ≤ takes.allowance rate burst first last := by
  simp [level, Finset.le_inf'_iff]

@[simp] theorem allowance_self (last : Nat) : takes.allowance rate burst last last = burst := by
  simp [allowance, allowedAmong]

theorem level_le_burst (last : Nat) : takes.level rate burst last ≤ burst := by
  have hself := le_level_iff.mp (le_refl (takes.level rate burst last)) last le_rfl
  rwa [allowance_self] at hself

@[simp] theorem level_zero : takes.level rate burst 0 = burst := by
  simp [level]

theorem allowedAmong_succ {first last : Nat} (hle : first ≤ last) :
    takes.allowedAmong first (last + 1) =
      takes.allowedAmong first last + if takes.allowedAt last = true then 1 else 0 := by
  have hnot : last ∉ (Finset.Ico first last).filter fun index => takes.allowedAt index = true := by
    simp
  rw [allowedAmong, ← Finset.insert_Ico_right_eq_Ico_add_one hle, Finset.filter_insert]
  split_ifs
  · rw [Finset.card_insert_of_notMem hnot, allowedAmong]
  · rfl

/-- The level at the next take: what the allowed take has left, with what is earned since,
but no more than the burst. -/
theorem level_succ (last : Nat) :
    takes.level rate burst (last + 1) =
      min (takes.level rate burst last - (if takes.allowedAt last = true then 1 else 0) +
        (takes.timeAt (last + 1) - takes.timeAt last) * rate) burst := by
  refine eq_of_forall_le_iff fun bound => ?_
  set spent : Rat := if takes.allowedAt last = true then 1 else 0
  set earned := (takes.timeAt (last + 1) - takes.timeAt last) * rate
  have hstep : ∀ first ≤ last, takes.allowance rate burst first (last + 1) =
      takes.allowance rate burst first last - spent + earned := by
    intro first hle
    rw [allowance, allowance, allowedAmong_succ hle, Nat.cast_add, Nat.cast_ite]
    simp only [spent, earned, Nat.cast_one, Nat.cast_zero]
    ring
  rw [le_min_iff, le_level_iff]
  constructor
  · intro hall
    refine ⟨?_, by simpa using hall (last + 1) le_rfl⟩
    have hlevel : bound - earned + spent ≤ takes.level rate burst last := by
      refine le_level_iff.mpr fun first hle => ?_
      have hfirst := hall first (by omega)
      rw [hstep first hle] at hfirst
      linarith
    linarith
  · rintro ⟨hlevel, hburst⟩ first hle
    rcases Nat.lt_or_eq_of_le hle with hlt | rfl
    · have hfirst := le_level_iff.mp (le_refl (takes.level rate burst last)) first (by omega)
      rw [hstep first (by omega)]
      linarith
    · rwa [allowance_self]

/-! ## Levels look back only -/

theorem level_congr {other : Takes} {last : Nat}
    (hagree : ∀ index ≤ last, takes.timeAt index = other.timeAt index)
    (hallowed : ∀ index < last, takes.allowedAt index = other.allowedAt index) :
    takes.level rate burst last = other.level rate burst last := by
  refine eq_of_forall_le_iff fun bound => ?_
  rw [le_level_iff, le_level_iff]
  refine forall₂_congr fun first hle => ?_
  have hamong : takes.allowedAmong first last = other.allowedAmong first last := by
    refine congrArg Finset.card (Finset.filter_congr fun index hindex => ?_)
    rw [hallowed index (Finset.mem_Ico.mp hindex).2]
  rw [allowance, allowance, hamong, hagree first hle, hagree last le_rfl]

theorem timeAt_append {index : Nat} (hindex : index < takes.length) (more : Takes) :
    (takes ++ more).timeAt index = takes.timeAt index := by
  simp only [timeAt, List.getElem?_append_left hindex]

theorem allowedAt_append {index : Nat} (hindex : index < takes.length) (more : Takes) :
    (takes ++ more).allowedAt index = takes.allowedAt index := by
  simp only [allowedAt, List.getElem?_append_left hindex]

theorem level_append {last : Nat} (hlast : last < takes.length) (more : Takes) :
    (takes ++ more).level rate burst last = takes.level rate burst last :=
  level_congr (fun _ hle => timeAt_append (by omega) more)
    fun _ hlt => allowedAt_append (by omega) more

theorem getElem?_append_singleton_self (takes : Takes) (entry : Instant × TokenTake Rat) :
    (takes ++ [entry])[takes.length]? = some entry := by
  simp

end Takes

/-! ## Takes that follow the level -/

/-- Takes, none later than an instant, that are answered by the level. -/
structure Metered (rate burst : Rat) (takes : Takes) (now : Instant) : Prop where
  allowed_iff : ∀ index time take, takes[index]? = some (time, take) →
    (take.allowed = true ↔ 1 ≤ takes.level rate burst index)
  remaining_eq : ∀ index time take, takes[index]? = some (time, take) →
    take.remaining = takes.level rate burst index - if take.allowed = true then 1 else 0
  ordered : takes.Pairwise fun earlier later => earlier.1 ≤ later.1
  past : ∀ entry ∈ takes, entry.1 ≤ now

/-- What is held of a bucket after its takes: what the last of them has left, at its time. -/
inductive Holds (takes : Takes) : Option (Bucket Rat) → Prop
  | unused (htakes : takes = []) : Holds takes none
  | held {index : Nat} {last : TokenTake Rat} {held : Bucket Rat}
      (hlength : takes.length = index + 1) (hlast : takes[index]? = some (held.lastUsed, last))
      (htokens : last.remaining = held.tokens) : Holds takes (some held)

namespace Metered

open Takes

variable {takes : Takes} {rate burst : Rat} {now later : Instant} {held : Bucket Rat}

theorem mono (hmetered : Metered rate burst takes now) (hlater : now ≤ later) :
    Metered rate burst takes later where
  allowed_iff := hmetered.allowed_iff
  remaining_eq := hmetered.remaining_eq
  ordered := hmetered.ordered
  past := fun entry hentry => Nat.le_trans (hmetered.past entry hentry) hlater

/-- One more take that the level answers. -/
theorem append (hmetered : Metered rate burst takes now) (hlater : now ≤ later)
    {take : TokenTake Rat}
    (hallowed : take.allowed = true ↔
      1 ≤ (takes ++ [(later, take)]).level rate burst takes.length)
    (hremaining : take.remaining = (takes ++ [(later, take)]).level rate burst takes.length -
      if take.allowed = true then 1 else 0) :
    Metered rate burst (takes ++ [(later, take)]) later := by
  have hcases : ∀ index time other, (takes ++ [(later, take)])[index]? = some (time, other) →
      (index < takes.length ∧ takes[index]? = some (time, other)) ∨
        (index = takes.length ∧ other = take) := by
    intro index time other hget
    rcases Nat.lt_trichotomy index takes.length with hlt | rfl | hgt
    · exact Or.inl ⟨hlt, by rwa [List.getElem?_append_left hlt] at hget⟩
    · rw [getElem?_append_singleton_self] at hget
      cases hget
      exact Or.inr ⟨rfl, rfl⟩
    · rw [List.getElem?_eq_none (by simp; omega)] at hget
      cases hget
  refine ⟨?_, ?_, ?_, ?_⟩
  · intro index time other hget
    rcases hcases index time other hget with ⟨hlt, hold⟩ | ⟨rfl, rfl⟩
    · rw [level_append hlt]
      exact hmetered.allowed_iff index time other hold
    · exact hallowed
  · intro index time other hget
    rcases hcases index time other hget with ⟨hlt, hold⟩ | ⟨rfl, rfl⟩
    · rw [level_append hlt]
      exact hmetered.remaining_eq index time other hold
    · exact hremaining
  · refine List.pairwise_append.mpr ⟨hmetered.ordered, List.pairwise_singleton .., ?_⟩
    intro earlier hearlier last hlast
    rw [List.mem_singleton.mp hlast]
    exact Nat.le_trans (hmetered.past earlier hearlier) hlater
  · intro entry hentry
    rcases List.mem_append.mp hentry with hold | hnew
    · exact Nat.le_trans (hmetered.past entry hold) hlater
    · rw [List.mem_singleton.mp hnew]
      exact Nat.le_refl _

/-- The tokens after a refill are the level at the next take. -/
theorem refilled_eq_level (hmetered : Metered rate burst takes now) (hlater : now ≤ later)
    {index : Nat} {last : TokenTake Rat} (hlength : takes.length = index + 1)
    (hlast : takes[index]? = some (held.lastUsed, last)) (htokens : last.remaining = held.tokens)
    (take : TokenTake Rat) :
    held.refilled later rate burst =
      (takes ++ [(later, take)]).level rate burst takes.length := by
  have hremaining := hmetered.remaining_eq _ _ _ hlast
  have hpast : held.lastUsed ≤ now := hmetered.past _ (List.mem_of_getElem? hlast)
  have hcapacity : held.tokens ≤ burst := by
    have hlevel : takes.level rate burst index ≤ burst := level_le_burst _
    rw [← htokens, hremaining]
    split_ifs <;> linarith
  have hold : (takes ++ [(later, take)])[index]? = some (held.lastUsed, last) := by
    rw [List.getElem?_append_left (by omega), hlast]
  have hnew : (takes ++ [(later, take)])[index + 1]? = some (later, take) := by
    rw [← hlength, getElem?_append_singleton_self]
  have helapsed : (takes ++ [(later, take)]).timeAt (index + 1) -
      (takes ++ [(later, take)]).timeAt index = (held.lastUsed.timeUntil later).inSeconds := by
    rw [timeAt_of_getElem? hnew, timeAt_of_getElem? hold, Duration.inSeconds_rat,
      Instant.timeUntil, Nat.cast_sub (Nat.le_trans hpast hlater), sub_div]
  rw [hlength, Bucket.refilled_eq_min hcapacity, level_succ, level_append (by omega),
    allowedAt_of_getElem? hold, helapsed, ← htokens, hremaining]

/-! ## Intervals of time -/

theorem mem_allowedWithin {start finish : Instant} {index : Nat} :
    index ∈ takes.allowedWithin start finish ↔
      ∃ time take, takes[index]? = some (time, take) ∧ take.allowed = true ∧
        start ≤ time ∧ time ≤ finish := by
  rw [allowedWithin, Finset.mem_filter, Finset.mem_range, Option.any_eq_true]
  constructor
  · rintro ⟨-, ⟨time, take⟩, hget, hinside⟩
    simp only [Bool.and_eq_true, decide_eq_true_eq] at hinside
    exact ⟨time, take, hget, hinside.1, hinside.2⟩
  · rintro ⟨time, take, hget, hallowed, hinside⟩
    exact ⟨(List.getElem?_eq_some_iff.mp hget).1, (time, take), hget, by simp [hallowed, hinside]⟩

/-- A later take is not earlier in time. -/
theorem time_le (hmetered : Metered rate burst takes now) {first last : Nat}
    {time finish : Instant} {take other : TokenTake Rat} (hle : first ≤ last)
    (hfirst : takes[first]? = some (time, take)) (hlast : takes[last]? = some (finish, other)) :
    time ≤ finish := by
  rcases Nat.lt_or_eq_of_le hle with hlt | rfl
  · obtain ⟨hbound, hget⟩ := List.getElem?_eq_some_iff.mp hlast
    obtain ⟨hboundFirst, hgetFirst⟩ := List.getElem?_eq_some_iff.mp hfirst
    have hordered := List.pairwise_iff_getElem.mp hmetered.ordered first last hboundFirst hbound hlt
    rwa [hget, hgetFirst] at hordered
  · cases hfirst.symm.trans hlast
    exact Nat.le_refl _

/-- No interval of time lets more through than the burst and what is earned in it. -/
theorem card_allowedWithin_le (hmetered : Metered rate burst takes now) (hrate : 0 < rate)
    (hburst : 0 ≤ burst) (start finish : Instant) :
    ((takes.allowedWithin start finish).card : Rat) ≤
      burst + rate * (start.timeUntil finish).inSeconds := by
  have hearned : 0 ≤ rate * (start.timeUntil finish).inSeconds :=
    mul_nonneg hrate.le (Duration.inSeconds_nonneg _)
  rcases (takes.allowedWithin start finish).eq_empty_or_nonempty with hempty | hnonempty
  · rw [hempty, Finset.card_empty, Nat.cast_zero]
    linarith
  · -- the bound is that of the interval from the first allowed take to the last
    set within := takes.allowedWithin start finish
    obtain ⟨time, take, hfirst, -, hstart, hbefore⟩ :=
      mem_allowedWithin.mp (within.min'_mem hnonempty)
    obtain ⟨finish', other, hlast, hallowed, -, hfinish⟩ :=
      mem_allowedWithin.mp (within.max'_mem hnonempty)
    set first := within.min' hnonempty
    set last := within.max' hnonempty
    have hle : first ≤ last := within.min'_le_max' hnonempty
    have hsubset : within ⊆ insert last
        ((Finset.Ico first last).filter fun index => takes.allowedAt index = true) := by
      intro index hindex
      obtain ⟨_, inner, hget, hinner, -⟩ := mem_allowedWithin.mp hindex
      rcases Nat.lt_or_eq_of_le (within.le_max' index hindex) with hlt | heq
      · refine Finset.mem_insert_of_mem (Finset.mem_filter.mpr ⟨Finset.mem_Ico.mpr
          ⟨within.min'_le index hindex, hlt⟩, ?_⟩)
        rw [allowedAt_of_getElem? hget, hinner]
      · exact heq ▸ Finset.mem_insert_self ..
    have hcard : (within.card : Rat) ≤ takes.allowedAmong first last + 1 := by
      exact_mod_cast (Finset.card_le_card hsubset).trans (Finset.card_insert_le ..)
    have hallowance : 1 ≤ takes.allowance rate burst first last :=
      le_level_iff.mp ((hmetered.allowed_iff _ _ _ hlast).mp hallowed) first hle
    have hspan : takes.timeAt last - takes.timeAt first ≤ (start.timeUntil finish).inSeconds := by
      have hlow : (start.nanos : Rat) ≤ time.nanos := by exact_mod_cast hstart
      have hhigh : (finish'.nanos : Rat) ≤ finish.nanos := by exact_mod_cast hfinish
      have hordered : start.nanos ≤ finish.nanos := Nat.le_trans hstart hbefore
      rw [timeAt_of_getElem? hlast, timeAt_of_getElem? hfirst, Duration.inSeconds_rat,
        Instant.timeUntil, Nat.cast_sub hordered, ← sub_div]
      exact div_le_div_of_nonneg_right (by linarith) nanosRatio_pos.le
    have hspent := mul_le_mul_of_nonneg_left hspan hrate.le
    rw [allowance] at hallowance
    linarith

/-- A take that every interval ending with it has room for is allowed. -/
theorem allowed_of_room (hmetered : Metered rate burst takes now) {last : Nat} {time : Instant}
    {take : TokenTake Rat} (hlast : takes[last]? = some (time, take))
    (hroom : ∀ start ≤ time, ((allowedWithin (takes.take last) start time).card : Rat) + 1 ≤
      burst + rate * (start.timeUntil time).inSeconds) : take.allowed = true := by
  refine (hmetered.allowed_iff _ _ _ hlast).mpr (le_level_iff.mpr fun first hle => ?_)
  have hbound : first < takes.length :=
    Nat.lt_of_le_of_lt hle (List.getElem?_eq_some_iff.mp hlast).1
  obtain ⟨⟨start, other⟩, hfirst⟩ : ∃ entry, takes[first]? = some entry :=
    ⟨_, List.getElem?_eq_getElem hbound⟩
  have hstart : start ≤ time := hmetered.time_le hle hfirst hlast
  have hsubset : ((Finset.Ico first last).filter fun index => takes.allowedAt index = true) ⊆
      allowedWithin (takes.take last) start time := by
    intro index hindex
    obtain ⟨hmem, hallowed⟩ := Finset.mem_filter.mp hindex
    obtain ⟨hlow, hhigh⟩ := Finset.mem_Ico.mp hmem
    obtain ⟨⟨between, inner⟩, hget⟩ : ∃ entry, takes[index]? = some entry :=
      ⟨_, List.getElem?_eq_getElem
        (Nat.lt_trans hhigh (List.getElem?_eq_some_iff.mp hlast).1)⟩
    refine mem_allowedWithin.mpr ⟨between, inner, ?_, ?_,
      hmetered.time_le hlow hfirst hget, hmetered.time_le hhigh.le hget hlast⟩
    · rw [List.getElem?_take_of_lt hhigh, hget]
    · rwa [allowedAt_of_getElem? hget] at hallowed
  have hcard : (takes.allowedAmong first last : Rat) ≤
      (allowedWithin (takes.take last) start time).card := by
    exact_mod_cast Finset.card_le_card hsubset
  have hspan : takes.timeAt last - takes.timeAt first = (start.timeUntil time).inSeconds := by
    rw [timeAt_of_getElem? hlast, timeAt_of_getElem? hfirst, Duration.inSeconds_rat,
      Instant.timeUntil, Nat.cast_sub hstart, sub_div]
  have hpermitted := hroom start hstart
  rw [allowance, hspan]
  linarith

end Metered

/-! ## Runs -/

variable {rate : Rat} {burst : Nat} {memory : Memory Rat} {key : String} {now : Instant}
  {takes : Takes}

/-- No sweep of a run removes the bucket of a key. -/
def Spared (key : String) (memory : Memory Rat) : List (Event Rat) → Prop
  | [] => True
  | event :: rest =>
      (event.operation = .sweep →
        (memory.afterEvent event).buckets.get? key = memory.buckets.get? key) ∧
      Spared key (memory.afterEvent event) rest

instance decidableSpared (key : String) :
    (memory : Memory Rat) → (events : List (Event Rat)) → Decidable (Spared key memory events)
  | _, [] => .isTrue trivial
  | memory, event :: rest =>
      have := decidableSpared key (memory.afterEvent event) rest
      inferInstanceAs (Decidable (_ ∧ _))

/-- The answer to a take, and what it leaves of the bucket, follow the level. -/
theorem Metered.useBucket (hmetered : Metered rate burst takes now) (hburst : 1 ≤ burst)
    {held? : Option (Bucket Rat)} (hholds : Holds takes held?) {later : Instant}
    (hlater : now ≤ later) :
    let used := Memory.useBucket held? later rate burst
    Metered rate burst (takes ++ [(later, used.1)]) later ∧
      Holds (takes ++ [(later, used.1)]) (some used.2) := by
  cases hholds with
  | unused htakes =>
      subst htakes
      have hone : (1 : Rat) ≤ burst := by exact_mod_cast hburst
      rw [useBucket_none hburst]
      refine ⟨hmetered.append hlater ?_ ?_, .held (show _ = 0 + 1 from rfl) rfl rfl⟩
      · simpa using hone
      · simp
  | @held index last held hlength hlast htokens =>
      have hlevel := hmetered.refilled_eq_level hlater hlength hlast htokens
      rw [useBucket_some]
      refine ⟨hmetered.append hlater ?_ ?_,
        @Holds.held _ takes.length _ _ (by simp) (Takes.getElem?_append_singleton_self ..) rfl⟩
      · simp [← hlevel]
      · rw [← hlevel]
        by_cases hfull : 1 ≤ held.refilled later rate (burst : Rat) <;> simp [hfull]

/-- The takes of a run follow the level. -/
theorem Metered.history {events : List (Event Rat)} (hmetered : Metered rate burst takes now)
    (hburst : 1 ≤ burst) (hholds : Holds takes (memory.buckets.get? key))
    (hordered : Chronological events) (hnow : ∀ event ∈ events, now ≤ event.time)
    (huniform : Uniform key rate burst events) (hspared : Spared key memory events) :
    ∃ last, Metered rate burst (takes ++ takesOn key (memory.history events)) last := by
  induction events generalizing memory takes now with
  | nil => exact ⟨now, by simpa [takesOn] using hmetered⟩
  | cons event rest ih =>
      obtain ⟨hlater, hrest⟩ := List.pairwise_cons.mp hordered
      have hevent : now ≤ event.time := hnow event (List.mem_cons_self ..)
      rw [takesOn_history_cons]
      rcases bucket_cases key event with
        ⟨otherRate, otherBurst, htake, hstep⟩ | ⟨hsweep, hstep⟩ | ⟨-, -, hstep⟩
      · obtain ⟨rfl, rfl⟩ := huniform event (List.mem_cons_self ..) _ _ htake
        obtain ⟨htaken, hleft⟩ := hstep memory
        obtain ⟨hnext, hheld⟩ := hmetered.useBucket hburst hholds hevent
        obtain ⟨last, hrun⟩ := ih hnext (hleft ▸ hheld) hrest hlater huniform.of_cons hspared.2
        rw [List.append_assoc] at hrun
        rw [htaken]
        exact ⟨last, hrun⟩
      · rw [(hstep memory).1]
        exact ih (hmetered.mono hevent) (hspared.1 hsweep ▸ hholds) hrest hlater huniform.of_cons
          hspared.2
      · obtain ⟨hnone, hleft⟩ := hstep memory
        rw [hnone]
        exact ih (hmetered.mono hevent) (hleft ▸ hholds) hrest hlater huniform.of_cons hspared.2

/-- **A bucket is the maximal filter of its rate.**  In a run in which no sweep removes the
bucket of an unused key, a take is allowed if and only if the level is one at least, and what
remains is the level, less the token that was taken.  So no interval lets more through than
its bound, and no take is refused that every interval ending with it has room for. -/
theorem takes_follow_level {events : List (Event Rat)} (hrate : 0 < rate) (hburst : 1 ≤ burst)
    (hfresh : memory.buckets.get? key = none) (hordered : Chronological events)
    (huniform : Uniform key rate burst events) (hspared : Spared key memory events) :
    let takes : Takes := takesOn key (memory.history events)
    (∀ index time take, takes[index]? = some (time, take) →
      (take.allowed = true ↔ 1 ≤ takes.level rate burst index) ∧
      take.remaining = takes.level rate burst index - if take.allowed = true then 1 else 0) ∧
    (∀ start finish, ((takes.allowedWithin start finish).card : Rat) ≤
      burst + rate * (start.timeUntil finish).inSeconds) ∧
    ∀ last time take, takes[last]? = some (time, take) →
      (∀ start ≤ time, ((Takes.allowedWithin (takes.take last) start time).card : Rat) + 1 ≤
        burst + rate * (start.timeUntil time).inSeconds) → take.allowed = true := by
  have hunused : Metered rate burst [] ⟨0⟩ := ⟨by simp, by simp, List.Pairwise.nil, by simp⟩
  obtain ⟨last, hmetered⟩ := hunused.history hburst (hfresh ▸ .unused rfl) hordered
    (fun event _ => Nat.zero_le event.time.nanos) huniform hspared
  rw [List.nil_append] at hmetered
  refine ⟨fun index time take hget =>
      ⟨hmetered.allowed_iff _ _ _ hget, hmetered.remaining_eq _ _ _ hget⟩,
    hmetered.card_allowedWithin_le hrate (Nat.cast_nonneg _),
    fun last time take hlast => hmetered.allowed_of_room hlast⟩

/-- Takes from a bucket of two tokens that earns one in two seconds, with a sweep before it
is full. -/
def meteredRun : List (Event Rat) :=
  [⟨⟨0⟩, .take "k" (1 / 2) 2⟩, ⟨⟨0⟩, .increment "k" ⟨5⟩⟩, ⟨⟨0⟩, .take "k" (1 / 2) 2⟩,
    ⟨⟨1000000000⟩, .sweep⟩, ⟨⟨1000000000⟩, .take "k" (1 / 2) 2⟩,
    ⟨⟨1500000000⟩, .take "other" 3 1⟩, ⟨⟨2000000000⟩, .take "k" (1 / 2) 2⟩]

/-- The third take is refused, and the token that the fourth one takes has been earned by
both of the seconds. -/
theorem takes_follow_level_meteredRun :
    let takes : Takes := takesOn "k" (empty.history meteredRun)
    takes = [(⟨0⟩, ⟨true, 1⟩), (⟨0⟩, ⟨true, 0⟩), (⟨1000000000⟩, ⟨false, 1 / 2⟩),
        (⟨2000000000⟩, ⟨true, 0⟩)] ∧
      takes.level (1 / 2) (2 : Nat) 2 = 1 / 2 ∧
      ∀ start finish, ((takes.allowedWithin start finish).card : Rat) ≤
        (2 : Nat) + 1 / 2 * (start.timeUntil finish).inSeconds := by
  have hanswers : takesOn "k" (empty.history meteredRun) = [(⟨0⟩, ⟨true, 1⟩), (⟨0⟩, ⟨true, 0⟩),
      (⟨1000000000⟩, ⟨false, 1 / 2⟩), (⟨2000000000⟩, ⟨true, 0⟩)] := by
    decide +kernel
  have huniform : Uniform "k" (1 / 2 : Rat) 2 meteredRun := by
    simp +contextual [Uniform, meteredRun, eq_comm]
  have hspared : Spared "k" empty meteredRun := by decide +kernel
  obtain ⟨hlevel, hbound, -⟩ :=
    takes_follow_level (by norm_num) (by norm_num) rfl (by decide) huniform hspared
  refine ⟨hanswers, ?_, hbound⟩
  obtain ⟨-, hremaining⟩ := hlevel 2 ⟨1000000000⟩ ⟨false, 1 / 2⟩ (by rw [hanswers]; rfl)
  simpa using hremaining.symm

end Throttle.Memory
