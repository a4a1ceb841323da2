import Throttle.Proofs.Memory.Held

/-!
# Ticks

The next tick of a sweeper is never due more than an interval after the last one was made, and what
is held has not expired before that (`Tended`).  This is what a turn keeps whenever it is made, be
it late or not.  A turn that finds something to do puts off the next tick or is the last one, so the
turns that are allowed for are enough (`runTurns_eq_of_le`).

A sweeper that has something to do at once makes its turn at once.  It is then never late, so its
ticks are the whole multiples of its interval, up to the end of its context; whether the one at that
very instant is made is left to chance (`exists_ticks_runTurns`).
-/

namespace Throttle

/-! ## Whole multiples of an interval -/

/-- The last whole multiple of an interval, one that is reached just now included. -/
def lastTick (interval : Duration) (now : Instant) : Instant :=
  ⟨now.nanos / interval.nanos * interval.nanos⟩

section

variable {interval : Duration} {now tick : Instant}

theorem dvd_lastTick (interval : Duration) (now : Instant) :
    interval.nanos ∣ (lastTick interval now).nanos := Nat.dvd_mul_left _ _

theorem lastTick_le (interval : Duration) (now : Instant) : lastTick interval now ≤ now :=
  Nat.div_mul_le_self _ _

theorem le_lastTick (hmultiple : interval.nanos ∣ tick.nanos) (hle : tick ≤ now) :
    tick ≤ lastTick interval now := by
  have hnanos : tick.nanos ≤ now.nanos := hle
  calc tick.nanos = tick.nanos / interval.nanos * interval.nanos :=
        (Nat.div_mul_cancel hmultiple).symm
    _ ≤ now.nanos / interval.nanos * interval.nanos :=
        Nat.mul_le_mul_right _ (Nat.div_le_div_right hnanos)

/-- No more than an interval has passed since the last multiple. -/
theorem lt_lastTick_after (hlasting : interval.nanos ≠ 0) (now : Instant) :
    now < (lastTick interval now).after interval := by
  have hsplit := Nat.div_add_mod' now.nanos interval.nanos
  have hrest := Nat.mod_lt now.nanos (Nat.pos_of_ne_zero hlasting)
  change now.nanos < now.nanos / interval.nanos * interval.nanos + interval.nanos
  omega

/-- Of two multiples the later one is an interval later at least. -/
theorem after_le_of_dvd (hfirst : interval.nanos ∣ now.nanos)
    (hsecond : interval.nanos ∣ tick.nanos) (hlater : now < tick) :
    now.after interval ≤ tick := by
  have hgap : interval.nanos ∣ tick.nanos - now.nanos := Nat.dvd_sub hsecond hfirst
  have hlater : now.nanos < tick.nanos := hlater
  have hlong := Nat.le_of_dvd (Nat.sub_pos_of_lt hlater) hgap
  change now.nanos + interval.nanos ≤ tick.nanos
  omega

end

/-- The next multiple is an interval after the last one. -/
theorem eq_lastTick_after {interval : Duration} {now next : Instant}
    (hmultiple : interval.nanos ∣ next.nanos) (hahead : now < next)
    (hnext : next ≤ now.after interval) : next = (lastTick interval now).after interval := by
  have hlong : interval.nanos ≤ next.nanos :=
    Nat.le_of_dvd (Nat.lt_of_le_of_lt (Nat.zero_le _) hahead) hmultiple
  refine Instant.eq_of_le_of_le ?_ ?_
  · have hbefore : (⟨next.nanos - interval.nanos⟩ : Instant) ≤ lastTick interval now :=
      le_lastTick (Nat.dvd_sub hmultiple (Nat.dvd_refl _)) (Nat.sub_le_iff_le_add.mpr hnext)
    exact Nat.sub_le_iff_le_add.mp hbefore
  · exact after_le_of_dvd (dvd_lastTick _ _) hmultiple (Nat.lt_of_le_of_lt (lastTick_le _ _) hahead)

namespace SweptMemory

variable {α : Type} {store : SweptMemory α} {sweeper : Sweeper} {context : Context}
  {interval : Duration} {now bound : Instant} {done? : Option Instant} {tickFirst : Bool}

/-! ## What any turn keeps -/

/-- What a sweeper with some context and interval sees to by an instant, if it is still at work:
nothing is held that had expired before its last tick, and the next one is due an interval later at
the latest. -/
def Tended (context : Context) (interval : Duration) (bound : Instant) (store : SweptMemory α) :
    Prop :=
  ∀ sweeper, store.sweeper = some sweeper →
    sweeper.context = context ∧ sweeper.interval = interval ∧
      ∃ last ≤ bound, store.memory.HeldSince last ∧ sweeper.due ≤ last.after interval

theorem Tended.mono {later : Instant} (htended : store.Tended context interval bound)
    (hlater : bound ≤ later) : store.Tended context interval later := by
  intro sweeper hwork
  obtain ⟨hcontext, hinterval, last, hlast, hheld, hdue⟩ := htended sweeper hwork
  exact ⟨hcontext, hinterval, last, Nat.le_trans hlast hlater, hheld, hdue⟩

theorem Tended.turn (htended : store.Tended context interval bound) (hnow : now ≤ bound)
    (isDone tickFirst : Bool) :
    (store.turn now isDone tickFirst).Tended context interval bound := by
  rcases store.turn_cases now isDone tickFirst with
    ⟨sweeper, hwork, hdue, hturn⟩ | ⟨-, hturn⟩ | hturn
  · obtain ⟨hcontext, hinterval, -⟩ := htended sweeper hwork
    rw [hturn]
    intro later hlater
    obtain rfl := Option.some.inj hlater
    refine ⟨hcontext, hinterval, now, hnow, store.memory.heldSince_sweep now, ?_⟩
    rw [← hinterval]
    exact sweeper.nextDue_le hdue
  · rw [hturn]
    rintro sweeper ⟨⟩
  · rwa [hturn]

/-- Turns that are made late are turns all the same. -/
theorem Tended.runTurns (htended : store.Tended context interval bound) (turns : Nat) :
    (store.runTurns now done? bound tickFirst turns).Tended context interval bound :=
  runTurns_induction (motive := SweptMemory.Tended context interval bound)
    (fun _ _ _ hwake hfound => hfound.turn hwake _ _) htended turns

theorem Tended.advanceTo (htended : store.Tended context interval bound) (timeline : Timeline)
    (tickFirst : Bool) :
    (store.advanceTo timeline bound tickFirst).Tended context interval bound := by
  unfold SweptMemory.advanceTo
  split
  case h_1 => exact htended
  case h_2 sweeper hwork => exact htended.runTurns _

/-- A sweeper that wakes up makes a tick or ends. -/
theorem turn_wake_cases (hwork : store.sweeper = some sweeper) (now : Instant)
    (done? : Option Instant) (tickFirst : Bool) :
    let wake := sweeper.wake now done?
    let turned := store.turn wake (done?.any fun done => decide (done ≤ wake)) tickFirst
    sweeper.due ≤ wake ∧
      turned.sweeper = some { sweeper with due := sweeper.nextDue wake } ∨
    turned.sweeper = none := by
  intro wake turned
  by_cases htick : sweeper.due ≤ wake ∧
      ((done?.any fun done => decide (done ≤ wake)) = true → tickFirst = true)
  · left
    refine ⟨htick.1, ?_⟩
    rw [show turned = _ from turn_of_tick hwork htick.1 htick.2]
  · right
    have hdone : (done?.any fun done => decide (done ≤ wake)) = true := by
      rcases sweeper.due_le_wake_or now done? with hdue | hdone
      · by_contra hlive
        exact htick ⟨hdue, fun hdone => absurd hdone hlive⟩
      · exact hdone
    have hlast : sweeper.due ≤ wake → tickFirst = false := fun hdue =>
      Bool.eq_false_of_not_eq_true fun hfirst => htick ⟨hdue, fun _ => hfirst⟩
    rw [show turned = _ from turn_of_end hwork hdone hlast]

/-- There are turns enough for all ticks that are due and for the end: more of them would change
nothing, however late the sweeper is. -/
theorem runTurns_eq_of_le {turns more : Nat}
    (henough : ∀ sweeper, store.sweeper = some sweeper → sweeper.ticksBy bound < turns)
    (hmore : turns ≤ more) :
    store.runTurns now done? bound tickFirst more =
      store.runTurns now done? bound tickFirst turns := by
  induction turns generalizing store more with
  | zero =>
      have hidle : store.sweeper = none :=
        Option.eq_none_iff_forall_not_mem.mpr fun sweeper hwork =>
          Nat.not_lt_zero _ (henough sweeper hwork)
      rw [runTurns_of_none hidle, runTurns_of_none hidle]
  | succ turns ih =>
      obtain ⟨more, rfl⟩ := Nat.exists_eq_add_one_of_ne_zero (Nat.ne_zero_of_lt hmore)
      unfold runTurns
      split
      case h_1 => rfl
      case h_2 sweeper hwork =>
        dsimp only
        split_ifs with hwake
        · refine ih (fun later hlater => ?_) (Nat.le_of_succ_le_succ hmore)
          rcases turn_wake_cases hwork now done? tickFirst with ⟨hdue, hticked⟩ | hended
          · obtain rfl := Option.some.inj (hticked.symm.trans hlater)
            have hfewer := Sweeper.ticksBy_le_ticksBy
              { sweeper with due := sweeper.due.after sweeper.interval }
              { sweeper with due := sweeper.nextDue (sweeper.wake now done?) }
              rfl (sweeper.after_le_nextDue hdue) bound
            have hall := henough sweeper hwork
            rw [sweeper.ticksBy_eq_succ (Nat.le_trans hdue hwake)] at hall
            exact Nat.lt_of_le_of_lt hfewer (Nat.lt_of_succ_lt_succ hall)
          · cases hended.symm.trans hlater
        · rfl

/-- A sweeper whose context is not done goes on. -/
theorem isSome_sweeper_turn (hwork : store.sweeper.isSome = true) (now : Instant) :
    (store.turn now false tickFirst).sweeper.isSome = true := by
  rcases store.turn_cases now false tickFirst with ⟨sweeper, -, -, hturn⟩ | ⟨hdone, -⟩ | hturn
  · rw [hturn]
    rfl
  · cases hdone
  · rwa [hturn]

theorem isSome_sweeper_runTurns (hwork : store.sweeper.isSome = true)
    (hlate : ∀ done, done? = some done → bound < done) (turns : Nat) :
    (store.runTurns now done? bound tickFirst turns).sweeper.isSome = true := by
  refine runTurns_induction (motive := fun found => found.sweeper.isSome = true) ?_ hwork turns
  intro found sweeper _ hwake hfound
  have hlive : (done?.any fun done => decide (done ≤ sweeper.wake now done?)) = false := by
    cases done? with
    | none => rfl
    | some done =>
        have hahead : sweeper.wake now (some done) < done :=
          Nat.lt_of_le_of_lt hwake (hlate done rfl)
        exact decide_eq_false (Nat.not_le.mpr hahead)
  rw [hlive]
  exact isSome_sweeper_turn hfound _

/-! ## Turns that are made in time -/

/-- A turn that comes before the next tick sweeps nothing and does not put the tick off. -/
theorem turn_of_ahead (hahead : ∀ sweeper, store.sweeper = some sweeper → now < sweeper.due)
    (isDone tickFirst : Bool) :
    (store.turn now isDone tickFirst).memory = store.memory ∧
      ∀ later, (store.turn now isDone tickFirst).sweeper = some later →
        store.sweeper = some later := by
  rcases store.turn_cases now isDone tickFirst with
    ⟨sweeper, hwork, hdue, -⟩ | ⟨-, hturn⟩ | hturn
  · exact absurd hdue (Nat.not_le.mpr (hahead sweeper hwork))
  · rw [hturn]
    exact ⟨rfl, by rintro later ⟨⟩⟩
  · rw [hturn]
    exact ⟨rfl, fun _ => id⟩

/-- Whether a tick is made before the context is done or, if chance so decides, in the same
instant. -/
def TickComes (done? : Option Instant) (tickFirst : Bool) (tick : Instant) : Prop :=
  ∀ done, done? = some done → tick < done ∨ tick = done ∧ tickFirst = true

theorem TickComes.due_le {tick : Instant} (hcomes : TickComes done? tickFirst tick) :
    ∀ done, done? = some done → tick ≤ done := by
  intro done hdone
  rcases hcomes done hdone with hbefore | ⟨rfl, -⟩
  · exact Nat.le_of_lt hbefore
  · exact Nat.le_refl _

theorem TickComes.of_le {earlier tick : Instant} (hcomes : TickComes done? tickFirst tick)
    (hearlier : earlier ≤ tick) : TickComes done? tickFirst earlier := by
  intro done hdone
  rcases hcomes done hdone with hbefore | ⟨rfl, hfirst⟩
  · exact .inl (Nat.lt_of_le_of_lt hearlier hbefore)
  · rcases Nat.lt_or_eq_of_le hearlier with hlt | heq
    · exact .inl hlt
    · exact .inr ⟨congrArg Instant.mk heq, hfirst⟩

/-- A sweeper makes a tick when it is due, and waits for the next one. -/
theorem runTurns_of_tick (hwork : store.sweeper = some sweeper) (hahead : now < sweeper.due)
    (hcomes : TickComes done? tickFirst sweeper.due) (hdue : sweeper.due ≤ bound) (turns : Nat) :
    store.runTurns now done? bound tickFirst (turns + 1) =
      SweptMemory.runTurns now done? bound tickFirst turns
        ⟨store.memory.sweep sweeper.due,
          some { sweeper with due := sweeper.due.after sweeper.interval }⟩ := by
  have hwake : sweeper.wake now done? = sweeper.due :=
    Sweeper.wake_eq_due (Nat.le_of_lt hahead) hcomes.due_le
  have hchance : (done?.any fun done => decide (done ≤ sweeper.due)) = true →
      tickFirst = true := by
    intro hdone
    cases done? with
    | none => cases hdone
    | some done =>
        rcases hcomes done rfl with hbefore | ⟨-, hfirst⟩
        · exact absurd (of_decide_eq_true hdone) (Nat.not_le.mpr hbefore)
        · exact hfirst
  rw [runTurns, hwork]
  dsimp only
  rw [hwake, if_pos hdue, turn_of_tick hwork (Nat.le_refl _) hchance, sweeper.nextDue_due]

/-- If no tick is made any more, nothing is swept, and a sweeper that is still at work goes on
waiting. -/
theorem runTurns_of_no_tick (hwork : store.sweeper = some sweeper) (hahead : now < sweeper.due)
    (hcoming : ∀ done, done? = some done → now ≤ done)
    (hnone : ¬ (sweeper.due ≤ bound ∧ TickComes done? tickFirst sweeper.due)) (turns : Nat) :
    store.runTurns now done? bound tickFirst (turns + 1) = { store with sweeper := none } ∨
      store.runTurns now done? bound tickFirst (turns + 1) = store ∧ bound < sweeper.due := by
  rw [runTurns, hwork]
  dsimp only
  by_cases hcomes : TickComes done? tickFirst sweeper.due
  · have hwake : sweeper.wake now done? = sweeper.due :=
      Sweeper.wake_eq_due (Nat.le_of_lt hahead) hcomes.due_le
    have hlater : ¬ sweeper.due ≤ bound := fun hdue => hnone ⟨hdue, hcomes⟩
    rw [hwake, if_neg hlater]
    exact .inr ⟨rfl, Nat.lt_of_not_le hlater⟩
  · -- the context is done first
    unfold TickComes at hcomes
    push Not at hcomes
    obtain ⟨done, hdone, hfirst, hlast⟩ := hcomes
    have hle : done ≤ sweeper.due := Nat.le_of_not_lt hfirst
    subst hdone
    rw [Sweeper.wake_eq_done (hcoming done rfl) hle]
    split_ifs with hend
    · left
      rw [turn_of_end hwork, runTurns_of_none rfl]
      · exact decide_eq_true (Nat.le_refl _)
      · intro hdue
        exact Bool.eq_false_of_not_eq_true (hlast (Instant.eq_of_le_of_le hdue hle))
    · exact .inr ⟨rfl, Nat.lt_of_lt_of_le (Nat.lt_of_not_le hend) hle⟩

/-- A sweeper that is never late makes its ticks at the whole multiples of its interval, and what
time passes over is swept at these and at no other instant.  If it is still at work, it waits for
the next multiple. -/
theorem exists_ticks_runTurns {turns : Nat} (hwork : store.sweeper = some sweeper)
    (hahead : now < sweeper.due) (hmultiple : sweeper.interval.nanos ∣ sweeper.due.nanos)
    (hcoming : ∀ done, done? = some done → now ≤ done)
    (henough : sweeper.ticksBy bound < turns) :
    ∃ ticks : List Instant, ticks.Pairwise (· < ·) ∧
      (∀ tick, tick ∈ ticks ↔ sweeper.due ≤ tick ∧ tick ≤ bound ∧
        sweeper.interval.nanos ∣ tick.nanos ∧ TickComes done? tickFirst tick) ∧
      (store.runTurns now done? bound tickFirst turns).memory =
        ticks.foldl Memory.sweep store.memory ∧
      (sweeper.due ≤ bound.after sweeper.interval →
        ∀ later, (store.runTurns now done? bound tickFirst turns).sweeper = some later →
          later.due = (lastTick sweeper.interval bound).after sweeper.interval) := by
  induction turns generalizing store sweeper with
  | zero => cases henough
  | succ turns ih =>
      by_cases htick : sweeper.due ≤ bound ∧ TickComes done? tickFirst sweeper.due
      · obtain ⟨hdue, hcomes⟩ := htick
        rw [runTurns_of_tick hwork hahead hcomes hdue]
        rw [sweeper.ticksBy_eq_succ hdue] at henough
        obtain ⟨ticks, hordered, hticks, hswept, hwaiting⟩ := @ih
          ⟨store.memory.sweep sweeper.due,
            some { sweeper with due := sweeper.due.after sweeper.interval }⟩
          { sweeper with due := sweeper.due.after sweeper.interval } rfl
          (Nat.lt_of_lt_of_le hahead (Nat.le_add_right _ _))
          (Nat.dvd_add hmultiple (Nat.dvd_refl _)) (Nat.lt_of_succ_lt_succ henough)
        refine ⟨sweeper.due :: ticks, ?_, fun tick => ?_, hswept,
          fun _ => hwaiting (Nat.add_le_add_right hdue _)⟩
        · refine List.pairwise_cons.mpr ⟨fun tick htick => ?_, hordered⟩
          obtain ⟨hnext, -⟩ := (hticks tick).mp htick
          have hlong := Nat.pos_of_ne_zero sweeper.lasting
          exact Nat.lt_of_lt_of_le (Nat.lt_add_of_pos_right hlong) hnext
        · rw [List.mem_cons, hticks]
          constructor
          · rintro (rfl | ⟨hnext, hrest⟩)
            · exact ⟨Nat.le_refl _, hdue, hmultiple, hcomes⟩
            · exact ⟨Nat.le_trans (Nat.le_add_right _ _) hnext, hrest⟩
          · rintro ⟨hfirst, htarget, hdvd, hmade⟩
            rcases Nat.lt_or_eq_of_le hfirst with hlt | heq
            · exact .inr ⟨after_le_of_dvd hmultiple hdvd hlt, htarget, hdvd, hmade⟩
            · exact .inl (congrArg Instant.mk heq.symm)
      · refine ⟨[], List.Pairwise.nil, fun tick => ?_, ?_⟩
        · refine iff_of_false List.not_mem_nil ?_
          rintro ⟨hfirst, htarget, -, hmade⟩
          exact htick ⟨Nat.le_trans hfirst htarget, hmade.of_le hfirst⟩
        · rcases runTurns_of_no_tick hwork hahead hcoming htick turns with hturns | ⟨hturns, hlater⟩
          · rw [hturns]
            exact ⟨rfl, by rintro - later ⟨⟩⟩
          · rw [hturns]
            refine ⟨rfl, fun hnear later hsome => ?_⟩
            obtain rfl := Option.some.inj (hwork.symm.trans hsome)
            exact eq_lastTick_after hmultiple hlater hnear

end SweptMemory

end Throttle
