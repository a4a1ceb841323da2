import Throttle.Proofs.Context.Ending
import Throttle.Proofs.Memory.Ticks

/-!
# The upkeep of a memory

A swept memory goes through acts: operations, notices to handles, and time.  The sweeper is a task
of its own, and when it gets to run is not in its hands.  Usually it does as soon as it has
something to do (`Act.advance`); but time may pass without it (`Act.stall`), and it then makes its
turn late (`Act.turn`).  An act is punctual if it is not of that kind.

However late the sweeper is, it goes on until its context is done, and nothing has been over for
more than an interval when its next tick is due.  In a punctual run the ticks are the whole
multiples of the interval; they come to an end with the context, and from then on nothing is removed
unless someone asks for it (`sweeper_bounds_garbage`).
-/

namespace Throttle

/-! ## The clock -/

namespace Timeline

variable {timeline : Timeline}

/-- The notices still to come are in order, and none of them is overdue. -/
structure Regular (timeline : Timeline) : Prop where
  ordered : timeline.agenda.Pairwise fun first second => first.time ≤ second.time
  coming : ∀ appointment ∈ timeline.agenda, timeline.now ≤ appointment.time

/-- What is not due by an instant is later. -/
theorem lt_of_mem_dropWhile {agenda : List Appointment} {target : Instant}
    (hordered : agenda.Pairwise fun first second => first.time ≤ second.time)
    {appointment : Appointment}
    (hmem : appointment ∈ agenda.dropWhile fun entry => decide (entry.time ≤ target)) :
    target < appointment.time := by
  induction agenda with
  | nil => cases hmem
  | cons first rest ih =>
      by_cases hdue : first.time ≤ target
      · rw [List.dropWhile_cons_of_pos (by simp [hdue])] at hmem
        exact ih hordered.of_cons hmem
      · rw [List.dropWhile_cons_of_neg (by simp [hdue])] at hmem
        have hahead : target < first.time := Nat.lt_of_not_le hdue
        rcases List.mem_cons.mp hmem with rfl | hrest
        · exact hahead
        · exact Nat.lt_of_lt_of_le hahead (List.rel_of_pairwise_cons hordered hrest)

theorem Regular.schedule (hregular : timeline.Regular) (delay : Duration) (notice : Notice) :
    (timeline.schedule delay notice).Regular := by
  refine ⟨enter_ordered _ hregular.ordered, fun entry hentry => ?_⟩
  rcases mem_enter hentry with rfl | hold
  · exact Nat.le_add_right _ _
  · exact hregular.coming entry hold

theorem Regular.advanceTo (hregular : timeline.Regular) (target : Instant) :
    (timeline.advanceTo target).Regular := by
  refine ⟨hregular.ordered.sublist (List.dropWhile_sublist _), fun entry hentry => ?_⟩
  have hahead : target < entry.time := lt_of_mem_dropWhile hregular.ordered hentry
  have hcoming := hregular.coming entry ((List.dropWhile_sublist _).subset hentry)
  exact Nat.max_le.mpr ⟨hcoming, Nat.le_of_lt hahead⟩

/-- A context is done at an instant if a wait for its end is over by then. -/
theorem Regular.isDone_advanceTo_iff (hregular : timeline.Regular) (context : Context)
    {instant : Instant} (hcoming : timeline.now ≤ instant) :
    (timeline.advanceTo instant).isDone context = true ↔
      ∃ done, timeline.doneFrom? context = some done ∧ done ≤ instant := by
  have hfirst := Timeline.firstOf_doneFrom? hregular.ordered hregular.coming context
  constructor
  · intro hdone
    cases hwait : timeline.doneFrom? context with
    | none =>
        have hempty := hfirst.eq_none_iff.mp hwait
        exact absurd ⟨hcoming, hdone⟩ (Set.eq_empty_iff_forall_notMem.mp hempty instant)
    | some done =>
        exact ⟨done, rfl, ((hfirst.eq_some_iff done).mp hwait).2 ⟨hcoming, hdone⟩⟩
  · rintro ⟨done, hwait, hle⟩
    obtain ⟨⟨-, hdone⟩, -⟩ := (hfirst.eq_some_iff done).mp hwait
    rw [← advanceTo_advanceTo timeline hle]
    exact isDone_advanceTo hdone instant

theorem now_advanceTo_after (timeline : Timeline) (duration : Duration) :
    (timeline.advanceTo (timeline.now.after duration)).now = timeline.now.after duration :=
  congrArg Instant.mk (Nat.max_eq_right (Nat.le_add_right _ _))

theorem Regular.le_doneFrom? (hregular : timeline.Regular) {context : Context} :
    ∀ done, timeline.doneFrom? context = some done → timeline.now ≤ done := by
  intro done hdone
  have hfirst := Timeline.firstOf_doneFrom? hregular.ordered hregular.coming context
  exact ((hfirst.eq_some_iff done).mp hdone).1.1

end Timeline

/-! ## A memory in use -/

/-- The ticks that are made while time passes, if the sweeper waits for the next multiple of its
interval. -/
theorem SweptMemory.exists_ticks_advanceTo {α : Type} {store : SweptMemory α} {sweeper : Sweeper}
    {timeline : Timeline} (hregular : timeline.Regular) (hwork : store.sweeper = some sweeper)
    (hdue : sweeper.due = (lastTick sweeper.interval timeline.now).after sweeper.interval)
    (target : Instant) (tickFirst : Bool) :
    ∃ ticks : List Instant, ticks.Pairwise (· < ·) ∧
      (∀ tick, tick ∈ ticks ↔ timeline.now < tick ∧ tick ≤ target ∧
        sweeper.interval.nanos ∣ tick.nanos ∧
        TickComes (timeline.doneFrom? sweeper.context) tickFirst tick) ∧
      (store.advanceTo timeline target tickFirst).memory =
        ticks.foldl Memory.sweep store.memory ∧
      (timeline.now ≤ target →
        ∀ later, (store.advanceTo timeline target tickFirst).sweeper = some later →
          later.due = (lastTick sweeper.interval target).after sweeper.interval) := by
  have hahead : timeline.now < sweeper.due := hdue ▸ lt_lastTick_after sweeper.lasting _
  have hmultiple : sweeper.interval.nanos ∣ sweeper.due.nanos :=
    hdue ▸ Nat.dvd_add (dvd_lastTick _ _) (Nat.dvd_refl _)
  obtain ⟨ticks, hordered, hticks, hswept, hwaiting⟩ :=
    @exists_ticks_runTurns α store sweeper timeline.now target
      (timeline.doneFrom? sweeper.context) tickFirst _ hwork hahead hmultiple
      hregular.le_doneFrom? (Nat.lt_succ_self _)
  have hadvance : store.advanceTo timeline target tickFirst =
      store.runTurns timeline.now (timeline.doneFrom? sweeper.context) target tickFirst
        (sweeper.ticksBy target + 1) := by
    rw [advanceTo, hwork]
  refine ⟨ticks, hordered, fun tick => ?_, hadvance ▸ hswept, fun hlater => ?_⟩
  · rw [hticks]
    constructor
    · rintro ⟨hfirst, hrest⟩
      exact ⟨Nat.lt_of_lt_of_le hahead hfirst, hrest⟩
    · rintro ⟨hfuture, htarget, hdvd, hcomes⟩
      refine ⟨?_, htarget, hdvd, hcomes⟩
      rw [hdue]
      exact after_le_of_dvd (dvd_lastTick _ _) hdvd
        (Nat.lt_of_le_of_lt (lastTick_le _ _) hfuture)
  · rw [hadvance]
    refine hwaiting ?_
    rw [hdue]
    exact Nat.add_le_add_right (Nat.le_trans (lastTick_le _ _) hlater) _

/-- A swept memory with the clock it is swept by. -/
structure TimedMemory (α : Type) where
  timeline : Timeline
  store : SweptMemory α

namespace TimedMemory

/-- What may happen to a swept memory and its clock. -/
inductive Act (α : Type) where
  /-- An operation is done now. -/
  | perform (operation : Memory.Operation α)
  /-- A handle is made. -/
  | create
  /-- A handle fires or is released now. -/
  | notify (notice : Notice)
  /-- A handle will fire or be released when some time has passed. -/
  | schedule (delay : Duration) (notice : Notice)
  /-- Time passes, and the sweeper makes its turns on the way.  If it finds a tick due and the
  context done, `tickFirst` says what chance decides. -/
  | advance (duration : Duration) (tickFirst : Bool)
  /-- Time passes, and the sweeper does not get to run. -/
  | stall (duration : Duration)
  /-- The sweeper makes a turn now. -/
  | turn (tickFirst : Bool)

/-- Whether an act does not hold the sweeper up. -/
def Act.isPunctual {α : Type} : Act α → Bool
  | .stall _ => false
  | _ => true

variable {α : Type} [Quantity α]

/-- An empty memory at the clock's start that is swept until a context is done. -/
def opened (handles : Signals) (context : Context) (interval : Duration) : TimedMemory α :=
  ⟨⟨.start, handles, []⟩, .sweptUntil context interval⟩

/-- What is left of an act. -/
def afterAct (timed : TimedMemory α) : Act α → TimedMemory α
  | .perform operation =>
      let (_, memory) := timed.store.memory.perform timed.timeline.now operation
      { timed with store := { timed.store with memory } }
  | .create => { timed with timeline := timed.timeline.create.2 }
  | .notify notice => { timed with timeline := timed.timeline.apply notice }
  | .schedule delay notice => { timed with timeline := timed.timeline.schedule delay notice }
  | .advance duration tickFirst =>
      let target := timed.timeline.now.after duration
      ⟨timed.timeline.advanceTo target, timed.store.advanceTo timed.timeline target tickFirst⟩
  | .stall duration =>
      { timed with timeline := timed.timeline.advanceTo (timed.timeline.now.after duration) }
  | .turn tickFirst =>
      let isDone := timed.store.sweeper.any fun sweeper => timed.timeline.isDone sweeper.context
      { timed with store := timed.store.turn timed.timeline.now isDone tickFirst }

/-- What is left of some acts. -/
def after (timed : TimedMemory α) (acts : List (Act α)) : TimedMemory α :=
  acts.foldl afterAct timed

/-- What holds of a swept memory whatever happens to it: the sweeper is at work until the context is
done, and as long as it is, it sees to what is held. -/
structure Tended (context : Context) (interval : Duration) (timed : TimedMemory α) : Prop where
  regular : timed.timeline.Regular
  atWork : timed.timeline.isDone context = false → timed.store.sweeper.isSome = true
  tended : timed.store.Tended context interval timed.timeline.now

/-- If the sweeper is not late, it waits for the next multiple of its interval. -/
def OnTime (interval : Duration) (timed : TimedMemory α) : Prop :=
  ∀ sweeper, timed.store.sweeper = some sweeper →
    sweeper.due = (lastTick interval timed.timeline.now).after interval

variable {context : Context} {interval : Duration} {timed : TimedMemory α}

/-- A context that is done stays done, whatever is done. -/
theorem isDone_afterAct (act : Act α) (hdone : timed.timeline.isDone context = true) :
    (timed.afterAct act).timeline.isDone context = true := by
  cases act with
  | perform operation => exact hdone
  | create =>
      refine Context.isDone_mono (Nat.le_refl _) (fun handle hfired => ?_) hdone
      simpa [afterAct, Timeline.create] using hfired
  | notify notice =>
      exact Context.isDone_mono (Nat.le_refl _)
        (fun handle => Signals.isFired_apply_of_isFired _ handle notice) hdone
  | schedule delay notice => exact hdone
  | advance duration tickFirst => exact Timeline.isDone_advanceTo hdone _
  | stall duration => exact Timeline.isDone_advanceTo hdone _
  | turn tickFirst => exact hdone

theorem isDone_of_afterAct {act : Act α}
    (hlive : (timed.afterAct act).timeline.isDone context = false) :
    timed.timeline.isDone context = false := by
  rw [← Bool.not_eq_true] at hlive ⊢
  exact fun hdone => hlive (isDone_afterAct act hdone)

omit [Quantity α] in
/-- As long as the context is not done when time has passed, the sweeper stays at work. -/
theorem Tended.isSome_sweeper_advanceTo (htended : timed.Tended context interval) {target : Instant}
    (hlater : timed.timeline.now ≤ target)
    (hlive : (timed.timeline.advanceTo target).isDone context = false) (tickFirst : Bool) :
    (timed.store.advanceTo timed.timeline target tickFirst).sweeper.isSome = true := by
  have hwork := htended.atWork (Timeline.not_isDone_of_advanceTo hlive)
  obtain ⟨sweeper, hsweeper⟩ := Option.isSome_iff_exists.mp hwork
  obtain ⟨hcontext, -, -⟩ := htended.tended sweeper hsweeper
  rw [SweptMemory.advanceTo, hsweeper]
  refine SweptMemory.isSome_sweeper_runTurns hwork (fun done hdone => ?_) _
  rw [hcontext] at hdone
  rw [← Bool.not_eq_true, htended.regular.isDone_advanceTo_iff context hlater] at hlive
  exact Nat.lt_of_not_le fun hle => hlive ⟨done, hdone, hle⟩

theorem Tended.afterAct (htended : timed.Tended context interval) (act : Act α) :
    (timed.afterAct act).Tended context interval := by
  cases act with
  | perform operation =>
      refine ⟨htended.regular, htended.atWork, fun sweeper hwork => ?_⟩
      obtain ⟨hcontext, hinterval, last, hlast, hheld, hdue⟩ := htended.tended sweeper hwork
      exact ⟨hcontext, hinterval, last, hlast, hheld.perform hlast operation, hdue⟩
  | create =>
      exact ⟨⟨htended.regular.ordered, htended.regular.coming⟩,
        fun hlive => htended.atWork (isDone_of_afterAct hlive), htended.tended⟩
  | notify notice =>
      exact ⟨⟨htended.regular.ordered, htended.regular.coming⟩,
        fun hlive => htended.atWork (isDone_of_afterAct hlive), htended.tended⟩
  | schedule delay notice =>
      exact ⟨htended.regular.schedule delay notice, htended.atWork, htended.tended⟩
  | advance duration tickFirst =>
      have hlater : timed.timeline.now ≤ timed.timeline.now.after duration := Nat.le_add_right _ _
      refine ⟨htended.regular.advanceTo _, fun hlive => ?_, ?_⟩
      · exact htended.isSome_sweeper_advanceTo hlater hlive tickFirst
      · have hnow := Timeline.now_advanceTo_after timed.timeline duration
        exact hnow.symm ▸ (htended.tended.mono hlater).advanceTo timed.timeline tickFirst
  | stall duration =>
      refine ⟨htended.regular.advanceTo _, fun hlive => ?_, ?_⟩
      · exact htended.atWork (isDone_of_afterAct hlive)
      · exact htended.tended.mono (Nat.le_max_left _ _)
  | turn tickFirst =>
      refine ⟨htended.regular, fun hlive => ?_, htended.tended.turn (Nat.le_refl _) _ _⟩
      have hwork := htended.atWork hlive
      obtain ⟨sweeper, hsweeper⟩ := Option.isSome_iff_exists.mp hwork
      obtain ⟨hcontext, -, -⟩ := htended.tended sweeper hsweeper
      have hlive : timed.timeline.isDone sweeper.context = false := hcontext ▸ hlive
      simp only [TimedMemory.afterAct, hsweeper, Option.any_some, hlive]
      exact SweptMemory.isSome_sweeper_turn hwork _

/-- A memory is tended all along. -/
theorem Tended.after (htended : timed.Tended context interval) (acts : List (Act α)) :
    (timed.after acts).Tended context interval := by
  induction acts generalizing timed with
  | nil => exact htended
  | cons act rest ih => exact ih (htended.afterAct act)

omit [Quantity α] in
theorem OnTime.ahead (honTime : timed.OnTime interval) (htended : timed.Tended context interval) :
    ∀ sweeper, timed.store.sweeper = some sweeper → timed.timeline.now < sweeper.due := by
  intro sweeper hwork
  obtain ⟨-, rfl, -⟩ := htended.tended sweeper hwork
  rw [honTime sweeper hwork]
  exact lt_lastTick_after sweeper.lasting _

/-- A sweeper that is not held up is not late. -/
theorem OnTime.afterAct (honTime : timed.OnTime interval) (htended : timed.Tended context interval)
    {act : Act α} (hpunctual : act.isPunctual = true) :
    (timed.afterAct act).OnTime interval := by
  cases act with
  | perform operation => exact honTime
  | create => exact honTime
  | notify notice => exact honTime
  | schedule delay notice => exact honTime
  | advance duration tickFirst =>
      intro later hlater
      have hnow : (timed.afterAct (.advance duration tickFirst)).timeline.now =
        timed.timeline.now.after duration := Timeline.now_advanceTo_after _ _
      cases hwork : timed.store.sweeper with
      | none =>
          simp only [TimedMemory.afterAct, SweptMemory.advanceTo, hwork] at hlater
          cases hlater
      | some sweeper =>
          obtain ⟨-, rfl, -⟩ := htended.tended sweeper hwork
          obtain ⟨-, -, -, -, hwaiting⟩ := SweptMemory.exists_ticks_advanceTo
            htended.regular hwork (honTime sweeper hwork) (timed.timeline.now.after duration)
            tickFirst
          rw [hnow]
          exact hwaiting (Nat.le_add_right _ _) later hlater
  | stall duration => cases hpunctual
  | turn tickFirst =>
      intro later hlater
      obtain ⟨-, hsame⟩ := timed.store.turn_of_ahead (honTime.ahead htended) _ tickFirst
      exact honTime later (hsame later hlater)

/-- A memory whose sweeper is not held up is swept on time all along. -/
theorem OnTime.after (honTime : timed.OnTime interval) (htended : timed.Tended context interval)
    {acts : List (Act α)} (hpunctual : ∀ act ∈ acts, act.isPunctual = true) :
    (timed.after acts).OnTime interval := by
  induction acts generalizing timed with
  | nil => exact honTime
  | cons act rest ih =>
      have hfirst := honTime.afterAct htended (hpunctual act (List.mem_cons_self ..))
      exact ih hfirst (htended.afterAct act) fun other hother =>
        hpunctual other (List.mem_cons_of_mem _ hother)

/-- A sweeper with an interval of 10 ms that is held up for 25 ms makes its next tick 10 ms later,
and not at 30 ms. -/
example :
    let timed := (opened .none ⟨[], none⟩ (.ofMillis 10) : TimedMemory Rat).after
      [.stall (.ofMillis 25), .turn true, .perform (.increment "k" (.ofMillis 1)),
        .advance (.ofMillis 9) true]
    (timed.store.memory.windows.get? "k").map Window.expiresAt = some ⟨26000000⟩ ∧
      lastTick (.ofMillis 10) timed.timeline.now = ⟨30000000⟩ ∧
      timed.store.sweeper.map Sweeper.due = some ⟨35000000⟩ := by
  decide +kernel

end TimedMemory

end Throttle
