import Throttle.Store.Sweeper

/-!
# Runs over one memory

A run is a list of events: operations with the instants at which they are done.  `history`
pairs every event with its outcome, and `after` is the memory that a run leaves.

A sweep is an operation like the others.  It may stand anywhere in a run, so a run covers
the sweeps that are asked for and those of a background sweeper alike: letting time pass
over a `SweptMemory` is a run of sweeps at its ticks (`memory_advanceTo`).
-/

namespace Throttle

namespace Memory

/-- An operation and the instant at which it is done. -/
structure Event (α : Type) where
  time : Instant
  operation : Operation α
deriving DecidableEq, Repr

variable {α : Type}

/-- No event is earlier than one before it. -/
def Chronological (events : List (Event α)) : Prop :=
  events.Pairwise fun earlier later => earlier.time ≤ later.time

instance (events : List (Event α)) : Decidable (Chronological events) :=
  inferInstanceAs (Decidable (events.Pairwise _))

theorem Chronological.of_append_cons {before later : List (Event α)} {event : Event α}
    (hordered : Chronological (before ++ event :: later)) :
    Chronological before ∧ ∀ earlier ∈ before, earlier.time ≤ event.time := by
  obtain ⟨hbefore, -, hacross⟩ := List.pairwise_append.mp hordered
  exact ⟨hbefore, fun earlier hearlier => hacross earlier hearlier event (List.mem_cons_self ..)⟩

/-! ## What one operation does to one key -/

/-- An increment on a key sets its window. -/
theorem get?_windows_increment_self (memory : Memory α) (now : Instant) (key : String)
    (window : Duration) :
    (memory.increment now key window).2.windows.get? key =
      some (((memory.windows.get? key).getD (.fresh now)).afterCall now window) :=
  Table.get?_insert_self _ _ _

/-- A sweep keeps the windows that are not over. -/
theorem get?_windows_sweep (memory : Memory α) (now : Instant) (key : String) :
    (memory.sweep now).windows.get? key =
      (memory.windows.get? key).filter fun held => decide (now < held.expiresAt) :=
  Table.get?_filter _ _ _

/-- A sweep keeps the buckets that have not expired. -/
theorem get?_buckets_sweep (memory : Memory α) (now : Instant) (key : String) :
    (memory.sweep now).buckets.get? key =
      (memory.buckets.get? key).filter fun held =>
        match held.expiresAt with
        | some full => decide (now < full)
        | none => true :=
  Table.get?_filter _ _ _

/-! ## Runs -/

variable [Quantity α]

/-- The memory after an event. -/
def afterEvent (memory : Memory α) (event : Event α) : Memory α :=
  (memory.perform event.time event.operation).2

/-- The memory after a run. -/
def after (memory : Memory α) (events : List (Event α)) : Memory α :=
  events.foldl afterEvent memory

/-- The events of a run with their outcomes. -/
def history (memory : Memory α) : List (Event α) → List (Event α × Outcome α)
  | [] => []
  | event :: rest =>
      (event, (memory.perform event.time event.operation).1) ::
        history (memory.afterEvent event) rest

@[simp] theorem after_nil (memory : Memory α) : memory.after [] = memory := rfl

@[simp] theorem after_cons (memory : Memory α) (event : Event α) (rest : List (Event α)) :
    memory.after (event :: rest) = (memory.afterEvent event).after rest := rfl

theorem after_append (memory : Memory α) (first second : List (Event α)) :
    memory.after (first ++ second) = (memory.after first).after second :=
  List.foldl_append

@[simp] theorem history_nil (memory : Memory α) : memory.history [] = [] := rfl

@[simp] theorem history_cons (memory : Memory α) (event : Event α) (rest : List (Event α)) :
    memory.history (event :: rest) =
      (event, (memory.perform event.time event.operation).1) ::
        (memory.afterEvent event).history rest := rfl

theorem history_append (memory : Memory α) (first second : List (Event α)) :
    memory.history (first ++ second) =
      memory.history first ++ (memory.after first).history second := by
  induction first generalizing memory with
  | nil => rfl
  | cons event rest ih => simp [ih]

@[simp] theorem length_history (memory : Memory α) (events : List (Event α)) :
    (memory.history events).length = events.length := by
  induction events generalizing memory with
  | nil => rfl
  | cons event rest ih => simp [ih]

/-- What an event is answered with depends only on the events before it. -/
theorem getElem?_history_append_cons (memory : Memory α) (before later : List (Event α))
    (event : Event α) :
    (memory.history (before ++ event :: later))[before.length]? =
      some (event, ((memory.after before).perform event.time event.operation).1) := by
  rw [history_append, List.getElem?_append_right (by simp)]
  simp

end Memory

/-! ## A background sweeper -/

namespace SweptMemory

variable {α : Type} [Quantity α] {store : SweptMemory α} {now target : Instant}
  {done? : Option Instant} {tickFirst : Bool}

/-- A turn sweeps now or not at all. -/
theorem memory_turn (store : SweptMemory α) (now : Instant) (isDone tickFirst : Bool) :
    ∃ sweeps : List (Memory.Event α), (∀ event ∈ sweeps, event = ⟨now, .sweep⟩) ∧
      Memory.Chronological sweeps ∧
      (store.turn now isDone tickFirst).memory = store.memory.after sweeps := by
  rcases store.turn_cases now isDone tickFirst with ⟨sweeper, -, -, hturn⟩ | ⟨-, hturn⟩ | hturn
  · refine ⟨[⟨now, .sweep⟩], fun event hevent => List.mem_singleton.mp hevent,
      List.pairwise_singleton _ _, ?_⟩
    rw [hturn]
    rfl
  · exact ⟨[], by simp, List.Pairwise.nil, by rw [hturn, Memory.after_nil]⟩
  · exact ⟨[], by simp, List.Pairwise.nil, by rw [hturn, Memory.after_nil]⟩

omit [Quantity α] in
/-- A tick puts the next one off. -/
theorem exists_due_le_of_turn {isDone : Bool} {later : Sweeper}
    (hlater : (store.turn now isDone tickFirst).sweeper = some later) :
    ∃ sweeper, store.sweeper = some sweeper ∧ sweeper.due ≤ later.due := by
  rcases store.turn_cases now isDone tickFirst with
    ⟨sweeper, hwork, hdue, hturn⟩ | ⟨-, hturn⟩ | hturn
  · rw [hturn] at hlater
    obtain rfl := Option.some.inj hlater
    exact ⟨sweeper, hwork, Nat.le_trans (Nat.le_add_right _ _) (sweeper.after_le_nextDue hdue)⟩
  · rw [hturn] at hlater
    cases hlater
  · rw [hturn] at hlater
    exact ⟨later, hlater, Nat.le_refl _⟩

/-- What turns have made of a memory: a run of sweeps, from the beginning on and up to the target,
and none of them later than the next turn. -/
structure Swept (now target : Instant) (done? : Option Instant) (memory : Memory α)
    (store : SweptMemory α) (sweeps : List (Memory.Event α)) : Prop where
  chronological : Memory.Chronological sweeps
  within : ∀ event ∈ sweeps, event.operation = .sweep ∧ now ≤ event.time ∧ event.time ≤ target
  le_wake : ∀ event ∈ sweeps, ∀ sweeper, store.sweeper = some sweeper →
    event.time ≤ sweeper.wake now done?
  memory_eq : store.memory = memory.after sweeps

theorem Swept.turn {memory : Memory α} {sweeps : List (Memory.Event α)} {sweeper : Sweeper}
    (hswept : Swept now target done? memory store sweeps) (hwork : store.sweeper = some sweeper)
    (hwake : sweeper.wake now done? ≤ target) (isDone : Bool) :
    ∃ more, Swept now target done? memory
      (store.turn (sweeper.wake now done?) isDone tickFirst) (sweeps ++ more) := by
  obtain ⟨more, hmore, hsingle, hturn⟩ :=
    store.memory_turn (sweeper.wake now done?) isDone tickFirst
  have hnow := sweeper.now_le_wake now done?
  have hbefore : ∀ event ∈ sweeps ++ more, event.time ≤ sweeper.wake now done? := by
    intro event hevent
    rcases List.mem_append.mp hevent with hearlier | hnew
    · exact hswept.le_wake event hearlier sweeper hwork
    · rw [hmore event hnew]
      exact Nat.le_refl _
  refine ⟨more, ?_, fun event hevent => ?_, fun event hevent later hlater => ?_, ?_⟩
  · refine List.pairwise_append.mpr ⟨hswept.chronological, hsingle, fun one hone other hother => ?_⟩
    rw [hmore other hother]
    exact hswept.le_wake one hone sweeper hwork
  · rcases List.mem_append.mp hevent with hearlier | hnew
    · exact hswept.within event hearlier
    · rw [hmore event hnew]
      exact ⟨rfl, hnow, hwake⟩
  · obtain ⟨found, hfound, hle⟩ := exists_due_le_of_turn hlater
    obtain rfl := Option.some.inj (hwork.symm.trans hfound)
    exact Nat.le_trans (hbefore event hevent) (Sweeper.wake_le_wake hle now done?)
  · rw [hturn, hswept.memory_eq, Memory.after_append]

theorem exists_swept_runTurns (store : SweptMemory α) (now target : Instant)
    (done? : Option Instant) (tickFirst : Bool) (turns : Nat) :
    ∃ sweeps, Swept now target done? store.memory
      (store.runTurns now done? target tickFirst turns) sweeps := by
  refine runTurns_induction (motive := fun found =>
    ∃ sweeps, Swept now target done? store.memory found sweeps) ?_ ?_ turns
  · rintro found sweeper hwork hwake ⟨sweeps, hswept⟩
    obtain ⟨more, hturn⟩ := hswept.turn hwork hwake _
    exact ⟨sweeps ++ more, hturn⟩
  · exact ⟨[], List.Pairwise.nil, by simp, by simp, rfl⟩

/-- Letting time pass over a swept memory is a run of sweeps, none of them before the clock's
time or later than the target. -/
theorem memory_advanceTo (store : SweptMemory α) (timeline : Timeline) (target : Instant)
    (tickFirst : Bool) :
    ∃ sweeps : List (Memory.Event α), Memory.Chronological sweeps ∧
      (∀ event ∈ sweeps, event.operation = .sweep ∧ timeline.now ≤ event.time ∧
        event.time ≤ target) ∧
      (store.advanceTo timeline target tickFirst).memory = store.memory.after sweeps := by
  unfold advanceTo
  split
  case h_1 hidle => exact ⟨[], List.Pairwise.nil, by simp, rfl⟩
  case h_2 sweeper hwork =>
    obtain ⟨sweeps, hswept⟩ := store.exists_swept_runTurns timeline.now target
      (timeline.doneFrom? sweeper.context) tickFirst (sweeper.ticksBy target + 1)
    exact ⟨sweeps, hswept.chronological, hswept.within, hswept.memory_eq⟩

end SweptMemory

end Throttle
