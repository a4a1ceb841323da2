import Throttle.Store.Memory

/-!
# The background sweep

A sweeper ticks once in an interval until its context is done, and at each tick removes what has
expired.  Its loop waits for two things, the next tick and the end of the context.  If it finds that
both have come, chance decides which of them it takes up.

When the sweeper gets to run is not in its hands.  A tick that is made late is followed by the next
one an interval after it was due; if it is made later than a leeway, by one an interval after it was
made, so that ticks that were missed are not made up for.  An interval of no length means that there
is no sweeper.
-/

namespace Throttle

/-- How late a tick may be made that does not put off the next ones. -/
def tickLeeway : Duration := .ofMillis 5

/-- A sweeper at work. -/
structure Sweeper where
  /-- The time between two ticks. -/
  interval : Duration
  lasting : interval.nanos ≠ 0
  /-- The context that ends the sweeper. -/
  context : Context
  /-- When the next tick is due. -/
  due : Instant
deriving DecidableEq, Repr

namespace Sweeper

/-- When the tick after one that is made now will be due. -/
def nextDue (sweeper : Sweeper) (now : Instant) : Instant :=
  if sweeper.due.after tickLeeway < now then now.after sweeper.interval
  else sweeper.due.after sweeper.interval

/-- When the sweeper, which waits from now on, has something to do, if its context is going to be
done at an instant. -/
def wake (sweeper : Sweeper) (now : Instant) (done? : Option Instant) : Instant :=
  let next :=
    match done? with
    | some done => sweeper.due.earlier done
    | none => sweeper.due
  ⟨max now.nanos next.nanos⟩

/-- How many ticks are due up to an instant. -/
def ticksBy (sweeper : Sweeper) (target : Instant) : Nat :=
  (target.nanos + sweeper.interval.nanos - sweeper.due.nanos) / sweeper.interval.nanos

/-- A sweeper that waits longer makes fewer ticks. -/
theorem ticksBy_le_ticksBy (sweeper later : Sweeper) (hinterval : later.interval = sweeper.interval)
    (hdue : sweeper.due ≤ later.due) (target : Instant) :
    later.ticksBy target ≤ sweeper.ticksBy target := by
  unfold ticksBy
  rw [hinterval]
  exact Nat.div_le_div_right (Nat.sub_le_sub_left hdue _)

/-- Once a tick has been made when it was due, one fewer is to come. -/
theorem ticksBy_eq_succ (sweeper : Sweeper) {target : Instant} (hdue : sweeper.due ≤ target) :
    sweeper.ticksBy target =
      { sweeper with due := sweeper.due.after sweeper.interval }.ticksBy target + 1 := by
  have hpositive : 0 < sweeper.interval.nanos := Nat.pos_of_ne_zero sweeper.lasting
  have hspan : sweeper.interval.nanos ≤
      target.nanos + sweeper.interval.nanos - sweeper.due.nanos :=
    Nat.le_sub_of_add_le (Nat.add_comm .. ▸ Nat.add_le_add_right hdue _)
  unfold ticksBy
  rw [Nat.div_eq_sub_div hpositive hspan, Nat.sub_sub]
  rfl

/-- A tick puts the next one off by an interval at least. -/
theorem after_le_nextDue (sweeper : Sweeper) {now : Instant} (hdue : sweeper.due ≤ now) :
    sweeper.due.after sweeper.interval ≤ sweeper.nextDue now := by
  unfold nextDue
  split
  · exact Nat.add_le_add_right hdue _
  · exact Nat.le_refl _

theorem nextDue_le (sweeper : Sweeper) {now : Instant} (hdue : sweeper.due ≤ now) :
    sweeper.nextDue now ≤ now.after sweeper.interval := by
  unfold nextDue
  split
  · exact Nat.le_refl _
  · exact Nat.add_le_add_right hdue _

/-- A tick that is made when it is due puts off the next ones by an interval. -/
theorem nextDue_due (sweeper : Sweeper) :
    sweeper.nextDue sweeper.due = sweeper.due.after sweeper.interval :=
  if_neg (Nat.not_lt.mpr (Nat.le_add_right _ _))

theorem now_le_wake (sweeper : Sweeper) (now : Instant) (done? : Option Instant) :
    now ≤ sweeper.wake now done? := Nat.le_max_left _ _

/-- When the sweeper wakes up, a tick is due or its context is done. -/
theorem due_le_wake_or (sweeper : Sweeper) (now : Instant) (done? : Option Instant) :
    sweeper.due ≤ sweeper.wake now done? ∨
      (done?.any fun done => decide (done ≤ sweeper.wake now done?)) = true := by
  cases done? with
  | none => exact .inl (Nat.le_max_right _ _)
  | some done =>
    rcases Nat.le_total sweeper.due.nanos done.nanos with hdue | hdone
    · exact .inl (Nat.le_trans (Nat.le_min.mpr ⟨Nat.le_refl _, hdue⟩) (Nat.le_max_right _ _))
    · refine .inr (decide_eq_true ?_)
      exact Nat.le_trans (Nat.le_min.mpr ⟨hdone, Nat.le_refl _⟩) (Nat.le_max_right _ _)

theorem wake_eq_due {sweeper : Sweeper} {now : Instant} {done? : Option Instant}
    (hahead : now ≤ sweeper.due) (hlast : ∀ done, done? = some done → sweeper.due ≤ done) :
    sweeper.wake now done? = sweeper.due := by
  have hnow : max now.nanos sweeper.due.nanos = sweeper.due.nanos := Nat.max_eq_right hahead
  cases done? with
  | none => exact congrArg Instant.mk hnow
  | some done =>
    have hmin : min sweeper.due.nanos done.nanos = sweeper.due.nanos :=
      Nat.min_eq_left (hlast done rfl)
    exact congrArg Instant.mk ((congrArg (max now.nanos) hmin).trans hnow)

theorem wake_eq_done {sweeper : Sweeper} {now done : Instant} (hcoming : now ≤ done)
    (hfirst : done ≤ sweeper.due) : sweeper.wake now (some done) = done := by
  have hmin : min sweeper.due.nanos done.nanos = done.nanos := Nat.min_eq_right hfirst
  exact congrArg Instant.mk ((congrArg (max now.nanos) hmin).trans (Nat.max_eq_right hcoming))

theorem wake_le_wake {sweeper later : Sweeper} (hdue : sweeper.due ≤ later.due) (now : Instant)
    (done? : Option Instant) : sweeper.wake now done? ≤ later.wake now done? := by
  refine Nat.max_le.mpr ⟨later.now_le_wake now done?, Nat.le_trans ?_ (Nat.le_max_right _ _)⟩
  cases done? with
  | none => exact hdue
  | some done =>
    exact Nat.le_min.mpr ⟨Nat.le_trans (Nat.min_le_left _ _) hdue, Nat.min_le_right _ _⟩

end Sweeper

/-- A store in memory with a background sweep, if one is at work. -/
structure SweptMemory (α : Type) where
  memory : Memory α
  sweeper : Option Sweeper

namespace SweptMemory

variable {α : Type}

/-- An empty store without a sweeper. -/
def unswept : SweptMemory α := ⟨.empty, none⟩

/-- An empty store that is swept from the clock's start until a context is done; no interval, no
sweeper.  The very first tick, at the start, sweeps nothing. -/
def sweptUntil (context : Context) (interval : Duration) : SweptMemory α where
  memory := .empty
  sweeper :=
    if lasting : interval.nanos ≠ 0 then
      some ⟨interval, lasting, context, Instant.start.after interval⟩
    else none

/-- Whether the sweeper is still at work once it has seen how its context is. -/
def isActive (store : SweptMemory α) (timeline : Timeline) : Bool :=
  store.sweeper.any fun sweeper => !timeline.isDone sweeper.context

/-- One turn of the sweeper's loop at an instant.  If a tick is due and the context is done,
`tickFirst` says which of them is taken up. -/
def turn (store : SweptMemory α) (now : Instant) (isDone tickFirst : Bool) : SweptMemory α :=
  match store.sweeper with
  | none => store
  | some sweeper =>
    if sweeper.due ≤ now ∧ (isDone → tickFirst) then
      ⟨store.memory.sweep now, some { sweeper with due := sweeper.nextDue now }⟩
    else if isDone then { store with sweeper := none }
    else store

/-- So many turns, each made as soon as there is something to do, but none after an instant. -/
def runTurns (now : Instant) (done? : Option Instant) (target : Instant) (tickFirst : Bool) :
    Nat → SweptMemory α → SweptMemory α
  | 0, store => store
  | turns + 1, store =>
    match store.sweeper with
    | none => store
    | some sweeper =>
      let wake := sweeper.wake now done?
      if wake ≤ target then
        runTurns now done? target tickFirst turns
          (store.turn wake (done?.any fun done => decide (done ≤ wake)) tickFirst)
      else store

/-- The store when time has passed up to an instant and the sweeper could run whenever it had
something to do. -/
def advanceTo (store : SweptMemory α) (timeline : Timeline) (target : Instant)
    (tickFirst : Bool) : SweptMemory α :=
  match store.sweeper with
  | none => store
  | some sweeper =>
    -- a turn for each tick, and one for the end of the context
    store.runTurns timeline.now (timeline.doneFrom? sweeper.context) target tickFirst
      (sweeper.ticksBy target + 1)

/-! ## Small facts -/

section

variable {store : SweptMemory α} {sweeper : Sweeper} {now : Instant} {isDone tickFirst : Bool}

theorem turn_of_tick (hwork : store.sweeper = some sweeper) (hdue : sweeper.due ≤ now)
    (hfirst : isDone = true → tickFirst = true) :
    store.turn now isDone tickFirst =
      ⟨store.memory.sweep now, some { sweeper with due := sweeper.nextDue now }⟩ := by
  unfold turn
  rw [hwork]
  exact if_pos ⟨hdue, hfirst⟩

theorem turn_of_end (hwork : store.sweeper = some sweeper) (hdone : isDone = true)
    (hlast : sweeper.due ≤ now → tickFirst = false) :
    store.turn now isDone tickFirst = { store with sweeper := none } := by
  unfold turn
  rw [hwork]
  have hnot : ¬ (sweeper.due ≤ now ∧ (isDone = true → tickFirst = true)) := by
    rintro ⟨hdue, hfirst⟩
    exact Bool.false_ne_true ((hlast hdue).symm.trans (hfirst hdone))
  simp only [if_neg hnot, if_pos hdone]

/-- What a turn can come to: a tick, the end of the sweeper, or nothing. -/
theorem turn_cases (store : SweptMemory α) (now : Instant) (isDone tickFirst : Bool) :
    (∃ sweeper, store.sweeper = some sweeper ∧ sweeper.due ≤ now ∧
      store.turn now isDone tickFirst =
        ⟨store.memory.sweep now, some { sweeper with due := sweeper.nextDue now }⟩) ∨
    (isDone = true ∧ store.turn now isDone tickFirst = { store with sweeper := none }) ∨
    store.turn now isDone tickFirst = store := by
  unfold turn
  split
  case h_1 => exact .inr (.inr rfl)
  case h_2 sweeper hwork =>
    split
    case isTrue htick => exact .inl ⟨sweeper, hwork, htick.1, rfl⟩
    case isFalse =>
      split
      case isTrue hdone => exact .inr (.inl ⟨hdone, rfl⟩)
      case isFalse => exact .inr (.inr rfl)

theorem runTurns_of_none (hidle : store.sweeper = none) (done? : Option Instant)
    (target : Instant) (turns : Nat) :
    store.runTurns now done? target tickFirst turns = store := by
  cases turns with
  | zero => rfl
  | succ turns => simp only [runTurns, hidle]

/-- What every turn keeps, turns keep. -/
theorem runTurns_induction {motive : SweptMemory α → Prop} {done? : Option Instant}
    {target : Instant}
    (hturn : ∀ (found : SweptMemory α) (sweeper : Sweeper), found.sweeper = some sweeper →
      sweeper.wake now done? ≤ target → motive found →
        motive (found.turn (sweeper.wake now done?)
          (done?.any fun done => decide (done ≤ sweeper.wake now done?)) tickFirst))
    (hstart : motive store) (turns : Nat) :
    motive (store.runTurns now done? target tickFirst turns) := by
  induction turns generalizing store with
  | zero => exact hstart
  | succ turns ih =>
    unfold runTurns
    split
    case h_1 => exact hstart
    case h_2 sweeper hwork =>
      dsimp only
      split
      case isTrue hwake => exact ih (hturn store sweeper hwork hwake hstart)
      case isFalse => exact hstart

end

instance [Quantity α] : Store (SweptMemory α) α where
  increment store moment key window :=
    let (answer, memory) := Store.increment store.memory moment key window
    (answer, { store with memory })
  take store moment key rate burst :=
    let (answer, memory) := Store.take store.memory moment key rate burst
    (answer, { store with memory })

end SweptMemory

end Throttle
