import Throttle.Proofs.Context.Rounds

/-!
# Waiting agrees with looking

`Context.isDone` looks at the handles and the clock, while one who waits watches each handle on its
own and sets a timer.  Both find the same instant: the wait is over at the first instant at which
the context is done, and never if there is none (`waits_agree_with_isDone`).

What carries the proof is that a watch knows no more and no less than its handle.  After every
round each watch is in the state in which it would be had it begun just then (`Watch.poll_look`),
so it does not matter for a wait how the notices fall into rounds.  For a future under the context
it does matter in one place: at the instant at which the future comes to its end, what counts is
what is found at the first look (`firstLook`), and a notice of that instant may come after it.
-/

namespace Throttle

/-! ## One watch -/

/-- What can become of a handle in time: a new version each time it fires, and nothing once it has
been released. -/
structure Signal.Reaches (earlier later : Signal) : Prop where
  fired : earlier.fired = true → later.fired = true
  same : later.version = earlier.version → later.fired = earlier.fired
  version_le : earlier.version ≤ later.version
  final : earlier.released = true → later = earlier

namespace Signal.Reaches

theorem refl (signal : Signal) : Reaches signal signal :=
  ⟨id, fun _ => rfl, Nat.le_refl _, fun _ => rfl⟩

theorem trans {first second third : Signal} (hfirst : Reaches first second)
    (hsecond : Reaches second third) : Reaches first third where
  fired := hsecond.fired ∘ hfirst.fired
  same hversion := by
    have hlow := hfirst.version_le
    have hhigh := hsecond.version_le
    rw [hsecond.same (by omega), hfirst.same (by omega)]
  version_le := hfirst.version_le.trans hsecond.version_le
  final hreleased := by
    obtain rfl := hfirst.final hreleased
    exact hsecond.final hreleased

theorem change (notice : Notice) (signal : Signal) : Reaches signal (notice.change signal) := by
  cases notice with
  | cancel =>
      cases hreleased : signal.released with
      | true =>
          simp only [Notice.change, hreleased, if_true]
          exact refl signal
      | false =>
          simp only [Notice.change, hreleased]
          exact ⟨fun _ => rfl, fun hversion => absurd hversion (Nat.succ_ne_self _),
            Nat.le_succ _, fun hfinal => absurd hfinal (by simp [hreleased])⟩
  | release =>
      refine ⟨id, fun _ => rfl, Nat.le_refl _, fun hreleased => ?_⟩
      obtain ⟨fired, version, released⟩ := signal
      exact congrArg (Signal.mk fired version) hreleased.symm

end Signal.Reaches

theorem Signals.reaches_applyAll (handles : Signals) (notices : List Notice) (handle : Handle) :
    (handles.signal handle).Reaches ((handles.applyAll notices).signal handle) := by
  induction notices generalizing handles with
  | nil => exact .refl _
  | cons notice rest ih =>
      refine .trans ?_ (ih (handles.apply notice))
      rcases handles.signal_apply notice handle with hsame | hchanged
      · rw [hsame]
        exact .refl _
      · rw [hchanged]
        exact .change notice _

/-- A watch that goes on is where a watch would be that begins anew. -/
theorem Watch.poll_look {earlier later : Signal} (hreaches : earlier.Reaches later) :
    (look earlier).poll later = look later := by
  unfold look
  cases hfired : earlier.fired with
  | true => simp [poll, hreaches.fired hfired]
  | false =>
      cases hreleased : earlier.released with
      | true =>
          obtain rfl := hreaches.final hreleased
          simp [poll, hfired, hreleased]
      | false =>
          by_cases hversion : later.version = earlier.version
          · simp [poll, hversion, hreaches.same hversion, hfired]
          · simp [poll, hversion, look]

namespace Context

/-- The watches of one who has seen the handles as they are. -/
def watching (context : Context) (handles : Signals) : Watches :=
  context.handles.map fun handle => (handle, .look (handles.signal handle))

theorem poll_watches (context : Context) (handles : Signals) :
    context.watches.poll handles = context.watching handles := by
  simp [watches, watching, Watches.poll, Watch.poll]

theorem poll_watching (context : Context) (handles : Signals) (notices : List Notice) :
    (context.watching handles).poll (handles.applyAll notices) =
      context.watching (handles.applyAll notices) := by
  unfold watching Watches.poll
  rw [List.map_map]
  refine List.map_congr_left fun handle _ => ?_
  exact congrArg (Prod.mk handle) (Watch.poll_look (handles.reaches_applyAll notices handle))

theorem isOver_watching (context : Context) (handles : Signals) :
    (context.watching handles).isOver = context.isCanceled handles := by
  unfold watching Watches.isOver isCanceled Signals.isFired
  rw [List.any_map]
  refine congrArg (context.handles.any) (funext fun handle => ?_)
  cases hfired : (handles.signal handle).fired with
  | true => simp [Watch.look, hfired]
  | false =>
      cases hreleased : (handles.signal handle).released <;>
        simp [Watch.look, hfired, hreleased]

end Context

/-! ## The whole wait -/

/-- A timer has gone off at an instant, or it is still ahead. -/
theorem expired_or_ahead (expiry? : Option Instant) (instant : Instant) :
    (∃ expiry, expiry? = some expiry ∧ expiry ≤ instant) ∨
      ∀ expiry, expiry? = some expiry → instant < expiry := by
  by_cases hexpired : ∃ expiry, expiry? = some expiry ∧ expiry ≤ instant
  · exact Or.inl hexpired
  · exact Or.inr fun expiry hsome => Nat.lt_of_not_le fun hle => hexpired ⟨expiry, hsome, hle⟩

/-- What an optional instant says of a set: that it is the first one, or that there is none. -/
def FirstOf (instants : Set Instant) : Option Instant → Prop
  | some first => IsLeast instants first
  | none => instants = ∅

theorem FirstOf.eq_some_iff {instants : Set Instant} {first? : Option Instant}
    (hfirst : FirstOf instants first?) (instant : Instant) :
    first? = some instant ↔ IsLeast instants instant := by
  cases first? with
  | none =>
      obtain rfl : instants = ∅ := hfirst
      exact ⟨nofun, fun hleast => hleast.1.elim⟩
  | some first =>
      refine ⟨fun heq => Option.some.inj heq ▸ hfirst, fun hleast => ?_⟩
      rw [Instant.eq_of_le_of_le (hfirst.2 hleast.1) (hleast.2 hfirst.1)]

theorem FirstOf.eq_none_iff {instants : Set Instant} {first? : Option Instant}
    (hfirst : FirstOf instants first?) : first? = none ↔ instants = ∅ := by
  cases first? with
  | none => exact ⟨fun _ => hfirst, fun _ => rfl⟩
  | some first =>
      refine ⟨nofun, fun hempty => ?_⟩
      have hmem := hfirst.1
      rw [hempty] at hmem
      exact hmem.elim

theorem FirstOf.unique {instants : Set Instant} {one? two? : Option Instant}
    (hone : FirstOf instants one?) (htwo : FirstOf instants two?) : one? = two? := by
  cases two? with
  | none => exact hone.eq_none_iff.mpr htwo
  | some two => exact (hone.eq_some_iff two).mpr htwo

namespace Watches

variable {expiry? : Option Instant} {rounds : List Round} {watches : Watches} {handles : Signals}

/-- A timer that goes off before all rounds ends the wait. -/
theorem await?_of_expired {expiry : Instant} (hbefore : ∀ round ∈ rounds, expiry ≤ round.time) :
    watches.await? (some expiry) handles rounds = some expiry := by
  cases rounds with
  | nil => rfl
  | cons round later =>
      have hexpired := hbefore round (List.mem_cons_self ..)
      simp [await?, hexpired]

theorem await?_cons {round : Round} {later : List Round}
    (hahead : ∀ expiry, expiry? = some expiry → round.time < expiry) :
    watches.await? expiry? handles (round :: later) =
      if (watches.poll (handles.applyAll round.notices)).isOver then some round.time
      else (watches.poll (handles.applyAll round.notices)).await? expiry?
        (handles.applyAll round.notices) later := by
  have hnot : ¬ (expiry?.any fun expiry => decide (expiry ≤ round.time)) = true := by
    cases expiry? with
    | none => simp
    | some expiry =>
        have hlt : ¬ expiry ≤ round.time := Nat.not_le.mpr (hahead expiry rfl)
        simp [hlt]
  exact if_neg hnot

/-- Without a handle to watch there is the timer only. -/
theorem await?_nil (expiry? : Option Instant) (handles : Signals) (rounds : List Round) :
    await? expiry? [] handles rounds = expiry? := by
  induction rounds generalizing handles with
  | nil => rfl
  | cons round later ih =>
      unfold await?
      split
      · rfl
      · exact ih _

/-- A timer that goes off in time stops a future at the instant at which the wait is over. -/
theorem drive_of_expiring {expiry finish : Instant} (hintime : expiry ≤ finish) :
    ∃ first, watches.await? (some expiry) handles rounds = some first ∧
      watches.drive (some expiry) finish handles rounds = .done first := by
  have hrace : Wait.race (some expiry) finish = .done expiry := Wait.race_of_le hintime
  induction rounds generalizing watches handles with
  | nil => exact ⟨expiry, rfl, hrace⟩
  | cons round later ih =>
      unfold drive
      simp only [hrace, Wait.time]
      rcases Nat.lt_trichotomy expiry.nanos round.time.nanos with hbefore | hnow | hahead
      · have hexpired : expiry ≤ round.time := Nat.le_of_lt hbefore
        exact ⟨expiry, by simp [await?, hexpired], if_pos hbefore⟩
      · obtain rfl : expiry = round.time := congrArg Instant.mk hnow
        have hexpired : round.time ≤ round.time := Nat.le_refl _
        have hnot : ¬ round.time < round.time := Nat.lt_irrefl _
        exact ⟨round.time, by simp [await?, hexpired], by simp [hnot]⟩
      · rw [await?_cons fun other hsome => Option.some.inj hsome ▸ hahead]
        have hnot : ¬ expiry < round.time := Nat.lt_asymm hahead
        have hne : expiry ≠ round.time := fun heq => Nat.ne_of_gt hahead (congrArg _ heq)
        simp only [if_neg hnot, if_neg hne]
        split
        · exact ⟨round.time, rfl, rfl⟩
        · exact ih

/-- How far the watches have come before the first look does not matter, only what is found. -/
theorem drive_congr {other : Watches} {round : Round} {later : List Round} {finish : Instant}
    (hsame : watches.poll (handles.applyAll round.notices) =
      other.poll (handles.applyAll round.notices)) :
    watches.drive expiry? finish handles (round :: later) =
      other.drive expiry? finish handles (round :: later) := by
  unfold drive
  simp only [hsame]

theorem await?_congr {other : Watches} {round : Round} {later : List Round}
    (hsame : watches.poll (handles.applyAll round.notices) =
      other.poll (handles.applyAll round.notices)) :
    watches.await? expiry? handles (round :: later) =
      other.await? expiry? handles (round :: later) := by
  unfold await?
  simp only [hsame]

/-- Without a handle to watch the future is in a race with the timer only. -/
theorem drive_nil (expiry? : Option Instant) (finish : Instant) (handles : Signals)
    (rounds : List Round) : drive expiry? finish [] handles rounds = Wait.race expiry? finish := by
  induction rounds generalizing handles with
  | nil => rfl
  | cons round later ih =>
      unfold drive
      simp only [poll, isOver, List.map_nil, List.any_nil, Bool.false_eq_true, if_false, ih,
        ite_self]

end Watches

namespace Context

variable {context : Context} {rounds : List Round}

/-- The instants from one on at which the context is over or canceled. -/
def endings (context : Context) (begun : Instant) (expiry? : Option Instant) (handles : Signals)
    (rounds : List Round) : Set Instant :=
  {instant | begun ≤ instant ∧ ((∃ expiry, expiry? = some expiry ∧ expiry ≤ instant) ∨
    context.isCanceled (handles.applyAll (noticesBy instant rounds)) = true)}

theorem isCanceled_applyAll {handles : Signals} (notices : List Notice)
    (hcanceled : context.isCanceled handles = true) :
    context.isCanceled (handles.applyAll notices) = true := by
  obtain ⟨handle, hmem, hfired⟩ := (context.isCanceled_iff handles).mp hcanceled
  exact (context.isCanceled_iff _).mpr
    ⟨handle, hmem, Signals.isFired_applyAll_of_isFired _ handle notices hfired⟩

/-- A context with a canceled handle is done already. -/
theorem firstOf_of_canceled {expiry? : Option Instant} {handles : Signals} {begun : Instant}
    (hcanceled : context.isCanceled handles = true) :
    FirstOf (context.endings begun expiry? handles rounds) (some begun) :=
  ⟨⟨Nat.le_refl _, Or.inr (isCanceled_applyAll _ hcanceled)⟩, fun _ hmem => hmem.1⟩

/-- A timer that goes off before all rounds is the first end of a live context. -/
theorem firstOf_of_expired {expiry : Instant} {handles : Signals} {begun : Instant}
    (hbegun : begun ≤ expiry) (hbefore : ∀ round ∈ rounds, expiry ≤ round.time)
    (hlive : context.isCanceled handles = false) :
    FirstOf (context.endings begun (some expiry) handles rounds) (some expiry) := by
  refine ⟨⟨hbegun, Or.inl ⟨expiry, rfl, Nat.le_refl _⟩⟩, ?_⟩
  rintro instant ⟨-, ⟨other, hsome, hpassed⟩ | hcanceled⟩
  · exact Option.some.inj hsome ▸ hpassed
  · refine Nat.le_of_not_lt fun hlt => ?_
    rw [noticesBy_of_lt fun round hround => Nat.lt_of_lt_of_le hlt (hbefore round hround),
      Signals.applyAll_nil, hlive] at hcanceled
    exact Bool.false_ne_true hcanceled

/-- Before the next round a live context does not end, and what is left is the same wait, begun at
the round. -/
theorem endings_cons {expiry? : Option Instant} {handles : Signals} {begun : Instant}
    {round : Round} (hbegun : begun ≤ round.time)
    (hahead : ∀ expiry, expiry? = some expiry → round.time < expiry)
    (hlive : context.isCanceled handles = false) :
    context.endings begun expiry? handles (round :: rounds) =
      context.endings round.time expiry? (handles.applyAll round.notices) rounds := by
  ext instant
  by_cases hle : round.time ≤ instant
  · have hsame : handles.applyAll (noticesBy instant (round :: rounds)) =
        (handles.applyAll round.notices).applyAll (noticesBy instant rounds) := by
      rw [noticesBy_cons_of_le hle, Signals.applyAll_append]
    refine and_congr ⟨fun _ => hle, fun _ => Nat.le_trans hbegun hle⟩ ?_
    rw [hsame]
  · have hlt : instant < round.time := Nat.lt_of_not_le hle
    refine ⟨fun hmem => absurd hmem.2 ?_, fun hmem => absurd hmem.1 hle⟩
    rw [noticesBy_cons_of_lt hlt, Signals.applyAll_nil, hlive]
    rintro (⟨expiry, hsome, hpassed⟩ | hcanceled)
    · exact hle (Nat.le_trans (Nat.le_of_lt (hahead expiry hsome)) hpassed)
    · exact Bool.false_ne_true hcanceled

/-- The wait of one who has seen the handles, none of which had fired, is over at the first instant
at which the context is. -/
theorem firstOf_await? {expiry? : Option Instant} {handles : Signals} {begun : Instant}
    (hordered : rounds.Pairwise fun earlier later => earlier.time ≤ later.time)
    (hcoming : ∀ round ∈ rounds, begun ≤ round.time)
    (hexpiry : ∀ expiry, expiry? = some expiry → begun ≤ expiry)
    (hlive : context.isCanceled handles = false) :
    FirstOf (context.endings begun expiry? handles rounds)
      ((context.watching handles).await? expiry? handles rounds) := by
  induction rounds generalizing handles begun with
  | nil =>
      cases expiry? with
      | some expiry => exact firstOf_of_expired (hexpiry expiry rfl) nofun hlive
      | none =>
          refine Set.eq_empty_of_forall_notMem ?_
          rintro instant ⟨-, ⟨expiry, hnone, -⟩ | hcanceled⟩
          · cases hnone
          · exact absurd hcanceled (by simp [noticesBy, hlive])
  | cons round later ih =>
      rcases expired_or_ahead expiry? round.time with ⟨expiry, rfl, hle⟩ | hahead
      · have hbefore := forall_le_of_le_first hle hordered
        rw [Watches.await?_of_expired hbefore]
        exact firstOf_of_expired (hexpiry expiry rfl) hbefore hlive
      · rw [endings_cons (hcoming round (List.mem_cons_self ..)) hahead hlive,
          Watches.await?_cons hahead, poll_watching, isOver_watching]
        split
        case isTrue hcanceled => exact firstOf_of_canceled hcanceled
        case isFalse hstill =>
          exact ih hordered.of_cons (fun other => List.rel_of_pairwise_cons hordered)
            (fun expiry hsome => Nat.le_of_lt (hahead expiry hsome)) (by simpa using hstill)

theorem isCanceled_firstLook {handles : Signals} (instant : Instant) (rounds : List Round)
    (hcanceled : context.isCanceled handles = true) :
    context.isCanceled (firstLook handles instant rounds) = true := by
  induction rounds generalizing handles with
  | nil => exact hcanceled
  | cons round later ih =>
      unfold firstLook
      split_ifs
      · exact hcanceled
      · exact isCanceled_applyAll _ hcanceled
      · exact ih (isCanceled_applyAll _ hcanceled)

variable (rounds) in
/-- A future that comes to its end before the timer goes off is stopped if the context is canceled
at the first look at that instant, and then at the instant at which the wait is over. -/
theorem drive_of_unexpiring {expiry? : Option Instant} {finish : Instant} {handles : Signals}
    (hahead : ∀ expiry, expiry? = some expiry → finish < expiry)
    (hlive : context.isCanceled handles = false) :
    let watches := context.watching handles
    if context.isCanceled (firstLook handles finish rounds) then
      ∃ first, watches.await? expiry? handles rounds = some first ∧
        watches.drive expiry? finish handles rounds = .done first
    else watches.drive expiry? finish handles rounds = .finished finish := by
  have hrace : Wait.race expiry? finish = .finished finish :=
    Wait.race_of_forall_not_le fun expiry hsome => Nat.not_le.mpr (hahead expiry hsome)
  induction rounds generalizing handles with
  | nil =>
      rw [firstLook, hlive]
      exact hrace
  | cons round later ih =>
      intro watches
      by_cases hbefore : finish < round.time
      · rw [firstLook, if_pos hbefore, hlive]
        unfold Watches.drive
        simp only [hrace, Wait.time]
        exact if_pos hbefore
      · have hreached : round.time ≤ finish := Nat.le_of_not_lt hbefore
        rw [Watches.await?_cons fun expiry hsome =>
          Nat.lt_of_le_of_lt hreached (hahead expiry hsome)]
        unfold Watches.drive
        simp only [hrace, Wait.time, if_neg hbefore, watches, poll_watching, isOver_watching]
        cases hcanceled : context.isCanceled (handles.applyAll round.notices) with
        | true =>
            have hfound : context.isCanceled (firstLook handles finish (round :: later)) = true := by
              rw [firstLook, if_neg hbefore]
              split_ifs
              · exact hcanceled
              · exact isCanceled_firstLook _ _ hcanceled
            rw [hfound]
            exact ⟨round.time, rfl, rfl⟩
        | false =>
            rw [firstLook, if_neg hbefore]
            by_cases hnow : round.time = finish
            · rw [if_pos hnow, hcanceled, if_pos hnow.symm]
              exact if_neg Bool.false_ne_true
            · rw [if_neg hnow, if_neg (Ne.symm hnow)]
              exact ih hcanceled

/-- Someone who begins to wait has a first look at the handles. -/
theorem doneFrom?_eq (context : Context) (handles : Signals) (now : Instant) (rounds : List Round) :
    context.doneFrom? handles now rounds =
      context.watches.await? (context.expiry? now) handles (⟨now, []⟩ :: rounds) := by
  unfold doneFrom?
  split
  case isTrue hnone =>
    have hwatches : context.watches = [] := by simp [watches, List.isEmpty_iff.mp hnone]
    rw [hwatches, Watches.await?_nil]
  case isFalse => rfl

theorem le_of_expiry?_eq_some {now expiry : Instant} (hsome : context.expiry? now = some expiry) :
    now ≤ expiry := by
  obtain ⟨deadline, -, rfl⟩ := Option.map_eq_some_iff.mp hsome
  exact Nat.le_max_left _ _

/-- A wait is over at the first instant at which the context is. -/
theorem firstOf_doneFrom? {handles : Signals} {now : Instant}
    (hordered : rounds.Pairwise fun earlier later => earlier.time ≤ later.time)
    (hcoming : ∀ round ∈ rounds, now ≤ round.time) :
    FirstOf (context.endings now (context.expiry? now) handles rounds)
      (context.doneFrom? handles now rounds) := by
  rw [doneFrom?_eq]
  rcases expired_or_ahead (context.expiry? now) now with ⟨expiry, hsome, hle⟩ | hahead
  · have hbefore : ∀ other ∈ (⟨now, []⟩ : Round) :: rounds, expiry ≤ other.time :=
      forall_le_of_le_first hle (List.pairwise_cons.mpr ⟨hcoming, hordered⟩)
    rw [hsome, Watches.await?_of_expired hbefore]
    exact ⟨⟨le_of_expiry?_eq_some hsome, Or.inl ⟨expiry, rfl, Nat.le_refl _⟩⟩,
      fun instant hmem => Nat.le_trans hle hmem.1⟩
  · rw [Watches.await?_cons hahead, Signals.applyAll_nil, poll_watches, isOver_watching]
    split
    case isTrue hcanceled => exact firstOf_of_canceled hcanceled
    case isFalse hstill =>
      exact firstOf_await? hordered hcoming (fun _ hsome => le_of_expiry?_eq_some hsome)
        (by simpa using hstill)

/-- The clock finds the context over or canceled at the same instants. -/
theorem endings_eq (context : Context) {timeline : Timeline}
    (hordered : rounds.Pairwise fun earlier later => earlier.time ≤ later.time)
    (hagenda : timeline.agenda = rounds.flatMap Round.appointments) :
    context.endings timeline.now (context.expiry? timeline.now) timeline.handles rounds =
      {instant | timeline.now ≤ instant ∧
        (timeline.advanceTo instant).isDone context = true} := by
  ext instant
  refine and_congr_right fun hbegun => ?_
  have hnow : (timeline.advanceTo instant).now = instant :=
    congrArg Instant.mk (Nat.max_eq_right hbegun)
  rw [Timeline.isDone, isDone_iff, handles_advanceTo hordered hagenda, hnow, isOver_iff]
  refine or_congr_left ?_
  constructor
  · rintro ⟨expiry, hsome, hpassed⟩
    obtain ⟨deadline, hdeadline, rfl⟩ := Option.map_eq_some_iff.mp hsome
    exact ⟨deadline, hdeadline, Nat.le_trans (Nat.le_max_right _ _) hpassed⟩
  · rintro ⟨deadline, hdeadline, hpassed⟩
    exact ⟨_, Option.map_eq_some_iff.mpr ⟨deadline, hdeadline, rfl⟩,
      Nat.max_le.mpr ⟨hbegun, hpassed⟩⟩

/-- A context that is done is still done at any later look. -/
theorem isDone_firstLook {handles : Signals} {now instant : Instant} (hlater : now ≤ instant)
    (rounds : List Round) (hdone : context.isDone handles now = true) :
    context.isDone (firstLook handles instant rounds) instant = true := by
  rcases (context.isDone_iff _ _).mp hdone with hover | hcanceled
  · obtain ⟨deadline, hdeadline, hpassed⟩ := (context.isOver_iff now).mp hover
    exact (context.isDone_iff _ _).mpr (Or.inl ((context.isOver_iff instant).mpr
      ⟨deadline, hdeadline, Nat.le_trans hpassed hlater⟩))
  · exact (context.isDone_iff _ _).mpr (Or.inr (isCanceled_firstLook _ _ hcanceled))

/-- A future under a context is stopped if the context is done at the first look at the instant at
which the future comes to its end, and then at the instant at which a wait is over. -/
theorem run_cases (context : Context) (handles : Signals) {now finish : Instant}
    (hfinish : now ≤ finish)
    (hordered : rounds.Pairwise fun earlier later => earlier.time ≤ later.time)
    (hcoming : ∀ round ∈ rounds, now ≤ round.time) :
    if context.isDone (firstLook handles finish (⟨now, []⟩ :: rounds)) finish then
      ∃ first, context.doneFrom? handles now rounds = some first ∧
        context.run handles now finish rounds = .done first
    else context.run handles now finish rounds = .finished finish := by
  cases hdone : context.isDone handles now with
  | true =>
      have hmem : now ∈ context.endings now (context.expiry? now) handles rounds := by
        refine ⟨Nat.le_refl _, ((context.isDone_iff handles now).mp hdone).imp ?_ ?_⟩
        · intro hover
          obtain ⟨deadline, hdeadline, hpassed⟩ := (context.isOver_iff now).mp hover
          exact ⟨_, Option.map_eq_some_iff.mpr ⟨deadline, hdeadline, rfl⟩,
            Nat.max_le.mpr ⟨Nat.le_refl _, hpassed⟩⟩
        · exact isCanceled_applyAll _
      rw [isDone_firstLook hfinish _ hdone]
      exact ⟨now, ((firstOf_doneFrom? hordered hcoming).eq_some_iff now).mpr
        ⟨hmem, fun _ hother => hother.1⟩, if_pos hdone⟩
  | false =>
      have hlive : context.isCanceled handles = false := by
        rw [← Bool.not_eq_true] at hdone ⊢
        exact fun hcanceled => hdone ((context.isDone_iff _ _).mpr (Or.inr hcanceled))
      have hpoll : context.watches.poll (handles.applyAll (⟨now, []⟩ : Round).notices) =
          (context.watching handles).poll (handles.applyAll (⟨now, []⟩ : Round).notices) := by
        rw [poll_watching, Signals.applyAll_nil, poll_watches]
      have hrun : context.run handles now finish rounds =
          (context.watching handles).drive (context.expiry? now) finish handles
            (⟨now, []⟩ :: rounds) := by
        rw [← Watches.drive_congr hpoll, run, hdone, if_neg Bool.false_ne_true]
        split
        case isTrue hnone =>
          have hwatches : context.watches = [] := by simp [watches, List.isEmpty_iff.mp hnone]
          rw [hwatches, Watches.drive_nil]
        case isFalse => rfl
      rw [hrun, doneFrom?_eq, Watches.await?_congr hpoll]
      rcases expired_or_ahead (context.expiry? now) finish with ⟨expiry, hsome, hle⟩ | hahead
      · have hover : context.isOver finish = true := by
          obtain ⟨deadline, hdeadline, rfl⟩ := Option.map_eq_some_iff.mp hsome
          exact (context.isOver_iff finish).mpr
            ⟨deadline, hdeadline, Nat.le_trans (Nat.le_max_right _ _) hle⟩
        rw [(context.isDone_iff _ _).mpr (Or.inl hover), hsome]
        exact Watches.drive_of_expiring hle
      · have hnotover : context.isOver finish = false := by
          rw [← Bool.not_eq_true, context.isOver_iff]
          rintro ⟨deadline, hdeadline, hpassed⟩
          have hlate := hahead _ (Option.map_eq_some_iff.mpr ⟨deadline, hdeadline, rfl⟩)
          exact Nat.not_le.mpr hlate (Nat.max_le.mpr ⟨hfinish, hpassed⟩)
        have hfound := drive_of_unexpiring (⟨now, []⟩ :: rounds) hahead hlive
        rwa [← Bool.false_or (context.isCanceled _), ← hnotover] at hfound

end Context

section Gathered

variable {timeline : Timeline}

theorem coming_gather
    (hcoming : ∀ appointment ∈ timeline.agenda, timeline.now ≤ appointment.time) :
    ∀ round ∈ gather timeline.agenda, timeline.now ≤ round.time := by
  intro round hround
  obtain ⟨appointment, hmem, htime⟩ := exists_appointment_of_mem_gather hround
  exact htime ▸ hcoming appointment hmem

/-- Whoever waits for the end of a context is told the first instant at which it is done. -/
theorem Timeline.firstOf_doneFrom?
    (hordered : timeline.agenda.Pairwise fun first second => first.time ≤ second.time)
    (hcoming : ∀ appointment ∈ timeline.agenda, timeline.now ≤ appointment.time)
    (context : Context) :
    FirstOf {instant | timeline.now ≤ instant ∧ (timeline.advanceTo instant).isDone context = true}
      (timeline.doneFrom? context) := by
  rw [← context.endings_eq (ordered_gather hordered) (flatMap_appointments_gather _).symm]
  exact Context.firstOf_doneFrom? (ordered_gather hordered) (coming_gather hcoming)

end Gathered

end Throttle
