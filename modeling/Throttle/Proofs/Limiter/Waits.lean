import Mathlib.Logic.Basic
import Throttle.Limiter.Verdict

/-!
# Longer waits

Of two verdicts that differ only in the wait, the one with the longer wait should never tell its
client to come back sooner.  Both renderings of the wait can.  The milliseconds are told in a word
of 64 bits, which runs over; the point of the wall clock is told only as far as the calendar goes,
and beyond it the client is told to come back now.  `waits_keep_order_iff` says for which two waits
the order is kept.  What is told is never before now, either way.
-/

namespace Throttle

/-- How often a word of 64 bits runs over when the milliseconds of a duration are counted in it. -/
def Duration.overruns (duration : Duration) : Nat := duration.millis / twoTo 64

/-- The wall time a duration later. -/
def WallTime.after (wall : WallTime) (duration : Duration) : WallTime :=
  ⟨wall.nanos + duration.nanos⟩

/-- The wall time a duration later can be told: the duration can be added, and the calendar goes
that far. -/
def WallTime.Reaches (wall : WallTime) (duration : Duration) : Prop :=
  duration ≤ longestStep ∧ (wall.after duration).nanos ≤ calendar.last.nanos

/-- The verdict with another wait. -/
def Verdict.awaiting (verdict : Verdict) (wait : Duration) : Verdict :=
  { verdict with resetAfter := wait }

variable {shorter longer wait : Duration} {wall : WallTime}

/-! ## Counting in a word -/

theorem Duration.millis_le_millis (hle : shorter ≤ longer) : shorter.millis ≤ longer.millis :=
  Nat.div_le_div_right hle

theorem Duration.overruns_le_overruns (hle : shorter ≤ longer) :
    shorter.overruns ≤ longer.overruns :=
  Nat.div_le_div_right (millis_le_millis hle)

/-- The rests of two numbers are in their order unless the word runs over once more between them
than their difference tells. -/
theorem mod_le_mod_iff {small large word : Nat} (hle : small ≤ large) :
    small % word ≤ large % word ↔ (large / word - small / word) * word ≤ large - small := by
  have hsmall := Nat.div_add_mod' small word
  have hlarge := Nat.div_add_mod' large word
  obtain ⟨more, hmore⟩ := Nat.exists_eq_add_of_le (Nat.div_le_div_right (c := word) hle)
  rw [hmore, Nat.add_mul] at hlarge
  rw [hmore, Nat.add_sub_cancel_left]
  omega

/-! ## Telling a point of the wall clock -/

theorem WallTime.seconds_le_seconds {first second : WallTime} (hle : first.nanos ≤ second.nanos) :
    first.seconds ≤ second.seconds :=
  Int.ediv_le_ediv (by decide) hle

theorem WallTime.nanos_le_after (wall : WallTime) (wait : Duration) :
    wall.nanos ≤ (wall.after wait).nanos :=
  Int.le_add_of_nonneg_right (Int.natCast_nonneg wait.nanos)

theorem WallTime.after_le_after (wall : WallTime) (hle : shorter ≤ longer) :
    (wall.after shorter).nanos ≤ (wall.after longer).nanos :=
  Int.add_le_add_left (Int.ofNat_le.mpr hle) wall.nanos

/-- Whatever can be told of a longer wait can be told of a shorter one. -/
theorem WallTime.Reaches.mono (hreaches : wall.Reaches longer) (hle : shorter ≤ longer) :
    wall.Reaches shorter :=
  ⟨Nat.le_trans hle hreaches.1, Int.le_trans (wall.after_le_after hle) hreaches.2⟩

namespace Verdict

variable {verdict : Verdict}

theorem resetTime_of_reaches (hreaches : wall.Reaches wait) :
    (verdict.awaiting wait).resetTime wall = wall.after wait :=
  if_pos hreaches

theorem resetTime_of_not_reaches (hbeyond : ¬ wall.Reaches wait) :
    (verdict.awaiting wait).resetTime wall = wall :=
  if_neg hbeyond

/-- The milliseconds that are told are in order unless the word runs over in between. -/
theorem resetMillis_le_iff (hle : shorter ≤ longer) :
    (verdict.awaiting shorter).resetMillis ≤ (verdict.awaiting longer).resetMillis ↔
      (longer.overruns - shorter.overruns) * twoTo 64 ≤ longer.millis - shorter.millis := by
  unfold resetMillis awaiting Duration.overruns
  exact mod_le_mod_iff (Duration.millis_le_millis hle)

theorem resetMillis_of_overruns (hnone : wait.overruns = 0) :
    (verdict.awaiting wait).resetMillis = wait.millis :=
  Nat.mod_eq_of_lt (Nat.lt_of_div_eq_zero (twoTo_pos 64) hnone)

/-- What is told is never before now. -/
theorem seconds_le_resetTime (verdict : Verdict) (wall : WallTime) (wait : Duration) :
    wall.seconds ≤ ((verdict.awaiting wait).resetTime wall).seconds := by
  by_cases hreaches : wall.Reaches wait
  · rw [resetTime_of_reaches hreaches]
    exact WallTime.seconds_le_seconds (wall.nanos_le_after wait)
  · exact Int.le_of_eq (congrArg WallTime.seconds (resetTime_of_not_reaches hreaches).symm)

/-- The points that are told are in order unless only the earlier one can be told and is not now. -/
theorem resetTime_le_iff (hle : shorter ≤ longer) :
    ((verdict.awaiting shorter).resetTime wall).seconds ≤
        ((verdict.awaiting longer).resetTime wall).seconds ↔
      wall.Reaches longer ∨
        (wall.Reaches shorter → (wall.after shorter).seconds = wall.seconds) := by
  by_cases hlonger : wall.Reaches longer
  · rw [resetTime_of_reaches hlonger, resetTime_of_reaches (hlonger.mono hle)]
    exact iff_of_true (WallTime.seconds_le_seconds (wall.after_le_after hle)) (Or.inl hlonger)
  · rw [resetTime_of_not_reaches hlonger, or_iff_right hlonger]
    by_cases hshorter : wall.Reaches shorter
    · have hlater := WallTime.seconds_le_seconds (wall.nanos_le_after shorter)
      rw [resetTime_of_reaches hshorter, imp_iff_right hshorter]
      exact ⟨fun hback => Int.le_antisymm hback hlater, Int.le_of_eq⟩
    · rw [resetTime_of_not_reaches hshorter]
      exact iff_of_true (Int.le_refl _) fun hreaches => absurd hreaches hshorter

/-! ## The two renderings -/

/-- Only the last member of the object depends on the wait. -/
theorem exists_json_eq (verdict : Verdict) :
    ∃ front, ∀ wait, (verdict.awaiting wait).json = front ++ ",\"reset_after_ms\":" ++
      toString (verdict.awaiting wait).resetMillis ++ "\x7d" :=
  ⟨"\x7b\"allowed\":" ++ (if verdict.allowed then "true" else "false") ++
    ",\"limit\":" ++ toString verdict.limit ++
    ",\"remaining\":" ++ toString verdict.remaining, fun _ => rfl⟩

/-- Only the last header depends on the wait. -/
theorem exists_headersAt_eq (verdict : Verdict) (wall : WallTime) :
    ∃ front, ∀ wait, (verdict.awaiting wait).headersAt wall = front ++
      [("X-RateLimit-Reset", Decimal.wholeText ((verdict.awaiting wait).resetTime wall).seconds)] :=
  ⟨[("X-RateLimit-Limit", toString verdict.limit),
    ("X-RateLimit-Remaining", toString verdict.remaining)], fun _ => rfl⟩

/-- **When a longer wait is told as one.**  Only the last member of the object and the last header
depend on the wait.  The milliseconds of two waits are told in their order exactly if the word runs
over between them no more often than their difference tells, and as they are if it never does.  The
points of the wall clock are told in their order exactly if the later one can be told, or the
earlier one cannot or is in the second that it is now.  None of them is before now. -/
theorem waits_keep_order_iff (verdict : Verdict) (wall : WallTime) :
    (∃ front, ∀ wait, (verdict.awaiting wait).json = front ++ ",\"reset_after_ms\":" ++
      toString (verdict.awaiting wait).resetMillis ++ "\x7d") ∧
    (∃ front, ∀ wait, (verdict.awaiting wait).headersAt wall = front ++
      [("X-RateLimit-Reset",
        Decimal.wholeText ((verdict.awaiting wait).resetTime wall).seconds)]) ∧
    ∀ shorter longer : Duration, shorter ≤ longer →
      let soon := verdict.awaiting shorter
      let late := verdict.awaiting longer
      (soon.resetMillis ≤ late.resetMillis ↔
        (longer.overruns - shorter.overruns) * twoTo 64 ≤ longer.millis - shorter.millis) ∧
      (longer.overruns = 0 →
        soon.resetMillis = shorter.millis ∧ late.resetMillis = longer.millis) ∧
      ((soon.resetTime wall).seconds ≤ (late.resetTime wall).seconds ↔ wall.Reaches longer ∨
        (wall.Reaches shorter → (wall.after shorter).seconds = wall.seconds)) ∧
      wall.seconds ≤ (soon.resetTime wall).seconds ∧
      wall.seconds ≤ (late.resetTime wall).seconds := by
  refine ⟨exists_json_eq verdict, exists_headersAt_eq verdict wall, fun shorter longer hle => ?_⟩
  refine ⟨resetMillis_le_iff hle, fun hnone => ?_, resetTime_le_iff hle,
    seconds_le_resetTime verdict wall shorter, seconds_le_resetTime verdict wall longer⟩
  have hless := Duration.overruns_le_overruns hle
  exact ⟨resetMillis_of_overruns (Nat.le_zero.mp (hnone ▸ hless)), resetMillis_of_overruns hnone⟩

/-- Waits across the start of 1970, told in their order. -/
theorem waits_keep_order_iff_across :
    let verdict : Verdict := ⟨false, 3, 0, .zero⟩
    let wall : WallTime := ⟨-1⟩
    let soon := verdict.awaiting (.ofMillis 1250)
    let late := verdict.awaiting (.ofMillis 30500)
    soon.resetMillis ≤ late.resetMillis ∧
      (soon.resetTime wall).seconds ≤ (late.resetTime wall).seconds ∧
      -1 ≤ (soon.resetTime wall).seconds := by
  intro verdict wall soon late
  obtain ⟨-, -, horder⟩ := waits_keep_order_iff verdict wall
  obtain ⟨hmillis, -, hseconds, hnow, -⟩ :=
    horder (.ofMillis 1250) (.ofMillis 30500) (by decide)
  exact ⟨hmillis.mpr (by decide), hseconds.mpr (Or.inl ⟨by decide, by decide⟩), hnow⟩

/-- The word runs over, and the calendar ends: a client that has to wait for `2 ^ 64` milliseconds
is told both times to come back at once, and sooner than one that has to wait for a second. -/
theorem longer_wait_told_as_none :
    let verdict : Verdict := ⟨true, 1, 0, .zero⟩
    let wall : WallTime := ⟨1700000000 * nanosPerSecond⟩
    let soon := verdict.awaiting (.ofSeconds 1)
    let late := verdict.awaiting (.ofMillis (twoTo 64))
    soon.resetAfter ≤ late.resetAfter ∧ late.resetAfter ≤ .longest ∧
      calendar.first.nanos ≤ wall.nanos ∧ wall.nanos ≤ calendar.last.nanos ∧
      late.resetMillis < soon.resetMillis ∧
      late.json = "\x7b\"allowed\":true,\"limit\":1,\"remaining\":0,\"reset_after_ms\":0\x7d" ∧
      (soon.headersAt wall).getLast? = some ("X-RateLimit-Reset", "1700000001") ∧
      (late.headersAt wall).getLast? = some ("X-RateLimit-Reset", "1700000000") := by
  decide +kernel

end Verdict

end Throttle
