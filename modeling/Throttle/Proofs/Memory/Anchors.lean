import Mathlib.Data.List.Induction
import Throttle.Proofs.Memory.Run

/-!
# Windows are anchored

The calls of one key, and nothing else in a run, decide what its increments are answered
with.  The first call *anchors* a window, and so does the first call at or after the end of
the window before (`Anchors`); the window that is current after some calls is the one whose
end none of them has reached (`CurrentAnchor`).

A memory does not keep the anchors.  What it holds of a key is tied to them by `Tracks`:
either the current window with the calls in it, or nothing, and then the current window is
over and a sweep has removed it.  The entry of a window that is over may also still be held;
no call can tell the two apart, since the next one anchors a new window in both cases.
-/

namespace Throttle.Memory

/-- A call of a key: when it is made, and the window it asks for. -/
structure Call where
  time : Instant
  window : Duration
deriving DecidableEq, Repr

/-- When the window ends that a call anchors: after the length it asks for, or after 365
days if that instant cannot be represented. -/
def Call.windowEnd (call : Call) : Instant := Window.endOf call.time call.window

theorem Call.le_windowEnd (call : Call) : call.time ≤ call.windowEnd := by
  unfold windowEnd Window.endOf
  cases hafter : call.time.after? call.window with
  | none => exact Nat.le_add_right _ _
  | some finish =>
      rw [Option.getD_some, Instant.after?_eq_some hafter]
      exact Nat.le_add_right _ _

/-- A call that anchors a window, by its number among the calls of the key.  The first call
does, and so does the first one at or after the end of the window before. -/
inductive Anchors (calls : List Call) : Nat → Call → Prop
  | first {anchor : Call} (hcall : calls[0]? = some anchor) : Anchors calls 0 anchor
  | next {previous position : Nat} {held anchor : Call}
      (hprevious : Anchors calls previous held) (hlater : previous < position)
      (hcall : calls[position]? = some anchor) (hover : held.windowEnd ≤ anchor.time)
      (hfirst : ∀ between call, previous < between → between < position →
        calls[between]? = some call → call.time < held.windowEnd) :
      Anchors calls position anchor

/-- The anchor of the window that is current after some calls: the calls behind it all come
before the end of its window. -/
structure CurrentAnchor (calls : List Call) (position : Nat) (anchor : Call) : Prop where
  anchors : Anchors calls position anchor
  within : ∀ later call, position < later → calls[later]? = some call →
    call.time < anchor.windowEnd

namespace Anchors

variable {calls : List Call} {position : Nat} {anchor : Call}

theorem getElem?_eq (hanchors : Anchors calls position anchor) :
    calls[position]? = some anchor := by
  cases hanchors <;> assumption

theorem lt_length (hanchors : Anchors calls position anchor) : position < calls.length := by
  obtain ⟨hlt, -⟩ := List.getElem?_eq_some_iff.mp hanchors.getElem?_eq
  exact hlt

private theorem getElem?_append_of_some {index : Nat} {call : Call}
    (hcall : calls[index]? = some call) (more : List Call) :
    (calls ++ more)[index]? = some call := by
  rw [List.getElem?_append_left (List.getElem?_eq_some_iff.mp hcall).1, hcall]

/-- Later calls do not change what has anchored a window. -/
theorem append (hanchors : Anchors calls position anchor) (more : List Call) :
    Anchors (calls ++ more) position anchor := by
  induction hanchors with
  | first hcall => exact .first (getElem?_append_of_some hcall more)
  | next hprevious hlater hcall hover hfirst ih =>
      refine .next ih hlater (getElem?_append_of_some hcall more) hover ?_
      intro between call hbetween hbefore hget
      have hlt := (List.getElem?_eq_some_iff.mp hcall).1
      rw [List.getElem?_append_left (by omega)] at hget
      exact hfirst between call hbetween hbefore hget

/-- Between one anchor and a later one some call has reached the end of the first window. -/
theorem exists_over {later : Nat} {other : Call} (hanchors : Anchors calls position anchor)
    (hother : Anchors calls later other) (hlt : position < later) :
    ∃ between call, position < between ∧ between ≤ later ∧ calls[between]? = some call ∧
      anchor.windowEnd ≤ call.time := by
  induction later using Nat.strongRecOn generalizing position anchor other with
  | ind later ih =>
      cases hother with
      | first => omega
      | @next previous _ held _ hprevious hlater hcall hover hfirst =>
          rcases Nat.lt_trichotomy position previous with hbefore | rfl | hafter
          · obtain ⟨between, call, hlow, hhigh, hget, hreached⟩ :=
              ih previous hlater hanchors hprevious hbefore
            exact ⟨between, call, hlow, by omega, hget, hreached⟩
          · have heq : held = anchor :=
              Option.some.inj (hprevious.getElem?_eq.symm.trans hanchors.getElem?_eq)
            exact ⟨later, other, hlt, Nat.le_refl _, hcall, heq ▸ hover⟩
          · -- an anchor between two successive ones would have ended the first window itself
            obtain ⟨between, call, hlow, hhigh, hget, hreached⟩ :=
              ih position hlt hprevious hanchors hafter
            have hinside := hfirst between call hlow (by omega) hget
            exact absurd hinside (Nat.not_lt.mpr hreached)

end Anchors

namespace CurrentAnchor

variable {calls : List Call} {position other : Nat} {anchor otherAnchor : Call}

/-- There is one current window only. -/
theorem unique (hcurrent : CurrentAnchor calls position anchor)
    (hother : CurrentAnchor calls other otherAnchor) : position = other ∧ anchor = otherAnchor := by
  have hnot : ∀ {first second : Nat} {one two : Call}, CurrentAnchor calls first one →
      CurrentAnchor calls second two → ¬ first < second := by
    intro first second one two hone htwo hlt
    obtain ⟨between, call, hlow, -, hget, hreached⟩ := hone.anchors.exists_over htwo.anchors hlt
    exact absurd (hone.within between call hlow hget) (Nat.not_lt.mpr hreached)
  have heq : position = other := by
    have := hnot hcurrent hother
    have := hnot hother hcurrent
    omega
  subst heq
  exact ⟨rfl, Option.some.inj (hcurrent.anchors.getElem?_eq.symm.trans
    hother.anchors.getElem?_eq)⟩

/-- The first call of all anchors the current window. -/
theorem singleton (call : Call) : CurrentAnchor [call] 0 call := by
  refine ⟨.first rfl, ?_⟩
  intro later other hlater hget
  rw [List.getElem?_eq_none (by simp; omega)] at hget
  cases hget

/-- A call before the end of the current window falls into it. -/
theorem append_of_lt (hcurrent : CurrentAnchor calls position anchor) {call : Call}
    (hinside : call.time < anchor.windowEnd) :
    CurrentAnchor (calls ++ [call]) position anchor := by
  refine ⟨hcurrent.anchors.append [call], ?_⟩
  intro later other hlater hget
  rcases Nat.lt_or_ge later calls.length with hold | hnew
  · rw [List.getElem?_append_left hold] at hget
    exact hcurrent.within later other hlater hget
  · rw [List.getElem?_append_right hnew, List.getElem?_singleton] at hget
    split at hget
    · exact Option.some.inj hget ▸ hinside
    · cases hget

/-- A call at or after the end of the current window anchors the next one. -/
theorem append_of_le (hcurrent : CurrentAnchor calls position anchor) {call : Call}
    (hover : anchor.windowEnd ≤ call.time) :
    CurrentAnchor (calls ++ [call]) calls.length call := by
  refine ⟨.next (hcurrent.anchors.append [call]) hcurrent.anchors.lt_length (by simp) hover ?_, ?_⟩
  · intro between other hbetween hbefore hget
    rw [List.getElem?_append_left hbefore] at hget
    exact hcurrent.within between other hbetween hget
  · intro later other hlater hget
    rw [List.getElem?_eq_none (by simp; omega)] at hget
    cases hget

/-- The last call does not come after the end of the current window. -/
theorem time_le_windowEnd {call : Call}
    (hcurrent : CurrentAnchor (calls ++ [call]) position anchor) :
    call.time ≤ anchor.windowEnd := by
  have hlast : (calls ++ [call])[calls.length]? = some call := by simp
  have hposition := hcurrent.anchors.lt_length
  rw [List.length_append, List.length_singleton] at hposition
  rcases Nat.lt_or_eq_of_le (Nat.le_of_lt_succ hposition) with hlt | rfl
  · exact Nat.le_of_lt (hcurrent.within _ call hlt hlast)
  · have heq : anchor = call :=
      Option.some.inj (hcurrent.anchors.getElem?_eq.symm.trans hlast)
    exact heq ▸ anchor.le_windowEnd

end CurrentAnchor

/-! ## What a memory holds of a key -/

/-- What is held of a key after its calls, as seen at an instant. -/
inductive Tracks (now : Instant) (calls : List Call) : Option Window → Prop
  /-- The key has not been called. -/
  | unused (hcalls : calls = []) : Tracks now calls none
  /-- The current window is held, whether it is over or not. -/
  | held {position : Nat} {anchor : Call} (hcurrent : CurrentAnchor calls position anchor) :
      Tracks now calls (some ⟨calls.length - position, anchor.windowEnd⟩)
  /-- The current window was over when it was swept. -/
  | swept {position : Nat} {anchor : Call} (hcurrent : CurrentAnchor calls position anchor)
      (hover : anchor.windowEnd ≤ now) : Tracks now calls none

namespace Tracks

variable {now : Instant} {calls : List Call} {held? : Option Window}

theorem later (htracks : Tracks now calls held?) {later : Instant} (hlater : now ≤ later) :
    Tracks later calls held? := by
  cases htracks with
  | unused hcalls => exact .unused hcalls
  | held hcurrent => exact .held hcurrent
  | swept hcurrent hover => exact .swept hcurrent (Nat.le_trans hover hlater)

theorem sweep (htracks : Tracks now calls held?) :
    Tracks now calls (held?.filter fun held => decide (now < held.expiresAt)) := by
  cases htracks with
  | unused hcalls => exact .unused hcalls
  | swept hcurrent hover => exact .swept hcurrent hover
  | @held position anchor hcurrent =>
      by_cases hlasting : now < anchor.windowEnd
      · rw [Option.filter_some_pos (by simpa using hlasting)]
        exact .held hcurrent
      · rw [Option.filter_some_neg (by simpa using hlasting)]
        exact .swept hcurrent (Nat.not_lt.mp hlasting)

/-- The window after one more call is the current one, and the call is counted in it. -/
theorem afterCall (htracks : Tracks now calls held?) (window : Duration) :
    ∃ position anchor, CurrentAnchor (calls ++ [⟨now, window⟩]) position anchor ∧
      (held?.getD (.fresh now)).afterCall now window =
        ⟨calls.length + 1 - position, anchor.windowEnd⟩ := by
  have hanchored : ∀ ended : Window, ended.count = 0 ∨ ended.expiresAt ≤ now →
      ended.afterCall now window =
        ⟨calls.length + 1 - calls.length, Call.windowEnd ⟨now, window⟩⟩ := by
    intro ended hended
    simp [Window.afterCall, hended, Call.windowEnd]
  cases htracks with
  | unused hcalls =>
      subst hcalls
      exact ⟨0, ⟨now, window⟩, .singleton _, hanchored (.fresh now) (Or.inl rfl)⟩
  | swept hcurrent hover =>
      exact ⟨calls.length, ⟨now, window⟩, hcurrent.append_of_le hover,
        hanchored (.fresh now) (Or.inl rfl)⟩
  | @held position anchor hcurrent =>
      by_cases hover : anchor.windowEnd ≤ now
      · exact ⟨calls.length, ⟨now, window⟩, hcurrent.append_of_le hover,
          hanchored _ (Or.inr hover)⟩
      · have hlt := hcurrent.anchors.lt_length
        refine ⟨position, anchor, hcurrent.append_of_lt (Nat.not_le.mp hover), ?_⟩
        have hbegun : ¬ (calls.length - position = 0 ∨ anchor.windowEnd ≤ now) := by
          rintro (hzero | hle)
          · omega
          · exact hover hle
        simp only [Option.getD_some, Window.afterCall, hbegun, if_false, Window.mk.injEq, and_true]
        omega

end Tracks

/-! ## Runs -/

variable {α : Type}

/-- The call of a key that an event is, if it is one. -/
def Event.callOn? (key : String) (event : Event α) : Option Call :=
  match event.operation with
  | .increment other window => if other = key then some ⟨event.time, window⟩ else none
  | .take .. => none
  | .sweep => none

/-- The calls of a key in a run. -/
def callsOn (key : String) (events : List (Event α)) : List Call :=
  events.filterMap (Event.callOn? key)

theorem callsOn_append_singleton (key : String) (before : List (Event α)) (event : Event α) :
    callsOn key (before ++ [event]) = callsOn key before ++ (event.callOn? key).toList := by
  rw [callsOn, List.filterMap_append]
  cases hcall : event.callOn? key <;> simp [hcall, callsOn]

variable [Quantity α]

/-- One event keeps what is held of a key tied to the calls of the key. -/
theorem Tracks.afterEvent {memory : Memory α} {key : String} {calls : List Call} {now : Instant}
    (htracks : Tracks now calls (memory.windows.get? key)) (event : Event α)
    (hlater : now ≤ event.time) :
    Tracks event.time (calls ++ (event.callOn? key).toList)
      ((memory.afterEvent event).windows.get? key) := by
  obtain ⟨time, operation⟩ := event
  have htracks := htracks.later hlater
  cases operation with
  | increment other window =>
      by_cases hkey : other = key
      · subst hkey
        obtain ⟨position, anchor, hcurrent, hheld⟩ := htracks.afterCall window
        have hget : (memory.afterEvent ⟨time, .increment other window⟩).windows.get? other =
            some ⟨calls.length + 1 - position, anchor.windowEnd⟩ := by
          rw [← hheld]
          exact get?_windows_increment_self memory time other window
        have hcall : Event.callOn? other (⟨time, .increment other window⟩ : Event α) =
            some ⟨time, window⟩ := if_pos rfl
        rw [hget, hcall, Option.toList_some]
        simpa using (Tracks.held hcurrent : Tracks time _ _)
      · have hget : (memory.afterEvent ⟨time, .increment other window⟩).windows.get? key =
            memory.windows.get? key :=
          get?_windows_increment_of_ne memory time (Ne.symm hkey) window
        simpa [hget, Event.callOn?, hkey] using htracks
  | take other rate burst =>
      have hwindows : (memory.afterEvent ⟨time, .take other rate burst⟩).windows =
          memory.windows := windows_take memory time other rate burst
      simpa [hwindows, Event.callOn?] using htracks
  | sweep =>
      have hget : (memory.afterEvent ⟨time, .sweep⟩).windows.get? key =
          (memory.windows.get? key).filter fun held => decide (time < held.expiresAt) :=
        get?_windows_sweep memory time key
      simpa [hget, Event.callOn?] using htracks.sweep

/-- What a run leaves of a key is tied to the calls of the key. -/
theorem tracks_after {events : List (Event α)} (hordered : Chronological events) {now : Instant}
    (hnow : ∀ event ∈ events, event.time ≤ now) (key : String) :
    Tracks now (callsOn key events) (((empty : Memory α).after events).windows.get? key) := by
  induction events using List.reverseRecOn generalizing now with
  | nil => exact .unused rfl
  | append_singleton before event ih =>
      obtain ⟨hbefore, hearlier⟩ := hordered.of_append_cons
      have hstep := (ih hbefore hearlier).afterEvent event (Nat.le_refl _)
      rw [after_append, callsOn_append_singleton]
      exact hstep.later (hnow event (by simp))

/-- The answer to an increment is the number of calls since the anchor of the current
window, this one included, and the time from now to the end of that window. -/
theorem perform_increment_after {before : List (Event α)} (hordered : Chronological before)
    {now : Instant} (hnow : ∀ event ∈ before, event.time ≤ now) (key : String)
    (window : Duration) :
    ∃ position anchor, CurrentAnchor (callsOn key before ++ [⟨now, window⟩]) position anchor ∧
      (((empty : Memory α).after before).perform now (.increment key window)).1 =
        .counted ⟨(callsOn key before).length + 1 - position,
          now.timeUntil anchor.windowEnd⟩ := by
  obtain ⟨position, anchor, hcurrent, hheld⟩ :=
    (tracks_after hordered hnow key).afterCall window
  refine ⟨position, anchor, hcurrent, ?_⟩
  simp only [perform, increment, hheld, Window.report]

/-- **Fixed windows are anchored.**  In every run, an increment is answered with the number
of calls of its key since the anchor of the current window, this one included, and with the
time to the end of that window, which the anchoring call has set once and for all.  Sweeps,
takes and the calls of other keys have no part in it: the answer is the same in every run
with the same calls of the key. -/
theorem increment_answered_by_anchor {before later : List (Event α)} {now : Instant}
    {key : String} {window : Duration}
    (hordered : Chronological (before ++ ⟨now, .increment key window⟩ :: later)) :
    ∃ position anchor, CurrentAnchor (callsOn key before ++ [⟨now, window⟩]) position anchor ∧
      now ≤ anchor.windowEnd ∧
      ((empty : Memory α).history (before ++ ⟨now, .increment key window⟩ :: later))[
          before.length]? =
        some (⟨now, .increment key window⟩,
          .counted ⟨(callsOn key before).length + 1 - position,
            now.timeUntil anchor.windowEnd⟩) ∧
      ∀ others after : List (Event α),
        Chronological (others ++ ⟨now, .increment key window⟩ :: after) →
        callsOn key others = callsOn key before →
        ((empty : Memory α).history (others ++ ⟨now, .increment key window⟩ :: after))[
            others.length]? =
          some (⟨now, .increment key window⟩,
            .counted ⟨(callsOn key before).length + 1 - position,
              now.timeUntil anchor.windowEnd⟩) := by
  obtain ⟨hbefore, hnow⟩ := hordered.of_append_cons
  obtain ⟨position, anchor, hcurrent, hanswer⟩ :=
    perform_increment_after (α := α) hbefore hnow key window
  refine ⟨position, anchor, hcurrent, hcurrent.time_le_windowEnd, ?_, ?_⟩
  · rw [getElem?_history_append_cons, hanswer]
  · intro others after hothers hcalls
    obtain ⟨hothers, hnow⟩ := hothers.of_append_cons
    obtain ⟨otherPosition, otherAnchor, hother, hanswer⟩ :=
      perform_increment_after (α := α) hothers hnow key window
    rw [hcalls] at hother hanswer
    obtain ⟨rfl, rfl⟩ := hcurrent.unique hother
    rw [getElem?_history_append_cons, hanswer]

/-- Two calls in a window of five nanoseconds, the second asking for another length, and a
sweep in the very nanosecond in which the window ends. -/
def sweptRun : List (Event Rat) :=
  [⟨⟨0⟩, .increment "k" ⟨5⟩⟩, ⟨⟨3⟩, .increment "k" ⟨100⟩⟩, ⟨⟨4⟩, .take "k" 1 1⟩, ⟨⟨5⟩, .sweep⟩]

/-- The call in that nanosecond asks for a window whose end cannot be represented. -/
theorem increment_answered_by_anchor_sweptRun :
    Chronological (sweptRun ++ [⟨⟨5⟩, .increment "k" .longest⟩]) ∧
      ∃ position anchor, CurrentAnchor (callsOn "k" sweptRun ++ [⟨⟨5⟩, .longest⟩])
          position anchor ∧
        (empty.history (sweptRun ++ [⟨⟨5⟩, .increment "k" .longest⟩]))[4]? =
          some (⟨⟨5⟩, .increment "k" .longest⟩,
            .counted ⟨3 - position, Instant.timeUntil ⟨5⟩ anchor.windowEnd⟩) := by
  refine ⟨by decide, ?_⟩
  obtain ⟨position, anchor, hcurrent, -, hanswer, -⟩ :=
    @increment_answered_by_anchor Rat _ sweptRun [] ⟨5⟩ "k" .longest (by decide)
  exact ⟨position, anchor, hcurrent, hanswer⟩

end Throttle.Memory
