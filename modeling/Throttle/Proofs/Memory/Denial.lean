import Throttle.Proofs.Memory.Admission

/-!
# What a denied caller is told

A fixed window denies a call with the time to its end, as far as that is no longer than the
limiter's own window.  Nothing that happens meanwhile postpones this end: every call before it
is denied as well, and a call at the end or after it begins a new window.

Two things can keep a key busy beyond the time that a caller was told, and both take another
limiter with a longer window on the same key.  Its window may be the one that is current when
the call is denied; the time told is then cut to the limiter's own window.  Or it may begin its
window at the end of the current one, before the caller is back.  `denied_until_reset` says that
there is nothing else.
-/

namespace Throttle

namespace Instant

variable {now finish : Instant}

/-- The time to an instant, cut to some length, does not lead beyond the instant. -/
theorem after_shorter_le (hle : now ≤ finish) (length : Duration) :
    now.after ((now.timeUntil finish).shorter length) ≤ finish := by
  have hcut : ((now.timeUntil finish).shorter length).nanos ≤ finish.nanos - now.nanos :=
    Duration.shorter_le_left ..
  calc now.nanos + ((now.timeUntil finish).shorter length).nanos
    _ ≤ now.nanos + (finish.nanos - now.nanos) := Nat.add_le_add_left hcut _
    _ = finish.nanos := Nat.add_sub_cancel' hle

/-- An instant that is no further away than the length is reached. -/
theorem after_shorter_eq (hle : now ≤ finish) {length : Duration}
    (hnear : finish ≤ now.after length) :
    now.after ((now.timeUntil finish).shorter length) = finish := by
  have huncut : finish.nanos - now.nanos ≤ length.nanos := Nat.sub_le_iff_le_add'.mpr hnear
  refine congrArg Instant.mk ?_
  calc now.nanos + min (finish.nanos - now.nanos) length.nanos
    _ = now.nanos + (finish.nanos - now.nanos) := by rw [Nat.min_eq_left huncut]
    _ = finish.nanos := Nat.add_sub_cancel' hle

end Instant

namespace Memory

/-- Once a key has been called, some window of it is current. -/
theorem exists_currentAnchor {calls : List Call} (hcalled : calls ≠ []) :
    ∃ position anchor, CurrentAnchor calls position anchor := by
  induction calls using List.reverseRecOn with
  | nil => exact absurd rfl hcalled
  | append_singleton before call ih =>
      rcases eq_or_ne before [] with rfl | hbefore
      · exact ⟨0, call, .singleton call⟩
      · obtain ⟨position, anchor, hcurrent⟩ := ih hbefore
        by_cases hover : anchor.windowEnd ≤ call.time
        · exact ⟨before.length, call, hcurrent.append_of_le hover⟩
        · exact ⟨position, anchor, hcurrent.append_of_lt (Nat.not_le.mp hover)⟩

/-- Calls before the end of the current window fall into it. -/
theorem CurrentAnchor.append_of_forall_lt {calls more : List Call} {position : Nat}
    {anchor : Call} (hcurrent : CurrentAnchor calls position anchor)
    (hinside : ∀ call ∈ more, call.time < anchor.windowEnd) :
    CurrentAnchor (calls ++ more) position anchor := by
  induction more using List.reverseRecOn with
  | nil => rwa [List.append_nil]
  | append_singleton before call ih =>
      rw [← List.append_assoc]
      apply (ih fun other hother => hinside other (List.mem_append_left _ hother)).append_of_lt
      exact hinside call (List.mem_append_right _ (List.mem_singleton_self call))

/-- No window of a key is current any more. -/
def Lapsed (calls : List Call) (now : Instant) : Prop :=
  ∀ position anchor, CurrentAnchor calls position anchor → anchor.windowEnd ≤ now

theorem CurrentAnchor.lapsed_iff {calls : List Call} {position : Nat} {anchor : Call}
    (hcurrent : CurrentAnchor calls position anchor) (now : Instant) :
    Lapsed calls now ↔ anchor.windowEnd ≤ now := by
  refine ⟨fun hlapsed => hlapsed position anchor hcurrent, fun hover other opener hother => ?_⟩
  obtain ⟨-, rfl⟩ := hcurrent.unique hother
  exact hover

/-- A call is the first of its window exactly if no window is current before it. -/
theorem CurrentAnchor.eq_length_iff_lapsed {calls : List Call} {call anchor : Call}
    {position : Nat} (hcurrent : CurrentAnchor (calls ++ [call]) position anchor) :
    position = calls.length ↔ Lapsed calls call.time := by
  rcases eq_or_ne calls [] with rfl | hcalled
  · have hlt := hcurrent.anchors.lt_length
    refine iff_of_true (Nat.lt_one_iff.mp hlt) fun other opener hother => ?_
    exact absurd hother.anchors.lt_length (Nat.not_lt_zero _)
  · obtain ⟨before, held, hbefore⟩ := exists_currentAnchor hcalled
    rw [hbefore.lapsed_iff]
    constructor
    · rintro rfl
      by_contra! hinside
      obtain ⟨hsame, -⟩ := (hbefore.append_of_lt (Nat.not_le.mp hinside)).unique hcurrent
      exact absurd hbefore.anchors.lt_length (by omega)
    · intro hover
      exact (hcurrent.unique (hbefore.append_of_le hover)).1

variable {α : Type}

/-- A call of a key that falls into a run is as late as its event. -/
theorem exists_time_eq_of_mem_callsOn {key : String} {events : List (Event α)} {call : Call}
    (hcall : call ∈ callsOn key events) : ∃ event ∈ events, event.time = call.time := by
  obtain ⟨event, hevent, hcalls⟩ := List.mem_filterMap.mp hcall
  exact ⟨event, hevent, (Event.time_of_callOn? hcalls).symm⟩

/-- Events before the end of the current window leave it current. -/
theorem CurrentAnchor.append_callsOn {key : String} {calls : List Call} {position : Nat}
    {anchor : Call} (hcurrent : CurrentAnchor calls position anchor) {events : List (Event α)}
    (hinside : ∀ event ∈ events, event.time < anchor.windowEnd) :
    CurrentAnchor (calls ++ callsOn key events) position anchor := by
  refine hcurrent.append_of_forall_lt fun call hcall => ?_
  obtain ⟨event, hevent, htime⟩ := exists_time_eq_of_mem_callsOn hcall
  exact htime ▸ hinside event hevent

theorem callsOn_append (key : String) (first second : List (Event α)) :
    callsOn key (first ++ second) = callsOn key first ++ callsOn key second :=
  List.filterMap_append

end Memory

namespace FixedWindow

open Memory

variable {α : Type} (limiter : FixedWindow) (key : String)

/-- The event that a call of the limiter is to the memory. -/
def counting (now : Instant) : Event α := ⟨now, .increment key limiter.window⟩

@[simp] theorem callOn?_counting (now : Instant) :
    (limiter.counting key now : Event α).callOn? key = some ⟨now, limiter.window⟩ :=
  if_pos rfl

/-- A verdict that only the first call of a window is given. -/
def Opens (verdict : Verdict) : Prop :=
  verdict.allowed = true ∧ verdict.remaining = limiter.limit - 1

variable {limiter} {key}

theorem opens_judge_iff (hlimit : 1 ≤ limiter.limit) {count : WindowCount}
    (hcounted : 0 < count.count) : limiter.Opens (limiter.judge count) ↔ count.count = 1 := by
  simp only [Opens, judge, decide_eq_true_eq]
  constructor
  · rintro ⟨hallowed, hremaining⟩
    omega
  · intro hone
    omega

theorem callsOn_append_counting (before between : List (Event α)) (now : Instant) :
    callsOn key (before ++ [limiter.counting key now] ++ between) =
      callsOn key before ++ [⟨now, limiter.window⟩] ++ callsOn key between := by
  rw [callsOn_append, callsOn_append_singleton, callOn?_counting, Option.toList_some]

/-- Windows that none of the earlier calls asked for longer than the limiter does are over when a
window of the limiter would be. -/
theorem windowEnd_le_after {before : List (Event α)} {now : Instant}
    (hnow : ∀ event ∈ before, event.time ≤ now)
    (hends : ∀ call ∈ callsOn key before, call.windowEnd ≤ call.time.after limiter.window)
    {position : Nat} {anchor : Call} (hanchor : (callsOn key before)[position]? = some anchor) :
    anchor.windowEnd ≤ now.after limiter.window := by
  have hmem : anchor ∈ callsOn key before := List.mem_of_getElem? hanchor
  obtain ⟨event, hevent, htime⟩ := exists_time_eq_of_mem_callsOn hmem
  calc anchor.windowEnd.nanos ≤ anchor.time.nanos + limiter.window.nanos := hends anchor hmem
    _ = event.time.nanos + limiter.window.nanos := by rw [htime]
    _ ≤ now.nanos + limiter.window.nanos := Nat.add_le_add_right (hnow event hevent) _

variable [Quantity α]

/-- What a call is answered with after a run, by the window that is current then. -/
theorem exists_anchor_allow {before : List (Event α)} {moment : Moment}
    (hordered : Chronological (before ++ [limiter.counting key moment.now]))
    (hlive : moment.isDone = false) :
    ∃ position anchor,
      CurrentAnchor (callsOn key before ++ [⟨moment.now, limiter.window⟩]) position anchor ∧
      (Limiter.fixedWindow limiter).allow (Memory.after .empty before) moment key =
        (⟨.ok (limiter.judge ⟨(callsOn key before).length + 1 - position,
            moment.now.timeUntil anchor.windowEnd⟩), moment.now⟩,
          Memory.after .empty (before ++ [limiter.counting key moment.now])) := by
  obtain ⟨hbefore, hnow⟩ := hordered.of_append_cons
  obtain ⟨position, anchor, hcurrent, hanswer⟩ :=
    perform_increment_after (α := α) hbefore hnow key limiter.window
  have hcount : (Memory.increment (Memory.after .empty before) moment.now key
      limiter.window).1 = ⟨(callsOn key before).length + 1 - position,
        moment.now.timeUntil anchor.windowEnd⟩ := Outcome.counted.inj hanswer
  refine ⟨position, anchor, hcurrent, ?_⟩
  rw [Limiter.allow_fixedWindow limiter _ hlive key, hcount, after_append]
  rfl

/-- **A denied caller is told when to come back.**  The time is not zero.  Until it has passed,
every call of the limiter for the key is denied, whatever happens in between.  A call at that
time or later opens a window exactly if no window is current then; and if no earlier call asked
for a longer window, the first call of the key at that time or later does.  (For a counter of 64
bits this holds below `2 ^ 64` calls in one window.) -/
theorem denied_until_reset (hlimit : 1 ≤ limiter.limit) {before : List (Event α)} {moment : Moment}
    (hordered : Chronological (before ++ [limiter.counting key moment.now]))
    (hlive : moment.isDone = false) {verdict : Verdict}
    (hverdict : ((Limiter.fixedWindow limiter).allow (Memory.after .empty before) moment
      key).1.outcome = .ok verdict) (hdenied : verdict.allowed = false) :
    0 < verdict.resetAfter.nanos ∧
    ∃ position anchor,
      CurrentAnchor (callsOn key before ++ [⟨moment.now, limiter.window⟩]) position anchor ∧
      verdict.resetAfter = (moment.now.timeUntil anchor.windowEnd).shorter limiter.window ∧
      ∀ (between : List (Event α)) (later : Moment), later.isDone = false →
        Chronological (before ++ [limiter.counting key moment.now] ++ between ++
          [limiter.counting key later.now]) →
        ∃ next, ((Limiter.fixedWindow limiter).allow (Memory.after
            ((Limiter.fixedWindow limiter).allow (Memory.after .empty before) moment key).2 between)
            later key).1.outcome = .ok next ∧
          (later.now < moment.now.after verdict.resetAfter →
            next.allowed = false ∧ next.remaining = 0) ∧
          (limiter.Opens next ↔ Lapsed (callsOn key before ++ [⟨moment.now, limiter.window⟩] ++
            callsOn key between) later.now) ∧
          ((∀ call ∈ callsOn key before, call.windowEnd ≤ call.time.after limiter.window) →
            (∀ call ∈ callsOn key between, call.time < moment.now.after verdict.resetAfter) →
            moment.now.after verdict.resetAfter ≤ later.now → limiter.Opens next) := by
  obtain ⟨position, anchor, hcurrent, hallow⟩ := exists_anchor_allow hordered hlive
  rw [hallow] at hverdict ⊢
  obtain rfl := Except.ok.inj hverdict
  have hfull : limiter.limit < (callsOn key before).length + 1 - position := by
    simpa only [judge, decide_eq_false_iff_not, not_le] using hdenied
  -- the denied call is not the first of its window, so the end of the window is still to come
  have hlt : position < (callsOn key before).length := by omega
  have hbegun : moment.now < anchor.windowEnd :=
    hcurrent.within _ _ hlt List.getElem?_concat_length
  refine ⟨lt_min (Nat.sub_pos_of_lt hbegun) (Nat.pos_of_ne_zero limiter.lasting), position, anchor,
    hcurrent, rfl, fun between later hlivelater hrun => ?_⟩
  have hnow : ∀ event ∈ before, event.time ≤ moment.now := hordered.of_append_cons.2
  obtain ⟨last, opener, hlast, hnext⟩ := exists_anchor_allow hrun hlivelater
  obtain ⟨-, hpast⟩ := hrun.of_append_cons
  rw [callsOn_append_counting] at hlast hnext
  rw [after_append] at hnext
  set calls := callsOn key before ++ [⟨moment.now, limiter.window⟩] ++ callsOn key between with hcalls
  have hlastLt : last < calls.length + 1 := by
    simpa using hlast.anchors.lt_length
  have hopens : limiter.Opens (limiter.judge ⟨calls.length + 1 - last,
      later.now.timeUntil opener.windowEnd⟩) ↔ Lapsed calls later.now := by
    rw [opens_judge_iff hlimit (by simp only; omega), ← hlast.eq_length_iff_lapsed]
    simp only
    omega
  refine ⟨_, by rw [hnext], fun hearly => ?_, hopens, fun hends hquiet hback => hopens.mpr ?_⟩
  · have hinside : later.now < anchor.windowEnd :=
      Nat.lt_of_lt_of_le hearly (Instant.after_shorter_le (Nat.le_of_lt hbegun) limiter.window)
    have hcalm : ∀ event ∈ between, event.time < anchor.windowEnd := fun event hevent =>
      Nat.lt_of_le_of_lt (hpast event (List.mem_append_right _ hevent)) hinside
    obtain ⟨rfl, -⟩ := ((hcurrent.append_callsOn hcalm).append_of_lt hinside).unique hlast
    have hmore : (callsOn key before).length ≤ calls.length := by simp [hcalls]
    simp only [judge, decide_eq_false_iff_not]
    omega
  · have hheld : (callsOn key before)[position]? = some anchor := by
      rw [← List.getElem?_append_left hlt, hcurrent.anchors.getElem?_eq]
    have hreset : moment.now.after ((moment.now.timeUntil anchor.windowEnd).shorter
        limiter.window) = anchor.windowEnd :=
      Instant.after_shorter_eq (Nat.le_of_lt hbegun) (windowEnd_le_after hnow hends hheld)
    simp only [judge, hreset] at hquiet hback
    exact ((hcurrent.append_of_forall_lt hquiet).lapsed_iff later.now).mpr hback

/-- One call in ten nanoseconds. -/
def oneInTen : FixedWindow := ⟨1, ⟨10⟩, twice.lasting⟩

/-- What happens to a key while a caller waits: a take, a call that asks for a longer window, an
impatient call, and a sweep at the very end of the window. -/
def meanwhile : List (Event Rat) :=
  [⟨⟨5⟩, .take "k" 1 1⟩, ⟨⟨7⟩, .increment "k" ⟨100⟩⟩, ⟨⟨9⟩, .increment "k" ⟨10⟩⟩, ⟨⟨10⟩, .sweep⟩]

/-- The caller is denied at four, told to wait for six, and served at ten. -/
theorem denied_until_reset_meanwhile :
    let first := (Limiter.fixedWindow oneInTen).allow
      (Memory.after .empty [(⟨⟨0⟩, .increment "k" ⟨10⟩⟩ : Event Rat)]) ⟨⟨4⟩, ⟨0⟩, none⟩ "k"
    first.1.outcome = .ok ⟨false, 1, 0, ⟨6⟩⟩ ∧
      ∃ next, ((Limiter.fixedWindow oneInTen).allow (first.2.after meanwhile) ⟨⟨10⟩, ⟨0⟩, none⟩
        "k").1.outcome = .ok next ∧ oneInTen.Opens next := by
  have hfirst : ((Limiter.fixedWindow oneInTen).allow
      (Memory.after .empty [(⟨⟨0⟩, .increment "k" ⟨10⟩⟩ : Event Rat)]) ⟨⟨4⟩, ⟨0⟩, none⟩
      "k").1.outcome = .ok ⟨false, 1, 0, ⟨6⟩⟩ := rfl
  obtain ⟨-, -, -, -, -, hback⟩ :=
    denied_until_reset (by decide) (by decide) rfl hfirst rfl
  obtain ⟨next, hnext, -, -, hserved⟩ :=
    hback meanwhile ⟨⟨10⟩, ⟨0⟩, none⟩ rfl (by decide)
  exact ⟨hfirst, next, hnext, hserved (by decide) (by decide) (by decide)⟩

/-- One call in ten times as long. -/
def oneInHundred : FixedWindow := ⟨1, ⟨100⟩, by decide⟩

/-- A window that another limiter has begun lasts beyond the time that the caller is told; and
another limiter may begin its window at that time, before the caller is back.  Both times the
caller who comes back then is denied again. -/
theorem denied_at_reset_of_longer_window :
    (let opened := (Limiter.fixedWindow oneInHundred).allow (.empty : Memory Rat)
        ⟨⟨0⟩, ⟨0⟩, none⟩ "k"
      let first := (Limiter.fixedWindow oneInTen).allow opened.2 ⟨⟨0⟩, ⟨0⟩, none⟩ "k"
      let second := (Limiter.fixedWindow oneInTen).allow first.2 ⟨⟨10⟩, ⟨0⟩, none⟩ "k"
      first.1.outcome = .ok ⟨false, 1, 0, ⟨10⟩⟩ ∧ second.1.outcome = .ok ⟨false, 1, 0, ⟨10⟩⟩) ∧
    (let opened := (Limiter.fixedWindow oneInTen).allow (.empty : Memory Rat)
        ⟨⟨0⟩, ⟨0⟩, none⟩ "k"
      let first := (Limiter.fixedWindow oneInTen).allow opened.2 ⟨⟨0⟩, ⟨0⟩, none⟩ "k"
      let faster := (Limiter.fixedWindow oneInHundred).allow first.2 ⟨⟨10⟩, ⟨0⟩, none⟩ "k"
      let second := (Limiter.fixedWindow oneInTen).allow faster.2 ⟨⟨10⟩, ⟨0⟩, none⟩ "k"
      first.1.outcome = .ok ⟨false, 1, 0, ⟨10⟩⟩ ∧ second.1.outcome = .ok ⟨false, 1, 0, ⟨10⟩⟩) :=
  ⟨⟨rfl, rfl⟩, rfl, rfl⟩

end FixedWindow

end Throttle
