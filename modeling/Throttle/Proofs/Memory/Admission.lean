import Mathlib.Data.Finset.Card
import Mathlib.Data.List.TakeWhile
import Mathlib.Data.Nat.Find
import Mathlib.Order.Interval.Finset.Nat
import Throttle.Limiter
import Throttle.Proofs.Memory.Anchors

/-!
# How many calls a fixed window admits

A fixed window does not slide, so an interval as long as the window may see the end of one window
and the beginning of the next.  It never sees a third one: the second of two successive windows
begins when the first is over or later, and so it lasts until the interval has passed.  Hence at
most twice the limit of calls is admitted in such an interval (`admitted_le_two_mul_limit`).

Within one window the calls are numbered from one, and the limiter admits those up to its limit.
-/

namespace Throttle

/-- A call of a limiter is an increment that is judged. -/
theorem Limiter.allow_fixedWindow {α : Type} [Quantity α] (limiter : FixedWindow)
    (memory : Memory α) {moment : Moment} (hlive : moment.isDone = false) (key : String) :
    (Limiter.fixedWindow limiter).allow memory moment key =
      (⟨.ok (limiter.judge (memory.increment moment.now key limiter.window).1), moment.now⟩,
        memory.afterEvent ⟨moment.now, .increment key limiter.window⟩) := by
  have hstore : Store.increment memory moment key limiter.window =
      (⟨.ok (memory.increment moment.now key limiter.window).1, moment.now⟩,
        (memory.increment moment.now key limiter.window).2) :=
    if_neg (by simp [hlive])
  unfold Limiter.allow
  simp only [hstore]
  rfl

/-- A caller who is done is answered without a look at the memory. -/
theorem Limiter.allow_fixedWindow_of_done {α : Type} [Quantity α] (limiter : FixedWindow)
    (memory : Memory α) {moment : Moment} (hdone : moment.isDone = true) (key : String) :
    (Limiter.fixedWindow limiter).allow memory moment key =
      (⟨.error (.store .canceled), moment.now⟩, memory) := by
  have hstore : Store.increment memory moment key limiter.window =
      (⟨.error .canceled, moment.now⟩, memory) := if_pos hdone
  unfold Limiter.allow
  simp only [hstore]
  rfl

/-- An instant lies in the interval of a length that begins at another. -/
def Instant.InSpan (start : Instant) (length : Duration) (instant : Instant) : Prop :=
  start ≤ instant ∧ instant < start.after length

instance (start : Instant) (length : Duration) : DecidablePred (start.InSpan length) :=
  fun instant => inferInstanceAs (Decidable (start ≤ instant ∧ instant < start.after length))

namespace Memory

theorem Call.windowEnd_of_representable {call : Call}
    (hfits : (call.time.after call.window).Representable) :
    call.windowEnd = call.time.after call.window := by
  have hafter : call.time.after? call.window = some (call.time.after call.window) := if_pos hfits
  rw [windowEnd, Window.endOf, hafter, Option.getD_some]

/-! ## Anchors of the calls so far -/

theorem time_le_of_lt {calls : List Call}
    (hordered : calls.Pairwise fun earlier later => earlier.time ≤ later.time)
    {first second : Nat} {earlier later : Call} (hearlier : calls[first]? = some earlier)
    (hlater : calls[second]? = some later) (hlt : first < second) : earlier.time ≤ later.time := by
  obtain ⟨hfirstLt, rfl⟩ := List.getElem?_eq_some_iff.mp hearlier
  obtain ⟨hsecondLt, rfl⟩ := List.getElem?_eq_some_iff.mp hlater
  exact List.pairwise_iff_getElem.mp hordered _ _ hfirstLt hsecondLt hlt

namespace Anchors

variable {calls : List Call} {position : Nat} {anchor : Call}

/-- Whether a call anchors a window is settled when it is made. -/
theorem take (hanchors : Anchors calls position anchor) {number : Nat} (hlt : position < number) :
    Anchors (calls.take number) position anchor := by
  induction hanchors with
  | first hcall => exact .first (by rwa [List.getElem?_take_of_lt hlt])
  | next hprevious hlater hcall hover hfirst ih =>
      refine .next (ih (hlater.trans hlt)) hlater (by rwa [List.getElem?_take_of_lt hlt]) hover ?_
      intro between call hbetween hbefore hget
      rw [List.getElem?_take_of_lt (hbefore.trans hlt)] at hget
      exact hfirst between call hbetween hbefore hget

theorem of_take {number : Nat} (hanchors : Anchors (calls.take number) position anchor) :
    Anchors calls position anchor := by
  have happend := hanchors.append (calls.drop number)
  rwa [List.take_append_drop] at happend

theorem windowEnd_eq (hanchors : Anchors calls position anchor) {window : Duration}
    (hends : ∀ call ∈ calls, call.windowEnd = call.time.after window) :
    anchor.windowEnd = anchor.time.after window :=
  hends anchor (List.mem_of_getElem? hanchors.getElem?_eq)

theorem lt_of_over (hanchors : Anchors calls position anchor)
    (hlasting : anchor.time < anchor.windowEnd) {index : Nat} {call : Call}
    (hget : calls[index]? = some call) (hle : position ≤ index)
    (hover : anchor.windowEnd ≤ call.time) : position < index := by
  refine Nat.lt_of_le_of_ne hle ?_
  rintro rfl
  obtain rfl : anchor = call := Option.some.inj (hanchors.getElem?_eq.symm.trans hget)
  exact absurd hlasting (Nat.not_lt.mpr hover)

/-- A call that comes before the end of a window, and after its anchor, falls into it. -/
theorem current_of_lt (hanchors : Anchors calls position anchor)
    (hordered : calls.Pairwise fun earlier later => earlier.time ≤ later.time) {index : Nat}
    {call : Call} (hget : calls[index]? = some call) (hle : position ≤ index)
    (hinside : call.time < anchor.windowEnd) :
    CurrentAnchor (calls.take (index + 1)) position anchor := by
  refine ⟨hanchors.take (Nat.lt_succ_of_le hle), fun later other hlater hother => ?_⟩
  have hbefore : later < index + 1 := by
    by_contra! hbeyond
    rw [List.getElem?_take_eq_none hbeyond] at hother
    cases hother
  rw [List.getElem?_take_of_lt hbefore] at hother
  rcases Nat.lt_or_eq_of_le (Nat.le_of_lt_succ hbefore) with hlt | rfl
  · exact Nat.lt_of_le_of_lt (time_le_of_lt hordered hother hget hlt) hinside
  · obtain rfl := Option.some.inj (hget.symm.trans hother)
    exact hinside

/-- The first call at or after the end of a window anchors the next one. -/
theorem exists_next (hanchors : Anchors calls position anchor) {index : Nat} {call : Call}
    (hget : calls[index]? = some call) (hlt : position < index)
    (hover : anchor.windowEnd ≤ call.time) :
    ∃ next held, Anchors calls next held ∧ position < next ∧ next ≤ index ∧
      anchor.windowEnd ≤ held.time ∧ ∀ between other, position < between → between < next →
        calls[between]? = some other → other.time < anchor.windowEnd := by
  have hexists : ∃ next, position < next ∧
      ∃ held, calls[next]? = some held ∧ anchor.windowEnd ≤ held.time :=
    ⟨index, hlt, call, hget, hover⟩
  classical
  obtain ⟨hlater, held, hheld, hreached⟩ := Nat.find_spec hexists
  have hfirst : ∀ between other, position < between → between < Nat.find hexists →
      calls[between]? = some other → other.time < anchor.windowEnd := by
    intro between other hbetween hbefore hother
    by_contra hnot
    exact Nat.find_min hexists hbefore ⟨hbetween, other, hother, Nat.le_of_not_lt hnot⟩
  exact ⟨_, held, .next hanchors hlater hheld hreached hfirst, hlater,
    Nat.find_min' hexists ⟨hlt, call, hget, hover⟩, hreached, hfirst⟩

end Anchors

namespace CurrentAnchor

variable {calls : List Call} {opening position : Nat} {anchor : Call}

theorem le_of_take (hcurrent : CurrentAnchor (calls.take (opening + 1)) position anchor) :
    position ≤ opening := by
  have hlt := hcurrent.anchors.lt_length
  rw [List.length_take] at hlt
  omega

/-- A window that is current at a call is not over there. -/
theorem lt_of_over (hcurrent : CurrentAnchor (calls.take (opening + 1)) position anchor)
    {later : Nat} {call : Call} (hget : calls[later]? = some call) (hlater : position < later)
    (hover : anchor.windowEnd ≤ call.time) : opening < later := by
  by_contra! hle
  have htaken : (calls.take (opening + 1))[later]? = some call := by
    rw [List.getElem?_take_of_lt (Nat.lt_succ_of_le hle), hget]
  exact absurd (hcurrent.within later call hlater htaken) (Nat.not_lt.mpr hover)

/-- The window after the one at a call begins behind that call, and so it lasts at least a whole
window from there.  No later call comes between the two windows. -/
theorem exists_next_lasting (hcurrent : CurrentAnchor (calls.take (opening + 1)) position anchor)
    (hordered : calls.Pairwise fun earlier later => earlier.time ≤ later.time)
    {window : Duration} (hlasting : window.nanos ≠ 0)
    (hends : ∀ call ∈ calls, call.windowEnd = call.time.after window) {opener : Call}
    (hopener : calls[opening]? = some opener) {reached : Nat} {call : Call}
    (hget : calls[reached]? = some call) (hle : opening ≤ reached)
    (hover : anchor.windowEnd ≤ call.time) :
    ∃ next held, Anchors calls next held ∧ opener.time.after window ≤ held.windowEnd ∧
      ∀ index other, opening ≤ index → calls[index]? = some other →
        anchor.windowEnd ≤ other.time → next ≤ index := by
  have hanchors := hcurrent.anchors.of_take
  have hlater : anchor.time < anchor.windowEnd := by
    rw [hanchors.windowEnd_eq hends]
    exact Nat.lt_add_of_pos_right (Nat.pos_of_ne_zero hlasting)
  have hbehind : ∀ {index : Nat} {other : Call}, opening ≤ index → calls[index]? = some other →
      anchor.windowEnd ≤ other.time → position < index :=
    fun hindex hother hpassed =>
      hanchors.lt_of_over hlater hother (hcurrent.le_of_take.trans hindex) hpassed
  obtain ⟨next, held, hheld, hnext, -, hbegun, hbetween⟩ :=
    hanchors.exists_next hget (hbehind hle hget hover) hover
  refine ⟨next, held, hheld, ?_, fun index other hindex hother hpassed => ?_⟩
  · have hopening := hcurrent.lt_of_over hheld.getElem?_eq hnext hbegun
    rw [hheld.windowEnd_eq hends]
    exact Nat.add_le_add_right (time_le_of_lt hordered hopener hheld.getElem?_eq hopening) _
  · by_contra! hlt
    exact absurd (hbetween index other (hbehind hindex hother hpassed) hlt hother)
      (Nat.not_lt.mpr hpassed)

end CurrentAnchor

/-! ## The counts of a key -/

variable {α : Type}

/-- When and how the calls of a key are answered. -/
def countOn? (key : String) (entry : Event α × Outcome α) : Option (Instant × WindowCount) :=
  match entry.1.operation, entry.2 with
  | .increment other _, .counted count => if other = key then some (entry.1.time, count) else none
  | _, _ => none

/-- A call is as late as the event that it is. -/
theorem Event.time_of_callOn? {key : String} {event : Event α} {call : Call}
    (hcall : event.callOn? key = some call) : call.time = event.time := by
  obtain ⟨time, operation⟩ := event
  unfold Event.callOn? at hcall
  cases operation with
  | increment other window =>
      simp only [Option.ite_none_right_eq_some, Option.some.injEq] at hcall
      rw [← hcall.2]
  | take => cases hcall
  | sweep => cases hcall

theorem callsOn_ordered (key : String) {events : List (Event α)} (hordered : Chronological events) :
    (callsOn key events).Pairwise fun earlier later => earlier.time ≤ later.time := by
  refine List.pairwise_filterMap.mpr (hordered.imp ?_)
  intro earlier later hle call hcall other hother
  rw [Event.time_of_callOn? hcall, Event.time_of_callOn? hother]
  exact hle

/-- The answers to the calls of a key: each counts the calls from the anchor of its window on. -/
structure Counted (calls : List Call) (answers : List (Instant × WindowCount)) : Prop where
  length_eq : answers.length = calls.length
  counts : ∀ index entry, answers[index]? = some entry →
    ∃ call position anchor, calls[index]? = some call ∧ entry.1 = call.time ∧
      CurrentAnchor (calls.take (index + 1)) position anchor ∧
      entry.2.count = index + 1 - position

theorem Counted.append {calls : List Call} {answers : List (Instant × WindowCount)}
    (hcounted : Counted calls answers) {call anchor : Call} {position : Nat}
    (hcurrent : CurrentAnchor (calls ++ [call]) position anchor) {count : WindowCount}
    (hcount : count.count = calls.length + 1 - position) :
    Counted (calls ++ [call]) (answers ++ [(call.time, count)]) := by
  refine ⟨by simp [hcounted.length_eq], fun index entry hget => ?_⟩
  rcases Nat.lt_or_ge index calls.length with hold | hnew
  · rw [List.getElem?_append_left (hcounted.length_eq ▸ hold)] at hget
    obtain ⟨earlier, start, held, hcall, htime, hheld, hentry⟩ := hcounted.counts index entry hget
    refine ⟨earlier, start, held, ?_, htime, ?_, hentry⟩
    · rw [List.getElem?_append_left hold, hcall]
    · rwa [List.take_append_of_le_length hold]
  · have hinside := (List.getElem?_eq_some_iff.mp hget).1
    rw [List.length_append, List.length_singleton, hcounted.length_eq] at hinside
    obtain rfl : index = calls.length := by omega
    rw [← hcounted.length_eq, List.getElem?_concat_length] at hget
    obtain rfl := Option.some.inj hget
    refine ⟨call, position, anchor, List.getElem?_concat_length, rfl, ?_, hcount⟩
    rwa [List.take_of_length_le (by simp)]

variable [Quantity α]

/-- **What the calls of a key are answered with.** -/
theorem counted_history {events : List (Event α)} (hordered : Chronological events)
    (key : String) :
    Counted (callsOn key events) ((empty.history events).filterMap (countOn? key)) := by
  induction events using List.reverseRecOn with
  | nil => exact ⟨rfl, nofun⟩
  | append_singleton before event ih =>
      obtain ⟨hbefore, hearlier⟩ := hordered.of_append_cons
      have hcounted := ih hbefore
      rw [history_append, List.filterMap_append, callsOn_append_singleton, history_cons,
        history_nil]
      obtain ⟨time, operation⟩ := event
      have hskipped : ∀ outcome : Outcome α, Event.callOn? key ⟨time, operation⟩ = none →
          countOn? key (⟨time, operation⟩, outcome) = none →
          Counted (callsOn key before ++ (Event.callOn? key ⟨time, operation⟩).toList)
            ((empty.history before).filterMap (countOn? key) ++
              [(⟨time, operation⟩, outcome)].filterMap (countOn? key)) := by
        intro outcome hcall hcount
        rw [hcall, List.filterMap_cons_none hcount, Option.toList_none, List.filterMap_nil,
          List.append_nil, List.append_nil]
        exact hcounted
      cases operation with
      | take => exact hskipped _ rfl rfl
      | sweep => exact hskipped _ rfl rfl
      | increment other window =>
          by_cases hkey : other = key
          · subst hkey
            obtain ⟨position, anchor, hcurrent, hanswer⟩ :=
              perform_increment_after (α := α) hbefore hearlier other window
            have hcall : Event.callOn? other (⟨time, .increment other window⟩ : Event α) =
                some ⟨time, window⟩ := if_pos rfl
            have hcount : countOn? other ((⟨time, .increment other window⟩ : Event α),
                (((empty : Memory α).after before).perform time (.increment other window)).1) =
                some (time, ⟨(callsOn other before).length + 1 - position,
                  time.timeUntil anchor.windowEnd⟩) := by
              rw [hanswer]
              exact if_pos rfl
            rw [hcall, List.filterMap_cons_some hcount]
            exact hcounted.append hcurrent rfl
          · exact hskipped _ (if_neg hkey) (if_neg hkey)

/-- If all entries of a kind stand at certain positions, there are no more of them. -/
theorem countP_le_card {β : Type} {entries : List β} {kind : β → Bool} (positions : Finset Nat)
    (hpositions : ∀ index entry, entries[index]? = some entry → kind entry = true →
      index ∈ positions) : entries.countP kind ≤ positions.card := by
  induction entries using List.reverseRecOn generalizing positions with
  | nil => exact Nat.zero_le _
  | append_singleton before last ih =>
      have hbefore : ∀ index entry, before[index]? = some entry → kind entry = true →
          index ∈ positions.erase before.length := by
        intro index entry hget hkind
        have hlt := (List.getElem?_eq_some_iff.mp hget).1
        refine Finset.mem_erase.mpr ⟨Nat.ne_of_lt hlt, hpositions index entry ?_ hkind⟩
        rw [List.getElem?_append_left hlt, hget]
      rw [List.countP_append, List.countP_singleton]
      split
      case isTrue hkind =>
        have hlast := hpositions before.length last List.getElem?_concat_length hkind
        have hcard := ih _ hbefore
        rw [Finset.card_erase_of_mem hlast] at hcard
        have hpositive := Finset.card_pos.mpr ⟨_, hlast⟩
        omega
      case isFalse => exact (ih _ hbefore).trans (Finset.card_le_card (Finset.erase_subset _ _))

namespace Counted

variable {calls : List Call} {answers : List (Instant × WindowCount)} {position : Nat}
  {anchor : Call}

/-- The number of an answer in the window of an anchor. -/
theorem count_eq (hcounted : Counted calls answers) {index : Nat}
    {entry : Instant × WindowCount} (hget : answers[index]? = some entry)
    (hcurrent : CurrentAnchor (calls.take (index + 1)) position anchor) :
    entry.2.count = index + 1 - position := by
  obtain ⟨-, other, otherAnchor, -, -, hother, hcount⟩ := hcounted.counts index entry hget
  obtain ⟨rfl, -⟩ := hcurrent.unique hother
  exact hcount

theorem call_at (hcounted : Counted calls answers) {index : Nat} {entry : Instant × WindowCount}
    (hget : answers[index]? = some entry) :
    ∃ call, calls[index]? = some call ∧ entry.1 = call.time := by
  obtain ⟨call, -, -, hcall, htime, -⟩ := hcounted.counts index entry hget
  exact ⟨call, hcall, htime⟩

/-- If all calls ask for one window, they are known from when they are answered. -/
theorem calls_eq (hcounted : Counted calls answers) {window : Duration}
    (hwindow : ∀ call ∈ calls, call.window = window) :
    calls = answers.map fun entry => ⟨entry.1, window⟩ := by
  refine List.ext_getElem? fun index => ?_
  rw [List.getElem?_map]
  rcases Nat.lt_or_ge index answers.length with hlt | hge
  · obtain ⟨call, hcall, htime⟩ := hcounted.call_at (List.getElem?_eq_getElem hlt)
    rw [hcall, List.getElem?_eq_getElem hlt, Option.map_some, htime,
      ← hwindow call (List.mem_of_getElem? hcall)]
  · rw [List.getElem?_eq_none (hcounted.length_eq ▸ hge), List.getElem?_eq_none hge]
    rfl

/-- The calls that fall into a window are numbered from one. -/
theorem counts_in_window (hcounted : Counted calls answers)
    (hordered : calls.Pairwise fun earlier later => earlier.time ≤ later.time)
    (hanchors : Anchors calls position anchor) {index : Nat} {entry : Instant × WindowCount}
    (hget : answers[position + index]? = some entry) (hinside : entry.1 < anchor.windowEnd) :
    entry.2.count = index + 1 := by
  obtain ⟨call, hcall, htime⟩ := hcounted.call_at hget
  have hcurrent := hanchors.current_of_lt hordered hcall (Nat.le_add_right _ _) (htime ▸ hinside)
  rw [hcounted.count_eq hget hcurrent]
  omega

/-- The calls of the window of an anchor are numbered from one, in the order of the calls. -/
theorem counts_of_anchor (hcounted : Counted calls answers)
    (hordered : calls.Pairwise fun earlier later => earlier.time ≤ later.time)
    (hanchors : Anchors calls position anchor) :
    let part := (answers.drop position).takeWhile fun entry => decide (entry.1 < anchor.windowEnd)
    part.map (fun entry => entry.2.count) = (List.range part.length).map (· + 1) := by
  intro part
  refine List.ext_getElem? fun index => ?_
  rw [List.getElem?_map, List.getElem?_map]
  rcases Nat.lt_or_ge index part.length with hlt | hge
  · have hentry := List.getElem?_eq_getElem hlt
    have hmem : part[index] ∈ (answers.drop position).takeWhile fun entry =>
        decide (entry.1 < anchor.windowEnd) := List.getElem_mem hlt
    have hinside : part[index].1 < anchor.windowEnd := by
      simpa using List.mem_takeWhile_imp hmem
    have hget : answers[position + index]? = some part[index] := by
      obtain ⟨rest, hrest⟩ := List.takeWhile_prefix (l := answers.drop position)
        fun entry => decide (entry.1 < anchor.windowEnd)
      rw [← List.getElem?_drop, ← hrest, List.getElem?_append_left hlt, hentry]
    rw [hentry, List.getElem?_range hlt, Option.map_some, Option.map_some,
      hcounted.counts_in_window hordered hanchors hget hinside]
  · rw [List.getElem?_eq_none hge, List.getElem?_eq_none (by simpa using hge)]
    rfl

/-- The first calls of a window stand right behind its anchor. -/
theorem mem_Ico_of_lt (hcounted : Counted calls answers)
    (hordered : calls.Pairwise fun earlier later => earlier.time ≤ later.time)
    (hanchors : Anchors calls position anchor) {index limit : Nat}
    {entry : Instant × WindowCount} (hget : answers[index]? = some entry)
    (hle : position ≤ index) (hinside : entry.1 < anchor.windowEnd)
    (hcount : entry.2.count ≤ limit) : index ∈ Finset.Ico position (position + limit) := by
  obtain ⟨skipped, rfl⟩ := Nat.exists_eq_add_of_le hle
  rw [hcounted.counts_in_window hordered hanchors hget hinside] at hcount
  exact Finset.mem_Ico.mpr ⟨Nat.le_add_right _ _, by omega⟩

/-- The first call of an interval, and the anchor of the window it falls into. -/
theorem exists_opening (hcounted : Counted calls answers) {start : Instant} {window : Duration}
    (hmeets : ∃ index : Nat, ∃ entry : Instant × WindowCount,
      answers[index]? = some entry ∧ start.InSpan window entry.1) :
    ∃ opening opener position anchor, calls[opening]? = some opener ∧ start ≤ opener.time ∧
      CurrentAnchor (calls.take (opening + 1)) position anchor ∧
      ∀ (index : Nat) (entry : Instant × WindowCount), answers[index]? = some entry →
        start.InSpan window entry.1 → opening ≤ index := by
  classical
  obtain ⟨entry, hget, hlow, -⟩ := Nat.find_spec hmeets
  obtain ⟨opener, position, anchor, hopener, htime, hcurrent, -⟩ := hcounted.counts _ entry hget
  exact ⟨Nat.find hmeets, opener, position, anchor, hopener, htime ▸ hlow, hcurrent,
    fun index other hother hspan => Nat.find_min' hmeets ⟨other, hother, hspan⟩⟩

/-- **No interval meets three windows.**  If every window is of one length, then the calls of an
interval of that length that are among the first of their window are the first ones after one of
two calls. -/
theorem two_windows (hcounted : Counted calls answers)
    (hordered : calls.Pairwise fun earlier later => earlier.time ≤ later.time)
    {window : Duration} (hlasting : window.nanos ≠ 0)
    (hends : ∀ call ∈ calls, call.windowEnd = call.time.after window) (start : Instant)
    (limit : Nat) :
    ∃ first second : Nat, ∀ (index : Nat) (entry : Instant × WindowCount),
      answers[index]? = some entry → start.InSpan window entry.1 → entry.2.count ≤ limit →
      index ∈ Finset.Ico first (first + limit) ∪ Finset.Ico second (second + limit) := by
  by_cases hmeets : ∃ index : Nat, ∃ entry : Instant × WindowCount,
      answers[index]? = some entry ∧ start.InSpan window entry.1
  swap
  · exact ⟨0, 0, fun index entry hget hspan _ => absurd ⟨index, entry, hget, hspan⟩ hmeets⟩
  obtain ⟨opening, opener, first, anchor, hopener, hlow, hcurrent, hearliest⟩ :=
    hcounted.exists_opening hmeets
  have hinFirst : ∀ (index : Nat) (entry : Instant × WindowCount), answers[index]? = some entry →
      start.InSpan window entry.1 → entry.1 < anchor.windowEnd → entry.2.count ≤ limit →
      index ∈ Finset.Ico first (first + limit) :=
    fun index entry hget hspan => hcounted.mem_Ico_of_lt hordered hcurrent.anchors.of_take hget
      (hcurrent.le_of_take.trans (hearliest index entry hget hspan))
  by_cases hover : ∃ index : Nat, ∃ entry : Instant × WindowCount, answers[index]? = some entry ∧
      start.InSpan window entry.1 ∧ anchor.windowEnd ≤ entry.1
  swap
  · refine ⟨first, first, fun index entry hget hspan hcount => Finset.mem_union_left _ ?_⟩
    refine hinFirst index entry hget hspan ?_ hcount
    by_contra hpassed
    exact hover ⟨index, entry, hget, hspan, Nat.le_of_not_lt hpassed⟩
  obtain ⟨reached, reacher, hreacher, hspan, hreached⟩ := hover
  obtain ⟨call, hcall, htime⟩ := hcounted.call_at hreacher
  obtain ⟨second, held, hheld, hlasts, hbehind⟩ :=
    hcurrent.exists_next_lasting hordered hlasting hends hopener hcall
      (hearliest reached reacher hreacher hspan) (htime ▸ hreached)
  refine ⟨first, second, fun index entry hget hspan hcount => ?_⟩
  by_cases hinside : entry.1 < anchor.windowEnd
  · exact Finset.mem_union_left _ (hinFirst index entry hget hspan hinside hcount)
  · obtain ⟨other, hother, hotherTime⟩ := hcounted.call_at hget
    have hge := hbehind index other (hearliest index entry hget hspan) hother
      (hotherTime ▸ Nat.le_of_not_lt hinside)
    have hbefore : entry.1 < held.windowEnd :=
      Nat.lt_of_lt_of_le hspan.2 (Nat.le_trans (Nat.add_le_add_right hlow _) hlasts)
    exact Finset.mem_union_right _
      (hcounted.mem_Ico_of_lt hordered hheld hget hge hbefore hcount)

/-- At most twice a number of calls in an interval as long as the windows are among that number of
first calls of their window. -/
theorem countP_le (hcounted : Counted calls answers)
    (hordered : calls.Pairwise fun earlier later => earlier.time ≤ later.time)
    {window : Duration} (hlasting : window.nanos ≠ 0)
    (hends : ∀ call ∈ calls, call.windowEnd = call.time.after window) (start : Instant)
    (limit : Nat) :
    (answers.countP fun entry =>
      decide (start.InSpan window entry.1) && decide (entry.2.count ≤ limit)) ≤ 2 * limit := by
  obtain ⟨first, second, hpositions⟩ :=
    hcounted.two_windows hordered hlasting hends start limit
  refine (countP_le_card (Finset.Ico first (first + limit) ∪
    Finset.Ico second (second + limit)) ?_).trans ?_
  · intro index entry hget hentry
    simp only [Bool.and_eq_true, decide_eq_true_eq] at hentry
    exact hpositions index entry hget hentry.1 hentry.2
  · calc (Finset.Ico first (first + limit) ∪ Finset.Ico second (second + limit)).card
        ≤ (Finset.Ico first (first + limit)).card + (Finset.Ico second (second + limit)).card :=
          Finset.card_union_le _ _
      _ = 2 * limit := by
          rw [Nat.card_Ico, Nat.card_Ico]
          omega

end Counted

end Memory

/-! ## Runs in which a limiter has a key to itself -/

/-- What happens to a memory: a call of the limiter that has the key, or something else. -/
inductive Use (α : Type) where
  | call (moment : Moment)
  | other (event : Memory.Event α)

namespace Use

variable {α : Type}

def time : Use α → Instant
  | .call moment => moment.now
  | .other event => event.time

/-- What is done to the memory, if the caller is not done. -/
def event? (limiter : FixedWindow) (key : String) : Use α → Option (Memory.Event α)
  | .call moment =>
      if moment.isDone then none else some ⟨moment.now, .increment key limiter.window⟩
  | .other event => some event

@[simp] theorem event?_other (limiter : FixedWindow) (key : String) (event : Memory.Event α) :
    (other event).event? limiter key = some event := rfl

@[simp] theorem event?_call_of_done (limiter : FixedWindow) (key : String) {moment : Moment}
    (hdone : moment.isDone = true) : (call moment : Use α).event? limiter key = none :=
  if_pos hdone

@[simp] theorem event?_call_of_live (limiter : FixedWindow) (key : String) {moment : Moment}
    (hlive : moment.isDone = false) : (call moment : Use α).event? limiter key =
      some ⟨moment.now, .increment key limiter.window⟩ :=
  if_neg (by simp [hlive])

theorem time_of_event? {limiter : FixedWindow} {key : String} {use : Use α}
    {event : Memory.Event α} (hevent : use.event? limiter key = some event) :
    event.time = use.time := by
  cases use with
  | call moment =>
      simp only [event?, Option.ite_none_left_eq_some, Option.some.injEq] at hevent
      rw [← hevent.2]
      rfl
  | other event =>
      rw [← Option.some.inj hevent]
      rfl

theorem chronological_events (limiter : FixedWindow) (key : String) {uses : List (Use α)}
    (hordered : uses.Pairwise fun earlier later => earlier.time ≤ later.time) :
    Memory.Chronological (uses.filterMap (event? limiter key)) := by
  refine List.pairwise_filterMap.mpr (hordered.imp ?_)
  intro earlier later hle event hevent other hother
  rw [time_of_event? hevent, time_of_event? hother]
  exact hle

/-- The calls of the key are those of the limiter. -/
theorem call_of_mem_callsOn {limiter : FixedWindow} {key : String} {uses : List (Use α)}
    (honly : ∀ event, other event ∈ uses → event.callOn? key = none) {made : Memory.Call}
    (hmade : made ∈ Memory.callsOn key (uses.filterMap (event? limiter key))) :
    ∃ moment, call moment ∈ uses ∧ made = ⟨moment.now, limiter.window⟩ := by
  obtain ⟨event, hevent, hcall⟩ := List.mem_filterMap.mp hmade
  obtain ⟨use, huse, hsome⟩ := List.mem_filterMap.mp hevent
  cases use with
  | other event =>
      obtain rfl := Option.some.inj hsome
      rw [honly _ huse] at hcall
      cases hcall
  | call moment =>
      simp only [event?, Option.ite_none_left_eq_some, Option.some.injEq] at hsome
      obtain ⟨-, rfl⟩ := hsome
      exact ⟨moment, huse, (Option.some.inj ((if_pos rfl).symm.trans hcall)).symm⟩

end Use

namespace FixedWindow

variable {α : Type} [Quantity α]

/-- When the calls of the limiter are made and what they are answered with, those of callers who
are done left out. -/
def verdictsIn (limiter : FixedWindow) (key : String) (memory : Memory α) :
    List (Use α) → List (Instant × Verdict)
  | [] => []
  | .other event :: rest => verdictsIn limiter key (memory.afterEvent event) rest
  | .call moment :: rest =>
      let (answer, memory) := (Limiter.fixedWindow limiter).allow memory moment key
      match answer.outcome with
      | .ok verdict => (moment.now, verdict) :: verdictsIn limiter key memory rest
      | .error _ => verdictsIn limiter key memory rest

/-- The verdicts are the counts of the key, judged. -/
theorem verdictsIn_eq (limiter : FixedWindow) {key : String} (memory : Memory α)
    {uses : List (Use α)} (honly : ∀ event, .other event ∈ uses → event.callOn? key = none) :
    limiter.verdictsIn key memory uses =
      ((memory.history (uses.filterMap (Use.event? limiter key))).filterMap
        (Memory.countOn? key)).map fun entry => (entry.1, limiter.judge entry.2) := by
  induction uses generalizing memory with
  | nil => rfl
  | cons use rest ih =>
      have hrest := fun memory => ih memory fun event hevent =>
        honly event (List.mem_cons_of_mem _ hevent)
      cases use with
      | other event =>
          have hnone : Memory.countOn? key
              (event, (memory.perform event.time event.operation).1) = none := by
            have hcall := honly event (List.mem_cons_self ..)
            obtain ⟨time, operation⟩ := event
            cases operation with
            | increment other window =>
                have hkey : other ≠ key := by
                  rintro rfl
                  exact absurd hcall (by simp [Memory.Event.callOn?])
                exact if_neg hkey
            | take => rfl
            | sweep => rfl
          rw [List.filterMap_cons_some (Use.event?_other ..), Memory.history_cons,
            List.filterMap_cons_none hnone]
          exact hrest _
      | call moment =>
          cases hdone : moment.isDone with
          | true =>
              rw [List.filterMap_cons_none (Use.event?_call_of_done limiter key hdone), verdictsIn,
                Limiter.allow_fixedWindow_of_done limiter memory hdone]
              exact hrest _
          | false =>
              have hcount : Memory.countOn? key
                  ((⟨moment.now, .increment key limiter.window⟩ : Memory.Event α),
                    (memory.perform moment.now (.increment key limiter.window)).1) =
                  some (moment.now, (memory.increment moment.now key limiter.window).1) :=
                if_pos rfl
              rw [List.filterMap_cons_some (Use.event?_call_of_live limiter key hdone),
                Memory.history_cons, List.filterMap_cons_some hcount, List.map_cons, ← hrest,
                verdictsIn, Limiter.allow_fixedWindow limiter memory hdone]

/-- Of calls that are numbered from one, those up to the limit are allowed and leave one less
each, and the rest are denied. -/
theorem judge_of_numbered (limiter : FixedWindow) {entries : List (Instant × WindowCount)}
    (hcounts : entries.map (fun entry => entry.2.count) =
      (List.range entries.length).map (· + 1)) :
    (entries.map fun entry => (entry.1, limiter.judge entry.2)).map
        (fun entry => (entry.2.allowed, entry.2.remaining)) =
      (List.range entries.length).map fun index =>
        (decide (index < limiter.limit), limiter.limit - (index + 1)) := by
  calc (entries.map fun entry => (entry.1, limiter.judge entry.2)).map
        (fun entry => (entry.2.allowed, entry.2.remaining))
      = (entries.map fun entry => entry.2.count).map
          fun count => (decide (count ≤ limiter.limit), limiter.limit - count) := by
        rw [List.map_map, List.map_map]
        rfl
    _ = (List.range entries.length).map fun index =>
          (decide (index < limiter.limit), limiter.limit - (index + 1)) := by
        rw [hcounts, List.map_map]
        rfl

/-- **At most twice the limit in any interval as long as the window.**  Let a limiter have a key to
itself in a run.  Then every interval of the length of its window, wherever it begins, contains at
most twice the limit of calls that are allowed.  Of the calls in one window, the first ones up to
the limit are allowed and leave one less each, and the rest are denied.  (For a counter of 64 bits
this holds below `2 ^ 64` calls in one window.) -/
theorem admitted_le_two_mul_limit (limiter : FixedWindow) (key : String) {uses : List (Use α)}
    (hordered : uses.Pairwise fun earlier later => earlier.time ≤ later.time)
    (honly : ∀ event, .other event ∈ uses → event.callOn? key = none)
    (hfits : ∀ moment, .call moment ∈ uses → (moment.now.after limiter.window).Representable) :
    let verdicts := limiter.verdictsIn key (.empty : Memory α) uses
    (∀ start : Instant,
      verdicts.countP (fun entry =>
        decide (start.InSpan limiter.window entry.1) && entry.2.allowed) ≤ 2 * limiter.limit) ∧
    ∀ position anchor,
      Memory.Anchors (verdicts.map fun entry => ⟨entry.1, limiter.window⟩) position anchor →
      let part := (verdicts.drop position).takeWhile fun entry =>
        decide (entry.1 < anchor.windowEnd)
      part.map (fun entry => (entry.2.allowed, entry.2.remaining)) =
        (List.range part.length).map fun index =>
          (decide (index < limiter.limit), limiter.limit - (index + 1)) := by
  intro verdicts
  have hchronological := Use.chronological_events limiter key hordered
  have hcounted := Memory.counted_history hchronological key
  have hsorted := Memory.callsOn_ordered key hchronological
  have hcalls : ∀ made ∈ Memory.callsOn key (uses.filterMap (Use.event? limiter key)),
      ∃ moment, .call moment ∈ uses ∧ made = ⟨moment.now, limiter.window⟩ :=
    fun _ hmade => Use.call_of_mem_callsOn honly hmade
  have hverdicts : verdicts = _ := limiter.verdictsIn_eq .empty honly
  generalize (Memory.empty.history (uses.filterMap (Use.event? limiter key))).filterMap
    (Memory.countOn? key) = answers at hcounted hverdicts
  generalize Memory.callsOn key (uses.filterMap (Use.event? limiter key)) = calls
    at hcounted hsorted hcalls
  clear_value verdicts
  subst hverdicts
  constructor
  · intro start
    have hends : ∀ call ∈ calls, call.windowEnd = call.time.after limiter.window := by
      intro call hcall
      obtain ⟨moment, hmoment, rfl⟩ := hcalls call hcall
      exact Memory.Call.windowEnd_of_representable (hfits moment hmoment)
    rw [List.countP_map]
    exact hcounted.countP_le hsorted limiter.lasting hends start limiter.limit
  · intro position anchor hanchors part
    have hwindow : ∀ call ∈ calls, call.window = limiter.window := by
      intro call hcall
      obtain ⟨moment, -, rfl⟩ := hcalls call hcall
      rfl
    rw [List.map_map] at hanchors
    have hcounts := hcounted.counts_of_anchor hsorted
      ((hcounted.calls_eq hwindow).symm ▸ hanchors)
    have hpart : part = ((answers.drop position).takeWhile fun entry =>
        decide (entry.1 < anchor.windowEnd)).map
          fun entry => (entry.1, limiter.judge entry.2) := by
      unfold part
      rw [← List.map_drop, List.takeWhile_map]
      rfl
    rw [hpart, List.length_map]
    exact limiter.judge_of_numbered hcounts

/-- Two calls in ten nanoseconds. -/
def twice : FixedWindow := ⟨2, ⟨10⟩, by decide⟩

/-- A window, a sweep at its very end, and the next window; the last caller is done. -/
def twoWindows : List (Use Rat) :=
  [.call ⟨⟨0⟩, ⟨0⟩, none⟩, .call ⟨⟨9⟩, ⟨0⟩, none⟩, .other ⟨⟨10⟩, .sweep⟩,
    .call ⟨⟨10⟩, ⟨0⟩, none⟩, .other ⟨⟨10⟩, .take "k" 1 1⟩, .other ⟨⟨11⟩, .increment "l" ⟨3⟩⟩,
    .call ⟨⟨11⟩, ⟨0⟩, some ⟨12⟩⟩, .call ⟨⟨12⟩, ⟨0⟩, none⟩, .call ⟨⟨13⟩, ⟨0⟩, some ⟨12⟩⟩]

/-- Three calls are allowed from the last one of the first window on. -/
theorem admitted_le_two_mul_limit_twoWindows :
    (twoWindows.Pairwise fun earlier later => earlier.time ≤ later.time) ∧
      (∀ event, .other event ∈ twoWindows → event.callOn? "k" = none) ∧
      (∀ moment, .call moment ∈ twoWindows → (moment.now.after twice.window).Representable) ∧
      ((twice.verdictsIn "k" .empty twoWindows).countP fun entry =>
        decide (Instant.InSpan ⟨9⟩ twice.window entry.1) && entry.2.allowed) ≤ 4 := by
  have hordered : twoWindows.Pairwise fun earlier later => earlier.time ≤ later.time := by decide
  have honly : ∀ event, .other event ∈ twoWindows → event.callOn? "k" = none := by
    intro event hevent
    simp only [twoWindows, List.mem_cons, Use.other.injEq, reduceCtorEq, List.not_mem_nil,
      false_or, or_false] at hevent
    rcases hevent with rfl | rfl | rfl <;> rfl
  have hfits : ∀ moment, .call moment ∈ twoWindows →
      (moment.now.after twice.window).Representable := by
    intro moment hmoment
    simp only [twoWindows, List.mem_cons, Use.call.injEq, reduceCtorEq, List.not_mem_nil,
      false_or, or_false] at hmoment
    rcases hmoment with rfl | rfl | rfl | rfl | rfl | rfl <;> decide
  exact ⟨hordered, honly, hfits,
    (admitted_le_two_mul_limit twice "k" hordered honly hfits).1 ⟨9⟩⟩

example : (twice.verdictsIn "k" .empty twoWindows).map (fun entry => entry.2.allowed) =
    [true, true, true, true, false] := by decide

end FixedWindow

end Throttle
