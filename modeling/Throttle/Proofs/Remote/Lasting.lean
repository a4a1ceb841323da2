import Throttle.Limiter.FixedWindow
import Throttle.Proofs.Remote.Counter

/-!
# How long a fixed window lasts on a server

A counter expires by the window that its first call has sent, and no later call moves its expiry.
So a window lasts as long as the number of milliseconds that is sent, which is at least one and is
then cut down to a word of 64 bits.  A window whose milliseconds fill a word to the brim starts
over at zero: it is sent as a shorter one, and its calls are told of a new window too soon.  That
is the only way in which a window can end early (`lasts_iff`): where the word that is sent has its
highest bit set the server refuses it, and no call is ever told that such a window has begun.

The runs here are no longer than `2 ^ 53` calls, since the script cannot count further than that.
-/

namespace Throttle.Remote

open KeySpace

/-- The count that a caller is told. -/
def Outcome.told? {α : Type} (outcome : Outcome α) : Option Nat :=
  outcome.count?.map WindowCount.count

/-- Whether a limiter allows the call that a caller is told of. -/
def Outcome.isAllowed {α : Type} (outcome : Outcome α) (limiter : FixedWindow) : Bool :=
  outcome.count?.any fun counted => (limiter.judge counted).allowed

/-- The milliseconds that a window is to last: its whole milliseconds, but one at least. -/
def millisOf (window : Duration) : Nat := max window.millis 1

/-- **A window never ends early**: in every run of increments on one key that all succeed, once a
call has begun such a window, every later one that comes before its end is told a count one higher
than the call before it, and a limiter with that window allows no more than its limit of them. -/
def Lasts (window : Duration) : Prop :=
  ∀ (keyPrefix : String) (commandTimeout : Option Duration) (clock : Int) (key : String)
    (calls : List (Call Binary64)), Chronological calls →
    (∀ call ∈ calls, ∃ asked, call.operation = .increment key asked) →
    calls.length ≤ twoTo 53 →
    let history := (onFreshServer keyPrefix commandTimeout clock).history calls
    (∀ entry ∈ history, entry.2.count?.isSome) →
    ∀ before anchor later, history = before ++ anchor :: later →
      anchor.1.operation = .increment key window → anchor.2.told? = some 1 →
      let isInside (entry : Call Binary64 × Outcome Binary64) : Bool :=
        decide (entry.1.millis clock < anchor.1.millis clock + millisOf window)
      (∀ position entry, later[position]? = some entry → isInside entry →
        entry.2.told? = some (position + 2)) ∧
      ∀ limiter : FixedWindow, limiter.window = window →
        ((anchor :: later).countP fun entry => isInside entry && entry.2.isAllowed limiter) ≤
          limiter.limit

/-! ## One increment that succeeds -/

/-- A server that has counted no more than some calls for a key, or nothing. -/
structure Counts (space : KeySpace Binary64) (now : Int) (name : String) (most : Nat) : Prop where
  apart : space.Apart now name
  state : Script.countCall.stateAt space now name = none ∨
    ∃ count expiry, 1 ≤ count ∧ count ≤ most ∧
      Script.countCall.stateAt space now name = some (counterEntry count expiry)

variable {remote : Remote Binary64} {clock : Int} {space : KeySpace Binary64} {name : String}
  {call : Call Binary64} {key : String} {window : Duration} {count most : Nat} {expiry : Int}

theorem Counts.mono {now later : Int} (hcounts : Counts space now name most)
    (hlater : now ≤ later) : Counts space later name most := by
  refine ⟨hcounts.apart.mono hlater, ?_⟩
  rw [hcounts.apart.stateAt_later hlater]
  rcases hcounts.state with hnone | ⟨count, expiry, hpositive, hmost, hsome⟩
  · exact Or.inl (by rw [hnone, Option.filter_none])
  · rw [hsome]
    by_cases hlive : isLive later (counterEntry count expiry : Entry Binary64) = true
    · exact Or.inr ⟨count, expiry, hpositive, hmost, Option.filter_some_pos hlive⟩
    · exact Or.inl (Option.filter_some_neg (Bool.eq_false_iff.mpr hlive))

theorem not_isDone_of_told (hoperation : call.operation = .increment key window)
    (htold : (remote.serve clock space call).1.count?.isSome) : call.moment.isDone = false := by
  by_contra hdone
  have hserved : remote.serve clock space call =
      (call.outcome ⟨.error .canceled, call.moment.now⟩, space) :=
    if_pos (Bool.eq_true_of_not_eq_false hdone)
  rw [hserved, Call.outcome, hoperation] at htold
  cases htold

/-- The outcome of an increment whose script has answered. -/
theorem told_of_reply (hoperation : call.operation = .increment key window)
    (hdone : call.moment.isDone = false) {left : Int} (hpositive : 1 ≤ count)
    (hcount : count ≤ twoTo 53)
    (hreply : (Script.countRun space (call.millis clock) (remote.serverKey key) window).outcome =
      .ok (countReply Binary64 count left)) :
    (remote.serve clock space call).1.told? = some count := by
  have hlarge : twoTo 53 ≤ twoTo 64 := by decide
  have hexact : Script.throughQuantity Binary64 count = count :=
    Script.throughQuantity_of_le (by simpa using hcount)
  have hread := Reply.readCount_countReply hpositive (hcount.trans hlarge) left window
  rw [hexact, Int.toNat_natCast] at hread
  rw [serve_increment remote clock space hoperation hdone, ScriptRun.answer, hreply]
  simp only
  rw [readAnswer_of_read hread]
  rfl

theorem serve_snd_of_increment (hoperation : call.operation = .increment key window)
    (hdone : call.moment.isDone = false) :
    (remote.serve clock space call).2 =
      (Script.countRun space (call.millis clock) (remote.serverKey key) window).space := by
  rw [serve_increment remote clock space hoperation hdone]

/-- A call that finds a counter is told one more, and leaves its expiry. -/
theorem serve_of_present (hoperation : call.operation = .increment key window)
    (hdone : call.moment.isDone = false)
    (hapart : space.Apart (call.millis clock) (remote.serverKey key))
    (hpresent : Script.countCall.stateAt space (call.millis clock) (remote.serverKey key) =
      some (counterEntry count expiry)) (hpositive : 1 ≤ count) (hcount : count < twoTo 53) :
    let served := remote.serve clock space call
    served.1.told? = some (count + 1) ∧
      served.2.Apart (call.millis clock) (remote.serverKey key) ∧
      Script.countCall.stateAt served.2 (call.millis clock) (remote.serverKey key) =
        some (counterEntry (count + 1) expiry) := by
  have hlarge : twoTo 53 < twoTo 63 := by decide
  obtain ⟨hafter, hreply, hstate⟩ :=
    Script.countRun_of_present hapart hpresent hpositive (by omega) window
  intro served
  refine ⟨told_of_reply hoperation hdone (Nat.succ_le_succ (Nat.zero_le _)) hcount hreply, ?_, ?_⟩
  · rwa [show served.2 = _ from serve_snd_of_increment hoperation hdone]
  · rwa [show served.2 = _ from serve_snd_of_increment hoperation hdone]

/-- A call that finds no counter and succeeds is told that it is the first: the server has
accepted its window. -/
theorem serve_of_absent (hoperation : call.operation = .increment key window)
    (hdone : call.moment.isDone = false)
    (hapart : space.Apart (call.millis clock) (remote.serverKey key))
    (habsent : Script.countCall.stateAt space (call.millis clock) (remote.serverKey key) = none) :
    let sent := windowMillis window
    let served := remote.serve clock space call
    served.2.Apart (call.millis clock) (remote.serverKey key) ∧
      (served.1.count?.isSome → ExpiryFits (call.millis clock) sent) ∧
      (ExpiryFits (call.millis clock) sent → served.1.told? = some 1 ∧
        Script.countCall.stateAt served.2 (call.millis clock) (remote.serverKey key) =
          if sent = 0 then none
          else some (counterEntry 1 (call.millis clock + sent))) := by
  intro sent served
  obtain ⟨hafter, hcases⟩ := Script.countRun_of_absent hapart habsent window
  have hspace : served.2 = _ := serve_snd_of_increment hoperation hdone
  have hone : 1 ≤ twoTo 53 := by decide
  refine ⟨by rwa [hspace], ?_⟩
  rw [hspace]
  rcases hcases with ⟨hunfit, error, herror⟩ | ⟨hfits, hzero, hreply, hstate⟩ |
    ⟨hfits, hpositive, hreply, hstate⟩
  · refine ⟨fun htold => ?_, fun hfits => absurd hfits hunfit⟩
    have hfailed : served.1.count? = none := by
      unfold served
      rw [serve_increment remote clock space hoperation hdone, ScriptRun.answer, herror]
      rfl
    rw [hfailed] at htold
    cases htold
  · refine ⟨fun _ => hfits, fun _ => ⟨told_of_reply hoperation hdone le_rfl hone hreply, ?_⟩⟩
    rw [hstate, if_pos hzero]
  · refine ⟨fun _ => hfits, fun _ => ⟨told_of_reply hoperation hdone le_rfl hone hreply, ?_⟩⟩
    rw [hstate, if_neg hpositive.ne']

theorem isSome_of_told {outcome : Outcome Binary64} (htold : outcome.told? = some count) :
    outcome.count?.isSome := by
  obtain ⟨counted, hcounted, -⟩ := Option.map_eq_some_iff.mp htold
  rw [hcounted]
  rfl

/-- An increment that succeeds counts one call more at most. -/
theorem Counts.serve (hcounts : Counts space (call.millis clock) (remote.serverKey key) most)
    (hmost : most < twoTo 53) (hoperation : call.operation = .increment key window)
    (htold : (remote.serve clock space call).1.count?.isSome) :
    Counts (remote.serve clock space call).2 (call.millis clock) (remote.serverKey key)
      (most + 1) := by
  have hdone := not_isDone_of_told hoperation htold
  rcases hcounts.state with habsent | ⟨count, expiry, hpositive, hle, hpresent⟩
  · obtain ⟨hafter, hfits, hbegun⟩ := serve_of_absent hoperation hdone hcounts.apart habsent
    obtain ⟨-, hstate⟩ := hbegun (hfits htold)
    refine ⟨hafter, ?_⟩
    rw [hstate]
    split_ifs
    · exact Or.inl rfl
    · exact Or.inr ⟨1, _, le_rfl, Nat.succ_le_succ (Nat.zero_le _), rfl⟩
  · obtain ⟨-, hafter, hstate⟩ :=
      serve_of_present hoperation hdone hcounts.apart hpresent hpositive (by omega)
    exact ⟨hafter, Or.inr ⟨count + 1, expiry, by omega, by omega, hstate⟩⟩

/-- A call that is told of the first count has found no counter. -/
theorem Counts.absent_of_told
    (hcounts : Counts space (call.millis clock) (remote.serverKey key) most)
    (hmost : most < twoTo 53) (hoperation : call.operation = .increment key window)
    (hdone : call.moment.isDone = false)
    (htold : (remote.serve clock space call).1.told? = some 1) :
    Script.countCall.stateAt space (call.millis clock) (remote.serverKey key) = none := by
  rcases hcounts.state with hnone | ⟨count, expiry, hpositive, hle, hpresent⟩
  · exact hnone
  · obtain ⟨hmore, -, -⟩ :=
      serve_of_present hoperation hdone hcounts.apart hpresent hpositive (hle.trans_lt hmost)
    have hone := Option.some.inj (hmore.symm.trans htold)
    omega

/-! ## Runs that succeed -/

/-- A timeout of no length lets no call succeed. -/
theorem timeout_ne_zero_of_success {keyPrefix : String} {commandTimeout : Option Duration}
    {calls : List (Call Binary64)} (hordered : Chronological calls)
    {entry : Call Binary64 × Outcome Binary64}
    (hentry : entry ∈ (onFreshServer keyPrefix commandTimeout clock).history calls)
    (hasks : entry.1.operation = .increment key window) (hsuccess : entry.2.count?.isSome) :
    commandTimeout ≠ some .zero := by
  rintro rfl
  rw [(hurried_onFreshServer keyPrefix clock).history_eq hordered fun _ _ => Nat.zero_le _]
    at hentry
  obtain ⟨call, -, rfl⟩ := List.mem_map.mp hentry
  simp only at hasks hsuccess
  rw [givenUp, Call.outcome, hasks] at hsuccess
  cases hsuccess

/-- Where an entry of a run comes from. -/
theorem replay_split {calls : List (Call Binary64)}
    {before later : List (Call Binary64 × Outcome Binary64)}
    {entry : Call Binary64 × Outcome Binary64}
    (hsplit : remote.replay clock space calls = before ++ entry :: later) :
    ∃ first rest, calls = first ++ entry.1 :: rest ∧ before = remote.replay clock space first ∧
      entry.2 = (remote.serve clock (remote.spaceAfter clock space first) entry.1).1 ∧
      later = remote.replay clock
        (remote.serve clock (remote.spaceAfter clock space first) entry.1).2 rest := by
  induction before generalizing calls space with
  | nil =>
      cases calls with
      | nil => cases hsplit
      | cons call rest =>
          rw [replay_cons, List.nil_append] at hsplit
          obtain ⟨rfl, rfl⟩ := List.cons.inj hsplit
          exact ⟨[], rest, rfl, rfl, rfl, rfl⟩
  | cons made before ih =>
      cases calls with
      | nil => cases hsplit
      | cons call rest =>
          rw [replay_cons, List.cons_append] at hsplit
          obtain ⟨rfl, hmore⟩ := List.cons.inj hsplit
          obtain ⟨first, others, rfl, rfl, hentry, hlater⟩ := ih hmore
          exact ⟨call :: first, others, rfl, rfl, hentry, hlater⟩

/-- What a run of successful increments leaves for a key. -/
theorem Counts.spaceAfter {calls : List (Call Binary64)} (hordered : Chronological calls)
    (hcalls : ∀ call ∈ calls, ∃ asked, call.operation = .increment key asked) {now later : Int}
    (hnow : now ≤ later)
    (htimes : ∀ call ∈ calls, now ≤ call.millis clock ∧ call.millis clock ≤ later)
    (hsuccess : ∀ entry ∈ remote.replay clock space calls, entry.2.count?.isSome)
    (hcounts : Counts space now (remote.serverKey key) most)
    (hmost : most + calls.length ≤ twoTo 53) :
    Counts (remote.spaceAfter clock space calls) later (remote.serverKey key)
      (most + calls.length) := by
  induction calls generalizing space now most with
  | nil => exact hcounts.mono hnow
  | cons call rest ih =>
      obtain ⟨hlater, hrest⟩ := List.pairwise_cons.mp hordered
      obtain ⟨hbefore, hafter⟩ := htimes call (List.mem_cons_self ..)
      obtain ⟨asked, hoperation⟩ := hcalls call (List.mem_cons_self ..)
      rw [List.length_cons] at hmost ⊢
      have hthis := (hcounts.mono hbefore).serve (by omega) hoperation
        (hsuccess _ (List.mem_cons_self ..))
      have hthen := ih hrest (fun other hother => hcalls other (List.mem_cons_of_mem _ hother))
        hafter (fun other hother => ⟨Call.millis_le clock (hlater other hother),
          (htimes other (List.mem_cons_of_mem _ hother)).2⟩)
        (fun entry hentry => hsuccess entry (List.mem_cons_of_mem _ hentry)) hthis (by omega)
      rwa [Nat.add_right_comm, Nat.add_assoc] at hthen

/-- While a counter lives, successive calls are told successive counts. -/
theorem told_of_lasting {calls : List (Call Binary64)} (hordered : Chronological calls)
    (hcalls : ∀ call ∈ calls, ∃ asked, call.operation = .increment key asked) {now : Int}
    (hnow : ∀ call ∈ calls, now ≤ call.millis clock)
    (hsuccess : ∀ entry ∈ remote.replay clock space calls, entry.2.count?.isSome)
    (hapart : space.Apart now (remote.serverKey key))
    (hpresent : Script.countCall.stateAt space now (remote.serverKey key) =
      some (counterEntry count expiry)) (hpositive : 1 ≤ count)
    (hcount : count + calls.length ≤ twoTo 53) {position : Nat}
    {entry : Call Binary64 × Outcome Binary64}
    (hentry : (remote.replay clock space calls)[position]? = some entry)
    (hinside : entry.1.millis clock ≤ expiry) : entry.2.told? = some (count + position + 1) := by
  induction calls generalizing space now count position with
  | nil => cases hentry
  | cons call rest ih =>
      obtain ⟨hlater, hrest⟩ := List.pairwise_cons.mp hordered
      obtain ⟨asked, hoperation⟩ := hcalls call (List.mem_cons_self ..)
      have hdone := not_isDone_of_told hoperation (hsuccess _ (List.mem_cons_self ..))
      have hstart := hnow call (List.mem_cons_self ..)
      rw [List.length_cons] at hcount
      have hreached : call.millis clock ≤ expiry := by
        cases position with
        | zero =>
            obtain rfl := Option.some.inj hentry
            exact hinside
        | succ position =>
            have hmem : entry ∈ remote.replay clock (remote.serve clock space call).2 rest :=
              List.mem_of_getElem? hentry
            exact (Call.millis_le clock (hlater _ (fst_mem_of_mem_replay hmem))).trans hinside
      have hheld : Script.countCall.stateAt space (call.millis clock) (remote.serverKey key) =
          some (counterEntry count expiry) := by
        rw [hapart.stateAt_later hstart, hpresent, Option.filter_some_pos]
        exact decide_eq_true hreached
      obtain ⟨htold, hafter, hstate⟩ := serve_of_present hoperation hdone (hapart.mono hstart) hheld
        hpositive (by omega)
      cases position with
      | zero =>
          obtain rfl := Option.some.inj hentry
          exact htold
      | succ position =>
          have hthen := ih hrest (fun other hother => hcalls other (List.mem_cons_of_mem _ hother))
            (fun other hother => Call.millis_le clock (hlater other hother))
            (fun made hmade => hsuccess made (List.mem_cons_of_mem _ hmade)) hafter hstate
            (Nat.succ_le_succ (Nat.zero_le _)) (by omega) hentry
          rw [hthen]
          congr 1
          omega

/-- Entries that are told `1, 2, 3, …` are allowed as often as the limit says. -/
theorem countP_allowed_le {entries : List (Call Binary64 × Outcome Binary64)}
    {isInside : Call Binary64 × Outcome Binary64 → Bool} (limiter : FixedWindow)
    (htold : ∀ position entry, entries[position]? = some entry → isInside entry →
      entry.2.told? = some (position + 1)) :
    (entries.countP fun entry => isInside entry && entry.2.isAllowed limiter) ≤ limiter.limit := by
  have hlate : ∀ entry ∈ entries.drop limiter.limit,
      ¬ (isInside entry && entry.2.isAllowed limiter) = true := by
    intro entry hentry hallowed
    obtain ⟨index, hindex⟩ := List.mem_iff_getElem?.mp hentry
    rw [List.getElem?_drop] at hindex
    obtain ⟨hinside, hpass⟩ := (Bool.and_eq_true ..).mp hallowed
    have hposition := htold _ entry hindex hinside
    unfold Outcome.told? at hposition
    unfold Outcome.isAllowed at hpass
    obtain ⟨counted, hcounted, hcount⟩ := Option.map_eq_some_iff.mp hposition
    rw [hcounted, Option.any_some, FixedWindow.judge] at hpass
    have hle := of_decide_eq_true hpass
    omega
  calc (entries.countP fun entry => isInside entry && entry.2.isAllowed limiter)
      = (entries.take limiter.limit ++ entries.drop limiter.limit).countP
          fun entry => isInside entry && entry.2.isAllowed limiter := by
        rw [List.take_append_drop]
    _ = (entries.take limiter.limit).countP
          fun entry => isInside entry && entry.2.isAllowed limiter := by
        rw [List.countP_append, List.countP_eq_zero.mpr hlate, Nat.add_zero]
    _ ≤ (entries.take limiter.limit).length := List.countP_le_length
    _ ≤ limiter.limit := List.length_take_le _ _

/-! ## Windows that last -/

/-- If a window is sent as it is or refused, then one that is accepted was sent as it is. -/
theorem windowMillis_eq_of_accepted
    (hsent : millisOf window < twoTo 64 ∨ twoTo 63 ≤ millisOf window % twoTo 64) {now : Int}
    (haccepted : ExpiryFits now (windowMillis window)) : windowMillis window = millisOf window := by
  rcases hsent with hword | hlarge
  · exact Nat.mod_eq_of_lt hword
  · have hsmall := haccepted.1.2
    change (_ : Int) < _ at hsmall
    unfold windowMillis at hsmall
    unfold millisOf at hlarge
    omega

/-- A window that is sent as it is, or refused, never ends early. -/
theorem lasts_of_sent {window : Duration}
    (hsent : millisOf window < twoTo 64 ∨ twoTo 63 ≤ millisOf window % twoTo 64) :
    Lasts window := by
  intro keyPrefix commandTimeout clock key calls hordered hcalls hlength history hsuccess before
    anchor later hsplit hasks htold isInside
  have hentry : anchor ∈ history := hsplit ▸ List.mem_append_right _ (List.mem_cons_self ..)
  have htimeout : commandTimeout ≠ some .zero :=
    timeout_ne_zero_of_success hordered hentry hasks (hsuccess anchor hentry)
  set remote : Remote Binary64 := onFreshServer keyPrefix commandTimeout clock with hremote
  have hreplay : history = remote.replay clock .empty calls :=
    (serves_onFreshServer keyPrefix htimeout clock).history_eq hordered fun _ _ => Nat.zero_le _
  rw [hreplay] at hsplit hsuccess
  obtain ⟨first, rest, rfl, rfl, hanchor, rfl⟩ := replay_split hsplit
  obtain ⟨hfirst, hsecond, hacross⟩ := List.pairwise_append.mp hordered
  obtain ⟨hlater, hrest⟩ := List.pairwise_cons.mp hsecond
  rw [List.length_append, List.length_cons] at hlength
  rw [hsplit] at hsuccess
  -- what the server has for the key when the window begins
  have hcounts : Counts (remote.spaceAfter clock .empty first) (anchor.1.millis clock)
      (remote.serverKey key) first.length := by
    have hempty : Counts (.empty : KeySpace Binary64) clock (remote.serverKey key) 0 :=
      ⟨apart_empty _ _, Or.inl rfl⟩
    have hthen := hempty.spaceAfter hfirst
      (fun call hcall => hcalls call (List.mem_append_left _ hcall)) (anchor.1.le_millis clock)
      (fun call hcall => ⟨call.le_millis clock,
        Call.millis_le clock (hacross call hcall _ (List.mem_cons_self ..))⟩)
      (fun entry hentry => hsuccess entry (List.mem_append_left _ hentry)) (by omega)
    rwa [Nat.zero_add] at hthen
  have hsucceeds : (remote.serve clock (remote.spaceAfter clock .empty first)
      anchor.1).1.count?.isSome := by
    rw [← hanchor]
    exact hsuccess anchor (List.mem_append_right _ (List.mem_cons_self ..))
  have hdone := not_isDone_of_told hasks hsucceeds
  have habsent := hcounts.absent_of_told (by omega) hasks hdone (hanchor ▸ htold)
  obtain ⟨hafter, hfits, hbegun⟩ := serve_of_absent hasks hdone hcounts.apart habsent
  have haccepted := hfits hsucceeds
  obtain ⟨-, hstate⟩ := hbegun haccepted
  have hwhole := windowMillis_eq_of_accepted hsent haccepted
  have hpositive : 0 < millisOf window := Nat.le_max_right _ _
  rw [hwhole, if_neg hpositive.ne'] at hstate
  have htoldLater : ∀ position entry,
      (remote.replay clock (remote.serve clock (remote.spaceAfter clock .empty first) anchor.1).2
        rest)[position]? = some entry → isInside entry → entry.2.told? = some (position + 2) := by
    intro position entry hentry hinside
    have hthen := told_of_lasting hrest
      (fun call hcall => hcalls call (List.mem_append_right _ (List.mem_cons_of_mem _ hcall)))
      (fun call hcall => Call.millis_le clock (hlater call hcall))
      (fun made hmade => hsuccess made (List.mem_append_right _ (List.mem_cons_of_mem _ hmade)))
      hafter hstate le_rfl (by omega) hentry (of_decide_eq_true hinside).le
    rw [hthen]
    congr 1
    omega
  refine ⟨htoldLater, fun limiter _ => countP_allowed_le limiter ?_⟩
  intro position entry hentry hinside
  cases position with
  | zero =>
      obtain rfl := Option.some.inj hentry
      exact htold
  | succ position => exact htoldLater position entry hentry hinside

/-- Two calls, the second of them a millisecond after the end of the window that the first has
sent. -/
def shortenedRun (window : Duration) : List (Call Binary64) :=
  [0, (windowMillis window + 1) * nanosPerMilli].map fun nanos =>
    ⟨⟨⟨nanos⟩, ⟨0⟩, none⟩, .increment "k" window⟩

theorem chronological_shortenedRun (window : Duration) : Chronological (shortenedRun window) := by
  refine List.pairwise_cons.mpr ⟨?_, List.pairwise_singleton _ _⟩
  intro other hother
  obtain rfl := List.mem_singleton.mp hother
  exact Nat.zero_le _

theorem increment_of_mem_shortenedRun (hcall : call ∈ shortenedRun window) :
    ∃ asked, call.operation = .increment "k" asked := by
  obtain ⟨nanos, -, rfl⟩ := List.mem_map.mp hcall
  exact ⟨window, rfl⟩

/-- A window that is sent as a shorter one ends when that does. -/
theorem not_lasts_of_shortened {window : Duration} (hlong : twoTo 64 ≤ millisOf window)
    (hsent : millisOf window % twoTo 64 < twoTo 63) : ¬ Lasts window := by
  intro hlasts
  set sent := windowMillis window with hword
  have hsmall : sent < twoTo 63 := hsent
  have hwords : twoTo 63 < twoTo 64 := by decide
  -- the server's clock starts so early that the window which is sent ends just before zero
  set clock : Int := -((sent : Int) + 1) with hclock
  set remote : Remote Binary64 := onFreshServer "" none clock with hremote
  set first : Call Binary64 := ⟨⟨⟨0⟩, ⟨0⟩, none⟩, .increment "k" window⟩ with hfirst
  set second : Call Binary64 :=
    ⟨⟨⟨(sent + 1) * nanosPerMilli⟩, ⟨0⟩, none⟩, .increment "k" window⟩ with hsecond
  have hfirstMillis : first.millis clock = clock := by
    change clock + ((0 / nanosPerMilli : Nat) : Int) = clock
    rw [Nat.zero_div, Int.natCast_zero, Int.add_zero]
  have hsecondMillis : second.millis clock = 0 := by
    change clock + (((sent + 1) * nanosPerMilli / nanosPerMilli : Nat) : Int) = 0
    rw [Nat.mul_div_cancel _ (by decide)]
    push_cast
    omega
  have hfits : ∀ now : Int, now = clock ∨ now = 0 → ExpiryFits now sent := by
    rintro now (rfl | rfl)
    · exact ⟨⟨by omega, by omega⟩, ⟨by omega, by omega⟩⟩
    · exact ⟨⟨by omega, by omega⟩, ⟨by omega, by omega⟩⟩
  -- both calls begin a window
  obtain ⟨hafter, -, hbegun⟩ := @serve_of_absent remote clock .empty first "k" window rfl rfl
    (apart_empty _ _) rfl
  obtain ⟨htoldFirst, hstate⟩ := hbegun (hfits _ (Or.inl hfirstMillis))
  have hpassed : first.millis clock ≤ second.millis clock := by
    rw [hfirstMillis, hsecondMillis]
    omega
  have habsent : Script.countCall.stateAt (remote.serve clock .empty first).2
      (second.millis clock) (remote.serverKey "k") = none := by
    rw [hafter.stateAt_later hpassed, hstate]
    split_ifs
    · rfl
    · refine Option.filter_some_neg (decide_eq_false ?_)
      rw [hfirstMillis, hsecondMillis]
      omega
  obtain ⟨-, -, hbegunAgain⟩ := @serve_of_absent remote clock _ second "k" window rfl rfl
    (hafter.mono hpassed) habsent
  obtain ⟨htoldSecond, -⟩ := hbegunAgain (hfits _ (Or.inr hsecondMillis))
  have hhistory : remote.history (shortenedRun window) =
      [(first, (remote.serve clock .empty first).1),
        (second, (remote.serve clock (remote.serve clock .empty first).2 second).1)] :=
    (serves_onFreshServer "" (by decide) clock).history_eq (chronological_shortenedRun window)
      fun _ _ => Nat.zero_le _
  have hsuccess : ∀ entry ∈ remote.history (shortenedRun window), entry.2.count?.isSome := by
    rw [hhistory]
    intro entry hentry
    rcases List.mem_cons.mp hentry with rfl | hentry
    · exact isSome_of_told htoldFirst
    · obtain rfl := List.mem_singleton.mp hentry
      exact isSome_of_told htoldSecond
  obtain ⟨hsuccessive, -⟩ := hlasts "" none clock "k" (shortenedRun window)
    (chronological_shortenedRun window) (fun _ => increment_of_mem_shortenedRun)
    (show 2 ≤ twoTo 53 by decide) hsuccess [] _ _ hhistory rfl htoldFirst
  -- the second call is told of the first count, though it comes inside the window
  have hinside : second.millis clock < first.millis clock + millisOf window := by
    rw [hfirstMillis, hsecondMillis]
    omega
  have htoldTwo := hsuccessive 0 _ rfl (decide_eq_true hinside)
  rw [htoldSecond] at htoldTwo
  cases htoldTwo

/-- **Which windows never end early on a server**: those whose milliseconds fit a word of 64 bits,
and those that the server refuses since the word that is sent has its highest bit set. -/
theorem lasts_iff (window : Duration) :
    Lasts window ↔
      millisOf window < twoTo 64 ∨ twoTo 63 ≤ millisOf window % twoTo 64 := by
  constructor
  · intro hlasts
    by_contra! hshortened
    exact not_lasts_of_shortened hshortened.1 hshortened.2 hlasts
  · exact lasts_of_sent

/-- A window of `2 ^ 64` milliseconds is sent as one of none: two calls at the same instant are both
told that they are the first, and a limiter of one call allows both. -/
theorem window_of_word_ends_at_once :
    let window : Duration := .ofMillis (twoTo 64)
    let call : Call Binary64 := ⟨⟨⟨0⟩, ⟨0⟩, none⟩, .increment "k" window⟩
    let outcomes := ((onFreshServer "" none 0).history [call, call]).map Prod.snd
    millisOf window = twoTo 64 ∧ window ≤ .longest ∧
      outcomes.map Outcome.told? = [some 1, some 1] ∧
      outcomes.map (Outcome.isAllowed · ⟨1, window, by decide⟩) = [true, true] := by
  decide +kernel

end Throttle.Remote
