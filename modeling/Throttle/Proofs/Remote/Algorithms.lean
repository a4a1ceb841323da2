import Throttle.Proofs.Remote.Run

/-!
# The two scripts on one key

Both scripts work on one key, and share its name: the first to come keeps its state there, the
other one beside it, and when a state has expired the places may be taken the other way round.
What a script has for a key (`Script.stateAt`) does not depend on where it is.

The invariant is that a script never has a state in both places (`Apart`).  Under it a run of a
script changes its own state only (`Apart.run`), and states expire as entries do
(`Apart.stateAt_later`).  So each algorithm answers as if it were alone on the key
(`algorithms_independent`).
-/

namespace Throttle

variable {α : Type}

open KeySpace

namespace Script

theorem eq_or_eq_other (script which : Script) : which = script ∨ which = script.other := by
  cases script <;> cases which <;> decide

/-- What a name holds of a script's own type. -/
def ownAt (script : Script) (space : KeySpace α) (now : Int) (name : String) :
    Option (Entry α) :=
  (space.entryAt now name).filter fun entry => decide (entry.content.type = script.own)

/-- What a script has for a key: what is beside the key, or else what of its own is under it. -/
def stateAt (script : Script) (space : KeySpace α) (now : Int) (key : String) :
    Option (Entry α) :=
  (space.entryAt now (key ++ script.suffix)).or (script.ownAt space now key)

variable {script : Script} {space : KeySpace α} {now later : Int} {key name : String}

theorem ownAt_of_holdsOnly (hholds : (space.live now).HoldsOnly script.own name) :
    script.ownAt space now name = space.entryAt now name := by
  unfold ownAt
  cases hentry : space.entryAt now name with
  | none => rfl
  | some entry =>
      have htype := typeOf_of_get? hentry
      have hown : entry.content.type = script.own := by
        rcases hholds with hmissing | hown
        · cases hentry.symm.trans (typeOf_eq_missing_iff.mp hmissing)
        · rw [← htype, hown]
      exact Option.filter_some_pos (decide_eq_true hown)

theorem ownAt_of_holdsOnly_other (hholds : (space.live now).HoldsOnly script.other.own name) :
    script.ownAt space now name = none := by
  apply Option.filter_eq_none_iff.mpr
  intro entry hentry hown
  have htype := typeOf_of_get? hentry
  rw [of_decide_eq_true hown] at htype
  rcases hholds with hmissing | hother
  · cases hentry.symm.trans (typeOf_eq_missing_iff.mp hmissing)
  · exact script.own_other_ne (hother.symm.trans htype)

theorem ownAt_eq_none_of_foreign (hforeign : (space.live now).typeOf name ≠ script.own) :
    script.ownAt space now name = none := by
  apply Option.filter_eq_none_iff.mpr
  intro entry hentry hown
  exact hforeign ((typeOf_of_get? hentry).trans (of_decide_eq_true hown))

theorem ownAt_congr {other : KeySpace α}
    (hsame : space.entryAt now name = other.entryAt now name) :
    script.ownAt space now name = script.ownAt other now name := by
  unfold ownAt
  rw [hsame]

theorem ownAt_later (hlater : now ≤ later) :
    script.ownAt space later name = (script.ownAt space now name).filter (isLive later) := by
  unfold ownAt
  rw [entryAt_later hlater, Option.filter_filter, Option.filter_filter]
  congr 1
  funext entry
  exact Bool.and_comm _ _

end Script

/-- No script has a state under a key and another one beside it. -/
def KeySpace.Apart (space : KeySpace α) (now : Int) (key : String) : Prop :=
  ∀ script : Script,
    space.entryAt now (key ++ script.suffix) = none ∨ script.ownAt space now key = none

theorem KeySpace.apart_empty (now : Int) (key : String) : (empty : KeySpace α).Apart now key :=
  fun _ => Or.inl rfl

namespace KeySpace.Apart

variable {script : Script} {space : KeySpace α} {now later : Int} {key : String}

/-- A script works on the key, which it may then keep to itself, or beside the key, where its
state is or where it has none. -/
theorem target_cases (hapart : space.Apart now key) (script : Script) :
    (space.entryAt now (key ++ script.suffix) = none ∧
      (space.live now).HoldsOnly script.own key ∧
      script.targetAt space now key (key ++ script.suffix) = key) ∨
    (script.ownAt space now key = none ∧
      script.targetAt space now key (key ++ script.suffix) = key ++ script.suffix) := by
  by_cases hside : space.entryAt now (key ++ script.suffix) = none
  · by_cases hkey : (space.live now).HoldsOnly script.own key
    · exact Or.inl ⟨hside, hkey, Script.targetAt_of_own hkey hside⟩
    · obtain ⟨hpresent, hforeign⟩ := not_or.mp hkey
      have hheld : space.entryAt now key ≠ none :=
        fun hnone => hpresent (typeOf_eq_missing_iff.mpr hnone)
      exact Or.inr ⟨Script.ownAt_eq_none_of_foreign hforeign,
        Script.targetAt_of_foreign hheld hforeign⟩
  · exact Or.inr ⟨(hapart script).resolve_left hside, Script.targetAt_of_side hside⟩

/-- A script finds its state. -/
theorem stateAt_eq (hapart : space.Apart now key) (script : Script) :
    script.stateAt space now key =
      space.entryAt now (script.targetAt space now key (key ++ script.suffix)) := by
  unfold Script.stateAt
  rcases hapart.target_cases script with ⟨hside, hkey, htarget⟩ | ⟨hkey, htarget⟩
  · rw [htarget, hside, Option.none_or, Script.ownAt_of_holdsOnly hkey]
  · rw [htarget, hkey, Option.or_none]

/-- A key of a script's own type has nothing of the script beside it. -/
theorem not_both (hapart : space.Apart now key) (script : Script) :
    ¬ ((space.live now).typeOf key = script.own ∧
      (space.live now).contains (key ++ script.suffix) = true) := by
  rintro ⟨htype, hcontains⟩
  obtain ⟨entry, hentry⟩ := contains_eq_true_iff.mp hcontains
  rcases hapart script with hnone | hnone
  · cases hentry.symm.trans hnone
  · rw [Script.ownAt_of_holdsOnly (Or.inr htype)] at hnone
    have hmissing := typeOf_eq_missing_iff.mpr hnone
    rw [htype] at hmissing
    cases script <;> cases hmissing

theorem mono (hapart : space.Apart now key) (hlater : now ≤ later) : space.Apart later key := by
  intro script
  rw [entryAt_later hlater, Script.ownAt_later hlater]
  rcases hapart script with hnone | hnone
  · exact Or.inl (by rw [hnone, Option.filter_none])
  · exact Or.inr (by rw [hnone, Option.filter_none])

/-- A state expires as an entry does. -/
theorem stateAt_later (hapart : space.Apart now key) (hlater : now ≤ later) (script : Script) :
    script.stateAt space later key = (script.stateAt space now key).filter (isLive later) := by
  unfold Script.stateAt
  rw [entryAt_later hlater, Script.ownAt_later hlater]
  rcases hapart script with hnone | hnone
  · rw [hnone, Option.filter_none, Option.none_or, Option.none_or]
  · rw [hnone, Option.filter_none, Option.or_none, Option.or_none]

variable [Quantity α]

/-- **A script changes its own state only**, and leaves the states apart. -/
theorem run (hapart : space.Apart now key) (script : Script) (arguments : List String) :
    let left := (script.run space now [key, key ++ script.suffix] arguments).space
    left.Apart now key ∧
      script.stateAt left now key =
        left.entryAt now (script.targetAt space now key (key ++ script.suffix)) ∧
      script.other.stateAt left now key = script.other.stateAt space now key := by
  intro left
  have hothers : ∀ name, name ≠ script.targetAt space now key (key ++ script.suffix) →
      left.entryAt now name = space.entryAt now name := fun name hname =>
    entryAt_of_get?_eq (script.get?_run_of_ne arguments space hname) le_rfl
  have hotherSide : left.entryAt now (key ++ script.other.suffix) =
      space.entryAt now (key ++ script.other.suffix) := by
    apply hothers
    rcases script.targetAt_eq_or space now key (key ++ script.suffix) with htarget | htarget
    · rw [htarget]
      exact script.other.append_suffix_ne key
    · rw [htarget]
      exact script.append_suffix_other_ne key
  unfold Script.stateAt
  rcases hapart.target_cases script with ⟨hside, hkey, htarget⟩ | ⟨hkey, htarget⟩
  · -- the key is the script's own, before and after, and is nothing to the other script
    have hrun := script.holdsOnly_run arguments
      (show (space.live now).HoldsOnly script.own (script.targetAt space now key _) by
        rwa [htarget])
    rw [htarget] at hothers hrun ⊢
    have hown := (hrun.live now : (left.live now).HoldsOnly script.own key)
    have hleftSide : left.entryAt now (key ++ script.suffix) = none :=
      (hothers _ (script.append_suffix_ne key)).trans hside
    have hnone : ∀ between : KeySpace α, (between.live now).HoldsOnly script.own key →
        script.other.ownAt between now key = none := by
      intro between hbetween
      apply Script.ownAt_of_holdsOnly_other
      rwa [script.other_other]
    refine ⟨fun which => ?_, ?_, ?_⟩
    · rcases script.eq_or_eq_other which with rfl | rfl
      · exact Or.inl hleftSide
      · exact Or.inr (hnone left hown)
    · rw [hleftSide, Option.none_or, Script.ownAt_of_holdsOnly hown]
    · rw [hotherSide, hnone left hown, hnone space hkey]
  · -- the key is left alone
    rw [htarget] at hothers ⊢
    have hkeyEntry := hothers key (script.append_suffix_ne key).symm
    refine ⟨fun which => ?_, ?_, ?_⟩
    · rcases script.eq_or_eq_other which with rfl | rfl
      · exact Or.inr ((Script.ownAt_congr hkeyEntry).trans hkey)
      · rw [hotherSide, Script.ownAt_congr hkeyEntry]
        exact hapart script.other
    · rw [Script.ownAt_congr hkeyEntry, hkey, Option.or_none]
    · rw [hotherSide, Script.ownAt_congr hkeyEntry]

end KeySpace.Apart

namespace Remote

variable [Quantity α] {remote : Remote α} {clock : Int} {key : String}

/-- The states are apart after every run, and stay so. -/
theorem apart_spaceAfter (remote : Remote α) {calls : List (Call α)}
    (hordered : Chronological calls) (hkey : ∀ call ∈ calls, call.key = key) {now later : Int}
    (hnow : now ≤ later)
    (hcalls : ∀ call ∈ calls, now ≤ call.millis clock ∧ call.millis clock ≤ later)
    {space : KeySpace α} (hapart : space.Apart now (remote.serverKey key)) :
    (remote.spaceAfter clock space calls).Apart later (remote.serverKey key) := by
  refine spaceAfter_invariant (fun now space => space.Apart now (remote.serverKey key))
    (fun hle hbefore => hbefore.mono hle) ?_ hordered hkey hnow hcalls hapart
  intro space call hcall hthen
  obtain ⟨arguments, hrequest⟩ := remote.request_eq call
  rw [hcall] at hrequest
  unfold serve
  by_cases hdone : call.moment.isDone = true
  · rw [if_pos hdone]
    exact hthen
  · rw [if_neg hdone, hrequest]
    exact (hthen.run call.script arguments).1

/-- A run on one key answers the calls of one script as the run of these calls alone does. -/
theorem replay_filter_script (script : Script) {calls : List (Call α)}
    (hordered : Chronological calls) (hkey : ∀ call ∈ calls, call.key = key) :
    (remote.replay clock .empty calls).filter (fun entry => decide (entry.1.script = script)) =
      remote.replay clock .empty (calls.filter fun call => decide (call.script = script)) := by
  refine replay_filter (fun call => decide (call.script = script))
    (fun now full part => full.Apart now (remote.serverKey key) ∧
      part.Apart now (remote.serverKey key) ∧
      script.stateAt full now (remote.serverKey key) =
        script.stateAt part now (remote.serverKey key)) ?_ ?_ ?_ hordered hkey
    (fun call _ => call.le_millis clock) ⟨apart_empty _ _, apart_empty _ _, rfl⟩
  · rintro now later full part hlater ⟨hfull, hpart, hsame⟩
    refine ⟨hfull.mono hlater, hpart.mono hlater, ?_⟩
    rw [hfull.stateAt_later hlater, hpart.stateAt_later hlater, hsame]
  · rintro now full part call rfl hkeep ⟨hfull, hpart, hsame⟩
    obtain rfl : call.script = script := of_decide_eq_true hkeep
    obtain ⟨arguments, hrequest⟩ := remote.request_eq call
    rw [hrequest]
    rw [hfull.stateAt_eq, hpart.stateAt_eq] at hsame
    have halike := call.script.run_alike arguments hsame
    obtain ⟨hfull', hfullState, -⟩ := hfull.run call.script arguments
    obtain ⟨hpart', hpartState, -⟩ := hpart.run call.script arguments
    refine ⟨halike.outcome_eq, hfull', hpart', ?_⟩
    exact hfullState.trans ((entryAt_of_get? halike.parallel.held_eq).trans hpartState.symm)
  · rintro now full part call rfl hdrop ⟨hfull, hpart, hsame⟩
    obtain rfl : script = call.script.other :=
      (call.script.eq_or_eq_other script).resolve_left fun heq => of_decide_eq_false hdrop heq.symm
    obtain ⟨arguments, hrequest⟩ := remote.request_eq call
    rw [hrequest]
    obtain ⟨hfull', -, hotherState⟩ := hfull.run call.script arguments
    exact ⟨hfull', hpart, hotherState.trans hsame⟩

/-- **The two algorithms are independent on one key**: over a fresh server, every run on a key
answers the calls of either script as if those of the other one had not been made.  At no time
is the key a text while there is a counter beside it, or a hash while there is a bucket beside
it. -/
theorem algorithms_independent (keyPrefix : String) (commandTimeout : Option Duration)
    (clock : Int) {key : String} {calls : List (Call α)} (hordered : Chronological calls)
    (hkey : ∀ call ∈ calls, call.key = key) :
    let remote : Remote α := onFreshServer keyPrefix commandTimeout clock
    (∀ script : Script,
      (remote.history calls).filter (fun entry => decide (entry.1.script = script)) =
        remote.history (calls.filter fun call => decide (call.script = script))) ∧
    ∀ now, clock ≤ now → (∀ call ∈ calls, call.millis clock ≤ now) →
      let space := (remote.after calls).keySpace.live now
      ¬ (space.typeOf (remote.serverKey key) = .text ∧
        space.contains (remote.serverKey key ++ windowSuffix) = true) ∧
      ¬ (space.typeOf (remote.serverKey key) = .hash ∧
        space.contains (remote.serverKey key ++ bucketSuffix) = true) := by
  intro remote
  have hstart : ∀ call ∈ calls, Instant.start ≤ call.moment.now := fun _ _ => Nat.zero_le _
  by_cases htimeout : commandTimeout = some .zero
  · subst htimeout
    have hhurried : remote.Hurried clock .start := hurried_onFreshServer keyPrefix clock
    refine ⟨fun script => hhurried.history_filter hordered hstart
      fun call => decide (call.script = script), fun now _ _ => ?_⟩
    rw [hhurried.keySpace_after hordered hstart]
    exact ⟨fun hcounter => Bool.false_ne_true hcounter.2,
      fun hbucket => Bool.false_ne_true hbucket.2⟩
  · have hserves : remote.Serves clock .empty .start :=
      serves_onFreshServer keyPrefix htimeout clock
    constructor
    · intro script
      have hkept : ∀ call ∈ calls.filter fun call => decide (call.script = script),
          Instant.start ≤ call.moment.now := fun _ _ => Nat.zero_le _
      rw [hserves.history_eq hordered hstart,
        hserves.history_eq (hordered.sublist List.filter_sublist) hkept]
      exact replay_filter_script script hordered hkey
    · intro now hclock hcalls
      have hapart := apart_spaceAfter remote hordered hkey hclock
        (fun call hcall => ⟨call.le_millis clock, hcalls call hcall⟩) (apart_empty clock _)
      rw [hserves.keySpace_after hordered hstart]
      exact ⟨hapart.not_both .countCall, hapart.not_both .takeToken⟩

/-- The counter comes first, and the bucket beside it; when both are gone the bucket comes
first. -/
def swappedRun : List (Call Binary64) :=
  let moment (millis : Nat) : Moment := ⟨⟨millis * nanosPerMilli⟩, ⟨millis * nanosPerMilli⟩, none⟩
  let take (millis : Nat) : Call Binary64 := ⟨moment millis, .take "k" (Binary64.ofInt 1) 2⟩
  let increment (millis : Nat) : Call Binary64 := ⟨moment millis, .increment "k" (.ofMillis 1000)⟩
  [increment 0, take 0, take 500, increment 1000, take 12000, increment 12000, increment 12500,
    take 13000]

theorem algorithms_independent_swappedRun :
    let remote : Remote Binary64 := onFreshServer "" none 0
    let onlyCounted := swappedRun.filter fun call => decide (call.script = .countCall)
    let counts (entries : List (Call Binary64 × Outcome Binary64)) : List Nat :=
      entries.filterMap fun entry => entry.2.count?.map WindowCount.count
    Chronological swappedRun ∧ (∀ call ∈ swappedRun, call.key = "k") ∧
      counts (remote.history onlyCounted) = [1, 2, 1, 2] ∧
      (remote.history swappedRun).filter (fun entry => decide (entry.1.script = .countCall)) =
        remote.history onlyCounted ∧
      ((remote.after swappedRun).keySpace.typeOf "k" = .hash ∧
        (remote.after swappedRun).keySpace.contains "k:fixed_window" = true) ∧
      ¬ (((remote.after swappedRun).keySpace.live 13000).typeOf "k" = .hash ∧
        ((remote.after swappedRun).keySpace.live 13000).contains "k:token_bucket" = true) := by
  have hordered : Chronological swappedRun := by decide
  have hkey : ∀ call ∈ swappedRun, call.key = "k" := by decide
  obtain ⟨hanswers, hplaces⟩ := algorithms_independent "" none 0 hordered hkey
  refine ⟨hordered, hkey, by decide +kernel, hanswers .countCall, by decide +kernel, ?_⟩
  exact (hplaces 13000 (by decide) (by decide +kernel)).2

end Remote

end Throttle
