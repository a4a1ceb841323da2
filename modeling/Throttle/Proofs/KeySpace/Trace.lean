import Throttle.Proofs.KeySpace.Scripts

/-!
# What a failed script leaves behind

A script that fails may have written before: a counter before its expiry is set, a bucket
before its expiry is set.  So a failed call leaves a trace if and only if the expiry could not
be set and there was something to write: a counter that the call began, which then never
expires, or a bucket whose tokens or clock reading the call changed.  All other failures come
before the first write.
-/

namespace Throttle.KeySpace

variable {α : Type} [Quantity α] {space : KeySpace α}

/-- A run that leaves every key as it was, if it fails. -/
def FailsHarmlessly (run : ScriptRun α) (before : KeySpace α) : Prop :=
  (∃ error, run.outcome = .error error) →
    ∀ key, run.space.table.get? key = before.table.get? key

/-- A call begins a counter whose expiry cannot be set. -/
def BeginsForever (space : KeySpace α) (now : Int) (key side : String) (millis : Int) : Prop :=
  (space.live now).contains (Script.target (space.live now) .text key side) = false ∧
    ¬ ExpiryFits now millis

/-- A take changes a bucket, or begins one, whose expiry cannot be set. -/
def SpendsForever (space : KeySpace α) (now : Int) (key side : String)
    (rate burst reading : α) : Prop :=
  ∃ fields, (space.live now).fields (Script.target (space.live now) .hash key side) = .ok fields ∧
    ¬ SecondsFit now (Script.argument? (Script.lifetime rate burst)) ∧
    Script.held? fields ≠
      some ⟨(Script.takeFrom (Script.held? fields) rate burst reading).remaining, reading⟩

theorem failsHarmlessly_count_iff (hstored : space.Stored) (now : Int) (key side : String)
    (millis : Int) :
    FailsHarmlessly (Script.count space now key side (Decimal.wholeText millis))
        (space.live now) ↔ ¬ BeginsForever space now key side millis := by
  rcases Script.count_cases hstored now key side millis with
    ⟨-, hfits, reply, hanswered⟩ | ⟨hsame, hpresent, -⟩ | ⟨hbegun, hmissing, hunfit, hfailed⟩
  · refine iff_of_true ?_ ?_
    · rintro ⟨error, herror⟩
      rw [hanswered] at herror
      cases herror
    · rintro ⟨hmissing, hunfit⟩
      rcases hfits with hpresent | hfits
      · rw [hmissing] at hpresent
        cases hpresent
      · exact hunfit hfits
  · refine iff_of_true (fun _ name => by rw [hsame]) ?_
    rintro ⟨hmissing, -⟩
    rw [hmissing] at hpresent
    cases hpresent
  · refine iff_of_false ?_ (not_not_intro ⟨hmissing, hunfit⟩)
    intro hharmless
    have hkey := hharmless hfailed (Script.target (space.live now) .text key side)
    rw [hbegun, get?_write_self, contains_eq_false_iff.mp hmissing] at hkey
    cases hkey

/-- Writing a bucket changes no key if and only if the bucket is there and is the same. -/
theorem write_takenFields_eq_iff (hstored : space.Stored) {bucket : String}
    {fields : Table String (Field α)} (hfields : space.fields bucket = .ok fields)
    (remaining reading : α) :
    (∀ key, (space.write bucket (.hash (Script.takenFields fields remaining reading))).table.get?
        key = space.table.get? key) ↔ Script.held? fields = some ⟨remaining, reading⟩ := by
  rcases hstored.fields_cases bucket with
    ⟨hmissing, hempty⟩ | ⟨held, expiresAt, tokens, lastUsed, hget, hheld, htokens, hlastUsed⟩ |
      ⟨error, hrefused⟩
  · obtain rfl : fields = .empty := Except.ok.inj (hfields.symm.trans hempty)
    refine iff_of_false ?_ ?_
    · intro hsame
      have hbucket := hsame bucket
      rw [get?_write_self, hmissing] at hbucket
      cases hbucket
    · intro hheld
      cases hheld
  · obtain rfl : fields = held := Except.ok.inj (hfields.symm.trans hheld)
    have hexpiry : space.expiryOf? bucket = expiresAt := by rw [expiryOf?, hget]; rfl
    rw [← Script.takenFields_eq_self_iff htokens hlastUsed]
    constructor
    · intro hsame
      have hbucket := hsame bucket
      rw [get?_write_self, hget, Option.some.injEq, Entry.mk.injEq, Content.hash.injEq] at hbucket
      exact hbucket.1
    · intro hunchanged key
      rw [hunchanged, write, hexpiry, Table.insert_eq_self _ hget]
  · rw [hrefused] at hfields
    cases hfields

theorem failsHarmlessly_take_iff (hstored : space.Stored) (now : Int) (key side : String)
    (rate burst reading : α) :
    FailsHarmlessly (Script.take space now key side rate burst reading) (space.live now) ↔
      ¬ SpendsForever space now key side rate burst reading := by
  rcases Script.take_cases hstored now key side rate burst reading with
    ⟨-, hfits, reply, hanswered⟩ | ⟨hsame, ⟨error, hrefused⟩, -⟩ |
      ⟨fields, hfields, hwritten, hunfit, hfailed⟩
  · refine iff_of_true ?_ ?_
    · rintro ⟨error, herror⟩
      rw [hanswered] at herror
      cases herror
    · rintro ⟨fields, -, hunfit, -⟩
      exact hunfit hfits
  · refine iff_of_true (fun _ name => by rw [hsame]) ?_
    rintro ⟨fields, hfields, -⟩
    rw [hrefused] at hfields
    cases hfields
  · have hharmless : FailsHarmlessly (Script.take space now key side rate burst reading)
        (space.live now) ↔ Script.held? fields =
          some ⟨(Script.takeFrom (Script.held? fields) rate burst reading).remaining, reading⟩ := by
      rw [← write_takenFields_eq_iff (hstored.live now) hfields, ← hwritten]
      exact ⟨fun hkept => hkept hfailed, fun hsame _ => hsame⟩
    rw [hharmless, ← not_iff_not, not_not]
    constructor
    · exact fun hchanged => ⟨fields, hfields, hunfit, hchanged⟩
    · rintro ⟨other, hother, -, hchanged⟩
      obtain rfl : fields = other := Except.ok.inj (hfields.symm.trans hother)
      exact hchanged

/-- **A failed call leaves a trace exactly if it wrote what cannot expire.**  In a key space that
the stores have made, counting a call leaves every key as it was if it fails, unless it begins
a counter whose expiry cannot be set.  Taking a token does so unless it changes a bucket whose
expiry cannot be set. -/
theorem failed_call_leaves_keys_iff (hreached : Reached space) (remote : Remote α)
    (key : String) (now : Int) :
    (∀ window, FailsHarmlessly ((remote.countRequest key window).runOn space now)
        (space.live now) ↔
      ¬ BeginsForever space now (remote.serverKey key)
        (remote.serverKey key ++ Remote.windowSuffix) (Remote.windowMillis window)) ∧
    ∀ wall rate burst, FailsHarmlessly ((remote.takeRequest wall key rate burst).runOn space now)
        (space.live now) ↔
      ¬ ∃ readRate readBurst reading, Quantity.scriptRead? (Quantity.text rate) = some readRate ∧
        Quantity.scriptRead? (Decimal.wholeText burst) = some readBurst ∧
        Quantity.scriptRead? (Quantity.text (wall.inSeconds : α)) = some reading ∧
        SpendsForever space now (remote.serverKey key)
          (remote.serverKey key ++ Remote.bucketSuffix) readRate readBurst reading := by
  refine ⟨fun window => failsHarmlessly_count_iff hreached.stored now _ _ _,
    fun wall rate burst => ?_⟩
  unfold Evaluation.runOn Remote.takeRequest Script.run
  simp only
  split
  · rename_i readRate readBurst reading hrate hburst hreading
    rw [failsHarmlessly_take_iff hreached.stored, hrate, hburst, hreading]
    simp
  · rename_i hunreadable
    refine iff_of_true (fun _ _ => rfl) ?_
    rintro ⟨readRate, readBurst, reading, hrate, hburst, hreading, -⟩
    exact hunreadable readRate readBurst reading hrate hburst hreading

/-- A store that puts nothing before its keys. -/
def plainRemote : Remote Rat := ⟨"", none, .ofServer (.prepared [])⟩

/-- Counting a call in a window of `2 ^ 63` milliseconds fails, and what was no key before is a
counter afterwards, without an expiry. -/
theorem count_leaves_counter_without_expiry :
    let run := (plainRemote.countRequest "k" (.ofMillis (twoTo 63))).runOn .empty 0
    Reached (.empty : KeySpace Rat) ∧ (∃ error, run.outcome = .error error) ∧
      (empty : KeySpace Rat).typeOf "k" = .missing ∧ run.space.typeOf "k" = .text ∧
      run.space.millisLeft 0 "k" = -1 ∧ ¬ FailsHarmlessly run (.empty : KeySpace Rat) := by
  intro run
  have hfailed : ∃ error, run.outcome = .error error := ⟨.notInteger, rfl⟩
  have htype : run.space.typeOf "k" = .text := by decide +kernel
  refine ⟨.empty, hfailed, rfl, htype, by decide +kernel, ?_⟩
  intro hharmless
  rw [typeOf, hharmless hfailed "k"] at htype
  cases htype

/-- Buckets under a key and under the key of its counter. -/
def crossedSpace : KeySpace Rat :=
  ((plainRemote.takeRequest ⟨0⟩ "k" 1 1).runOn
    ((plainRemote.takeRequest ⟨0⟩ "k:fixed_window" 1 1).runOn .empty 0).space 0).space

/-- The same window does no harm where the counter of the key cannot be written at all. -/
theorem failed_call_leaves_keys_iff_crossedSpace :
    let run := (plainRemote.countRequest "k" (.ofMillis (twoTo 63))).runOn crossedSpace 5
    (∃ error, run.outcome = .error error) ∧
      ∀ key, run.space.table.get? key = (crossedSpace.live 5).table.get? key := by
  intro run
  have hreached : Reached crossedSpace :=
    (Reached.empty.take plainRemote ⟨0⟩ "k:fixed_window" 1 1 0).take plainRemote ⟨0⟩ "k" 1 1 0
  have hfailed : ∃ error, run.outcome = .error error := by
    have hnone : run.outcome.toOption.isSome = false := by decide +kernel
    cases houtcome : run.outcome with
    | error error => exact ⟨error, rfl⟩
    | ok reply => simp [houtcome, Except.toOption] at hnone
  refine ⟨hfailed, ((failed_call_leaves_keys_iff hreached plainRemote "k" 5).1 _).mpr ?_ hfailed⟩
  rintro ⟨hmissing, -⟩
  revert hmissing
  decide +kernel

end Throttle.KeySpace
