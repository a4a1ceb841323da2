import Throttle.Proofs.Remote.Bucket
import Throttle.Proofs.Remote.Takes

/-!
# The bucket of a key with rounded numbers

Calls of one key may have all kinds of rates and bursts, and a lifetime that is too long for an
expiry lets a take fail after it has written.  Still, what a server holds for the key is a bucket
with a token count, wherever it holds it (`Orderly`): a take writes nothing else, answered or not
(`Orderly.run_take`), and a run on one key never loses it (`orderly_spaceAfter`).
-/

namespace Throttle

open Binary64 KeySpace

/-! ## Lifetimes -/

namespace Script

theorem lifetime_not_lt (rate burst : Binary64) : ¬ lifetime rate burst < ofInt 10 := by
  have hten : (ofInt 10).IsCount := isCount_ofInt (show 10 ≤ twoTo 64 by decide)
  unfold lifetime
  simp only [quantity_ofInt]
  split_ifs with hshort
  · exact not_lt_of_le hten.isUpward.le_refl
  · exact hshort

/-- A number that is not below ten is a whole number above zero, if it is one. -/
theorem pos_of_mem_argument? {number : Binary64} (hlong : ¬ number < ofInt 10) {seconds : Int}
    (hseconds : seconds ∈ argument? number) : 0 < seconds := by
  obtain ⟨ten, hten, hunits⟩ := exists_ofInt_eq (show 10 ≤ twoTo 53 by decide)
  rw [Nat.cast_ofNat] at hten
  have htenPos : 0 < ten.val := by
    rw [← units_strictMono.lt_iff_lt, hunits, units_zero]
    exact Nat.mul_pos (by decide) unitsInOne_pos
  cases number with
  | nan negative => cases hseconds
  | infinite negative => cases hseconds
  | finite negative magnitude =>
      have hpositive : negative = false ∧ 0 < magnitude.val := by
        by_contra! hsmall
        refine hlong ⟨_, rfl, ten, by rw [hten]; rfl, ?_⟩
        cases negative with
        | true =>
            rw [if_pos rfl]
            omega
        | false =>
            have hzero := hsmall rfl
            rw [if_neg Bool.false_ne_true]
            omega
      obtain ⟨rfl, hmagnitude⟩ := hpositive
      have hvalue : (0 : Rat) < exact magnitude := by
        rw [← exact_zero]
        exact exact_strictMono hmagnitude
      unfold argument? at hseconds
      rw [quantity_value?, value?_finite, if_neg Bool.false_ne_true] at hseconds
      simp only at hseconds
      split_ifs at hseconds
      · obtain rfl := Option.some.inj hseconds
        exact Rat.num_pos.mpr hvalue
      · cases hseconds

end Script

/-! ## The bucket of a key -/

namespace KeySpace

theorem found?_eq {α : Type} [Quantity α] {space : KeySpace α} {now : Int} {name : String}
    (hapart : space.Apart now name) :
    Script.found? space now name (name ++ Script.takeToken.suffix) = space.bucketAt now name := by
  unfold Script.found?
  rcases Script.fields_cases hapart with
    ⟨fields, hfields, hheld⟩ | ⟨entry, hentry, htype, error, herror⟩
  · rw [hfields]
    exact hheld
  · rw [herror]
    unfold KeySpace.bucketAt
    rw [hentry]
    exact (Content.held?_eq_none htype).symm

/-- What the script that takes tokens has for a key is a bucket with a token count. -/
structure Orderly (space : KeySpace Binary64) (now : Int) (name : String) : Prop where
  apart : space.Apart now name
  counts : ∀ entry, Script.takeToken.stateAt space now name = some entry →
    ∃ held, entry.content.held? = some held ∧ held.tokens.IsCount

variable {space : KeySpace Binary64} {now later : Int} {name : String} {rate : Binary64}
  {burst : Nat}

theorem orderly_empty (now : Int) (name : String) : (empty : KeySpace Binary64).Orderly now name :=
  ⟨apart_empty now name, nofun⟩

theorem Orderly.mono (horderly : space.Orderly now name) (hlater : now ≤ later) :
    space.Orderly later name := by
  refine ⟨horderly.apart.mono hlater, fun entry hentry => ?_⟩
  rw [horderly.apart.stateAt_later hlater] at hentry
  exact horderly.counts entry (Option.filter_eq_some_iff.mp hentry).1

theorem Orderly.isCount (horderly : space.Orderly now name) :
    ∀ held ∈ space.bucketAt now name, held.tokens.IsCount := by
  intro held hheld
  unfold KeySpace.bucketAt at hheld
  obtain ⟨entry, hentry, hcontent⟩ := Option.bind_eq_some_iff.mp hheld
  obtain ⟨held', hheld', hcount⟩ := horderly.counts entry hentry
  obtain rfl := Option.some.inj (hheld'.symm.trans hcontent)
  exact hcount

/-- A counted call leaves the bucket alone. -/
theorem Orderly.run_count (horderly : space.Orderly now name) (arguments : List String) :
    (Script.countCall.run space now [name, name ++ Script.countCall.suffix] arguments).space.Orderly
      now name := by
  obtain ⟨hapart, -, hother⟩ := horderly.apart.run .countCall arguments
  exact ⟨hapart, fun entry hentry => horderly.counts entry (hother.symm.trans hentry)⟩

/-- **A take writes what it leaves**, answered or not. -/
theorem Orderly.run_take (horderly : space.Orderly now name) (husable : Usable rate burst)
    (wall : WallTime) :
    let reading : Binary64 := wall.inSeconds
    let taken := Script.takeFrom (space.bucketAt now name) rate (Quantity.ofInt burst) reading
    let run := Script.take space now name (name ++ Script.takeToken.suffix) rate
      (Quantity.ofInt burst) reading
    run.space.Orderly now name ∧ run.space.bucketAt now name = some ⟨taken.remaining, reading⟩ := by
  intro reading taken run
  have htake : Script.takeToken.run space now [name, name ++ Script.takeToken.suffix]
      [Quantity.text rate, Decimal.wholeText burst, Quantity.text reading] = run :=
    Script.run_takeToken husable.finite burst wall
  have hcapacity : (Quantity.ofInt burst : Binary64).IsCount := by
    rw [quantity_ofInt]
    exact husable.isCount
  have hroom : Quantity.ofInt 1 ≤ (Quantity.ofInt burst : Binary64) := by
    rw [quantity_ofInt, quantity_ofInt]
    exact husable.one_le
  have hcount : taken.remaining.IsCount :=
    Script.isCount_takeFrom horderly.isCount husable.positive husable.finite hcapacity hroom
  obtain ⟨hapart, hcases⟩ := Script.run_take_cases horderly.apart htake
    fun seconds => Script.pos_of_mem_argument? (Script.lifetime_not_lt _ _)
  rw [htake] at hapart hcases
  have hwritten : ∀ {fields : Table String (Field Binary64)} {expiry? : Option Int},
      Script.takeToken.stateAt run.space now name = some ⟨.hash fields, expiry?⟩ →
      Script.held? fields = some ⟨taken.remaining, reading⟩ →
      run.space.Orderly now name ∧
        run.space.bucketAt now name = some ⟨taken.remaining, reading⟩ := by
    intro fields expiry? hstate hheld
    refine ⟨⟨hapart, fun entry hentry => ?_⟩, ?_⟩
    · obtain rfl := Option.some.inj (hstate.symm.trans hentry)
      exact ⟨_, hheld, hcount⟩
    · unfold KeySpace.bucketAt
      rw [hstate]
      exact hheld
  rcases hcases with ⟨error, -, -, entry, hentry, htype⟩ |
    ⟨error, fields, expiry?, -, hstate, hheld, -⟩ | ⟨-, fields, seconds, -, hstate, hheld⟩
  · -- nothing else is there that could refuse the take
    obtain ⟨held, hheld, -⟩ := horderly.counts entry hentry
    rw [Content.held?_eq_none htype] at hheld
    cases hheld
  · exact hwritten hstate hheld
  · exact hwritten hstate hheld

end KeySpace

/-! ## Runs on one key -/

namespace Remote

variable {remote : Remote Binary64} {clock : Int} {space : KeySpace Binary64} {key : String}

/-- A take that can be had, or no take at all. -/
def Call.IsUsable (call : Call Binary64) : Prop :=
  match call.operation with
  | .increment .. => True
  | .take _ rate burst => Usable rate burst

/-- One call of a key keeps its bucket orderly. -/
theorem orderly_serve {call : Call Binary64} (hkey : call.key = key) (husable : call.IsUsable)
    (horderly : space.Orderly (call.millis clock) (remote.serverKey key)) :
    (remote.serve clock space call).2.Orderly (call.millis clock) (remote.serverKey key) := by
  obtain ⟨moment, operation⟩ := call
  cases hdone : moment.isDone with
  | true =>
      rw [remote.serve_of_done clock space hdone]
      exact horderly
  | false =>
      cases operation with
      | increment other window =>
          obtain rfl : other = key := hkey
          unfold serve
          rw [hdone, if_neg Bool.false_ne_true]
          exact horderly.run_count [Decimal.wholeText (windowMillis window)]
      | take other rate burst =>
          obtain rfl : other = key := hkey
          have htakeable : Usable rate burst := husable
          rw [remote.serve_take clock space hdone other htakeable.finite burst]
          exact (horderly.run_take htakeable moment.wall).1

/-- A run on one key leaves its bucket orderly. -/
theorem orderly_spaceAfter (remote : Remote Binary64) {calls : List (Call Binary64)}
    (hordered : Chronological calls) (hcalls : ∀ call ∈ calls, call.key = key ∧ call.IsUsable)
    {now : Int} (hclock : clock ≤ now) (hnow : ∀ call ∈ calls, call.millis clock ≤ now) :
    (remote.spaceAfter clock .empty calls).Orderly now (remote.serverKey key) := by
  refine spaceAfter_invariant (fun now space => space.Orderly now (remote.serverKey key))
    (fun hle hbefore => hbefore.mono hle)
    (fun hfits hbefore => orderly_serve hfits.1 hfits.2 hbefore) hordered hcalls hclock
    (fun call hcall => ⟨call.le_millis clock, hnow call hcall⟩) (orderly_empty clock _)

end Remote

end Throttle
