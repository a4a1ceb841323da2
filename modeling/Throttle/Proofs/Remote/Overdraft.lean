import Throttle.Proofs.Memory.Overdraft
import Throttle.Proofs.Numeric.Fourteen
import Throttle.Proofs.Remote.Orderly
import Throttle.Proofs.Remote.Readings

/-!
# Calls with several bursts over a server

The script that takes a token cuts a bucket down to the burst of its caller where it refills it,
and refills it where a reading is later than the last one.  So a call may rely on its burst as it
may over a memory, with readings in the place of instants (`Script.Overdrawn`).

Calls at one moment send one reading, so what the first of them draws on is not refilled for the
others (`allowedTakes_takesAt_le`).  What the callers are told passes through fourteen digits, and
stays within a burst of up to `10 ^ 14` unless less than a token is shown as one
(`TokenTake.told_withinBurst_iff`).
-/

namespace Throttle

open Binary64 KeySpace

/-! ## Levels -/

namespace Script

section

variable {α : Type} [Quantity α]

/-- The tokens that a take draws on: those after a refill, or all there is room for. -/
def levelOf (held? : Option (Held α)) (rate burst reading : α) : α :=
  match held? with
  | some held => refilled held rate burst reading
  | none => burst

theorem takeFrom_eq_drawn {held? : Option (Held α)} {rate burst reading : α}
    (hone : Quantity.ofInt 1 ≤ burst) :
    takeFrom held? rate burst reading = .drawn (levelOf held? rate burst reading) := by
  cases held? with
  | some held => rfl
  | none => exact (if_pos hone).symm

theorem levelOf_some (held : Held α) (rate burst reading : α) :
    levelOf (some held) rate burst reading = refilled held rate burst reading := rfl

theorem levelOf_of_not_passed {held : Held α} {reading : α}
    (hsame : ¬ Quantity.ofInt 0 < reading - held.lastUsed) (rate burst : α) :
    levelOf (some held) rate burst reading = held.tokens := if_neg hsame

theorem levelOf_of_passed {held : Held α} {reading : α}
    (hpassed : Quantity.ofInt 0 < reading - held.lastUsed) (rate burst : α) :
    levelOf (some held) rate burst reading =
      if burst < held.tokens + (reading - held.lastUsed) * rate then burst
      else held.tokens + (reading - held.lastUsed) * rate := if_pos hpassed

end

/-- A bucket that no time has passed for, and that has more left than a caller's burst. -/
def Overdrawn (held? : Option (Held Binary64)) (reading : Binary64) (burst : Nat) : Prop :=
  ∃ held ∈ held?, ¬ ofInt 0 < reading - held.lastUsed ∧ ofInt burst < held.tokens

instance (held? : Option (Held Binary64)) (reading : Binary64) (burst : Nat) :
    Decidable (Overdrawn held? reading burst) :=
  inferInstanceAs (Decidable (∃ held ∈ held?, _ ∧ _))

variable {held? : Option (Held Binary64)} {rate reading : Binary64} {burst : Nat}

/-- **A take draws on no more than its burst**, unless it is overdrawn. -/
theorem levelOf_spec (hcounts : ∀ held ∈ held?, held.tokens.IsCount) (husable : Usable rate burst) :
    (levelOf held? rate (ofInt burst) reading).IsCount ∧
      (levelOf held? rate (ofInt burst) reading ≤ ofInt burst ↔
        ¬ Overdrawn held? reading burst) := by
  have hcapacity := husable.isCount
  cases held? with
  | none =>
      refine ⟨hcapacity, iff_of_true hcapacity.isUpward.le_refl ?_⟩
      rintro ⟨held, hheld, -⟩
      cases hheld
  | some held =>
      have hlevel : (levelOf (some held) rate (ofInt burst) reading).IsCount := by
        rw [levelOf_some]
        exact isCount_refilled (hcounts held rfl) husable.positive husable.finite hcapacity
      refine ⟨hlevel, ?_⟩
      by_cases hpassed : Quantity.ofInt 0 < reading - held.lastUsed
      · refine iff_of_true ?_ ?_
        · have hsum := (hcounts held rfl).add
            (isUpward_mul hpassed husable.positive husable.finite)
          rw [levelOf_of_passed hpassed]
          split_ifs with hmore
          · exact hcapacity.isUpward.le_refl
          · exact hcapacity.isUpward.le_of_not_lt hsum hmore
        · rintro ⟨_, ⟨⟩, hsame, -⟩
          exact hsame hpassed
      · rw [hlevel.isUpward.le_iff_not_lt hcapacity.isUpward, levelOf_of_not_passed hpassed]
        refine not_congr ⟨fun hmore => ⟨held, rfl, hpassed, hmore⟩, ?_⟩
        rintro ⟨_, ⟨⟩, -, hmore⟩
        exact hmore

end Script

/-! ## What is told -/

namespace TokenTake

/-- A take that is denied with so nearly one token left that fourteen digits show one. -/
def ShownAsOne (taken : TokenTake Binary64) : Prop :=
  taken.allowed = false ∧ ∃ tokens, taken.remaining.value? = some tokens ∧ nearlyOne ≤ tokens

variable {taken told : TokenTake Binary64} {burst : Nat}

/-- What is left of a burst of up to `10 ^ 14` is a whole number of fewer than fifteen digits, and
what is not beyond it is not read as more. -/
theorem read_le_of_le_sub_one {left read : Fin finiteMagnitudes} (hpositive : 1 ≤ burst)
    (hsize : burst ≤ tenTo 14) (hleft : finite false left ≤ ofInt burst - ofInt 1)
    (hread : Quantity.read? (Quantity.scriptText (finite false left)) =
      some (finite false read)) : finite false read ≤ ofInt burst - ofInt 1 := by
  obtain ⟨rest, hrest, hunits⟩ := exists_ofInt_sub_one hpositive (hsize.trans (by decide))
  have hwhole : exact rest = (burst - 1 : Nat) := exact_of_whole hunits
  have hless : burst - 1 < tenTo 14 := by omega
  rw [hrest, finite_le_finite_iff] at hleft ⊢
  have hreadWhole : exact read ≤ (burst - 1 : Nat) :=
    exact_read_le_of_whole hless ((exact_strictMono.monotone hleft).trans hwhole.le) hread
  exact exact_strictMono.le_iff_le.mp (hreadWhole.trans hwhole.ge)

/-- **What is told of a take is within its burst if the take is**, unless less than a token is
shown as one. -/
theorem told_withinBurst_iff (hwithin : taken.WithinBurst burst) (hcount : taken.remaining.IsCount)
    (hpositive : 1 ≤ burst) (hsize : burst ≤ tenTo 14) (hallowed : told.allowed = taken.allowed)
    (hread : Quantity.read? (Quantity.scriptText taken.remaining) = some told.remaining) :
    told.WithinBurst burst ↔ ¬ taken.ShownAsOne := by
  obtain ⟨left, hleft, hmost⟩ := hcount
  obtain ⟨read, hshown, -⟩ := read?_scriptText hmost
  rw [hleft] at hread
  have htold : told.remaining = finite false read := Option.some.inj (hread.symm.trans hshown)
  have hnonneg : ofInt 0 ≤ told.remaining := by
    rw [htold]
    exact zero_le_finite read
  cases hverdict : taken.allowed with
  | true =>
      refine iff_of_true ⟨hnonneg, fun _ => ?_, ?_⟩ ?_
      · have hroom := hwithin.allowed hverdict
        rw [hleft] at hroom
        rw [htold]
        exact read_le_of_le_sub_one hpositive hsize hroom hshown
      · intro hdenied
        rw [hallowed, hverdict] at hdenied
        cases hdenied
      · rintro ⟨hdenied, -⟩
        rw [hverdict] at hdenied
        cases hdenied
  | false =>
      have hshort : ¬ ofInt 1 ≤ finite false left := by
        rw [← hleft]
        exact fun hone => not_lt_of_le hone (hwithin.denied hverdict)
      have hfinite : Quantity.isFinite told.remaining = true := by
        rw [htold]
        rfl
      obtain ⟨tokens, htokens, -, hcases⟩ := read_of_not_one_le hshort hread hfinite
      have hshows : taken.ShownAsOne ↔ nearlyOne ≤ tokens := by
        unfold ShownAsOne
        rw [hleft, htokens]
        simp [hverdict]
      rw [hshows, not_le]
      rcases hcases with ⟨hfar, hless⟩ | ⟨hnear, hone⟩
      · refine iff_of_true ⟨hnonneg, ?_, fun _ => ?_⟩ hfar
        · intro hgranted
          rw [hallowed, hverdict] at hgranted
          cases hgranted
        · rw [htold, ofInt_one] at hless ⊢
          rw [finite_le_finite_iff, not_le] at hless
          exact finite_lt_finite_iff.mpr hless
      · refine iff_of_false (fun htoldWithin => ?_) (not_lt.mpr hnear)
        have hbelow := htoldWithin.denied (hallowed.trans hverdict)
        rw [hone] at hbelow
        exact absurd hbelow (by decide +kernel)

end TokenTake

/-! ## Calls at one moment -/

namespace Remote

variable {remote : Remote Binary64} {clock : Int} {space : KeySpace Binary64} {moment : Moment}
  {key : String} {rate : Binary64} {burst : Nat}

/-- The tokens that a take of a key draws on. -/
def levelAt (remote : Remote Binary64) (clock : Int) (space : KeySpace Binary64)
    (moment : Moment) (key : String) (rate : Binary64) (burst : Nat) : Binary64 :=
  Script.levelOf (space.bucketAt (moment.now.serverMillis clock) (remote.serverKey key)) rate
    (ofInt burst) moment.wall.inSeconds

/-- The bucket that a take of a key finds is overdrawn. -/
def Overdrawn (remote : Remote Binary64) (clock : Int) (space : KeySpace Binary64)
    (moment : Moment) (key : String) (burst : Nat) : Prop :=
  Script.Overdrawn (space.bucketAt (moment.now.serverMillis clock) (remote.serverKey key))
    moment.wall.inSeconds burst

instance (remote : Remote Binary64) (clock : Int) (space : KeySpace Binary64) (moment : Moment)
    (key : String) (burst : Nat) : Decidable (remote.Overdrawn clock space moment key burst) :=
  inferInstanceAs (Decidable (Script.Overdrawn _ _ _))

section

variable (horderly : space.Orderly (moment.now.serverMillis clock) (remote.serverKey key))
include horderly

theorem takenAt_eq_takeFrom :
    remote.takenAt clock space moment key rate burst =
      Script.takeFrom (space.bucketAt (moment.now.serverMillis clock) (remote.serverKey key)) rate
        (Quantity.ofInt burst) moment.wall.inSeconds := by
  have hfound : Script.found? space (moment.now.serverMillis clock) (remote.serverKey key)
      (remote.serverKey key ++ bucketSuffix) =
        space.bucketAt (moment.now.serverMillis clock) (remote.serverKey key) :=
    found?_eq horderly.apart
  rw [takenAt, hfound]

theorem takenAt_eq_drawn (husable : Usable rate burst) :
    remote.takenAt clock space moment key rate burst =
      .drawn (remote.levelAt clock space moment key rate burst) := by
  have hroom : Quantity.ofInt 1 ≤ (Quantity.ofInt burst : Binary64) := by
    rw [quantity_ofInt, quantity_ofInt]
    exact husable.one_le
  rw [takenAt_eq_takeFrom horderly, levelAt, ← quantity_ofInt]
  exact Script.takeFrom_eq_drawn hroom

/-- **A take that is made draws on its level**, whether its caller is told or not. -/
theorem serve_take_drawn (hlive : moment.isDone = false) (husable : Usable rate burst) :
    let taken := TokenTake.drawn (remote.levelAt clock space moment key rate burst)
    let served := remote.serve clock space ⟨moment, .take key rate burst⟩
    (served.1.allows = true → taken.allowed = true) ∧
      served.2.Orderly (moment.now.serverMillis clock) (remote.serverKey key) ∧
      served.2.bucketAt (moment.now.serverMillis clock) (remote.serverKey key) =
        some ⟨taken.remaining, moment.wall.inSeconds⟩ := by
  intro taken served
  have hdrawn : remote.takenAt clock space moment key rate burst = taken :=
    takenAt_eq_drawn horderly husable
  refine ⟨fun hallows => ?_, ?_⟩
  · unfold Outcome.allows at hallows
    cases htold : served.1.take? with
    | none =>
        rw [htold] at hallows
        cases hallows
    | some told =>
        rw [htold] at hallows
        obtain ⟨hverdict, -⟩ := told_of_serve husable.finite htold
        rw [← hdrawn, ← hverdict]
        exact hallows
  · obtain ⟨hafter, hbucket⟩ := horderly.run_take husable moment.wall
    rw [← takenAt_eq_takeFrom horderly, hdrawn] at hbucket
    have hserved := remote.serve_take clock space hlive key husable.finite burst
    unfold served
    rw [hserved]
    exact ⟨hafter, hbucket⟩

end

/-- Takes from the bucket of a key at one moment, each with its rate and its burst. -/
def takesAt (moment : Moment) (key : String) (calls : List (Binary64 × Nat)) :
    List (Call Binary64) :=
  calls.map fun call => ⟨moment, .take key call.1 call.2⟩

theorem takesAt_cons (moment : Moment) (key : String) (rate : Binary64) (burst : Nat)
    (rest : List (Binary64 × Nat)) :
    takesAt moment key ((rate, burst) :: rest) =
      ⟨moment, .take key rate burst⟩ :: takesAt moment key rest := rfl

theorem allowedTakes_cons (entry : Call Binary64 × Outcome Binary64)
    (rest : List (Call Binary64 × Outcome Binary64)) :
    allowedTakes (entry :: rest) = allowedTakes rest + if entry.2.allows then 1 else 0 :=
  List.countP_cons ..

theorem allowedTakes_replay_of_done (hdone : moment.isDone = true)
    (calls : List (Binary64 × Nat)) :
    allowedTakes (remote.replay clock space (takesAt moment key calls)) = 0 := by
  induction calls with
  | nil => rfl
  | cons call rest ih =>
      obtain ⟨rate, burst⟩ := call
      have hserved : remote.serve clock space ⟨moment, .take key rate burst⟩ = _ :=
        remote.serve_of_done clock space hdone
      rw [takesAt_cons, replay_cons, allowedTakes_cons, hserved, Call.not_allows_outcome_error, ih]
      rfl

/-- The first of the calls at a moment, with a bound for the others. -/
theorem allowedTakes_takesAt_cons (hlive : moment.isDone = false)
    (horderly : space.Orderly (moment.now.serverMillis clock) (remote.serverKey key))
    (husable : Usable rate burst) {level : Binary64}
    (hlevel : remote.levelAt clock space moment key rate burst = level)
    {rest : List (Binary64 × Nat)}
    (hrest : allowedTakes (remote.replay clock
        (remote.serve clock space ⟨moment, .take key rate burst⟩).2 (takesAt moment key rest)) ≤
      (TokenTake.draws (TokenTake.drawn level).remaining rest.length).countP TokenTake.allowed) :
    allowedTakes (remote.replay clock space (takesAt moment key ((rate, burst) :: rest))) ≤
      (TokenTake.draws level (rest.length + 1)).countP TokenTake.allowed := by
  obtain ⟨hallows, -⟩ := serve_take_drawn horderly hlive husable
  rw [hlevel] at hallows
  rw [takesAt_cons, replay_cons, allowedTakes_cons, TokenTake.draws, List.countP_cons]
  refine Nat.add_le_add hrest ?_
  split_ifs with htold hdrawn
  · exact le_rfl
  · exact absurd (hallows htold) hdrawn
  · exact Nat.zero_le _
  · exact le_rfl

/-- **Calls at one moment draw on what the last of them has left.** -/
theorem allowedTakes_le_of_bucketAt (hlive : moment.isDone = false)
    (horderly : space.Orderly (moment.now.serverMillis clock) (remote.serverKey key))
    {level : Binary64} (hbucket : space.bucketAt (moment.now.serverMillis clock)
      (remote.serverKey key) = some ⟨level, moment.wall.inSeconds⟩)
    {calls : List (Binary64 × Nat)} (husable : ∀ call ∈ calls, Usable call.1 call.2) :
    allowedTakes (remote.replay clock space (takesAt moment key calls)) ≤
      (TokenTake.draws level calls.length).countP TokenTake.allowed := by
  induction calls generalizing space level with
  | nil => exact le_rfl
  | cons call rest ih =>
      obtain ⟨rate, burst⟩ := call
      have hcall : Usable rate burst := husable _ (List.mem_cons_self ..)
      have hsame : ¬ Quantity.ofInt 0 <
          (moment.wall.inSeconds - moment.wall.inSeconds : Binary64) := by
        rw [quantity_ofInt]
        exact not_zero_lt_sub_self _
      have hlevel : remote.levelAt clock space moment key rate burst = level := by
        rw [levelAt, hbucket, Script.levelOf_of_not_passed hsame]
      obtain ⟨-, hafter, hleft⟩ := serve_take_drawn horderly hlive hcall
      rw [hlevel] at hleft
      exact allowedTakes_takesAt_cons hlive horderly hcall hlevel
        (ih hafter hleft fun other hother => husable other (List.mem_cons_of_mem _ hother))

/-- No more calls at a moment are allowed than the level of the first one has tokens. -/
theorem allowedTakes_takesAt_le
    (horderly : space.Orderly (moment.now.serverMillis clock) (remote.serverKey key))
    (husable : Usable rate burst) {rest : List (Binary64 × Nat)}
    (hrest : ∀ call ∈ rest, Usable call.1 call.2) :
    allowedTakes (remote.replay clock space (takesAt moment key ((rate, burst) :: rest))) ≤
      (TokenTake.draws (remote.levelAt clock space moment key rate burst)
        (rest.length + 1)).countP TokenTake.allowed := by
  cases hlive : moment.isDone with
  | true =>
      rw [allowedTakes_replay_of_done hlive]
      exact Nat.zero_le _
  | false =>
      obtain ⟨-, hafter, hleft⟩ := serve_take_drawn horderly hlive husable
      exact allowedTakes_takesAt_cons hlive horderly husable rfl
        (allowedTakes_le_of_bucketAt hlive hafter hleft hrest)

/-- A take may rely on its burst if no more of its moment are granted than draw on its level. -/
theorem kept_takenAt
    (horderly : space.Orderly (moment.now.serverMillis clock) (remote.serverKey key))
    (husable : Usable rate burst) {granted : List (Binary64 × Nat) → Nat}
    (hgranted : ∀ rest, (∀ call ∈ rest, Usable call.1 call.2) → granted rest ≤
      (TokenTake.draws (remote.levelAt clock space moment key rate burst)
        (rest.length + 1)).countP TokenTake.allowed) :
    (remote.takenAt clock space moment key rate burst).Kept burst
      (remote.Overdrawn clock space moment key burst) granted := by
  obtain ⟨hcount, hiff⟩ := Script.levelOf_spec horderly.isCount husable
  rw [takenAt_eq_drawn horderly husable]
  refine TokenTake.kept_drawn husable hcount hiff fun hsize level hlevel hunits rest hrest => ?_
  have hlevelAt : remote.levelAt clock space moment key rate burst = finite false level := hlevel
  refine (hgranted rest hrest).trans ?_
  rw [hlevelAt]
  exact TokenTake.countP_draws_le hsize hunits _

/-- What the caller of a take is told is within its burst as the take is. -/
theorem told_withinBurst_iff
    (horderly : space.Orderly (moment.now.serverMillis clock) (remote.serverKey key))
    (husable : Usable rate burst) (hsize : burst ≤ tenTo 14)
    (hfits : ¬ remote.Overdrawn clock space moment key burst) {told : TokenTake Binary64}
    (htold : (remote.serve clock space ⟨moment, .take key rate burst⟩).1.take? = some told) :
    told.WithinBurst burst ↔ ¬ (remote.takenAt clock space moment key rate burst).ShownAsOne := by
  obtain ⟨hallowed, hread, -⟩ := told_of_serve husable.finite htold
  obtain ⟨hcount, hiff⟩ := Script.levelOf_spec horderly.isCount husable
  rw [takenAt_eq_drawn horderly husable] at hallowed hread ⊢
  exact TokenTake.told_withinBurst_iff
    (TokenTake.withinBurst_drawn hcount husable.word (hiff.mpr hfits))
    (TokenTake.isCount_drawn hcount) husable.lasting hsize hallowed hread

theorem chronological_takesAt (moment : Moment) (key : String) (calls : List (Binary64 × Nat)) :
    Chronological (takesAt moment key calls) :=
  List.pairwise_map.mpr (List.pairwise_of_forall fun _ _ => Nat.le_refl _)

/-- **A call may rely on its burst unless it is overdrawn**, and so may its caller on what is told,
unless less than a token is shown as one. -/
theorem kept_take (keyPrefix : String) (commandTimeout : Option Duration) (clock : Int)
    {calls : List (Call Binary64)} (hordered : Chronological calls)
    (hcalls : ∀ call ∈ calls, call.key = key ∧ call.IsUsable)
    (hnow : ∀ call ∈ calls, call.moment.now ≤ moment.now) (husable : Usable rate burst) :
    let remote : Remote Binary64 := (onFreshServer keyPrefix commandTimeout clock).after calls
    let taken := remote.takenAt clock remote.keySpace moment key rate burst
    let overdrawn := remote.Overdrawn clock remote.keySpace moment key burst
    (taken.Kept burst overdrawn fun rest =>
      allowedTakes (remote.history (takesAt moment key ((rate, burst) :: rest)))) ∧
    ∀ told, (remote.perform ⟨moment, .take key rate burst⟩).1.take? = some told →
      told.allowed = taken.allowed ∧
        Quantity.read? (Quantity.scriptText taken.remaining) = some told.remaining ∧
        (burst ≤ tenTo 14 → ¬ overdrawn → (told.WithinBurst burst ↔ ¬ taken.ShownAsOne)) := by
  intro remote taken overdrawn
  have hstart : ∀ call ∈ calls, Instant.start ≤ call.moment.now := fun _ _ => Nat.zero_le _
  have hend : endOf .start calls ≤ moment.now := endOf_le (Nat.zero_le _) hnow
  have hmoment : ∀ rest, ∀ call ∈ takesAt moment key rest, endOf .start calls ≤ call.moment.now := by
    intro rest call hcall
    obtain ⟨pair, -, rfl⟩ := List.mem_map.mp hcall
    exact hend
  by_cases htimeout : commandTimeout = some .zero
  · -- every call is given up
    subst htimeout
    have hhurried : remote.Hurried clock (endOf .start calls) :=
      (hurried_onFreshServer keyPrefix clock).after hordered hstart
    have hempty : remote.keySpace.Orderly (moment.now.serverMillis clock) (remote.serverKey key) := by
      rw [hhurried.keySpace_eq]
      exact orderly_empty _ _
    refine ⟨kept_takenAt hempty husable fun rest _ => ?_, fun told htold => ?_⟩
    · rw [hhurried.allowedTakes_eq (chronological_takesAt ..) (hmoment _)]
      exact Nat.zero_le _
    · rw [(hhurried.perform _ hend).1, givenUp, Call.take?_outcome_error] at htold
      cases htold
  · have hfresh : (onFreshServer keyPrefix commandTimeout clock : Remote Binary64).Serves clock
        .empty .start := serves_onFreshServer keyPrefix htimeout clock
    obtain ⟨hserves, hkeys⟩ := hfresh.after hordered hstart
    have hname : remote.serverKey key =
        (onFreshServer keyPrefix commandTimeout clock : Remote Binary64).serverKey key :=
      congrArg (· ++ key) hkeys
    have horderly : remote.keySpace.Orderly (moment.now.serverMillis clock)
        (remote.serverKey key) := by
      rw [hserves.keySpace_eq, hname]
      exact orderly_spaceAfter _ hordered hcalls (moment.now.le_serverMillis clock)
        fun call hcall => Instant.serverMillis_le clock (hnow call hcall)
    rw [← hserves.keySpace_eq] at hserves
    refine ⟨kept_takenAt horderly husable fun rest hrest => ?_, fun told htold => ?_⟩
    · rw [hserves.history_eq (chronological_takesAt ..) (hmoment _)]
      exact allowedTakes_takesAt_le horderly husable hrest
    · rw [(hserves.perform _ hend).1] at htold
      obtain ⟨hallowed, hread, -⟩ := told_of_serve husable.finite htold
      exact ⟨hallowed, hread,
        fun hsize hfits => told_withinBurst_iff horderly husable hsize hfits htold⟩

end Remote

namespace TokenTake

variable {rate : Binary64} {burst : Nat}

/-- **Each take keeps to its own burst exactly if its bucket is not overdrawn**, over a memory and
over a server, whatever rates and bursts the calls before it had. -/
theorem kept_unless_overdrawn (key : String) (husable : Usable rate burst) :
    (∀ (events : List (Memory.Event Binary64)) (now : Instant), Memory.Chronological events →
      Memory.AllUsable key events → (∀ event ∈ events, event.time ≤ now) →
      let memory : Memory Binary64 := Memory.empty.after events
      (memory.take now key rate burst).1.Kept burst
        (Memory.Overdrawn (memory.buckets.get? key) now burst) fun rest =>
          (Memory.takesOn key (memory.history
            (Memory.takesAt now key ((rate, burst) :: rest)))).countP fun take => take.2.allowed) ∧
    ∀ (keyPrefix : String) (commandTimeout : Option Duration) (clock : Int)
      (calls : List (Remote.Call Binary64)) (moment : Moment), Remote.Chronological calls →
      (∀ call ∈ calls, call.key = key ∧ call.IsUsable) →
      (∀ call ∈ calls, call.moment.now ≤ moment.now) →
      let remote : Remote Binary64 :=
        (Remote.onFreshServer keyPrefix commandTimeout clock).after calls
      let taken := remote.takenAt clock remote.keySpace moment key rate burst
      let overdrawn := remote.Overdrawn clock remote.keySpace moment key burst
      (taken.Kept burst overdrawn fun rest => Remote.allowedTakes
        (remote.history (Remote.takesAt moment key ((rate, burst) :: rest)))) ∧
      ∀ told, (remote.perform ⟨moment, .take key rate burst⟩).1.take? = some told →
        told.allowed = taken.allowed ∧
          Quantity.read? (Quantity.scriptText taken.remaining) = some told.remaining ∧
          (burst ≤ tenTo 14 → ¬ overdrawn → (told.WithinBurst burst ↔ ¬ taken.ShownAsOne)) :=
  ⟨fun _ _ hordered hevents hnow => Memory.kept_take hordered hevents hnow husable,
    fun keyPrefix commandTimeout clock _ _ hordered hcalls hnow =>
      Remote.kept_take keyPrefix commandTimeout clock hordered hcalls hnow husable⟩

/-- A bucket that a call with a burst of ten has opened, and one with a burst of two a second
later. -/
theorem kept_unless_overdrawn_later :
    let first : Moment := .ofNanos 0
    let later : Moment := .ofNanos 1000000000
    let memory : Memory Binary64 := Memory.empty.after [⟨first.now, .take "k" (ofInt 1) 10⟩]
    let remote : Remote Binary64 :=
      (Remote.onFreshServer "" none 0).after [⟨first, .take "k" (ofInt 1) 10⟩]
    let taken : TokenTake Binary64 := ⟨true, ofInt 1⟩
    let calls := [(ofInt 1, 2), (ofInt 1, 2), (ofInt 1, 2)]
    (memory.take later.now "k" (ofInt 1) 2).1 = taken ∧
      (remote.perform ⟨later, .take "k" (ofInt 1) 2⟩).1.take? = some taken ∧
      taken.WithinBurst 2 ∧
      (Memory.takesOn "k" (memory.history (Memory.takesAt later.now "k" calls))).countP
        (fun take => take.2.allowed) ≤ 2 ∧
      Remote.allowedTakes (remote.history (Remote.takesAt later "k" calls)) ≤ 2 := by
  intro first later memory remote taken calls
  have husable : Usable (ofInt 1) 2 := ⟨by decide +kernel, by decide +kernel, by decide, by decide⟩
  have husableTen : Usable (ofInt 1) 10 :=
    ⟨by decide +kernel, by decide +kernel, by decide, by decide⟩
  have hcalls : ∀ call ∈ [(ofInt 1, 2), (ofInt 1, 2)], Usable call.1 call.2 := by
    simpa using husable
  obtain ⟨honMemory, honServer⟩ := kept_unless_overdrawn "k" husable
  have hmemory : (memory.take later.now "k" (ofInt 1) 2).1 = taken := by decide +kernel
  have hremote : (remote.perform ⟨later, .take "k" (ofInt 1) 2⟩).1.take? = some taken := by
    decide +kernel
  have hevents : Memory.AllUsable "k" [⟨first.now, .take "k" (ofInt 1) 10⟩] := by
    intro event hevent rate burst htake
    obtain rfl := List.mem_singleton.mp hevent
    obtain ⟨-, rfl, rfl⟩ := Memory.Operation.take.inj htake
    exact husableTen
  have hkept := honMemory [⟨first.now, .take "k" (ofInt 1) 10⟩] later.now (by decide) hevents
    (by decide)
  obtain ⟨hserverKept, -⟩ := honServer "" none 0 [⟨first, .take "k" (ofInt 1) 10⟩] later
    (by decide) (by simpa using ⟨rfl, husableTen⟩) (by decide)
  have hmemoryFits : ¬ Memory.Overdrawn (memory.buckets.get? "k") later.now 2 := by decide +kernel
  have hserverFits : ¬ remote.Overdrawn 0 remote.keySpace later "k" 2 := by decide +kernel
  have hwithin := hkept.within hmemoryFits
  rw [hmemory] at hwithin
  exact ⟨hmemory, hremote, hwithin, hkept.granted_le (by decide) hmemoryFits _ hcalls,
    hserverKept.granted_le (by decide) hserverFits _ hcalls⟩

/-- With a burst of two, right after a call with a burst of ten, eight tokens are left of ten, and
nine calls are granted at once. -/
theorem overdrawn_by_larger_burst :
    let memory : Memory Binary64 := Memory.empty.after [⟨.start, .take "k" (ofInt 1) 10⟩]
    let remote : Remote Binary64 :=
      (Remote.onFreshServer "" none 0).after [⟨.ofNanos 0, .take "k" (ofInt 1) 10⟩]
    let taken : TokenTake Binary64 := ⟨true, ofInt 8⟩
    let calls := List.replicate 10 (ofInt 1, 2)
    (memory.take .start "k" (ofInt 1) 2).1 = taken ∧
      (remote.perform ⟨.ofNanos 0, .take "k" (ofInt 1) 2⟩).1.take? = some taken ∧
      ¬ taken.WithinBurst 2 ∧
      (Memory.takesOn "k" (memory.history (Memory.takesAt .start "k" calls))).countP
        (fun take => take.2.allowed) = 9 ∧
      Remote.allowedTakes (remote.history (Remote.takesAt (.ofNanos 0) "k" calls)) = 9 := by
  refine ⟨by decide +kernel, by decide +kernel, fun hwithin => ?_, by decide +kernel,
    by decide +kernel⟩
  exact absurd (hwithin.allowed rfl) (by decide +kernel)

end TokenTake

end Throttle
