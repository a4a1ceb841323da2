import Throttle.Limiter
import Throttle.Proofs.Memory.Bucket
import Throttle.Proofs.Remote.Bucket
import Throttle.Proofs.Remote.Independence

/-!
# Token buckets on a server and in memory

A limiter that uses token buckets answers alike over a store on a server and over one in
memory, as long as the wall clock moves with the clock of the calls
(`tokenBucket_answers_alike`).

The server holds for a key what the memory holds for it, with the expiry that the last take has
set (`Copies`), or nothing any more, once that time has passed (`Mirrors`).  By then the
bucket in memory is full: it lives twice as long as it takes to fill up, and the milliseconds
of the server, which are rounded down, cannot make up for that
(`Copies.refilled_of_expired`).  A full bucket is used like one that is not there, so the
expiry makes no difference.
-/

namespace Throttle

open KeySpace

/-- The answers of a limiter to calls one after another. -/
def Limiter.answers {α σ : Type} [Quantity α] [Store σ α] (limiter : Limiter α) (store : σ) :
    List (Moment × String) → List (Answer (Failure α) Verdict)
  | [] => []
  | (moment, key) :: rest =>
      (limiter.allow store moment key).1 :: answers limiter (limiter.allow store moment key).2 rest

/-- A moment at which the wall clock shows what has passed since it was set. -/
def Moment.InStep (wallStart : Int) (moment : Moment) : Prop :=
  moment.wall.nanos = wallStart + moment.now.nanos

instance (wallStart : Int) (moment : Moment) : Decidable (moment.InStep wallStart) :=
  inferInstanceAs (Decidable (_ = _))

/-- What the wall clock shows in seconds at an instant. -/
def Instant.wallSeconds (wallStart : Int) (instant : Instant) : Rat :=
  ((wallStart + instant.nanos : Int) : Rat) / nanosRatio

/-! ## One bucket in two places -/

/-- What a server keeps for a bucket in memory after a take. -/
structure Copies (wallStart clock : Int) (rate : Rat) (burst : Nat) (held : Bucket Rat)
    (entry : Entry Rat) : Prop where
  held_eq : entry.content.held? = some ⟨held.tokens, held.lastUsed.wallSeconds wallStart⟩
  expiresAt_eq : entry.expiresAt =
    some (held.lastUsed.serverMillis clock + Script.lifetimeSeconds rate burst * 1000)
  nonneg : 0 ≤ held.tokens
  le_burst : held.tokens ≤ burst

/-- A server has for a key what a memory has for it, until that expires. -/
def Mirrors (wallStart clock : Int) (rate : Rat) (burst : Nat) (held? : Option (Bucket Rat))
    (space : KeySpace Rat) (now : Int) (name : String) : Prop :=
  ∃ copy? : Option (Entry Rat),
    Script.takeToken.stateAt space now name = copy?.filter (isLive now) ∧
      Option.Rel (Copies wallStart clock rate burst) held? copy?

section

variable {wallStart clock : Int} {rate : Rat} {burst : Nat} {held : Bucket Rat}
  {entry : Entry Rat} {now : Instant}

/-- Both refill a bucket by the same time. -/
theorem Bucket.refilled_eq_script (held : Bucket Rat) (wallStart : Int) (rate burst : Rat)
    (now : Instant) :
    Script.refilled ⟨held.tokens, held.lastUsed.wallSeconds wallStart⟩ rate burst
        (now.wallSeconds wallStart) = held.refilled now rate burst := by
  have hpassed : now.wallSeconds wallStart - held.lastUsed.wallSeconds wallStart =
      ((now.nanos : Rat) - held.lastUsed.nanos) / nanosRatio := by
    unfold Instant.wallSeconds
    push_cast
    ring
  rw [Script.refilled_rat]
  unfold refilled
  simp only [Quantity.ofInt_rat, Int.cast_zero, Quantity.lesser_rat, hpassed,
    Duration.inSeconds_rat]
  by_cases hlater : held.lastUsed.nanos ≤ now.nanos
  · have helapsed : ((held.lastUsed.timeUntil now).nanos : Rat) =
        (now.nanos : Rat) - held.lastUsed.nanos := Nat.cast_sub hlater
    rw [helapsed]
  · have hback : ((now.nanos : Rat) - held.lastUsed.nanos) / nanosRatio < 0 := by
      have hlt : (now.nanos : Rat) < held.lastUsed.nanos := by exact_mod_cast not_le.mp hlater
      exact div_neg_of_neg_of_pos (sub_neg.mpr hlt) nanosRatio_pos
    have helapsed : (held.lastUsed.timeUntil now).nanos = 0 :=
      Nat.sub_eq_zero_of_le (not_le.mp hlater).le
    rw [if_neg hback.not_gt, helapsed, Nat.cast_zero, zero_div, if_neg (lt_irrefl 0)]

namespace Copies

/-- The server's clock, in whole milliseconds, does not let a bucket expire too early. -/
theorem lifetime_lt_of_expired (hcopies : Copies wallStart clock rate burst held entry)
    (hexpired : isLive (now.serverMillis clock) entry = false) :
    Script.lifetimeSeconds rate burst * nanosPerSecond <
      ((held.lastUsed.timeUntil now).nanos : Int) := by
  unfold isLive at hexpired
  rw [hcopies.expiresAt_eq] at hexpired
  have hpast := of_decide_eq_false hexpired
  have hten := Script.ten_le_lifetimeSeconds rate (burst : Rat)
  unfold Instant.serverMillis at hpast
  unfold Instant.timeUntil
  simp only [nanosPerMilli, nanosPerSecond] at hpast ⊢
  omega

/-- **What has expired on the server is full in memory.** -/
theorem refilled_of_expired (hcopies : Copies wallStart clock rate burst held entry)
    (hrate : 0 < rate) (hexpired : isLive (now.serverMillis clock) entry = false) :
    held.refilled now rate burst = burst := by
  have hlong : (Script.lifetimeSeconds rate burst : Rat) ≤
      (held.lastUsed.timeUntil now).inSeconds := by
    rw [Duration.inSeconds_rat, le_div_iff₀ nanosRatio_pos, nanosRatio]
    exact_mod_cast (hcopies.lifetime_lt_of_expired hexpired).le
  -- The lifetime fills a bucket twice over; that the tokens it had are not negative is enough.
  have hfilled : 2 * (burst : Rat) / rate ≤ Script.lifetimeSeconds rate burst :=
    (Int.le_ceil _).trans (Int.cast_le.mpr (le_max_right _ _))
  have hearned : 2 * (burst : Rat) ≤ (held.lastUsed.timeUntil now).inSeconds * rate :=
    (div_le_iff₀ hrate).mp (hfilled.trans hlong)
  have hburst : (0 : Rat) ≤ burst := Nat.cast_nonneg burst
  rw [Bucket.refilled_eq_min hcopies.le_burst, min_eq_right]
  linarith [hcopies.nonneg]

end Copies

end

namespace Mirrors

variable {wallStart clock : Int} {rate : Rat} {burst : Nat} {held? : Option (Bucket Rat)}
  {space : KeySpace Rat} {now later : Int} {name : String}

theorem mono (hmirrors : Mirrors wallStart clock rate burst held? space now name)
    (hapart : space.Apart now name) (hlater : now ≤ later) :
    Mirrors wallStart clock rate burst held? space later name := by
  obtain ⟨copy?, hstate, hcopies⟩ := hmirrors
  refine ⟨copy?, ?_, hcopies⟩
  rw [hapart.stateAt_later hlater, hstate, filter_isLive_filter hlater]

/-- Nothing but a bucket is there. -/
theorem type_eq (hmirrors : Mirrors wallStart clock rate burst held? space now name)
    {entry : Entry Rat} (hentry : Script.takeToken.stateAt space now name = some entry) :
    entry.content.type = .hash := by
  obtain ⟨copy?, hstate, hcopies⟩ := hmirrors
  rw [hstate, Option.filter_eq_some_iff] at hentry
  cases hcopies with
  | none => cases hentry.1
  | some hcopies =>
      obtain rfl := Option.some.inj hentry.1
      by_contra htype
      cases hcopies.held_eq.symm.trans (Content.held?_eq_none htype)

theorem tokens_nonneg (hmirrors : Mirrors wallStart clock rate burst held? space now name) :
    ∀ held ∈ space.bucketAt now name, 0 ≤ held.tokens := by
  obtain ⟨copy?, hstate, hcopies⟩ := hmirrors
  intro held hheld
  unfold KeySpace.bucketAt at hheld
  rw [hstate] at hheld
  cases hcopies with
  | none => cases hheld
  | @some inMemory entry hcopies =>
      by_cases hlive : isLive now entry = true
      · rw [Option.filter_some_pos hlive, Option.bind_some, hcopies.held_eq] at hheld
        cases hheld
        exact hcopies.nonneg
      · rw [Option.filter_some_neg (Bool.eq_false_iff.mpr hlive)] at hheld
        cases hheld

/-- **A take finds the same in both places**, or a full bucket in memory and nothing on the
server. -/
theorem takeFrom_eq {instant : Instant}
    (hmirrors : Mirrors wallStart clock rate burst held? space (instant.serverMillis clock) name)
    (hrate : 0 < rate) (hburst : 1 ≤ burst) :
    Script.takeFrom (space.bucketAt (instant.serverMillis clock) name) rate burst
        (instant.wallSeconds wallStart) =
      (Memory.useBucket held? instant rate burst).1 := by
  obtain ⟨copy?, hstate, hcopies⟩ := hmirrors
  unfold KeySpace.bucketAt
  rw [hstate]
  cases hcopies with
  | none => rw [Option.filter_none, Option.bind_none, Script.takeFrom_none,
      Memory.useBucket_none hburst]
  | @some held entry hcopies =>
      by_cases hlive : isLive (instant.serverMillis clock) entry = true
      · rw [Option.filter_some_pos hlive, Option.bind_some, hcopies.held_eq, Script.takeFrom_some,
          Bucket.refilled_eq_script, Memory.useBucket_some]
        by_cases htoken : 1 ≤ held.refilled instant rate burst
        · simp only [htoken, if_true, decide_true]
        · simp only [htoken, if_false, decide_false]
      · have hexpired := Bool.eq_false_iff.mpr hlive
        have hfull := hcopies.refilled_of_expired hrate hexpired
        rw [Option.filter_some_neg hexpired, Option.bind_none, Script.takeFrom_none,
          Memory.useBucket_of_full hburst hfull, Memory.useBucket_none hburst]

theorem tokens_le (hmirrors : Mirrors wallStart clock rate burst held? space now name) :
    ∀ held ∈ held?, held.tokens ≤ burst := by
  obtain ⟨copy?, -, hcopies⟩ := hmirrors
  rintro held hheld
  cases hcopies with
  | none => cases hheld
  | some hcopies =>
      cases hheld
      exact hcopies.le_burst

/-- What a take has written is a copy of what it has left in memory. -/
theorem of_take {instant : Instant}
    (hmirrors : Mirrors wallStart clock rate burst held? space (instant.serverMillis clock) name)
    (hrate : 0 < rate) (hburst : 1 ≤ burst) {left : KeySpace Rat}
    {fields : Table String (Field Rat)}
    (hstate : Script.takeToken.stateAt left (instant.serverMillis clock) name =
      some ⟨.hash fields,
        some (instant.serverMillis clock + Script.lifetimeSeconds rate burst * 1000)⟩)
    (hfields : Script.held? fields =
      some ⟨(Memory.useBucket held? instant rate burst).1.remaining,
        instant.wallSeconds wallStart⟩) :
    Mirrors wallStart clock rate burst (some (Memory.useBucket held? instant rate burst).2) left
      (instant.serverMillis clock) name := by
  have hone : (1 : Rat) ≤ burst := by exact_mod_cast hburst
  have hbucket := Memory.useBucket_eq held? instant rate burst
  have hremaining : 0 ≤ (Memory.useBucket held? instant rate burst).1.remaining := by
    rw [← hmirrors.takeFrom_eq hrate hburst]
    exact Script.takeFrom_nonneg hrate.le hone hmirrors.tokens_nonneg
  have hlive : isLive (instant.serverMillis clock) (⟨.hash fields,
      some (instant.serverMillis clock + Script.lifetimeSeconds rate burst * 1000)⟩ :
        Entry Rat) = true := by
    have hten := Script.ten_le_lifetimeSeconds rate (burst : Rat)
    exact decide_eq_true (by omega)
  refine ⟨_, hstate.trans (Option.filter_some_pos hlive).symm, .some ?_⟩
  have hle : (Memory.useBucket held? instant rate burst).2.tokens ≤ burst :=
    Memory.useBucket_tokens_le hburst hmirrors.tokens_le
  rw [hbucket] at hle ⊢
  exact ⟨hfields, rfl, hremaining, hle⟩

end Mirrors

/-! ## Two stores side by side -/

namespace Remote

/-- A memory and a store on a server that hold the same buckets for some keys. -/
structure Backs (remote : Remote Rat) (wallStart clock : Int) (rate : Rat) (burst : Nat)
    (keys : String → Prop) (memory : Memory Rat) (now : Instant) : Prop where
  serves : remote.Serves clock remote.keySpace now
  apart : ∀ key, keys key →
    remote.keySpace.Apart (now.serverMillis clock) (remote.serverKey key)
  mirrors : ∀ key, keys key → Mirrors wallStart clock rate burst (memory.buckets.get? key)
    remote.keySpace (now.serverMillis clock) (remote.serverKey key)

variable {remote : Remote Rat} {wallStart clock : Int} {rate : Rat} {burst : Nat}
  {keys : String → Prop} {memory : Memory Rat} {now later : Instant}

theorem backs_onFreshServer (keyPrefix : String) {commandTimeout : Option Duration}
    (htimeout : commandTimeout ≠ some .zero) (wallStart clock : Int) (rate : Rat) (burst : Nat)
    (keys : String → Prop) :
    (onFreshServer keyPrefix commandTimeout clock).Backs wallStart clock rate burst keys .empty
      .start where
  serves := serves_onFreshServer keyPrefix htimeout clock
  apart := fun _ _ => apart_empty _ _
  mirrors := fun _ _ => ⟨none, rfl, .none⟩

theorem Backs.mono (hbacks : remote.Backs wallStart clock rate burst keys memory now)
    (hlater : now ≤ later) : remote.Backs wallStart clock rate burst keys memory later where
  serves := hbacks.serves.mono hlater
  apart := fun key hkey => (hbacks.apart key hkey).mono (Instant.serverMillis_le clock hlater)
  mirrors := fun key hkey => (hbacks.mirrors key hkey).mono (hbacks.apart key hkey)
    (Instant.serverMillis_le clock hlater)

/-- What is the same under all names of a key is the same for both scripts. -/
theorem AgreeOn.apart {key : String} {millis : Int} {full part : KeySpace Rat}
    (hagree : remote.AgreeOn key millis full part)
    (hapart : part.Apart millis (remote.serverKey key)) :
    full.Apart millis (remote.serverKey key) ∧ ∀ script : Script,
      script.stateAt full millis (remote.serverKey key) =
        script.stateAt part millis (remote.serverKey key) := by
  have hkey := hagree _ (Or.inl rfl)
  have hside : ∀ script : Script, _ := fun script => hagree _ (Or.inr ⟨script, rfl⟩)
  refine ⟨fun script => ?_, fun script => ?_⟩
  · rw [hside script, Script.ownAt_congr hkey]
    exact hapart script
  · unfold Script.stateAt
    rw [hside script, Script.ownAt_congr hkey]

/-- Two stores that change what they hold for one key, and change it alike. -/
theorem Backs.insert (hbacks : remote.Backs wallStart clock rate burst keys memory now)
    {left : Remote Rat} (hserves : left.Serves clock left.keySpace now)
    (hprefixes : left.keyPrefix = remote.keyPrefix) {key : String} {held : Bucket Rat}
    (hothers : ∀ other, keys other → other ≠ key →
      remote.AgreeOn other (now.serverMillis clock) left.keySpace remote.keySpace)
    (hapart : left.keySpace.Apart (now.serverMillis clock) (remote.serverKey key))
    (hmirrors : Mirrors wallStart clock rate burst (some held) left.keySpace
      (now.serverMillis clock) (remote.serverKey key)) :
    left.Backs wallStart clock rate burst keys
      { memory with buckets := memory.buckets.insert key held } now := by
  have hname : ∀ other, left.serverKey other = remote.serverKey other :=
    fun other => congrArg (· ++ other) hprefixes
  refine ⟨hserves, fun other hother => ?_, fun other hother => ?_⟩
  · rw [hname]
    by_cases hne : other = key
    · rw [hne]
      exact hapart
    · exact ((hothers other hother hne).apart (hbacks.apart other hother)).1
  · rw [hname]
    by_cases hne : other = key
    · rw [hne]
      dsimp only
      rw [Table.get?_insert_self]
      exact hmirrors
    · obtain ⟨copy?, hheld, hcopies⟩ := hbacks.mirrors other hother
      refine ⟨copy?, ?_, ?_⟩
      · rw [((hothers other hother hne).apart (hbacks.apart other hother)).2, hheld]
      · rwa [Table.get?_insert_of_ne _ hne]

theorem take_memory (memory : Memory Rat) {moment : Moment} (hdone : moment.isDone = false)
    (key : String) (rate : Rat) (burst : Nat) :
    Store.take memory moment key rate burst =
      let used := Memory.useBucket (memory.buckets.get? key) moment.now rate burst
      (⟨.ok used.1, moment.now⟩, { memory with buckets := memory.buckets.insert key used.2 }) := by
  change (if moment.isDone then _ else _) = _
  rw [hdone]
  unfold Memory.take Memory.useBucket
  cases memory.buckets.get? key <;> rfl

/-- **A take is answered alike, and the two stores hold the same afterwards.** -/
theorem Backs.take (hbacks : remote.Backs wallStart clock rate burst keys memory now)
    {moment : Moment} (hnow : moment.now = now) (hstep : moment.InStep wallStart)
    (hrate : 0 < rate) (hburst : 1 ≤ burst) {key : String} (hkey : keys key)
    (hkeys : ∀ other, keys other → other = key ∨ ¬ SharesName other key)
    (hfits : ExpiryFits (now.serverMillis clock) (Script.lifetimeSeconds rate burst * 1000)) :
    (Store.take remote moment key rate burst).1 = (Store.take memory moment key rate burst).1 ∧
      (Store.take remote moment key rate burst).2.Backs wallStart clock rate burst keys
        (Store.take memory moment key rate burst).2 now := by
  subst hnow
  let call : Call Rat := ⟨moment, .take key rate burst⟩
  obtain ⟨houtcome, hafter, hsame⟩ := hbacks.serves.perform call (Nat.le_refl _)
  have hspace := hafter.keySpace_eq
  change Outcome.taken (Store.take remote moment key rate burst).1 = _ at houtcome
  change (Store.take remote moment key rate burst).2.keySpace = _ at hspace
  change (Store.take remote moment key rate burst).2.keyPrefix = _ at hsame
  cases hdone : moment.isDone with
  | true =>
      have hname : ∀ other, (Store.take remote moment key rate burst).2.serverKey other =
          remote.serverKey other := fun other => congrArg (· ++ other) hsame
      have hserved : remote.serve clock remote.keySpace call =
          (.taken ⟨.error .canceled, moment.now⟩, remote.keySpace) := if_pos hdone
      have hmemory : Store.take memory moment key rate burst =
          (⟨.error .canceled, moment.now⟩, memory) := if_pos hdone
      rw [hserved] at houtcome hspace hafter
      rw [hmemory]
      refine ⟨Outcome.taken.inj houtcome, ⟨by rwa [hspace], fun other hother => ?_,
        fun other hother => ?_⟩⟩
      · rw [hspace, hname]
        exact hbacks.apart other hother
      · rw [hspace, hname]
        exact hbacks.mirrors other hother
  | false =>
      have hmirrors := hbacks.mirrors key hkey
      have hreading : (moment.wall.inSeconds : Rat) = moment.now.wallSeconds wallStart := by
        rw [WallTime.inSeconds_rat, hstep]
        rfl
      have htaken : Script.takeFrom (remote.keySpace.bucketAt (call.millis clock)
          (remote.serverKey key)) rate burst call.moment.wall.inSeconds =
            (Memory.useBucket (memory.buckets.get? key) moment.now rate burst).1 := by
        change Script.takeFrom _ rate burst moment.wall.inSeconds = _
        rw [hreading]
        exact hmirrors.takeFrom_eq hrate hburst
      have hrun : (remote.serve clock remote.keySpace call).2 =
          ((remote.request call).runOn remote.keySpace (call.millis clock)).space := by
        unfold serve
        rw [if_neg (by rw [hdone]; exact Bool.false_ne_true)]
      obtain ⟨hapart, hcases⟩ := serve_take_cases call rfl hdone (hbacks.apart key hkey)
        hrate.le hburst hmirrors.tokens_nonneg
      rcases hcases with ⟨-, -, entry, hentry, htype⟩ | ⟨-, -, hunfit⟩ |
        ⟨hserved, fields, hstate, hfields⟩
      · exact absurd (hmirrors.type_eq hentry) htype
      · exact absurd (Script.secondsFit_lifetime hfits) hunfit
      · -- The other keys share no name with this one, so their buckets are what they were.
        rw [htaken] at hserved hfields
        rw [take_memory memory hdone]
        have hagree : ∀ other, keys other → other ≠ key →
            remote.AgreeOn other (moment.now.serverMillis clock)
              (Store.take remote moment key rate burst).2.keySpace remote.keySpace := by
          intro other hother hne
          rw [hspace, hrun]
          exact agreeOn_run hne ((hkeys other hother).resolve_left hne) _ _
        refine ⟨Outcome.taken.inj (houtcome.trans hserved),
          hbacks.insert (by rwa [hspace]) hsame hagree (by rw [hspace]; exact hapart) ?_⟩
        rw [hspace]
        exact hmirrors.of_take hrate hburst hstate (by rw [← hreading]; exact hfields)

/-- Runs over two stores that hold the same are answered alike. -/
theorem Backs.answers_eq {limiter : TokenBucket Rat}
    (hbacks : remote.Backs wallStart clock limiter.rate limiter.burst keys memory now)
    (hapart : ∀ first second, keys first → keys second →
      first = second ∨ ¬ SharesName first second)
    {calls : List (Moment × String)}
    (hordered : calls.Pairwise fun earlier later => earlier.1.now ≤ later.1.now)
    (hnow : ∀ call ∈ calls, now ≤ call.1.now)
    (hcalls : ∀ call ∈ calls, keys call.2 ∧ call.1.InStep wallStart ∧
      ExpiryFits (call.1.now.serverMillis clock)
        (Script.lifetimeSeconds limiter.rate limiter.burst * 1000)) :
    (Limiter.tokenBucket limiter).answers remote calls =
      (Limiter.tokenBucket limiter).answers memory calls := by
  have hrate : 0 < limiter.rate := not_le.mp limiter.positive
  have hburst : 1 ≤ limiter.burst := Nat.one_le_iff_ne_zero.mpr limiter.lasting
  induction calls generalizing remote memory now with
  | nil => rfl
  | cons call rest ih =>
      obtain ⟨moment, key⟩ := call
      obtain ⟨hlater, hrest⟩ := List.pairwise_cons.mp hordered
      obtain ⟨hkey, hstep, hfits⟩ := hcalls _ (List.mem_cons_self ..)
      obtain ⟨hanswer, hafter⟩ := (hbacks.mono (hnow _ (List.mem_cons_self ..))).take rfl hstep
        hrate hburst hkey (fun other hother => hapart other key hother hkey) hfits
      have hallow : ((Limiter.tokenBucket limiter).allow remote moment key).1 =
          ((Limiter.tokenBucket limiter).allow memory moment key).1 := by
        unfold Limiter.allow
        simp only
        rw [hanswer]
      unfold Limiter.answers
      rw [hallow]
      exact congrArg _ (ih hafter hrest hlater
        fun other hother => hcalls other (List.mem_cons_of_mem _ hother))

/-- A token bucket answers alike over both stores, for any keys that do not share a name. -/
theorem tokenBucket_answers_alike_of_apart (limiter : TokenBucket Rat) (keyPrefix : String)
    {commandTimeout : Option Duration} (htimeout : commandTimeout ≠ some .zero)
    (clock wallStart : Int) {calls : List (Moment × String)}
    (hordered : calls.Pairwise fun earlier later => earlier.1.now ≤ later.1.now)
    (hapart : ∀ first ∈ calls, ∀ second ∈ calls,
      first.2 = second.2 ∨ ¬ SharesName first.2 second.2)
    (hcalls : ∀ call ∈ calls, call.1.InStep wallStart ∧
      ExpiryFits (call.1.now.serverMillis clock)
        (Script.lifetimeSeconds limiter.rate limiter.burst * 1000)) :
    (Limiter.tokenBucket limiter).answers
        (onFreshServer keyPrefix commandTimeout clock : Remote Rat) calls =
      (Limiter.tokenBucket limiter).answers (Memory.empty : Memory Rat) calls := by
  refine (backs_onFreshServer keyPrefix htimeout wallStart clock limiter.rate limiter.burst
    fun key => ∃ call ∈ calls, call.2 = key).answers_eq ?_ hordered
    (fun _ _ => Nat.zero_le _) fun call hcall => ⟨⟨call, hcall, rfl⟩, hcalls call hcall⟩
  rintro first second ⟨call, hcall, rfl⟩ ⟨other, hother, rfl⟩
  exact hapart call hcall other hother

/-- **A token bucket answers alike over both stores**: for every key, calls at any moments, with
a wall clock that moves along and a lifetime of the bucket that the server accepts, are answered
over a fresh server as over an empty memory that is never swept. -/
theorem tokenBucket_answers_alike (limiter : TokenBucket Rat) (keyPrefix : String)
    {commandTimeout : Option Duration} (htimeout : commandTimeout ≠ some .zero)
    (clock wallStart : Int) (key : String) {moments : List Moment}
    (hordered : moments.Pairwise fun earlier later => earlier.now ≤ later.now)
    (hwall : ∀ moment ∈ moments, moment.InStep wallStart)
    (hfits : ∀ moment ∈ moments, ExpiryFits (moment.now.serverMillis clock)
      (max 10 ⌈2 * (limiter.burst : Rat) / limiter.rate⌉ * 1000)) :
    let calls := moments.map fun moment => (moment, key)
    (Limiter.tokenBucket limiter).answers
        (onFreshServer keyPrefix commandTimeout clock : Remote Rat) calls =
      (Limiter.tokenBucket limiter).answers (Memory.empty : Memory Rat) calls := by
  intro calls
  have hmade : ∀ call ∈ calls, call.1 ∈ moments ∧ call.2 = key := by
    intro call hcall
    obtain ⟨moment, hmoment, rfl⟩ := List.mem_map.mp hcall
    exact ⟨hmoment, rfl⟩
  apply tokenBucket_answers_alike_of_apart limiter keyPrefix htimeout clock wallStart
  · exact List.pairwise_map.mpr hordered
  · intro first hfirst second hsecond
    exact Or.inl ((hmade first hfirst).2.trans (hmade second hsecond).2.symm)
  · intro call hcall
    obtain ⟨hmoment, -⟩ := hmade call hcall
    exact ⟨hwall _ hmoment, hfits _ hmoment⟩

/-- Two tokens at once, one that comes too early, and one after the server has given the bucket
up. -/
def patientRun : List Moment :=
  [0, 0, 1500000000, 14000000000].map fun nanos : Nat =>
    ⟨⟨nanos⟩, ⟨1700000000000000000 + nanos⟩, none⟩

theorem tokenBucket_answers_alike_patientRun :
    let limiter : TokenBucket Rat := ⟨1 / 2, 2, rfl, by decide +kernel, by decide⟩
    let calls := patientRun.map fun moment => (moment, "k")
    let answers := (Limiter.tokenBucket limiter).answers (Memory.empty : Memory Rat) calls
    (patientRun.Pairwise fun earlier later => earlier.now ≤ later.now) ∧
      answers.map (fun answer => answer.outcome.toOption.map Verdict.allowed) =
        [some true, some true, some false, some true] ∧
      (Limiter.tokenBucket limiter).answers
        (onFreshServer "" none 1700000000000 : Remote Rat) calls = answers := by
  intro limiter calls answers
  have hordered : patientRun.Pairwise fun earlier later => earlier.now ≤ later.now := by decide
  have hwall : ∀ moment ∈ patientRun, moment.InStep 1700000000000000000 := by decide
  have hseconds : max 10 ⌈2 * ((2 : Nat) : Rat) / (1 / 2)⌉ = 10 := by norm_num
  have hfits : ∀ moment ∈ patientRun, ExpiryFits (moment.now.serverMillis 1700000000000)
      (max 10 ⌈2 * ((2 : Nat) : Rat) / (1 / 2)⌉ * 1000) := by
    rw [hseconds]
    decide
  exact ⟨hordered, by decide +kernel, tokenBucket_answers_alike limiter "" (by decide)
    1700000000000 1700000000000000000 "k" hordered hwall hfits⟩

end Remote

end Throttle
