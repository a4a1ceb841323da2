import Throttle.Proofs.Memory.Anchors
import Throttle.Proofs.Remote.Counter
import Throttle.Proofs.Remote.Refinement

/-!
# Fixed windows on a server and in memory

Both stores anchor a window at its first call and never move its end.  They differ in the one
instant in which it ends: in memory the window is over by then, while a key of the server lives
through the millisecond of its expiry.  So a limiter answers alike over both stores exactly as
long as no call comes in that instant (`fixedWindow_answers_alike_iff`).

What the server has for a key is the counter of the window in memory, or nothing once that has
expired (`MirrorsWindow`).  `MirrorsWindow.next` is the step that keeps it so, and
`MirrorsWindow.at_end` the call that breaks it.
-/

namespace Throttle

open KeySpace

/-! ## Whole milliseconds -/

/-- An instant at a whole millisecond of the clock. -/
def Instant.Whole (instant : Instant) : Prop := instant.nanos % nanosPerMilli = 0

instance (instant : Instant) : Decidable instant.Whole :=
  inferInstanceAs (Decidable (_ = _))

namespace Instant

variable {first second : Instant}

theorem serverMillis_after (hwhole : first.Whole) (clock : Int) (millis : Nat) :
    (first.after (.ofMillis millis)).serverMillis clock = first.serverMillis clock + millis ∧
      (first.after (.ofMillis millis)).Whole := by
  unfold Whole serverMillis after Duration.ofMillis nanosPerMilli at *
  dsimp only
  omega

theorem serverMillis_lt_iff (clock : Int) (hfirst : first.Whole) (hsecond : second.Whole) :
    first.serverMillis clock < second.serverMillis clock ↔ first < second := by
  change _ ↔ first.nanos < second.nanos
  unfold Whole serverMillis nanosPerMilli at *
  omega

theorem timeUntil_of_whole (clock : Int) (hfirst : first.Whole) (hsecond : second.Whole) :
    first.timeUntil second =
      .ofMillis (second.serverMillis clock - first.serverMillis clock).toNat := by
  unfold timeUntil Duration.ofMillis
  congr 1
  unfold Whole serverMillis nanosPerMilli at *
  omega

end Instant

/-- A window whose milliseconds the server accepts ends at an instant that can be represented. -/
theorem Window.endOf_of_fits {clock : Int} (hclock : Decimal.FitsSigned clock) {now : Instant}
    {millis : Nat} (hfits : ExpiryFits (now.serverMillis clock) millis) :
    Window.endOf now (.ofMillis millis) = now.after (.ofMillis millis) := by
  have hrepresentable : (now.after (.ofMillis millis)).Representable := by
    have hwords : twoTo 63 = 9223372036854775808 := by decide
    obtain ⟨-, -, hhigh⟩ := hfits
    obtain ⟨hlow, -⟩ := hclock
    unfold Instant.serverMillis at hhigh
    unfold Instant.Representable Instant.after Duration.ofMillis
    simp only [nanosPerMilli, nanosPerSecond, hwords] at *
    omega
  unfold Window.endOf Instant.after?
  rw [if_pos hrepresentable]
  rfl

theorem Duration.shorter_shorter (first second : Duration) :
    (first.shorter second).shorter second = first.shorter second :=
  congrArg mk (Nat.min_eq_left (Nat.min_le_right _ _))

theorem windowMillis_ofMillis {millis : Nat} (hmillis : 0 < millis) (hshort : millis ≤ twoTo 53) :
    Remote.windowMillis (.ofMillis millis) = millis := by
  have hlarge : twoTo 53 < twoTo 64 := by decide
  have hwhole : (Duration.ofMillis millis).millis = millis :=
    Nat.mul_div_cancel millis (by decide)
  rw [Remote.windowMillis, hwhole, Nat.max_eq_left hmillis, Nat.mod_eq_of_lt (by omega)]

/-! ## One window in two places -/

/-- What a server keeps for a window in memory. -/
def Window.copy (clock : Int) (held : Window) : Entry Binary64 :=
  counterEntry held.count (held.expiresAt.serverMillis clock)

/-- A server has for a key the counter of the window that a memory has, until that expires. -/
structure MirrorsWindow (clock : Int) (held? : Option Window) (space : KeySpace Binary64)
    (now : Int) (name : String) : Prop where
  apart : space.Apart now name
  state_eq : Script.countCall.stateAt space now name =
    (held?.map (Window.copy clock)).filter (isLive now)
  whole : ∀ held ∈ held?, held.expiresAt.Whole
  positive : ∀ held ∈ held?, 1 ≤ held.count

namespace MirrorsWindow

variable {clock : Int} {held? : Option Window} {space : KeySpace Binary64} {name : String}

theorem mono {now later : Int} (hmirrors : MirrorsWindow clock held? space now name)
    (hlater : now ≤ later) : MirrorsWindow clock held? space later name where
  apart := hmirrors.apart.mono hlater
  state_eq := by
    rw [hmirrors.apart.stateAt_later hlater, hmirrors.state_eq, filter_isLive_filter hlater]
  whole := hmirrors.whole
  positive := hmirrors.positive

/-- What an increment finds of a window that lasts, until its very end. -/
theorem state_of_lasting {now : Instant} {held : Window}
    (hmirrors : MirrorsWindow clock (some held) space (now.serverMillis clock) name)
    (hlasting : now ≤ held.expiresAt) :
    Script.countCall.stateAt space (now.serverMillis clock) name =
      some (counterEntry held.count (held.expiresAt.serverMillis clock)) := by
  rw [hmirrors.state_eq, Option.map_some, Option.filter_some_pos]
  · rfl
  · exact decide_eq_true (Instant.serverMillis_le clock hlasting)

/-- Where a window begins in memory, nothing is left on the server, except at the very end of the
window before. -/
theorem state_of_over {now : Instant} (hnow : now.Whole)
    (hmirrors : MirrorsWindow clock held? space (now.serverMillis clock) name)
    (hover : ∀ held ∈ held?, held.expiresAt < now) :
    Script.countCall.stateAt space (now.serverMillis clock) name = none := by
  rw [hmirrors.state_eq]
  cases held? with
  | none => rfl
  | some held =>
      rw [Option.map_some, Option.filter_some_neg]
      have hlate := (Instant.serverMillis_lt_iff clock (hmirrors.whole held rfl) hnow).mpr
        (hover held rfl)
      exact decide_eq_false (not_le.mpr hlate)

/-- An increment leaves on the server the counter of a window in memory, and its caller is told of
that window. -/
def Follows (clock : Int) (space : KeySpace Binary64) (now : Instant) (name : String)
    (window : Duration) (held : Window) : Prop :=
  let run := Script.countRun space (now.serverMillis clock) name window
  MirrorsWindow clock (some held) run.space (now.serverMillis clock) name ∧
    ∃ left : Int, left.natAbs ≤ twoTo 53 ∧
      run.outcome = .ok (countReply Binary64 held.count left) ∧
      Reply.timeLeft left window = (now.timeUntil held.expiresAt).shorter window

/-- Where nothing is left of the window before, an increment begins one. -/
theorem follows_of_over {now : Instant} {millis : Nat} (hnow : now.Whole)
    (hmirrors : MirrorsWindow clock held? space (now.serverMillis clock) name)
    (hmillis : 0 < millis) (hshort : millis ≤ twoTo 53)
    (hfits : ExpiryFits (now.serverMillis clock) millis)
    (hover : ∀ held ∈ held?, held.expiresAt < now) :
    Follows clock space now name (.ofMillis millis) ⟨1, now.after (.ofMillis millis)⟩ := by
  obtain ⟨hserver, hwhole⟩ := Instant.serverMillis_after hnow clock millis
  obtain ⟨hapart, hcases⟩ := Script.countRun_of_absent hmirrors.apart
    (hmirrors.state_of_over hnow hover) (.ofMillis millis)
  rw [windowMillis_ofMillis hmillis hshort] at hcases
  obtain ⟨hunfit, -⟩ | ⟨-, hzero, -⟩ | ⟨-, -, hreply, hstate⟩ := hcases
  · exact absurd hfits hunfit
  · exact absurd hzero hmillis.ne'
  · refine ⟨⟨hapart, ?_, ?_, ?_⟩, millis, by simpa using hshort, hreply, ?_⟩
    · rw [hstate, Option.map_some, Option.filter_some_pos]
      · rw [Window.copy, hserver]
      · exact decide_eq_true (Instant.serverMillis_le clock (Nat.le_add_right _ _))
    · rintro _ ⟨⟩
      exact hwhole
    · rintro _ ⟨⟩
      exact le_rfl
    · rw [Instant.timeUntil_after, Reply.timeLeft, if_pos (Int.natCast_nonneg millis),
        Int.toNat_natCast]

/-- While a window lasts, an increment counts one more. -/
theorem follows_of_lasting {now : Instant} {millis : Nat} {lasting : Window} (hnow : now.Whole)
    (hmirrors : MirrorsWindow clock (some lasting) space (now.serverMillis clock) name)
    (hshort : millis ≤ twoTo 53) (hcount : lasting.count < twoTo 53)
    (hreached : now ≤ lasting.expiresAt)
    (hsoon : lasting.expiresAt ≤ now.after (.ofMillis millis)) :
    Follows clock space now name (.ofMillis millis) ⟨lasting.count + 1, lasting.expiresAt⟩ := by
  have hlarge : twoTo 53 < twoTo 63 := by decide
  obtain ⟨hserver, -⟩ := Instant.serverMillis_after hnow clock millis
  obtain ⟨hapart, hreply, hstate⟩ := Script.countRun_of_present hmirrors.apart
    (hmirrors.state_of_lasting hreached) (hmirrors.positive lasting rfl) (by omega)
    (.ofMillis millis)
  have hleft : (0 : Int) ≤ lasting.expiresAt.serverMillis clock - now.serverMillis clock :=
    sub_nonneg.mpr (Instant.serverMillis_le clock hreached)
  refine ⟨⟨hapart, ?_, ?_, ?_⟩,
    lasting.expiresAt.serverMillis clock - now.serverMillis clock, ?_, hreply, ?_⟩
  · rw [hstate, Option.map_some, Option.filter_some_pos]
    · rfl
    · exact decide_eq_true (Instant.serverMillis_le clock hreached)
  · rintro _ ⟨⟩
    exact hmirrors.whole lasting rfl
  · rintro _ ⟨⟩
    exact Nat.succ_le_succ (Nat.zero_le _)
  · have hend := Instant.serverMillis_le clock hsoon
    omega
  · rw [Reply.timeLeft, if_pos hleft,
      ← Instant.timeUntil_of_whole clock hnow (hmirrors.whole lasting rfl)]

/-- **Away from the ends of windows an increment counts alike in both places**: it begins a
window in both, or is one more in both, and the two have the same time left. -/
theorem next {now : Instant} {millis : Nat} (hnow : now.Whole)
    (hmirrors : MirrorsWindow clock held? space (now.serverMillis clock) name)
    (hmillis : 0 < millis) (hshort : millis ≤ twoTo 53) (hclock : Decimal.FitsSigned clock)
    (hfits : ExpiryFits (now.serverMillis clock) millis)
    (hcount : ∀ held ∈ held?, held.count < twoTo 53)
    (hsoon : ∀ held ∈ held?, held.expiresAt ≤ now.after (.ofMillis millis))
    (hoff : ∀ held ∈ held?, held.expiresAt ≠ now) :
    Follows clock space now name (.ofMillis millis)
      ((held?.getD (.fresh now)).afterCall now (.ofMillis millis)) := by
  by_cases hover : ∀ ended ∈ held?, ended.expiresAt < now
  · have hbegun : (held?.getD (.fresh now)).afterCall now (.ofMillis millis) =
        ⟨1, now.after (.ofMillis millis)⟩ := by
      rw [← Window.endOf_of_fits hclock hfits]
      cases held? with
      | none => rfl
      | some ended => exact if_pos (Or.inr (Nat.le_of_lt (hover ended rfl)))
    rw [hbegun]
    exact follows_of_over hnow hmirrors hmillis hshort hfits hover
  · push Not at hover
    obtain ⟨lasting, rfl, hnotOver⟩ := hover
    have hreached : now ≤ lasting.expiresAt := Nat.not_lt.mp hnotOver
    have hahead : now < lasting.expiresAt :=
      Nat.lt_of_le_of_ne hreached fun heq => hoff lasting rfl (congrArg Instant.mk heq.symm)
    have hnext : lasting.afterCall now (.ofMillis millis) =
        ⟨lasting.count + 1, lasting.expiresAt⟩ :=
      if_neg (not_or.mpr
        ⟨Nat.pos_iff_ne_zero.mp (hmirrors.positive lasting rfl), Nat.not_le.mpr hahead⟩)
    rw [Option.getD_some, hnext]
    exact follows_of_lasting hnow hmirrors hshort (hcount lasting rfl) hreached (hsoon lasting rfl)

/-- **At the very end of a window the server counts one more**, with no time left, where a window
begins in memory. -/
theorem at_end {now : Instant} {held : Window} (millis : Nat)
    (hmirrors : MirrorsWindow clock (some held) space (now.serverMillis clock) name)
    (hcount : held.count < twoTo 53) (hend : held.expiresAt = now) :
    (Script.countRun space (now.serverMillis clock) name (.ofMillis millis)).outcome =
      .ok (countReply Binary64 (held.count + 1) 0) := by
  have hlarge : twoTo 53 < twoTo 63 := by decide
  have hpresent := hmirrors.state_of_lasting (Nat.le_of_eq (congrArg Instant.nanos hend.symm))
  obtain ⟨-, hreply, -⟩ := Script.countRun_of_present hmirrors.apart hpresent
    (hmirrors.positive held rfl) (by omega) (.ofMillis millis)
  rw [hreply, hend, sub_self]

end MirrorsWindow

/-! ## Calls at the end of a window -/

namespace Memory

/-- No call comes in the very instant in which the window ends that is current when it is made.
The calls are made after some others. -/
def AwayFromEnds (before calls : List Call) : Prop :=
  ∀ earlier call later, calls = earlier ++ call :: later →
    ∀ position anchor, CurrentAnchor (before ++ earlier) position anchor →
      call.time ≠ anchor.windowEnd

theorem awayFromEnds_nil (before : List Call) : AwayFromEnds before [] := by
  intro earlier call later hsplit
  cases List.append_eq_nil_iff.mp hsplit.symm |>.2

theorem awayFromEnds_cons (before : List Call) (call : Call) (rest : List Call) :
    AwayFromEnds before (call :: rest) ↔
      (∀ position anchor, CurrentAnchor before position anchor → call.time ≠ anchor.windowEnd) ∧
        AwayFromEnds (before ++ [call]) rest := by
  constructor
  · intro haway
    refine ⟨fun position anchor hcurrent => ?_, ?_⟩
    · exact haway [] call rest rfl position anchor (by rwa [List.append_nil])
    · intro earlier other later hsplit position anchor hcurrent
      refine haway (call :: earlier) other later (by rw [hsplit, List.cons_append]) position
        anchor ?_
      rwa [List.append_assoc, List.singleton_append] at hcurrent
  · rintro ⟨hfirst, hrest⟩ earlier other later hsplit position anchor hcurrent
    cases earlier with
    | nil =>
        obtain ⟨rfl, -⟩ := List.cons.inj hsplit
        exact hfirst position anchor (by rwa [List.append_nil] at hcurrent)
    | cons first more =>
        obtain ⟨rfl, hmore⟩ := List.cons.inj hsplit
        refine hrest more other later hmore position anchor ?_
        rwa [List.append_assoc, List.singleton_append]

theorem increment_memory (memory : Memory Binary64) {moment : Moment}
    (hdone : moment.isDone = false) (key : String) (window : Duration) :
    Store.increment memory moment key window =
      let held := ((memory.windows.get? key).getD (.fresh moment.now)).afterCall moment.now window
      (⟨.ok (held.report moment.now), moment.now⟩,
        { memory with windows := memory.windows.insert key held }) := by
  change (if moment.isDone then _ else _) = _
  rw [hdone]
  rfl

end Memory

/-! ## Two stores side by side -/

namespace Remote

/-- What the caller of an increment is told, and what the server holds then. -/
theorem Serves.increment {remote : Remote Binary64} {clock : Int} {space : KeySpace Binary64}
    {moment : Moment} (hserves : remote.Serves clock space moment.now)
    (hdone : moment.isDone = false) (key : String) (window : Duration) {count : Nat} {left : Int}
    (hreply : (Script.countRun space (moment.now.serverMillis clock) (remote.serverKey key)
      window).outcome = .ok (countReply Binary64 count left))
    (hpositive : 1 ≤ count) (hcount : count ≤ twoTo 53) (hleft : left.natAbs ≤ twoTo 53) :
    let run := Script.countRun space (moment.now.serverMillis clock) (remote.serverKey key) window
    let made := Store.increment remote moment key window
    made.1 = ⟨.ok ⟨count, Reply.timeLeft left window⟩, moment.now⟩ ∧
      made.2.Serves clock run.space moment.now ∧ made.2.keyPrefix = remote.keyPrefix := by
  intro run made
  let call : Call Binary64 := ⟨moment, .increment key window⟩
  obtain ⟨houtcome, hafter, hkeys⟩ := hserves.perform call (Nat.le_refl _)
  have hserved := @serve_increment _ _ remote clock space call key window rfl hdone
  change Outcome.counted made.1 = _ at houtcome
  change made.2.Serves clock _ moment.now at hafter
  change made.2.keyPrefix = _ at hkeys
  rw [hserved] at houtcome hafter
  have hanswer : run.answer moment.now = ⟨.ok (countReply Binary64 count left), moment.now⟩ := by
    rw [ScriptRun.answer, hreply]
  refine ⟨?_, hafter, hkeys⟩
  rw [Outcome.counted.inj houtcome]
  change readAnswer (run.answer moment.now) (Reply.readCount window) = _
  rw [hanswer, readAnswer_of_read (Reply.readCount_of_le hpositive hcount hleft window)]

/-- A memory and a store on a server that hold the same window for a key, and the calls that made
it. -/
structure BacksWindow (remote : Remote Binary64) (clock : Int) (millis : Nat) (key : String)
    (memory : Memory Binary64) (now : Instant) (calls : List Memory.Call) : Prop where
  serves : remote.Serves clock remote.keySpace now
  mirrors : MirrorsWindow clock (memory.windows.get? key) remote.keySpace (now.serverMillis clock)
    (remote.serverKey key)
  tracks : Memory.Tracks now calls (memory.windows.get? key)
  unswept : memory.windows.get? key = none → calls = []
  soon : ∀ held ∈ memory.windows.get? key, held.expiresAt ≤ now.after (.ofMillis millis)

theorem backsWindow_onFreshServer (keyPrefix : String) {commandTimeout : Option Duration}
    (htimeout : commandTimeout ≠ some .zero) (clock : Int) (millis : Nat) (key : String) :
    (onFreshServer keyPrefix commandTimeout clock).BacksWindow clock millis key .empty .start []
    where
  serves := serves_onFreshServer keyPrefix htimeout clock
  mirrors := ⟨apart_empty _ _, rfl, fun _ hmem => (by cases hmem), fun _ hmem => (by cases hmem)⟩
  tracks := .unused rfl
  unswept := fun _ => rfl
  soon := fun _ hmem => by cases hmem

namespace BacksWindow

variable {remote : Remote Binary64} {clock : Int} {millis : Nat} {key : String}
  {memory : Memory Binary64} {now later : Instant} {calls : List Memory.Call}

theorem mono (hbacks : remote.BacksWindow clock millis key memory now calls)
    (hlater : now ≤ later) : remote.BacksWindow clock millis key memory later calls where
  serves := hbacks.serves.mono hlater
  mirrors := hbacks.mirrors.mono (Instant.serverMillis_le clock hlater)
  tracks := hbacks.tracks.later hlater
  unswept := hbacks.unswept
  soon := fun held hheld =>
    Nat.le_trans (hbacks.soon held hheld) (Nat.add_le_add_right hlater _)

theorem count_le (hbacks : remote.BacksWindow clock millis key memory now calls) :
    ∀ held ∈ memory.windows.get? key, held.count ≤ calls.length := by
  intro held hheld
  have htracks := hbacks.tracks
  rw [hheld] at htracks
  cases htracks with
  | held => exact Nat.sub_le _ _

/-- The window that a memory holds is the current one. -/
theorem away_iff (hbacks : remote.BacksWindow clock millis key memory now calls) :
    (∀ held ∈ memory.windows.get? key, held.expiresAt ≠ now) ↔
      ∀ position anchor, Memory.CurrentAnchor calls position anchor → now ≠ anchor.windowEnd := by
  have htracks := hbacks.tracks
  have hunswept := hbacks.unswept
  constructor
  · intro haway position anchor hcurrent
    have hcalls : calls ≠ [] := List.ne_nil_of_length_pos
      (Nat.lt_of_le_of_lt (Nat.zero_le _) hcurrent.anchors.lt_length)
    cases hheld : memory.windows.get? key with
    | none => exact absurd (hunswept hheld) hcalls
    | some held =>
        rw [hheld] at htracks
        cases htracks with
        | held hother =>
            obtain ⟨-, rfl⟩ := hcurrent.unique hother
            exact (haway _ hheld).symm
  · intro haway held hheld
    rw [hheld] at htracks
    cases htracks with
    | held hcurrent => exact (haway _ _ hcurrent).symm

/-- Both stores after a call that both count alike. -/
theorem after_increment (hbacks : remote.BacksWindow clock millis key memory now calls)
    {left : Remote Binary64} {space : KeySpace Binary64} (hserves : left.Serves clock space now)
    (hkeys : left.keyPrefix = remote.keyPrefix) {held : Window}
    (hheld : held =
      ((memory.windows.get? key).getD (.fresh now)).afterCall now (.ofMillis millis))
    (hmirrors : MirrorsWindow clock (some held) space (now.serverMillis clock)
      (remote.serverKey key))
    (hsoon : held.expiresAt ≤ now.after (.ofMillis millis)) :
    left.BacksWindow clock millis key { memory with windows := memory.windows.insert key held } now
      (calls ++ [⟨now, .ofMillis millis⟩]) := by
  have hname : left.serverKey key = remote.serverKey key := congrArg (· ++ key) hkeys
  have hget : (memory.windows.insert key held).get? key = some held := Table.get?_insert_self _ _ _
  obtain ⟨position, anchor, hcurrent, hafter⟩ := hbacks.tracks.afterCall (.ofMillis millis)
  refine ⟨?_, ?_, ?_, ?_, ?_⟩
  · rwa [hserves.keySpace_eq]
  · rw [hserves.keySpace_eq, hname]
    dsimp only
    rwa [hget]
  · dsimp only
    rw [hget, hheld, hafter]
    have htracks : Memory.Tracks now _ _ := .held hcurrent
    rwa [List.length_append, List.length_singleton] at htracks
  · dsimp only
    rw [hget]
    exact fun hnone => by cases hnone
  · dsimp only
    rw [hget]
    rintro _ ⟨⟩
    exact hsoon

/-- What two stores are to satisfy for a call of a limiter. -/
structure Countable (clock : Int) (millis : Nat) (now : Instant) : Prop where
  whole : now.Whole
  positive : 0 < millis
  short : millis ≤ twoTo 53
  clock_fits : Decimal.FitsSigned clock
  fits : ExpiryFits (now.serverMillis clock) millis

variable {limiter : FixedWindow} {moment : Moment}

/-- **A call away from the end of the window is answered alike**, and the stores hold the same
afterwards. -/
theorem allow_away (hbacks : remote.BacksWindow clock millis key memory now calls)
    (hnow : moment.now = now) (hdone : moment.isDone = false)
    (hcountable : Countable clock millis now) (hwindow : limiter.window = .ofMillis millis)
    (hcalls : calls.length < twoTo 53)
    (haway : ∀ held ∈ memory.windows.get? key, held.expiresAt ≠ now) :
    let overRemote := (Limiter.fixedWindow limiter).allow remote moment key
    let overMemory := (Limiter.fixedWindow limiter).allow memory moment key
    overRemote.1 = overMemory.1 ∧
      overRemote.2.BacksWindow clock millis key overMemory.2 now
        (calls ++ [⟨now, .ofMillis millis⟩]) := by
  intro overRemote overMemory
  subst hnow
  obtain ⟨hmirrors, left, hleft, hreply, htime⟩ := hbacks.mirrors.next hcountable.whole
    hcountable.positive hcountable.short hcountable.clock_fits hcountable.fits
    (fun held hheld => Nat.lt_of_le_of_lt (hbacks.count_le held hheld) hcalls) hbacks.soon haway
  have hmemory := Memory.increment_memory memory hdone key (.ofMillis millis)
  set held := ((memory.windows.get? key).getD (.fresh moment.now)).afterCall moment.now
    (.ofMillis millis) with hheld
  have hpositive := hmirrors.positive held rfl
  have hcount : held.count ≤ twoTo 53 := by
    obtain ⟨position, anchor, -, hafter⟩ := hbacks.tracks.afterCall (.ofMillis millis)
    rw [hheld, hafter]
    exact Nat.le_trans (Nat.sub_le _ _) hcalls
  obtain ⟨hanswer, hserves, hkeys⟩ := hbacks.serves.increment hdone key (.ofMillis millis) hreply
    hpositive hcount hleft
  have hremote : overRemote.1 = ⟨.ok (limiter.judge
      ⟨held.count, Reply.timeLeft left (.ofMillis millis)⟩), moment.now⟩ := by
    change (Store.increment remote moment key limiter.window).1.judge _ _ = _
    rw [hwindow, hanswer]
    rfl
  have hmemoryAnswer : overMemory.1 =
      ⟨.ok (limiter.judge (held.report moment.now)), moment.now⟩ := by
    change (Store.increment memory moment key limiter.window).1.judge _ _ = _
    rw [hwindow, hmemory]
    rfl
  constructor
  · rw [hremote, hmemoryAnswer]
    unfold FixedWindow.judge Window.report
    simp only [htime, hwindow, Duration.shorter_shorter]
  · have hleftStore : overRemote.2 = (Store.increment remote moment key (.ofMillis millis)).2 := by
      rw [← hwindow]
      rfl
    have hmemoryStore : overMemory.2 =
        { memory with windows := memory.windows.insert key held } := by
      change (Store.increment memory moment key limiter.window).2 = _
      rw [hwindow, hmemory]
    have hsoon : held.expiresAt ≤ moment.now.after (.ofMillis millis) := by
      rw [hheld, Window.afterCall]
      split_ifs
      · rw [Window.endOf_of_fits hcountable.clock_fits hcountable.fits]
        exact Nat.le_refl _
      · cases hget : memory.windows.get? key with
        | none => exact Nat.le_add_right _ _
        | some lasting => exact hbacks.soon lasting hget
    rw [hleftStore, hmemoryStore]
    exact hbacks.after_increment hserves hkeys hheld hmirrors hsoon

/-- **A call at the end of the window is answered differently**: the server still counts it in the
window, with no time left. -/
theorem allow_at_end (hbacks : remote.BacksWindow clock millis key memory now calls)
    (hnow : moment.now = now) (hdone : moment.isDone = false)
    (hcountable : Countable clock millis now) (hwindow : limiter.window = .ofMillis millis)
    (hcalls : calls.length < twoTo 53) {held : Window}
    (hheld : memory.windows.get? key = some held) (hend : held.expiresAt = now) :
    ((Limiter.fixedWindow limiter).allow remote moment key).1 ≠
      ((Limiter.fixedWindow limiter).allow memory moment key).1 := by
  subst hnow
  have hcount : held.count < twoTo 53 :=
    Nat.lt_of_le_of_lt (hbacks.count_le held hheld) hcalls
  have hmirrors := hbacks.mirrors
  rw [hheld] at hmirrors
  have hreply := hmirrors.at_end millis hcount hend
  obtain ⟨hanswer, -, -⟩ := hbacks.serves.increment hdone key (.ofMillis millis) hreply
    (Nat.succ_le_succ (Nat.zero_le _)) hcount (Nat.zero_le _)
  have hmemory := Memory.increment_memory memory hdone key (.ofMillis millis)
  have hbegun : held.afterCall moment.now (.ofMillis millis) =
      ⟨1, moment.now.after (.ofMillis millis)⟩ := by
    rw [← Window.endOf_of_fits hcountable.clock_fits hcountable.fits]
    exact if_pos (Or.inr (Nat.le_of_eq (congrArg Instant.nanos hend)))
  rw [hheld, Option.getD_some, hbegun] at hmemory
  change (Store.increment remote moment key limiter.window).1.judge _ _ ≠
    (Store.increment memory moment key limiter.window).1.judge _ _
  rw [hwindow, hanswer, hmemory]
  intro hsame
  -- the memory tells the caller of a whole window, the server of no time at all
  have hreset := congrArg (fun answer : Answer (Failure Binary64) Verdict =>
    answer.outcome.toOption.map Verdict.resetAfter) hsame
  simp only [Answer.judge, Except.toOption, Option.map_some, FixedWindow.judge, Window.report,
    Instant.timeUntil_after, hwindow, Option.some.injEq, Duration.shorter, Reply.timeLeft,
    Duration.ofMillis, Duration.mk.injEq] at hreset
  have hpositive := hcountable.positive
  have hnanos : 0 < millis * nanosPerMilli := Nat.mul_pos hpositive (by decide)
  simp only [le_refl, if_true, Int.toNat_zero, Nat.zero_mul] at hreset
  omega

/-- A call whose context is done changes nothing. -/
theorem allow_done (remote : Remote Binary64) (memory : Memory Binary64) (limiter : FixedWindow)
    (key : String) (hdone : moment.isDone = true) :
    (Limiter.fixedWindow limiter).allow remote moment key =
        (⟨.error (.store .canceled), moment.now⟩, remote) ∧
      (Limiter.fixedWindow limiter).allow memory moment key =
        (⟨.error (.store .canceled), moment.now⟩, memory) := by
  have hremote : Store.increment remote moment key limiter.window =
      (⟨.error .canceled, moment.now⟩, remote) := by
    change (readAnswer (remote.roundTrip moment _).1 _, (remote.roundTrip moment _).2) = _
    unfold roundTrip
    rw [if_pos hdone]
    rfl
  have hmemory : Store.increment memory moment key limiter.window =
      (⟨.error .canceled, moment.now⟩, memory) := if_pos hdone
  unfold Limiter.allow
  simp only [hremote, hmemory]
  exact ⟨rfl, rfl⟩

/-- Runs over two stores that hold the same are answered alike exactly away from the ends of
windows. -/
theorem answers_eq_iff (hbacks : remote.BacksWindow clock millis key memory now calls)
    (hwindow : limiter.window = .ofMillis millis) {moments : List Moment}
    (hordered : moments.Pairwise fun earlier later => earlier.now ≤ later.now)
    (hnow : ∀ moment ∈ moments, now ≤ moment.now)
    (hcountable : ∀ moment ∈ moments, Countable clock millis moment.now)
    (hcalls : calls.length + moments.length ≤ twoTo 53) :
    (Limiter.fixedWindow limiter).answers remote (moments.map fun moment => (moment, key)) =
        (Limiter.fixedWindow limiter).answers memory (moments.map fun moment => (moment, key)) ↔
      Memory.AwayFromEnds calls ((moments.filter fun moment => !moment.isDone).map fun moment =>
        ⟨moment.now, .ofMillis millis⟩) := by
  -- On the moments, with the calls made so far as the part of the run that both stores agree on.
  induction moments generalizing remote memory now calls with
  | nil => exact iff_of_true rfl (Memory.awayFromEnds_nil calls)
  | cons moment rest ih =>
      obtain ⟨hlater, hrest⟩ := List.pairwise_cons.mp hordered
      have hthis := hcountable moment (List.mem_cons_self ..)
      have hothers : ∀ other ∈ rest, Countable clock millis other.now :=
        fun other hother => hcountable other (List.mem_cons_of_mem _ hother)
      have hthen := hbacks.mono (hnow moment (List.mem_cons_self ..))
      rw [List.length_cons] at hcalls
      rw [List.map_cons]
      unfold Limiter.answers
      rw [List.cons_eq_cons]
      cases hdone : moment.isDone with
      | true =>
          obtain ⟨hremote, hmemory⟩ := allow_done remote memory limiter key hdone
          rw [hremote, hmemory, List.filter_cons_of_neg (by simp [hdone])]
          simp only [true_and]
          exact ih hthen hrest hlater hothers (by omega)
      | false =>
          rw [List.filter_cons_of_pos (by simp [hdone]), List.map_cons, Memory.awayFromEnds_cons]
          by_cases haway : ∀ held ∈ memory.windows.get? key, held.expiresAt ≠ moment.now
          · obtain ⟨hanswer, hafter⟩ := hthen.allow_away rfl hdone hthis hwindow
              (by omega) haway
            refine and_congr (iff_of_true hanswer (hthen.away_iff.mp haway)) ?_
            exact ih hafter hrest hlater hothers (by
              rw [List.length_append, List.length_singleton]
              omega)
          · refine iff_of_false (fun hsame => ?_) fun hends => haway (hthen.away_iff.mpr hends.1)
            push Not at haway
            obtain ⟨held, hheld, hend⟩ := haway
            exact hthen.allow_at_end rfl hdone hthis hwindow (by omega) hheld hend hsame.1

end BacksWindow

/-- **A fixed window answers alike over both stores exactly away from the ends of windows**: for
every key, calls at whole milliseconds are answered over a fresh server as over an empty memory,
if and only if none comes in the very instant in which the current window ends. -/
theorem fixedWindow_answers_alike_iff (limiter : FixedWindow) {millis : Nat}
    (hwindow : limiter.window = .ofMillis millis) (hlong : limiter.window ≤ longestWindow)
    (keyPrefix : String) {commandTimeout : Option Duration} (htimeout : commandTimeout ≠ some .zero)
    {clock : Int} (hclock : Decimal.FitsSigned clock) (key : String) {moments : List Moment}
    (hordered : moments.Pairwise fun earlier later => earlier.now ≤ later.now)
    (hwhole : ∀ moment ∈ moments, moment.now.Whole)
    (hfits : ∀ moment ∈ moments, ExpiryFits (moment.now.serverMillis clock) millis)
    (hcount : moments.length ≤ twoTo 53) :
    let calls := moments.map fun moment => (moment, key)
    (Limiter.fixedWindow limiter).answers
          (onFreshServer keyPrefix commandTimeout clock : Remote Binary64) calls =
        (Limiter.fixedWindow limiter).answers (Memory.empty : Memory Binary64) calls ↔
      Memory.AwayFromEnds [] ((moments.filter fun moment => !moment.isDone).map fun moment =>
        ⟨moment.now, limiter.window⟩) := by
  intro calls
  have hpositive : 0 < millis := by
    rcases Nat.eq_zero_or_pos millis with rfl | hpositive
    · exact absurd (congrArg Duration.nanos hwindow) limiter.lasting
    · exact hpositive
  have hshort : millis ≤ twoTo 53 := by
    have hyear : longestWindow.nanos ≤ twoTo 53 * nanosPerMilli := by decide
    rw [hwindow] at hlong
    exact Nat.le_of_mul_le_mul_right (Nat.le_trans hlong hyear) (by decide)
  rw [hwindow]
  exact (backsWindow_onFreshServer keyPrefix htimeout clock millis key).answers_eq_iff hwindow
    hordered (fun _ _ => Nat.zero_le _)
    (fun moment hmoment => ⟨hwhole moment hmoment, hpositive, hshort, hclock,
      hfits moment hmoment⟩) (by simpa using hcount)

/-- One call in a second. -/
def oncePerSecond : FixedWindow := ⟨1, .ofMillis 1000, by decide⟩

/-- Calls at some milliseconds. -/
def momentsAt (millis : List Nat) : List Moment :=
  millis.map fun count => ⟨⟨count * nanosPerMilli⟩, ⟨0⟩, none⟩

/-- The calls of a run that comes back a millisecond after the end of its window. -/
theorem awayFromEnds_lateRun :
    Memory.AwayFromEnds [] ((momentsAt [0, 500, 1001]).map fun moment =>
      ⟨moment.now, oncePerSecond.window⟩) := by
  have hfirst := Memory.CurrentAnchor.singleton ⟨⟨0⟩, .ofMillis 1000⟩
  have hsecond := @Memory.CurrentAnchor.append_of_lt _ _ _ hfirst
    ⟨⟨500 * nanosPerMilli⟩, .ofMillis 1000⟩ (by decide)
  unfold momentsAt
  simp only [List.map_cons, List.map_nil, Memory.awayFromEnds_cons]
  refine ⟨fun position anchor hcurrent => ?_, fun position anchor hcurrent => ?_,
    fun position anchor hcurrent => ?_, Memory.awayFromEnds_nil _⟩
  · exact absurd hcurrent.anchors.lt_length (Nat.not_lt_zero _)
  · obtain ⟨-, rfl⟩ := hcurrent.unique hfirst
    decide
  · obtain ⟨-, rfl⟩ := hcurrent.unique hsecond
    decide

/-- A call a millisecond after the end of the window finds it over in both stores. -/
theorem fixedWindow_answers_alike_iff_lateRun :
    let calls := (momentsAt [0, 500, 1001]).map fun moment => (moment, "k")
    let answers :=
      (Limiter.fixedWindow oncePerSecond).answers (Memory.empty : Memory Binary64) calls
    answers.map (fun answer => answer.outcome.toOption.map Verdict.allowed) =
        [some true, some false, some true] ∧
      (Limiter.fixedWindow oncePerSecond).answers
        (onFreshServer "" none 1700000000000 : Remote Binary64) calls = answers := by
  intro calls answers
  exact ⟨by decide +kernel, (fixedWindow_answers_alike_iff oncePerSecond rfl (by decide) ""
    (by decide) (by decide) "k" (by decide) (by decide) (by decide) (by decide)).mpr
      awayFromEnds_lateRun⟩

/-- A call in the very millisecond in which the window ends is allowed in memory, and denied over
the server. -/
theorem fixedWindow_differs_at_window_end :
    let calls := (momentsAt [0, 1000]).map fun moment => (moment, "k")
    let allowed (answers : List (Answer (Failure Binary64) Verdict)) :=
      answers.map fun answer => answer.outcome.toOption.map Verdict.allowed
    allowed ((Limiter.fixedWindow oncePerSecond).answers (Memory.empty : Memory Binary64) calls) =
        [some true, some true] ∧
      allowed ((Limiter.fixedWindow oncePerSecond).answers
        (onFreshServer "" none 1700000000000 : Remote Binary64) calls) =
        [some true, some false] := by
  decide +kernel

end Remote

end Throttle
