import Throttle.Proofs.Numeric.Draws
import Throttle.Proofs.Remote.Counter
import Throttle.Proofs.Remote.Independence

/-!
# Every call is answered

A script fails if it meets an entry of another type, or a text that it cannot read; and a caller
refuses a reply that is not of the shape it knows.  Neither happens on a server that only the two
scripts have written, as long as no caller's key is another one's side name.  What they write is a
counter or a bucket that expires (`Entry.Kept`), and a side name only ever holds what the script
that it is made for writes (`Remote.Tidy`).  `Tidy.serve` is the step that keeps it so and answers
the call.
-/

namespace Throttle

open KeySpace

/-! ## What the scripts write -/

/-- A counter of some calls at most, or a bucket with a token count, which expires. -/
inductive Entry.Kept (most : Nat) : Entry Binary64 → Prop
  | counter {count : Nat} {expiry : Int} (hpositive : 1 ≤ count) (hmost : count ≤ most) :
      Kept most (counterEntry count expiry)
  | bucket {fields : Table String (Field Binary64)} {held : Script.Held Binary64} {expiry : Int}
      (hheld : Script.held? fields = some held) (htokens : held.tokens.IsCount) :
      Kept most ⟨.hash fields, some expiry⟩

theorem Entry.Kept.mono {most more : Nat} (hle : most ≤ more) {entry : Entry Binary64}
    (hkept : entry.Kept most) : entry.Kept more := by
  cases hkept with
  | counter hpositive hmost => exact .counter hpositive (hmost.trans hle)
  | bucket hheld htokens => exact .bucket hheld htokens

theorem Entry.Kept.isSome {most : Nat} {entry : Entry Binary64} (hkept : entry.Kept most) :
    entry.expiresAt.isSome := by
  cases hkept <;> rfl

namespace KeySpace

/-- A key space that holds nothing else. -/
def Kept (space : KeySpace Binary64) (most : Nat) : Prop :=
  ∀ name entry, space.table.get? name = some entry → entry.Kept most

variable {space : KeySpace Binary64} {now : Int} {name key side : String} {most : Nat}

theorem Kept.of_entryAt (hkept : space.Kept most) {entry : Entry Binary64}
    (hentry : space.entryAt now name = some entry) : entry.Kept most := by
  rw [entryAt_eq_filter] at hentry
  exact hkept name entry (Option.filter_eq_some_iff.mp hentry).1

/-- What a script keeps, if what it leaves under its target is fine. -/
theorem Kept.of_target {script : Script} {arguments : List String} {more : Nat}
    (hkept : space.Kept most) (hle : most ≤ more)
    (htarget : ∀ entry, (script.run space now [key, side] arguments).space.table.get?
      (script.targetAt space now key side) = some entry → entry.Kept more) :
    (script.run space now [key, side] arguments).space.Kept more := by
  intro name entry hget
  by_cases hname : name = script.targetAt space now key side
  · exact htarget entry (hname ▸ hget)
  · rw [script.get?_run_of_ne arguments space hname] at hget
    exact (hkept.of_entryAt hget).mono hle

theorem expireSeconds_of_mem {seconds? : Option Int} {seconds : Int}
    (hseconds : seconds ∈ seconds?) :
    space.expireSeconds now name seconds? =
      space.expireAfter now name (seconds * 1000) "expire" := by
  obtain rfl := Option.mem_def.mp hseconds
  rfl

/-- What is there is given an expiry in range, and is removed if that does not outlive now. -/
theorem expireAfter_of_fits {content : Content Binary64} {expiry? : Option Int}
    (hget : space.table.get? name = some ⟨content, expiry?⟩) {millis : Int}
    (hfits : ExpiryFits now millis) (command : String) :
    ∃ left, space.expireAfter now name millis command = .ok (true, left) ∧
      ∀ entry, left.table.get? name = some entry → entry = ⟨content, some (now + millis)⟩ := by
  rcases le_or_gt millis 0 with hover | hlong
  · have hpasses : ¬ (¬ Decimal.FitsSigned millis ∨ ¬ Decimal.FitsSigned (now + millis)) :=
      fun hunfit => hunfit.elim (· hfits.1) (· hfits.2)
    refine ⟨⟨space.table.erase name⟩, ?_, fun entry hentry => ?_⟩
    · unfold expireAfter
      rw [if_neg hpasses, hget]
      exact if_pos hover
    · cases (Table.get?_erase_self space.table name).symm.trans hentry
  · refine ⟨⟨space.table.insert name ⟨content, some (now + millis)⟩⟩, ?_, fun entry hentry => ?_⟩
    · rw [expireAfter_of_present hget hlong, if_pos hfits]
    · exact (Option.some.inj ((Table.get?_insert_self ..).symm.trans hentry)).symm

end KeySpace

/-! ## The two scripts -/

namespace Script

variable {space : KeySpace Binary64} {now : Int} {key side : String} {most : Nat}

/-- A script works where there is nothing, or something of its own type. -/
theorem holdsOnly_targetAt {script : Script} (hside : (space.live now).HoldsOnly script.own side) :
    (space.live now).HoldsOnly script.own (script.targetAt space now key side) := by
  unfold targetAt target
  split_ifs with hbeside
  · exact hside
  · push Not at hbeside
    by_cases hmissing : (space.live now).typeOf key = .missing
    · exact Or.inl hmissing
    · exact Or.inr (hbeside.2 hmissing)

/-- **A call is counted**, and the server answers with the count. -/
theorem count_of_kept (hkept : space.Kept most)
    (hside : (space.live now).HoldsOnly .text side) (hmost : most + 1 < twoTo 63) {millis : Nat}
    (hfits : ExpiryFits now millis) :
    let run := countCall.run space now [key, side] [Decimal.wholeText millis]
    run.space.Kept (most + 1) ∧
      ∃ (count : Nat) (left : Int), 1 ≤ count ∧ count ≤ most + 1 ∧
        run.outcome = .ok (countReply Binary64 count left) := by
  intro run
  have hcount : run = count space now key side (Decimal.wholeText millis) := rfl
  have hholds : (space.live now).HoldsOnly .text (countCall.targetAt space now key side) :=
    holdsOnly_targetAt hside
  have hafter : (∀ entry, run.space.table.get? (countCall.targetAt space now key side) =
      some entry → entry.Kept (most + 1)) → run.space.Kept (most + 1) :=
    hkept.of_target (Nat.le_succ most)
  have hone : 1 ≤ most + 1 := Nat.succ_le_succ (Nat.zero_le most)
  set name := countCall.targetAt space now key side
  cases hheld : (space.live now).table.get? name with
  | none =>
      have hbegun := get?_write_self (space.live now) name (.text (Decimal.wholeText 1))
      obtain ⟨left, hexpire, hleft⟩ := expireAfter_of_fits hbegun hfits "pexpire"
      have hread : ((space.live now).write name (.text (Decimal.wholeText 1))).expireMillis now name
          (Decimal.wholeText millis) = .ok (true, left) := by
        unfold expireMillis
        rw [readCanonical?_wholeText hfits.1]
        exact hexpire
      have hrun := hcount.trans (count_of_begun (increment_of_absent hheld) hread)
      refine ⟨hafter fun entry hentry => ?_, 1, left.millisLeft now name, le_rfl, hone, ?_⟩
      · rw [hrun] at hentry
        rw [hleft entry hentry]
        exact .counter le_rfl hone
      · rw [hrun]
        rfl
  | some entry =>
      have hentry : entry.Kept most := hkept.of_entryAt hheld
      cases hentry with
      | bucket hbucket htokens =>
          rcases hholds with hmissing | htext
          · cases (typeOf_eq_missing_iff.mp hmissing).symm.trans hheld
          · cases (typeOf_of_get? hheld).symm.trans htext
      | @counter held expiry hpositive hcounted =>
          have hnumber : ((held + 1 : Nat) : Int) ≠ 1 := by omega
          have hrun := hcount.trans
            (count_of_counted (increment_of_present hheld (by omega)) hnumber)
          have hwritten : ((space.live now).write name
              (.text (Decimal.wholeText (held + 1 : Nat)))).table.get? name =
              some (counterEntry (held + 1) expiry) := by
            rw [get?_write_self, expiryOf?, hheld]
            rfl
          have hmore : held + 1 ≤ most + 1 := Nat.succ_le_succ hcounted
          refine ⟨hafter fun entry hget => ?_, held + 1, ((space.live now).write name
            (.text (Decimal.wholeText (held + 1 : Nat)))).millisLeft now name,
            Nat.succ_le_succ (Nat.zero_le _), hmore, ?_⟩
          · rw [hrun] at hget
            obtain rfl := Option.some.inj (hwritten.symm.trans hget)
            exact .counter (Nat.succ_le_succ (Nat.zero_le _)) hmore
          · rw [hrun]
            rfl

/-- The script computes with the numbers of its caller. -/
theorem run_takeToken {rate : Binary64} (hfinite : Quantity.isFinite rate = true) (burst : Nat)
    (wall : WallTime) :
    takeToken.run space now [key, side] [Quantity.text rate, Decimal.wholeText burst,
      Quantity.text (wall.inSeconds : Binary64)] =
      take space now key side rate (Quantity.ofInt burst) wall.inSeconds := by
  have hnumber : ∀ negative, rate ≠ .nan negative := by
    rintro negative rfl
    cases hfinite
  unfold Script.run
  simp only [Binary64.scriptRead?_text hnumber, Binary64.scriptRead?_wholeText,
    Binary64.scriptRead?_text wall.inSeconds_ne_nan]
  rfl

/-- **A take is answered** with a token count. -/
theorem take_of_kept (hkept : space.Kept most) (hside : (space.live now).HoldsOnly .hash side)
    {rate : Binary64} {burst : Nat} (hpositive : Quantity.ofInt 0 < rate)
    (hfinite : Quantity.isFinite rate = true) (hone : 1 ≤ burst) (hword : burst < twoTo 64)
    (hfits : SecondsFit now (argument? (lifetime rate (Quantity.ofInt burst)))) (wall : WallTime) :
    let run := takeToken.run space now [key, side] [Quantity.text rate, Decimal.wholeText burst,
      Quantity.text (wall.inSeconds : Binary64)]
    run.space.Kept most ∧
      ∃ taken : TokenTake Binary64, taken.remaining.IsCount ∧
        run.outcome = .ok (.array [.integer (if taken.allowed then 1 else 0),
          .ofText (Quantity.scriptText taken.remaining)]) := by
  intro run
  set reading : Binary64 := wall.inSeconds
  have htake : run = take space now key side rate (Quantity.ofInt burst) reading :=
    run_takeToken hfinite burst wall
  have hholds : (space.live now).HoldsOnly .hash (takeToken.targetAt space now key side) :=
    holdsOnly_targetAt hside
  have hafter : (∀ entry, run.space.table.get? (takeToken.targetAt space now key side) =
      some entry → entry.Kept most) → run.space.Kept most := hkept.of_target le_rfl
  set name := takeToken.targetAt space now key side
  obtain ⟨fields, hfields, hcounts⟩ : ∃ fields, (space.live now).fields name = .ok fields ∧
      ∀ held ∈ held? fields, held.tokens.IsCount := by
    unfold KeySpace.fields
    cases hheld : (space.live now).table.get? name with
    | none => exact ⟨.empty, rfl, nofun⟩
    | some entry =>
        have hentry : entry.Kept most := hkept.of_entryAt hheld
        cases hentry with
        | counter hpositive hmost =>
            rcases hholds with hmissing | hhash
            · cases (typeOf_eq_missing_iff.mp hmissing).symm.trans hheld
            · cases (typeOf_of_get? hheld).symm.trans hhash
        | @bucket fields _ _ hbucket htokens =>
            refine ⟨fields, rfl, fun held hheld => ?_⟩
            obtain rfl := Option.some.inj (hbucket.symm.trans hheld)
            exact htokens
  have hcapacity : (Quantity.ofInt burst : Binary64).IsCount := by
    rw [Binary64.quantity_ofInt]
    exact Binary64.isCount_ofInt hword.le
  have hroom : Quantity.ofInt 1 ≤ (Quantity.ofInt burst : Binary64) := by
    rw [Binary64.quantity_ofInt, Binary64.quantity_ofInt]
    exact Binary64.one_le_ofInt hone hword.le
  have htaken : (takeFrom (held? fields) rate (Quantity.ofInt burst) reading).remaining.IsCount :=
    isCount_takeFrom hcounts hpositive hfinite hcapacity hroom
  set taken := takeFrom (held? fields) rate (Quantity.ofInt burst) reading with htakenEq
  obtain ⟨seconds, hseconds, hexpires⟩ := hfits
  obtain ⟨left, hexpire, hleft⟩ := expireAfter_of_fits (get?_write_self (space.live now) name
    (.hash (takenFields fields taken.remaining reading))) hexpires "expire"
  have hset := (expireSeconds_of_mem hseconds).trans hexpire
  have hrun := htake.trans (take_of_answered hfields hset)
  refine ⟨hafter fun entry hentry => ?_, taken, htaken, by rw [hrun]⟩
  rw [hrun] at hentry
  rw [hleft entry hentry]
  exact .bucket (held?_of_fields (get?_takenFields_tokens ..) (get?_takenFields_lastUsed ..)) htaken

end Script

/-! ## What callers read -/

namespace Reply

theorem exists_readTake {taken : TokenTake Binary64} (hcount : taken.remaining.IsCount) :
    ∃ read : TokenTake Binary64, readTake (.array [.integer (if taken.allowed then 1 else 0),
        .ofText (Quantity.scriptText taken.remaining)]) = .ok read ∧
      Quantity.isFinite read.remaining = true ∧ Quantity.ofInt 0 ≤ read.remaining := by
  obtain ⟨magnitude, hmagnitude, hmost⟩ := hcount
  obtain ⟨read, hread, -, -⟩ := Binary64.read?_scriptText hmost
  have hnonneg : Binary64.ofInt 0 ≤ .finite false read := Binary64.zero_le_finite read
  refine ⟨⟨taken.allowed, .finite false read⟩, ?_, rfl, hnonneg⟩
  rw [readTake_ofText, hmagnitude, readTokens_eq_ok_iff]
  exact ⟨rfl, hread, rfl, Binary64.not_lt_of_le hnonneg⟩

end Reply

/-! ## A call and a run -/

namespace Remote

/-- Whether an operation has arguments that are accepted at a millisecond: a window or a lifetime
in the range of an expiry, a rate above zero and a capacity of a word. -/
def Operation.InRange (now : Int) : Operation Binary64 → Prop
  | .increment _ window => ExpiryFits now (windowMillis window)
  | .take _ rate burst =>
      Quantity.isFinite rate = true ∧ Quantity.ofInt 0 < rate ∧ 1 ≤ burst ∧ burst < twoTo 64 ∧
        SecondsFit now (Script.argument? (Script.lifetime rate (Quantity.ofInt burst)))

/-- What a caller is told who is answered: a count, or a take with a finite number of tokens that
is not negative. -/
inductive Outcome.Answered : Outcome Binary64 → Prop
  | counted (count : WindowCount) (time : Instant) : Answered (.counted ⟨.ok count, time⟩)
  | taken (take : TokenTake Binary64) (time : Instant)
      (hfinite : Quantity.isFinite take.remaining = true)
      (hnonneg : Quantity.ofInt 0 ≤ take.remaining) : Answered (.taken ⟨.ok take, time⟩)

/-- No key's name is a side name of another one, or of its own. -/
def KeepsApart (remote : Remote Binary64) (keys : List String) : Prop :=
  ∀ first ∈ keys, ∀ second ∈ keys, ∀ script : Script,
    remote.serverKey first ≠ remote.serverKey second ++ script.suffix

variable {remote : Remote Binary64} {clock : Int} {space : KeySpace Binary64} {keys : List String}
  {most : Nat}

/-- What the calls for some keys leave: nothing but counters and buckets, and under a side name
nothing but what its script writes. -/
structure Tidy (remote : Remote Binary64) (keys : List String) (space : KeySpace Binary64)
    (most : Nat) : Prop where
  kept : space.Kept most
  sides : ∀ key ∈ keys, ∀ script : Script,
    space.HoldsOnly script.own (remote.serverKey key ++ script.suffix)

theorem tidy_empty (remote : Remote Binary64) (keys : List String) :
    remote.Tidy keys .empty 0 :=
  ⟨nofun, fun _ _ _ => Or.inl rfl⟩

/-- A script that works for one of the keys writes to no side name but its own. -/
theorem Tidy.sides_run (htidy : remote.Tidy keys space most) (hapart : remote.KeepsApart keys)
    {key : String} (hkey : key ∈ keys) (script : Script) (now : Int) (arguments : List String) :
    let name := remote.serverKey key
    ∀ other ∈ keys, ∀ beside : Script,
      (script.run space now [name, name ++ script.suffix] arguments).space.HoldsOnly beside.own
        (remote.serverKey other ++ beside.suffix) := by
  intro name other hother beside
  have hbefore := (htidy.sides other hother beside).live now
  by_cases htarget : remote.serverKey other ++ beside.suffix =
      script.targetAt space now name (name ++ script.suffix)
  · rcases script.targetAt_eq_or space now name (name ++ script.suffix) with hmain | hside
    · exact absurd (htarget.trans hmain).symm (hapart key hkey other hother beside)
    · have hsame := htarget.trans hside
      have hnames := eq_of_append_suffix hsame
      obtain rfl : beside = script := by
        rcases script.eq_or_eq_other beside with heq | heq
        · exact heq
        · rw [hnames, heq] at hsame
          exact absurd hsame (script.append_suffix_other_ne name)
      rw [htarget] at hbefore ⊢
      exact beside.holdsOnly_run arguments hbefore
  · have hget := script.get?_run_of_ne arguments space htarget
    unfold HoldsOnly
    have hsame : (script.run space now [name, name ++ script.suffix] arguments).space.typeOf
        (remote.serverKey other ++ beside.suffix) =
          (space.live now).typeOf (remote.serverKey other ++ beside.suffix) := typeOf_congr hget
    rw [hsame]
    exact hbefore

/-- **One call is answered**, and leaves the key space tidy. -/
theorem Tidy.serve (htidy : remote.Tidy keys space most) (hapart : remote.KeepsApart keys)
    {call : Call Binary64} (hkey : call.key ∈ keys) (hlive : call.moment.isDone = false)
    (hrange : call.operation.InRange (call.millis clock))
    (hmost : call.script = .countCall → most + 1 < twoTo 63) :
    (remote.serve clock space call).1.Answered ∧
      remote.Tidy keys (remote.serve clock space call).2
        (if call.script = .countCall then most + 1 else most) := by
  obtain ⟨moment, operation⟩ := call
  set now := moment.now.serverMillis clock
  cases operation with
  | increment key window =>
      set arguments := [Decimal.wholeText (windowMillis window)]
      set run := Script.countCall.run space now
        [remote.serverKey key, remote.serverKey key ++ Script.countCall.suffix] arguments with hrun
      have hserved : remote.serve clock space ⟨moment, .increment key window⟩ =
          (.counted (readAnswer (run.answer moment.now) (Reply.readCount window)), run.space) :=
        serve_increment remote clock space rfl hlive
      have hside := (htidy.sides key hkey .countCall).live now
      obtain ⟨hkept, count, left, hpositive, hcount, houtcome⟩ :=
        Script.count_of_kept htidy.kept hside (hmost rfl) hrange
      have hword : most + 1 ≤ twoTo 64 := (hmost rfl).le.trans (by decide)
      have hread := Reply.readCount_countReply hpositive (hcount.trans hword) left window
      have hanswer : run.answer moment.now =
          ⟨.ok (countReply Binary64 count left), moment.now⟩ := by
        unfold ScriptRun.answer
        rw [hrun, houtcome]
      have hmore : (if (⟨moment, .increment key window⟩ : Call Binary64).script = .countCall
          then most + 1 else most) = most + 1 := if_pos rfl
      rw [hserved, hanswer, readAnswer_of_read hread, hmore]
      exact ⟨.counted _ _, hkept, htidy.sides_run hapart hkey .countCall now arguments⟩
  | take key rate burst =>
      obtain ⟨hfinite, hpositive, hone, hword, hfits⟩ := hrange
      set arguments := [Quantity.text rate, Decimal.wholeText burst,
        Quantity.text (moment.wall.inSeconds : Binary64)]
      set run := Script.takeToken.run space now
        [remote.serverKey key, remote.serverKey key ++ Script.takeToken.suffix] arguments with hrun
      have hserved : remote.serve clock space ⟨moment, .take key rate burst⟩ =
          (.taken (readAnswer (run.answer moment.now) Reply.readTake), run.space) := by
        unfold Remote.serve request Call.outcome
        rw [hlive]
        rfl
      have hside := (htidy.sides key hkey .takeToken).live now
      obtain ⟨hkept, taken, hcount, houtcome⟩ :=
        Script.take_of_kept htidy.kept hside hpositive hfinite hone hword hfits moment.wall
      obtain ⟨read, hread, hreadFinite, hnonneg⟩ := Reply.exists_readTake hcount
      have hanswer : run.answer moment.now =
          ⟨.ok (.array [.integer (if taken.allowed then 1 else 0),
            .ofText (Quantity.scriptText taken.remaining)]), moment.now⟩ := by
        unfold ScriptRun.answer
        rw [hrun, houtcome]
      have hsame : (if (⟨moment, .take key rate burst⟩ : Call Binary64).script = .countCall
          then most + 1 else most) = most := if_neg nofun
      rw [hserved, hanswer, readAnswer_of_read hread, hsame]
      exact ⟨.taken _ _ hreadFinite hnonneg, hkept,
        htidy.sides_run hapart hkey .takeToken now arguments⟩

/-- **A run is answered**, as long as its increments do not fill a word. -/
theorem Tidy.replay (htidy : remote.Tidy keys space most) (hapart : remote.KeepsApart keys)
    {calls : List (Call Binary64)} (hkeys : ∀ call ∈ calls, call.key ∈ keys)
    (hlive : ∀ call ∈ calls, call.moment.isDone = false)
    (hrange : ∀ call ∈ calls, call.operation.InRange (call.millis clock))
    (hmost : most + (calls.countP fun call => decide (call.script = .countCall)) < twoTo 63) :
    (∀ entry ∈ remote.replay clock space calls, entry.2.Answered) ∧
      ∃ more, remote.Tidy keys (remote.spaceAfter clock space calls) more := by
  induction calls generalizing space most with
  | nil => exact ⟨nofun, most, htidy⟩
  | cons call rest ih =>
      rw [List.countP_cons] at hmost
      have hroom : (if call.script = .countCall then most + 1 else most) +
          (rest.countP fun call => decide (call.script = .countCall)) < twoTo 63 := by
        by_cases hscript : call.script = .countCall
        · rw [if_pos (decide_eq_true hscript)] at hmost
          rw [if_pos hscript]
          omega
        · rw [if_neg (by simp [hscript])] at hmost
          rwa [if_neg hscript]
      obtain ⟨hanswered, hafter⟩ := htidy.serve hapart (hkeys call (List.mem_cons_self ..))
        (hlive call (List.mem_cons_self ..)) (hrange call (List.mem_cons_self ..)) fun hscript => by
          rw [if_pos hscript] at hroom
          omega
      obtain ⟨hrest, hleft⟩ := ih hafter
        (fun other hother => hkeys other (List.mem_cons_of_mem _ hother))
        (fun other hother => hlive other (List.mem_cons_of_mem _ hother))
        (fun other hother => hrange other (List.mem_cons_of_mem _ hother)) hroom
      refine ⟨fun entry hentry => ?_, hleft⟩
      rw [replay_cons] at hentry
      rcases List.mem_cons.mp hentry with rfl | hlater
      · exact hanswered
      · exact hrest entry hlater

/-- **Every call is answered**: over a fresh server, for callers whose keys' names are no side
names, with arguments in range.  Under a side name there is then nothing but what its script writes,
and whatever is there expires.

A count just below `2 ^ 63` becomes `2 ^ 63` on its way through a script, which is no word; that it
is answered with the last word nevertheless is the server's doing (`Script.throughQuantity`). -/
theorem every_call_answered (keyPrefix : String) {commandTimeout : Option Duration}
    (htimeout : commandTimeout ≠ some .zero) (clock : Int) {calls : List (Call Binary64)}
    (hordered : Chronological calls) (hlive : ∀ call ∈ calls, call.moment.isDone = false)
    (hapart : (onFreshServer keyPrefix commandTimeout clock).KeepsApart (calls.map Call.key))
    (hrange : ∀ call ∈ calls, call.operation.InRange (call.millis clock))
    (hcounts : (calls.countP fun call => decide (call.script = .countCall)) < twoTo 63) :
    let remote : Remote Binary64 := onFreshServer keyPrefix commandTimeout clock
    (∀ entry ∈ remote.history calls, entry.2.Answered) ∧
      ∀ now : Int, let space := (remote.after calls).keySpace.live now
        (∀ call ∈ calls, space.HoldsOnly .text (remote.serverKey call.key ++ windowSuffix) ∧
          space.HoldsOnly .hash (remote.serverKey call.key ++ bucketSuffix)) ∧
        ∀ name entry, space.table.get? name = some entry → entry.expiresAt.isSome := by
  intro remote
  have hserves : remote.Serves clock .empty .start := serves_onFreshServer keyPrefix htimeout clock
  have hstart : ∀ call ∈ calls, Instant.start ≤ call.moment.now := fun _ _ => Nat.zero_le _
  have hkeys : ∀ call ∈ calls, call.key ∈ calls.map Call.key :=
    fun call hcall => List.mem_map_of_mem hcall
  obtain ⟨hanswered, more, hkept, hsides⟩ :=
    (tidy_empty remote (calls.map Call.key)).replay hapart hkeys hlive hrange (by omega)
  rw [hserves.history_eq hordered hstart, hserves.keySpace_after hordered hstart]
  refine ⟨hanswered, fun now => ⟨fun call hcall => ?_, fun name entry hentry => ?_⟩⟩
  · have hside := hsides call.key (hkeys call hcall)
    exact ⟨(hside .countCall).live now, (hside .takeToken).live now⟩
  · exact (hkept.of_entryAt hentry).isSome

/-- Two keys, both of them used by both scripts, with clock readings that go back. -/
def mixedRun : List (Call Binary64) :=
  let moment (millis : Nat) (wall : Int) : Moment := ⟨⟨millis * nanosPerMilli⟩, ⟨wall⟩, none⟩
  [⟨moment 0 5000000000, .increment "a" (.ofMillis 1000)⟩,
    ⟨moment 0 7000000000, .take "a" (Binary64.ofInt 3) 2⟩,
    ⟨moment 500 (-1), .take "b" (Binary64.ofInt 1) 1⟩,
    ⟨moment 500 6000000000, .take "a" (Binary64.ofInt 3) 2⟩,
    ⟨moment 2000 0, .increment "b" (.ofMillis 1)⟩,
    ⟨moment 2500 9000000000, .increment "a" (.ofSeconds 60)⟩]

theorem every_call_answered_mixedRun :
    let remote : Remote Binary64 := onFreshServer "limits:" none 0
    let space := (remote.after mixedRun).keySpace.live 2500
    (∀ entry ∈ remote.history mixedRun, entry.2.Answered) ∧
      space.typeOf "limits:a" = .text ∧ space.typeOf "limits:a:token_bucket" = .hash ∧
      space.HoldsOnly .text "limits:a:fixed_window" ∧
      ∀ name entry, space.table.get? name = some entry → entry.expiresAt.isSome := by
  intro remote space
  have htimeout : (none : Option Duration) ≠ some .zero := nofun
  have hapart : remote.KeepsApart (mixedRun.map Call.key) := by
    have hnames : ∀ first ∈ mixedRun.map Call.key, ∀ second ∈ mixedRun.map Call.key,
        remote.serverKey first ≠ remote.serverKey second ++ windowSuffix ∧
          remote.serverKey first ≠ remote.serverKey second ++ bucketSuffix := by decide
    intro first hfirst second hsecond script
    cases script with
    | countCall => exact (hnames first hfirst second hsecond).1
    | takeToken => exact (hnames first hfirst second hsecond).2
  have hrange : ∀ call ∈ mixedRun, call.operation.InRange (call.millis 0) := by
    simp only [mixedRun, List.forall_mem_cons, Operation.InRange, SecondsFit]
    refine ⟨?_, ⟨?_, ?_, ?_, ?_, 10, ?_⟩, ⟨?_, ?_, ?_, ?_, 10, ?_⟩, ⟨?_, ?_, ?_, ?_, 10, ?_⟩, ?_,
      ?_, List.forall_mem_nil _⟩
    all_goals decide +kernel
  obtain ⟨hanswered, hspace⟩ := every_call_answered "limits:" htimeout 0
    (by decide : Chronological mixedRun) (by decide) hapart hrange (by decide +kernel)
  obtain ⟨hsides, hexpires⟩ := hspace 2500
  have hside := (hsides _ (List.mem_cons_self ..)).1
  exact ⟨hanswered, by decide +kernel, by decide +kernel, hside, hexpires⟩

end Remote

end Throttle
