import Throttle.Proofs.Numeric.Exact
import Throttle.Proofs.Remote.Algorithms

/-!
# Buckets on a server in the exact reading

What a take does to the bucket that a server holds for a key, wherever it holds it
(`Script.takeRun_cases`): it is refused by something that is no bucket, or it writes the bucket
and cannot set its expiry, or it answers.  The bucket that it writes is never one that has
expired already, since a bucket lives for ten seconds at least.

Over `Rat` every text that a request or a reply carries reads back to the number it was made
from, so the script computes with the caller's numbers.
-/

namespace Throttle

open KeySpace

/-! ## The arithmetic of the script -/

namespace Script

variable {held : Held Rat} {rate burst reading : Rat}

theorem refilled_rat (held : Held Rat) (rate burst reading : Rat) :
    refilled held rate burst reading =
      if 0 < reading - held.lastUsed then
        min (held.tokens + (reading - held.lastUsed) * rate) burst
      else held.tokens := by
  unfold refilled
  simp only [Quantity.ofInt_rat, Int.cast_zero]
  refine if_congr Iff.rfl ?_ rfl
  rw [min_def]
  by_cases hfull : burst < held.tokens + (reading - held.lastUsed) * rate
  · rw [if_pos hfull, if_neg (not_le.mpr hfull)]
  · rw [if_neg hfull, if_pos (not_lt.mp hfull)]

/-- A reading refills a bucket by what has passed since the last one, if it is later. -/
theorem refilled_le (held : Held Rat) (rate burst reading : Rat) :
    refilled held rate burst reading ≤
      held.tokens + rate * max 0 (reading - held.lastUsed) := by
  rw [refilled_rat]
  split_ifs with hforward
  · rw [max_eq_right hforward.le, mul_comm rate]
    exact min_le_left _ _
  · rw [max_eq_left (not_lt.mp hforward), mul_zero, add_zero]

theorem refilled_nonneg (hrate : 0 ≤ rate) (hburst : 0 ≤ burst) (htokens : 0 ≤ held.tokens) :
    0 ≤ refilled held rate burst reading := by
  rw [refilled_rat]
  split_ifs with hforward
  · exact le_min (add_nonneg htokens (mul_nonneg hforward.le hrate)) hburst
  · exact htokens

theorem takeFrom_some (held : Held Rat) (rate burst reading : Rat) :
    takeFrom (some held) rate burst reading =
      let tokens := refilled held rate burst reading
      if 1 ≤ tokens then ⟨true, tokens - 1⟩ else ⟨false, tokens⟩ := by
  simp only [takeFrom, Quantity.ofInt_rat, Int.cast_one]

theorem takeFrom_none (rate burst reading : Rat) :
    takeFrom none rate burst reading = ⟨true, burst - 1⟩ := by
  simp only [takeFrom, Quantity.ofInt_rat, Int.cast_one]

theorem takeFrom_nonneg {held? : Option (Held Rat)} (hrate : 0 ≤ rate) (hburst : 1 ≤ burst)
    (hheld : ∀ held ∈ held?, 0 ≤ held.tokens) :
    0 ≤ (takeFrom held? rate burst reading).remaining := by
  cases held? with
  | none =>
      rw [takeFrom_none]
      exact sub_nonneg.mpr hburst
  | some held =>
      have hnonneg : 0 ≤ refilled held rate burst reading :=
        refilled_nonneg hrate (zero_le_one.trans hburst) (hheld held rfl)
      rw [takeFrom_some]
      simp only
      split_ifs with htoken
      · exact sub_nonneg.mpr htoken
      · exact hnonneg

/-- The whole seconds after which a bucket expires. -/
def lifetimeSeconds (rate burst : Rat) : Int := max 10 ⌈2 * burst / rate⌉

theorem ten_le_lifetimeSeconds (rate burst : Rat) : 10 ≤ lifetimeSeconds rate burst :=
  le_max_left _ _

theorem lifetime_rat (rate burst : Rat) :
    lifetime rate burst = (lifetimeSeconds rate burst : Rat) := by
  have hdouble : burst / rate * 2 = 2 * burst / rate := by ring
  unfold lifetime lifetimeSeconds
  simp only [Quantity.ofInt_rat, Quantity.ceiling_rat, Int.cast_ofNat, hdouble]
  rw [Int.cast_max, Int.cast_ofNat, max_def]
  by_cases hshort : ((⌈2 * burst / rate⌉ : Int) : Rat) < 10
  · rw [if_pos hshort, if_neg (not_le.mpr hshort)]
  · rw [if_neg hshort, if_pos (not_lt.mp hshort)]

theorem argument?_lifetime (rate burst : Rat) :
    argument? (lifetime rate burst) =
      if (lifetimeSeconds rate burst).natAbs < tenTo 17 then some (lifetimeSeconds rate burst)
      else none := by
  have hvalue : Quantity.value? (lifetime rate burst) =
      some (lifetimeSeconds rate burst : Rat) := by
    rw [lifetime_rat]
    rfl
  unfold argument?
  simp only [hvalue, Rat.num_intCast, Rat.den_intCast, true_and]

theorem eq_of_mem_argument? {seconds : Int}
    (hseconds : seconds ∈ argument? (lifetime rate burst)) :
    seconds = lifetimeSeconds rate burst := by
  rw [argument?_lifetime] at hseconds
  split_ifs at hseconds
  · exact (Option.some.inj hseconds).symm
  · cases hseconds

/-- A lifetime whose milliseconds are in range is written without an exponent. -/
theorem secondsFit_lifetime {now : Int}
    (hfits : ExpiryFits now (lifetimeSeconds rate burst * 1000)) :
    SecondsFit now (argument? (lifetime rate burst)) := by
  have hshort : (lifetimeSeconds rate burst).natAbs < tenTo 17 := by
    obtain ⟨hlow, hhigh⟩ := hfits.1
    have htwo : twoTo 63 = 9223372036854775808 := by decide
    have hten : tenTo 17 = 100000000000000000 := by decide
    omega
  rw [argument?_lifetime, if_pos hshort]
  exact ⟨_, rfl, hfits⟩

end Script

/-! ## Expiries -/

namespace KeySpace

variable {α : Type} {space : KeySpace α} {now : Int} {name : String}

/-- What is there, and is given some time, is there with the new expiry. -/
theorem expireAfter_of_present {entry : Entry α} (hget : space.table.get? name = some entry)
    {millis : Int} (hmillis : 0 < millis) (command : String) :
    space.expireAfter now name millis command =
      if ExpiryFits now millis then
        .ok (true, ⟨space.table.insert name { entry with expiresAt := some (now + millis) }⟩)
      else .error (.invalidExpiry command) := by
  unfold expireAfter
  by_cases hfits : ExpiryFits now millis
  · have hpasses : ¬ (¬ Decimal.FitsSigned millis ∨ ¬ Decimal.FitsSigned (now + millis)) :=
      fun hunfit => hunfit.elim (· hfits.1) (· hfits.2)
    rw [if_neg hpasses, if_pos hfits, hget]
    simp only
    rw [if_neg (not_le.mpr hmillis)]
  · rw [if_pos (not_and_or.mp hfits), if_neg hfits]

/-- What is written is there, since it keeps the expiry of something that is there. -/
theorem entryAt_write (space : KeySpace α) (now : Int) (name : String) (content : Content α) :
    ((space.live now).write name content).entryAt now name =
      some ⟨content, (space.live now).expiryOf? name⟩ := by
  have hlive : isLive now (⟨content, (space.live now).expiryOf? name⟩ : Entry α) = true := by
    cases hentry : (space.live now).table.get? name with
    | none =>
        rw [expiryOf?, hentry]
        rfl
    | some entry =>
        have hheld := hentry
        rw [get?_live, Option.filter_eq_some_iff] at hheld
        rw [expiryOf?, hentry]
        exact hheld.2
  rw [entryAt_eq_filter, get?_write_self, Option.filter_some_pos hlive]

end KeySpace

/-! ## The bucket of a key -/

/-- The bucket in a content, if it is one. -/
def Content.held? {α : Type} [Quantity α] : Content α → Option (Script.Held α)
  | .hash fields => Script.held? fields
  | _ => none

theorem Content.held?_eq_none {α : Type} [Quantity α] {content : Content α}
    (htype : content.type ≠ .hash) : content.held? = none := by
  cases content with
  | hash fields => exact absurd rfl htype
  | text written => rfl
  | list items => rfl

/-- The bucket that a server holds for a key. -/
def KeySpace.bucketAt {α : Type} [Quantity α] (space : KeySpace α) (now : Int) (key : String) :
    Option (Script.Held α) :=
  (Script.takeToken.stateAt space now key).bind fun entry => entry.content.held?

namespace Script

section

variable {α : Type} [Quantity α] {space : KeySpace α} {now : Int} {key : String}

/-- What a script finds for a key is a bucket or nothing, or something that it refuses. -/
theorem fields_cases (hapart : space.Apart now key) :
    (∃ fields, (space.live now).fields (takeToken.targetAt space now key
        (key ++ takeToken.suffix)) = .ok fields ∧ held? fields = space.bucketAt now key) ∨
    (∃ entry, takeToken.stateAt space now key = some entry ∧ entry.content.type ≠ .hash ∧
      ∃ error, (space.live now).fields (takeToken.targetAt space now key
        (key ++ takeToken.suffix)) = .error error) := by
  have hstate := hapart.stateAt_eq takeToken
  unfold entryAt at hstate
  unfold KeySpace.bucketAt KeySpace.fields
  rw [hstate]
  rcases hget : (space.live now).table.get? (takeToken.targetAt space now key
    (key ++ takeToken.suffix)) with - | ⟨content, expiresAt⟩
  · exact Or.inl ⟨.empty, rfl, rfl⟩
  · cases content with
    | hash fields => exact Or.inl ⟨fields, rfl, rfl⟩
    | text written => exact Or.inr ⟨_, rfl, by rintro ⟨⟩, _, rfl⟩
    | list items => exact Or.inr ⟨_, rfl, by rintro ⟨⟩, _, rfl⟩

/-- **What a take does to the bucket of its key**: something that is no bucket refuses it; or the
bucket is written and its expiry cannot be set; or the take is answered. -/
theorem run_take_cases (hapart : space.Apart now key) {arguments : List String}
    {rate burst reading : α}
    (htake : takeToken.run space now [key, key ++ takeToken.suffix] arguments =
      take space now key (key ++ takeToken.suffix) rate burst reading)
    (hlong : ∀ seconds ∈ argument? (lifetime rate burst), 0 < seconds) :
    let taken := takeFrom (space.bucketAt now key) rate burst reading
    let run := takeToken.run space now [key, key ++ takeToken.suffix] arguments
    run.space.Apart now key ∧
    ((∃ error, run.outcome = .error error ∧
      takeToken.stateAt run.space now key = takeToken.stateAt space now key ∧
      ∃ entry, takeToken.stateAt space now key = some entry ∧ entry.content.type ≠ .hash) ∨
    (∃ error fields expiry?, run.outcome = .error error ∧
      takeToken.stateAt run.space now key = some ⟨.hash fields, expiry?⟩ ∧
      held? fields = some ⟨taken.remaining, reading⟩ ∧
      ¬ SecondsFit now (argument? (lifetime rate burst))) ∨
    (run.outcome = .ok (.array [.integer (if taken.allowed then 1 else 0),
        .ofText (Quantity.scriptText taken.remaining)]) ∧
      ∃ fields, ∃ seconds ∈ argument? (lifetime rate burst),
        takeToken.stateAt run.space now key =
          some ⟨.hash fields, some (now + seconds * 1000)⟩ ∧
        held? fields = some ⟨taken.remaining, reading⟩)) := by
  intro taken run
  obtain ⟨hafter, hstate, -⟩ := hapart.run takeToken arguments
  change run.space.Apart now key at hafter
  change takeToken.stateAt run.space now key = run.space.entryAt now _ at hstate
  refine ⟨hafter, ?_⟩
  have hrun : run = take space now key (key ++ takeToken.suffix) rate burst reading := htake
  rcases fields_cases hapart with ⟨fields, hfields, hheld⟩ | ⟨entry, hentry, htype, error, herror⟩
  · have htaken : takeFrom (held? fields) rate burst reading = taken := by rw [hheld]
    have hbucket : held? (takenFields fields taken.remaining reading) =
        some ⟨taken.remaining, reading⟩ :=
      held?_of_fields (get?_takenFields_tokens ..) (get?_takenFields_lastUsed ..)
    -- From here on the script writes the bucket first, and what is left to decide is whether
    -- its expiry can be set.
    set target := takeToken.targetAt space now key (key ++ takeToken.suffix)
    set written := (space.live now).write target
      (.hash (takenFields fields taken.remaining reading))
    rcases expireSeconds_cases written now target (argument? (lifetime rate burst)) with
      ⟨hunfit, error, hexpire⟩ | ⟨⟨seconds, hseconds, hfits⟩, answer, left, hexpire, -⟩
    · have hfailed : run = ⟨.error error, written⟩ := by
        rw [hrun, take_of_unexpirable hfields (by rw [htaken]; exact hexpire), htaken]
      refine Or.inr (Or.inl ⟨error, takenFields fields taken.remaining reading,
        (space.live now).expiryOf? target, by rw [hfailed], ?_, hbucket, hunfit⟩)
      rw [hstate, hfailed, entryAt_write]
    · have hmillis : 0 < seconds * 1000 := by
        have := hlong seconds hseconds
        omega
      have hanswered : run = ⟨.ok (.array [.integer (if taken.allowed then 1 else 0),
          .ofText (Quantity.scriptText taken.remaining)]), left⟩ := by
        rw [hrun, take_of_answered hfields (by rw [htaken]; exact hexpire), htaken]
      refine Or.inr (Or.inr ⟨by rw [hanswered], takenFields fields taken.remaining reading,
        seconds, hseconds, ?_, hbucket⟩)
      unfold expireSeconds at hexpire
      rw [Option.mem_def.mp hseconds] at hexpire
      simp only at hexpire
      rw [expireAfter_of_present (get?_write_self ..) hmillis, if_pos hfits] at hexpire
      cases hexpire
      rw [hstate, hanswered, entryAt_eq_filter, Table.get?_insert_self, Option.filter_some_pos]
      exact decide_eq_true (by omega)
  · have hrefused : run = ⟨.error error, space.live now⟩ := by
      rw [hrun, take_of_refused herror]
    refine Or.inl ⟨error, by rw [hrefused], ?_, entry, hentry, htype⟩
    rw [hstate, hapart.stateAt_eq takeToken, hrefused]
    exact entryAt_of_get?_eq rfl le_rfl

end

variable {space : KeySpace Rat} {now : Int} {key : String}

/-- The run of a request to take a token. -/
def takeRun (space : KeySpace Rat) (now : Int) (key : String) (rate : Rat) (burst : Nat)
    (reading : Rat) : ScriptRun Rat :=
  takeToken.run space now [key, key ++ takeToken.suffix]
    [Quantity.text rate, Decimal.wholeText burst, Quantity.text reading]

/-- The script computes with the numbers of its caller. -/
theorem takeRun_eq (space : KeySpace Rat) (now : Int) (key : String) (rate : Rat) (burst : Nat)
    (reading : Rat) :
    takeRun space now key rate burst reading =
      take space now key (key ++ takeToken.suffix) rate burst reading := by
  have hread : ∀ value : Rat, Quantity.scriptRead? (Quantity.text value) = some value :=
    Fraction.read?_text
  have hburst : Quantity.scriptRead? (Decimal.wholeText burst) = some (burst : Rat) :=
    Fraction.read?_wholeText burst
  unfold takeRun run
  simp only [hread, hburst]

/-- The same with the lifetime of the bucket, which is known here. -/
theorem takeRun_cases (hapart : space.Apart now key) (rate : Rat) (burst : Nat)
    (reading : Rat) :
    let taken := takeFrom (space.bucketAt now key) rate burst reading
    let run := takeRun space now key rate burst reading
    run.space.Apart now key ∧
    ((∃ error, run.outcome = .error error ∧
      takeToken.stateAt run.space now key = takeToken.stateAt space now key ∧
      ∃ entry, takeToken.stateAt space now key = some entry ∧ entry.content.type ≠ .hash) ∨
    (∃ error, run.outcome = .error error ∧
      run.space.bucketAt now key = some ⟨taken.remaining, reading⟩ ∧
      ¬ SecondsFit now (argument? (lifetime rate (burst : Rat)))) ∨
    (run.outcome = .ok (.array [.integer (if taken.allowed then 1 else 0),
        .ofText (Quantity.scriptText taken.remaining)]) ∧
      ∃ fields, takeToken.stateAt run.space now key = some ⟨.hash fields,
          some (now + lifetimeSeconds rate burst * 1000)⟩ ∧
        held? fields = some ⟨taken.remaining, reading⟩)) := by
  intro taken run
  have hlong : ∀ seconds ∈ argument? (lifetime rate (burst : Rat)), 0 < seconds := by
    intro seconds hseconds
    have hten := ten_le_lifetimeSeconds rate (burst : Rat)
    rw [eq_of_mem_argument? hseconds]
    omega
  obtain ⟨hafter, hcases⟩ := run_take_cases hapart (takeRun_eq space now key rate burst reading)
    hlong
  refine ⟨hafter, ?_⟩
  rcases hcases with hrefused | ⟨error, fields, expiry?, heq, hstate, hheld, hunfit⟩ |
    ⟨heq, fields, seconds, hseconds, hstate, hheld⟩
  · exact Or.inl hrefused
  · refine Or.inr (Or.inl ⟨error, heq, ?_, hunfit⟩)
    change takeToken.stateAt run.space now key = _ at hstate
    unfold KeySpace.bucketAt
    rw [hstate]
    exact hheld
  · rw [eq_of_mem_argument? hseconds] at hstate
    exact Or.inr (Or.inr ⟨heq, fields, hstate, hheld⟩)

end Script

/-! ## A take of a run -/

theorem eq_toUTF8_of_fromUTF8? {bytes : ByteArray} {text : String}
    (hread : String.fromUTF8? bytes = some text) : bytes = text.toUTF8 := by
  unfold String.fromUTF8? at hread
  split_ifs at hread with hvalid
  exact congrArg String.toUTF8 (Option.some.inj hread)

theorem fromUTF8?_toUTF8 (text : String) : String.fromUTF8? text.toUTF8 = some text :=
  dif_pos text.isValidUTF8

/-- What a caller reads in the answer of a script is its text. -/
theorem Reply.readTake_ofText {α : Type} [Quantity α] (allowed : Bool) (text : String) :
    (readTake (.array [.integer (if allowed then 1 else 0), .ofText text]) :
      Except ReplyFault (TokenTake α)) = readTokens allowed text := by
  have hflag : readFlag? (if allowed then 1 else 0) = some allowed := by
    cases allowed <;> rfl
  unfold ofText readTake
  simp only [hflag, fromUTF8?_toUTF8]

/-- A text is taken for the tokens that it writes, if they are finite and not below zero. -/
theorem Reply.readTokens_eq_ok_iff {α : Type} [Quantity α] {allowed : Bool} {text : String}
    {taken : TokenTake α} :
    readTokens allowed text = .ok taken ↔ taken.allowed = allowed ∧
      Quantity.read? text = some taken.remaining ∧ Quantity.isFinite taken.remaining = true ∧
      ¬ taken.remaining < Quantity.ofInt 0 := by
  unfold readTokens
  cases htext : (Quantity.read? text : Option α) with
  | none => simp
  | some tokens =>
      simp only [Option.some.injEq]
      constructor
      · intro hread
        split_ifs at hread with hrange
        obtain ⟨hfinite, hnonneg⟩ := not_or.mp hrange
        cases hread
        exact ⟨rfl, rfl, by simpa using hfinite, hnonneg⟩
      · rintro ⟨rfl, rfl, hfinite, hnonneg⟩
        rw [if_neg (not_or.mpr ⟨by simpa using hfinite, hnonneg⟩)]

/-- The answer of the script is read as what the script has found. -/
theorem Reply.readTake_answer {taken : TokenTake Rat} (hremaining : 0 ≤ taken.remaining) :
    readTake (.array [.integer (if taken.allowed then 1 else 0),
      .ofText (Quantity.scriptText taken.remaining)]) = .ok taken := by
  rw [readTake_ofText, readTokens_eq_ok_iff]
  exact ⟨rfl, Fraction.read?_text taken.remaining, rfl, not_lt.mpr hremaining⟩

namespace Remote

variable {remote : Remote Rat} {clock : Int} {space : KeySpace Rat} {key : String}
  {rate : Rat} {burst : Nat}

/-- **What the caller of a take is told, and what becomes of the bucket.** -/
theorem serve_take_cases (call : Call Rat) (hoperation : call.operation = .take key rate burst)
    (hdone : call.moment.isDone = false)
    (hapart : space.Apart (call.millis clock) (remote.serverKey key)) (hrate : 0 ≤ rate)
    (hburst : 1 ≤ burst)
    (hheld : ∀ held ∈ space.bucketAt (call.millis clock) (remote.serverKey key), 0 ≤ held.tokens) :
    let now := call.millis clock
    let name := remote.serverKey key
    let reading : Rat := call.moment.wall.inSeconds
    let taken := Script.takeFrom (space.bucketAt now name) rate burst reading
    let served := remote.serve clock space call
    served.2.Apart now name ∧
    ((served.1.take? = none ∧
      Script.takeToken.stateAt served.2 now name = Script.takeToken.stateAt space now name ∧
      ∃ entry, Script.takeToken.stateAt space now name = some entry ∧
        entry.content.type ≠ .hash) ∨
    (served.1.take? = none ∧ served.2.bucketAt now name = some ⟨taken.remaining, reading⟩ ∧
      ¬ SecondsFit now (Script.argument? (Script.lifetime rate (burst : Rat)))) ∨
    (served.1 = .taken ⟨.ok taken, call.moment.now⟩ ∧
      ∃ fields, Script.takeToken.stateAt served.2 now name = some ⟨.hash fields,
          some (now + Script.lifetimeSeconds rate burst * 1000)⟩ ∧
        Script.held? fields = some ⟨taken.remaining, reading⟩)) := by
  intro now name reading taken served
  have hone : (1 : Rat) ≤ burst := by exact_mod_cast hburst
  have hremaining : 0 ≤ taken.remaining := Script.takeFrom_nonneg hrate hone hheld
  have hrequest : (remote.request call).runOn space now =
      Script.takeRun space now name rate burst reading := by
    unfold request
    rw [hoperation]
    rfl
  have hserved : served = (call.outcome
      ((Script.takeRun space now name rate burst reading).answer call.moment.now),
      (Script.takeRun space now name rate burst reading).space) := by
    unfold served serve
    rw [hdone, hrequest]
    rfl
  have houtcome : ∀ answer, call.outcome answer = .taken (readAnswer answer Reply.readTake) := by
    intro answer
    unfold Call.outcome
    rw [hoperation]
  have herror : ∀ error,
      (Script.takeRun space now name rate burst reading).outcome = .error error →
      served.1.take? = none := by
    intro error heq
    rw [hserved, houtcome, ScriptRun.answer, heq]
    rfl
  obtain ⟨hafter, hcases⟩ := Script.takeRun_cases hapart rate burst reading
  rw [hserved] at herror ⊢
  refine ⟨hafter, ?_⟩
  rcases hcases with ⟨error, heq, hrefused⟩ | ⟨error, heq, hwritten⟩ | ⟨heq, hanswered⟩
  · exact Or.inl ⟨herror error heq, hrefused⟩
  · exact Or.inr (Or.inl ⟨herror error heq, hwritten⟩)
  · refine Or.inr (Or.inr ⟨?_, hanswered⟩)
    have hread := Reply.readTake_answer hremaining
    have hreply : (Script.takeRun space now name rate burst reading).outcome =
        .ok (.array [.integer (if taken.allowed then 1 else 0),
          .ofText (Quantity.scriptText taken.remaining)]) := heq
    rw [houtcome, ScriptRun.answer, hreply]
    unfold readAnswer
    simp only [hread]

end Remote

end Throttle
