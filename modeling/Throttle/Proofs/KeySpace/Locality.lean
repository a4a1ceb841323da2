import Throttle.Proofs.KeySpace.Scripts

/-!
# A script works on one name

A script is given two names and works on one of them, its target.  `Script.run_alike` puts
two runs of a script side by side, in two key spaces and perhaps under other names: if the two
targets hold the same, the answers are the same, the two targets hold the same afterwards, and
every other name holds what it held.  So a target's entry is all that a script reads, and all
that it writes.

The other fact about a target is its type: a target that holds nothing of a foreign type never
comes to hold any (`Script.holdsOnly_run`).
-/

namespace Throttle

variable {α : Type}

/-- The type of a content. -/
def Content.type : Content α → KeyType
  | .text _ => .text
  | .list _ => .list
  | .hash _ => .hash

namespace KeySpace

/-- What a name holds at a millisecond. -/
def entryAt (space : KeySpace α) (now : Int) (name : String) : Option (Entry α) :=
  (space.live now).table.get? name

variable {space first second : KeySpace α} {name other : String} {now later : Int}

theorem entryAt_eq_filter (space : KeySpace α) (now : Int) (name : String) :
    space.entryAt now name = (space.table.get? name).filter (isLive now) :=
  get?_live space now name

/-- What is gone stays gone. -/
theorem isLive_of_le (hlater : now ≤ later) {entry : Entry α}
    (hlive : isLive later entry = true) : isLive now entry = true := by
  unfold isLive at hlive ⊢
  cases hexpiry : entry.expiresAt with
  | none => rfl
  | some expiry =>
      rw [hexpiry] at hlive
      have hle : later ≤ expiry := of_decide_eq_true hlive
      exact decide_eq_true (hlater.trans hle)

theorem filter_isLive_filter (hlater : now ≤ later) (held? : Option (Entry α)) :
    (held?.filter (isLive now)).filter (isLive later) = held?.filter (isLive later) := by
  cases held? with
  | none => rfl
  | some entry =>
      by_cases hlive : isLive later entry = true
      · rw [Option.filter_some_pos (isLive_of_le hlater hlive)]
      · rw [Bool.not_eq_true] at hlive
        rw [Option.filter_some_neg hlive]
        by_cases hbefore : isLive now entry = true
        · rw [Option.filter_some_pos hbefore, Option.filter_some_neg hlive]
        · rw [Option.filter_some_neg (Bool.eq_false_iff.mpr hbefore), Option.filter_none]

theorem entryAt_later (hlater : now ≤ later) :
    space.entryAt later name = (space.entryAt now name).filter (isLive later) := by
  rw [entryAt_eq_filter, entryAt_eq_filter, filter_isLive_filter hlater]

theorem entryAt_of_get? (hget : first.table.get? name = second.table.get? other) :
    first.entryAt now name = second.entryAt now other := by
  rw [entryAt_eq_filter, entryAt_eq_filter, hget]

/-- A name that nobody writes holds later what is left of what it holds now. -/
theorem entryAt_of_get?_eq (hget : first.table.get? name = second.entryAt now name)
    (hlater : now ≤ later) : first.entryAt later name = second.entryAt later name := by
  rw [entryAt_eq_filter, hget, entryAt_later hlater]

theorem entryAt_congr (hsame : first.entryAt now name = second.entryAt now other)
    (hlater : now ≤ later) : first.entryAt later name = second.entryAt later other := by
  rw [entryAt_later hlater, hsame, entryAt_later hlater]

theorem typeOf_congr (hsame : first.table.get? name = second.table.get? other) :
    first.typeOf name = second.typeOf other := by
  unfold typeOf
  rw [hsame]

theorem contains_congr (hsame : first.table.get? name = second.table.get? other) :
    first.contains name = second.contains other := by
  unfold contains
  rw [hsame]

theorem typeOf_of_get? {entry : Entry α} (hget : space.table.get? name = some entry) :
    space.typeOf name = entry.content.type := by
  unfold typeOf
  rw [hget]
  cases hcontent : entry.content <;> simp [hcontent, Content.type]

theorem typeOf_eq_missing_iff : space.typeOf name = .missing ↔ space.table.get? name = none := by
  unfold typeOf
  cases space.table.get? name with
  | none => simp
  | some entry => cases hcontent : entry.content <;> simp [hcontent]

/-! ## Types -/

/-- A name that holds nothing, or something of one type. -/
def HoldsOnly (space : KeySpace α) (kind : KeyType) (name : String) : Prop :=
  space.typeOf name = .missing ∨ space.typeOf name = kind

theorem typeOf_live (space : KeySpace α) (now : Int) (name : String) :
    (space.live now).typeOf name = .missing ∨
      (space.live now).typeOf name = space.typeOf name := by
  have hget := get?_live space now name
  cases hheld : space.table.get? name with
  | none =>
      rw [hheld, Option.filter_none] at hget
      exact Or.inl (typeOf_eq_missing_iff.mpr hget)
  | some entry =>
      rw [hheld] at hget
      by_cases hlive : isLive now entry = true
      · rw [Option.filter_some_pos hlive] at hget
        exact Or.inr (typeOf_congr (hget.trans hheld.symm))
      · rw [Option.filter_some_neg (Bool.eq_false_iff.mpr hlive)] at hget
        exact Or.inl (typeOf_eq_missing_iff.mpr hget)

theorem HoldsOnly.live {kind : KeyType} (hholds : space.HoldsOnly kind name) (now : Int) :
    (space.live now).HoldsOnly kind name := by
  rcases typeOf_live space now name with hmissing | hsame
  · exact Or.inl hmissing
  · unfold HoldsOnly
    rw [hsame]
    exact hholds

theorem typeOf_write (space : KeySpace α) (name : String) (content : Content α) :
    (space.write name content).typeOf name = content.type :=
  typeOf_of_get? (get?_write_self space name content)

/-- An increment that answers has written the number that it answers. -/
theorem eq_write_of_increment {number : Int}
    (hincrement : space.increment name = .ok (number, first)) :
    first = space.write name (.text (Decimal.wholeText number)) := by
  have hcount : ∀ before : Int, (if before = (twoTo 63 : Int) - 1 then .error .overflow
        else .ok (before + 1, space.write name (.text (Decimal.wholeText (before + 1)))) :
        Except CommandError (Int × KeySpace α)) = .ok (number, first) →
      first = space.write name (.text (Decimal.wholeText number)) := by
    intro before hcounted
    split_ifs at hcounted
    cases hcounted
    rfl
  unfold increment at hincrement
  rcases hget : space.table.get? name with - | ⟨content, expiresAt⟩
  · rw [hget] at hincrement
    exact hcount 0 hincrement
  · rw [hget] at hincrement
    cases content with
    | text written =>
        simp only at hincrement
        cases hread : Decimal.readCanonical? written with
        | none =>
            rw [hread] at hincrement
            cases hincrement
        | some before =>
            rw [hread] at hincrement
            exact hcount before hincrement
    | list items => cases hincrement
    | hash fields => cases hincrement

theorem HoldsOnly.expireAfter {kind : KeyType} (hholds : space.HoldsOnly kind name)
    {millis : Int} {command : String} {answer : Bool}
    (hexpire : space.expireAfter now name millis command = .ok (answer, first)) :
    first.HoldsOnly kind name := by
  unfold KeySpace.expireAfter at hexpire
  by_cases hunfit : ¬ Decimal.FitsSigned millis ∨ ¬ Decimal.FitsSigned (now + millis)
  · rw [if_pos hunfit] at hexpire
    cases hexpire
  · rw [if_neg hunfit] at hexpire
    cases hget : space.table.get? name with
    | none =>
        rw [hget] at hexpire
        cases hexpire
        exact hholds
    | some entry =>
        rw [hget] at hexpire
        simp only at hexpire
        split_ifs at hexpire
        · cases hexpire
          exact Or.inl (typeOf_eq_missing_iff.mpr (Table.get?_erase_self _ _))
        · cases hexpire
          have htype : typeOf (⟨space.table.insert name
              { entry with expiresAt := some (now + millis) }⟩ : KeySpace α) name =
                space.typeOf name := by
            unfold typeOf
            rw [Table.get?_insert_self, hget]
          unfold HoldsOnly
          rw [htype]
          exact hholds

theorem HoldsOnly.expireMillis {kind : KeyType} (hholds : space.HoldsOnly kind name)
    {text : String} {answer : Bool}
    (hexpire : space.expireMillis now name text = .ok (answer, first)) :
    first.HoldsOnly kind name := by
  unfold KeySpace.expireMillis at hexpire
  cases hread : Decimal.readCanonical? text with
  | none =>
      rw [hread] at hexpire
      cases hexpire
  | some millis =>
      rw [hread] at hexpire
      exact hholds.expireAfter hexpire

theorem HoldsOnly.expireSeconds {kind : KeyType} (hholds : space.HoldsOnly kind name)
    {seconds? : Option Int} {answer : Bool}
    (hexpire : space.expireSeconds now name seconds? = .ok (answer, first)) :
    first.HoldsOnly kind name := by
  unfold KeySpace.expireSeconds at hexpire
  cases seconds? with
  | none => cases hexpire
  | some seconds => exact hholds.expireAfter hexpire

/-! ## Two key spaces side by side -/

/-- Two key spaces, each changed under one name only, that hold the same under the two names
afterwards. -/
structure Parallel (first second : KeySpace α) (name other : String)
    (left right : KeySpace α) : Prop where
  held_eq : left.table.get? name = right.table.get? other
  left_eq : ∀ third, third ≠ name → left.table.get? third = first.table.get? third
  right_eq : ∀ third, third ≠ other → right.table.get? third = second.table.get? third

namespace Parallel

theorem unchanged (hsame : first.table.get? name = second.table.get? other) :
    Parallel first second name other first second :=
  ⟨hsame, fun _ _ => rfl, fun _ _ => rfl⟩

theorem insert (first second : KeySpace α) (name other : String) (entry : Entry α) :
    Parallel first second name other ⟨first.table.insert name entry⟩
      ⟨second.table.insert other entry⟩ where
  held_eq := by rw [Table.get?_insert_self, Table.get?_insert_self]
  left_eq := fun _ hne => Table.get?_insert_of_ne _ hne _
  right_eq := fun _ hne => Table.get?_insert_of_ne _ hne _

theorem erase (first second : KeySpace α) (name other : String) :
    Parallel first second name other ⟨first.table.erase name⟩ ⟨second.table.erase other⟩ where
  held_eq := by rw [Table.get?_erase_self, Table.get?_erase_self]
  left_eq := fun _ hne => Table.get?_erase_of_ne _ hne
  right_eq := fun _ hne => Table.get?_erase_of_ne _ hne

theorem write (hsame : first.table.get? name = second.table.get? other) (content : Content α) :
    Parallel first second name other (first.write name content) (second.write other content) := by
  have hexpiry : first.expiryOf? name = second.expiryOf? other := by
    rw [expiryOf?, expiryOf?, hsame]
  unfold KeySpace.write
  rw [hexpiry]
  exact insert first second name other _

theorem trans {left right left' right' : KeySpace α}
    (hbefore : Parallel first second name other left right)
    (hafter : Parallel left right name other left' right') :
    Parallel first second name other left' right' where
  held_eq := hafter.held_eq
  left_eq := fun third hne => (hafter.left_eq third hne).trans (hbefore.left_eq third hne)
  right_eq := fun third hne => (hafter.right_eq third hne).trans (hbefore.right_eq third hne)

end Parallel

/-- Outcomes of one command under a name each: both fail alike, or both give the same. -/
inductive Alike (first second : KeySpace α) (name other : String) {β : Type} :
    Except CommandError (β × KeySpace α) → Except CommandError (β × KeySpace α) → Prop
  | failed (error : CommandError) : Alike first second name other (.error error) (.error error)
  | answered (value : β) {left right : KeySpace α}
      (hparallel : Parallel first second name other left right) :
      Alike first second name other (.ok (value, left)) (.ok (value, right))

theorem increment_alike (hsame : first.table.get? name = second.table.get? other) :
    Alike first second name other (first.increment name) (second.increment other) := by
  have hcount : ∀ number : Int, Alike first second name other
      (if number = (twoTo 63 : Int) - 1 then .error .overflow
        else .ok (number + 1, first.write name (.text (Decimal.wholeText (number + 1)))))
      (if number = (twoTo 63 : Int) - 1 then .error .overflow
        else .ok (number + 1, second.write other (.text (Decimal.wholeText (number + 1))))) := by
    intro number
    split_ifs
    · exact .failed _
    · exact .answered _ (.write hsame _)
  unfold increment
  rw [hsame]
  rcases second.table.get? other with - | ⟨content, expiresAt⟩
  · exact hcount 0
  · cases content with
    | text written =>
        simp only
        cases Decimal.readCanonical? written with
        | none => exact .failed _
        | some number => exact hcount number
    | list items => exact .failed _
    | hash fields => exact .failed _

theorem expireAfter_alike (hsame : first.table.get? name = second.table.get? other)
    (now millis : Int) (command : String) :
    Alike first second name other (first.expireAfter now name millis command)
      (second.expireAfter now other millis command) := by
  unfold expireAfter
  by_cases hunfit : ¬ Decimal.FitsSigned millis ∨ ¬ Decimal.FitsSigned (now + millis)
  · rw [if_pos hunfit, if_pos hunfit]
    exact .failed _
  · rw [if_neg hunfit, if_neg hunfit, hsame]
    cases second.table.get? other with
    | none => exact .answered _ (.unchanged hsame)
    | some entry =>
        simp only
        split_ifs
        · exact .answered _ (.erase ..)
        · exact .answered _ (.insert ..)

theorem expireMillis_alike (hsame : first.table.get? name = second.table.get? other)
    (now : Int) (text : String) :
    Alike first second name other (first.expireMillis now name text)
      (second.expireMillis now other text) := by
  unfold expireMillis
  cases Decimal.readCanonical? text with
  | none => exact .failed _
  | some millis => exact expireAfter_alike hsame now millis _

theorem expireSeconds_alike (hsame : first.table.get? name = second.table.get? other)
    (now : Int) (seconds? : Option Int) :
    Alike first second name other (first.expireSeconds now name seconds?)
      (second.expireSeconds now other seconds?) := by
  unfold expireSeconds
  cases seconds? with
  | none => exact .failed _
  | some seconds => exact expireAfter_alike hsame now _ _

theorem fields_congr (hsame : first.table.get? name = second.table.get? other) :
    first.fields name = second.fields other := by
  unfold fields
  rw [hsame]

theorem millisLeft_congr (hsame : first.table.get? name = second.table.get? other) (now : Int) :
    first.millisLeft now name = second.millisLeft now other := by
  unfold millisLeft
  rw [hsame]

end KeySpace

/-! ## Scripts -/

namespace Script

open KeySpace

/-- The type of what a script keeps its state in. -/
def own : Script → KeyType
  | countCall => .text
  | takeToken => .hash

/-- The script that works beside a script. -/
def other : Script → Script
  | countCall => takeToken
  | takeToken => countCall

theorem other_other (script : Script) : script.other.other = script := by
  cases script <;> rfl

theorem own_other_ne (script : Script) : script.other.own ≠ script.own := by
  cases script <;> decide

/-- The name that a script works on. -/
def targetAt (script : Script) (space : KeySpace α) (now : Int) (key side : String) : String :=
  target (space.live now) script.own key side

theorem targetAt_eq_or (script : Script) (space : KeySpace α) (now : Int) (key side : String) :
    script.targetAt space now key side = key ∨ script.targetAt space now key side = side := by
  unfold targetAt target
  split
  · exact Or.inr rfl
  · exact Or.inl rfl

theorem targetAt_of_side {script : Script} {space : KeySpace α} {now : Int} {key side : String}
    (hside : space.entryAt now side ≠ none) : script.targetAt space now key side = side := by
  have hcontains : (space.live now).contains side = true := by
    obtain ⟨entry, hentry⟩ := Option.ne_none_iff_exists'.mp hside
    exact contains_eq_true_iff.mpr ⟨entry, hentry⟩
  unfold targetAt target
  rw [if_pos (Or.inl hcontains)]

theorem targetAt_of_foreign {script : Script} {space : KeySpace α} {now : Int}
    {key side : String} (hkey : space.entryAt now key ≠ none)
    (hforeign : (space.live now).typeOf key ≠ script.own) :
    script.targetAt space now key side = side := by
  unfold targetAt target
  rw [if_pos (Or.inr ⟨fun hmissing => hkey (typeOf_eq_missing_iff.mp hmissing), hforeign⟩)]

theorem targetAt_of_own {script : Script} {space : KeySpace α} {now : Int} {key side : String}
    (hkey : (space.live now).HoldsOnly script.own key) (hside : space.entryAt now side = none) :
    script.targetAt space now key side = key := by
  have hcontains : (space.live now).contains side = false := contains_eq_false_iff.mpr hside
  have howns : ¬ ((space.live now).typeOf key ≠ .missing ∧
      (space.live now).typeOf key ≠ script.own) :=
    fun hforeign => hkey.elim hforeign.1 hforeign.2
  unfold targetAt target
  rw [if_neg (not_or.mpr ⟨by simp [hcontains], howns⟩)]

theorem targetAt_of_missing {script : Script} {space : KeySpace α} {now : Int}
    {key side : String} (hkey : space.entryAt now key = none)
    (hside : space.entryAt now side = none) : script.targetAt space now key side = key :=
  targetAt_of_own (Or.inl (typeOf_eq_missing_iff.mpr hkey)) hside

/-- A script that finds the same finds its target in the same place. -/
theorem targetAt_congr (script : Script) {first second : KeySpace α} {now : Int}
    {key side : String} (hkey : first.entryAt now key = second.entryAt now key)
    (hside : first.entryAt now side = second.entryAt now side) :
    script.targetAt first now key side = script.targetAt second now key side := by
  unfold targetAt target
  rw [contains_congr hside, typeOf_congr hkey]

/-- Two runs that answer alike, side by side. -/
structure RunsAlike (first second : KeySpace α) (name other : String)
    (left right : ScriptRun α) : Prop where
  outcome_eq : left.outcome = right.outcome
  parallel : Parallel first second name other left.space right.space

/-- Side by side under the same name, two runs keep equal what was equal under another. -/
theorem RunsAlike.entryAt_eq {first second : KeySpace α} {now : Int}
    {name other : String} {left right : ScriptRun α}
    (halike : RunsAlike (first.live now) (second.live now) name name left right)
    (hsame : first.entryAt now other = second.entryAt now other) :
    left.space.entryAt now other = right.space.entryAt now other := by
  rw [entryAt_eq_filter, entryAt_eq_filter]
  by_cases hother : other = name
  · rw [hother, halike.parallel.held_eq]
  · rw [halike.parallel.left_eq other hother, halike.parallel.right_eq other hother]
    exact congrArg (Option.filter (isLive now)) hsame

variable [Quantity α]

/-! ### The four endings of counting a call -/

section

variable {space counted left : KeySpace α} {now number : Int} {key side window : String}
  {error : CommandError} {answer : Bool}

theorem count_of_refused
    (hincrement : (space.live now).increment (countCall.targetAt space now key side) =
      .error error) :
    count space now key side window = ⟨.error error, space.live now⟩ := by
  unfold targetAt own at hincrement
  unfold count
  simp only [hincrement]

theorem count_of_unexpirable
    (hincrement : (space.live now).increment (countCall.targetAt space now key side) =
      .ok (1, counted))
    (hexpire : counted.expireMillis now (countCall.targetAt space now key side) window =
      .error error) :
    count space now key side window = ⟨.error error, counted⟩ := by
  unfold targetAt own at hincrement hexpire
  unfold count
  simp only [hincrement, hexpire, if_true, Except.map]

theorem count_of_begun
    (hincrement : (space.live now).increment (countCall.targetAt space now key side) =
      .ok (1, counted))
    (hexpire : counted.expireMillis now (countCall.targetAt space now key side) window =
      .ok (answer, left)) :
    count space now key side window =
      ⟨.ok (.array [.integer (throughQuantity α 1), .integer (throughQuantity α
        (left.millisLeft now (countCall.targetAt space now key side)))]), left⟩ := by
  unfold targetAt own at hincrement hexpire ⊢
  unfold count
  simp only [hincrement, hexpire, if_true, Except.map]

theorem count_of_counted
    (hincrement : (space.live now).increment (countCall.targetAt space now key side) =
      .ok (number, counted)) (hnumber : number ≠ 1) :
    count space now key side window =
      ⟨.ok (.array [.integer (throughQuantity α number), .integer (throughQuantity α
        (counted.millisLeft now (countCall.targetAt space now key side)))]), counted⟩ := by
  unfold targetAt own at hincrement ⊢
  unfold count
  simp only [hincrement, hnumber, if_false]

end

/-! ### The three endings of taking a token -/

section

variable {space left : KeySpace α} {now : Int} {key side : String} {rate burst reading : α}
  {fields : Table String (Field α)} {error : CommandError} {answer : Bool}

theorem take_of_refused
    (hfields : (space.live now).fields (takeToken.targetAt space now key side) = .error error) :
    take space now key side rate burst reading = ⟨.error error, space.live now⟩ := by
  unfold targetAt own at hfields
  unfold take
  simp only [hfields]

theorem take_of_unexpirable
    (hfields : (space.live now).fields (takeToken.targetAt space now key side) = .ok fields)
    (hexpire : ((space.live now).write (takeToken.targetAt space now key side)
        (.hash (takenFields fields (takeFrom (held? fields) rate burst reading).remaining
          reading))).expireSeconds now (takeToken.targetAt space now key side)
        (argument? (lifetime rate burst)) = .error error) :
    take space now key side rate burst reading =
      ⟨.error error, (space.live now).write (takeToken.targetAt space now key side)
        (.hash (takenFields fields (takeFrom (held? fields) rate burst reading).remaining
          reading))⟩ := by
  unfold targetAt own at hfields hexpire ⊢
  rw [take_of_fields hfields]
  simp only [hexpire]

theorem take_of_answered
    (hfields : (space.live now).fields (takeToken.targetAt space now key side) = .ok fields)
    (hexpire : ((space.live now).write (takeToken.targetAt space now key side)
        (.hash (takenFields fields (takeFrom (held? fields) rate burst reading).remaining
          reading))).expireSeconds now (takeToken.targetAt space now key side)
        (argument? (lifetime rate burst)) = .ok (answer, left)) :
    take space now key side rate burst reading =
      ⟨.ok (.array
        [.integer (if (takeFrom (held? fields) rate burst reading).allowed then 1 else 0),
        .ofText (Quantity.scriptText (takeFrom (held? fields) rate burst reading).remaining)]),
        left⟩ := by
  unfold targetAt own at hfields hexpire
  rw [take_of_fields hfields]
  simp only [hexpire]

end

/-! ### Two runs side by side -/

variable {first second : KeySpace α} {now : Int} {key side key' side' : String}

theorem count_alike (hsame : first.entryAt now (countCall.targetAt first now key side) =
      second.entryAt now (countCall.targetAt second now key' side')) (window : String) :
    RunsAlike (first.live now) (second.live now) (countCall.targetAt first now key side)
      (countCall.targetAt second now key' side') (count first now key side window)
      (count second now key' side' window) := by
  have hincrement := increment_alike hsame
  generalize hleft : (first.live now).increment (countCall.targetAt first now key side) = outcome
    at hincrement
  generalize hright : (second.live now).increment (countCall.targetAt second now key' side') =
    outcome' at hincrement
  cases hincrement with
  | failed error =>
      rw [count_of_refused hleft, count_of_refused hright]
      exact ⟨rfl, .unchanged hsame⟩
  | @answered number left right hcounted =>
      -- The expiry is set by the call that begins a window, and by no other.
      by_cases hnumber : number = 1
      · subst hnumber
        have hexpire := expireMillis_alike hcounted.held_eq now window
        generalize hexpireLeft : left.expireMillis now _ window = expired at hexpire
        generalize hexpireRight : right.expireMillis now _ window = expired' at hexpire
        cases hexpire with
        | failed error =>
            rw [count_of_unexpirable hleft hexpireLeft, count_of_unexpirable hright hexpireRight]
            exact ⟨rfl, hcounted⟩
        | answered answer hexpired =>
            rw [count_of_begun hleft hexpireLeft, count_of_begun hright hexpireRight,
              millisLeft_congr hexpired.held_eq]
            exact ⟨rfl, hcounted.trans hexpired⟩
      · rw [count_of_counted hleft hnumber, count_of_counted hright hnumber,
          millisLeft_congr hcounted.held_eq]
        exact ⟨rfl, hcounted⟩

theorem take_alike (hsame : first.entryAt now (takeToken.targetAt first now key side) =
      second.entryAt now (takeToken.targetAt second now key' side')) (rate burst reading : α) :
    RunsAlike (first.live now) (second.live now) (takeToken.targetAt first now key side)
      (takeToken.targetAt second now key' side') (take first now key side rate burst reading)
      (take second now key' side' rate burst reading) := by
  have hfields : (first.live now).fields (takeToken.targetAt first now key side) =
      (second.live now).fields (takeToken.targetAt second now key' side') := fields_congr hsame
  cases hright : (second.live now).fields (takeToken.targetAt second now key' side') with
  | error error =>
      rw [take_of_refused (hfields.trans hright), take_of_refused hright]
      exact ⟨rfl, .unchanged hsame⟩
  | ok fields =>
      -- Both sides compute from the same fields, so they write the same hash and set the same
      -- expiry.
      have hleft := hfields.trans hright
      have hwrite := Parallel.write hsame
        (.hash (takenFields fields (takeFrom (held? fields) rate burst reading).remaining reading))
      have hexpire := expireSeconds_alike hwrite.held_eq now (argument? (lifetime rate burst))
      generalize hexpireLeft : KeySpace.expireSeconds ((first.live now).write _ _) _ _ _ = expired
        at hexpire
      generalize hexpireRight : KeySpace.expireSeconds ((second.live now).write _ _) _ _ _ =
        expired' at hexpire
      cases hexpire with
      | failed error =>
          rw [take_of_unexpirable hleft hexpireLeft, take_of_unexpirable hright hexpireRight]
          exact ⟨rfl, hwrite⟩
      | answered answer hexpired =>
          rw [take_of_answered hleft hexpireLeft, take_of_answered hright hexpireRight]
          exact ⟨rfl, hwrite.trans hexpired⟩

/-! ### Both scripts -/

/-- With the arguments that it is given, a script counts a call, or takes a token, or cannot
read them. -/
theorem run_cases (script : Script) (arguments : List String) :
    (∀ (space : KeySpace α) (now : Int) (key side : String),
      script.run space now [key, side] arguments = ⟨.error .notNumber, space.live now⟩) ∨
    (script = countCall ∧ ∃ window, ∀ (space : KeySpace α) (now : Int) (key side : String),
      script.run space now [key, side] arguments = count space now key side window) ∨
    (script = takeToken ∧ ∃ rate burst reading, ∀ (space : KeySpace α) (now : Int)
        (key side : String),
      script.run space now [key, side] arguments =
        take space now key side rate burst reading) := by
  cases script with
  | countCall =>
      match arguments with
      | [window] => exact Or.inr (Or.inl ⟨rfl, window, fun _ _ _ _ => rfl⟩)
      | [] => exact Or.inl fun _ _ _ _ => rfl
      | _ :: _ :: _ => exact Or.inl fun _ _ _ _ => rfl
  | takeToken =>
      match arguments with
      | [rate, burst, reading] =>
          cases hrate : (Quantity.scriptRead? rate : Option α) with
          | none => exact Or.inl fun _ _ _ _ => by simp only [run, hrate]
          | some readRate =>
              cases hburst : (Quantity.scriptRead? burst : Option α) with
              | none => exact Or.inl fun _ _ _ _ => by simp only [run, hrate, hburst]
              | some readBurst =>
                  cases hreading : (Quantity.scriptRead? reading : Option α) with
                  | none => exact Or.inl fun _ _ _ _ => by simp only [run, hrate, hburst, hreading]
                  | some read =>
                      exact Or.inr (Or.inr ⟨rfl, readRate, readBurst, read, fun _ _ _ _ => by
                        simp only [run, hrate, hburst, hreading]⟩)
      | [] => exact Or.inl fun _ _ _ _ => rfl
      | [_] => exact Or.inl fun _ _ _ _ => rfl
      | [_, _] => exact Or.inl fun _ _ _ _ => rfl
      | _ :: _ :: _ :: _ :: _ => exact Or.inl fun _ _ _ _ => rfl

/-- **A script works on its target.** -/
theorem run_alike (script : Script) (arguments : List String)
    (hsame : first.entryAt now (script.targetAt first now key side) =
      second.entryAt now (script.targetAt second now key' side')) :
    RunsAlike (first.live now) (second.live now) (script.targetAt first now key side)
      (script.targetAt second now key' side') (script.run first now [key, side] arguments)
      (script.run second now [key', side'] arguments) := by
  rcases script.run_cases (α := α) arguments with
    hunread | ⟨rfl, window, hcount⟩ | ⟨rfl, rate, burst, reading, htake⟩
  · rw [hunread, hunread]
    exact ⟨rfl, .unchanged hsame⟩
  · rw [hcount, hcount]
    exact count_alike hsame window
  · rw [htake, htake]
    exact take_alike hsame rate burst reading

/-- A script leaves every name but its target alone. -/
theorem get?_run_of_ne (script : Script) (arguments : List String) (space : KeySpace α)
    {name : String} (hother : name ≠ script.targetAt space now key side) :
    (script.run space now [key, side] arguments).space.table.get? name =
      space.entryAt now name :=
  (script.run_alike arguments (rfl : space.entryAt now (script.targetAt space now key side) = _)
    ).parallel.left_eq name hother

theorem holdsOnly_count {space : KeySpace α} (window : String)
    (hbefore : (space.live now).HoldsOnly .text (countCall.targetAt space now key side)) :
    (count space now key side window).space.HoldsOnly .text
      (countCall.targetAt space now key side) := by
  cases hincrement : (space.live now).increment (countCall.targetAt space now key side) with
  | error error =>
      rw [count_of_refused hincrement]
      exact hbefore
  | ok result =>
      obtain ⟨number, counted⟩ := result
      have hcounted : counted.HoldsOnly .text (countCall.targetAt space now key side) := by
        rw [eq_write_of_increment hincrement]
        exact Or.inr (typeOf_write ..)
      by_cases hnumber : number = 1
      · subst hnumber
        cases hexpire : counted.expireMillis now (countCall.targetAt space now key side) window with
        | error error =>
            rw [count_of_unexpirable hincrement hexpire]
            exact hcounted
        | ok result =>
            rw [count_of_begun hincrement hexpire]
            exact hcounted.expireMillis hexpire
      · rw [count_of_counted hincrement hnumber]
        exact hcounted

theorem holdsOnly_take {space : KeySpace α} (rate burst reading : α)
    (hbefore : (space.live now).HoldsOnly .hash (takeToken.targetAt space now key side)) :
    (take space now key side rate burst reading).space.HoldsOnly .hash
      (takeToken.targetAt space now key side) := by
  cases hfields : (space.live now).fields (takeToken.targetAt space now key side) with
  | error error =>
      rw [take_of_refused hfields]
      exact hbefore
  | ok fields =>
      have hwritten : ((space.live now).write (takeToken.targetAt space now key side)
          (.hash (takenFields fields (takeFrom (held? fields) rate burst reading).remaining
            reading))).HoldsOnly .hash (takeToken.targetAt space now key side) :=
        Or.inr (typeOf_write ..)
      cases hexpire : KeySpace.expireSeconds ((space.live now).write _ (.hash (takenFields fields
          (takeFrom (held? fields) rate burst reading).remaining reading))) now
          (takeToken.targetAt space now key side) (argument? (lifetime rate burst)) with
      | error error =>
          rw [take_of_unexpirable hfields hexpire]
          exact hwritten
      | ok result =>
          rw [take_of_answered hfields hexpire]
          exact hwritten.expireSeconds hexpire

/-- A target that holds nothing of a foreign type never comes to hold any. -/
theorem holdsOnly_run (script : Script) (arguments : List String) {space : KeySpace α}
    (hbefore : (space.live now).HoldsOnly script.own (script.targetAt space now key side)) :
    (script.run space now [key, side] arguments).space.HoldsOnly script.own
      (script.targetAt space now key side) := by
  rcases script.run_cases (α := α) arguments with
    hunread | ⟨rfl, window, hcount⟩ | ⟨rfl, rate, burst, reading, htake⟩
  · rw [hunread]
    exact hbefore
  · rw [hcount]
    exact holdsOnly_count window hbefore
  · rw [htake]
    exact holdsOnly_take rate burst reading hbefore

/-- A script that answers does not answer with an error. -/
theorem firstError?_of_run (script : Script) (arguments : List String) {space : KeySpace α}
    {reply : Reply} (hanswered : (script.run space now [key, side] arguments).outcome = .ok reply) :
    reply.firstError? = none := by
  rcases script.run_cases (α := α) arguments with
    hunread | ⟨rfl, window, hcount⟩ | ⟨rfl, rate, burst, reading, htake⟩
  · rw [hunread] at hanswered
    cases hanswered
  · rw [hcount] at hanswered
    unfold count at hanswered
    simp only at hanswered
    split at hanswered
    · cases hanswered
    · split at hanswered
      · cases hanswered
      · cases hanswered
        rfl
  · rw [htake] at hanswered
    unfold take at hanswered
    simp only at hanswered
    split at hanswered
    · cases hanswered
    · split at hanswered
      · cases hanswered
      · split at hanswered
        · cases hanswered
        · cases hanswered
          rfl

end Script

end Throttle
