import Mathlib
import Throttle.Remote

/-!
# What the stores leave on a server

The two scripts write counters, which have counted one call at least, and buckets, which have
both of their fields.  No other content comes from them, whatever fails and whenever
(`Reached.stored`).  This settles what the commands of a script can meet: an increment finds
no counter and answers one, or finds one and answers more, or is refused
(`Stored.increment_cases`).

Each command is described here by all that it can do, so that nothing later unfolds one.
-/

namespace Throttle

variable {α : Type}

/-! ## Contents -/

/-- What the scripts of a store write. -/
inductive Content.Stored : Content α → Prop
  /-- A counter that has counted. -/
  | counter {count : Int} (hcount : 1 ≤ count) (hfits : Decimal.FitsSigned count) :
      Stored (.text (Decimal.wholeText count))
  /-- A bucket. -/
  | bucket {fields : Table String (Field α)} {tokens lastUsed : α}
      (htokens : fields.get? "tokens" = some (.number tokens))
      (hlastUsed : fields.get? "last_updated" = some (.number lastUsed)) : Stored (.hash fields)

namespace KeySpace

/-- Whether a number of milliseconds can be set as an expiry. -/
def ExpiryFits (now millis : Int) : Prop :=
  Decimal.FitsSigned millis ∧ Decimal.FitsSigned (now + millis)

instance (now millis : Int) : Decidable (ExpiryFits now millis) :=
  inferInstanceAs (Decidable (_ ∧ _))

/-- A key space that holds nothing but what the scripts write. -/
def Stored (space : KeySpace α) : Prop :=
  ∀ key entry, space.table.get? key = some entry → entry.content.Stored

variable {space : KeySpace α}

theorem get?_live (space : KeySpace α) (now : Int) (key : String) :
    (space.live now).table.get? key = (space.table.get? key).filter (isLive now) :=
  Table.get?_filter _ _ _

theorem contains_eq_false_iff {key : String} :
    space.contains key = false ↔ space.table.get? key = none := by
  simp [contains]

theorem contains_eq_true_iff {key : String} :
    space.contains key = true ↔ ∃ entry, space.table.get? key = some entry :=
  Option.isSome_iff_exists

theorem get?_write_self (space : KeySpace α) (key : String) (content : Content α) :
    (space.write key content).table.get? key = some ⟨content, space.expiryOf? key⟩ :=
  Table.get?_insert_self _ _ _

namespace Stored

theorem empty : (KeySpace.empty : KeySpace α).Stored := by
  intro key entry hget
  cases hget

theorem live (hstored : space.Stored) (now : Int) : (space.live now).Stored := by
  intro key entry hget
  rw [get?_live, Option.filter_eq_some_iff] at hget
  exact hstored key entry hget.1

theorem insert (hstored : space.Stored) (key : String) {entry : Entry α}
    (hcontent : entry.content.Stored) : (⟨space.table.insert key entry⟩ : KeySpace α).Stored := by
  intro other held hget
  by_cases hkey : other = key
  · subst hkey
    rw [Table.get?_insert_self] at hget
    exact Option.some.inj hget ▸ hcontent
  · rw [Table.get?_insert_of_ne _ hkey] at hget
    exact hstored other held hget

theorem erase (hstored : space.Stored) (key : String) :
    (⟨space.table.erase key⟩ : KeySpace α).Stored := by
  intro other held hget
  by_cases hkey : other = key
  · subst hkey
    rw [Table.get?_erase_self] at hget
    cases hget
  · rw [Table.get?_erase_of_ne _ hkey] at hget
    exact hstored other held hget

theorem write (hstored : space.Stored) (key : String) {content : Content α}
    (hcontent : content.Stored) : (space.write key content).Stored :=
  hstored.insert key hcontent

end Stored

/-! ## Commands -/

/-- Setting an expiry fails if and only if it cannot be represented. -/
theorem expireAfter_cases (space : KeySpace α) (now : Int) (key : String) (millis : Int)
    (command : String) :
    (¬ ExpiryFits now millis ∧
      space.expireAfter now key millis command = .error (.invalidExpiry command)) ∨
    (ExpiryFits now millis ∧ ∃ answer left,
      space.expireAfter now key millis command = .ok (answer, left) ∧
      (space.Stored → left.Stored)) := by
  by_cases hfits : ExpiryFits now millis
  · refine Or.inr ⟨hfits, ?_⟩
    have hpasses : ¬ (¬ Decimal.FitsSigned millis ∨ ¬ Decimal.FitsSigned (now + millis)) :=
      fun hunfit => hunfit.elim (· hfits.1) (· hfits.2)
    rw [expireAfter, if_neg hpasses]
    cases hget : space.table.get? key with
    | none => exact ⟨false, space, rfl, id⟩
    | some entry =>
        simp only
        split_ifs
        · exact ⟨true, _, rfl, fun hstored => hstored.erase key⟩
        · exact ⟨true, _, rfl, fun hstored => hstored.insert key (hstored key entry hget)⟩
  · refine Or.inl ⟨hfits, if_pos ?_⟩
    rwa [ExpiryFits, not_and_or] at hfits

theorem expireMillis_cases (space : KeySpace α) (now : Int) (key : String) (millis : Int) :
    (¬ ExpiryFits now millis ∧ ∃ error,
      space.expireMillis now key (Decimal.wholeText millis) = .error error) ∨
    (ExpiryFits now millis ∧ ∃ answer left,
      space.expireMillis now key (Decimal.wholeText millis) = .ok (answer, left) ∧
      (space.Stored → left.Stored)) := by
  by_cases hword : Decimal.FitsSigned millis
  · have hread : Decimal.readCanonical? (Decimal.wholeText millis) = some millis :=
      (Decimal.readCanonical?_eq_some_iff _ _).mpr ⟨rfl, hword⟩
    rw [expireMillis, hread]
    rcases space.expireAfter_cases now key millis "pexpire" with ⟨hunfit, herror⟩ | hset
    · exact Or.inl ⟨hunfit, _, herror⟩
    · exact Or.inr hset
  · refine Or.inl ⟨fun hfits => hword hfits.1, .notInteger, ?_⟩
    have hread : Decimal.readCanonical? (Decimal.wholeText millis) = none := by
      simp [Decimal.readCanonical?, Decimal.readWhole?_wholeText, hword]
    rw [expireMillis, hread]

/-- Whether a number of seconds, if it is one, can be set as an expiry. -/
def SecondsFit (now : Int) (seconds? : Option Int) : Prop :=
  ∃ seconds ∈ seconds?, ExpiryFits now (seconds * 1000)

theorem expireSeconds_cases (space : KeySpace α) (now : Int) (key : String)
    (seconds? : Option Int) :
    (¬ SecondsFit now seconds? ∧ ∃ error,
      space.expireSeconds now key seconds? = .error error) ∨
    (SecondsFit now seconds? ∧ ∃ answer left,
      space.expireSeconds now key seconds? = .ok (answer, left) ∧
      (space.Stored → left.Stored)) := by
  cases seconds? with
  | none => exact Or.inl ⟨by simp [SecondsFit], .notInteger, rfl⟩
  | some seconds =>
      have hiff : SecondsFit now (some seconds) ↔ ExpiryFits now (seconds * 1000) := by
        simp [SecondsFit]
      rw [hiff]
      rcases space.expireAfter_cases now key (seconds * 1000) "expire" with ⟨hunfit, herror⟩ | hset
      · exact Or.inl ⟨hunfit, _, herror⟩
      · exact Or.inr hset

/-- An increment begins a counter, or adds one to a counter, or is refused where there is
something. -/
theorem Stored.increment_cases (hstored : space.Stored) (key : String) :
    (space.contains key = false ∧
      space.increment key = .ok (1, space.write key (.text (Decimal.wholeText 1)))) ∨
    (space.contains key = true ∧ ∃ count : Int, 1 < count ∧ Decimal.FitsSigned count ∧
      space.increment key = .ok (count, space.write key (.text (Decimal.wholeText count)))) ∨
    (space.contains key = true ∧ ∃ error, space.increment key = .error error) := by
  unfold increment
  cases hget : space.table.get? key with
  | none => exact Or.inl ⟨contains_eq_false_iff.mpr hget, rfl⟩
  | some entry =>
      have hcontains := contains_eq_true_iff.mpr ⟨entry, hget⟩
      obtain ⟨content, expiresAt⟩ := entry
      cases hstored key _ hget with
      | @counter count hcount hfits =>
          have hread : Decimal.readCanonical? (Decimal.wholeText count) = some count :=
            (Decimal.readCanonical?_eq_some_iff _ _).mpr ⟨rfl, hfits⟩
          simp only [hread]
          split_ifs with hlargest
          · exact Or.inr (Or.inr ⟨hcontains, _, rfl⟩)
          · refine Or.inr (Or.inl ⟨hcontains, count + 1, by omega, ?_, rfl⟩)
            obtain ⟨hlow, hhigh⟩ := hfits
            exact ⟨by omega, by omega⟩
      | bucket => exact Or.inr (Or.inr ⟨hcontains, _, rfl⟩)

/-- What a key holds as a bucket: nothing, or a bucket, or something else. -/
theorem Stored.fields_cases (hstored : space.Stored) (key : String) :
    (space.table.get? key = none ∧ space.fields key = .ok .empty) ∨
    (∃ fields expiresAt tokens lastUsed,
      space.table.get? key = some ⟨.hash fields, expiresAt⟩ ∧ space.fields key = .ok fields ∧
      fields.get? "tokens" = some (.number tokens) ∧
      fields.get? "last_updated" = some (.number lastUsed)) ∨
    ∃ error, space.fields key = .error error := by
  cases hget : space.table.get? key with
  | none => exact Or.inl ⟨rfl, by rw [fields, hget]⟩
  | some entry =>
      obtain ⟨content, expiresAt⟩ := entry
      cases hstored key _ hget with
      | counter => exact Or.inr (Or.inr ⟨.wrongType, by rw [fields, hget]⟩)
      | bucket htokens hlastUsed =>
          exact Or.inr (Or.inl ⟨_, expiresAt, _, _, rfl, by rw [fields, hget], htokens, hlastUsed⟩)

/-- Setting fields of what is a hash, or is not there, writes them. -/
theorem setFields_of_fields {key : String} {old : Table String (Field α)}
    (hfields : space.fields key = .ok old) (changes : List (String × Field α)) :
    ∃ new, space.setFields key changes = .ok (new, space.write key
      (.hash (changes.foldl (fun table change => table.insert change.1 change.2) old))) := by
  rw [setFields, hfields]
  exact ⟨_, rfl⟩

end KeySpace

end Throttle
