import Throttle.KeySpace.Script
import Throttle.Proofs.Numeric.Texts

/-!
# Token counts in a script

A script counts tokens in `Binary64`, from numbers that its callers send as texts.  Whatever the
clock readings are, what it counts stays a token count (`IsCount`): it is finite, not negative and
not beyond `2 ^ 64`.  The refill may overflow, but then it is cut down to the capacity; and it has
no undefined value, since the rate is positive and only time that has passed is multiplied by it.
-/

namespace Throttle

namespace Binary64

/-- A finite number that is not negative and not beyond `2 ^ 64`. -/
def IsCount (number : Binary64) : Prop :=
  ∃ magnitude : Fin finiteMagnitudes,
    number = finite false magnitude ∧ units magnitude ≤ twoTo 64 * unitsInOne

/-- A number that is not negative, or beyond every finite one. -/
def IsUpward (number : Binary64) : Prop :=
  (∃ magnitude, number = finite false magnitude) ∨ number = infinite false

theorem isUpward_ofQuotient (numerator denominator : Nat) :
    IsUpward (ofQuotient false numerator denominator) :=
  ofQuotient_cases false numerator denominator

/-! ## Order -/

theorem finite_le_finite_iff {first second : Fin finiteMagnitudes} :
    finite false first ≤ finite false second ↔ first ≤ second := by
  constructor
  · rintro ⟨_, ⟨⟩, _, ⟨⟩, hle⟩
    exact Int.ofNat_le.mp hle
  · intro hle
    exact ⟨_, rfl, _, rfl, Int.ofNat_le.mpr hle⟩

/-- Among the numbers that are not negative the order is total. -/
theorem IsUpward.le_of_not_lt {first second : Binary64} (hfirst : first.IsUpward)
    (hsecond : second.IsUpward) (hnot : ¬ first < second) : second ≤ first := by
  have hplace : ∀ {number : Binary64}, number.IsUpward → ∃ place, place ∈ number.place? := by
    rintro number (⟨magnitude, rfl⟩ | rfl)
    · exact ⟨_, rfl⟩
    · exact ⟨_, rfl⟩
  obtain ⟨left, hleft⟩ := hplace hfirst
  obtain ⟨right, hright⟩ := hplace hsecond
  refine ⟨right, hright, left, hleft, ?_⟩
  by_contra! hless
  exact hnot ⟨left, hleft, right, hright, hless⟩

theorem IsCount.isUpward {number : Binary64} (hcount : number.IsCount) : number.IsUpward := by
  obtain ⟨magnitude, rfl, -⟩ := hcount
  exact Or.inl ⟨magnitude, rfl⟩

/-- What is not beyond a token count is one. -/
theorem IsUpward.isCount {number bound : Binary64} (hnumber : number.IsUpward)
    (hbound : bound.IsCount) (hle : number ≤ bound) : number.IsCount := by
  obtain ⟨most, rfl, hmost⟩ := hbound
  rcases hnumber with ⟨magnitude, rfl⟩ | rfl
  · have hunits := units_strictMono.monotone (finite_le_finite_iff.mp hle)
    exact ⟨magnitude, rfl, hunits.trans hmost⟩
  · obtain ⟨_, ⟨⟩, _, ⟨⟩, hbeyond⟩ := hle
    have hinside := most.isLt
    simp only [Bool.false_eq_true, if_false] at hbeyond
    omega

/-! ## Whole numbers -/

/-- The magnitude of one. -/
def one : Fin finiteMagnitudes := ⟨1023 * twoTo 52, by decide⟩

theorem units_one : units one = unitsInOne := by
  decide +kernel

theorem ofInt_one : ofInt 1 = finite false one := by
  have hunits : (1 : Int).natAbs * unitsInOne = units one * 1 := by
    rw [units_one, Int.natAbs_one, Nat.one_mul, Nat.mul_one]
  unfold ofInt
  rw [hunits]
  exact ofQuotient_units false one Nat.one_pos

theorem exists_nearest_ofInt {whole : Nat} (hwhole : whole ≤ twoTo 64) :
    ∃ nearest : Fin finiteMagnitudes, nearestMagnitude (whole * unitsInOne) 1 = nearest ∧
      ofInt whole = finite false nearest ∧ units nearest ≤ twoTo 64 * unitsInOne := by
  obtain ⟨most, hmost⟩ := exists_magnitude_of_whole (show 1 ≤ 2 * twoTo 52 by decide)
    (show 64 ≤ 970 by decide)
  rw [Nat.one_mul] at hmost
  have hle : whole * unitsInOne ≤ units most * 1 := by
    rw [hmost, Nat.mul_one]
    exact Nat.mul_le_mul_right _ hwhole
  obtain ⟨nearest, hbelow, hnearest, hfinite⟩ := ofQuotient_of_le false Nat.one_pos hle
  refine ⟨nearest, hnearest, (ofInt_natCast whole).trans hfinite, ?_⟩
  rw [← hmost]
  exact units_strictMono.monotone hbelow

/-- A whole number that fits an unsigned word is a token count. -/
theorem isCount_ofInt {whole : Nat} (hwhole : whole ≤ twoTo 64) : (ofInt whole).IsCount := by
  obtain ⟨nearest, -, hfinite, hmost⟩ := exists_nearest_ofInt hwhole
  exact ⟨nearest, hfinite, hmost⟩

theorem one_le_ofInt {whole : Nat} (hpositive : 1 ≤ whole) (hwhole : whole ≤ twoTo 64) :
    ofInt 1 ≤ ofInt whole := by
  obtain ⟨nearest, hnearest, hfinite, -⟩ := exists_nearest_ofInt hwhole
  rw [ofInt_one, hfinite, finite_le_finite_iff, Fin.le_def, ← hnearest]
  apply le_nearestMagnitude Nat.one_pos
  rw [units_one, Nat.mul_one]
  exact Nat.le_mul_of_pos_left _ hpositive

/-! ## A refill and a take -/

theorem IsCount.sub_one {number : Binary64} (hcount : number.IsCount) (hone : ofInt 1 ≤ number) :
    (number - ofInt 1).IsCount := by
  obtain ⟨magnitude, rfl, hmost⟩ := hcount
  rw [ofInt_one] at hone ⊢
  have hle : units one ≤ units magnitude :=
    units_strictMono.monotone (finite_le_finite_iff.mp hone)
  rw [finite_sub_finite hle]
  split_ifs
  · exact ⟨⟨0, by decide⟩, rfl, by rw [units_zero]; exact Nat.zero_le _⟩
  · have hbelow : units magnitude - units one ≤ units magnitude * 1 := by omega
    obtain ⟨nearest, hnearest, -, hfinite⟩ := ofQuotient_of_le false Nat.one_pos hbelow
    exact ⟨nearest, hfinite, (units_strictMono.monotone hnearest).trans hmost⟩

/-- A sum of numbers that are not negative is not negative. -/
theorem IsCount.add {number more : Binary64} (hcount : number.IsCount) (hmore : more.IsUpward) :
    (number + more).IsUpward := by
  obtain ⟨first, rfl, -⟩ := hcount
  rcases hmore with ⟨second, rfl⟩ | rfl
  · rw [finite_add_finite]
    split_ifs
    · exact Or.inl ⟨_, rfl⟩
    · exact isUpward_ofQuotient _ _
  · exact Or.inr rfl

theorem place?_ofInt_zero : (ofInt 0).place? = some 0 := by
  decide +kernel

theorem zero_le_finite (magnitude : Fin finiteMagnitudes) : ofInt 0 ≤ finite false magnitude :=
  ⟨0, place?_ofInt_zero, _, rfl, Int.natCast_nonneg magnitude.val⟩

/-- A number above zero is finite and not zero, or beyond every finite one. -/
theorem zero_lt_cases {number : Binary64} (hpositive : ofInt 0 < number) :
    (∃ magnitude : Fin finiteMagnitudes, number = finite false magnitude ∧ magnitude.val ≠ 0) ∨
      number = infinite false := by
  obtain ⟨_, hplace, place, hnumber, hless⟩ := hpositive
  obtain rfl := Option.some.inj (place?_ofInt_zero.symm.trans hplace)
  cases number with
  | nan negative => cases hnumber
  | infinite negative =>
      cases negative with
      | false => exact Or.inr rfl
      | true =>
          obtain rfl := Option.some.inj hnumber
          exact absurd hless (by decide)
  | finite negative magnitude =>
      have hsame := Option.some.inj hnumber
      cases negative with
      | false =>
          rw [if_neg Bool.false_ne_true] at hsame
          exact Or.inl ⟨magnitude, rfl, by omega⟩
      | true =>
          rw [if_pos rfl] at hsame
          omega

/-- What a rate makes of time that has passed is not negative, and not undefined. -/
theorem isUpward_mul {elapsed rate : Binary64} (helapsed : ofInt 0 < elapsed)
    (hrate : ofInt 0 < rate) (hfinite : rate.value?.isSome = true) : (elapsed * rate).IsUpward := by
  rcases zero_lt_cases hrate with ⟨slope, rfl, hslope⟩ | rfl
  · rcases zero_lt_cases helapsed with ⟨time, rfl, -⟩ | rfl
    · rw [finite_mul_finite]
      exact isUpward_ofQuotient _ _
    · have hproduct : infinite false * finite false slope =
          if slope.val = 0 then undefined else infinite false := rfl
      rw [hproduct, if_neg hslope]
      exact Or.inr rfl
  · cases hfinite

end Binary64

namespace Script

open Binary64

variable {rate burst reading : Binary64}

/-- Refilling leaves a token count, whatever the reading is. -/
theorem isCount_refilled {held : Held Binary64} (htokens : held.tokens.IsCount)
    (hrate : Quantity.ofInt 0 < rate) (hfinite : Quantity.isFinite rate = true)
    (hburst : burst.IsCount) : (refilled held rate burst reading).IsCount := by
  rw [quantity_ofInt] at hrate
  unfold refilled
  simp only [quantity_ofInt]
  split_ifs with hpassed hbeyond
  · exact hburst
  · have hsum := htokens.add (isUpward_mul hpassed hrate hfinite)
    exact hsum.isCount hburst (hburst.isUpward.le_of_not_lt hsum hbeyond)
  · exact htokens

/-- Taking a token leaves a token count. -/
theorem isCount_takeFrom {held? : Option (Held Binary64)}
    (htokens : ∀ held ∈ held?, held.tokens.IsCount) (hrate : Quantity.ofInt 0 < rate)
    (hfinite : Quantity.isFinite rate = true) (hburst : burst.IsCount)
    (hone : Quantity.ofInt 1 ≤ burst) : (takeFrom held? rate burst reading).remaining.IsCount := by
  rw [quantity_ofInt] at hone
  unfold takeFrom
  cases held? with
  | none =>
      change (burst - Quantity.ofInt 1).IsCount
      rw [quantity_ofInt]
      exact hburst.sub_one hone
  | some held =>
      have hrefilled : (refilled held rate burst reading).IsCount :=
        isCount_refilled (htokens held rfl) hrate hfinite hburst
      simp only [quantity_ofInt]
      generalize refilled held rate burst reading = tokens at hrefilled ⊢
      split_ifs with htake
      · exact hrefilled.sub_one htake
      · exact hrefilled

end Script

end Throttle
