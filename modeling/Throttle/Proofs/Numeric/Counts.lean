import Throttle.Proofs.Numeric.Fourteen

/-!
# Numbers as counts

A number is shown to callers as a count of whole units.  Up to `2 ^ 53` a whole number is shown as
it is (`wholeCount_ofInt`), and beyond that as what is left of it when 53 of its binary digits are
kept (`wholeCount_ofInt_word`).  A number that does not make up one is shown as none.
-/

namespace Throttle

open Binary64

namespace Binary64

/-! ## Numbers in order -/

protected theorem le_trans {first second third : Binary64} (hfirst : first ≤ second)
    (hsecond : second ≤ third) : first ≤ third := by
  obtain ⟨low, hlow, middle, hmiddle, hbelow⟩ := hfirst
  obtain ⟨_, hsame, high, hhigh, habove⟩ := hsecond
  obtain rfl := Option.some.inj (hmiddle.symm.trans hsame)
  exact ⟨low, hlow, high, hhigh, hbelow.trans habove⟩

protected theorem le_of_lt {first second : Binary64} (hless : first < second) :
    first ≤ second := by
  obtain ⟨low, hlow, high, hhigh, hbelow⟩ := hless
  exact ⟨low, hlow, high, hhigh, hbelow.le⟩

theorem zero_lt_of_one_le {number : Binary64} (hone : ofInt 1 ≤ number) : ofInt 0 < number := by
  rw [ofInt_one] at hone
  obtain ⟨_, ⟨⟩, place, hplace, hle⟩ := hone
  have hpositive : (0 : Int) < one.val := by decide
  exact ⟨0, place?_ofInt_zero, place, hplace, hpositive.trans_le hle⟩

/-- Between one and a token count lie token counts only. -/
theorem isCount_of_not_lt {number bound : Binary64} (hbound : bound.IsCount)
    (hone : ofInt 1 ≤ number) (hnot : ¬ bound < number) : number.IsCount := by
  have hupward : number.IsUpward := by
    rcases zero_lt_cases (zero_lt_of_one_le hone) with ⟨magnitude, rfl, -⟩ | rfl
    · exact Or.inl ⟨magnitude, rfl⟩
    · exact Or.inr rfl
  exact hupward.isCount hbound (hbound.isUpward.le_of_not_lt hupward hnot)

theorem one_le_of_lt {number bound : Binary64} (hone : ofInt 1 ≤ bound) (hless : bound < number) :
    ofInt 1 ≤ number := by
  obtain ⟨first, hfirst, second, hsecond, hle⟩ := hone
  obtain ⟨middle, hmiddle, last, hlast, hlt⟩ := hless
  obtain rfl := Option.some.inj (hsecond.symm.trans hmiddle)
  exact ⟨first, hfirst, last, hlast, by omega⟩

/-! ## Counts of whole units -/

theorem wholeCount_of_value? {number : Binary64} {value : Rat}
    (hvalue : number.value? = some value) :
    Quantity.wholeCount number = min value.floor.toNat Quantity.largestCount := by
  unfold Quantity.wholeCount
  rw [quantity_value?, hvalue]

theorem wholeCount_ofInt (whole : Nat) (hsize : whole ≤ twoTo 53) :
    Quantity.wholeCount (ofInt whole) = whole := by
  have hsigned : (whole : Int).natAbs ≤ twoTo 53 := hsize
  have hword : whole ≤ Quantity.largestCount := hsize.trans (by decide)
  rw [wholeCount_of_value? (value?_ofInt hsigned), Rat.floor_intCast, Int.toNat_natCast,
    Nat.min_eq_left hword]

theorem wholeCount_of_not_one_le {number : Binary64} (hshort : ¬ ofInt 1 ≤ number) :
    Quantity.wholeCount number = 0 := by
  cases number with
  | nan negative => rfl
  | infinite negative => rfl
  | finite negative magnitude =>
      have hless : (if negative then -exact magnitude else exact magnitude) < 1 := by
        cases negative with
        | true =>
            rw [if_pos rfl]
            exact (neg_nonpos.mpr (exact_nonneg magnitude)).trans_lt one_pos
        | false =>
            rw [if_neg Bool.false_ne_true]
            exact exact_lt_one_iff.mpr hshort
      have hfloor : (if negative then -exact magnitude else exact magnitude).floor ≤ 0 :=
        Int.le_of_lt_add_one (Int.floor_lt.mpr (by exact_mod_cast hless))
      rw [wholeCount_of_value? (value?_finite negative magnitude), Int.toNat_of_nonpos hfloor,
        Nat.zero_min]

/-- The count that a number without a sign shows: its whole units. -/
theorem wholeCount_finite (magnitude : Fin finiteMagnitudes) :
    Quantity.wholeCount (finite false magnitude) =
      min (units magnitude / unitsInOne) Quantity.largestCount := by
  have hquotient : ∀ number one : Nat, ((number : Rat) / one).floor = (number / one : Nat) := by
    intro number one
    rw [Int.natCast_div]
    exact Rat.floor_natCast_div_natCast number one
  have hfloor : (exact magnitude).floor = (units magnitude / unitsInOne : Nat) :=
    hquotient (units magnitude) unitsInOne
  rw [wholeCount_of_value? (value?_finite false magnitude), if_neg Bool.false_ne_true, hfloor,
    Int.toNat_natCast]

end Binary64

/-! ## Whole numbers of more than 53 digits -/

/-- The whole number that is left of a whole number when 53 of its binary digits are kept: the
nearest one, and halfway the one whose last digit is even. -/
def nearestWhole (whole : Nat) : Nat :=
  let scale := whole.log2 - 52
  roundHalfEven whole (twoTo scale) * twoTo scale

theorem log2_mul_twoTo {whole : Nat} (hpositive : whole ≠ 0) (exponent : Nat) :
    (whole * twoTo exponent).log2 = whole.log2 + exponent := by
  have hscaled : whole * twoTo exponent ≠ 0 :=
    Nat.mul_ne_zero hpositive (twoTo_pos exponent).ne'
  refine (Nat.log2_eq_iff hscaled).mpr ⟨?_, ?_⟩
  · rw [Nat.pow_add]
    exact Nat.mul_le_mul_right _ (Nat.log2_self_le hpositive)
  · rw [Nat.add_right_comm, Nat.pow_add]
    exact Nat.mul_lt_mul_of_pos_right Nat.lt_log2_self (twoTo_pos exponent)

/-- With all of 53 digits or more, what is kept of a number has 53 digits. -/
theorem roundHalfEven_bounds {whole : Nat} (hlong : 52 ≤ whole.log2) :
    twoTo 52 ≤ roundHalfEven whole (twoTo (whole.log2 - 52)) ∧
      roundHalfEven whole (twoTo (whole.log2 - 52)) ≤ 2 * twoTo 52 := by
  have hpositive : whole ≠ 0 := by
    rintro rfl
    exact absurd hlong (by decide)
  have hlow : twoTo 52 * twoTo (whole.log2 - 52) ≤ whole := by
    rw [← twoTo_add, Nat.add_sub_cancel' hlong]
    exact Nat.log2_self_le hpositive
  have hhigh : whole < 2 * twoTo 52 * twoTo (whole.log2 - 52) := by
    rw [← twoTo_succ, ← twoTo_add, show 52 + 1 + (whole.log2 - 52) = whole.log2 + 1 by omega]
    exact Nat.lt_log2_self
  have hleast := (Nat.le_div_iff_mul_le (twoTo_pos _)).mpr hlow
  have hmost := (Nat.div_lt_iff_lt_mul (twoTo_pos _)).mpr hhigh
  rcases roundHalfEven_eq_or whole (twoTo (whole.log2 - 52)) with hround | hround <;> omega

theorem nearestWhole_of_log2_le {whole : Nat} (hshort : whole.log2 ≤ 52) :
    nearestWhole whole = whole := by
  unfold nearestWhole
  rw [Nat.sub_eq_zero_of_le hshort]
  have hround := roundHalfEven_mul_self whole 1 Nat.one_pos
  rw [Nat.mul_one] at hround
  exact (Nat.mul_one _).trans hround

namespace Binary64

/-- A whole number is rounded to the one that 53 of its digits make. -/
theorem units_nearestMagnitude {whole : Nat} (hpositive : whole ≠ 0) :
    units (nearestMagnitude (whole * unitsInOne) 1) = nearestWhole whole * unitsInOne := by
  rcases Nat.lt_or_ge whole.log2 52 with hshort | hlong
  · have hfits : whole ≤ 2 * twoTo 52 :=
      Nat.le_of_lt (Nat.lt_of_lt_of_le Nat.lt_log2_self
        (twoTo_le_twoTo (Nat.succ_le_succ hshort.le)))
    obtain ⟨magnitude, hunits⟩ := exists_magnitude_of_whole hfits (Nat.zero_le 970)
    rw [show twoTo 0 = 1 from rfl, Nat.mul_one] at hunits
    have hnearest := nearestMagnitude_units magnitude Nat.one_pos
    rw [hunits, Nat.mul_one] at hnearest
    rw [hnearest, hunits, nearestWhole_of_log2_le hshort.le]
  · obtain ⟨hleast, hmost⟩ := roundHalfEven_bounds hlong
    have hscale : (whole * unitsInOne / 1).log2 - 52 = whole.log2 - 52 + 1074 := by
      rw [Nat.div_one, unitsInOne, log2_mul_twoTo hpositive]
      omega
    have hround : roundHalfEven (whole * unitsInOne) (1 * twoTo (whole.log2 - 52 + 1074)) =
        roundHalfEven whole (twoTo (whole.log2 - 52)) := by
      rw [Nat.one_mul, twoTo_add, Nat.mul_comm whole, Nat.mul_comm (twoTo _)]
      exact roundHalfEven_mul_mul _ _ unitsInOne_pos
    unfold nearestMagnitude
    simp only [hscale, hround]
    rw [units_of_scale hmost (Or.inr hleast), twoTo_add, ← Nat.mul_assoc, nearestWhole, unitsInOne]

theorem wholeCount_ofInt_word {whole : Nat} (hpositive : whole ≠ 0) (hword : whole ≤ twoTo 64) :
    Quantity.wholeCount (ofInt whole) = min (nearestWhole whole) Quantity.largestCount := by
  obtain ⟨nearest, hnearest, hfinite, -⟩ := exists_nearest_ofInt hword
  rw [hfinite, wholeCount_finite, ← hnearest, units_nearestMagnitude hpositive,
    Nat.mul_div_cancel _ unitsInOne_pos]

end Binary64

end Throttle
