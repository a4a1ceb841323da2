import Throttle.Proofs.Numeric.Nearest

/-!
# Decimal digits of a binary number

The number read from `digits * 10 ^ exponent` is the nearest one, whatever shortcuts are taken
for sizes far out of range (`ofDecimal_eq_ofQuotient`); so it depends on the value alone
(`ofDecimal_congr`).

Digits are chosen by the order of a number, the least power of ten above it (`decimalOrder_spec`).
Seventeen digits are always enough: their last place is finer than half of the gap to a
neighbour, which is more than the number divided by `2 * 10 ^ 16` (`units_lt_mul_gap`).
-/

namespace Throttle

theorem tenTo_add (first second : Nat) : tenTo (first + second) = tenTo first * tenTo second :=
  Nat.pow_add 10 first second

theorem tenTo_le_tenTo {first second : Nat} (hle : first ≤ second) : tenTo first ≤ tenTo second :=
  Nat.pow_le_pow_right (by decide) hle

theorem cast_twoTo (exponent : Nat) : (twoTo exponent : Rat) = 2 ^ exponent := by
  exact_mod_cast rfl

theorem cast_tenTo (exponent : Nat) : (tenTo exponent : Rat) = 10 ^ exponent := by
  exact_mod_cast rfl

/-- A power of ten is a quotient of two natural ones, one of which is one. -/
theorem tenTo_zpow (exponent : Int) :
    (10 : Rat) ^ exponent = tenTo exponent.toNat / tenTo (-exponent).toNat := by
  rw [cast_tenTo, cast_tenTo]
  rcases Int.le_total 0 exponent with hup | hdown
  · obtain ⟨size, rfl⟩ := Int.eq_ofNat_of_zero_le hup
    have hzero : (-(size : Int)).toNat = 0 := by omega
    rw [hzero, pow_zero, div_one, Int.toNat_natCast, zpow_natCast]
  · obtain ⟨size, hsize⟩ := Int.eq_ofNat_of_zero_le (Int.neg_nonneg_of_nonpos hdown)
    obtain rfl : exponent = -(size : Int) := by omega
    have hzero : (-(size : Int)).toNat = 0 := by omega
    rw [hzero, neg_neg, pow_zero, Int.toNat_natCast, zpow_neg, zpow_natCast, one_div]

theorem cast_tenTo_ne_zero (exponent : Nat) : (tenTo exponent : Rat) ≠ 0 :=
  Nat.cast_ne_zero.mpr (tenTo_pos exponent).ne'

namespace Binary64

/-! ## Reading a decimal -/

theorem tenTo_log2_div_le {digits : Nat} (hdigits : digits ≠ 0) :
    tenTo (digits.log2 / 4) ≤ digits := by
  calc tenTo (digits.log2 / 4)
      ≤ (2 ^ 4) ^ (digits.log2 / 4) := Nat.pow_le_pow_left (by decide) _
    _ = 2 ^ (4 * (digits.log2 / 4)) := (Nat.pow_mul ..).symm
    _ ≤ 2 ^ digits.log2 := Nat.pow_le_pow_right (by decide) (Nat.mul_div_le _ _)
    _ ≤ digits := Nat.log2_self_le hdigits

theorem lt_two_mul_tenTo_log2 (digits : Nat) : digits < 2 * tenTo digits.log2 := by
  calc digits
      < 2 ^ (digits.log2 + 1) := Nat.lt_log2_self
    _ = 2 * 2 ^ digits.log2 := by rw [Nat.pow_succ, Nat.mul_comm]
    _ ≤ 2 * tenTo digits.log2 := Nat.mul_le_mul_left 2 (Nat.pow_le_pow_left (by decide) _)

/-- A decimal is rounded once; far out of range the result is the same without computing it. -/
theorem ofDecimal_eq_ofQuotient (negative : Bool) (digits : Nat) (exponent : Int) :
    ofDecimal negative digits exponent =
      ofQuotient negative (digits * tenTo exponent.toNat * unitsInOne)
        (tenTo (-exponent).toNat) := by
  have hpositive := tenTo_pos (-exponent).toNat
  unfold ofDecimal
  simp only
  split_ifs with hzero hlarge hsmall hup
  · have hnearest : nearestMagnitude 0 (tenTo (-exponent).toNat) = 0 :=
      Nat.le_zero.mp (nearestMagnitude_le hpositive (Nat.zero_le _))
    rw [hzero, Nat.zero_mul, Nat.zero_mul]
    exact (ofQuotient_eq_finite negative hnearest).symm
  · have hbeyond : twoTo 1024 * tenTo (-exponent).toNat ≤ digits * tenTo exponent.toNat := by
      calc twoTo 1024 * tenTo (-exponent).toNat
          ≤ tenTo 311 * tenTo (-exponent).toNat := Nat.mul_le_mul_right _ (by decide +kernel)
        _ = tenTo (311 + (-exponent).toNat) := (tenTo_add ..).symm
        _ ≤ tenTo (digits.log2 / 4 + exponent.toNat) := tenTo_le_tenTo (by omega)
        _ = tenTo (digits.log2 / 4) * tenTo exponent.toNat := tenTo_add ..
        _ ≤ digits * tenTo exponent.toNat :=
          Nat.mul_le_mul_right _ (tenTo_log2_div_le hzero)
    have hnearest : finiteMagnitudes ≤ nearestMagnitude
        (digits * tenTo exponent.toNat * unitsInOne) (tenTo (-exponent).toNat) := by
      apply le_nearestMagnitude hpositive
      rw [units_finiteMagnitudes, Nat.mul_right_comm]
      exact Nat.mul_le_mul_right _ hbeyond
    unfold ofQuotient
    simp only
    rw [dif_neg (Nat.not_lt.mpr hnearest)]
  · have hone : tenTo exponent.toNat = 1 := by
      rw [show exponent.toNat = 0 by omega]
      rfl
    have hbelow : 2 * (digits * unitsInOne) < tenTo (-exponent).toNat := by
      calc 2 * (digits * unitsInOne)
          < 2 * (2 * tenTo digits.log2 * unitsInOne) := by
            have := Nat.mul_lt_mul_of_pos_right (lt_two_mul_tenTo_log2 digits) unitsInOne_pos
            omega
        _ = tenTo digits.log2 * (4 * unitsInOne) := by ring
        _ ≤ tenTo digits.log2 * tenTo 331 := Nat.mul_le_mul_left _ (by decide +kernel)
        _ = tenTo (digits.log2 + 331) := (tenTo_add ..).symm
        _ ≤ tenTo (-exponent).toNat := tenTo_le_tenTo (by omega)
    have hnearest : nearestMagnitude (digits * tenTo exponent.toNat * unitsInOne)
        (tenTo (-exponent).toNat) = 0 := by
      apply nearestMagnitude_eq_of_between hpositive
      · intro before hbefore
        cases hbefore
      · have hunits : units 0 + units (0 + 1) = 1 := by decide
        rw [hone, Nat.mul_one, hunits, Nat.one_mul]
        exact hbelow
    exact (ofQuotient_eq_finite negative hnearest).symm
  · rw [show (-exponent).toNat = 0 by omega]
    rfl
  · rw [show exponent.toNat = 0 by omega, show tenTo 0 = 1 from rfl, Nat.mul_one]

/-- A decimal is read by its value. -/
theorem ofDecimal_congr (negative : Bool) {digits otherDigits : Nat} {exponent otherExponent : Int}
    (hvalue : (digits : Rat) * 10 ^ exponent = otherDigits * 10 ^ otherExponent) :
    ofDecimal negative digits exponent = ofDecimal negative otherDigits otherExponent := by
  rw [ofDecimal_eq_ofQuotient, ofDecimal_eq_ofQuotient]
  apply ofQuotient_congr negative (tenTo_pos _) (tenTo_pos _)
  have hfirst := cast_tenTo_ne_zero (-exponent).toNat
  have hsecond := cast_tenTo_ne_zero (-otherExponent).toNat
  rw [tenTo_zpow, tenTo_zpow, mul_div_assoc', mul_div_assoc', div_eq_div_iff hfirst hsecond]
    at hvalue
  have hcross : digits * tenTo exponent.toNat * tenTo (-otherExponent).toNat =
      otherDigits * tenTo otherExponent.toNat * tenTo (-exponent).toNat := by
    exact_mod_cast hvalue
  rw [Nat.mul_right_comm, hcross, Nat.mul_right_comm]

/-- A whole number without an exponent is read as itself. -/
theorem ofDecimal_whole (whole : Nat) : ofDecimal false whole 0 = ofInt whole := by
  rw [ofDecimal_eq_ofQuotient, ofInt_natCast]
  change ofQuotient false (whole * 1 * unitsInOne) 1 = _
  rw [Nat.mul_one]

/-! ## Seventeen digits -/

/-- A number is small beside its gap to the number before. -/
theorem units_lt_mul_gap (magnitude : Nat) :
    units (magnitude + 1) + tenTo 16 * units magnitude < tenTo 16 * units (magnitude + 1) := by
  obtain ⟨scale, rest, rfl, hrest, hfull⟩ := exists_scale magnitude
  have hscale := twoTo_pos scale
  have hbits : rest + 1 < tenTo 16 := Nat.lt_of_le_of_lt hrest (by decide)
  rw [Nat.add_assoc, units_of_scale hrest.le hfull, units_of_scale (by omega) (by omega)]
  calc (rest + 1) * twoTo scale + tenTo 16 * (rest * twoTo scale)
      < tenTo 16 * twoTo scale + tenTo 16 * (rest * twoTo scale) :=
        Nat.add_lt_add_right (Nat.mul_lt_mul_of_pos_right hbits hscale) _
    _ = tenTo 16 * ((rest + 1) * twoTo scale) := by ring

theorem exact_lt_mul_gap (magnitude : Nat) :
    exact (magnitude + 1) < 10 ^ 16 * (exact (magnitude + 1) - exact magnitude) := by
  have hgap : (units (magnitude + 1) + 10 ^ 16 * units magnitude : Rat) <
      10 ^ 16 * units (magnitude + 1) := by
    have := units_lt_mul_gap magnitude
    rw [← cast_tenTo]
    exact_mod_cast this
  unfold exact
  rw [← sub_div, ← mul_div_assoc, div_lt_div_iff_of_pos_right unitsInOne_ratio_pos]
  linarith

/-- A decimal that differs from a number by less than its `2 * 10 ^ 16`-th part is read as it. -/
theorem ofDecimal_eq_of_near {magnitude : Fin finiteMagnitudes} {digits : Nat} {exponent : Int}
    (hnear : |digits * 10 ^ exponent - exact magnitude| * (2 * 10 ^ 16) ≤ exact magnitude) :
    ofDecimal false digits exponent = finite false magnitude := by
  have hunits : ∀ number : Nat, (units number : Rat) = exact number * unitsInOne := fun number =>
    (div_mul_cancel₀ _ unitsInOne_ratio_pos.ne').symm
  have hden : (0 : Rat) < tenTo (-exponent).toNat := by exact_mod_cast tenTo_pos _
  have hvalue : (digits * tenTo exponent.toNat * unitsInOne : Rat) =
      digits * 10 ^ exponent * unitsInOne * tenTo (-exponent).toNat := by
    rw [tenTo_zpow, mul_right_comm _ _ (tenTo (-exponent).toNat : Rat), mul_assoc (digits : Rat) _
      (tenTo (-exponent).toNat : Rat), div_mul_cancel₀ _ hden.ne']
  have hscaled := mul_pos unitsInOne_ratio_pos hden
  obtain ⟨hlow, hhigh⟩ := abs_le.mp
    ((le_div_iff₀ (show (0 : Rat) < 2 * 10 ^ 16 by norm_num)).mpr hnear)
  rw [ofDecimal_eq_ofQuotient]
  apply ofQuotient_eq_finite
  apply nearestMagnitude_eq_of_between (tenTo_pos _)
  · intro before hbefore
    have hgap := exact_lt_mul_gap before
    rw [← hbefore] at hgap
    have hmiddle : exact before + exact magnitude < 2 * (digits * 10 ^ exponent) := by
      linarith
    have hcast : ((units before + units magnitude) * tenTo (-exponent).toNat : Rat) <
        2 * (digits * tenTo exponent.toNat * unitsInOne) := by
      rw [hvalue, hunits, hunits]
      nlinarith
    exact_mod_cast hcast
  · have hgap := exact_lt_mul_gap magnitude
    have hgrows := exact_strictMono (Nat.lt_succ_self magnitude.val)
    have hmiddle : 2 * (digits * 10 ^ exponent) < exact magnitude + exact (magnitude + 1) := by
      rw [Nat.succ_eq_add_one] at hgrows
      linarith
    have hcast : (2 * (digits * tenTo exponent.toNat * unitsInOne) : Rat) <
        (units magnitude + units (magnitude + 1)) * tenTo (-exponent).toNat := by
      rw [hvalue, hunits, hunits]
      nlinarith
    exact_mod_cast hcast

/-! ## The order of a number -/

theorem tenTo_le_of_digits {number : Nat} (hpositive : 0 < number) :
    tenTo ((Decimal.digits number).length - 1) ≤ number ∧
      number < tenTo (Decimal.digits number).length := by
  have hlength : 0 < (Decimal.digits number).length := Nat.length_toDigits_pos
  have hfits : ∀ count, 0 < count →
      ((Decimal.digits number).length ≤ count ↔ number < tenTo count) :=
    fun count hcount => Nat.length_toDigits_le_iff (by decide) hcount
  refine ⟨?_, (hfits _ hlength).mp le_rfl⟩
  rcases Nat.eq_or_lt_of_le (Nat.succ_le_of_lt hlength) with hone | hmore
  · rw [← hone]
    exact hpositive
  · by_contra! hbelow
    have := (hfits _ (by omega)).mpr hbelow
    omega

/-- A positive quotient lies within its order. -/
theorem decimalOrder_spec {numerator denominator : Nat} (hnumerator : 0 < numerator)
    (hdenominator : 0 < denominator) :
    (10 : Rat) ^ (decimalOrder numerator denominator - 1) ≤ (numerator : Rat) / denominator ∧
      (numerator : Rat) / denominator < 10 ^ decimalOrder numerator denominator := by
  obtain ⟨hnumLow, hnumHigh⟩ := tenTo_le_of_digits hnumerator
  obtain ⟨hdenLow, hdenHigh⟩ := tenTo_le_of_digits hdenominator
  have hnumLength : 0 < (Decimal.digits numerator).length := Nat.length_toDigits_pos
  have hdenLength : 0 < (Decimal.digits denominator).length := Nat.length_toDigits_pos
  have hden : (0 : Rat) < denominator := by exact_mod_cast hdenominator
  have hten : (10 : Rat) ≠ 0 := by norm_num
  set guess : Int := (Decimal.digits numerator).length - (Decimal.digits denominator).length
    with hguess
  have hcross : ∀ first second : Nat, (10 : Rat) ^ ((first : Int) - second) =
      (tenTo first : Rat) / tenTo second := by
    intro first second
    rw [zpow_sub₀ hten, zpow_natCast, zpow_natCast, cast_tenTo, cast_tenTo]
  have hlow : (10 : Rat) ^ (guess - 1) ≤ (numerator : Rat) / denominator := by
    have hshift : guess - 1 = ((Decimal.digits numerator).length - 1 : Nat) -
        ((Decimal.digits denominator).length : Int) := by omega
    rw [hshift, hcross]
    exact div_le_div₀ (Nat.cast_nonneg _) (by exact_mod_cast hnumLow) hden
      (by exact_mod_cast hdenHigh.le)
  have hhigh : (numerator : Rat) / denominator < 10 ^ (guess + 1) := by
    have hshift : guess + 1 = ((Decimal.digits numerator).length : Int) -
        ((Decimal.digits denominator).length - 1 : Nat) := by omega
    rw [hshift, hcross]
    exact div_lt_div₀ (by exact_mod_cast hnumHigh) (by exact_mod_cast hdenLow)
      (Nat.cast_nonneg _) (by exact_mod_cast tenTo_pos _)
  have hreached : (if 0 ≤ guess then denominator * tenTo guess.toNat ≤ numerator
      else denominator ≤ numerator * tenTo (-guess).toNat) ↔
      (10 : Rat) ^ guess ≤ (numerator : Rat) / denominator := by
    rw [tenTo_zpow, div_le_div_iff₀ (by exact_mod_cast tenTo_pos _) hden]
    split_ifs with hup
    · rw [show (-guess).toNat = 0 by omega, Nat.mul_comm]
      exact_mod_cast (by rw [show tenTo 0 = 1 from rfl, Nat.mul_one])
    · rw [show guess.toNat = 0 by omega]
      exact_mod_cast (by rw [show tenTo 0 = 1 from rfl, Nat.one_mul])
  unfold decimalOrder
  simp only
  rw [← hguess]
  by_cases hfull : (10 : Rat) ^ guess ≤ (numerator : Rat) / denominator
  · rw [if_pos (hreached.mpr hfull), add_sub_cancel_right]
    exact ⟨hfull, hhigh⟩
  · rw [if_neg (fun hcontra => hfull (hreached.mp hcontra))]
    exact ⟨hlow, not_le.mp hfull⟩

theorem scaled_spec (numerator : Nat) {denominator : Nat} (hpositive : 0 < denominator)
    (exponent : Int) :
    0 < (scaled numerator denominator exponent).2 ∧
      ((scaled numerator denominator exponent).1 : Rat) /
        (scaled numerator denominator exponent).2 * 10 ^ exponent =
          (numerator : Rat) / denominator := by
  have hden : (denominator : Rat) ≠ 0 := Nat.cast_ne_zero.mpr hpositive.ne'
  have hpower := cast_tenTo_ne_zero
  rw [tenTo_zpow]
  unfold scaled
  split_ifs with hup
  · refine ⟨Nat.mul_pos hpositive (tenTo_pos _), ?_⟩
    rw [show (-exponent).toNat = 0 by omega]
    have := hpower exponent.toNat
    simp only [tenTo, Nat.pow_eq, pow_zero, Nat.cast_one, div_one] at this ⊢
    push_cast at this ⊢
    field_simp
  · refine ⟨hpositive, ?_⟩
    rw [show exponent.toNat = 0 by omega]
    have := hpower (-exponent).toNat
    simp only [tenTo, Nat.pow_eq, pow_zero, Nat.cast_one] at this ⊢
    push_cast at this ⊢
    field_simp

/-! ## Chosen digits -/

variable {magnitude : Fin finiteMagnitudes}

/-- Rounding to a place changes the value by half of that place at most. -/
theorem abs_nearestMultiple_sub_le (numerator : Nat) {denominator : Nat}
    (hpositive : 0 < denominator) (exponent : Int) :
    |(nearestMultiple numerator denominator exponent : Rat) * 10 ^ exponent -
      (numerator : Rat) / denominator| * 2 ≤ 10 ^ exponent := by
  obtain ⟨hscaled, hvalue⟩ := scaled_spec numerator hpositive exponent
  have hpower : (0 : Rat) < 10 ^ exponent := zpow_pos (by norm_num) exponent
  rw [← hvalue]
  unfold nearestMultiple
  generalize scaled numerator denominator exponent = quotient at hscaled ⊢
  obtain ⟨above, below⟩ := quotient
  simp only at hscaled ⊢
  have hbelow : (0 : Rat) < below := by exact_mod_cast hscaled
  have hlow : (2 * above : Rat) ≤ below * (2 * roundHalfEven above below + 1) := by
    exact_mod_cast two_mul_le_mul_roundHalfEven above hscaled
  have hhigh : (below * (2 * roundHalfEven above below) : Rat) ≤ 2 * above + below := by
    exact_mod_cast mul_roundHalfEven_le_two_mul above hscaled
  generalize (roundHalfEven above below : Rat) = rounded at hlow hhigh ⊢
  have hhalf : |rounded - (above : Rat) / below| * 2 ≤ 1 := by
    have hover : rounded - (above : Rat) / below ≤ 1 / 2 := by
      rw [sub_le_iff_le_add, ← sub_le_iff_le_add', le_div_iff₀ hbelow]
      linarith
    have hunder : (above : Rat) / below - rounded ≤ 1 / 2 := by
      rw [sub_le_iff_le_add, div_le_iff₀ hbelow]
      linarith
    have := abs_le.mpr ⟨by linarith, hover⟩
    linarith
  calc |rounded * 10 ^ exponent - (above : Rat) / below * 10 ^ exponent| * 2
      = |rounded - (above : Rat) / below| * 2 * 10 ^ exponent := by
        rw [← sub_mul, abs_mul, abs_of_pos hpower]
        ring
    _ ≤ 1 * 10 ^ exponent := mul_le_mul_of_nonneg_right hhalf hpower.le
    _ = 10 ^ exponent := one_mul _

/-- The order of a number, as it is used to choose its digits. -/
theorem zpow_order_le (hpositive : 0 < magnitude.val) :
    (10 : Rat) ^ (decimalOrder (units magnitude) unitsInOne - 1) ≤ exact magnitude := by
  have hunits : 0 < units magnitude := by
    rw [← units_zero]
    exact units_strictMono hpositive
  exact (decimalOrder_spec hunits unitsInOne_pos).1

/-- A place that is fine enough keeps a number apart from its neighbours. -/
theorem ofDecimal_nearestMultiple {exponent : Int}
    (hfine : (10 : Rat) ^ exponent * 10 ^ 16 ≤ exact magnitude) :
    ofDecimal false (nearestMultiple (units magnitude) unitsInOne exponent) exponent =
      finite false magnitude := by
  apply ofDecimal_eq_of_near
  have hround := abs_nearestMultiple_sub_le (units magnitude) unitsInOne_pos exponent
  unfold exact at hfine ⊢
  linarith

/-- **Seventeen digits tell a number from all others.** -/
theorem ofDecimal_seventeen (hpositive : 0 < magnitude.val) :
    ofDecimal false (nearestMultiple (units magnitude) unitsInOne
        (decimalOrder (units magnitude) unitsInOne - 17))
      (decimalOrder (units magnitude) unitsInOne - 17) = finite false magnitude := by
  have horder := zpow_order_le hpositive
  generalize decimalOrder (units magnitude) unitsInOne = order at horder ⊢
  refine ofDecimal_nearestMultiple (le_of_eq_of_le ?_ horder)
  rw [← zpow_natCast, ← zpow_add₀ (by norm_num)]
  congr 1
  push_cast
  ring

/-- Rounding to a few digits at most doubles a number, and leaves something of it. -/
theorem nearestMultiple_le {exponent : Int} (hplace : (10 : Rat) ^ exponent ≤ exact magnitude) :
    0 < nearestMultiple (units magnitude) unitsInOne exponent ∧
      (nearestMultiple (units magnitude) unitsInOne exponent : Rat) * 10 ^ exponent ≤
        2 * exact magnitude := by
  have hround := abs_nearestMultiple_sub_le (units magnitude) unitsInOne_pos exponent
  have hpower : (0 : Rat) < 10 ^ exponent := zpow_pos (by norm_num) exponent
  unfold exact at hplace ⊢
  generalize nearestMultiple (units magnitude) unitsInOne exponent = rounded at hround ⊢
  obtain ⟨hlow, hhigh⟩ := abs_le.mp ((le_div_iff₀ two_pos).mpr hround)
  refine ⟨?_, by linarith⟩
  by_contra! hzero
  rw [Nat.le_zero.mp hzero, Nat.cast_zero, zero_mul] at hlow
  linarith

end Binary64

end Throttle
