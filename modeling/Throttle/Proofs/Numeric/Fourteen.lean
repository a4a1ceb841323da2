import Throttle.Proofs.Numeric.Tokens

/-!
# Numbers in fourteen digits

A script answers with a number in fourteen significant digits, and its caller reads the digits.
What the caller reads may be larger than the number or smaller, but not beyond a whole number of up
to fourteen digits that the number is not beyond (`exact_read_le_of_whole`).  A number below one is
shown as one if it is near enough, and as less than one if it is not (`read_of_not_one_le`).
-/

namespace Throttle

/-! ## Rounding -/

section

variable {numerator denominator bound : Nat}

theorem roundHalfEven_le (hpositive : 0 < denominator) (hle : numerator ≤ bound * denominator) :
    roundHalfEven numerator denominator ≤ bound := by
  have hround := mul_roundHalfEven_le_two_mul numerator hpositive
  by_contra! hlt
  have hnext : denominator * (2 * (bound + 1)) ≤
      denominator * (2 * roundHalfEven numerator denominator) :=
    Nat.mul_le_mul_left _ (Nat.mul_le_mul_left _ hlt)
  nlinarith

/-- Halfway between two whole numbers the even one is chosen. -/
theorem roundHalfEven_even_of_rest (hhalf : 2 * (numerator % denominator) = denominator) :
    roundHalfEven numerator denominator % 2 = 0 := by
  unfold roundHalfEven
  simp only
  split_ifs <;> omega

theorem roundHalfEven_even_of_halfway (hpositive : 0 < denominator)
    (hhalfway : 2 * numerator = denominator * (2 * roundHalfEven numerator denominator + 1)) :
    roundHalfEven numerator denominator % 2 = 0 := by
  apply roundHalfEven_even_of_rest
  have hsplit := Nat.div_add_mod numerator denominator
  have hrest := Nat.mod_lt numerator hpositive
  rcases roundHalfEven_eq_or numerator denominator with hround | hround <;>
    rw [hround] at hhalfway <;> linarith

theorem roundHalfEven_even_of_raised (hpositive : 0 < denominator)
    (hhalfway : denominator * (2 * roundHalfEven numerator denominator) =
      2 * numerator + denominator) :
    roundHalfEven numerator denominator % 2 = 0 := by
  apply roundHalfEven_even_of_rest
  have hsplit := Nat.div_add_mod numerator denominator
  have hrest := Nat.zero_le (numerator % denominator)
  rcases roundHalfEven_eq_or numerator denominator with hround | hround <;>
    rw [hround] at hhalfway <;> linarith

/-- An even number is reached from halfway below it. -/
theorem le_roundHalfEven_iff (hpositive : 0 < denominator) (heven : bound % 2 = 0) :
    bound ≤ roundHalfEven numerator denominator ↔
      2 * bound * denominator ≤ 2 * numerator + denominator := by
  have hlow := two_mul_le_mul_roundHalfEven numerator hpositive
  have hhigh := mul_roundHalfEven_le_two_mul numerator hpositive
  have hhalfway : 2 * numerator = denominator * (2 * roundHalfEven numerator denominator + 1) →
      roundHalfEven numerator denominator % 2 = 0 := roundHalfEven_even_of_halfway hpositive
  generalize roundHalfEven numerator denominator = rounded at hlow hhigh hhalfway ⊢
  constructor
  · intro hle
    nlinarith
  · intro hreached
    by_contra! hlt
    have hnext : denominator * (2 * rounded + 2) ≤ denominator * (2 * bound) :=
      Nat.mul_le_mul_left _ (by omega)
    -- the number below is odd, so it would not have been chosen halfway
    have hsame : denominator * (2 * rounded + 2) = denominator * (2 * bound) := by nlinarith
    have hbelow : 2 * rounded + 2 = 2 * bound := Nat.eq_of_mul_eq_mul_left hpositive hsame
    have hodd := hhalfway (by nlinarith)
    omega

end

namespace Binary64

/-! ## Rounding to a place -/

section

variable {numerator denominator bound : Nat} {exponent : Int}

theorem nearestMultiple_le_of_le (hpositive : 0 < denominator)
    (hle : (numerator : Rat) / denominator ≤ bound * 10 ^ exponent) :
    nearestMultiple numerator denominator exponent ≤ bound := by
  obtain ⟨hscaled, hvalue⟩ := scaled_spec numerator hpositive exponent
  rw [← hvalue, mul_le_mul_iff_left₀ (zpow_pos (by norm_num) exponent),
    div_le_iff₀ (by exact_mod_cast hscaled)] at hle
  exact roundHalfEven_le hscaled (by exact_mod_cast hle)

/-- An even multiple is reached from halfway below it. -/
theorem le_nearestMultiple_iff (hpositive : 0 < denominator) (heven : bound % 2 = 0) :
    bound ≤ nearestMultiple numerator denominator exponent ↔
      bound * (10 : Rat) ^ exponent ≤ numerator / denominator + 10 ^ exponent / 2 := by
  obtain ⟨hscaled, hvalue⟩ := scaled_spec numerator hpositive exponent
  have hpower : (0 : Rat) < 10 ^ exponent := zpow_pos (by norm_num) exponent
  rw [← hvalue]
  unfold nearestMultiple
  generalize scaled numerator denominator exponent = quotient at hscaled ⊢
  obtain ⟨above, below⟩ := quotient
  simp only at hscaled ⊢
  have hbelow : (0 : Rat) < below := by exact_mod_cast hscaled
  rw [le_roundHalfEven_iff hscaled heven]
  calc 2 * bound * below ≤ 2 * above + below
      ↔ (2 * bound * below : Rat) ≤ 2 * above + below := by exact_mod_cast Iff.rfl
    _ ↔ (bound : Rat) ≤ above / below + 1 / 2 := by
        rw [div_add_div _ _ hbelow.ne' two_ne_zero, le_div_iff₀ (by linarith)]
        constructor <;> intro hle <;> linarith
    _ ↔ bound * (10 : Rat) ^ exponent ≤ above / below * 10 ^ exponent + 10 ^ exponent / 2 := by
        rw [← mul_le_mul_iff_left₀ hpower]
        constructor <;> intro hle <;> linarith

end

/-! ## What fourteen digits show -/

variable {magnitude : Fin finiteMagnitudes}

theorem exact_lt_zpow_order (hpositive : 0 < magnitude.val) :
    exact magnitude < 10 ^ decimalOrder (units magnitude) unitsInOne := by
  have hunits : 0 < units magnitude := by
    rw [← units_zero]
    exact units_strictMono hpositive
  exact (decimalOrder_spec hunits unitsInOne_pos).2

/-- Fourteen digits show no more than a whole number of that many digits, if there is no more. -/
theorem fourteen_le_of_whole {whole : Nat} (hwhole : whole < tenTo 14)
    (hle : exact magnitude ≤ whole) : fourteen magnitude ≤ whole := by
  rcases Nat.eq_zero_or_pos magnitude.val with hzero | hpositive
  · obtain rfl : magnitude = ⟨0, by decide⟩ := Fin.ext hzero
    rw [fourteen_zero]
    exact Nat.cast_nonneg whole
  · have horder : decimalOrder (units magnitude) unitsInOne - 1 < 14 := by
      have hfits : (whole : Rat) < 10 ^ (14 : Int) := by
        calc (whole : Rat) < tenTo 14 := by exact_mod_cast hwhole
          _ = 10 ^ (14 : Int) := cast_tenTo 14
      exact (zpow_lt_zpow_iff_right₀ (by norm_num)).mp
        ((zpow_order_le hpositive).trans_lt (hle.trans_lt hfits))
    have hplace : fourteenthPlace magnitude ≤ 0 := by
      unfold fourteenthPlace
      omega
    -- the whole number is a multiple of the last place
    have hmultiple : ((whole * tenTo (-fourteenthPlace magnitude).toNat : Nat) : Rat) *
        10 ^ fourteenthPlace magnitude = whole := by
      rw [tenTo_zpow, show (fourteenthPlace magnitude).toNat = 0 by omega, Nat.cast_mul, mul_assoc,
        show tenTo 0 = 1 from rfl, Nat.cast_one, mul_one_div_cancel (cast_tenTo_ne_zero _), mul_one]
    have hdigits : fourteenDigits magnitude ≤ whole * tenTo (-fourteenthPlace magnitude).toNat := by
      refine nearestMultiple_le_of_le unitsInOne_pos ?_
      rwa [hmultiple]
    rw [fourteen, ← hmultiple]
    exact mul_le_mul_of_nonneg_right (by exact_mod_cast hdigits) (zpow_pos (by norm_num) _).le

/-- The least number that fourteen digits show as one. -/
def nearlyOne : Rat := 1 - 5 / 10 ^ 15

/-- A number below one is shown as one if it is near enough, and as a number that is smaller by a
unit of the last place at least if it is not. -/
theorem fourteen_of_lt_one (hone : exact magnitude < 1) :
    (exact magnitude < nearlyOne ∧ fourteen magnitude ≤ 1 - 1 / 10 ^ 14) ∨
      (nearlyOne ≤ exact magnitude ∧ fourteen magnitude = 1) := by
  rcases Nat.eq_zero_or_pos magnitude.val with hzero | hpositive
  · obtain rfl : magnitude = ⟨0, by decide⟩ := Fin.ext hzero
    have hexact : exact (⟨0, by decide⟩ : Fin finiteMagnitudes).val = 0 := exact_zero
    rw [fourteen_zero, hexact]
    exact Or.inl ⟨by norm_num [nearlyOne], by norm_num⟩
  · have hlow := zpow_order_le hpositive
    have hhigh := exact_lt_zpow_order hpositive
    have horder : decimalOrder (units magnitude) unitsInOne ≤ 0 := by
      have hbelow : (10 : Rat) ^ (decimalOrder (units magnitude) unitsInOne - 1) < 10 ^ (0 : Int) := by
        rw [zpow_zero]
        exact hlow.trans_lt hone
      have := (zpow_lt_zpow_iff_right₀ (by norm_num : (1 : Rat) < 10)).mp hbelow
      omega
    have hpower : (tenTo 14 : Rat) * 10 ^ fourteenthPlace magnitude =
        10 ^ decimalOrder (units magnitude) unitsInOne := by
      have hsum : ((14 : Nat) : Int) + fourteenthPlace magnitude =
          decimalOrder (units magnitude) unitsInOne := by
        unfold fourteenthPlace
        omega
      rw [cast_tenTo, ← zpow_natCast, ← zpow_add₀ (by norm_num), hsum]
    have hdigits : fourteenDigits magnitude ≤ tenTo 14 := by
      refine nearestMultiple_le_of_le unitsInOne_pos ?_
      rw [hpower]
      exact hhigh.le
    have hshown : fourteen magnitude ≤ 10 ^ decimalOrder (units magnitude) unitsInOne := by
      rw [← hpower]
      exact mul_le_mul_of_nonneg_right (by exact_mod_cast hdigits) (zpow_pos (by norm_num) _).le
    rcases horder.lt_or_eq with hsmall | hzero
    · -- below a tenth nothing comes near to one
      have htenth : (10 : Rat) ^ decimalOrder (units magnitude) unitsInOne ≤ 10 ^ (-1 : Int) :=
        zpow_le_zpow_right₀ (by norm_num) (by omega)
      rw [zpow_neg_one] at htenth
      refine Or.inl ⟨(hhigh.trans_le htenth).trans ?_, (hshown.trans htenth).trans ?_⟩
      · norm_num [nearlyOne]
      · norm_num
    · have hplace : fourteenthPlace magnitude = -14 := by
        unfold fourteenthPlace
        omega
      have hplaced : (10 : Rat) ^ (-14 : Int) = 1 / 10 ^ 14 := by norm_num
      have hreached : tenTo 14 ≤ fourteenDigits magnitude ↔ nearlyOne ≤ exact magnitude := by
        unfold fourteenDigits
        rw [le_nearestMultiple_iff unitsInOne_pos (by decide), ← exact, hplace, cast_tenTo, hplaced]
        norm_num [nearlyOne]
        constructor <;> intro hle <;> linarith
      rw [fourteen, hplace, hplaced]
      by_cases hnear : nearlyOne ≤ exact magnitude
      · have hall : fourteenDigits magnitude = tenTo 14 :=
          Nat.le_antisymm hdigits (hreached.mpr hnear)
        rw [hall, cast_tenTo]
        exact Or.inr ⟨hnear, by norm_num⟩
      · have hless : (fourteenDigits magnitude : Rat) + 1 ≤ 10 ^ 14 := by
          rw [← cast_tenTo]
          exact_mod_cast Nat.lt_of_not_le fun hall => hnear (hreached.mp hall)
        refine Or.inl ⟨not_le.mp hnear, ?_⟩
        calc (fourteenDigits magnitude : Rat) * (1 / 10 ^ 14)
            ≤ (10 ^ 14 - 1) * (1 / 10 ^ 14) :=
              mul_le_mul_of_nonneg_right (le_sub_iff_add_le.mpr hless) (by norm_num)
          _ = 1 - 1 / 10 ^ 14 := by norm_num

/-! ## What is read back -/

theorem exact_one : exact one = 1 :=
  (exact_of_whole (units_one.trans (Nat.one_mul _).symm)).trans Nat.cast_one

theorem exact_nonneg (magnitude : Nat) : 0 ≤ exact magnitude :=
  div_nonneg (Nat.cast_nonneg _) unitsInOne_ratio_pos.le

theorem exact_lt_one_iff : exact magnitude < 1 ↔ ¬ ofInt 1 ≤ finite false magnitude := by
  rw [ofInt_one, finite_le_finite_iff, not_le, ← exact_one, exact_strictMono.lt_iff_lt, Fin.lt_def]

theorem units_le_of_exact_lt_one (hone : exact magnitude < 1) :
    units magnitude ≤ twoTo 64 * unitsInOne := by
  rw [exact, div_lt_one unitsInOne_ratio_pos] at hone
  have hunits : units magnitude < unitsInOne := by exact_mod_cast hone
  exact hunits.le.trans (Nat.le_mul_of_pos_left _ (twoTo_pos 64))

/-- The largest number below one is nearer to it than fourteen digits tell. -/
theorem le_exact_before_one : 1 - 1 / 10 ^ 14 ≤ exact (one - 1 : Nat) := by
  have hnear : tenTo 14 * unitsInOne ≤ tenTo 14 * units (one - 1 : Nat) + unitsInOne := by
    decide +kernel
  have hcast : (10 ^ 14 * unitsInOne : Rat) ≤ 10 ^ 14 * units (one - 1 : Nat) + unitsInOne := by
    rw [← cast_tenTo]
    exact_mod_cast hnear
  rw [exact, le_div_iff₀ unitsInOne_ratio_pos, sub_mul, one_mul, sub_le_iff_le_add,
    div_mul_eq_mul_div, one_mul, ← sub_le_iff_le_add', le_div_iff₀ (by norm_num)]
  linarith

variable {read : Fin finiteMagnitudes}

/-- **A number below one is read as one if it is near enough**, and as a number below one if it
is not. -/
theorem exact_read_of_lt_one (hone : exact magnitude < 1)
    (hread : Quantity.read? (Quantity.scriptText (finite false magnitude)) =
      some (finite false read)) :
    (exact magnitude < nearlyOne ∧ exact read < 1) ∨
      (nearlyOne ≤ exact magnitude ∧ exact read = 1) := by
  obtain ⟨read', hread', hupper, hlower⟩ := read?_scriptText (units_le_of_exact_lt_one hone)
  obtain rfl : read' = read := by
    rw [hread] at hread'
    cases hread'
    rfl
  rcases fourteen_of_lt_one hone with ⟨hfar, hshown⟩ | ⟨hnear, hshown⟩
  · have hbelow : read'.val ≤ one - 1 := hupper _ (hshown.trans le_exact_before_one)
    have hpositive : 0 < one.val := by decide
    refine Or.inl ⟨hfar, ?_⟩
    rw [← exact_one]
    exact exact_strictMono (by omega)
  · have hsame : read'.val = one := Nat.le_antisymm
      (hupper _ (hshown.trans exact_one.symm).le) (hlower _ (exact_one.trans hshown.symm).le)
    exact Or.inr ⟨hnear, by rw [hsame, exact_one]⟩

/-- A number of the other sign is less than one, if it is a number at all. -/
theorem not_one_le_of_negative {number : Binary64} (hnegative : number.isNegative = true) :
    ¬ ofInt 1 ≤ number := by
  rw [ofInt_one]
  rintro ⟨_, ⟨⟩, place, hplace, hle⟩
  have hone : 0 < one.val := by decide
  have hbelow : place ≤ 0 := by
    cases number with
    | nan negative => cases hplace
    | infinite negative =>
        obtain rfl : negative = true := hnegative
        obtain rfl := Option.some.inj hplace
        exact Int.neg_nonpos_of_nonneg (Int.natCast_nonneg _)
    | finite negative magnitude =>
        obtain rfl : negative = true := hnegative
        obtain rfl := Option.some.inj hplace
        exact Int.neg_nonpos_of_nonneg (Int.natCast_nonneg _)
  rw [if_neg Bool.false_ne_true] at hle
  omega

/-- **What a caller reads of less than one** is one if the number is near enough, and less than one
if it is not. -/
theorem read_of_not_one_le {number told : Binary64} (hshort : ¬ ofInt 1 ≤ number)
    (hread : Quantity.read? (Quantity.scriptText number) = some told)
    (hfinite : Quantity.isFinite told = true) :
    ∃ value, number.value? = some value ∧ value < 1 ∧
      ((value < nearlyOne ∧ ¬ ofInt 1 ≤ told) ∨ (nearlyOne ≤ value ∧ told = ofInt 1)) := by
  cases number with
  | nan negative => cases negative <;> cases hread <;> cases hfinite
  | infinite negative =>
      cases negative with
      | true =>
          cases hread
          cases hfinite
      | false =>
          have hinside := one.isLt
          refine absurd ⟨_, by rw [ofInt_one]; rfl, _, rfl, ?_⟩ hshort
          rw [if_neg Bool.false_ne_true, if_neg Bool.false_ne_true]
          omega
  | finite negative magnitude =>
      refine ⟨_, value?_finite negative magnitude, ?_⟩
      cases negative with
      | true =>
          have hbelow : (if true = true then -exact magnitude else exact magnitude) < nearlyOne := by
            have hpositive : 0 < nearlyOne := by norm_num [nearlyOne]
            rw [if_pos rfl]
            exact (neg_nonpos.mpr (exact_nonneg magnitude)).trans_lt hpositive
          have hless : nearlyOne < 1 := by norm_num [nearlyOne]
          have hnegative : told.isNegative = true := by
            rcases Nat.eq_zero_or_pos magnitude.val with hzero | hpositive
            · obtain rfl : magnitude = ⟨0, by decide⟩ := Fin.ext hzero
              cases hread
              rfl
            · rw [read?_scriptText_eq hpositive, ofDecimal_eq_ofQuotient] at hread
              obtain rfl := Option.some.inj hread
              rcases ofQuotient_cases true _ _ with ⟨read, hfinite⟩ | hinfinite
              · rw [hfinite]
                rfl
              · rw [hinfinite]
                rfl
          exact ⟨hbelow.trans hless, Or.inl ⟨hbelow, not_one_le_of_negative hnegative⟩⟩
      | false =>
          rw [if_neg Bool.false_ne_true]
          have hone : exact magnitude < 1 := exact_lt_one_iff.mpr hshort
          obtain ⟨read, hread', -, -⟩ := read?_scriptText (units_le_of_exact_lt_one hone)
          obtain rfl := Option.some.inj (hread'.symm.trans hread)
          rcases exact_read_of_lt_one hone hread with ⟨hfar, hless⟩ | ⟨hnear, hequal⟩
          · exact ⟨hone, Or.inl ⟨hfar, exact_lt_one_iff.mp hless⟩⟩
          · have hsame : read = one :=
              Fin.ext (exact_strictMono.injective (hequal.trans exact_one.symm))
            rw [ofInt_one, hsame]
            exact ⟨hone, Or.inr ⟨hnear, rfl⟩⟩

/-- A number that is not beyond a whole number of up to fourteen digits is read as one that is
not. -/
theorem exact_read_le_of_whole {whole : Nat} (hwhole : whole < tenTo 14)
    (hle : exact magnitude ≤ whole)
    (hread : Quantity.read? (Quantity.scriptText (finite false magnitude)) =
      some (finite false read)) : exact read ≤ whole := by
  have hsmall : whole ≤ 2 * twoTo 52 := hwhole.le.trans (by decide)
  obtain ⟨bound, hbound⟩ := exists_magnitude_of_whole hsmall (Nat.zero_le 970)
  rw [show twoTo 0 = 1 from rfl, Nat.mul_one] at hbound
  have hcount : units magnitude ≤ twoTo 64 * unitsInOne := by
    have hunits : units magnitude ≤ whole * unitsInOne := by
      rw [exact, div_le_iff₀ unitsInOne_ratio_pos] at hle
      exact_mod_cast hle
    exact hunits.trans (Nat.mul_le_mul_right _ (hsmall.trans (by decide)))
  obtain ⟨read', hread', hupper, -⟩ := read?_scriptText hcount
  obtain rfl : read' = read := by
    rw [hread] at hread'
    cases hread'
    rfl
  rw [← exact_of_whole hbound]
  exact exact_strictMono.monotone
    (hupper bound ((fourteen_le_of_whole hwhole hle).trans_eq (exact_of_whole hbound).symm))

end Binary64

end Throttle
