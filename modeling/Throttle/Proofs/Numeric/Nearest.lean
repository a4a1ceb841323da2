import Mathlib
import Throttle.Proofs.Numeric.Exact

/-!
# Rounding to the nearest number of 64 bits

A quotient is rounded within its binade: it is scaled down until its whole part has 53 bits,
and then the nearest whole number is taken.  What the callers of `nearestMagnitude` need does
not mention binades.  The magnitude found lies between the middles to its two neighbours
(`two_mul_le_of_nearestMagnitude`, `le_two_mul_of_nearestMagnitude`), and since the units grow
with the magnitude (`units_strictMono`) this settles everything else: rounding is monotone and
keeps what is exact.
-/

namespace Throttle

theorem twoTo_le_twoTo {first second : Nat} (hle : first ≤ second) : twoTo first ≤ twoTo second :=
  Nat.pow_le_pow_right (by decide) hle

theorem twoTo_add (first second : Nat) : twoTo (first + second) = twoTo first * twoTo second :=
  Nat.pow_add 2 first second

/-- The other half of `two_mul_le_mul_roundHalfEven`: nothing is rounded up by more than a half. -/
theorem mul_roundHalfEven_le_two_mul (numerator : Nat) {denominator : Nat}
    (hpositive : 0 < denominator) :
    denominator * (2 * roundHalfEven numerator denominator) ≤ 2 * numerator + denominator := by
  have hsplit := Nat.div_add_mod numerator denominator
  have hrest := Nat.mod_lt numerator hpositive
  unfold roundHalfEven
  generalize numerator / denominator = whole at hsplit ⊢
  generalize numerator % denominator = rest at hsplit hrest ⊢
  subst hsplit
  simp only
  split_ifs <;> nlinarith

theorem roundHalfEven_mul_mul (numerator denominator : Nat) {factor : Nat} (hfactor : 0 < factor) :
    roundHalfEven (factor * numerator) (factor * denominator) =
      roundHalfEven numerator denominator := by
  have hdouble : ∀ number : Nat, 2 * (factor * number) = factor * (2 * number) :=
    fun number => Nat.mul_left_comm 2 factor number
  unfold roundHalfEven
  simp only [Nat.mul_div_mul_left _ _ hfactor, Nat.mul_mod_mul_left, hdouble,
    Nat.mul_lt_mul_left hfactor]

namespace Binary64

/-! ## Units -/

theorem units_of_scale {scale rest : Nat} (hrest : rest ≤ 2 * twoTo 52)
    (hfull : scale = 0 ∨ twoTo 52 ≤ rest) :
    units (scale * twoTo 52 + rest) = rest * twoTo scale := by
  have hpositive := twoTo_pos 52
  have hdiv : (scale * twoTo 52 + rest) / twoTo 52 = rest / twoTo 52 + scale := by
    rw [Nat.add_comm, Nat.add_mul_div_right _ _ hpositive]
  unfold units
  simp only
  rw [hdiv]
  rcases Nat.lt_or_eq_of_le hrest with hbelow | rfl
  · -- within the binade, or below all full ones
    have hquotient : rest / twoTo 52 + scale - 1 = scale := by
      have hone : rest / twoTo 52 < 2 := Nat.div_lt_of_lt_mul (by omega)
      rcases hfull with rfl | hfull
      · omega
      · have := (Nat.one_le_div_iff hpositive).mpr hfull
        omega
    rw [hquotient, Nat.add_sub_cancel_left]
  · -- the first number of the next binade
    have hquotient : 2 * twoTo 52 / twoTo 52 + scale - 1 = scale + 1 := by
      rw [Nat.mul_div_cancel _ hpositive]
      omega
    have hleft : scale * twoTo 52 + 2 * twoTo 52 - (scale + 1) * twoTo 52 = twoTo 52 := by
      rw [Nat.succ_mul scale]
      omega
    rw [hquotient, hleft, twoTo_succ scale]
    ring

theorem exists_scale (magnitude : Nat) :
    ∃ scale rest, magnitude = scale * twoTo 52 + rest ∧ rest < 2 * twoTo 52 ∧
      (scale = 0 ∨ twoTo 52 ≤ rest) := by
  have hsplit := Nat.div_add_mod' magnitude (twoTo 52)
  have hrest := Nat.mod_lt magnitude (twoTo_pos 52)
  generalize magnitude / twoTo 52 = quotient at hsplit
  cases quotient with
  | zero => exact ⟨0, magnitude % twoTo 52, by omega, by omega, Or.inl rfl⟩
  | succ scale =>
      rw [Nat.succ_mul] at hsplit
      exact ⟨scale, twoTo 52 + magnitude % twoTo 52, by omega, by omega, Or.inr (by omega)⟩

theorem units_strictMono : StrictMono units := by
  apply strictMono_nat_of_lt_succ
  intro magnitude
  obtain ⟨scale, rest, rfl, hrest, hfull⟩ := exists_scale magnitude
  have hscale := twoTo_pos scale
  rw [Nat.add_assoc, units_of_scale hrest.le hfull, units_of_scale (by omega) (by omega),
    Nat.succ_mul]
  omega

/-- A number of up to 53 bits with zeros behind it is exact. -/
theorem exists_units_eq {rest : Nat} (hrest : rest ≤ 2 * twoTo 52) (scale : Nat) :
    ∃ magnitude, units magnitude = rest * twoTo scale := by
  induction scale generalizing rest with
  | zero => exact ⟨_, units_of_scale hrest (Or.inl rfl)⟩
  | succ scale ih =>
      by_cases hfull : twoTo 52 ≤ rest
      · exact ⟨_, units_of_scale hrest (Or.inr hfull)⟩
      · obtain ⟨magnitude, hunits⟩ := ih (show 2 * rest ≤ 2 * twoTo 52 by omega)
        exact ⟨magnitude, by rw [hunits, twoTo_succ scale]; ring⟩

theorem units_finiteMagnitudes : units finiteMagnitudes = twoTo 1024 * unitsInOne := by
  decide +kernel

theorem unitsInOne_pos : 0 < unitsInOne := twoTo_pos 1074

/-! ## Between two neighbours -/

variable {numerator denominator : Nat}

/-- What is rounded to a magnitude is scaled by its binade first. -/
theorem nearestMagnitude_cases (numerator : Nat) (hpositive : 0 < denominator) :
    ∃ scale rest, nearestMagnitude numerator denominator = scale * twoTo 52 + rest ∧
      rest ≤ 2 * twoTo 52 ∧
      (scale = 0 ∨ twoTo 52 ≤ rest ∧ denominator * twoTo scale * twoTo 52 ≤ numerator) ∧
      2 * numerator ≤ denominator * twoTo scale * (2 * rest + 1) ∧
      denominator * twoTo scale * (2 * rest) ≤ 2 * numerator + denominator * twoTo scale ∧
      rest = roundHalfEven numerator (denominator * twoTo scale) := by
  set scale := (numerator / denominator).log2 - 52 with hscale
  have hscaled : 0 < denominator * twoTo scale := Nat.mul_pos hpositive (twoTo_pos scale)
  have hwhole : numerator / (denominator * twoTo scale) = numerator / denominator / twoTo scale :=
    (Nat.div_div_eq_div_mul ..).symm
  refine ⟨scale, roundHalfEven numerator (denominator * twoTo scale), rfl, ?_, ?_,
    two_mul_le_mul_roundHalfEven numerator hscaled, mul_roundHalfEven_le_two_mul numerator hscaled,
    rfl⟩
  · have hbelow : numerator / denominator < twoTo scale * (2 * twoTo 52) := by
      calc numerator / denominator
          < 2 ^ ((numerator / denominator).log2 + 1) := Nat.lt_log2_self
        _ ≤ twoTo (scale + 53) := twoTo_le_twoTo (by omega)
        _ = twoTo scale * (2 * twoTo 52) := twoTo_add scale 53
    have hbits : numerator / (denominator * twoTo scale) < 2 * twoTo 52 := by
      rw [hwhole]
      exact Nat.div_lt_of_lt_mul hbelow
    rcases roundHalfEven_eq_or numerator (denominator * twoTo scale) with hround | hround <;> omega
  · rcases Nat.eq_zero_or_pos scale with hzero | hpos
    · exact Or.inl hzero
    · have hnonzero : numerator / denominator ≠ 0 := by
        intro hzero
        rw [hscale, hzero] at hpos
        exact absurd hpos (by decide)
      have habove : twoTo 52 * twoTo scale ≤ numerator / denominator := by
        calc twoTo 52 * twoTo scale
            = 2 ^ (numerator / denominator).log2 := by
              rw [← twoTo_add]
              exact congrArg twoTo (by omega)
          _ ≤ numerator / denominator := Nat.log2_self_le hnonzero
      have hbits : twoTo 52 ≤ numerator / (denominator * twoTo scale) := by
        rw [hwhole]
        exact (Nat.le_div_iff_mul_le (twoTo_pos scale)).mpr habove
      refine Or.inr ⟨?_, ?_⟩
      · rcases roundHalfEven_eq_or numerator (denominator * twoTo scale) with hround | hround <;>
          omega
      · rw [Nat.mul_comm]
        exact (Nat.le_div_iff_mul_le hscaled).mp hbits

/-- A quotient is not above the middle between its rounding and the next number. -/
theorem two_mul_le_of_nearestMagnitude (numerator : Nat) (hpositive : 0 < denominator) :
    2 * numerator ≤ (units (nearestMagnitude numerator denominator) +
      units (nearestMagnitude numerator denominator + 1)) * denominator := by
  obtain ⟨scale, rest, hnearest, hrest, hfull, hhigh, -⟩ :=
    nearestMagnitude_cases numerator hpositive
  have hfull' : scale = 0 ∨ twoTo 52 ≤ rest := hfull.imp_right And.left
  have hnext : (rest + 1) * twoTo scale ≤ units (scale * twoTo 52 + (rest + 1)) := by
    rcases Nat.lt_or_eq_of_le hrest with hbelow | rfl
    · exact (units_of_scale hbelow (by omega)).ge
    · -- the next number is in the next binade, and farther off than in this one
      have hover : scale * twoTo 52 + (2 * twoTo 52 + 1) = (scale + 1) * twoTo 52 +
          (twoTo 52 + 1) := by ring
      have hsmall : twoTo 52 + 1 ≤ 2 * twoTo 52 := by decide
      rw [hover, units_of_scale hsmall (Or.inr (Nat.le_succ _)), twoTo_succ scale]
      nlinarith [twoTo_pos scale]
  rw [hnearest, Nat.add_assoc, units_of_scale hrest hfull']
  calc 2 * numerator
      ≤ denominator * twoTo scale * (2 * rest + 1) := hhigh
    _ = (rest * twoTo scale + (rest + 1) * twoTo scale) * denominator := by ring
    _ ≤ (rest * twoTo scale + units (scale * twoTo 52 + (rest + 1))) * denominator :=
      Nat.mul_le_mul_right _ (Nat.add_le_add_left hnext _)

/-- A quotient is not below the middle between its rounding and the number before. -/
theorem le_two_mul_of_nearestMagnitude (hpositive : 0 < denominator) {magnitude : Nat}
    (hnearest : nearestMagnitude numerator denominator = magnitude + 1) :
    (units magnitude + units (magnitude + 1)) * denominator ≤ 2 * numerator := by
  obtain ⟨scale, rest, hcases, hrest, hfull, -, hlow, -⟩ :=
    nearestMagnitude_cases numerator hpositive
  have hfull' : scale = 0 ∨ twoTo 52 ≤ rest := hfull.imp_right And.left
  have hthis : units (magnitude + 1) = rest * twoTo scale := by
    rw [← hnearest, hcases, units_of_scale hrest hfull']
  by_cases hfirst : scale ≠ 0 ∧ rest = twoTo 52
  · -- the first number of a binade is rounded to from below only in the binade before
    have hexact : denominator * twoTo scale * twoTo 52 ≤ numerator :=
      (hfull.resolve_left hfirst.1).2
    have hbefore := units_strictMono (Nat.lt_succ_self magnitude)
    rw [Nat.succ_eq_add_one, hthis, hfirst.2] at hbefore
    rw [hthis, hfirst.2]
    calc (units magnitude + twoTo 52 * twoTo scale) * denominator
        ≤ (twoTo 52 * twoTo scale + twoTo 52 * twoTo scale) * denominator :=
          Nat.mul_le_mul_right _ (Nat.add_le_add_right hbefore.le _)
      _ = 2 * (denominator * twoTo scale * twoTo 52) := by ring
      _ ≤ 2 * numerator := Nat.mul_le_mul_left 2 hexact
  · have hbefore : units magnitude = (rest - 1) * twoTo scale := by
      have hpos : 0 < rest := by
        rcases Nat.eq_zero_or_pos rest with rfl | hpos
        · have := twoTo_pos 52
          rcases hfull' with rfl | habsurd <;> omega
        · exact hpos
      have heq : magnitude = scale * twoTo 52 + (rest - 1) := by omega
      rw [heq, units_of_scale (by omega) (by omega)]
    obtain ⟨before, rfl⟩ | rfl : (∃ before, rest = before + 1) ∨ rest = 0 := by
      cases rest with
      | zero => exact Or.inr rfl
      | succ before => exact Or.inl ⟨before, rfl⟩
    · rw [hthis, hbefore, Nat.add_sub_cancel]
      have hsplit : denominator * twoTo scale * (2 * (before + 1)) =
          (before * twoTo scale + (before + 1) * twoTo scale) * denominator +
            denominator * twoTo scale := by ring
      omega
    · have hgrows := units_strictMono (Nat.lt_succ_self magnitude)
      rw [Nat.succ_eq_add_one, hthis, Nat.zero_mul] at hgrows
      exact absurd hgrows (Nat.not_lt_zero _)

/-! ## Rounding is monotone and exact -/

theorem le_nearestMagnitude (hpositive : 0 < denominator) {magnitude : Nat}
    (hle : units magnitude * denominator ≤ numerator) :
    magnitude ≤ nearestMagnitude numerator denominator := by
  by_contra! hbelow
  have hmiddle := two_mul_le_of_nearestMagnitude numerator hpositive
  have hgrows := units_strictMono (Nat.lt_succ_self (nearestMagnitude numerator denominator))
  have hnext := units_strictMono.monotone (Nat.succ_le_of_lt hbelow)
  rw [Nat.succ_eq_add_one] at hgrows hnext
  nlinarith

theorem nearestMagnitude_le (hpositive : 0 < denominator) {magnitude : Nat}
    (hle : numerator ≤ units magnitude * denominator) :
    nearestMagnitude numerator denominator ≤ magnitude := by
  by_contra! habove
  obtain ⟨before, hbefore⟩ := Nat.exists_eq_add_one_of_ne_zero (Nat.ne_zero_of_lt habove)
  have hmiddle := le_two_mul_of_nearestMagnitude hpositive hbefore
  have hgrows := units_strictMono (Nat.lt_succ_self before)
  have hkept := units_strictMono.monotone (show magnitude ≤ before by omega)
  rw [Nat.succ_eq_add_one] at hgrows
  nlinarith

theorem nearestMagnitude_units (magnitude : Nat) (hpositive : 0 < denominator) :
    nearestMagnitude (units magnitude * denominator) denominator = magnitude :=
  Nat.le_antisymm (nearestMagnitude_le hpositive le_rfl) (le_nearestMagnitude hpositive le_rfl)

/-- What is nearer to a number than to both of its neighbours is rounded to it. -/
theorem nearestMagnitude_eq_of_between (hpositive : 0 < denominator) {magnitude : Nat}
    (hbelow : ∀ before, magnitude = before + 1 →
      (units before + units magnitude) * denominator < 2 * numerator)
    (habove : 2 * numerator < (units magnitude + units (magnitude + 1)) * denominator) :
    nearestMagnitude numerator denominator = magnitude := by
  rcases Nat.lt_trichotomy (nearestMagnitude numerator denominator) magnitude with
    hless | hequal | hmore
  · obtain ⟨before, rfl⟩ := Nat.exists_eq_add_one_of_ne_zero (Nat.ne_zero_of_lt hless)
    have hmiddle := two_mul_le_of_nearestMagnitude numerator hpositive
    have hfirst := units_strictMono.monotone (Nat.le_of_lt_succ hless)
    have hsecond := units_strictMono.monotone (Nat.succ_le_of_lt hless)
    rw [Nat.succ_eq_add_one] at hsecond
    have := hbelow before rfl
    nlinarith
  · exact hequal
  · obtain ⟨before, hbefore⟩ := Nat.exists_eq_add_one_of_ne_zero (Nat.ne_zero_of_lt hmore)
    have hmiddle := le_two_mul_of_nearestMagnitude hpositive hbefore
    have hfirst := units_strictMono.monotone (show magnitude ≤ before by omega)
    have hsecond := units_strictMono.monotone (show magnitude + 1 ≤ before + 1 by omega)
    nlinarith

/-- Only the ratio counts. -/
theorem nearestMagnitude_congr {otherNumerator otherDenominator : Nat} (hpositive : 0 < denominator)
    (hother : 0 < otherDenominator)
    (hratio : numerator * otherDenominator = otherNumerator * denominator) :
    nearestMagnitude numerator denominator =
      nearestMagnitude otherNumerator otherDenominator := by
  have hwhole : numerator / denominator = otherNumerator / otherDenominator := by
    rw [← Nat.mul_div_mul_right numerator denominator hother, hratio, Nat.mul_comm denominator,
      Nat.mul_div_mul_right _ _ hpositive]
  unfold nearestMagnitude
  simp only
  rw [hwhole]
  congr 1
  set scale := (otherNumerator / otherDenominator).log2 - 52
  rw [← roundHalfEven_mul_mul numerator _ hother,
    ← roundHalfEven_mul_mul otherNumerator _ hpositive]
  congr 1
  · rw [Nat.mul_comm, hratio, Nat.mul_comm]
  · ring

/-! ## Numbers -/

theorem ofQuotient_congr {otherNumerator otherDenominator : Nat} (negative : Bool)
    (hpositive : 0 < denominator) (hother : 0 < otherDenominator)
    (hratio : numerator * otherDenominator = otherNumerator * denominator) :
    ofQuotient negative numerator denominator =
      ofQuotient negative otherNumerator otherDenominator := by
  unfold ofQuotient
  rw [nearestMagnitude_congr hpositive hother hratio]

theorem ofQuotient_eq_finite (negative : Bool) {magnitude : Fin finiteMagnitudes}
    (hnearest : nearestMagnitude numerator denominator = magnitude) :
    ofQuotient negative numerator denominator = finite negative magnitude := by
  have hbounded : nearestMagnitude numerator denominator < finiteMagnitudes :=
    hnearest ▸ magnitude.isLt
  unfold ofQuotient
  simp only
  rw [dif_pos hbounded]
  congr 1
  exact Fin.ext hnearest

theorem ofQuotient_units (negative : Bool) (magnitude : Fin finiteMagnitudes)
    (hpositive : 0 < denominator) :
    ofQuotient negative (units magnitude * denominator) denominator = finite negative magnitude :=
  ofQuotient_eq_finite negative (nearestMagnitude_units magnitude hpositive)

/-- A quotient that is not above a number is rounded to one that is not. -/
theorem ofQuotient_of_le (negative : Bool) (hpositive : 0 < denominator)
    {magnitude : Fin finiteMagnitudes} (hle : numerator ≤ units magnitude * denominator) :
    ∃ nearest : Fin finiteMagnitudes, nearest ≤ magnitude ∧
      nearestMagnitude numerator denominator = nearest ∧
      ofQuotient negative numerator denominator = finite negative nearest := by
  have hnearest := nearestMagnitude_le hpositive hle
  exact ⟨⟨nearestMagnitude numerator denominator, Nat.lt_of_le_of_lt hnearest magnitude.isLt⟩,
    hnearest, rfl, ofQuotient_eq_finite negative rfl⟩

/-- Rounding a quotient of one sign leads to a finite number of that sign or beyond all. -/
theorem ofQuotient_cases (negative : Bool) (numerator denominator : Nat) :
    (∃ magnitude, ofQuotient negative numerator denominator = finite negative magnitude) ∨
      ofQuotient negative numerator denominator = infinite negative := by
  unfold ofQuotient
  simp only
  split_ifs with hbounded
  · exact Or.inl ⟨_, rfl⟩
  · exact Or.inr rfl

/-- A whole number that is not above `2 ^ 1023` is rounded to a finite number. -/
theorem exists_magnitude_of_whole {rest scale : Nat} (hrest : rest ≤ 2 * twoTo 52)
    (hscale : scale ≤ 970) :
    ∃ magnitude : Fin finiteMagnitudes, units magnitude = rest * twoTo scale * unitsInOne := by
  obtain ⟨magnitude, hunits⟩ := exists_units_eq hrest (scale + 1074)
  have hsame : rest * twoTo (scale + 1074) = rest * twoTo scale * unitsInOne := by
    rw [twoTo_add, ← Nat.mul_assoc]
    rfl
  have hbelow : rest * twoTo scale < twoTo 1024 := by
    calc rest * twoTo scale
        ≤ 2 * twoTo 52 * twoTo 970 :=
          Nat.mul_le_mul hrest (twoTo_le_twoTo hscale)
      _ < twoTo 1024 := by decide +kernel
  have hbounded : magnitude < finiteMagnitudes := by
    rw [← units_strictMono.lt_iff_lt, hunits, hsame, units_finiteMagnitudes]
    exact Nat.mul_lt_mul_of_pos_right hbelow unitsInOne_pos
  exact ⟨⟨magnitude, hbounded⟩, hunits.trans hsame⟩

/-! ## The exact value -/

/-- The value of a magnitude. -/
def exact (magnitude : Nat) : Rat := units magnitude / unitsInOne

theorem unitsInOne_ratio_pos : (0 : Rat) < unitsInOne := by
  exact_mod_cast unitsInOne_pos

theorem exact_strictMono : StrictMono exact := by
  intro first second hlt
  have hunits : (units first : Rat) < units second := by exact_mod_cast units_strictMono hlt
  exact div_lt_div_of_pos_right hunits unitsInOne_ratio_pos

theorem value?_finite (negative : Bool) (magnitude : Fin finiteMagnitudes) :
    (finite negative magnitude).value? =
      some (if negative then -exact magnitude else exact magnitude) := by
  have hsize : mkRat (units magnitude) unitsInOne = exact magnitude := by
    rw [Rat.mkRat_eq_div, exact, Int.cast_natCast]
  unfold value?
  simp only
  rw [hsize]

theorem exact_of_whole {magnitude whole : Nat} (hunits : units magnitude = whole * unitsInOne) :
    exact magnitude = whole := by
  rw [exact, hunits, Nat.cast_mul, mul_div_cancel_right₀ _ unitsInOne_ratio_pos.ne']

/-! ## Whole numbers -/

theorem quantity_value? (number : Binary64) : Quantity.value? number = number.value? := rfl

theorem quantity_ofInt (whole : Int) : (Quantity.ofInt whole : Binary64) = ofInt whole := rfl

theorem ofInt_natCast (whole : Nat) :
    ofInt whole = ofQuotient false (whole * unitsInOne) 1 := by
  unfold ofInt
  rw [Int.natAbs_natCast, decide_eq_false (Int.not_lt.mpr (Int.natCast_nonneg whole))]

/-- A whole number of up to 53 bits is kept as it is. -/
theorem exists_ofInt_eq_signed {whole : Int} (hsize : whole.natAbs ≤ twoTo 53) :
    ∃ magnitude : Fin finiteMagnitudes, ofInt whole = finite (whole < 0) magnitude ∧
      units magnitude = whole.natAbs * unitsInOne := by
  obtain ⟨magnitude, hunits⟩ := exists_magnitude_of_whole hsize (Nat.zero_le 970)
  rw [show twoTo 0 = 1 from rfl, Nat.mul_one] at hunits
  refine ⟨magnitude, ?_, hunits⟩
  unfold ofInt
  rw [← hunits]
  exact (congrArg (ofQuotient _ · 1) (Nat.mul_one _)).symm.trans
    (ofQuotient_units (whole < 0) magnitude Nat.one_pos)

theorem value?_ofInt {whole : Int} (hsize : whole.natAbs ≤ twoTo 53) :
    (ofInt whole).value? = some (whole : Rat) := by
  obtain ⟨magnitude, hfinite, hunits⟩ := exists_ofInt_eq_signed hsize
  rw [hfinite, value?_finite, exact_of_whole hunits]
  congr 1
  by_cases hnegative : whole < 0
  · rw [decide_eq_true hnegative, if_pos rfl, Nat.cast_natAbs, abs_of_neg hnegative, Int.cast_neg,
      neg_neg]
  · rw [decide_eq_false hnegative, if_neg Bool.false_ne_true, Nat.cast_natAbs,
      abs_of_nonneg (not_lt.mp hnegative)]

/-- A larger whole number does not fall below one of up to 53 bits. -/
theorem le_value?_ofInt {small whole : Nat} (hsmall : small ≤ twoTo 53) (hle : small ≤ whole)
    (hbounded : whole ≤ twoTo 64) :
    ∃ value, (ofInt whole).value? = some value ∧ (small : Rat) ≤ value := by
  obtain ⟨least, hleast⟩ := exists_magnitude_of_whole hsmall (Nat.zero_le 970)
  obtain ⟨most, hmost⟩ := exists_magnitude_of_whole (show 1 ≤ 2 * twoTo 52 by decide)
    (show 64 ≤ 970 by decide)
  rw [show twoTo 0 = 1 from rfl, Nat.mul_one] at hleast
  rw [Nat.one_mul] at hmost
  obtain ⟨nearest, -, hnearest, hfinite⟩ := ofQuotient_of_le false Nat.one_pos
    (show whole * unitsInOne ≤ units most * 1 by
      rw [hmost, Nat.mul_one]
      exact Nat.mul_le_mul_right _ hbounded)
  have hkept : least.val ≤ nearest := by
    rw [← hnearest]
    apply le_nearestMagnitude Nat.one_pos
    rw [hleast, Nat.mul_one]
    exact Nat.mul_le_mul_right _ hle
  refine ⟨exact nearest, ?_, ?_⟩
  · rw [ofInt_natCast, hfinite, value?_finite]
    rfl
  · rw [← exact_of_whole hleast]
    exact exact_strictMono.monotone hkept

end Binary64

end Throttle
