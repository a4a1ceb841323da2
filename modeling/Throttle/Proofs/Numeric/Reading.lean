import Throttle.Proofs.Numeric.Fourteen
import Throttle.Proofs.Numeric.Grammar

/-!
# What a text is read as

A decimal is read as the number nearest to it, and halfway between two as the one with the even
magnitude.  `Nearest` says so by distances, without the way in which it is computed; no size has
two such numbers (`Nearest.unique`), and every quotient is rounded to one
(`nearest_nearestMagnitude`).  With the grammar of numerals this tells for every text which number
it is read as, if any (`read?_eq_some_iff`).

The order of magnitudes goes on beyond the largest finite one, so that a size too large for a
finite number has a nearest magnitude as well.  A decimal is beyond all finite numbers from
`2 ^ 1024 - 2 ^ 970` on (`Nearest.finite_iff`), and nothing is left of it up to `2 ^ (-1075)`
(`Nearest.eq_zero_iff`): both are halfway between two numbers, of which the even one is taken.  So
these two bounds tell which decimals are finite and not below zero (`exists_amount_of_decimal`).
-/

namespace Throttle.Binary64

open Decimal

/-- The magnitude nearest to a size, as if there were no largest; halfway between two the even
one. -/
structure Nearest (size : Rat) (magnitude : Nat) : Prop where
  closest : ∀ other : Nat, |exact magnitude - size| ≤ |exact other - size|
  even : ∀ other : Nat, other ≠ magnitude → |exact other - size| = |exact magnitude - size| →
    magnitude % 2 = 0

variable {size : Rat} {magnitude other bound : Nat}

/-! ## Between the middles -/

/-- A size between the middles to the two neighbours of a magnitude is not farther from it than
from any other, and nearer to it unless it is one of the middles. -/
theorem abs_sub_le_of_middles
    (hbelow : ∀ before, magnitude = before + 1 → exact before + exact magnitude ≤ 2 * size)
    (habove : 2 * size ≤ exact magnitude + exact (magnitude + 1)) (hother : other ≠ magnitude) :
    |exact magnitude - size| ≤ |exact other - size| ∧
      (|exact other - size| = |exact magnitude - size| →
        2 * size = exact magnitude + exact (magnitude + 1) ∨
          ∃ before, magnitude = before + 1 ∧ exact before + exact magnitude = 2 * size) := by
  rcases Nat.lt_or_gt_of_ne hother with hless | hmore
  · obtain ⟨before, rfl⟩ := Nat.exists_eq_add_one_of_ne_zero (Nat.ne_zero_of_lt hless)
    have hmiddle := hbelow before rfl
    have hgrows := exact_strictMono (Nat.lt_succ_self before)
    have hkept := exact_strictMono.monotone (Nat.le_of_lt_succ hless)
    rw [Nat.succ_eq_add_one] at hgrows
    have hfar : |exact other - size| = size - exact other := by
      rw [abs_sub_comm]
      exact abs_of_nonneg (by linarith)
    rw [hfar]
    refine ⟨abs_le.mpr ⟨by linarith, by linarith⟩, fun hsame => Or.inr ⟨before, rfl, ?_⟩⟩
    rcases abs_choice (exact (before + 1) - size) with habs | habs <;> rw [habs] at hsame <;>
      linarith
  · have hgrows := exact_strictMono (Nat.lt_succ_self magnitude)
    have hkept := exact_strictMono.monotone (Nat.succ_le_of_lt hmore)
    rw [Nat.succ_eq_add_one] at hgrows hkept
    have hfar : |exact other - size| = exact other - size := abs_of_nonneg (by linarith)
    rw [hfar]
    refine ⟨abs_le.mpr ⟨by linarith, by linarith⟩, fun hsame => Or.inl ?_⟩
    rcases abs_choice (exact magnitude - size) with habs | habs <;> rw [habs] at hsame <;>
      linarith

namespace Nearest

/-- The nearest magnitude is on the near side of the middle to the next one. -/
theorem le_middle (hnearest : Nearest size magnitude) :
    2 * size ≤ exact magnitude + exact (magnitude + 1) := by
  have hgrows := exact_strictMono (Nat.lt_succ_self magnitude)
  have hcloser := hnearest.closest (magnitude + 1)
  rw [Nat.succ_eq_add_one] at hgrows
  by_contra! hbeyond
  have hfar : exact magnitude - size < 0 := by linarith
  rw [abs_of_neg hfar] at hcloser
  rcases abs_choice (exact (magnitude + 1) - size) with habs | habs <;> rw [habs] at hcloser <;>
    linarith

/-- The nearest magnitude is on the near side of the middle to the one before. -/
theorem middle_le (hnearest : Nearest size (magnitude + 1)) :
    exact magnitude + exact (magnitude + 1) ≤ 2 * size := by
  have hgrows := exact_strictMono (Nat.lt_succ_self magnitude)
  have hcloser := hnearest.closest magnitude
  rw [Nat.succ_eq_add_one] at hgrows
  by_contra! hbeyond
  have hfar : 0 < exact (magnitude + 1) - size := by linarith
  rw [abs_of_pos hfar] at hcloser
  rcases abs_choice (exact magnitude - size) with habs | habs <;> rw [habs] at hcloser <;>
    linarith

/-- In the middle between two magnitudes both are equally near. -/
theorem not_middle_of_odd (hnearest : Nearest size magnitude) (hodd : magnitude % 2 = 1)
    (hother : other ≠ magnitude) : exact other + exact magnitude ≠ 2 * size := by
  intro hmiddle
  have hsame : |exact other - size| = |exact magnitude - size| := by
    rw [abs_eq_abs]
    exact Or.inr (by linarith)
  have := hnearest.even other hother hsame
  omega

/-- What is not above an even magnitude is nearest to it or to one below, the middle to the next
one included. -/
theorem le_iff (hnearest : Nearest size magnitude) (heven : bound % 2 = 0) :
    magnitude ≤ bound ↔ 2 * size ≤ exact bound + exact (bound + 1) := by
  constructor
  · intro hle
    have hfirst := exact_strictMono.monotone hle
    have hsecond := exact_strictMono.monotone (Nat.succ_le_succ hle)
    have := hnearest.le_middle
    rw [Nat.succ_eq_add_one, Nat.succ_eq_add_one] at hsecond
    linarith
  · intro hreached
    by_contra! hmore
    obtain ⟨before, rfl⟩ := Nat.exists_eq_add_one_of_ne_zero (Nat.ne_zero_of_lt hmore)
    have hmiddle := hnearest.middle_le
    have hfirst := exact_strictMono.monotone (Nat.le_of_lt_succ hmore)
    have hsecond := exact_strictMono.monotone (Nat.succ_le_of_lt hmore)
    rw [Nat.succ_eq_add_one] at hsecond
    -- the middle itself is left, and the magnitude above it is odd
    have hsame : bound + 1 = before + 1 := exact_strictMono.injective (by linarith)
    have hodd : (before + 1) % 2 = 1 := by omega
    exact hnearest.not_middle_of_odd hodd (Nat.ne_of_lt (Nat.lt_succ_self before)) (by linarith)

/-- What reaches the middle below an even magnitude is nearest to it or to one above. -/
theorem lt_iff (hnearest : Nearest size magnitude) (heven : (bound + 1) % 2 = 0) :
    magnitude < bound + 1 ↔ 2 * size < exact bound + exact (bound + 1) := by
  constructor
  · intro hless
    have hle := Nat.le_of_lt_succ hless
    have hfirst := exact_strictMono.monotone hle
    have hsecond := exact_strictMono.monotone (Nat.succ_le_succ hle)
    have hmiddle := hnearest.le_middle
    rw [Nat.succ_eq_add_one, Nat.succ_eq_add_one] at hsecond
    refine lt_of_le_of_ne (by linarith) fun hsame => ?_
    have hequal : magnitude = bound := exact_strictMono.injective (by linarith)
    have hodd : magnitude % 2 = 1 := by omega
    refine hnearest.not_middle_of_odd hodd (Nat.succ_ne_self magnitude) ?_
    rw [Nat.succ_eq_add_one, hequal]
    linarith
  · intro hbelow
    by_contra! hle
    obtain ⟨before, rfl⟩ := Nat.exists_eq_add_one_of_ne_zero (Nat.ne_zero_of_lt hle)
    have hfirst := exact_strictMono.monotone (Nat.le_of_succ_le_succ hle)
    have hsecond := exact_strictMono.monotone hle
    have := hnearest.middle_le
    linarith

/-- A size has one nearest magnitude: of two, the smaller would be even and yet not taken. -/
theorem unique (hfirst : Nearest size magnitude) (hsecond : Nearest size other) :
    magnitude = other := by
  wlog hle : magnitude ≤ other generalizing magnitude other
  · exact (this hsecond hfirst (Nat.le_of_not_le hle)).symm
  by_contra hne
  have hsame := le_antisymm (hfirst.closest other) (hsecond.closest magnitude)
  have heven := hfirst.even other (Ne.symm hne) hsame.symm
  have hmiddle := (hfirst.le_iff heven).mp le_rfl
  exact hne (le_antisymm hle ((hsecond.le_iff heven).mpr hmiddle))

end Nearest

/-! ## Rounding finds the nearest -/

/-- Rounding in the middle between two magnitudes leads to the even one. -/
theorem nearestMagnitude_even_of_middle {numerator denominator : Nat} (hpositive : 0 < denominator)
    (hnearest : nearestMagnitude numerator denominator = magnitude)
    (hmiddle : 2 * numerator = (units magnitude + units (magnitude + 1)) * denominator ∨
      ∃ before, magnitude = before + 1 ∧
        (units before + units magnitude) * denominator = 2 * numerator) :
    magnitude % 2 = 0 := by
  obtain ⟨scale, rest, hcases, hrest, hfull, -, -, hrounded⟩ :=
    nearestMagnitude_cases numerator hpositive
  have hscaled : 0 < denominator * twoTo scale := Nat.mul_pos hpositive (twoTo_pos scale)
  have hfull' : scale = 0 ∨ twoTo 52 ≤ rest := hfull.imp_right And.left
  have hbinade : twoTo 52 = 2 * twoTo 51 := twoTo_succ 51
  have hplaced : magnitude = scale * twoTo 52 + rest := hnearest.symm.trans hcases
  have hparity : magnitude % 2 = rest % 2 := by
    rw [hplaced, hbinade, Nat.mul_left_comm, Nat.mul_add_mod]
  rw [hparity]
  by_contra hodd
  -- an odd number has both neighbours in its binade, so the middles are halfway between wholes
  have hthis : units magnitude = rest * twoTo scale := by
    rw [hplaced, units_of_scale hrest hfull']
  rcases hmiddle with habove | ⟨before, hbefore, hbelow⟩
  · have hnext : units (magnitude + 1) = (rest + 1) * twoTo scale := by
      rw [hplaced, Nat.add_assoc, units_of_scale (by omega) (by omega)]
    have hhalfway : 2 * numerator = denominator * twoTo scale * (2 * rest + 1) := by
      rw [habove, hthis, hnext]
      ring
    rw [hrounded] at hhalfway hodd
    exact hodd (roundHalfEven_even_of_halfway hscaled hhalfway)
  · obtain ⟨less, rfl⟩ : ∃ less, rest = less + 1 :=
      Nat.exists_eq_add_one_of_ne_zero fun hzero => hodd (by rw [hzero])
    have hlast : units before = less * twoTo scale := by
      rw [show before = scale * twoTo 52 + less by omega,
        units_of_scale (by omega) (by omega)]
    have hhalfway : denominator * twoTo scale * (2 * (less + 1)) =
        2 * numerator + denominator * twoTo scale := by
      rw [← hbelow, hthis, hlast]
      ring
    rw [hrounded] at hhalfway hodd
    exact hodd (roundHalfEven_even_of_raised hscaled hhalfway)

/-- **Every quotient of units is rounded to the magnitude nearest to it.** -/
theorem nearest_nearestMagnitude (numerator : Nat) {denominator : Nat}
    (hpositive : 0 < denominator) :
    Nearest (numerator / (denominator * unitsInOne)) (nearestMagnitude numerator denominator) := by
  have hwhole : (0 : Rat) < denominator * unitsInOne := by
    exact_mod_cast Nat.mul_pos hpositive unitsInOne_pos
  -- the middles are compared in units
  have hmiddle : ∀ first second : Nat, exact first + exact second =
      ((units first + units second) * denominator : Nat) / (denominator * unitsInOne : Rat) := by
    intro first second
    have hdenominator : (denominator : Rat) ≠ 0 := by exact_mod_cast hpositive.ne'
    rw [exact, exact, ← add_div, Nat.cast_mul, mul_comm (denominator : Rat),
      mul_div_mul_right _ _ hdenominator, Nat.cast_add]
  have hdouble : 2 * (numerator / (denominator * unitsInOne) : Rat) =
      (2 * numerator : Nat) / (denominator * unitsInOne : Rat) := by
    rw [mul_div_assoc', Nat.cast_mul, Nat.cast_ofNat]
  set size : Rat := numerator / (denominator * unitsInOne)
  set magnitude := nearestMagnitude numerator denominator with hnearest
  have hbelow : ∀ before, magnitude = before + 1 → exact before + exact magnitude ≤ 2 * size := by
    intro before hbefore
    rw [hmiddle, hdouble, div_le_div_iff_of_pos_right hwhole, hbefore]
    exact_mod_cast le_two_mul_of_nearestMagnitude hpositive hbefore
  have habove : 2 * size ≤ exact magnitude + exact (magnitude + 1) := by
    rw [hmiddle, hdouble, div_le_div_iff_of_pos_right hwhole]
    exact_mod_cast two_mul_le_of_nearestMagnitude numerator hpositive
  refine ⟨fun other => ?_, fun other hother hsame => ?_⟩
  · by_cases hother : other = magnitude
    · rw [hother]
    · exact (abs_sub_le_of_middles hbelow habove hother).1
  · apply nearestMagnitude_even_of_middle hpositive hnearest.symm
    rcases (abs_sub_le_of_middles hbelow habove hother).2 hsame with
      hnext | ⟨before, hbefore, hlast⟩
    · rw [hmiddle, hdouble, div_left_inj' hwhole.ne'] at hnext
      exact Or.inl (by exact_mod_cast hnext)
    · rw [hmiddle, hdouble, div_left_inj' hwhole.ne'] at hlast
      exact Or.inr ⟨before, hbefore, by exact_mod_cast hlast⟩

/-! ## Decimals -/

/-- The number of a sign and a magnitude, beyond every finite one if there is none of the
magnitude. -/
def ofMagnitude (negative : Bool) (magnitude : Nat) : Binary64 :=
  if bounded : magnitude < finiteMagnitudes then finite negative ⟨magnitude, bounded⟩
  else infinite negative

theorem nearest_decimal (digits : Nat) (place : Int) :
    Nearest (digits * 10 ^ place)
      (nearestMagnitude (digits * tenTo place.toNat * unitsInOne) (tenTo (-place).toNat)) := by
  have hsize : ((digits * tenTo place.toNat * unitsInOne : Nat) : Rat) /
      ((tenTo (-place).toNat : Nat) * unitsInOne) = digits * 10 ^ place := by
    rw [Nat.cast_mul, mul_div_mul_right _ _ unitsInOne_ratio_pos.ne', Nat.cast_mul, tenTo_zpow,
      mul_div_assoc']
  rw [← hsize]
  exact nearest_nearestMagnitude _ (tenTo_pos _)

theorem ofDecimal_eq_ofMagnitude {digits : Nat} {place : Int} (negative : Bool)
    (hnearest : Nearest (digits * 10 ^ place) magnitude) :
    ofDecimal negative digits place = ofMagnitude negative magnitude := by
  rw [ofDecimal_eq_ofQuotient, hnearest.unique (nearest_decimal digits place)]
  rfl

/-! ## Texts -/

/-- What a text is read as. -/
inductive Reads (text : String) : Binary64 → Prop
  | decimal {negative : Bool} {size : Rat} {magnitude : Nat}
      (hdecimal : IsDecimal text.toList negative size) (hnearest : Nearest size magnitude) :
      Reads text (ofMagnitude negative magnitude)
  | infinity {negative : Bool} (hword : IsWord infinityWords text.toList negative) :
      Reads text (infinite negative)
  | noValue {negative : Bool} (hword : IsWord noValueWords text.toList negative) :
      Reads text (nan negative)

/-- **A text is read as the number that the grammar gives it**, and not at all if it gives
none. -/
theorem read?_eq_some_iff {text : String} {number : Binary64} :
    Quantity.read? text = some number ↔ Reads text number := by
  change (Numeral.read? text).map ofNumeral = some number ↔ Reads text number
  constructor
  · intro hread
    obtain ⟨numeral, hnumeral, rfl⟩ := Option.map_eq_some_iff.mp hread
    rcases cases_of_read? hnumeral with ⟨negative, digits, place, rfl, hdecimal⟩ |
      ⟨negative, rfl, hword⟩ | ⟨negative, rfl, hword⟩
    · have hnearest := nearest_decimal digits place
      rw [ofNumeral_value, ofDecimal_eq_ofMagnitude negative hnearest]
      exact .decimal hdecimal hnearest
    · exact .infinity hword
    · exact .noValue hword
  · rintro (⟨hdecimal, hnearest⟩ | hword | hword)
    · obtain ⟨digits, place, hread, rfl⟩ := hdecimal.reads
      rw [hread, Option.map_some, ofNumeral_value, ofDecimal_eq_ofMagnitude _ hnearest]
    · rw [IsWord.reads.1 hword]
      rfl
    · rw [IsWord.reads.2 hword]
      rfl

/-! ## Beyond the largest and below the smallest -/

/-- The least size that is beyond every finite number. -/
def overflow : Rat := 2 ^ 1024 - 2 ^ 970

/-- The largest size that nothing is left of. -/
def underflow : Rat := 1 / 2 ^ 1075

theorem Nearest.finite_iff (hnearest : Nearest size magnitude) :
    magnitude < finiteMagnitudes ↔ size < overflow := by
  have hlast : exact (finiteMagnitudes - 1) + exact (finiteMagnitudes - 1 + 1) = 2 * overflow := by
    have hunits : units (finiteMagnitudes - 1) + units finiteMagnitudes +
        2 * twoTo 970 * unitsInOne = 2 * twoTo 1024 * unitsInOne := by decide +kernel
    have hcast : (units (finiteMagnitudes - 1) + units finiteMagnitudes +
        2 * twoTo 970 * unitsInOne : Rat) = 2 * twoTo 1024 * unitsInOne := by
      exact_mod_cast hunits
    rw [Nat.sub_add_cancel (by decide), exact, exact, ← add_div,
      div_eq_iff unitsInOne_ratio_pos.ne', overflow, ← cast_twoTo, ← cast_twoTo]
    linear_combination hcast
  have heven : (finiteMagnitudes - 1 + 1) % 2 = 0 := by decide
  have hbound := hnearest.lt_iff heven
  rw [hlast, Nat.sub_add_cancel (by decide)] at hbound
  rw [hbound, mul_lt_mul_iff_right₀ two_pos]

theorem Nearest.eq_zero_iff (hnearest : Nearest size magnitude) :
    magnitude = 0 ↔ size ≤ underflow := by
  have hfirst : exact 0 + exact (0 + 1) = 2 * underflow := by
    have hunits : units 1 = 1 := by decide
    rw [exact_zero, zero_add, zero_add, exact, hunits, Nat.cast_one, underflow, unitsInOne,
      cast_twoTo, pow_succ' 2 1074, ← div_div, mul_div_assoc', mul_one_div_cancel two_ne_zero]
  rw [← Nat.le_zero, hnearest.le_iff rfl, hfirst, mul_le_mul_iff_right₀ two_pos]

/-- A decimal against the underflow, in whole numbers. -/
theorem mul_zpow_le_underflow_iff {digits : Nat} {place : Int} :
    (digits : Rat) * 10 ^ place ≤ underflow ↔
      digits * tenTo place.toNat * twoTo 1075 ≤ tenTo (-place).toNat := by
  have hden : (0 : Rat) < tenTo (-place).toNat := by exact_mod_cast tenTo_pos _
  have hunits : (0 : Rat) < twoTo 1075 := by exact_mod_cast twoTo_pos _
  rw [underflow, ← cast_twoTo, tenTo_zpow, mul_div_assoc', div_le_div_iff₀ hden hunits, one_mul]
  exact_mod_cast Iff.rfl

theorem underflow_lt_overflow : underflow < overflow := by
  have hunits : twoTo 970 * twoTo 1075 + 1 < twoTo 1024 * twoTo 1075 := by decide +kernel
  have hpositive : (0 : Rat) < twoTo 1075 := by exact_mod_cast twoTo_pos _
  rw [underflow, overflow, ← cast_twoTo, ← cast_twoTo, ← cast_twoTo, div_lt_iff₀ hpositive,
    sub_mul, lt_sub_iff_add_lt']
  exact_mod_cast hunits

/-! ## Amounts -/

/-- A number that says how much there is: it is finite and not below zero.  Minus zero is one. -/
def IsAmount (number : Binary64) : Prop := ∃ value, number.value? = some value ∧ 0 ≤ value

theorem isAmount_finite_iff {negative : Bool} {magnitude : Fin finiteMagnitudes} :
    (finite negative magnitude).IsAmount ↔ (negative = true → magnitude.val = 0) := by
  have hvalue : (finite negative magnitude).IsAmount ↔
      0 ≤ if negative then -exact magnitude else exact magnitude := by
    unfold IsAmount
    simp only [value?_finite, Option.some.injEq, exists_eq_left']
  rw [hvalue]
  cases negative with
  | false => exact iff_of_true (exact_nonneg magnitude) nofun
  | true =>
      rw [if_pos rfl, neg_nonneg, ← exact_zero, exact_strictMono.le_iff_le, Nat.le_zero,
        imp_iff_right rfl]

theorem finite_lt_zero_iff {negative : Bool} {magnitude : Fin finiteMagnitudes} :
    finite negative magnitude < ofInt 0 ↔ negative = true ∧ magnitude.val ≠ 0 := by
  have hplace : finite negative magnitude < ofInt 0 ↔
      (if negative then -(magnitude.val : Int) else magnitude.val) < 0 := by
    constructor
    · rintro ⟨_, ⟨⟩, place, hplace, hless⟩
      rwa [Option.some.inj (place?_ofInt_zero.symm.trans hplace)]
    · exact fun hless => ⟨_, rfl, 0, place?_ofInt_zero, hless⟩
  rw [hplace]
  cases negative with
  | false => simp
  | true =>
      simp only [if_true, true_and]
      omega

theorem isAmount_iff {number : Binary64} :
    number.IsAmount ↔ Quantity.isFinite number = true ∧ ¬ number < ofInt 0 := by
  cases number with
  | nan negative => exact iff_of_false (fun ⟨_, hvalue, _⟩ => nomatch hvalue) (fun h => nomatch h.1)
  | infinite negative =>
      exact iff_of_false (fun ⟨_, hvalue, _⟩ => nomatch hvalue) (fun h => nomatch h.1)
  | finite negative magnitude =>
      have hfinite : Quantity.isFinite (finite negative magnitude) = true := rfl
      rw [isAmount_finite_iff, and_iff_right hfinite, finite_lt_zero_iff, not_and, not_not]

theorem isAmount_ofMagnitude_iff {negative : Bool} :
    (ofMagnitude negative magnitude).IsAmount ↔
      magnitude < finiteMagnitudes ∧ (negative = true → magnitude = 0) := by
  unfold ofMagnitude
  split_ifs with hbounded
  · rw [isAmount_finite_iff, and_iff_right hbounded]
  · exact iff_of_false (fun ⟨_, hvalue, _⟩ => nomatch hvalue) (fun h => hbounded h.1)

/-- A text is read as one number at most. -/
theorem Reads.unique {text : String} {first second : Binary64} (hfirst : Reads text first)
    (hsecond : Reads text second) : first = second :=
  Option.some.inj ((read?_eq_some_iff.mpr hfirst).symm.trans (read?_eq_some_iff.mpr hsecond))

/-- **Which decimals are amounts**: those that do not overflow, and with a minus sign those that
nothing is left of. -/
theorem exists_amount_of_decimal {text : String} {negative : Bool}
    (hdecimal : IsDecimal text.toList negative size) :
    (∃ number, Reads text number ∧ number.IsAmount) ↔
      size < overflow ∧ (negative = true → size ≤ underflow) := by
  obtain ⟨digits, place, -, hsize⟩ := hdecimal.reads
  have hnearest := nearest_decimal digits place
  rw [hsize] at hnearest
  have hreads := Reads.decimal hdecimal hnearest
  rw [← hnearest.finite_iff, ← hnearest.eq_zero_iff, ← isAmount_ofMagnitude_iff]
  constructor
  · rintro ⟨number, hnumber, hamount⟩
    rwa [← hnumber.unique hreads]
  · exact fun hamount => ⟨_, hreads, hamount⟩

/-- No word is an amount. -/
theorem not_amount_of_word {text : String} {negative : Bool} {number : Binary64}
    (hword : IsWord (infinityWords ++ noValueWords) text.toList negative)
    (hreads : Reads text number) : ¬ number.IsAmount := by
  rintro ⟨value, hvalue, -⟩
  rcases hword.of_append with hinfinity | hnoValue
  · rw [hreads.unique (.infinity hinfinity)] at hvalue
    cases hvalue
  · rw [hreads.unique (.noValue hnoValue)] at hvalue
    cases hvalue

end Throttle.Binary64
