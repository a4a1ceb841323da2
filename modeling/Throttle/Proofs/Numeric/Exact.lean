import Mathlib
import Throttle.Time

/-!
# The exact reading of token arithmetic

Over `Rat` the operations of `Quantity` are the ordinary ones.  This file says so once, so
that later proofs speak of `min`, `max` and nanoseconds.  The exact reading still rounds in
one place: an amount of seconds becomes a whole number of nanoseconds, and loses half of one
at most (`Duration.mul_le_of_ofSeconds?_eq_some`).
-/

namespace Throttle

/-- The nanoseconds in a second, as a ratio. -/
def nanosRatio : Rat := nanosPerSecond

theorem nanosRatio_pos : 0 < nanosRatio := by
  norm_num [nanosRatio, nanosPerSecond]

namespace Quantity

@[simp] theorem ofInt_rat (whole : Int) : (ofInt whole : Rat) = whole := rfl

theorem ceiling_rat (value : Rat) : ceiling value = (⌈value⌉ : Rat) :=
  congrArg Int.cast (Rat.ceil_eq_neg_floor_neg value)

theorem lesser_rat (first second : Rat) : lesser first second = min first second := by
  simp [lesser, min_def]

theorem greater_rat (first second : Rat) : greater first second = max first second := by
  simp only [greater, max_def, le_refl, if_true]
  by_cases hle : first ≤ second
  · by_cases hge : second ≤ first
    · simp [le_antisymm hle hge]
    · simp [hle, hge]
  · simp [hle, (not_le.mp hle).le]

end Quantity

namespace Duration

/-- The seconds of a duration are its nanoseconds over a billion. -/
theorem inSeconds_rat (duration : Duration) :
    (duration.inSeconds : Rat) = duration.nanos / nanosRatio := by
  have hsplit : (duration.nanos : Rat) =
      (duration.nanos / nanosPerSecond : Nat) * nanosRatio +
        (duration.nanos % nanosPerSecond : Nat) := by
    rw [nanosRatio]
    exact_mod_cast (Nat.div_add_mod' duration.nanos nanosPerSecond).symm
  have hne : nanosRatio ≠ 0 := nanosRatio_pos.ne'
  rw [hsplit, add_div, mul_div_cancel_right₀ _ hne]
  rfl

theorem inSeconds_nonneg (duration : Duration) : 0 ≤ (duration.inSeconds : Rat) := by
  rw [inSeconds_rat]
  have := nanosRatio_pos
  positivity

end Duration

/-- The seconds of a wall time are its nanoseconds over a billion, in either direction. -/
theorem WallTime.inSeconds_rat (wall : WallTime) :
    (wall.inSeconds : Rat) = wall.nanos / nanosRatio := by
  have hsplit : (wall.nanos : Rat) =
      (wall.nanos / nanosPerSecond : Int) * nanosRatio + (wall.nanos % nanosPerSecond : Int) := by
    rw [nanosRatio]
    exact_mod_cast (Int.ediv_mul_add_emod wall.nanos nanosPerSecond).symm
  have hne : nanosRatio ≠ 0 := nanosRatio_pos.ne'
  rw [hsplit, add_div, mul_div_cancel_right₀ _ hne]
  rfl

/-! ## Rounding a refill time -/

/-- Rounding a quotient to the nearest whole number loses half of one at most. -/
theorem two_mul_le_mul_roundHalfEven (numerator : Nat) {denominator : Nat}
    (hpositive : 0 < denominator) :
    2 * numerator ≤ denominator * (2 * roundHalfEven numerator denominator + 1) := by
  have hsplit := Nat.div_add_mod numerator denominator
  have hrest := Nat.mod_lt numerator hpositive
  unfold roundHalfEven
  generalize numerator / denominator = whole at hsplit ⊢
  generalize numerator % denominator = rest at hsplit hrest ⊢
  subst hsplit
  simp only
  split_ifs <;> nlinarith

namespace Duration

/-- A refill time that is rounded to whole nanoseconds loses half of one at most. -/
theorem mul_le_of_ofSeconds?_eq_some {seconds : Rat} {duration : Duration}
    (hround : ofSeconds? seconds = some duration) :
    seconds * nanosRatio ≤ duration.nanos + 1 / 2 := by
  have hvalue : Quantity.value? seconds = some seconds := rfl
  simp only [ofSeconds?, hvalue, Option.ite_none_right_eq_some, Option.some.injEq] at hround
  obtain ⟨⟨hnonneg, -⟩, hnanos⟩ := hround
  have hden : (0 : Rat) < seconds.den := by exact_mod_cast seconds.den_pos
  have hnum : ((seconds.num.toNat : Nat) : Rat) = seconds.num := by
    exact_mod_cast Int.toNat_of_nonneg hnonneg
  have hhalf : 2 * (seconds.num * nanosRatio) ≤ (seconds.den : Rat) * (2 * duration.nanos + 1) := by
    rw [← hnum, ← hnanos, nanosRatio]
    exact_mod_cast two_mul_le_mul_roundHalfEven (seconds.num.toNat * nanosPerSecond) seconds.den_pos
  have hseconds : seconds * seconds.den = seconds.num := Rat.mul_den_eq_num seconds
  refine le_of_mul_le_mul_right ?_ hden
  calc seconds * nanosRatio * seconds.den
      = seconds.num * nanosRatio := by rw [← hseconds]; ring
    _ ≤ (duration.nanos + 1 / 2) * seconds.den := by linarith

end Duration

/-! ## Texts -/

namespace Decimal

/-- The text of a whole number is made of digits and perhaps a minus sign. -/
theorem bar_not_mem_wholeText (number : Int) : '/' ∉ (wholeText number).toList := by
  have hdigits : '/' ∉ digits number.natAbs := fun hmem =>
    absurd (Nat.isDigit_of_mem_toDigits (by decide) (by decide) hmem) (by decide)
  unfold wholeText
  split
  · rw [String.toList_ofList]
    exact List.not_mem_cons_of_ne_of_not_mem (by decide) hdigits
  · rw [String.toList_ofList]
    exact hdigits

theorem toList_wholeText_natCast (number : Nat) :
    (wholeText number).toList = digits number := by
  have hnonneg : ¬ (number : Int) < 0 := Int.not_lt.mpr (Int.natCast_nonneg number)
  rw [wholeText, if_neg hnonneg, String.toList_ofList, Int.natAbs_natCast]

end Decimal

namespace Fraction

theorem takeWhile_ne_bar {characters : List Char} (hbar : '/' ∉ characters) :
    characters.takeWhile (· ≠ '/') = characters ∧ characters.dropWhile (· ≠ '/') = [] := by
  have hall : ∀ character ∈ characters, decide (character ≠ '/') = true := by
    intro character hmem
    exact decide_eq_true fun heq => hbar (heq ▸ hmem)
  exact ⟨List.takeWhile_eq_self_iff.mpr hall, List.dropWhile_eq_nil_iff.mpr hall⟩

/-- An exact text reads back to its value. -/
theorem read?_text (value : Rat) : read? (text value) = some value := by
  obtain ⟨htake, hdrop⟩ := takeWhile_ne_bar (Decimal.bar_not_mem_wholeText value.num)
  have hcharacters : (text value).toList = (Decimal.wholeText value.num).toList ++
      '/' :: (Decimal.wholeText value.den).toList := by
    unfold text
    rw [String.toList_append, String.toList_append, List.append_assoc]
    rfl
  have hnumerator : (text value).toList.takeWhile (· ≠ '/') =
      (Decimal.wholeText value.num).toList := by
    rw [hcharacters, List.takeWhile_append, htake, if_pos rfl]
    simp
  have hdenominator : (text value).toList.dropWhile (· ≠ '/') =
      '/' :: (Decimal.wholeText value.den).toList := by
    rw [hcharacters, List.dropWhile_append, hdrop]
    simp
  have hvalue : mkRat value.num value.den = value := Rat.mkRat_self value
  unfold read?
  simp only [hnumerator, hdenominator, Decimal.readWhole?_wholeText,
    Decimal.toList_wholeText_natCast, Decimal.readNatural?_digits, Option.bind_eq_bind,
    Option.bind_some, value.den_ne_zero, if_false, hvalue]

theorem read?_wholeText (number : Int) :
    read? (Decimal.wholeText number) = some (number : Rat) := by
  obtain ⟨htake, hdrop⟩ := takeWhile_ne_bar (Decimal.bar_not_mem_wholeText number)
  have hvalue : mkRat number 1 = number := Rat.mkRat_one number
  unfold read?
  simp only [htake, hdrop, Decimal.readWhole?_wholeText, Option.map_some, hvalue]

end Fraction

end Throttle
