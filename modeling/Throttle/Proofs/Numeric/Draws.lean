import Throttle.Proofs.Numeric.Tokens

/-!
# Drawing on a level

A bucket is refilled to some level, and a token is drawn from it if there is one (`drawn`).  Up to
`2 ^ 53` a token is taken from a level exactly (`finite_sub_one`), so as long as nothing is
refilled, a level is not drawn on more often than it has tokens (`countP_draws_le`).

What a call should leave to others depends on its own burst (`TokenTake.WithinBurst`).  It does so
if the level is not beyond the burst, and up to `2 ^ 53` only then (`le_of_withinBurst_drawn`).
-/

namespace Throttle

open Binary64

namespace Binary64

/-! ## Rounding in order -/

section

variable {numerator other denominator : Nat}

/-- A larger quotient is not rounded to a smaller number. -/
theorem nearestMagnitude_mono (hpositive : 0 < denominator) (hle : numerator ≤ other) :
    nearestMagnitude numerator denominator ≤ nearestMagnitude other denominator := by
  by_contra! hless
  obtain ⟨before, hbefore⟩ := Nat.exists_eq_add_one_of_ne_zero (Nat.ne_zero_of_lt hless)
  have habove := le_two_mul_of_nearestMagnitude hpositive hbefore
  have hbelow := two_mul_le_of_nearestMagnitude other hpositive
  have hkept : nearestMagnitude other denominator ≤ before := by omega
  have hfirst := units_strictMono.monotone hkept
  have hsecond := units_strictMono.monotone (Nat.succ_le_succ hkept)
  -- both are then in the middle between two neighbours, so they are one quotient
  have hmiddle := Nat.mul_le_mul_right denominator (Nat.add_le_add hfirst hsecond)
  obtain rfl : numerator = other := by
    simp only [Nat.succ_eq_add_one] at hmiddle
    omega
  exact hless.ne rfl

theorem nearestMagnitude_pos (hpositive : 0 < denominator) (hle : denominator ≤ numerator) :
    0 < nearestMagnitude numerator denominator := by
  refine le_nearestMagnitude hpositive ?_
  rwa [show units 1 = 1 by decide, Nat.one_mul]

end

theorem not_lt_of_le {first second : Binary64} (hle : first ≤ second) : ¬ second < first := by
  rintro ⟨more, hmore, less, hless, hlt⟩
  obtain ⟨left, hleft, right, hright, hbelow⟩ := hle
  obtain rfl := Option.some.inj (hmore.symm.trans hright)
  obtain rfl := Option.some.inj (hless.symm.trans hleft)
  omega

theorem IsUpward.le_iff_not_lt {first second : Binary64} (hfirst : first.IsUpward)
    (hsecond : second.IsUpward) : first ≤ second ↔ ¬ second < first :=
  ⟨not_lt_of_le, hsecond.le_of_not_lt hfirst⟩

theorem IsUpward.le_refl {number : Binary64} (hnumber : number.IsUpward) : number ≤ number := by
  rcases hnumber with ⟨magnitude, rfl⟩ | rfl
  · exact ⟨_, rfl, _, rfl, le_rfl⟩
  · exact ⟨_, rfl, _, rfl, le_rfl⟩

/-- What is cut down to a capacity is a token count that is not beyond it. -/
theorem IsUpward.isCount_lesser {number bound : Binary64} (hnumber : number.IsUpward)
    (hbound : bound.IsCount) :
    (Quantity.lesser number bound).IsCount ∧ Quantity.lesser number bound ≤ bound := by
  unfold Quantity.lesser
  by_cases hle : number ≤ bound
  · rw [if_pos hle]
    exact ⟨hnumber.isCount hbound hle, hle⟩
  · rw [if_neg hle, if_pos hbound.isUpward.le_refl]
    exact ⟨hbound, hbound.isUpward.le_refl⟩

/-! ## Whole numbers -/

/-- A whole number of up to 53 bits. -/
theorem exists_ofInt_eq {whole : Nat} (hsize : whole ≤ twoTo 53) :
    ∃ magnitude : Fin finiteMagnitudes, ofInt whole = finite false magnitude ∧
      units magnitude = whole * unitsInOne := by
  have hsigned : (whole : Int).natAbs ≤ twoTo 53 := hsize
  have hsign : ¬ (whole : Int) < 0 := by omega
  obtain ⟨magnitude, hfinite, hunits⟩ := exists_ofInt_eq_signed hsigned
  rw [decide_eq_false hsign] at hfinite
  exact ⟨magnitude, hfinite, hunits⟩

/-! ## Taking one -/

/-- A number between one and `2 ^ 53` has no place below the units of one. -/
theorem exists_units_fine {magnitude : Nat} (hlow : unitsInOne ≤ units magnitude)
    (hhigh : units magnitude ≤ twoTo 53 * unitsInOne) :
    ∃ rest scale, units magnitude = rest * twoTo scale ∧ rest ≤ 2 * twoTo 52 ∧ scale ≤ 1074 := by
  obtain ⟨scale, rest, rfl, hrest, hfull⟩ := exists_scale magnitude
  rw [units_of_scale hrest.le hfull] at hlow hhigh ⊢
  rcases Nat.lt_or_ge scale 1075 with hfine | hcoarse
  · exact ⟨rest, scale, rfl, hrest.le, by omega⟩
  · -- the only such number with a coarser last place is the largest
    have hpositive : twoTo 52 ≤ rest := hfull.resolve_left (by omega)
    have hlargest : twoTo 53 * unitsInOne ≤ rest * twoTo scale := by
      calc twoTo 53 * unitsInOne = twoTo 52 * twoTo 1075 := by
            rw [unitsInOne, ← twoTo_add, ← twoTo_add]
        _ ≤ rest * twoTo scale := Nat.mul_le_mul hpositive (twoTo_le_twoTo hcoarse)
    refine ⟨twoTo 53, 1074, ?_, le_rfl, le_rfl⟩
    rw [← unitsInOne]
    exact Nat.le_antisymm hhigh hlargest

/-- **One is taken exactly** from a number of up to 53 bits before the point. -/
theorem finite_sub_one {magnitude : Fin finiteMagnitudes} (hlow : unitsInOne ≤ units magnitude)
    (hhigh : units magnitude ≤ twoTo 53 * unitsInOne) :
    ∃ rest : Fin finiteMagnitudes, finite false magnitude - ofInt 1 = finite false rest ∧
      units rest + unitsInOne = units magnitude := by
  obtain ⟨digits, scale, hunits, hdigits, hscale⟩ := exists_units_fine hlow hhigh
  have hone : unitsInOne = twoTo (1074 - scale) * twoTo scale := by
    rw [← twoTo_add, Nat.sub_add_cancel hscale]
    rfl
  obtain ⟨rest, hrest⟩ := exists_units_eq
    ((Nat.sub_le digits (twoTo (1074 - scale))).trans hdigits) scale
  rw [Nat.sub_mul, ← hunits, ← hone] at hrest
  have hless : rest < finiteMagnitudes := by
    refine lt_of_le_of_lt ?_ magnitude.isLt
    rw [← units_strictMono.le_iff_le, hrest]
    exact Nat.sub_le _ _
  have hfits : units one ≤ units magnitude := units_one.trans_le hlow
  refine ⟨⟨rest, hless⟩, ?_, ?_⟩
  · rw [ofInt_one, finite_sub_finite hfits, units_one, ← hrest]
    split_ifs with hzero
    · obtain rfl : rest = 0 := units_strictMono.injective (hzero.trans units_zero.symm)
      rfl
    · rw [← Nat.mul_one (units rest)]
      exact ofQuotient_units false ⟨rest, hless⟩ Nat.one_pos
  · simp only [hrest]
    omega

theorem exists_ofInt_sub_one {whole : Nat} (hpositive : 1 ≤ whole) (hsize : whole ≤ twoTo 53) :
    ∃ rest : Fin finiteMagnitudes, ofInt whole - ofInt 1 = finite false rest ∧
      units rest = (whole - 1 : Nat) * unitsInOne := by
  obtain ⟨magnitude, hmagnitude, hunits⟩ := exists_ofInt_eq hsize
  obtain ⟨rest, hrest, hrestUnits⟩ := finite_sub_one
    (by rw [hunits]; exact Nat.le_mul_of_pos_left _ hpositive)
    (by rw [hunits]; exact Nat.mul_le_mul_right _ hsize)
  refine ⟨rest, by rw [hmagnitude, hrest], ?_⟩
  rw [Nat.sub_mul, Nat.one_mul]
  omega

theorem one_le_iff {magnitude : Fin finiteMagnitudes} :
    ofInt 1 ≤ finite false magnitude ↔ unitsInOne ≤ units magnitude := by
  rw [ofInt_one, finite_le_finite_iff, Fin.le_def, ← units_strictMono.le_iff_le, units_one]

theorem finite_lt_finite_iff {first second : Fin finiteMagnitudes} :
    finite false first < finite false second ↔ first < second := by
  constructor
  · rintro ⟨_, ⟨⟩, _, ⟨⟩, hless⟩
    exact Int.ofNat_lt.mp hless
  · intro hless
    exact ⟨_, rfl, _, rfl, Int.ofNat_lt.mpr hless⟩

theorem exists_sub_one {magnitude : Fin finiteMagnitudes} (hone : one ≤ magnitude) :
    ∃ rest : Fin finiteMagnitudes, finite false magnitude - ofInt 1 = finite false rest ∧
      rest.val = nearestMagnitude (units magnitude - unitsInOne) 1 := by
  rw [ofInt_one, finite_sub_finite (units_strictMono.monotone hone), units_one]
  split_ifs with hzero
  · refine ⟨⟨0, by decide⟩, rfl, ?_⟩
    rw [hzero]
    exact (nearestMagnitude_units 0 Nat.one_pos).symm
  · have hbelow : units magnitude - unitsInOne ≤ units magnitude * 1 := by omega
    obtain ⟨nearest, -, hnearest, hfinite⟩ := ofQuotient_of_le false Nat.one_pos hbelow
    exact ⟨nearest, hfinite, hnearest.symm⟩

/-- What is left of a larger number is not smaller. -/
theorem sub_one_le_sub_one {first second : Fin finiteMagnitudes} (hone : one ≤ first)
    (hle : first ≤ second) : finite false first - ofInt 1 ≤ finite false second - ofInt 1 := by
  obtain ⟨less, hless, hlessVal⟩ := exists_sub_one hone
  obtain ⟨more, hmore, hmoreVal⟩ := exists_sub_one (hone.trans hle)
  rw [hless, hmore, finite_le_finite_iff, Fin.le_def, hlessVal, hmoreVal]
  exact nearestMagnitude_mono Nat.one_pos (Nat.sub_le_sub_right (units_strictMono.monotone hle) _)

/-- The numbers beyond `2 ^ 53` are two apart, so what is left of one is not below `2 ^ 53`. -/
theorem le_sub_one_of_large {magnitude : Fin finiteMagnitudes}
    (hlarge : twoTo 53 * unitsInOne < units magnitude) :
    ∃ rest : Fin finiteMagnitudes, finite false magnitude - ofInt 1 = finite false rest ∧
      twoTo 53 * unitsInOne ≤ units rest := by
  have hone : one ≤ magnitude := by
    rw [Fin.le_def, ← units_strictMono.le_iff_le, units_one]
    exact (Nat.le_mul_of_pos_left _ (twoTo_pos 53)).trans hlarge.le
  have hdouble : twoTo 1075 = 2 * unitsInOne := by rw [unitsInOne, ← twoTo_succ]
  have hlast : units (1075 * twoTo 52 + twoTo 52) = twoTo 53 * unitsInOne := by
    rw [units_of_scale (by decide) (Or.inr le_rfl), hdouble, twoTo_succ 52]
    ring
  have hnext : units (1075 * twoTo 52 + (twoTo 52 + 1)) =
      twoTo 53 * unitsInOne + 2 * unitsInOne := by
    rw [units_of_scale (by decide) (Or.inr (Nat.le_succ _)), hdouble, twoTo_succ 52,
      Nat.succ_eq_add_one]
    ring
  obtain ⟨rest, hrest, hnearest⟩ := exists_sub_one hone
  refine ⟨rest, hrest, ?_⟩
  rw [← hlast, units_strictMono.lt_iff_lt] at hlarge
  have hfar := units_strictMono.monotone (Nat.succ_le_of_lt hlarge)
  rw [Nat.succ_eq_add_one, Nat.add_assoc, hnext] at hfar
  rw [← hlast, units_strictMono.le_iff_le, hnearest]
  refine le_nearestMagnitude Nat.one_pos ?_
  rw [hlast]
  omega

/-! ## Seconds -/

theorem zero_lt_ofQuotient {numerator denominator : Nat} (hpositive : 0 < denominator)
    (hle : denominator ≤ numerator) : ofInt 0 < ofQuotient false numerator denominator := by
  have hnearest := nearestMagnitude_pos hpositive hle
  rcases Nat.lt_or_ge (nearestMagnitude numerator denominator) finiteMagnitudes with
    hfinite | hlarge
  · have hquotient : ofQuotient false numerator denominator =
        finite false ⟨nearestMagnitude numerator denominator, hfinite⟩ :=
      ofQuotient_eq_finite false rfl
    rw [hquotient]
    exact ⟨0, place?_ofInt_zero, _, rfl, Int.natCast_pos.mpr hnearest⟩
  · have hinfinite : ofQuotient false numerator denominator = infinite false :=
      dif_neg (Nat.not_lt.mpr hlarge)
    rw [hinfinite]
    exact ⟨0, place?_ofInt_zero, _, rfl, by decide⟩

/-- The sum of two numbers that are not negative is above zero if one of them is. -/
theorem zero_lt_add {first : Binary64} (hfirst : first.IsUpward) (second : Fin finiteMagnitudes)
    (hpositive : ofInt 0 < first ∨ 0 < second.val) : ofInt 0 < first + finite false second := by
  rcases hfirst with ⟨magnitude, rfl⟩ | rfl
  · have hsum : 0 < units magnitude + units second := by
      have hpos : 0 < magnitude.val ∨ 0 < second.val := by
        refine hpositive.imp_left ?_
        rintro ⟨_, hzero, _, ⟨⟩, hless⟩
        obtain rfl := Option.some.inj (place?_ofInt_zero.symm.trans hzero)
        exact Int.natCast_pos.mp hless
      rcases hpos with hpos | hpos
      · have := units_strictMono hpos
        omega
      · have := units_strictMono hpos
        omega
    rw [finite_add_finite, if_neg hsum.ne']
    exact zero_lt_ofQuotient Nat.one_pos hsum
  · exact ⟨0, place?_ofInt_zero, _, rfl, by decide⟩

/-- No time passes between a reading and itself. -/
theorem not_zero_lt_sub_self (number : Binary64) : ¬ ofInt 0 < number - number := by
  cases number with
  | nan negative => exact not_lt_nan _ negative
  | infinite negative => cases negative <;> decide +kernel
  | finite negative magnitude =>
      rw [finite_sub_self]
      decide +kernel

theorem ofQuotient_ne_nan (negative sign : Bool) (numerator denominator : Nat) :
    ofQuotient negative numerator denominator ≠ nan sign := by
  rcases ofQuotient_cases negative numerator denominator with ⟨magnitude, hfinite⟩ | hinfinite
  · rw [hfinite]
    nofun
  · rw [hinfinite]
    nofun

/-- A part of a second is finite, and no part is lost. -/
theorem exists_part {nanos : Nat} (hpart : nanos < nanosPerSecond) :
    ∃ part : Fin finiteMagnitudes, ofInt nanos / ofInt nanosPerSecond = finite false part ∧
      (0 < nanos → 0 < part.val) := by
  obtain ⟨above, habove, habove'⟩ := exists_ofInt_eq (hpart.le.trans (show _ ≤ twoTo 53 by decide))
  obtain ⟨below, hbelow, hbelow'⟩ := exists_ofInt_eq (show nanosPerSecond ≤ twoTo 53 by decide)
  have hpositive : 0 < units below := by
    rw [hbelow']
    exact Nat.mul_pos (by decide) unitsInOne_pos
  have hnonzero : below.val ≠ 0 := by
    intro hzero
    rw [hzero, units_zero] at hpositive
    exact absurd hpositive (lt_irrefl 0)
  have hquotient : ofInt nanos / ofInt nanosPerSecond =
      ofQuotient false (units above * unitsInOne) (units below) := by
    rw [habove, hbelow]
    change div (finite false above) (finite false below) = _
    unfold div
    simp only [hnonzero, if_false, bne_self_eq_false]
  have hfits : units above * unitsInOne ≤ units one * units below := by
    rw [units_one, Nat.mul_comm, habove', hbelow']
    exact Nat.mul_le_mul_left _ (Nat.mul_le_mul_right _ hpart.le)
  obtain ⟨part, -, hnearest, hfinite⟩ := ofQuotient_of_le false hpositive hfits
  refine ⟨part, hquotient.trans hfinite, fun hpassed => ?_⟩
  rw [← hnearest]
  refine nearestMagnitude_pos hpositive ?_
  rw [habove', hbelow']
  have hfine : nanosPerSecond ≤ unitsInOne := by decide +kernel
  exact Nat.mul_le_mul_right _ (hfine.trans (Nat.le_mul_of_pos_left _ hpassed))

end Binary64

/-- Time that has passed is more than no time, also in seconds. -/
theorem Duration.zero_lt_inSeconds_iff {duration : Duration} :
    ofInt 0 < (duration.inSeconds : Binary64) ↔ 0 < duration.nanos := by
  constructor
  · intro hpassed
    by_contra! hnone
    obtain rfl : duration = ⟨0⟩ := congrArg Duration.mk (Nat.le_zero.mp hnone)
    revert hpassed
    decide +kernel
  · intro hpassed
    obtain ⟨part, hpart, hpos⟩ :=
      exists_part (Nat.mod_lt duration.nanos (show 0 < nanosPerSecond by decide))
    rw [Duration.inSeconds]
    rw [quantity_ofInt, quantity_ofInt, quantity_ofInt, hpart]
    refine zero_lt_add ?_ part ?_
    · rw [ofInt_natCast]
      exact isUpward_ofQuotient _ _
    · rcases Nat.eq_zero_or_pos (duration.nanos / nanosPerSecond) with hwhole | hwhole
      · have hsplit := Nat.div_add_mod duration.nanos nanosPerSecond
        exact Or.inr (hpos (by rw [hwhole] at hsplit; omega))
      · rw [ofInt_natCast]
        exact Or.inl (zero_lt_ofQuotient Nat.one_pos (Nat.mul_pos hwhole unitsInOne_pos))

/-- A clock reading is a number. -/
theorem WallTime.inSeconds_ne_nan (wall : WallTime) (negative : Bool) :
    (wall.inSeconds : Binary64) ≠ nan negative := by
  have hrest : 0 ≤ wall.nanos % nanosPerSecond := Int.emod_nonneg _ (by decide)
  obtain ⟨nanos, hnanos⟩ := Int.eq_ofNat_of_zero_le hrest
  have hless : nanos < nanosPerSecond := by
    have := Int.emod_lt_of_pos wall.nanos (show (0 : Int) < nanosPerSecond by decide)
    omega
  obtain ⟨part, hpart, -⟩ := exists_part hless
  rw [WallTime.inSeconds]
  rw [quantity_ofInt, quantity_ofInt, quantity_ofInt, hnanos, hpart]
  unfold ofInt
  rcases ofQuotient_cases (wall.seconds < 0) (wall.seconds.natAbs * unitsInOne) 1 with
    ⟨magnitude, hfinite⟩ | hinfinite
  · rw [hfinite]
    change add _ _ ≠ _
    unfold add
    simp only
    split_ifs
    · nofun
    · exact ofQuotient_ne_nan _ _ _ _
  · rw [hinfinite]
    nofun

/-! ## Draws -/

/-- The rate and the burst that a call can have: the rate finite and above zero, the burst a word
and not zero. -/
structure Usable (rate : Binary64) (burst : Nat) : Prop where
  finite : Quantity.isFinite rate = true
  positive : ofInt 0 < rate
  lasting : 1 ≤ burst
  word : burst < twoTo 64

theorem Usable.isCount {rate : Binary64} {burst : Nat} (husable : Usable rate burst) :
    (ofInt burst).IsCount := isCount_ofInt husable.word.le

theorem Usable.one_le {rate : Binary64} {burst : Nat} (husable : Usable rate burst) :
    ofInt 1 ≤ ofInt burst := one_le_ofInt husable.lasting husable.word.le

namespace TokenTake

section

variable {α : Type} [Quantity α]

/-- A call of a bucket that is refilled to a level: a token is drawn if there is one. -/
def drawn (level : α) : TokenTake α :=
  if Quantity.ofInt 1 ≤ level then ⟨true, level - Quantity.ofInt 1⟩ else ⟨false, level⟩

/-- So many calls in a row, with nothing refilled in between. -/
def draws (level : α) : Nat → List (TokenTake α)
  | 0 => []
  | calls + 1 => drawn level :: draws (drawn level).remaining calls

end

/-- What a call with a burst may be told: what is left is not negative, less than the burst by one
at least if a token was drawn, and less than a token if none was. -/
structure WithinBurst (taken : TokenTake Binary64) (burst : Nat) : Prop where
  nonneg : ofInt 0 ≤ taken.remaining
  allowed : taken.allowed = true → taken.remaining ≤ ofInt burst - ofInt 1
  denied : taken.allowed = false → taken.remaining < ofInt 1

variable {level : Binary64} {burst : Nat}

theorem drawn_of_one_le (hone : ofInt 1 ≤ level) : drawn level = ⟨true, level - ofInt 1⟩ := by
  rw [drawn, quantity_ofInt]
  exact if_pos hone

theorem drawn_of_not_one_le (hshort : ¬ ofInt 1 ≤ level) : drawn level = ⟨false, level⟩ := by
  rw [drawn, quantity_ofInt]
  exact if_neg hshort

theorem isCount_drawn (hcount : level.IsCount) : (drawn level).remaining.IsCount := by
  by_cases hone : ofInt 1 ≤ level
  · rw [drawn_of_one_le hone]
    exact hcount.sub_one hone
  · rw [drawn_of_not_one_le hone]
    exact hcount

/-- A level that is not beyond the burst leaves a call within it. -/
theorem withinBurst_drawn (hcount : level.IsCount) (hword : burst < twoTo 64)
    (hle : level ≤ ofInt burst) : (drawn level).WithinBurst burst := by
  have hnonneg : ofInt 0 ≤ (drawn level).remaining := by
    obtain ⟨rest, hrest, -⟩ := isCount_drawn hcount
    rw [hrest]
    exact zero_le_finite rest
  refine ⟨hnonneg, ?_, ?_⟩
  · intro hallowed
    have hone : ofInt 1 ≤ level := by
      by_contra hshort
      rw [drawn_of_not_one_le hshort] at hallowed
      cases hallowed
    obtain ⟨magnitude, rfl, -⟩ := hcount
    obtain ⟨capacity, -, hcapacity, -⟩ := exists_nearest_ofInt hword.le
    rw [drawn_of_one_le hone]
    rw [hcapacity] at hle ⊢
    rw [ofInt_one] at hone
    exact sub_one_le_sub_one (finite_le_finite_iff.mp hone) (finite_le_finite_iff.mp hle)
  · intro hdenied
    have hshort : ¬ ofInt 1 ≤ level := by
      intro hone
      rw [drawn_of_one_le hone] at hdenied
      cases hdenied
    obtain ⟨magnitude, rfl, -⟩ := hcount
    rw [drawn_of_not_one_le hshort]
    rw [ofInt_one, finite_le_finite_iff, not_le] at hshort
    rw [ofInt_one]
    exact finite_lt_finite_iff.mpr hshort

/-- Up to `2 ^ 53` only such a level does. -/
theorem le_of_withinBurst_drawn (hcount : level.IsCount) (hpositive : 1 ≤ burst)
    (hsize : burst ≤ twoTo 53) (hwithin : (drawn level).WithinBurst burst) :
    level ≤ ofInt burst := by
  obtain ⟨magnitude, rfl, -⟩ := hcount
  obtain ⟨capacity, hcapacity, hcapacityUnits⟩ := exists_ofInt_eq hsize
  obtain ⟨bound, hbound, hboundUnits⟩ := exists_ofInt_sub_one hpositive hsize
  have hfits : unitsInOne ≤ units capacity := by
    rw [hcapacityUnits]
    exact Nat.le_mul_of_pos_left _ hpositive
  rw [Nat.sub_mul, Nat.one_mul, ← hcapacityUnits] at hboundUnits
  have hleft := hwithin.allowed
  rw [hbound] at hleft
  rw [hcapacity, finite_le_finite_iff]
  by_contra! hbeyond
  have hmore : units capacity < units magnitude := units_strictMono hbeyond
  have hone : ofInt 1 ≤ finite false magnitude := one_le_iff.mpr (hfits.trans hmore.le)
  rw [drawn_of_one_le hone] at hleft
  rcases Nat.lt_or_ge (twoTo 53 * unitsInOne) (units magnitude) with hlarge | hexact
  · obtain ⟨rest, hrest, hrestUnits⟩ := le_sub_one_of_large hlarge
    rw [hrest, finite_le_finite_iff] at hleft
    have hunits := units_strictMono.monotone (hleft rfl)
    have hcapacityLarge := Nat.mul_le_mul_right unitsInOne hsize
    have hpos := unitsInOne_pos
    omega
  · obtain ⟨rest, hrest, hrestUnits⟩ := finite_sub_one (hfits.trans hmore.le) hexact
    rw [hrest, finite_le_finite_iff] at hleft
    have hunits := units_strictMono.monotone (hleft rfl)
    omega

/-- **A level is not drawn on more often than it has tokens.** -/
theorem countP_draws_le {magnitude : Fin finiteMagnitudes} (hsize : burst ≤ twoTo 53)
    (hlevel : units magnitude ≤ burst * unitsInOne) (calls : Nat) :
    (draws (finite false magnitude) calls).countP allowed ≤ burst := by
  induction calls generalizing magnitude burst with
  | zero => exact Nat.zero_le _
  | succ calls ih =>
      rw [draws]
      by_cases hone : ofInt 1 ≤ finite false magnitude
      · have hlow := one_le_iff.mp hone
        obtain ⟨rest, hrest, hunits⟩ := finite_sub_one hlow
          (hlevel.trans (Nat.mul_le_mul_right _ hsize))
        obtain ⟨less, rfl⟩ : ∃ less, burst = less + 1 := by
          refine Nat.exists_eq_add_one_of_ne_zero ?_
          rintro rfl
          rw [Nat.zero_mul] at hlevel
          have := unitsInOne_pos
          omega
        rw [drawn_of_one_le hone, hrest, List.countP_cons_of_pos rfl]
        rw [Nat.succ_mul] at hlevel
        exact Nat.succ_le_succ (ih (by omega) (by omega))
      · rw [drawn_of_not_one_le hone, List.countP_cons_of_neg (by simp)]
        exact ih hsize hlevel

/-- What a call that draws on a bucket may rely on: it is told within its burst unless it is
overdrawn, up to `2 ^ 53` only then, and if it is not, no more calls are granted with it at its
instant, the call itself among them, than its burst has tokens. -/
structure Kept (taken : TokenTake Binary64) (burst : Nat) (overdrawn : Prop)
    (granted : List (Binary64 × Nat) → Nat) : Prop where
  within : ¬ overdrawn → taken.WithinBurst burst
  beyond : burst ≤ twoTo 53 → overdrawn → ¬ taken.WithinBurst burst
  granted_le : burst ≤ twoTo 53 → ¬ overdrawn →
    ∀ rest : List (Binary64 × Nat), (∀ call ∈ rest, Usable call.1 call.2) → granted rest ≤ burst

/-- A call may rely on this if it is overdrawn exactly by drawing on more than its burst. -/
theorem kept_drawn {rate : Binary64} {overdrawn : Prop} {granted : List (Binary64 × Nat) → Nat}
    (husable : Usable rate burst) (hcount : level.IsCount)
    (hiff : level ≤ ofInt burst ↔ ¬ overdrawn)
    (hgranted : burst ≤ twoTo 53 → ∀ magnitude : Fin finiteMagnitudes,
      level = finite false magnitude → units magnitude ≤ burst * unitsInOne →
        ∀ rest : List (Binary64 × Nat), (∀ call ∈ rest, Usable call.1 call.2) →
          granted rest ≤ burst) :
    (drawn level).Kept burst overdrawn granted where
  within hfits := withinBurst_drawn hcount husable.word (hiff.mpr hfits)
  beyond hsize hover hwithin :=
    hiff.mp (le_of_withinBurst_drawn hcount husable.lasting hsize hwithin) hover
  granted_le hsize hfits := by
    obtain ⟨magnitude, rfl, -⟩ := hcount
    obtain ⟨capacity, hcapacity, hunits⟩ := exists_ofInt_eq hsize
    have hle := hiff.mpr hfits
    rw [hcapacity, finite_le_finite_iff] at hle
    refine hgranted hsize magnitude rfl ?_
    rw [← hunits]
    exact units_strictMono.monotone hle

end TokenTake

end Throttle
