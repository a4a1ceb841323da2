import Throttle.Numeric.Power
import Throttle.Numeric.Rounding

/-!
# Binary floating point numbers of 64 bits

The finite numbers of one sign are numbered in order of size, from zero up; the
place of a number in this order is its *magnitude*.  Every finite number is a
whole multiple of the smallest positive one, `2 ^ (-1074)`, and `units` says which
multiple.  An operation computes its exact result as a quotient of such multiples
and rounds once, to the nearest number and halfway to the even one (`ofQuotient`).

A number that stands for no value keeps a sign: the result of an undefined
operation is negative, and an operation on such a number hands it on.  Only the
text of a script's answer shows that sign.
-/

namespace Throttle

/-- How many magnitudes are finite. -/
def finiteMagnitudes : Nat := 2047 * twoTo 52

/-- A binary floating point number of 64 bits. -/
inductive Binary64 where
  /-- No value; all numbers of this kind with one sign are one. -/
  | nan (negative : Bool)
  /-- Beyond every finite number. -/
  | infinite (negative : Bool)
  /-- The finite number whose magnitude is the given place in the order of size. -/
  | finite (negative : Bool) (magnitude : Fin finiteMagnitudes)
deriving DecidableEq, Repr

namespace Binary64

/-- How many times `2 ^ (-1074)` goes into the finite number of a magnitude. -/
def units (magnitude : Nat) : Nat :=
  let scale := magnitude / twoTo 52 - 1
  (magnitude - scale * twoTo 52) * twoTo scale

/-- The units in one. -/
def unitsInOne : Nat := twoTo 1074

/-- The magnitude nearest to a quotient of units, halfway the even one, as if
there were no largest. -/
def nearestMagnitude (numerator denominator : Nat) : Nat :=
  let scale := (numerator / denominator).log2 - 52
  scale * twoTo 52 + roundHalfEven numerator (denominator * twoTo scale)

/-- The number nearest to a quotient of units. -/
def ofQuotient (negative : Bool) (numerator denominator : Nat) : Binary64 :=
  let magnitude := nearestMagnitude numerator denominator
  if bounded : magnitude < finiteMagnitudes then finite negative ⟨magnitude, bounded⟩
  else infinite negative

/-- Zero of a sign. -/
def zero (negative : Bool) : Binary64 :=
  finite negative ⟨0, by decide⟩

/-- The number nearest to a whole number. -/
def ofInt (whole : Int) : Binary64 :=
  ofQuotient (whole < 0) (whole.natAbs * unitsInOne) 1

/-- The number nearest to `digits * 10 ^ exponent`.  Far outside the range of the
finite numbers no power is computed. -/
def ofDecimal (negative : Bool) (digits : Nat) (exponent : Int) : Binary64 :=
  let size : Int := digits.log2 / 4 + exponent
  if digits = 0 then zero negative
  else if 310 < size then infinite negative
  else if (digits.log2 : Int) + exponent < -330 then zero negative
  else if 0 ≤ exponent then ofQuotient negative (digits * tenTo exponent.toNat * unitsInOne) 1
  else ofQuotient negative (digits * unitsInOne) (tenTo (-exponent).toNat)

/-- The exact value of a number, if it has one. -/
def value? : Binary64 → Option Rat
  | finite negative magnitude =>
    let size := mkRat (units magnitude) unitsInOne
    some (if negative then -size else size)
  | _ => none

/-- The sign, also of zeros and of numbers without a value. -/
def isNegative : Binary64 → Bool
  | nan negative => negative
  | infinite negative => negative
  | finite negative _ => negative

/-- Where a number stands in the order of size, the two zeros at the same place. -/
def place? : Binary64 → Option Int
  | nan _ => none
  | infinite negative => some (if negative then -finiteMagnitudes else finiteMagnitudes)
  | finite negative magnitude => some (if negative then -magnitude else magnitude)

instance : LT Binary64 where
  lt first second := ∃ a ∈ first.place?, ∃ b ∈ second.place?, a < b

instance : LE Binary64 where
  le first second := ∃ a ∈ first.place?, ∃ b ∈ second.place?, a ≤ b

instance (first second : Binary64) : Decidable (first < second) :=
  match hfirst : first.place?, hsecond : second.place? with
  | some a, some b =>
    if less : a < b then isTrue ⟨a, hfirst, b, hsecond, less⟩
    else isFalse fun ⟨_, ha, _, hb, h⟩ => by
      simp_all
      omega
  | none, _ => isFalse fun ⟨_, ha, _⟩ => by simp_all
  | _, none => isFalse fun ⟨_, _, _, hb, _⟩ => by simp_all

instance (first second : Binary64) : Decidable (first ≤ second) :=
  match hfirst : first.place?, hsecond : second.place? with
  | some a, some b =>
    if atMost : a ≤ b then isTrue ⟨a, hfirst, b, hsecond, atMost⟩
    else isFalse fun ⟨_, ha, _, hb, h⟩ => by
      simp_all
      omega
  | none, _ => isFalse fun ⟨_, ha, _⟩ => by simp_all
  | _, none => isFalse fun ⟨_, _, _, hb, _⟩ => by simp_all

/-! ## Arithmetic -/

/-- The result of an undefined operation. -/
def undefined : Binary64 := nan true

/-- The units of a finite number with its sign. -/
private def signedUnits (negative : Bool) (magnitude : Nat) : Int :=
  if negative then -(units magnitude : Int) else units magnitude

/-- The sum; a sum of nothing is negative only if both parts are. -/
def add : Binary64 → Binary64 → Binary64
  | nan negative, _ => nan negative
  | _, nan negative => nan negative
  | infinite first, infinite second => if first = second then infinite first else undefined
  | infinite first, _ => infinite first
  | _, infinite second => infinite second
  | finite first a, finite second b =>
    let sum := signedUnits first a + signedUnits second b
    if sum = 0 then zero (first && second)
    else ofQuotient (sum < 0) sum.natAbs 1

/-- The number of the other sign. -/
def neg : Binary64 → Binary64
  | nan negative => nan !negative
  | infinite negative => infinite !negative
  | finite negative magnitude => finite (!negative) magnitude

/-- The difference; a number without a value is handed on as it is. -/
def sub : Binary64 → Binary64 → Binary64
  | first, nan negative => if let nan sign := first then nan sign else nan negative
  | first, second => add first (neg second)

/-- The product. -/
def mul : Binary64 → Binary64 → Binary64
  | nan negative, _ => nan negative
  | _, nan negative => nan negative
  | infinite first, infinite second => infinite (first != second)
  | infinite first, finite second b => if b.val = 0 then undefined else infinite (first != second)
  | finite first a, infinite second => if a.val = 0 then undefined else infinite (first != second)
  | finite first a, finite second b =>
    ofQuotient (first != second) (units a * units b) unitsInOne

/-- The quotient; what is divided by zero is beyond every number. -/
def div : Binary64 → Binary64 → Binary64
  | nan negative, _ => nan negative
  | _, nan negative => nan negative
  | infinite _, infinite _ => undefined
  | infinite first, finite second _ => infinite (first != second)
  | finite first _, infinite second => zero (first != second)
  | finite first a, finite second b =>
    if b.val = 0 then if a.val = 0 then undefined else infinite (first != second)
    else ofQuotient (first != second) (units a * unitsInOne) (units b)

instance : Add Binary64 := ⟨add⟩
instance : Sub Binary64 := ⟨sub⟩
instance : Mul Binary64 := ⟨mul⟩
instance : Div Binary64 := ⟨div⟩

/-- The largest whole number not above; zero keeps its sign. -/
def floor : Binary64 → Binary64
  | finite negative magnitude =>
    let whole := units magnitude / unitsInOne
    let below := if negative && units magnitude % unitsInOne ≠ 0 then whole + 1 else whole
    ofQuotient negative (below * unitsInOne) 1
  | other => other

/-- The smallest whole number not below; zero keeps its sign. -/
def ceiling : Binary64 → Binary64
  | finite negative magnitude =>
    let whole := units magnitude / unitsInOne
    let above := if !negative && units magnitude % unitsInOne ≠ 0 then whole + 1 else whole
    ofQuotient negative (above * unitsInOne) 1
  | other => other

/-! ## Interchange -/

/-- The 64 bits of a number: the sign, then the magnitude, infinity behind the
finite ones. -/
def bits (number : Binary64) : Nat :=
  (if number.isNegative then twoTo 63 else 0) +
    match number with
    | nan _ => finiteMagnitudes + twoTo 51
    | infinite _ => finiteMagnitudes
    | finite _ magnitude => magnitude

/-! ## Small facts -/

theorem units_zero : units 0 = 0 := by decide

/-- No number is below one without a value. -/
theorem not_lt_nan (number : Binary64) (negative : Bool) : ¬ number < nan negative :=
  fun ⟨_, _, _, hb, _⟩ => by simp [place?] at hb

private theorem signedUnits_false (magnitude : Nat) :
    signedUnits false magnitude = (units magnitude : Int) := if_neg Bool.false_ne_true

private theorem signedUnits_true (magnitude : Nat) :
    signedUnits true magnitude = -(units magnitude : Int) := if_pos rfl

/-- A sum that is not negative, computed with its sign. -/
private theorem ofSum (sum : Nat) :
    (if (sum : Int) = 0 then zero false
      else ofQuotient ((sum : Int) < 0) (sum : Int).natAbs 1) =
      if sum = 0 then zero false else ofQuotient false sum 1 := by
  have hpositive : ¬ (sum : Int) < 0 := by omega
  simp only [Int.natCast_eq_zero, Int.natAbs_natCast, decide_eq_false hpositive]

theorem finite_add_finite (first second : Fin finiteMagnitudes) :
    finite false first + finite false second =
      if units first + units second = 0 then zero false
      else ofQuotient false (units first + units second) 1 := by
  have hsum : signedUnits false first + signedUnits false second =
      (units first + units second : Nat) := by
    rw [signedUnits_false, signedUnits_false, Int.natCast_add]
  change add (finite false first) (finite false second) = _
  rw [← ofSum, ← hsum]
  simp only [add, Bool.and_self]

theorem finite_sub_finite {first second : Fin finiteMagnitudes}
    (hle : units second ≤ units first) :
    finite false first - finite false second =
      if units first - units second = 0 then zero false
      else ofQuotient false (units first - units second) 1 := by
  have hdifference : signedUnits false first + signedUnits true second =
      (units first - units second : Nat) := by
    rw [signedUnits_false, signedUnits_true]
    omega
  change add (finite false first) (finite true second) = _
  rw [← ofSum, ← hdifference]
  simp only [add, Bool.false_and]

private theorem signedUnits_add_not (negative : Bool) (magnitude : Nat) :
    signedUnits negative magnitude + signedUnits (!negative) magnitude = 0 := by
  cases negative with
  | true =>
      rw [Bool.not_true, signedUnits_true, signedUnits_false]
      omega
  | false =>
      rw [Bool.not_false, signedUnits_true, signedUnits_false]
      omega

/-- Nothing is left of a number taken from itself. -/
theorem finite_sub_self (negative : Bool) (magnitude : Fin finiteMagnitudes) :
    finite negative magnitude - finite negative magnitude = zero false := by
  change add (finite negative magnitude) (finite (!negative) magnitude) = _
  simp only [add, signedUnits_add_not, if_true, Bool.and_not_self]

theorem finite_mul_finite (first second : Fin finiteMagnitudes) :
    finite false first * finite false second =
      ofQuotient false (units first * units second) unitsInOne := by
  change mul (finite false first) (finite false second) = _
  simp only [mul, bne_self_eq_false]

end Binary64

end Throttle
