import Throttle.Numeric.Binary64
import Throttle.Decimal.Layout
import Throttle.Decimal.Numeral

/-!
# Which digits a binary number is written with

Two choices are in use.  The *shortest* text has the fewest digits that read back to the
same number, and of those with equally few the nearest, the larger of two that are equally
near.  A text of *fixed precision* has the given count of significant digits, correctly
rounded, halfway to the even digit.  Both compare exact quotients.
-/

namespace Throttle.Binary64

open Decimal

/-- The number that a numeral writes, rounded once. -/
def ofNumeral : Numeral → Binary64
  | .value negative digits base exponent =>
    if base = 2 then
      if 0 ≤ exponent then
        if 2200 < exponent ∧ digits ≠ 0 then infinite negative
        else ofQuotient negative (digits * twoTo exponent.toNat * unitsInOne) 1
      else if (digits.log2 : Int) + exponent < -2200 then zero negative
      else ofQuotient negative (digits * unitsInOne) (twoTo (-exponent).toNat)
    else ofDecimal negative digits exponent
  | .infinity negative => infinite negative
  | .notANumber negative => nan negative

/-- The least exponent of ten above a positive quotient: the quotient is at least the
power of ten before it and less than the power itself. -/
def decimalOrder (numerator denominator : Nat) : Int :=
  let guess : Int := (digits numerator).length - (digits denominator).length
  let reached :=
    if 0 ≤ guess then denominator * tenTo guess.toNat ≤ numerator
    else denominator ≤ numerator * tenTo (-guess).toNat
  if reached then guess + 1 else guess

/-- The quotient in units of a power of ten, as a numerator and a denominator. -/
def scaled (numerator denominator : Nat) (exponent : Int) : Nat × Nat :=
  if 0 ≤ exponent then (numerator, denominator * tenTo exponent.toNat)
  else (numerator * tenTo (-exponent).toNat, denominator)

/-- The nearest multiple of a power of ten that reads back to the finite number of a
magnitude, if one does. -/
def nearestReadingBack? (magnitude : Fin finiteMagnitudes) (exponent : Int) : Option Nat :=
  let (numerator, denominator) := scaled (units magnitude) unitsInOne exponent
  let below := numerator / denominator
  let readsBack (candidate : Nat) :=
    decide (ofDecimal false candidate exponent = finite false magnitude)
  let nearer := roundHalfUp numerator denominator
  let farther := if nearer = below then below + 1 else below
  if readsBack nearer then some nearer
  else if readsBack farther then some farther
  else none

/-- The multiple of a power of ten nearest to a quotient, halfway the even one. -/
def nearestMultiple (numerator denominator : Nat) (exponent : Int) : Nat :=
  let (numerator, denominator) := scaled numerator denominator exponent
  roundHalfEven numerator denominator

/-- The digits of the shortest text of a positive finite number, with their exponent. -/
def shortestDigits (magnitude : Fin finiteMagnitudes) : List Char × Int :=
  let order := decimalOrder (units magnitude) unitsInOne
  let choice := (List.range 17).findSome? fun index =>
    let exponent := order - (index + 1 : Nat)
    (nearestReadingBack? magnitude exponent).map fun chosen => (chosen, exponent)
  -- seventeen digits always tell a number from its neighbours
  let chosen := choice.getD (nearestMultiple (units magnitude) unitsInOne (order - 17), order - 17)
  trimZeros (digits chosen.1) chosen.2

/-- The digits of a positive finite number rounded to a count of significant digits,
zeros at the end left out, with their exponent. -/
def significantDigits (count : Nat) (magnitude : Fin finiteMagnitudes) : List Char × Int :=
  let exponent := decimalOrder (units magnitude) unitsInOne - count
  trimZeros (digits (nearestMultiple (units magnitude) unitsInOne exponent)) exponent

/-! ## Texts -/

private def signed (negative : Bool) (characters : List Char) : String :=
  String.ofList (if negative then '-' :: characters else characters)

/-- The shortest text, written out in full and never with an exponent. -/
def plainText : Binary64 → String
  | nan _ => "NaN"
  | infinite negative => signed negative ['i', 'n', 'f']
  | finite negative magnitude =>
    if magnitude.val = 0 then signed negative ['0']
    else
      let (chosen, exponent) := shortestDigits magnitude
      signed negative (positional chosen exponent)

/-- The shortest text that shows a fraction: whole numbers end in `.0`, and numbers from
`10 ^ 16` on or below `10 ^ (-4)` have an exponent. -/
def detailedText : Binary64 → String
  | nan _ => "NaN"
  | infinite negative => signed negative ['i', 'n', 'f']
  | finite negative magnitude =>
    if magnitude.val = 0 then signed negative ['0', '.', '0']
    else
      let (chosen, exponent) := shortestDigits magnitude
      let order := exponent + chosen.length
      if 16 < order ∨ order < -3 then signed negative (scientific shortExponent chosen exponent)
      else
        let written := positional chosen exponent
        signed negative (if 0 ≤ exponent then written ++ ['.', '0'] else written)

/-- The text of fourteen significant digits: an exponent is written for numbers from
`10 ^ 14` on or below `10 ^ (-4)`. -/
def fourteenDigitText : Binary64 → String
  | nan negative => signed negative ['n', 'a', 'n']
  | infinite negative => signed negative ['i', 'n', 'f']
  | finite negative magnitude =>
    if magnitude.val = 0 then signed negative ['0']
    else
      let (chosen, exponent) := significantDigits 14 magnitude
      let leading := exponent + chosen.length - 1
      if leading < -4 ∨ 14 ≤ leading then
        signed negative (scientific paddedExponent chosen exponent)
      else signed negative (positional chosen exponent)

end Throttle.Binary64
