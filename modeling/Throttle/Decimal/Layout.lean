import Throttle.Decimal.Whole

/-!
# How chosen digits are laid out

A value `digits * 10 ^ exponent` whose digits are already chosen can be written out in
full (`positional`) or with a power of ten behind it (`scientific`).
-/

namespace Throttle.Decimal

/-- A run of zeros. -/
def zeros (count : Nat) : List Char :=
  List.replicate count '0'

/-- The digits of a value written out in full, with zeros up to the point. -/
def positional (digits : List Char) (exponent : Int) : List Char :=
  if 0 ≤ exponent then digits ++ zeros exponent.toNat
  else
    let places := (-exponent).toNat
    if places < digits.length then
      digits.take (digits.length - places) ++ '.' :: digits.drop (digits.length - places)
    else '0' :: '.' :: zeros (places - digits.length) ++ digits

/-- The first digit, the others behind a point, and the exponent of the first digit
behind the mark `e`, as `exponentText` writes it. -/
def scientific (exponentText : Int → List Char) (digits : List Char) (exponent : Int) :
    List Char :=
  let leading := exponent + digits.length - 1
  match digits with
  | [] => []
  | [digit] => digit :: 'e' :: exponentText leading
  | digit :: others => digit :: '.' :: others ++ 'e' :: exponentText leading

/-- An exponent with a minus sign if it needs one. -/
def shortExponent (exponent : Int) : List Char :=
  (wholeText exponent).toList

/-- An exponent with a sign always and at least two digits. -/
def paddedExponent (exponent : Int) : List Char :=
  let size := digits exponent.natAbs
  (if exponent < 0 then '-' else '+') :: (if size.length < 2 then '0' :: size else size)

/-- Digits and exponent of the same value without zeros at the end. -/
def trimZeros (digits : List Char) (exponent : Int) : List Char × Int :=
  let trimmed := (digits.reverse.dropWhile (· = '0')).reverse
  (trimmed, exponent + (digits.length - trimmed.length : Nat))

end Throttle.Decimal
