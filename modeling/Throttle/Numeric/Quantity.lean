import Throttle.Decimal.Selection

/-!
# The arithmetic that tokens are counted in

Token counts, refill rates and seconds are quantities.  Everything that computes with
them is written once, over `Quantity`, and can be read in two ways: `Binary64` rounds
every operation to a binary number of 64 bits, and `Rat` is exact.  A quantity also has
texts: a plain one that reads back to the same quantity, and one that a script answers
with, which may be rounded.
-/

namespace Throttle

/-- Numbers that token counts are computed in. -/
class Quantity (α : Type) extends Add α, Sub α, Mul α, Div α, LT α, LE α where
  decidableLT : DecidableLT α
  decidableLE : DecidableLE α
  /-- The quantity nearest to a whole number. -/
  ofInt : Int → α
  /-- The largest whole quantity not above. -/
  floor : α → α
  /-- The smallest whole quantity not below. -/
  ceiling : α → α
  /-- The value, if the quantity is finite. -/
  value? : α → Option Rat
  /-- A text that reads back to the quantity. -/
  text : α → String
  /-- The quantity that a text writes. -/
  read? : String → Option α
  /-- The text a script answers with. -/
  scriptText : α → String
  /-- The quantity that a script reads from a text. -/
  scriptRead? : String → Option α

attribute [reducible, instance] Quantity.decidableLT Quantity.decidableLE

namespace Quantity

variable {α : Type} [Quantity α]

/-- Whether a quantity has a value. -/
def isFinite (quantity : α) : Bool :=
  (value? quantity).isSome

/-- The lesser of two quantities; one without a place in the order is passed over. -/
def lesser (first second : α) : α :=
  if first ≤ second then first else if second ≤ second then second else first

/-- The greater of two quantities; one without a place in the order is passed over. -/
def greater (first second : α) : α :=
  if second ≤ first then first else if second ≤ second then second else first

/-- The quantity moved into an interval; one without a place in the order stays. -/
def clamp (quantity low high : α) : α :=
  if quantity < low then low else if high < quantity then high else quantity

/-- The largest count that fits a word of 64 bits. -/
def largestCount : Nat := twoTo 64 - 1

/-- The whole part as a count: at least zero, at most the largest count, and zero for a
quantity without a value. -/
def wholeCount (quantity : α) : Nat :=
  match value? quantity with
  | some value => min value.floor.toNat largestCount
  | none => 0

end Quantity

/-! ## Rounding to 64 bits -/

instance : Quantity Binary64 where
  decidableLT := inferInstance
  decidableLE := inferInstance
  ofInt := Binary64.ofInt
  floor := Binary64.floor
  ceiling := Binary64.ceiling
  value? := Binary64.value?
  text := Binary64.plainText
  read? text := (Decimal.Numeral.read? text).map Binary64.ofNumeral
  scriptText := Binary64.fourteenDigitText
  scriptRead? text := (Decimal.Numeral.readLenient? text).map Binary64.ofNumeral

/-! ## The exact reading -/

namespace Fraction

/-- An exact value as numerator, bar and denominator. -/
def text (value : Rat) : String :=
  Decimal.wholeText value.num ++ "/" ++ Decimal.wholeText value.den

/-- The exact value that a whole number or a fraction writes. -/
def read? (text : String) : Option Rat :=
  let numerator := text.toList.takeWhile (· ≠ '/')
  match text.toList.dropWhile (· ≠ '/') with
  | [] => (Decimal.readWhole? numerator).map fun whole => mkRat whole 1
  | _ :: denominator => do
    let above ← Decimal.readWhole? numerator
    let below ← Decimal.readNatural? denominator
    if below = 0 then none else some (mkRat above below)

end Fraction

instance : Quantity Rat where
  decidableLT := inferInstance
  decidableLE := inferInstance
  ofInt whole := whole
  floor value := value.floor
  ceiling value := value.ceil
  value? := some
  text := Fraction.text
  read? := Fraction.read?
  scriptText := Fraction.text
  scriptRead? := Fraction.read?

end Throttle
