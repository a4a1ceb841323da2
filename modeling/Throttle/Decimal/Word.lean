import Throttle.Decimal.Numeral

/-!
# Words of 64 bits

Whole numbers in a text that is nothing but a number: a sign, if any, and digits, leading
zeros allowed.  Only numbers that fit a word of 64 bits are read.
-/

namespace Throttle.Decimal

/-- The number that a run of digits writes in a base of at most sixteen. -/
def readInBase? (base : Nat) (characters : List Char) : Option Nat :=
  if characters = [] then none
  else characters.foldlM (fun number character =>
    if Numeral.isHexDigit character && Numeral.hexValue character < base then
      some (number * base + Numeral.hexValue character)
    else none) 0

/-- A number, if it fits a word with a sign. -/
def fittingWord? (number : Int) : Option Int :=
  if FitsSigned number then some number else none

/-- The word with a sign that a sign and digits in a base write. -/
def readWordInBase? (base : Nat) (characters : List Char) : Option Int := do
  let (negative, digits) := Numeral.splitSign characters
  let size ← readInBase? base digits
  fittingWord? (if negative then -(size : Int) else size)

/-- The word with a sign that a sign and digits write. -/
def readWord? (characters : List Char) : Option Int :=
  readWordInBase? 10 characters

/-- The word without a sign that digits write, a plus sign before them if any. -/
def readCount? (characters : List Char) : Option Nat := do
  let digits := match characters with
    | '+' :: rest => rest
    | _ => characters
  let number ← readInBase? 10 digits
  if number < twoTo 64 then some number else none

theorem fittingWord?_eq_some_iff (number word : Int) :
    fittingWord? number = some word ↔ FitsSigned number ∧ number = word := by
  unfold fittingWord?
  split <;> simp_all

/-- Every word that is read fits. -/
theorem fitsSigned_of_readWord? {characters : List Char} {number : Int}
    (hread : readWord? characters = some number) : FitsSigned number := by
  simp only [readWord?, readWordInBase?, Option.bind_eq_bind, Option.bind_eq_some_iff] at hread
  obtain ⟨size, -, hword⟩ := hread
  obtain ⟨hfits, hnumber⟩ := (fittingWord?_eq_some_iff _ _).mp hword
  exact hnumber ▸ hfits

end Throttle.Decimal
