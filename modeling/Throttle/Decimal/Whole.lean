import Throttle.Numeric.Power

/-!
# Whole numbers in decimal

A natural number is read from a non-empty run of the ten digits.  A whole number is
*canonical* when it is written the way it would be printed: no plus sign, no blank,
no leading zero, no minus sign before zero.
-/

namespace Throttle.Decimal

/-- The number that a run of digits writes; nothing else is a number. -/
def readNatural? (characters : List Char) : Option Nat :=
  if !characters.isEmpty && characters.all Char.isDigit then
    some (Nat.ofDigitChars 10 characters 0)
  else none

/-- The digits of a natural number, most significant first. -/
def digits (number : Nat) : List Char :=
  Nat.toDigits 10 number

/-- The text of a whole number. -/
def wholeText (number : Int) : String :=
  if number < 0 then String.ofList ('-' :: digits number.natAbs)
  else String.ofList (digits number.natAbs)

/-- Whether a whole number fits a signed word of 64 bits. -/
def FitsSigned (number : Int) : Prop :=
  -(twoTo 63 : Int) ≤ number ∧ number < twoTo 63

instance (number : Int) : Decidable (FitsSigned number) :=
  inferInstanceAs (Decidable (_ ∧ _))

/-- The whole number that a run of digits writes, a minus sign before it if any. -/
def readWhole? (characters : List Char) : Option Int :=
  match characters with
  | '-' :: rest => (readNatural? rest).map fun number : Nat => -(number : Int)
  | _ => (readNatural? characters).map Int.ofNat

/-- The signed word that a text writes canonically. -/
def readCanonical? (text : String) : Option Int :=
  match readWhole? text.toList with
  | some number => if wholeText number = text ∧ FitsSigned number then some number else none
  | none => none

theorem readNatural?_digits (number : Nat) : readNatural? (digits number) = some number := by
  unfold readNatural? digits
  have hdigits : (Nat.toDigits 10 number).all Char.isDigit = true := by
    simp only [List.all_eq_true]
    exact fun character hmem => Nat.isDigit_of_mem_toDigits (by decide) (by decide) hmem
  have hnonempty : (Nat.toDigits 10 number).isEmpty = false := by
    simp [List.isEmpty_eq_false_iff, Nat.toDigits_ne_nil]
  simp [hdigits, hnonempty, Nat.ofDigitChars_ten_toDigits]

private theorem readWhole?_digits (number : Nat) :
    readWhole? (digits number) = some (number : Int) := by
  have hread := readNatural?_digits number
  unfold readWhole?
  split
  · rename_i rest heq
    rw [heq] at hread
    simp [readNatural?] at hread
  · simp [hread]

/-- Reading undoes printing. -/
theorem readWhole?_wholeText (number : Int) :
    readWhole? (wholeText number).toList = some number := by
  unfold wholeText
  split
  · have hsize : -(number.natAbs : Int) = number := by omega
    simp only [String.toList_ofList, readWhole?, readNatural?_digits, Option.map_some, hsize]
  · have hsize : (number.natAbs : Int) = number := by omega
    rw [String.toList_ofList, readWhole?_digits, hsize]

/-- What is read canonically is what prints as the text and fits a signed word. -/
theorem readCanonical?_eq_some_iff (text : String) (number : Int) :
    readCanonical? text = some number ↔ text = wholeText number ∧ FitsSigned number := by
  constructor
  · intro hread
    unfold readCanonical? at hread
    split at hread
    · split at hread
      · rename_i hcanonical
        cases hread
        exact ⟨hcanonical.1.symm, hcanonical.2⟩
      · cases hread
    · cases hread
  · rintro ⟨rfl, hfits⟩
    simp [readCanonical?, readWhole?_wholeText, hfits]

end Throttle.Decimal
