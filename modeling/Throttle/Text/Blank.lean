/-!
# Blank characters

The characters with the property of white space.
-/

namespace Throttle.Text

/-- Whether a character is white space. -/
def isBlank (character : Char) : Bool :=
  let number := character.toNat
  (9 ≤ number && number ≤ 13) || number = 0x20 || number = 0x85 || number = 0xa0 ||
    number = 0x1680 || (0x2000 ≤ number && number ≤ 0x200a) || number = 0x2028 ||
    number = 0x2029 || number = 0x202f || number = 0x205f || number = 0x3000

/-- Whether a text holds nothing but white space. -/
def isAllBlank (text : String) : Bool :=
  text.toList.all isBlank

/-- Every character that is white space in ASCII is blank. -/
theorem isBlank_of_isWhitespace (character : Char) (hblank : character.isWhitespace = true) :
    isBlank character = true := by
  unfold Char.isWhitespace at hblank
  simp only [Bool.or_eq_true, decide_eq_true_eq] at hblank
  rcases hblank with ((hblank | hblank) | hblank) | hblank <;> subst hblank <;> decide

end Throttle.Text
