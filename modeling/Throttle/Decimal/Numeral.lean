import Throttle.Decimal.Whole

/-!
# Numerals

The texts that write a number with a fraction and an exponent, and the words for
infinity and for no value.  Two readers share the type: `Numeral.read?` takes a whole
text and nothing else, `Numeral.readLenient?` also takes blanks around it, hexadecimal
numerals and a remark in brackets after the word for no value.
-/

namespace Throttle.Decimal

/-- What a numeral says. -/
inductive Numeral where
  /-- The value `digits * base ^ exponent`, where the base is ten or two. -/
  | value (negative : Bool) (digits : Nat) (base : Nat) (exponent : Int)
  | infinity (negative : Bool)
  | notANumber (negative : Bool)
deriving DecidableEq, Repr

namespace Numeral

/-- Take a sign off the front; true means minus. -/
def splitSign : List Char → Bool × List Char
  | '-' :: rest => (true, rest)
  | '+' :: rest => (false, rest)
  | characters => (false, characters)

/-- The exponent behind its mark: nothing is zero, else a sign and digits. -/
def readExponent? (isMark : Char → Bool) : List Char → Option Int
  | [] => some 0
  | mark :: rest =>
    if isMark mark then
      let (negative, digits) := splitSign rest
      (readNatural? digits).map fun size => if negative then -(size : Int) else size
    else none

/-- The digits before and after a point, and what follows them. -/
def splitPoint (isDigit : Char → Bool) (characters : List Char) :
    List Char × List Char × List Char :=
  let whole := characters.takeWhile isDigit
  match characters.dropWhile isDigit with
  | '.' :: rest => (whole, rest.takeWhile isDigit, rest.dropWhile isDigit)
  | rest => (whole, [], rest)

/-- A decimal numeral without its sign: digits with at most one point, at least one
digit, then perhaps an exponent. -/
def readDecimal? (negative : Bool) (characters : List Char) : Option Numeral := do
  let (whole, fraction, rest) := splitPoint Char.isDigit characters
  let digits ← readNatural? (whole ++ fraction)
  let exponent ← readExponent? (fun mark => mark = 'e' || mark = 'E') rest
  return value negative digits 10 (exponent - fraction.length)

/-- The words for infinity and for no value, in any case. -/
def readWord? (negative : Bool) (characters : List Char) : Option Numeral :=
  let word := String.ofList (characters.map Char.toLower)
  if word = "inf" ∨ word = "infinity" then some (infinity negative)
  else if word = "nan" then some (notANumber negative)
  else none

/-- The numeral that a text is. -/
def read? (text : String) : Option Numeral :=
  let (negative, characters) := splitSign text.toList
  (readWord? negative characters).or (readDecimal? negative characters)

/-! ## The lenient reader -/

/-- Whether a character is a hexadecimal digit. -/
def isHexDigit (character : Char) : Bool :=
  character.isDigit || ('a' ≤ character && character ≤ 'f') || ('A' ≤ character && character ≤ 'F')

/-- The value of a hexadecimal digit. -/
def hexValue (character : Char) : Nat :=
  if character.isDigit then character.toNat - '0'.toNat
  else if 'a' ≤ character then character.toNat - 'a'.toNat + 10
  else character.toNat - 'A'.toNat + 10

/-- The number that a run of hexadecimal digits writes. -/
def readHex? (characters : List Char) : Option Nat :=
  if !characters.isEmpty && characters.all isHexDigit then
    some (characters.foldl (fun number digit => 16 * number + hexValue digit) 0)
  else none

/-- A hexadecimal numeral behind its mark, with a binary exponent. -/
def readHexadecimal? (negative : Bool) (characters : List Char) : Option Numeral := do
  let (whole, fraction, rest) := splitPoint isHexDigit characters
  let digits ← readHex? (whole ++ fraction)
  let exponent ← readExponent? (fun mark => mark = 'p' || mark = 'P') rest
  return value negative digits 2 (exponent - 4 * fraction.length)

/-- Whether a character is one of the six blanks allowed around a lenient numeral. -/
def isBlank (character : Char) : Bool :=
  character = ' ' || ('\t' ≤ character && character ≤ '\r')

/-- A word for no value with a remark of letters, digits and underscores in brackets. -/
def readRemark? (negative : Bool) (characters : List Char) : Option Numeral :=
  match characters.map Char.toLower with
  | 'n' :: 'a' :: 'n' :: '(' :: rest =>
    if (rest.dropWhile fun c => c.isAlphanum || c = '_') = [')'] then some (notANumber negative)
    else none
  | _ => none

/-- The numeral that a text is up to its first NUL, blanks around it aside. -/
def readLenient? (text : String) : Option Numeral :=
  let characters := text.toList.takeWhile (· ≠ '\x00')
  let trimmed := ((characters.dropWhile isBlank).reverse.dropWhile isBlank).reverse
  let (negative, characters) := splitSign trimmed
  match characters with
  | '0' :: 'x' :: rest => readHexadecimal? negative rest
  | '0' :: 'X' :: rest => readHexadecimal? negative rest
  | _ => ((readWord? negative characters).or (readRemark? negative characters)).or
      (readDecimal? negative characters)

end Numeral

end Throttle.Decimal
