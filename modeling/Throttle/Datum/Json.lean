import Throttle.Datum
import Throttle.Decimal.Numeral
import Throttle.Numeric.Quantity
import Throttle.Text.Reader

/-!
# JSON

Data in a JSON text.  A name that comes twice in an object has its last value.  Objects and
arrays are nested at most 127 deep.

A number that is no whole number of 64 bits with a sign is read in two steps, each of which
rounds: the digits are made a number, which is then multiplied or divided by a power of ten.
Digits behind those that fit a word of 64 bits are left out where they stand behind the point,
and count as zeros before it.
-/

namespace Throttle.Json

open Text

/-- Whether a character may stand between the parts of a text. -/
def isSpace (character : Char) : Bool :=
  character = ' ' || character = '\n' || character = '\t' || character = '\r'

/-- Skip what stands between the parts. -/
def skipSpaces : Reader Unit := do
  let _ ← Reader.takeWhile isSpace

/-! ## Strings -/

/-- The character that a letter stands for behind a backslash. -/
def shortEscape? : Char → Option Char
  | '"' => some '"'
  | '\\' => some '\\'
  | '/' => some '/'
  | 'b' => some '\x08'
  | 'f' => some '\x0c'
  | 'n' => some '\n'
  | 'r' => some '\r'
  | 't' => some '\t'
  | _ => none

/-- Take the four digits of a number of 16 bits. -/
def takeUnit : Reader Nat := do
  StateT.lift (Decimal.Numeral.readHex? (← Reader.take 4))

/-- Whether a number of 16 bits is the first half of a pair. -/
def isFirstHalf (unit : Nat) : Bool := 0xd800 ≤ unit && unit < 0xdc00

/-- Whether a number of 16 bits is the second half of a pair. -/
def isSecondHalf (unit : Nat) : Bool := 0xdc00 ≤ unit && unit < 0xe000

/-- Take the character that is written by number, in one part or in two halves. -/
def takeNumbered : Reader Char := do
  let unit ← takeUnit
  if isSecondHalf unit then failure
  else if isFirstHalf unit then
    Reader.expect "\\u"
    let second ← takeUnit
    if !isSecondHalf second then failure
    return Char.ofNat (0x10000 + (unit - 0xd800) * 0x400 + (second - 0xdc00))
  else return Char.ofNat unit

/-- Take a part of a string: a run of characters that stand for themselves, or an escape. -/
def takeStringPart : Reader (Option (List Char)) := do
  if ← Reader.accept "\"" then return none
  else if ← Reader.accept "\\" then
    if ← Reader.accept "u" then return some [← takeNumbered]
    else return some [← StateT.lift (shortEscape? (← Reader.next))]
  else
    let run ← Reader.takeWhile fun character =>
      character ≠ '"' && character ≠ '\\' && ' ' ≤ character
    if run = [] then failure
    return some run

/-- Take a string. -/
def takeString : Reader String := do
  Reader.expect "\""
  return String.ofList (← Reader.collect takeStringPart).flatten

/-! ## Numbers -/

/-- The digits of a number that fit a word of 64 bits, and how many do not: all from the
first one that does not fit. -/
def fittingDigits (significand : Nat) : List Char → Nat × Nat
  | [] => (significand, 0)
  | digit :: rest =>
    let longer := 10 * significand + (digit.toNat - '0'.toNat)
    if longer ≤ Quantity.largestCount then fittingDigits longer rest
    else (significand, rest.length + 1)

/-- A number multiplied or divided by a power of ten, if it stays finite. -/
def scale? (number : Binary64) (exponent : Int) : Option Binary64 :=
  if 0 ≤ exponent then
    if exponent ≤ 308 then
      match number * Binary64.ofInt (tenTo exponent.toNat) with
      | .finite negative magnitude => some (.finite negative magnitude)
      | _ => none
    else if number = .zero false then some number
    else none
  else if -308 ≤ exponent then some (number / Binary64.ofInt (tenTo (-exponent).toNat))
  else
    -- no larger power of ten is a number, so the rest is divided by once more
    let smaller := number / Binary64.ofInt (tenTo 308)
    if smaller = .zero false then some smaller
    else some (smaller / Binary64.ofInt (tenTo (min (-exponent - 308) 308).toNat))

/-- Take the exponent behind its mark, if there is one. -/
def takeExponent : Reader (Option Int) := do
  if ← Reader.isNext fun character => character = 'e' || character = 'E' then
    let _ ← Reader.next
    let isNegative ← Reader.accept "-"
    if !isNegative then
      let _ ← Reader.accept "+"
    let digits ← Reader.takeWhile Char.isDigit
    let size ← StateT.lift (Decimal.readNatural? digits)
    return some (if isNegative then -(size : Int) else size)
  else return none

/-- The number of a sign, digits before and behind the point, and an exponent. -/
def number? (isNegative : Bool) (whole fraction : List Char) (exponent : Option Int) :
    Option Datum :=
  let (significand, left) := fittingDigits 0 whole
  let isWhole := fraction = [] && exponent.isNone && left = 0
  let size : Int := if isNegative then -(significand : Int) else significand
  -- zero with a minus sign is no whole number, since it would lose the sign
  if isWhole && Decimal.FitsSigned size && !(isNegative && significand = 0) then
    some (.integer size)
  else
    let (significand, cut) := fittingDigits significand fraction
    let power := (left : Int) - (fraction.length - cut : Nat) + exponent.getD 0
    (scale? (Binary64.ofInt significand) power).map fun number =>
      .number (if isNegative then number.neg else number)

/-- Take a number. -/
def takeNumber : Reader Datum := do
  let isNegative ← Reader.accept "-"
  let whole ← Reader.takeWhile Char.isDigit
  if whole = [] || (whole.head? = some '0' && whole.length ≠ 1) then failure
  let hasPoint ← Reader.accept "."
  let fraction ← if hasPoint then Reader.takeWhile Char.isDigit else pure []
  if hasPoint && fraction = [] then failure
  let exponent ← takeExponent
  StateT.lift (number? isNegative whole fraction exponent)

/-! ## Values -/

/-- Take what stands between two brackets with commas in between, behind the first bracket. -/
def takeSeparated {β : Type} (item : Reader β) (close : String) : Reader (List β) := do
  let step : StateT Bool Reader (Option β) := do
    skipSpaces
    if ← Reader.accept close then return none
    if ← get then
      Reader.expect ","
      skipSpaces
    set true
    return some (← item)
  let (items, _) ← (collectAtMost step ((← get).length + 1)).run false
  return items

/-- Take an entry of an object. -/
def takeEntry (value : Reader Datum) : Reader (String × Datum) := do
  let name ← takeString
  skipSpaces
  Reader.expect ":"
  return (name, ← value)

/-- Take a value in which objects and arrays are nested less deep than a bound, itself
included. -/
def takeValue : Nat → Reader Datum
  | 0 => failure
  | depth + 1 => do
    skipSpaces
    if ← Reader.accept "null" then return .null
    else if ← Reader.accept "true" then return .boolean true
    else if ← Reader.accept "false" then return .boolean false
    else if ← Reader.isNext (· = '"') then return .text (← takeString)
    else if ← Reader.accept "[" then
      if depth = 0 then failure
      return .list (← takeSeparated (takeValue depth) "]")
    else if ← Reader.accept "\x7b" then
      if depth = 0 then failure
      let entries ← takeSeparated (takeEntry (takeValue depth)) "\x7d"
      return .table (entries.foldl (fun entries (name, value) => Datum.put name value entries) [])
    else takeNumber

/-- The data in a text. -/
def read? (text : String) : Option Datum :=
  Reader.readAll? (do
    let value ← takeValue 128
    skipSpaces
    return value) text

end Throttle.Json
