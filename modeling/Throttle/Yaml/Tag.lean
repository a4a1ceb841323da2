import Throttle.Yaml.Token

/-!
# Tags

A tag is written in full between angle brackets, or as a handle and a suffix: the handle is
one exclamation mark, or a name between two of them that a directive lets stand for the
beginning of a tag.  A percent sign with two hexadecimal digits stands for a byte.
-/

namespace Throttle.Yaml

/-! ## Characters -/

/-- Whether a character may stand in a tag that is written in full. -/
def Revision.isTagCharacter (revision : Revision) (character : Char) : Bool :=
  isNameCharacter character || ";/?:@&=+$.!~*'(),[]".toList.contains character ||
    (revision = .v12 && character = '#')

/-- Whether a character may stand behind the handle of a tag. -/
def Revision.isSuffixCharacter (revision : Revision) (character : Char) : Bool :=
  revision.isTagCharacter character && !isFlowIndicator character &&
    !(revision = .v12 && character = '!')

/-- Whether a character may stand behind a tag without a blank between them, where the tag
stands between brackets. -/
def Revision.endsTag (revision : Revision) (character : Char) : Bool :=
  match revision with
  | .v11 => character = ','
  | .v12 => isFlowIndicator character

/-! ## Bytes -/

/-- How many bytes belong to one character, told by the first of them. -/
def byteCount? (lead : Nat) : Option Nat :=
  if lead < 0x80 then some 1
  else if 0xc0 ≤ lead ∧ lead < 0xe0 then some 2
  else if 0xe0 ≤ lead ∧ lead < 0xf0 then some 3
  else if 0xf0 ≤ lead ∧ lead < 0xf8 then some 4
  else none

/-- The text that the bytes of one character stand for.  Revision 1.1 takes byte for byte;
revision 1.2 takes them as one number, which has to be that of a character. -/
def Revision.ofBytes? (revision : Revision) (bytes : List Nat) : Option (List Char) :=
  match revision with
  | .v11 => bytes.mapM characterOf?
  | .v12 => do
    let character ← characterOf? (bytes.foldl (fun number byte => 256 * number + byte) 0)
    return [character]

namespace Scan

/-- Take a percent sign and the byte that the two digits behind it write. -/
def takeByte : Scan Nat := do
  if !(← isNext (· = '%')) then failure
  skip 1
  let digits := (← rest).take 2
  if digits.length ≠ 2 then failure
  skip 2
  StateT.lift (Decimal.Numeral.readHex? digits)

/-- Take so many bytes that go on with a character. -/
def takeTrailingBytes : Nat → Scan (List Nat)
  | 0 => return []
  | count + 1 => do
    let byte ← takeByte
    if byte < 0x80 ∨ 0xc0 ≤ byte then failure
    return byte :: (← takeTrailingBytes count)

/-- Take the bytes of one character. -/
def takeBytes : Scan (List Char) := do
  let lead ← takeByte
  let count ← StateT.lift (byteCount? lead)
  let trailing ← takeTrailingBytes (count - 1)
  StateT.lift ((← get).revision.ofBytes? (lead :: trailing))

/-- Take characters that belong to a tag, and bytes among them. -/
def takeTagText (belongs : Char → Bool) : Scan (List Char) := do
  let parts ← Text.collectAtMost (do
    if ← isNext (· = '%') then return some (← takeBytes)
    else if ← isNext belongs then return some (← takeWhile belongs)
    else return none) ((← get).size + 1)
  return parts.flatten

/-! ## Tags and their handles -/

/-- Take a handle of a tag: an exclamation mark, or a name between two of them.  Without the
second mark it is only the beginning of a tag. -/
def takeHandle : Scan (List Char) := do
  if !(← isNext (· = '!')) then failure
  skip 1
  let name ← takeWhile isNameCharacter
  if ← isNext (· = '!') then
    skip 1
    return '!' :: name ++ ['!']
  else return '!' :: name

/-- Whether a handle has both its marks. -/
def isClosed (handle : List Char) : Bool :=
  handle.length ≥ 2 && handle.getLast? = some '!'

/-- Take a handle that a directive gives a meaning. -/
def takeOwnHandle : Scan String := do
  let handle ← takeHandle
  if handle ≠ ['!'] && !isClosed handle then failure
  return String.ofList handle

/-- Take a tag between angle brackets; revision 1.2 lets it be empty. -/
def takeVerbatimTag : Scan Token := do
  let revision := (← get).revision
  skip 2
  let text ← takeTagText revision.isTagCharacter
  if text = [] && revision = .v11 then failure
  if !(← isNext (· = '>')) then failure
  skip 1
  return .tag "" (String.ofList text)

/-- Take a tag. -/
def takeTag (inFlow : Bool) : Scan Token := do
  let revision := (← get).revision
  let tag : Token ←
    if (← rest)[1]? = some '<' then takeVerbatimTag
    else
      let handle ← takeHandle
      let text ← takeTagText revision.isSuffixCharacter
      if isClosed handle then
        if text = [] then failure
        pure (.tag (String.ofList handle) (String.ofList text))
      else
        let suffix := handle.drop 1 ++ text
        pure (if suffix = [] then .tag "" "!" else .tag "!" (String.ofList suffix))
  let isEnded := (← isGapAfter 0) || (inFlow && (← isNext revision.endsTag))
  if !isEnded then failure
  return tag

/-! ## Directives -/

/-- Take a name that is not empty. -/
def takeName : Scan String := do
  let name ← takeWhile isNameCharacter
  if name = [] then failure
  return String.ofList name

/-- Take a number of a version. -/
def takeVersionNumber : Scan Nat := do
  let digits ← takeWhile Char.isDigit
  if 9 < digits.length then failure
  StateT.lift (Decimal.readNatural? digits)

/-- Take the version behind its directive's name. -/
def takeVersion : Scan (Nat × Nat) := do
  let major ← takeVersionNumber
  if !(← isNext (· = '.')) then failure
  skip 1
  return (major, ← takeVersionNumber)

end Scan

end Throttle.Yaml
