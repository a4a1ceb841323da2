import Throttle.Yaml.Revision11.Scalar
import Throttle.Yaml.Tag

/-!
# Tokens of revision 1.1

How a text is cut into tokens by revision 1.1.  A key without a mark stands on one line and
has at most 1024 bytes, also between brackets.
-/

namespace Throttle.Yaml.Revision11

open Tokenize

/-! ## Blanks between tokens -/

/-- Skip blanks, comments and line breaks.  Where a key may begin in a block, a tab is not
a blank.  A line break lets a key begin again. -/
def skipBlanks : Tokenize Unit := do
  let step : Tokenize Bool := do
    if (← get).cursor.column = 0 && (← scan (Scan.isNext (· = byteOrderMark))) then
      scan (Scan.skip 1)
    let tabs := (← inFlow) || !(← get).mayBeginKey
    let _ ← scan (Scan.takeWhile fun character => character = ' ' || (tabs && character = '\t'))
    if ← scan (Scan.isNext (· = '#')) then
      let _ ← scan Scan.takeLine
    if ← scan Scan.isBreakNext then
      let _ ← scan Scan.takeBreak
      if !(← inFlow) then allowKey true
      return true
    else return false
  Text.repeatAtMost step ((← get).cursor.size + 1)

/-- Give up the possible keys that are on a line before this one, or too long. -/
def giveUpLateKeys : Tokenize Unit := do
  let cursor := (← get).cursor
  giveUpKeys fun start => start.line < cursor.line || start.bytes + 1024 < cursor.bytes

/-! ## Directives and references -/

/-- Take a directive and the line it stands on. -/
def takeDirective : Scan Token := do
  Scan.skip 1
  let name ← Scan.takeName
  if !(← Scan.isGapAfter 0) then failure
  let _ ← Scan.takeWhile isSpace
  let directive : Token ←
    if name = "YAML" then
      let (major, minor) ← Scan.takeVersion
      pure (.version (major = 1 && (minor = 1 || minor = 2)))
    else if name = "TAG" then
      let handle ← Scan.takeOwnHandle
      if !(← Scan.isNext isSpace) then failure
      let _ ← Scan.takeWhile isSpace
      let expansion ← Scan.takeTagText Revision.v11.isTagCharacter
      if expansion = [] || !(← Scan.isGapAfter 0) then failure
      pure (.tagHandle handle (String.ofList expansion))
    else failure
  skipRestOfLine
  if !(← Scan.isLineEnd) then failure
  let _ ← Scan.takeBreak
  return directive

/-- Take the name behind the mark of an anchor or an alias. -/
def takeReference : Scan String := do
  Scan.skip 1
  let name ← Scan.takeName
  let isEnded := (← Scan.isGapAfter 0) || (← Scan.isNext "?:,]\x7d%@\x60".toList.contains)
  if !isEnded then failure
  return name

/-! ## Tokens one by one -/

/-- A bracket that opens a collection, which may itself be a key. -/
def openFlow (token : Token) : Tokenize Unit := do
  rememberKey
  enterFlow
  allowKey true
  scan (Scan.skip 1)
  add token

/-- A bracket that closes a collection. -/
def closeFlow (token : Token) : Tokenize Unit := do
  giveUpKey
  leaveFlow
  allowKey false
  scan (Scan.skip 1)
  add token

/-- A comma between the items of a collection in brackets. -/
def separateFlow : Tokenize Unit := do
  giveUpKey
  allowKey true
  scan (Scan.skip 1)
  add .flowEntry

/-- The dash of an item. -/
def beginEntry : Tokenize Unit := do
  markInBlock .blockSequenceStart
  giveUpKey
  allowKey true
  scan (Scan.skip 1)
  add .blockEntry

/-- The mark of a key. -/
def beginKey : Tokenize Unit := do
  markInBlock .blockMappingStart
  giveUpKey
  allowKey (!(← inFlow))
  scan (Scan.skip 1)
  add .key

/-- The colon before a value.  If a key may have begun before it, there one did begin. -/
def beginValue : Tokenize Unit := do
  match (← get).possible with
  | some key =>
    -- the block begins where the key does, which is before this colon
    let beginsBlock ← deepen key.start.column
    beginKeyAt key (if beginsBlock then [.blockMappingStart, .key] else [.key])
    allowKey false
  | none =>
    markInBlock .blockMappingStart
    allowKey (!(← inFlow))
  scan (Scan.skip 1)
  add .value

/-- A block scalar, which is never a key. -/
def addBlock (style : Style) : Tokenize Unit := do
  giveUpKey
  allowKey true
  let text ← scan (takeBlock (style = .folded) (← get).indent)
  add (.scalar style text)

/-- A plain scalar; behind a line break a key may begin again. -/
def addPlain : Tokenize Unit := do
  rememberKey
  allowKey false
  let (text, isBroken) ← scan (takePlain (← inFlow) ((← get).indent + 1))
  if isBroken then allowKey true
  add (.scalar .plain text)

/-- Whether no plain scalar begins with a character, whatever stands behind it. -/
def isIndicator (character : Char) : Bool :=
  ",[]\x7b\x7d#&*!|>'\"%@\x60".toList.contains character

/-- Whether a plain scalar begins here. -/
def beginsPlain (character : Char) : Tokenize Bool := do
  if Revision.v11.isGap character || isIndicator character then return false
  else if character = '-' then
    return !(← scan (Scan.rest))[1]?.any isSpace
  else if character = '?' || character = ':' then
    return !(← inFlow) && !(← scan (Scan.isGapAfter 1))
  else return true

/-- Add the next token, behind the tokens that end blocks before it; false at the end. -/
def addNext : Tokenize Bool := do
  skipBlanks
  giveUpLateKeys
  endBlocks (← get).cursor.column
  match (← get).cursor.rest with
  | [] =>
    endDocument
    return false
  | character :: _ =>
    -- marks that count only at the start of a line come before all others
    let isFirst := (← get).cursor.column = 0
    let inFlow ← inFlow
    let isAlone := inFlow || (← scan (Scan.isGapAfter 1))
    if isFirst && character = '%' then
      endDocument
      add (← scan takeDirective)
    else if ← scan Scan.isDocumentMark then
      endDocument
      scan (Scan.skip 3)
      add (if character = '-' then .documentStart else .documentEnd)
    else if character = '[' then openFlow .flowSequenceStart
    else if character = '\x7b' then openFlow .flowMappingStart
    else if character = ']' then closeFlow .flowSequenceEnd
    else if character = '\x7d' then closeFlow .flowMappingEnd
    else if character = ',' then separateFlow
    else if character = '-' && (← scan (Scan.isGapAfter 1)) then beginEntry
    else if character = '?' && isAlone then beginKey
    else if character = ':' && isAlone then beginValue
    else if character = '*' then addContent (Token.alias <$> takeReference)
    else if character = '&' then addContent (Token.anchor <$> takeReference)
    else if character = '!' then addContent (Scan.takeTag inFlow)
    else if character = '|' && !inFlow then addBlock .literal
    else if character = '>' && !inFlow then addBlock .folded
    else if character = '\'' then addContent (Token.scalar .singleQuoted <$> takeQuoted false)
    else if character = '"' then addContent (Token.scalar .doubleQuoted <$> takeQuoted true)
    else if ← beginsPlain character then addPlain
    else failure
    return true

/-- The tokens of a text, if it is made of tokens. -/
def tokens? (text : String) : Option (List Token) :=
  Tokenize.run? addNext .v11 text

end Throttle.Yaml.Revision11
