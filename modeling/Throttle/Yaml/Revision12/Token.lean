import Throttle.Yaml.Revision12.Scalar
import Throttle.Yaml.Tag

/-!
# Tokens of revision 1.2

How a text is cut into tokens by revision 1.2.  A key without a mark stands on one line and
has at most 1024 characters, but between brackets it may be of any length.  The value of a
key has to be indented deeper than the key, also where it stands in brackets.  A key with a
value between square brackets is a mapping of its own.
-/

namespace Throttle.Yaml.Revision12

open Tokenize

/-! ## Blanks between tokens -/

/-- Skip blanks, comments and line breaks.  A line break lets a key begin again.  A tab stands
before the indentation of a block only if nothing but a comment follows on its line. -/
def skipBlanks : Tokenize Unit := do
  let step : Tokenize Bool := do
    let draft ← get
    let isEarly := !draft.indentations.isEmpty && draft.cursor.isLeading &&
      draft.cursor.column < draft.indent
    if ← scan Scan.isBreakNext then
      let _ ← scan Scan.takeBreak
      if !(← inFlow) then allowKey true
      return true
    match draft.cursor.rest.head? with
    | some '\t' =>
      if isEarly then scan endLine else scan (Scan.skip 1)
      return true
    | some ' ' =>
      scan (Scan.skip 1)
      return true
    | some '#' =>
      let _ ← scan Scan.takeLine
      return true
    | _ => return false
  Text.repeatAtMost step ((← get).cursor.size + 1)

/-- Skip what separates the mark of a key from the key: spaces, comments and line breaks, and
at least one that is no comment. -/
def skipBehindKeyMark : Tokenize Unit := do
  let step : StateT Bool Tokenize Bool := do
    if ← scan Scan.isBreakNext then
      let _ ← scan Scan.takeBreak
      if !(← inFlow) then allowKey true
      set true
      return true
    else if ← scan (Scan.isNext (· = ' ')) then
      scan (Scan.skip 1)
      set true
      return true
    else if ← scan (Scan.isNext (· = '#')) then
      let _ ← scan Scan.takeLine
      return true
    else return false
  let ((), isSeparated) ← (Text.repeatAtMost step ((← get).cursor.size + 1)).run false
  if !isSeparated then failure

/-- Outside of brackets, give up the possible keys that are on a line before this one, or too
long. -/
def giveUpLateKeys : Tokenize Unit := do
  if !(← inFlow) then
    let cursor := (← get).cursor
    giveUpKeys fun start => start.line < cursor.line || start.index + 1024 < cursor.index

/-! ## Indentation -/

/-- Have what follows stand deeper than the block that it belongs to. -/
def prepareIndentation : Tokenize Unit := do
  let draft ← get
  if !(← inFlow) && draft.indentations.head?.any Indentation.isBlock then
    indentTo (draft.indent + 1) false

/-- Go back to the indentation of the innermost block. -/
def dropPrepared : Tokenize Unit := do
  if (← get).indentations.head?.any fun innermost => !innermost.isBlock then outdent

/-! ## Directives and references -/

/-- Take the beginning of tags that a handle is to stand for. -/
def takeExpansion : Scan String := do
  let begins (character : Char) : Bool :=
    character = '!' || character = '%' || Revision.v12.isSuffixCharacter character
  if !(← Scan.isNext begins) then failure
  return String.ofList (← Scan.takeTagText Revision.v12.isTagCharacter)

/-- Take a directive and the line it stands on; one of an unknown name gives a meaning to the
empty handle. -/
def takeDirective : Scan Token := do
  Scan.skip 1
  let name ← Scan.takeName
  if !(← Scan.isGapAfter 0) then failure
  let directive : Token ←
    if name = "YAML" then
      let _ ← Scan.takeWhile isSpace
      let _ ← Scan.takeVersion
      pure (.version true)
    else if name = "TAG" then
      let _ ← Scan.takeWhile isSpace
      let handle ← Scan.takeOwnHandle
      let _ ← Scan.takeWhile isSpace
      let expansion ← takeExpansion
      if !(← Scan.isGapAfter 0) then failure
      pure (.tagHandle handle expansion)
    else
      let _ ← Scan.takeLine
      pure (.tagHandle "" "")
  endLine
  let _ ← Scan.takeBreak
  return directive

/-- Whether a character may stand in the name of an anchor. -/
def isAnchorCharacter (character : Char) : Bool :=
  !Revision.v12.isGap character && !isFlowIndicator character && character ≠ byteOrderMark

/-- Take the name behind the mark of an anchor or an alias. -/
def takeReference : Scan String := do
  Scan.skip 1
  let name ← Scan.takeWhile isAnchorCharacter
  if name = [] then failure
  return String.ofList name

/-! ## Tokens one by one -/

/-- The deepest that brackets may be nested. -/
def deepestFlow : Nat := 255

/-- A bracket that opens a collection, which may itself be a key. -/
def openFlow (token : Token) : Tokenize Unit := do
  rememberKey
  prepareIndentation
  enterFlow
  if deepestFlow < (← get).around.length then failure
  allowKey true
  scan (Scan.skip 1)
  if token = .flowMappingStart then modify ({ · with inMapping := true })
  let _ ← scan (skipRestOfLine true)
  add token

/-- End the mapping that the present entry has become. -/
def endPair : Tokenize Unit := do
  if (← get).isPair then
    modify ({ · with isPair := false, inMapping := false })
    add .flowMappingEnd

/-- Say that a colon needs no blank behind it if it comes next. -/
def allowAdjacent : Tokenize Unit :=
  modify fun draft => { draft with adjacentAt := draft.cursor.index }

/-- A bracket that closes a collection. -/
def closeFlow (token : Token) : Tokenize Unit := do
  giveUpKey
  leaveFlow
  allowKey false
  endPair
  scan (Scan.skip 1)
  let _ ← scan (skipRestOfLine true)
  if ← inFlow then allowAdjacent
  add token

/-- A comma between the items of a collection in brackets. -/
def separateFlow : Tokenize Unit := do
  giveUpKey
  allowKey true
  endPair
  scan (Scan.skip 1)
  let _ ← scan (skipRestOfLine true)
  add .flowEntry

/-- Whether the dash of an item comes next. -/
def isDash : Scan Bool := do
  if ← Scan.isNext (· = '-') then Scan.isGapAfter 1 else return false

/-- The dash of an item.  Behind a tab no other dash may follow on the line. -/
def beginEntry : Tokenize Unit := do
  if ← inFlow then failure
  markInBlock .blockSequenceStart
  scan (Scan.skip 1)
  let blanks ← scan (skipRestOfLine true)
  if blanks.contains '\t' && (← scan isDash) then failure
  if (← scan Scan.isBreakNext) || (← scan (Scan.isNext isFlowIndicator)) then prepareIndentation
  giveUpKey
  allowKey true
  add .blockEntry

/-- The mark of a key. -/
def beginKey : Tokenize Unit := do
  if ← inFlow then modify ({ · with inMapping := true })
  markInBlock .blockMappingStart
  giveUpKey
  allowKey (!(← inFlow))
  scan (Scan.skip 1)
  skipBehindKeyMark
  if ← scan (Scan.isNext (· = '\t')) then failure
  add .key

/-- Skip the colon before a value.  Tabs alone do not separate it from a word or a dash. -/
def skipColon : Scan Unit := do
  Scan.skip 1
  if ← Scan.isNext (· = '\t') then
    let blanks ← skipRestOfLine true
    if !blanks.contains ' ' && (← Scan.isNext isNameCharacter) then failure

/-- The colon before a value.  If a key may have begun before it, there one did begin. -/
def beginValue : Tokenize Unit := do
  let inFlow ← inFlow
  let draft ← get
  let isPair := inFlow && !draft.inMapping
  modify ({ · with isPair })
  match draft.possible with
  | some key =>
    if isPair && key.start.line < draft.cursor.line then failure
    let beginsBlock ← deepen key.start.column
    let start := if beginsBlock then [.blockMappingStart]
      else if isPair then [.flowMappingStart]
      else []
    beginKeyAt key (start ++ [.key])
    allowKey false
  | none =>
    if isPair then add .flowMappingStart
    markInBlock .blockMappingStart
    allowKey (!inFlow)
  prepareIndentation
  scan skipColon
  add .value

/-- A block scalar, which nothing can follow on its line. -/
def addBlock (style : Style) : Tokenize Unit := do
  rememberKey
  allowKey true
  dropPrepared
  let text ← scan (takeBlock (style = .folded) (← get).indent)
  add (.scalar style text)

/-- A scalar between quotes. -/
def addQuoted (style : Style) : Tokenize Unit := do
  rememberKey
  allowKey false
  let text ← scan (takeQuoted (style = .doubleQuoted) (← inFlow) (← get).indent)
  skipBlanks
  allowAdjacent
  add (.scalar style text)

/-- A plain scalar; behind a line break a key may begin again. -/
def addPlain : Tokenize Unit := do
  rememberKey
  allowKey false
  dropPrepared
  let text ← scan (takePlain (← inFlow) ((← get).indent + 1))
  if (← get).cursor.isLeading then allowKey true
  add (.scalar .plain text)

/-- Whether the colon of a value comes next. -/
def isColon : Tokenize Bool := do
  let draft ← get
  if draft.cursor.rest.head? ≠ some ':' then return false
  let isBefore (character : Char) : Bool :=
    isFlowIndicator character || draft.cursor.index = draft.adjacentAt
  return (← scan (Scan.isGapAfter 1)) ||
    ((← inFlow) && draft.cursor.rest[1]?.any isBefore)

/-- Add the token that begins with a character, where no line of a document's frame is. -/
def addInDocument (character : Char) : Tokenize Unit := do
  let inFlow ← inFlow
  let isAlone ← scan (Scan.isGapAfter 1)
  if character = '[' then openFlow .flowSequenceStart
  else if character = '\x7b' then openFlow .flowMappingStart
  else if character = ']' then closeFlow .flowSequenceEnd
  else if character = '\x7d' then closeFlow .flowMappingEnd
  else if character = ',' then separateFlow
  else if character = '-' && isAlone then beginEntry
  else if character = '?' && isAlone then beginKey
  else if ← isColon then beginValue
  else if character = '*' then addContent (Token.alias <$> takeReference)
  else if character = '&' then addContent (Token.anchor <$> takeReference)
  else if character = '!' then addContent (Scan.takeTag inFlow)
  else if character = '|' && !inFlow then addBlock .literal
  else if character = '>' && !inFlow then addBlock .folded
  else if character = '\'' then addQuoted .singleQuoted
  else if character = '"' then addQuoted .doubleQuoted
  else if "%@\x60".toList.contains character then failure
  else addPlain

/-- Add the next token, behind the tokens that end blocks before it; false at the end. -/
def addNext : Tokenize Bool := do
  skipBlanks
  giveUpLateKeys
  endBlocks (← get).cursor.column
  let draft ← get
  match draft.cursor.rest with
  | [] =>
    endDocument
    return false
  | character :: _ =>
    if draft.cursor.column = 0 && character = '%' then
      endDocument
      add (← scan takeDirective)
    else if ← scan (Scan.isLineMark "---") then
      endDocument
      scan (Scan.skip 3)
      add .documentStart
    else if ← scan (Scan.isLineMark "...") then
      endDocument
      scan (Scan.skip 3)
      scan endLine
      add .documentEnd
    else if draft.cursor.column < draft.indent then failure
    else addInDocument character
    return true

/-- The tokens of a text up to its first NUL, if it is made of tokens. -/
def tokens? (text : String) : Option (List Token) :=
  Tokenize.run? addNext .v12 (String.ofList (text.toList.takeWhile (· ≠ '\x00')))

end Throttle.Yaml.Revision12
