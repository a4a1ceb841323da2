import Throttle.Text.Loop

/-!
# A place in a YAML text

The cursor knows the characters that are left, and the line and the column where they
begin.  `Scan` is the type of actions that move a cursor forward or find the text wrong.
There are two revisions of YAML, which do not agree on the characters that end a line.
-/

namespace Throttle.Yaml

/-- The revisions of YAML that texts are read by. -/
inductive Revision where
  /-- Revision 1.1. -/
  | v11
  /-- Revision 1.2. -/
  | v12
deriving DecidableEq, Repr

/-- A place in a text. -/
structure Cursor where
  revision : Revision
  rest : List Char
  /-- The number of characters of the whole text. -/
  size : Nat
  /-- The number of characters before the place. -/
  index : Nat
  /-- The number of bytes that these characters take up. -/
  bytes : Nat
  line : Nat
  column : Nat
  /-- Whether the line holds nothing but blanks before the place. -/
  isLeading : Bool

/-- The place before the first character. -/
def Cursor.start (revision : Revision) (text : String) : Cursor :=
  ⟨revision, text.toList, text.length, 0, 0, 0, 0, true⟩

/-- Actions that move a cursor forward, or find the text wrong. -/
abbrev Scan := StateT Cursor Option

/-! ## Characters -/

/-- Whether a character is a blank within a line. -/
def isSpace (character : Char) : Bool := character = ' ' || character = '\t'

/-- Whether a character ends a line.  Revision 1.1 has three such characters more. -/
def Revision.isBreak (revision : Revision) (character : Char) : Bool :=
  character = '\n' || character = '\r' ||
    (revision = .v11 && (character = '\x85' || character = '\u2028' || character = '\u2029'))

/-- Whether a character is a blank or ends a line. -/
def Revision.isGap (revision : Revision) (character : Char) : Bool :=
  isSpace character || revision.isBreak character

/-- Whether a character may stand in a name. -/
def isNameCharacter (character : Char) : Bool :=
  character.isAlphanum || character = '_' || character = '-'

/-- Whether a character is a bracket or a comma of a collection in brackets. -/
def isFlowIndicator (character : Char) : Bool :=
  character = ',' || character = '[' || character = ']' || character = '\x7b' ||
    character = '\x7d'

/-- The mark of byte order. -/
def byteOrderMark : Char := '\ufeff'

/-- Whether a text may hold a character at all. -/
def isPermitted (character : Char) : Bool :=
  let number := character.toNat
  number = 0x9 || number = 0xa || number = 0xd || (0x20 ≤ number && number ≤ 0x7e) ||
    number = 0x85 || (0xa0 ≤ number && number ≤ 0xfffd) || 0x10000 ≤ number

/-! ## Moving forward -/

/-- The place behind characters on the same line. -/
def Cursor.behind (cursor : Cursor) (taken rest : List Char) : Cursor :=
  { cursor with
    rest
    index := cursor.index + taken.length
    bytes := taken.foldl (fun bytes character => bytes + character.utf8Size) cursor.bytes
    column := cursor.column + taken.length
    isLeading := cursor.isLeading && taken.all isSpace }

/-- The place behind characters that end a line. -/
def Cursor.behindBreak (cursor : Cursor) (taken rest : List Char) : Cursor :=
  { cursor.behind taken rest with
    line := cursor.line + 1
    column := 0
    isLeading := true }

namespace Scan

/-- The characters that are left. -/
def rest : Scan (List Char) := return (← get).rest

/-- Whether the next character, if there is one, passes a test. -/
def isNext (test : Char → Bool) : Scan Bool := return (← rest).head?.any test

/-- Whether a line ends next. -/
def isBreakNext : Scan Bool := do isNext (← get).revision.isBreak

/-- Whether a line or the whole text ends here. -/
def isLineEnd : Scan Bool := return (← rest).head?.all (← get).revision.isBreak

/-- Whether a blank or the end of a line is next. -/
def isGapNext : Scan Bool := do isNext (← get).revision.isGap

/-- Whether the text ends, or a blank or a line break stands, after so many characters. -/
def isGapAfter (count : Nat) : Scan Bool :=
  return (← rest)[count]?.all (← get).revision.isGap

/-- Take one character that does not end a line. -/
def next : Scan Char := do
  let cursor ← get
  match cursor.rest with
  | [] => failure
  | character :: rest =>
    set (cursor.behind [character] rest)
    return character

/-- Take so many characters that do not end a line. -/
def skip : Nat → Scan Unit
  | 0 => return ()
  | count + 1 => do
    let _ ← next
    skip count

/-- Take characters while they pass a test that no line break passes. -/
def takeWhile (test : Char → Bool) : Scan (List Char) := do
  let cursor ← get
  let taken := cursor.rest.takeWhile test
  set (cursor.behind taken (cursor.rest.drop taken.length))
  return taken

/-- Take what is left of the line. -/
def takeLine : Scan (List Char) := do
  let revision := (← get).revision
  takeWhile fun character => !revision.isBreak character

/-- Take a line break, if one is next.  All breaks count as a line feed but the two that
stand for themselves. -/
def takeBreak : Scan (List Char) := do
  let cursor ← get
  match cursor.rest with
  | '\r' :: '\n' :: rest =>
    set (cursor.behindBreak ['\r', '\n'] rest)
    return ['\n']
  | character :: rest =>
    if cursor.revision.isBreak character then
      set (cursor.behindBreak [character] rest)
      let standsForItself := character = '\u2028' || character = '\u2029'
      return [if standsForItself then character else '\n']
    else return []
  | [] => return []

/-- Whether a line begins here with certain characters and a gap behind them. -/
def isLineMark (mark : String) : Scan Bool := do
  let cursor ← get
  let isGap ← isGapAfter mark.length
  return cursor.column = 0 && mark.toList.isPrefixOf cursor.rest && isGap

/-- Whether a line begins here with one of the two marks around documents. -/
def isDocumentMark : Scan Bool := do
  if ← isLineMark "---" then return true else isLineMark "..."

end Scan

end Throttle.Yaml
