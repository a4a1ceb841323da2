import Throttle.Yaml.Scalar

/-!
# Tokens

A YAML text as a list of tokens.  Indentation becomes tokens that begin and end blocks.

A key without a mark is only known as a key when the colon behind it is met, so the places
where one may begin are remembered, at most one for each depth of brackets, and the tokens
that belong in front of it are put there in the end.
-/

namespace Throttle.Yaml

/-- The parts of a YAML text. -/
inductive Token where
  /-- The directive for the version, which is one that can be read or not. -/
  | version (isKnown : Bool)
  /-- The directive that lets a handle stand for the beginning of a tag. -/
  | tagHandle (handle expansion : String)
  | documentStart
  | documentEnd
  | blockSequenceStart
  | blockMappingStart
  | blockEnd
  | flowSequenceStart
  | flowSequenceEnd
  | flowMappingStart
  | flowMappingEnd
  | blockEntry
  | flowEntry
  | key
  | value
  | alias (name : String)
  | anchor (name : String)
  | tag (handle suffix : String)
  | scalar (style : Style) (text : String)
deriving DecidableEq, Repr

/-- A place where a key without a mark may begin. -/
structure PossibleKey where
  /-- The number of tokens before it. -/
  place : Nat
  start : Cursor
  /-- Whether nothing but a key can stand there. -/
  isRequired : Bool

/-- An indentation of lines, inside of another one. -/
structure Indentation where
  /-- The column of the indentation around it. -/
  outer : Int
  /-- Whether a block begins with it; else it only says how deep a value has to stand. -/
  isBlock : Bool
deriving DecidableEq, Repr

/-- What is known in the middle of a text. -/
structure TokenDraft where
  cursor : Cursor
  /-- The tokens so far, the last one first. -/
  tokens : List Token
  count : Nat
  /-- The places at which a key turned out to begin, each with the tokens in front of it. -/
  keys : List (Nat × List Token)
  /-- The column of the innermost indentation; below zero outside of all. -/
  indent : Int
  /-- The indentations that lines are in, the innermost first. -/
  indentations : List Indentation
  /-- Whether a key without a mark may begin at the next token. -/
  mayBeginKey : Bool
  /-- The possible key on the present depth of brackets. -/
  possible : Option PossibleKey
  /-- The possible keys on the lesser depths, the innermost first. -/
  around : List (Option PossibleKey)
  /-- Whether the entries between brackets belong to a mapping that has begun. -/
  inMapping : Bool
  /-- Whether the present entry between brackets has become a mapping of its own. -/
  isPair : Bool
  /-- The place where a colon needs no blank behind it. -/
  adjacentAt : Nat

/-- Actions that move a cursor over the text and draft tokens, or find the text wrong. -/
abbrev Tokenize := StateT TokenDraft Option

namespace Tokenize

/-- Move the cursor. -/
def scan {β : Type} (action : Scan β) : Tokenize β := do
  let draft ← get
  let (result, cursor) ← StateT.lift (action.run draft.cursor)
  set { draft with cursor }
  return result

/-- Whether the cursor is between brackets. -/
def inFlow : Tokenize Bool := return !(← get).around.isEmpty

/-- Add a token. -/
def add (token : Token) : Tokenize Unit :=
  modify fun draft =>
    { draft with tokens := token :: draft.tokens, count := draft.count + 1 }

/-! ## Keys without a mark -/

/-- Say whether a key may begin at the next token. -/
def allowKey (allowed : Bool) : Tokenize Unit :=
  modify ({ · with mayBeginKey := allowed })

/-- Give up a possible key; one that nothing else can stand for is missed. -/
def giveUp (possible : Option PossibleKey) : Tokenize (Option PossibleKey) :=
  if possible.any PossibleKey.isRequired then failure else return none

/-- Give up the possible key on the present depth. -/
def giveUpKey : Tokenize Unit := do
  let possible ← giveUp (← get).possible
  modify ({ · with possible })

/-- Give up the possible keys on all depths for which the colon comes too late. -/
def giveUpKeys (isLate : Cursor → Bool) : Tokenize Unit := do
  let refresh (possible : Option PossibleKey) : Tokenize (Option PossibleKey) :=
    if possible.any fun key => isLate key.start then giveUp possible else return possible
  let possible ← refresh (← get).possible
  let around ← (← get).around.mapM refresh
  modify ({ · with possible, around })

/-- Remember that a key may begin at the next token. -/
def rememberKey : Tokenize Unit := do
  let draft ← get
  if draft.mayBeginKey then
    giveUpKey
    -- at the column of the block that is open, only one more entry of it can stand
    let isRequired := draft.around.isEmpty && draft.indent = draft.cursor.column &&
      draft.indentations.head?.any Indentation.isBlock
    modify ({ · with possible := some ⟨draft.count, draft.cursor, isRequired⟩ })

/-- Put tokens in front of a key that has been found out, and say that it has been. -/
def beginKeyAt (key : PossibleKey) (tokens : List Token) : Tokenize Unit :=
  modify fun draft =>
    { draft with keys := (key.place, tokens) :: draft.keys, possible := none }

/-- Go one depth of brackets in. -/
def enterFlow : Tokenize Unit :=
  modify fun draft =>
    { draft with around := draft.possible :: draft.around, possible := none }

/-- Go one depth of brackets out. -/
def leaveFlow : Tokenize Unit :=
  modify fun draft => match draft.around with
    | possible :: around => { draft with possible, around }
    | [] => draft

/-! ## Indentation -/

/-- Indent lines by a column. -/
def indentTo (column : Int) (isBlock : Bool) : Tokenize Unit :=
  modify fun draft =>
    { draft with
      indent := column
      indentations := ⟨draft.indent, isBlock⟩ :: draft.indentations }

/-- Go back to the indentation around the innermost one. -/
def outdent : Tokenize Unit :=
  modify fun draft => match draft.indentations with
    | innermost :: indentations => { draft with indent := innermost.outer, indentations }
    | [] => draft

/-- Begin a block at a column if it is deeper than the innermost one, and tell whether it
is.  An indentation that no block has begun with gives way to the block. -/
def deepen (column : Nat) : Tokenize Bool := do
  if ← inFlow then return false
  let draft ← get
  if draft.indent ≤ column && draft.indentations.head?.any fun innermost => !innermost.isBlock then
    outdent
  if (← get).indent < column then
    indentTo column true
    return true
  else return false

/-- End the indentations that are deeper than a column, and the blocks that begin with
them. -/
def endBlocks (column : Int) : Tokenize Unit := do
  if !(← inFlow) then
    let step : Tokenize Bool := do
      let draft ← get
      if draft.indent ≤ column then return false
      if draft.indentations.head?.any Indentation.isBlock then add .blockEnd
      outdent
      return true
    Text.repeatAtMost step (← get).indentations.length

/-- End everything that is open before a line that is not part of a document. -/
def endDocument : Tokenize Unit := do
  endBlocks (-1)
  giveUpKey
  allowKey false

/-- A mark of one character that begins a line's content in a block. -/
def markInBlock (start : Token) : Tokenize Unit := do
  if !(← inFlow) then
    if !(← get).mayBeginKey then failure
    if ← deepen (← get).cursor.column then add start

/-- Something that may be a key, or the first part of one. -/
def addContent (token : Scan Token) : Tokenize Unit := do
  rememberKey
  allowKey false
  add (← scan token)

end Tokenize

namespace TokenDraft

/-- The draft before the first character. -/
def start (revision : Revision) (text : String) : TokenDraft where
  cursor := .start revision text
  tokens := []
  count := 0
  keys := []
  indent := -1
  indentations := []
  mayBeginKey := true
  possible := none
  around := []
  inMapping := false
  isPair := false
  adjacentAt := 0

/-- Put the tokens of keys in front of their places, from the last token to the first; the
keys come in the same order. -/
def weave : List (Nat × List Token) → Nat → List Token → List Token → List Token
  | (key, tokens) :: keys, place + 1, token :: before, woven =>
    if key = place then weave keys place before (tokens ++ token :: woven)
    else weave ((key, tokens) :: keys) place before (token :: woven)
  | _, _, before, woven => before.reverse ++ woven

/-- All tokens in the order of the text. -/
def allTokens (draft : TokenDraft) : List Token :=
  let keys := draft.keys.mergeSort fun first second => decide (second.1 ≤ first.1)
  weave keys draft.count draft.tokens []

end TokenDraft

/-- The tokens of a text, if it is made of tokens, given how the next one is added for as long
as there is one. -/
def Tokenize.run? (addNext : Tokenize Bool) (revision : Revision) (text : String) :
    Option (List Token) := do
  let ((), draft) ←
    (Text.repeatAtMost addNext (text.length + 2)).run (.start revision text)
  return draft.allTokens

end Throttle.Yaml
