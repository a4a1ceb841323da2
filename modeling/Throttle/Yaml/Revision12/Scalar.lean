import Throttle.Yaml.Scalar

/-!
# Scalars of revision 1.2

How the characters of a scalar are taken off a text by revision 1.2.  Continued lines have to
be indented, whether there are quotes or not.  A comment has to stand behind a blank.
-/

namespace Throttle.Yaml.Revision12

open Scan

/-- Skip spaces, and tabs where they are allowed, and a comment behind them if there is one.
The blanks that were skipped are told. -/
def skipRestOfLine (allowsTabs : Bool) : Scan (List Char) := do
  let blanks ← takeWhile fun character => character = ' ' || (allowsTabs && character = '\t')
  if ← isNext (· = '#') then
    if blanks = [] then failure
    let _ ← takeLine
  return blanks

/-- Skip what may follow on a line behind its content, up to its end. -/
def endLine : Scan Unit := do
  let _ ← skipRestOfLine true
  if !(← isLineEnd) then failure

/-! ## Plain scalars -/

/-- How many of the characters belong to a plain scalar. -/
def plainLength (inFlow : Bool) : List Char → Nat
  | [] => 0
  | character :: rest =>
    let endsKey (after : Char) : Bool :=
      Revision.v12.isGap after || (inFlow && isFlowIndicator after)
    if Revision.v12.isGap character || (inFlow && isFlowIndicator character) then 0
    else if character = ':' && rest.head?.all endsKey then 0
    else plainLength inFlow rest + 1

/-- Take what stands between two runs of a plain scalar.  A tab stands before the indentation
of a continued line only if nothing but a comment follows on its line. -/
def takePlainGap (start : Gap) (indentation : Int) : Scan Gap := do
  let step : StateT Gap Scan Bool := do
    let cursor ← getThe Cursor
    if ← isBreakNext then
      let lineBreak ← takeBreak
      -- the break behind a comment is not counted
      if !(← get).isBroken || cursor.isLeading then modify (·.withBreak lineBreak)
      return true
    else if ← isNext isSpace then
      let isTab ← isNext (· = '\t')
      if isTab && cursor.isLeading && cursor.column < indentation then endLine
      else
        let blank ← next
        modify (·.withBlank blank)
      return true
    else return false
  let ((), gap) ← (Text.repeatAtMost step ((← get).size + 1)).run start
  return gap

/-- Take a plain scalar whose continued lines stand at least at a column; between brackets its
first line does too. -/
def takePlain (inFlow : Bool) (indentation : Int) : Scan String := do
  if inFlow && (← get).column < indentation then failure
  let step : StateT (List Char × Gap) Scan Bool := do
    if (← isDocumentMark) || (← isNext (· = '#')) then return false
    let ahead ← rest
    if inFlow && ahead.head? = some '-' && ahead[1]?.any isFlowIndicator then failure
    let length := plainLength inFlow ahead
    skip length
    let (text, gap) ← get
    if length ≠ 0 then set (text ++ gap.folded ++ ahead.take length, Gap.none)
    if ← isGapNext then
      let (text, gap) ← get
      let gap ← takePlainGap gap indentation
      set (text, gap)
      return inFlow || indentation ≤ (← getThe Cursor).column
    else return false
  let ((), text, _) ← (Text.repeatAtMost step ((← get).size + 1)).run ([], Gap.none)
  return String.ofList text

/-! ## Quoted scalars -/

/-- Whether a character may follow on the line of a closing quote: what goes on with a
collection in brackets, or the colon behind a key, which stands on one line outside of
them. -/
def mayFollowQuote (inFlow isOneLine : Bool) (character : Char) : Bool :=
  (inFlow && (character = ',' || character = ']' || character = '\x7d')) ||
    (character = ':' && (inFlow || isOneLine))

/-- Take a scalar between quotes, none of whose lines begins before a column. -/
def takeQuoted (isDouble inFlow : Bool) (indentation : Int) : Scan String := do
  let line := (← get).line
  skip 1
  let step : StateT (List Char) Scan Bool := do
    if ← isDocumentMark then failure
    if (← getThe Cursor).column < indentation then failure
    let (run, gap) ← takeQuotedRun isDouble
    modify (· ++ run)
    match ← rest with
    | [] => failure
    | character :: _ =>
      if character = (if isDouble then '"' else '\'') then
        skip 1
        return false
      else
        let gap ← takeGap gap (some indentation)
        modify (· ++ gap.folded)
        return true
  let ((), text) ← (Text.repeatAtMost step ((← get).size + 1)).run []
  let _ ← skipRestOfLine true
  let isOneLine := (← get).line = line
  if !((← isLineEnd) || (← isNext (mayFollowQuote inFlow isOneLine))) then failure
  return String.ofList text

/-! ## Block scalars -/

/-- The text of a block scalar that the end of the whole text leaves without a line: the break
behind its header, or the empty lines where they are kept. -/
def withoutLines (chomping : Chomping) (headerBreak emptyLines : List Char) : List Char :=
  match chomping with
  | .strip => []
  | .clip => headerBreak
  | .keep => if headerBreak = [] || emptyLines = [] then headerBreak else emptyLines

/-- Take a block scalar inside a block that is indented by so much. -/
def takeBlock (isFolded : Bool) (outer : Int) : Scan String := do
  let (chomping, increment) ← takeBlockMarks
  endLine
  let headerBreak ← takeBreak
  if ← isNext (· = '\t') then failure
  let base := if 0 ≤ outer then outer.toNat else 0
  let (emptyLines, width) ← takeEmptyLines (increment.map (base + ·)) (outer + 1).toNat
  if (← rest).isEmpty then return String.ofList (withoutLines chomping headerBreak emptyLines)
  let column := (← get).column
  if column < width && outer < column then failure
  let block ← takeBlockLines isFolded width emptyLines
  -- a last line without a break counts as if it had one, if it is indented far enough
  let isOpen := (← rest).isEmpty && max width 1 ≤ (← get).column
  let lineBreak := if isOpen then block.lineBreak ++ ['\n'] else block.lineBreak
  return String.ofList ({ block with lineBreak }.finished chomping)

end Throttle.Yaml.Revision12
