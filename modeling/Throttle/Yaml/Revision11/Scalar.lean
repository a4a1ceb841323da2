import Throttle.Yaml.Scalar

/-!
# Scalars of revision 1.1

How the characters of a scalar are taken off a text by revision 1.1.  Continued lines of a
plain scalar have to be indented, those of a quoted one need not be.
-/

namespace Throttle.Yaml.Revision11

open Scan

/-- Skip blanks, and a comment if there is one. -/
def skipRestOfLine : Scan Unit := do
  let _ ← takeWhile isSpace
  if ← isNext (· = '#') then
    let _ ← takeLine

/-! ## Plain scalars -/

/-- How many of the characters belong to a plain scalar; none if a colon stands before
an indicator in brackets. -/
def plainLength? (inFlow : Bool) : List Char → Option Nat
  | [] => some 0
  | character :: rest =>
    if Revision.v11.isGap character then some 0
    else if inFlow && isFlowIndicator character then some 0
    else if character = ':' then
      if inFlow && rest.head?.any (fun after => isFlowIndicator after || after = '?') then none
      else if rest.head?.all Revision.v11.isGap then some 0
      else (plainLength? inFlow rest).map (· + 1)
    else (plainLength? inFlow rest).map (· + 1)

/-- Take a plain scalar whose continued lines stand at least at a column, and tell whether
a line break was seen behind it. -/
def takePlain (inFlow : Bool) (indentation : Int) : Scan (String × Bool) := do
  let step : StateT (List Char × Gap) Scan Bool := do
    if (← isDocumentMark) || (← isNext (· = '#')) then return false
    match plainLength? inFlow (← rest) with
    | none => failure
    | some length =>
      let run := (← rest).take length
      skip length
      let (text, gap) ← get
      if length ≠ 0 then set (text ++ gap.folded ++ run, Gap.none)
      if ← isGapNext then
        let (text, gap) ← get
        let gap ← takeGap gap (some indentation)
        set (text, gap)
        return inFlow || indentation ≤ (← getThe Cursor).column
      else return false
  let ((), text, gap) ← (Text.repeatAtMost step ((← get).size + 1)).run ([], Gap.none)
  return (String.ofList text, gap.isBroken)

/-! ## Quoted scalars -/

/-- Take a scalar between quotes. -/
def takeQuoted (isDouble : Bool) : Scan String := do
  skip 1
  let step : StateT (List Char) Scan Bool := do
    if ← isDocumentMark then failure
    let (run, gap) ← takeQuotedRun isDouble
    modify (· ++ run)
    match ← rest with
    | [] => failure
    | character :: _ =>
      if character = (if isDouble then '"' else '\'') then
        skip 1
        return false
      else
        let gap ← takeGap gap none
        modify (· ++ gap.folded)
        return true
  let ((), text) ← (Text.repeatAtMost step ((← get).size + 1)).run []
  return String.ofList text

/-! ## Block scalars -/

/-- Take the header of a block scalar with the line it stands on. -/
def takeBlockHeader : Scan (Chomping × Option Nat) := do
  let marks ← takeBlockMarks
  skipRestOfLine
  if !(← isLineEnd) then failure
  let _ ← takeBreak
  return marks

/-- Take a block scalar inside a block that is indented by so much. -/
def takeBlock (isFolded : Bool) (outer : Int) : Scan String := do
  let (chomping, increment) ← takeBlockHeader
  let base := if 0 ≤ outer then outer.toNat else 0
  let least := max (outer + 1).toNat 1
  let (emptyLines, width) ← takeEmptyLines (increment.map (base + ·)) least
  let block ← takeBlockLines isFolded width emptyLines
  return String.ofList (block.finished chomping)

end Throttle.Yaml.Revision11
