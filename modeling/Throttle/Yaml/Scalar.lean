import Throttle.Decimal.Numeral
import Throttle.Yaml.Cursor

/-!
# Scalars

What the revisions of YAML have in common in the text of a scalar.  Plain and quoted scalars
may run over several lines, which are folded: a single line break becomes a blank, and of
more breaks the first is dropped.  Block scalars keep their lines or fold them, and say in
their header what becomes of the breaks at their end.
-/

namespace Throttle.Yaml

/-- How a scalar is written. -/
inductive Style where
  | plain
  | singleQuoted
  | doubleQuoted
  | literal
  | folded
deriving DecidableEq, Repr

/-! ## Folding -/

/-- What stands between two runs of text. -/
structure Gap where
  /-- The blanks before the first line break. -/
  blanks : List Char
  /-- Whether there is a line break. -/
  isBroken : Bool
  /-- The first line break, unless it is to leave nothing behind. -/
  first : List Char
  /-- The other line breaks. -/
  others : List Char

namespace Gap

/-- Nothing at all. -/
def none : Gap := ⟨[], false, [], []⟩

/-- A line break that leaves nothing behind. -/
def escapedBreak : Gap := ⟨[], true, [], []⟩

/-- What a gap becomes when its lines are folded. -/
def folded (gap : Gap) : List Char :=
  if gap.isBroken then
    if gap.first = ['\n'] then if gap.others = [] then [' '] else gap.others
    else gap.first ++ gap.others
  else gap.blanks

/-- The gap with one more blank, which counts only before the first line break. -/
def withBlank (gap : Gap) (blank : Char) : Gap :=
  if gap.isBroken then gap else { gap with blanks := gap.blanks ++ [blank] }

/-- The gap with one more line break. -/
def withBreak (gap : Gap) (lineBreak : List Char) : Gap :=
  if gap.isBroken then { gap with others := gap.others ++ lineBreak }
  else ⟨[], true, lineBreak, []⟩

end Gap

/-- Take blanks and line breaks.  A tab may not stand where the indentation of a continued
line is expected. -/
def Scan.takeGap (start : Gap) (indentation : Option Int) : Scan Gap := do
  let step : StateT Gap Scan Bool := do
    if ← Scan.isBreakNext then
      let lineBreak ← Scan.takeBreak
      modify (·.withBreak lineBreak)
      return true
    else if ← Scan.isNext isSpace then
      let column : Int := (← getThe Cursor).column
      let character ← Scan.next
      if (← get).isBroken && character = '\t' && indentation.any (column < ·) then failure
      modify (·.withBlank character)
      return true
    else return false
  let ((), gap) ← (Text.repeatAtMost step ((← get).size + 1)).run start
  return gap

/-! ## Between quotes -/

/-- The character that a short escape stands for. -/
def shortEscape? : Char → Option Char
  | '0' => some '\x00'
  | 'a' => some '\x07'
  | 'b' => some '\x08'
  | 't' => some '\t'
  | '\t' => some '\t'
  | 'n' => some '\n'
  | 'v' => some '\x0b'
  | 'f' => some '\x0c'
  | 'r' => some '\r'
  | 'e' => some '\x1b'
  | ' ' => some ' '
  | '"' => some '"'
  | '/' => some '/'
  | '\\' => some '\\'
  | 'N' => some '\x85'
  | '_' => some '\xa0'
  | 'L' => some '\u2028'
  | 'P' => some '\u2029'
  | _ => none

/-- How many digits an escape by number has. -/
def escapeWidth? : Char → Option Nat
  | 'x' => some 2
  | 'u' => some 4
  | 'U' => some 8
  | _ => none

/-- The character of a number, if there is one. -/
def characterOf? (number : Nat) : Option Char :=
  if valid : number.isValidChar then some (Char.ofNatAux number valid) else none

namespace Scan

/-- Take an escape behind its backslash. -/
def takeEscape : Scan Char := do
  let letter ← next
  match escapeWidth? letter with
  | some width =>
    let digits := (← rest).take width
    skip width
    let number ← StateT.lift (Decimal.Numeral.readHex? digits)
    StateT.lift (characterOf? number)
  | none => StateT.lift (shortEscape? letter)

/-- Take characters between quotes up to a blank, a line break or the closing quote.  A
backslash before a line break takes the break with it. -/
def takeQuotedRun (isDouble : Bool) : Scan (List Char × Gap) := do
  let quote := if isDouble then '"' else '\''
  let revision := (← get).revision
  let step : StateT (List Char × Gap) Scan Bool := do
    match ← rest with
    | [] => return false
    | character :: after =>
      if revision.isGap character then return false
      else if !isDouble && character = quote && after.head? = some quote then
        skip 2
        modify fun (text, gap) => (text ++ [quote], gap)
        return true
      else if character = quote then return false
      else if isDouble && character = '\\' then
        skip 1
        if after.head?.any revision.isBreak then
          let _ ← takeBreak
          modify fun (text, _) => (text, Gap.escapedBreak)
          return false
        else
          let escaped ← takeEscape
          modify fun (text, gap) => (text ++ [escaped], gap)
          return true
      else
        let run ← takeWhile fun character => !revision.isGap character && character ≠ quote &&
          !(isDouble && character = '\\')
        modify fun (text, gap) => (text ++ run, gap)
        return true
  let ((), run) ← (Text.repeatAtMost step ((← get).size + 1)).run ([], Gap.none)
  return run

end Scan

/-! ## In blocks -/

/-- What becomes of the line breaks at the end of a block scalar. -/
inductive Chomping where
  /-- All are dropped. -/
  | strip
  /-- One is kept. -/
  | clip
  /-- All are kept. -/
  | keep
deriving DecidableEq, Repr

namespace Scan

/-- Take the mark for the line breaks at the end. -/
def takeChomping : Scan (Option Chomping) := do
  if ← isNext (· = '+') then
    skip 1
    return some .keep
  else if ← isNext (· = '-') then
    skip 1
    return some .strip
  else return none

/-- Take the digit that tells the indentation. -/
def takeIndentation : Scan (Option Nat) := do
  if ← isNext Char.isDigit then
    let digit ← next
    if digit = '0' then failure
    return some (digit.toNat - '0'.toNat)
  else return none

/-- Take the marks in the header of a block scalar, which come in either order. -/
def takeBlockMarks : Scan (Chomping × Option Nat) := do
  skip 1
  let before ← takeChomping
  let indentation ← takeIndentation
  let behind ← if before.isNone then takeChomping else pure none
  return ((before.or behind).getD .clip, indentation)

end Scan

/-- What has been read of a block scalar. -/
structure Block where
  text : List Char
  /-- The line break behind the last line. -/
  lineBreak : List Char
  /-- The breaks of the lines after it that hold nothing. -/
  emptyLines : List Char
  /-- Whether the last line begins with a blank. -/
  isIndented : Bool

/-- The text up to the next line, which begins with a blank or not. -/
def Block.continued (block : Block) (isFolded isIndented : Bool) : List Char :=
  let folds := isFolded && block.lineBreak = ['\n'] && !block.isIndented && !isIndented
  let lineBreak :=
    if folds then if block.emptyLines = [] then [' '] else [] else block.lineBreak
  block.text ++ lineBreak ++ block.emptyLines

/-- The text with what is left of the line breaks at its end. -/
def Block.finished (block : Block) : Chomping → List Char
  | .strip => block.text
  | .clip => block.text ++ block.lineBreak
  | .keep => block.text ++ block.lineBreak ++ block.emptyLines

namespace Scan

/-- Take the lines of a block scalar that hold nothing, and the indentation of the line
behind them.  Where the indentation is not known yet, the deepest of these lines tells it
and the line behind them is among them.  In revision 1.1 no tab may stand in it. -/
def takeEmptyLines (indentation : Option Nat) (least : Nat) : Scan (List Char × Nat) := do
  let revision := (← get).revision
  let step : StateT (List Char × Nat) Scan Bool := do
    let column := (← getThe Cursor).column
    let blanks := ((← rest).takeWhile (· = ' ')).length
    skip (match indentation with
      | some width => min blanks (width - column)
      | none => blanks)
    let column := (← getThe Cursor).column
    modify fun (breaks, deepest) => (breaks, max deepest column)
    let isTab ← isNext (· = '\t')
    if revision = .v11 && isTab && indentation.all (column < ·) then failure
    if ← isBreakNext then
      let lineBreak ← takeBreak
      modify fun (breaks, deepest) => (breaks ++ lineBreak, deepest)
      return true
    else return false
  let ((), breaks, deepest) ← (Text.repeatAtMost step ((← get).size + 1)).run ([], 0)
  return (breaks, indentation.getD (max deepest least))

/-- Take the lines of a block scalar behind the empty ones that it begins with.  They stand at
one column; without an indentation the end of the document ends them too. -/
def takeBlockLines (isFolded : Bool) (width : Nat) (emptyLines : List Char) : Scan Block := do
  let step : StateT Block Scan Bool := do
    if (← getThe Cursor).column ≠ width || (← rest).isEmpty then return false
    if width = 0 && (← isLineMark "...") then return false
    let block ← get
    let isIndented ← isNext isSpace
    let line ← takeLine
    let text := block.continued isFolded isIndented ++ line
    let lineBreak ← takeBreak
    let (emptyLines, _) ← takeEmptyLines (some width) width
    set (Block.mk text lineBreak emptyLines isIndented)
    return true
  let ((), block) ←
    (Text.repeatAtMost step ((← get).size + 1)).run ⟨[], [], emptyLines, false⟩
  return block

end Scan

end Throttle.Yaml
