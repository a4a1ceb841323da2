import Throttle.Datum
import Throttle.Datum.DateTime
import Throttle.Decimal.Word
import Throttle.Text.Reader

/-!
# TOML

Data in a TOML text.  Tables are built up line by line: a header names the table that the
lines below it go into, and a key with points in it leads to a table inside of that one.  A
name is given a value once, a table is begun by a header once, and a table that came to be in
one way is not added to in another.
-/

namespace Throttle.Toml

open Text

/-! ## Blanks and comments -/

/-- Whether a character is a blank within a line. -/
def isSpace (character : Char) : Bool := character = ' ' || character = '\t'

/-- Whether a character may stand in a comment or between single quotes. -/
def isPlain (character : Char) : Bool :=
  character = '\t' || (' ' ≤ character && character ≠ '\x7f')

/-- Skip blanks within a line. -/
def skipSpaces : Reader Unit := do
  let _ ← Reader.takeWhile isSpace

/-- Take a line break if one is next. -/
def acceptBreak : Reader Bool := do
  if ← Reader.accept "\n" then return true else Reader.accept "\r\n"

/-- Skip blanks, and a comment if there is one. -/
def skipComment : Reader Unit := do
  skipSpaces
  if ← Reader.accept "#" then
    let _ ← Reader.takeWhile isPlain

/-- Skip blanks, comments and line breaks. -/
def skipLines : Reader Unit := do
  let _ ← Reader.collect do
    skipComment
    if ← acceptBreak then return some () else return none

/-- Skip what may follow on a line behind its content. -/
def endLine : Reader Unit := do
  skipComment
  if !(← Reader.isAtEnd) && !(← acceptBreak) then failure

/-! ## Strings -/

/-- The character that a letter stands for behind a backslash. -/
def shortEscape? : Char → Option Char
  | '"' => some '"'
  | '\\' => some '\\'
  | 'b' => some '\x08'
  | 'f' => some '\x0c'
  | 'n' => some '\n'
  | 'r' => some '\r'
  | 't' => some '\t'
  | _ => none

/-- Take the character of a number with so many digits. -/
def takeNumbered (count : Nat) : Reader Char := do
  let number ← StateT.lift (Decimal.Numeral.readHex? (← Reader.take count))
  if valid : number.isValidChar then return Char.ofNatAux number valid else failure

/-- Take an escape behind its backslash. -/
def takeEscape : Reader Char := do
  match ← Reader.next with
  | 'u' => takeNumbered 4
  | 'U' => takeNumbered 8
  | letter => StateT.lift (shortEscape? letter)

/-- Take the backslash of an escape if there can be one and it is next. -/
def acceptEscape (hasEscapes : Bool) : Reader Bool := do
  if hasEscapes then Reader.accept "\\" else return false

/-- Take a run of characters that stand for themselves. -/
def takeRun (quote : Char) (hasEscapes : Bool) : Reader (List Char) := do
  let run ← Reader.takeWhile fun character =>
    isPlain character && character ≠ quote && !(hasEscapes && character = '\\')
  if run = [] then failure
  return run

/-- Take a string on one line, behind its first quote. -/
def takeLineString (quote : Char) (hasEscapes : Bool) : Reader String := do
  let parts ← Reader.collect do
    if ← Reader.accept quote.toString then return none
    else if ← acceptEscape hasEscapes then return some [← takeEscape]
    else return some (← takeRun quote hasEscapes)
  return String.ofList parts.flatten

/-- Skip the rest of a line behind a backslash, and all blanks and line breaks behind it. -/
def skipEscapedBreak : Reader Unit := do
  skipSpaces
  if !(← acceptBreak) then failure
  let _ ← Reader.collect do
    skipSpaces
    if ← acceptBreak then return some () else return none

/-- Take a string that may run over several lines, behind its three quotes.  A line break
right behind these does not count, and up to two quotes may stand right before the last
three. -/
def takeBlockString (quote : Char) (hasEscapes : Bool) : Reader String := do
  let close := String.ofList [quote, quote, quote]
  let _ ← acceptBreak
  let parts ← Reader.collect do
    if ← Reader.accept close then return none
    else if ← Reader.accept quote.toString then return some [quote]
    else if ← acceptBreak then return some ['\n']
    else if ← acceptEscape hasEscapes then
      if ← Reader.isNext fun character => isSpace character || character = '\n' || character = '\r'
      then
        skipEscapedBreak
        return some []
      else return some [← takeEscape]
    else return some (← takeRun quote hasEscapes)
  let first ← Reader.accept quote.toString
  let second ← Reader.accept quote.toString
  let more := (if first then [quote] else []) ++ (if second then [quote] else [])
  return String.ofList (parts.flatten ++ more)

/-- Take a string of one kind, if one is next. -/
def takeQuoted (quote : Char) (hasEscapes : Bool) : Reader (Option String) := do
  if ← Reader.accept (String.ofList [quote, quote, quote]) then
    return some (← takeBlockString quote hasEscapes)
  else if ← Reader.accept quote.toString then
    return some (← takeLineString quote hasEscapes)
  else return none

/-! ## Keys -/

/-- Whether a character may stand in a key without quotes. -/
def isKeyCharacter (character : Char) : Bool :=
  character.isAlphanum || character = '_' || character = '-'

/-- Take one name of a key. -/
def takeName : Reader String := do
  if ← Reader.accept "\"" then takeLineString '"' true
  else if ← Reader.accept "'" then takeLineString '\'' false
  else
    let name ← Reader.takeWhile isKeyCharacter
    if name = [] then failure
    return String.ofList name

/-- The nesting that no value reaches, and the number of names that no key reaches. -/
def depthBound : Nat := 80

/-- Take a key: names with points in between, blanks around them aside. -/
def takeKey : Reader (List String) := do
  skipSpaces
  let first ← takeName
  skipSpaces
  let others ← Reader.collect do
    if ← Reader.accept "." then
      skipSpaces
      let name ← takeName
      skipSpaces
      return some name
    else return none
  let key := first :: others
  if depthBound ≤ key.length then failure
  return key

/-! ## Numbers and dates -/

/-- Digits without the underscores between them: each stands between two digits. -/
def joinDigits? (isDigit : Char → Bool) : List Char → Option (List Char)
  | [] => none
  | [digit] => if isDigit digit then some [digit] else none
  | digit :: '_' :: rest =>
    if isDigit digit then (joinDigits? isDigit rest).map (digit :: ·) else none
  | digit :: rest =>
    if isDigit digit then (joinDigits? isDigit rest).map (digit :: ·) else none

/-- The number that digits in a base write. -/
def readInBase? (base : Nat) (characters : List Char) : Option Nat := do
  Decimal.readInBase? base (← joinDigits? Decimal.Numeral.isHexDigit characters)

/-- The digits of a whole number in decimal: no zero stands before others. -/
def wholeDigits? (characters : List Char) : Option (List Char) := do
  let digits ← joinDigits? Char.isDigit characters
  if digits.head? = some '0' ∧ digits.length ≠ 1 then none else some digits

/-- The whole number that characters write. -/
def integer? (characters : List Char) : Option Int := do
  match characters with
  | '0' :: 'x' :: digits => Decimal.fittingWord? (← readInBase? 16 digits)
  | '0' :: 'o' :: digits => Decimal.fittingWord? (← readInBase? 8 digits)
  | '0' :: 'b' :: digits => Decimal.fittingWord? (← readInBase? 2 digits)
  | _ =>
    let (isNegative, unsigned) := Decimal.Numeral.splitSign characters
    let size ← Decimal.readNatural? (← wholeDigits? unsigned)
    Decimal.fittingWord? (if isNegative then -(size : Int) else size)

/-- The digits behind a point, and what follows them. -/
def splitFraction? : List Char → Option (List Char × List Char)
  | '.' :: rest => do
    let isPart (character : Char) : Bool := character.isDigit || character = '_'
    let digits ← joinDigits? Char.isDigit (rest.takeWhile isPart)
    return ('.' :: digits, rest.dropWhile isPart)
  | characters => some ([], characters)

/-- The exponent behind its mark, its underscores left out. -/
def exponent? : List Char → Option (List Char)
  | [] => some []
  | mark :: rest =>
    if mark = 'e' ∨ mark = 'E' then do
      let (isNegative, unsigned) := Decimal.Numeral.splitSign rest
      let digits ← joinDigits? Char.isDigit unsigned
      return 'e' :: (if isNegative then '-' :: digits else digits)
    else none

/-- The number with a fraction or an exponent that characters write, if it is not too
large. -/
def decimal? (characters : List Char) : Option Datum := do
  let (isNegative, unsigned) := Decimal.Numeral.splitSign characters
  let isPart (character : Char) : Bool := character.isDigit || character = '_'
  let whole ← wholeDigits? (unsigned.takeWhile isPart)
  let (fraction, rest) ← splitFraction? (unsigned.dropWhile isPart)
  let exponent ← exponent? rest
  if fraction = [] ∧ exponent = [] then none
  else
    let numeral ← Decimal.Numeral.read? (String.ofList (whole ++ fraction ++ exponent))
    match Binary64.ofNumeral numeral with
    | .infinite _ => if isNegative then some (.number (.infinite true)) else none
    | number => some (.number (if isNegative then number.neg else number))

/-- The number that one of the two words stands for, a sign before it if any. -/
def special? (characters : List Char) : Option Datum :=
  let (isNegative, word) := Decimal.Numeral.splitSign characters
  if word = ['i', 'n', 'f'] then some (.number (.infinite isNegative))
  else if word = ['n', 'a', 'n'] then some (.number (.nan isNegative))
  else none

/-- The value that characters without quotes and brackets write. -/
def bare? (characters : List Char) : Option Datum :=
  if characters = "true".toList then some (.boolean true)
  else if characters = "false".toList then some (.boolean false)
  else
    (((DateTime.read? characters).map Datum.text).or (decimal? characters)).or
      (((integer? characters).map Datum.integer).or (special? characters))

/-- Whether a character may stand in a value without quotes and brackets. -/
def isBareCharacter (character : Char) : Bool :=
  isKeyCharacter character || character = '+' || character = '.' || character = ':'

/-- Whether characters begin with a time of day. -/
def beginsTime (characters : List Char) : Bool :=
  (characters.take 2).all Char.isDigit && characters[2]? = some ':'

/-- Take a value without quotes and brackets; a blank may stand between a date and a time. -/
def takeBare : Reader Datum := do
  let characters ← Reader.takeWhile isBareCharacter
  let rest ← get
  if characters.length = 10 && rest.head? = some ' ' && beginsTime (rest.drop 1) &&
      (DateTime.date? characters).isSome then
    let _ ← Reader.next
    let time ← Reader.takeWhile isBareCharacter
    StateT.lift (bare? (characters ++ ' ' :: time))
  else StateT.lift (bare? characters)

/-! ## Tables that are being built -/

/-- How a table came to be. -/
inductive Origin where
  /-- By its own header. -/
  | header
  /-- On the way to a table with a header. -/
  | implied
  /-- By a key with points in it. -/
  | dotted
deriving DecidableEq, Repr

/-- What a name stands for while tables are being built. -/
inductive Item where
  | value (datum : Datum)
  | table (origin : Origin) (entries : List (String × Item))
  /-- Tables with the same header, the first one first. -/
  | tables (members : List (List (String × Item)))

/-- What the names of a table stand for. -/
abbrev Items := List (String × Item)

/-- Change the table that a path leads to, which is told how it came to be.  Tables that are
missing on the way are made.  By a key with points no table with a header is entered; of
tables with one header the last is meant. -/
def update (change : Origin → Items → Option Items) (way : Origin) :
    Origin → List String → Items → Option Items
  | origin, [], items => change origin items
  | _, name :: path, items =>
    match items.lookup name with
    | none => do
      let inner ← update change way way path []
      return Datum.put name (.table way inner) items
    | some (.value _) => none
    | some (.tables members) => do
      let inner ← update change way .header path (members.getLast?.getD [])
      return Datum.put name (.tables (members.dropLast ++ [inner])) items
    | some (.table origin inner) =>
      if way = .dotted ∧ origin = .header then none
      else do
        let inner ← update change way origin path inner
        return Datum.put name (.table origin inner) items

/-- Give a name its value. -/
def assign (name : String) (value : Datum) (items : Items) : Option Items :=
  if (items.lookup name).isSome then none else some (items ++ [(name, .value value)])

/-- Give a key its value; a key with points adds to no table that came to be otherwise. -/
def assignKey (key : List String) (value : Datum) (items : Items) : Option Items := do
  let name ← key.getLast?
  let path := key.dropLast
  update (fun origin items =>
    if path = [] ∨ origin = .dotted then assign name value items else none)
    .dotted .header path items

/-- Begin the table of a header, or enter it if it was only implied so far. -/
def beginTable (name : String) (items : Items) : Option Items :=
  match items.lookup name with
  | none => some (items ++ [(name, .table .header [])])
  | some (.table .implied inner) => some (Datum.put name (.table .header inner) items)
  | some _ => none

/-- Begin one more of the tables of a header. -/
def beginMember (name : String) (items : Items) : Option Items :=
  match items.lookup name with
  | none => some (items ++ [(name, .tables [[]])])
  | some (.tables members) => some (Datum.put name (.tables (members ++ [[]])) items)
  | some _ => none

mutual

/-- The value that an item has become. -/
def Item.datum : Item → Datum
  | .value datum => datum
  | .table _ entries => .table (Items.data entries)
  | .tables members => .list (Items.members members)

/-- The values of the names of a table. -/
def Items.data : List (String × Item) → List (String × Datum)
  | [] => []
  | (name, item) :: rest => (name, item.datum) :: Items.data rest

/-- The tables with one header. -/
def Items.members : List (List (String × Item)) → List Datum
  | [] => []
  | entries :: rest => .table (Items.data entries) :: Items.members rest

end

/-! ## Values -/

/-- Take the items of an array behind its bracket; a comma may stand behind the last. -/
def takeArray (value : Reader Datum) : Reader (List Datum) := do
  let step : StateT Bool Reader (Option Datum) := do
    skipLines
    if ← Reader.accept "]" then return none
    if ← get then failure
    let datum ← value
    skipLines
    set (!(← Reader.accept ","))
    return some datum
  let (items, _) ← (collectAtMost step ((← get).length + 1)).run false
  return items

/-- Take the entries of a table between brackets, behind the first bracket. -/
def takeInline (value : Reader Datum) : Reader Items := do
  skipSpaces
  if ← Reader.accept "\x7d" then return []
  let step : StateT (Bool × Items) Reader (Option Unit) := do
    if (← get).1 then return none
    let key ← takeKey
    Reader.expect "="
    skipSpaces
    let datum ← value
    skipSpaces
    let items ← StateT.lift (m := Reader) (StateT.lift (assignKey key datum (← get).2))
    if ← Reader.accept "," then set (false, items)
    else
      Reader.expect "\x7d"
      set (true, items)
    return some ()
  let (_, _, items) ← (collectAtMost step ((← get).length + 1)).run (false, [])
  return items

/-- Take a value in which arrays and tables are nested less deep than a bound, itself
included. -/
def takeValue : Nat → Reader Datum
  | 0 => failure
  | depth + 1 => do
    if let some text ← takeQuoted '"' true then return .text text
    else if let some text ← takeQuoted '\'' false then return .text text
    else if ← Reader.accept "[" then
      if depth = 0 then failure
      return .list (← takeArray (takeValue depth))
    else if ← Reader.accept "\x7b" then
      if depth = 0 then failure
      return .table (Items.data (← takeInline (takeValue depth)))
    else takeBare

/-! ## Lines -/

/-- What has been read: the tables, and the header of the present one. -/
structure Draft where
  items : Items
  header : List String

/-- The draft behind a header for one table, or for one of several. -/
def Draft.enter (draft : Draft) (isMember : Bool) (header : List String) : Option Draft := do
  let name ← header.getLast?
  let change := if isMember then beginMember name else beginTable name
  let items ← update (fun _ => change) .implied .header header.dropLast draft.items
  return ⟨items, header⟩

/-- The draft with a value for a key of the present table. -/
def Draft.assign (draft : Draft) (key : List String) (value : Datum) : Option Draft := do
  let items ← update (fun _ => assignKey key value) .implied .header draft.header draft.items
  return { draft with items }

/-- Take a line with content, and what stands before it; nothing at the end of the text. -/
def takeLine (draft : Draft) : Reader (Option Draft) := do
  skipLines
  if ← Reader.isAtEnd then return none
  else if ← Reader.accept "[[" then
    let header ← takeKey
    Reader.expect "]]"
    endLine
    return some (← StateT.lift (draft.enter true header))
  else if ← Reader.accept "[" then
    let header ← takeKey
    Reader.expect "]"
    endLine
    return some (← StateT.lift (draft.enter false header))
  else
    let key ← takeKey
    Reader.expect "="
    skipSpaces
    let value ← takeValue depthBound
    endLine
    return some (← StateT.lift (draft.assign key value))

/-- Take all lines, at most so many. -/
def takeLines : Nat → Draft → Reader Draft
  | 0, draft => return draft
  | bound + 1, draft => do
    match ← takeLine draft with
    | some draft => takeLines bound draft
    | none => return draft

/-- Take a whole text, a mark of byte order before it aside. -/
def takeText : Reader Draft := do
  let _ ← Reader.accept "\ufeff"
  takeLines ((← get).length + 1) ⟨[], []⟩

/-- The data in a text. -/
def read? (text : String) : Option Datum := do
  let draft ← Reader.readAll? takeText text
  return .table (Items.data draft.items)

end Throttle.Toml
