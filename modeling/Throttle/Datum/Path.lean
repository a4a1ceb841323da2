import Throttle.Datum
import Throttle.Decimal.Word
import Throttle.Text.Reader

/-!
# Paths into data

The name of a setting may lead into nested tables and lists: names separated by points, and
positions between square brackets.  A position below zero is counted from the end.  A name
that is no such path stands for itself.
-/

namespace Throttle.Datum

/-- One step into a value. -/
inductive Step where
  | name (name : String)
  | position (index : Int)
deriving DecidableEq, Repr

/-- Whether a character may stand in a name on a path. -/
def isPathCharacter (character : Char) : Bool :=
  character.isAlphanum || character = ' ' || character = '_' || character = '-'

/-- Take a name on a path. -/
def takePathName : Text.Reader Step := do
  let name ← Text.Reader.takeWhile isPathCharacter
  if name = [] then failure
  return .name (lowerCase (String.ofList name))

/-- Take a position on a path. -/
def takePathPosition : Text.Reader Step := do
  let isBlank (character : Char) : Bool := character = ' ' || character = '\t'
  Text.Reader.expect "["
  let _ ← Text.Reader.takeWhile isBlank
  let mark := if ← Text.Reader.accept "-" then ['-'] else []
  let digits ← Text.Reader.takeWhile Char.isDigit
  let index ← StateT.lift (Decimal.readWord? (mark ++ digits))
  let _ ← Text.Reader.takeWhile isBlank
  Text.Reader.expect "]"
  return .position index

/-- Take a path. -/
def takePath : Text.Reader (List Step) := do
  let first ← takePathName
  let others ← Text.Reader.collect do
    if ← Text.Reader.isAtEnd then return none
    else if ← Text.Reader.accept "." then return some (← takePathName)
    else return some (← takePathPosition)
  return first :: others

/-- The path that a name is. -/
def pathOf (name : String) : List Step :=
  (Text.Reader.readAll? takePath name).getD [.name (lowerCase name)]

/-- Items with a place for a position, and that place.  Places that nothing is known about yet
hold null; there are such places before the first item if the position is. -/
def withPlace (items : List Datum) (index : Int) : List Datum × Nat :=
  let place := if index < 0 then (items.length : Int) + index else index
  if place < 0 then (List.replicate place.natAbs null ++ items, 0)
  else (items ++ List.replicate (place.toNat + 1 - items.length) null, place.toNat)

/-- A value laid over what a path leads to.  What stands in the way and is no table or no
list becomes one. -/
def layAt (value : Datum) : List Step → Datum → Datum
  | [], _ => value
  | [.name name], root => table (lay root.entries name value)
  | .name name :: rest, root =>
    let inner := layAt value rest ((get? root.entries name).getD null)
    table (put name inner root.entries)
  | .position index :: rest, root =>
    let (items, place) := withPlace root.items index
    list (items.set place (layAt value rest (items[place]?.getD null)))

/-- Entries laid over a table, each at the path that its name is. -/
def layPaths (root : Datum) (entries : Entries) : Datum :=
  entries.foldl (fun root (name, value) => layAt value (pathOf name) root) root

end Throttle.Datum
