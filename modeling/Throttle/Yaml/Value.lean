import Throttle.Decimal.Word
import Throttle.Yaml.Node

/-!
# Values in a document of revision 1.2

A plain scalar is the null value, a truth value or a number if it looks like one, and text
otherwise; a quoted one is text.  The tag of a kind decides the kind, and any other tag makes
a plain scalar text.  An alias is the value of the node with the anchor.  A scalar that is
not of the kind of its tag has no value, and neither has an alias inside of its own anchor.

The nodes in a mapping are keys and values in turn.  A node without a value is no key, so
the node behind it is taken for one, and a key that is left without a value is dropped.
-/

namespace Throttle.Yaml

open Decimal

/-- What a node stands for. -/
inductive Value where
  /-- No value at all. -/
  | nothing
  | null
  | boolean (value : Bool)
  | integer (value : Int)
  /-- A number that is not written as a whole one, as it is written. -/
  | numeral (text : String)
  | text (value : String)
  | list (items : List Value)
  | table (entries : List (Value × Value))
deriving Repr, BEq

namespace Value

/-! ## Scalars -/

/-- The number in another base, or with a plus sign, that a text writes. -/
def markedInteger? (characters : List Char) : Option Int :=
  match characters with
  | '0' :: 'x' :: digits => readWordInBase? 16 digits
  | '0' :: 'o' :: digits => readWordInBase? 8 digits
  | '+' :: digits => readWord? digits
  | _ => none

/-- Whether a text is a word with a point for infinity or for no number. -/
def isPointWord (text : String) : Bool :=
  [".inf", ".Inf", ".INF", "+.inf", "+.Inf", "+.INF", "-.inf", "-.Inf", "-.INF", ".nan",
    ".NAN"].contains text

/-- Whether a text writes a number. -/
def isNumeral (text : String) : Bool :=
  isPointWord text || (Numeral.read? text).isSome

/-- What a plain scalar without a tag stands for. -/
def ofPlain (text : String) : Value :=
  match markedInteger? text.toList with
  | some number => integer number
  | none =>
    if text = "~" || text = "null" then null
    else if text = "true" then boolean true
    else if text = "false" then boolean false
    else
      match readWord? text.toList with
      | some number => integer number
      | none => if isNumeral text then numeral text else .text text

/-- What a plain scalar of a kind stands for. -/
def ofKind (kind text : String) : Value :=
  if kind = "bool" then
    if text = "true" then boolean true else if text = "false" then boolean false else nothing
  else if kind = "int" then ((readWord? text.toList).map integer).getD nothing
  else if kind = "float" then if isNumeral text then numeral text else nothing
  else if kind = "null" then if text = "~" || text = "null" then null else nothing
  else .text text

/-- The beginning of the tags of the kinds. -/
def kindMark : String := "tag:yaml.org,2002:"

/-- What a scalar stands for. -/
def ofScalar (style : Style) (tag : Option Tag) (text : String) : Value :=
  match style, tag with
  | .plain, none => ofPlain text
  | .plain, some tag => if tag.beginning = kindMark then ofKind tag.suffix text else .text text
  | _, _ => .text text

/-! ## Mappings -/

/-- Keys and their values, taken in turn. -/
def pairs : List Value → List (Value × Value)
  | nothing :: rest => pairs rest
  | key :: value :: rest => (key, value) :: pairs rest
  | _ => []

/-- Entries in a table; no two keys are equal. -/
def ofEntries? (entries : List (Value × Value)) : Option Value :=
  let keys := entries.map Prod.fst
  if keys.eraseDups.length = keys.length then some (table entries) else none

end Value

/-! ## Nodes -/

mutual

/-- What a node stands for, given what the anchors stand for. -/
def Node.value? (anchored : List (Nat × Value)) : Node → Option Value
  | .scalar style tag text => some (.ofScalar style tag text)
  | .sequence _ items => .list <$> Node.values? anchored items
  | .mapping _ entries => do
    Value.ofEntries? (Value.pairs (← Node.entryValues? anchored entries))
  | .alias anchor isPart => if isPart then some .nothing else anchored.lookup anchor

/-- What the items of a sequence stand for. -/
def Node.values? (anchored : List (Nat × Value)) : List Node → Option (List Value)
  | [] => some []
  | node :: rest => do
    let value ← node.value? anchored
    return value :: (← Node.values? anchored rest)

/-- What the keys and values of a mapping stand for, in turn. -/
def Node.entryValues? (anchored : List (Nat × Value)) :
    List (Node × Node) → Option (List Value)
  | [] => some []
  | (key, value) :: rest => do
    let key ← key.value? anchored
    let value ← value.value? anchored
    return key :: value :: (← Node.entryValues? anchored rest)

end

/-- What a document stands for; one without anything is an empty table. -/
def Document.value? (document : Document) : Option Value := do
  let anchored ← document.anchored.foldlM (fun known anchored => do
    return (anchored.number, ← anchored.node.value? known) :: known) []
  match document.root with
  | some root => root.value? anchored
  | none => return .table []

end Throttle.Yaml
