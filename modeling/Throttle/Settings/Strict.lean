import Throttle.Decimal.Word
import Throttle.Settings
import Throttle.Yaml.Node

/-!
# Settings in one YAML text

The text holds a mapping with the sections `store` and `limiter`, each of them a mapping
from names to values; what is left out, or left empty as a whole, has its standard values.
Unknown names are ignored, and a known one may be there once.  Values are taken as they are
written: a number is never made out of a quoted text, nor a text refused because it looks
like a number.
-/

namespace Throttle.Settings

open Yaml

/-! ## Single values -/

/-- The tag of the values of a kind that YAML knows. -/
def kindTag (kind : String) : String := "tag:yaml.org,2002:" ++ kind

/-- The text of a scalar, however it is written. -/
def scalarText? : Node → Option String
  | .scalar _ _ text => some text
  | _ => none

/-- Whether a tag is the one of a kind. -/
def isOfKind (kind : String) (tag : Option Tag) : Bool :=
  tag.any fun tag => tag.text = kindTag kind

/-- The text of a scalar that may be a number: a plain one, or a literal one with the tag of
the kind. -/
def bareText? (kind : String) : Node → Option String
  | .scalar .plain _ text => some text
  | .scalar .literal tag text => if isOfKind kind tag then some text else none
  | _ => none

/-- Whether a text stands for no value. -/
def isNull (text : String) : Bool :=
  text = "null" || text = "Null" || text = "NULL" || text = "~"

/-- The number that an integer writes: decimal without leading zeros, or in another base
behind its mark.  A plus sign may stand before it. -/
def readUnsigned? (text : String) : Option Nat :=
  let unsigned := match text.toList with
    | '+' :: rest => rest
    | characters => characters
  match unsigned with
  | '0' :: 'x' :: digits => Decimal.readInBase? 16 digits
  | '0' :: 'o' :: digits => Decimal.readInBase? 8 digits
  | '0' :: 'b' :: digits => Decimal.readInBase? 2 digits
  | '0' :: _ :: _ => none
  | digits => Decimal.readNatural? digits

/-- A number that fits a word of 64 bits. -/
def fitting? (number : Nat) : Option Nat :=
  if number ≤ Quantity.largestCount then some number else none

/-- The count that a node writes. -/
def count? (node : Node) : Option Nat := do
  fitting? (← readUnsigned? (← bareText? "int" node))

/-- The words for the number beyond all others, behind its sign. -/
def isInfinityWord (text : String) : Bool :=
  text = ".inf" || text = ".Inf" || text = ".INF"

/-- The number that a text writes; what is too large to be one is refused, and infinity has
words of its own. -/
def readNumber? (text : String) : Option Binary64 :=
  let characters := text.toList
  let unsigned := match characters with
    | '+' :: rest => rest
    | _ => characters
  let word := String.ofList (characters.drop 1)
  if isInfinityWord (String.ofList unsigned) then some (.infinite false)
  else if characters.head? = some '-' && isInfinityWord word then some (.infinite true)
  else if text = ".nan" || text = ".NaN" || text = ".NAN" then some (.nan false)
  else if characters.head? = some '+' && (word.startsWith "+" || word.startsWith "-") then none
  else
    match (Decimal.Numeral.read? (String.ofList unsigned)).map Binary64.ofNumeral with
    | some (.finite negative magnitude) => some (.finite negative magnitude)
    | _ => none

/-- The number that a node writes. -/
def number? (node : Node) : Option Binary64 := do
  readNumber? (← bareText? "float" node)

/-- Whether a tag says nothing: there is none, or it is the mark of a tag alone. -/
def isUntagged (tag : Option Tag) : Bool := tag.all fun tag => tag.text = "!"

/-- The count that a node writes, if it does not stand for no value. -/
def optionalCount? (node : Node) : Option (Option Nat) :=
  match node with
  | .scalar .plain tag text =>
    if isOfKind "null" tag then if isNull text then some none else none
    else if isUntagged tag && (text = "" || isNull text) then some none
    else some <$> count? node
  | _ => some <$> count? node

/-- The choice that a node names, by its text or by a tag of its own on an empty scalar. -/
def choice? {β : Type} (names : List (String × β)) : Node → Option β
  | .scalar style tag text =>
    match tag.map fun tag => tag.text.toList with
    | some ('!' :: first :: others) =>
      let name := first :: others
      if style = .plain && (text = "" || isNull text) then
        names.lookup (String.ofList name)
      else none
    | _ => names.lookup text
  | _ => none

/-! ## Sections -/

/-- The entries of a section by name: every name is a scalar, and the known ones are
distinct.  A section that is left empty has none. -/
def entries? (document : Document) (known : List String) (node : Node) :
    Option (List (String × Node)) := do
  match ← document.follow node with
  | .mapping _ entries =>
    let named ← entries.mapM fun (key, value) => do
      return (← scalarText? (← document.follow key), value)
    if ((named.map Prod.fst).filter known.contains).Nodup then return named else none
  | .scalar .plain _ "" => return []
  | _ => none

/-- The value of a name: the standard one if the name is not there. -/
def valueOf? {β : Type} (document : Document) (entries : List (String × Node)) (name : String)
    (read : Node → Option β) (standard : β) : Option β :=
  match entries.lookup name with
  | some node => document.follow node >>= read
  | none => some standard

/-- The settings of a store in a section. -/
def readStore? (document : Document) (node : Node) : Option StoreSettings := do
  let entries ← entries? document StoreSettings.names node
  let standard : StoreSettings := {}
  let backend ← valueOf? document entries "backend" (choice? BackendKind.names) standard.backend
  let sweepMillis ← valueOf? document entries "sweep_interval_ms" count? standard.sweepMillis
  let address ← valueOf? document entries "redis_url" scalarText? standard.address
  let keyPrefix ← valueOf? document entries "key_prefix" scalarText? standard.keyPrefix
  let commandTimeoutMillis ←
    valueOf? document entries "command_timeout_ms" optionalCount? standard.commandTimeoutMillis
  return { backend, sweepMillis, address, keyPrefix, commandTimeoutMillis }

/-- The settings of a limiter in a section. -/
def readLimiter? (document : Document) (node : Node) : Option (LimiterSettings Binary64) := do
  let entries ← entries? document LimiterSettings.names node
  let standard : LimiterSettings Binary64 := .standard
  let algorithm ←
    valueOf? document entries "algorithm" (choice? Algorithm.names) standard.algorithm
  let limit ← valueOf? document entries "limit" count? standard.limit
  let windowMillis ← valueOf? document entries "window_ms" count? standard.windowMillis
  let rate ← valueOf? document entries "rate" number? standard.rate
  let burst ← valueOf? document entries "burst" count? standard.burst
  return { algorithm, limit, windowMillis, rate, burst }

/-- The settings in a document. -/
def ofDocument? (document : Document) : Option (Settings Binary64) := do
  let sections ← entries? document ["store", "limiter"] (document.root.getD (.empty none))
  let store ← readStore? document ((sections.lookup "store").getD (.empty none))
  let limiter ← readLimiter? document ((sections.lookup "limiter").getD (.empty none))
  return ⟨store, limiter⟩

/-- The settings in a YAML text, if they are fit for use. -/
def ofYaml (text : String) : Except (Failure Binary64) (Settings Binary64) :=
  if text.toList.all isPermitted then
    match Document.read? .v11 text >>= ofDocument? with
    | some settings => settings.validated
    | none => .error (.config .unreadable)
  else .error (.config .unreadable)

end Throttle.Settings
