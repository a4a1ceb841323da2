import Throttle.Decimal.Selection

/-!
# Data

The values that a configuration file of any format holds: nested tables and lists of
scalars.  Data from several sources are laid over one another: tables are joined name by
name, and anything else takes the place of what was there.  Names are the same when they
differ in nothing but the case of letters.
-/

namespace Throttle

/-- A value in a configuration. -/
inductive Datum where
  | null
  | boolean (value : Bool)
  | integer (value : Int)
  | number (value : Binary64)
  | text (value : String)
  | list (items : List Datum)
  | table (entries : List (String × Datum))
deriving Repr

namespace Datum

/-- The values of a table by name; at most one is meant for a name. -/
abbrev Entries := List (String × Datum)

/-- A letter in lower case: one of the alphabet, or the sign for kelvin, the only other
character whose lower case is in the alphabet. -/
def lowerLetter (character : Char) : Char :=
  if character = '\u212a' then 'k' else character.toLower

/-- A name in lower case, as far as the letters of the alphabet go. -/
def lowerCase (name : String) : String := String.ofList (name.toList.map lowerLetter)

/-- The entries with a value put at a name, in the place of the old value if there is one. -/
def put {β : Type} (name : String) (value : β) : List (String × β) → List (String × β)
  | [] => [(name, value)]
  | (held, old) :: rest =>
    if held = name then (name, value) :: rest else (held, old) :: put name value rest

/-- The entries of a table; nothing else has any. -/
def entries : Datum → Entries
  | table entries => entries
  | _ => []

/-- The items of a list; nothing else has any. -/
def items : Datum → List Datum
  | list items => items
  | _ => []

/-- The value of a name. -/
def get? (entries : Entries) (name : String) : Option Datum := entries.lookup name

mutual

/-- The entries with a value laid over what is at a name.  A table without entries changes
nothing that is there already. -/
def lay (entries : Entries) (name : String) : Datum → Entries
  | table inner =>
    let name := lowerCase name
    let held := (get? entries name).getD (table [])
    put name (if inner.isEmpty then held else table (layAll held.entries inner)) entries
  | value => put (lowerCase name) value entries

/-- The entries with all entries of a table laid over them. -/
def layAll (entries : Entries) : List (String × Datum) → Entries
  | [] => entries
  | (name, value) :: rest => layAll (lay entries name value) rest

end

end Datum

end Throttle
