import Throttle.Datum
import Throttle.Yaml.Value

/-!
# Data in a document of revision 1.2

Every value is a datum, and what has no value is null.  The names in a table are texts or
whole numbers, of two entries with one name the later counts, and the words with a point for
infinity and for no number are refused.
-/

namespace Throttle.Yaml

open Decimal

/-- The name that a value is in a table. -/
def Value.name? : Value → Option String
  | .text name => some name
  | .integer number => some (wholeText number)
  | _ => none

mutual

/-- The datum that a value is. -/
def Value.datum? : Value → Option Datum
  | .nothing => some .null
  | .null => some .null
  | .boolean value => some (.boolean value)
  | .integer value => some (.integer value)
  | .numeral written =>
    (Numeral.read? written).map fun numeral => .number (Binary64.ofNumeral numeral)
  | .text value => some (.text value)
  | .list items => .list <$> Value.data? items
  | .table entries => .table <$> Value.entries? entries []

/-- The data that values are. -/
def Value.data? : List Value → Option (List Datum)
  | [] => some []
  | value :: rest => do
    let datum ← value.datum?
    return datum :: (← Value.data? rest)

/-- The entries with those of a table put among them one by one. -/
def Value.entries? : List (Value × Value) → Datum.Entries → Option Datum.Entries
  | [], entries => some entries
  | (key, value) :: rest, entries => do
    let name ← key.name?
    let datum ← value.datum?
    Value.entries? rest (Datum.put name datum entries)

end

/-- The data in a text, which holds one document. -/
def datum? (text : String) : Option Datum := do
  let document ← Document.read? .v12 text
  let value ← document.value?
  value.datum?

end Throttle.Yaml
