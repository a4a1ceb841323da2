import Throttle.Datum.Json
import Throttle.Datum.Path
import Throttle.Datum.Toml
import Throttle.Settings
import Throttle.Yaml.Datum

/-!
# Settings in a file, overridden by the environment

The file is in one of three formats, told by its extension.  Variables of the environment
are laid over it: behind the mark that all of them begin with, `STORE__BACKEND` names the
setting `backend` in the section `store`, in upper or lower case.  Values are converted to
what a setting needs where that is possible: a number may come as a text, a truth value as a
number, and so on.
-/

namespace Throttle

/-- A format of configuration files. -/
inductive FileFormat where
  | yaml
  | toml
  | json
deriving DecidableEq, Repr

namespace FileFormat

/-- The format of an extension, its letters as they are. -/
def ofExtension? (extension : String) : Option FileFormat :=
  if extension = "yaml" ∨ extension = "yml" then some yaml
  else if extension = "toml" then some toml
  else if extension = "json" then some json
  else none

/-- The data in a text of a format. -/
def read? : FileFormat → String → Option Datum
  | yaml, text => Yaml.datum? text
  | toml, text => Toml.read? text
  | json, text => Json.read? text

end FileFormat

/-- A configuration file. -/
structure ConfigFile where
  extension : String
  content : String
deriving DecidableEq, Repr

/-- The entries of a file, which holds a table. -/
def ConfigFile.entries? (file : ConfigFile) : Option Datum.Entries := do
  let format ← FileFormat.ofExtension? file.extension
  match ← format.read? file.content with
  | .table entries => return entries
  | _ => none

/-! ## The environment -/

namespace Environment

/-- What the names of the variables begin with, in lower case. -/
def mark : String := "ratekeeper__"

/-- The value that the text of a variable writes: a truth value, a whole number, a number or
just the text. -/
def datumOf (text : String) : Datum :=
  let word := Datum.lowerCase text
  if word = "true" then .boolean true
  else if word = "false" then .boolean false
  else
    match Decimal.readWord? text.toList with
    | some number => .integer number
    | none =>
      match Decimal.Numeral.read? text with
      | some numeral => .number (Binary64.ofNumeral numeral)
      | none => .text text

/-- The setting of a variable, if it is one: behind the mark, two underscores stand for a
point. -/
def settingOf? (name text : String) : Option (String × Datum) :=
  let name := Datum.lowerCase name
  if mark.toList.isPrefixOf name.toList then
    let setting := String.ofList (name.toList.drop mark.length)
    some (setting.replace "__" ".", datumOf text)
  else none

/-- The settings in the environment. -/
def entries (environment : List (String × String)) : Datum.Entries :=
  environment.filterMap fun (name, text) => settingOf? name text

end Environment

/-! ## Conversions -/

namespace Datum

/-- The truth value that a word is, in any case. -/
def switch? (text : String) : Option Bool :=
  let word := lowerCase text
  if word = "true" ∨ word = "on" ∨ word = "yes" then some true
  else if word = "false" ∨ word = "off" ∨ word = "no" then some false
  else none

/-- The count nearest to a number, halfway away from zero: at least zero, at most the largest
count, and zero for no number at all. -/
def nearestCount : Binary64 → Nat
  | .infinite negative => if negative then 0 else Quantity.largestCount
  | other =>
    match other.value? with
    | some value => min (value + 1 / 2).floor.toNat Quantity.largestCount
    | none => 0

/-- The count that a value can be taken for. -/
def count? : Datum → Option Nat
  | integer value => if 0 ≤ value then some value.toNat else none
  | number value => some (nearestCount value)
  | boolean value => some value.toNat
  | text value =>
    match switch? value with
    | some isOn => some isOn.toNat
    | none => Decimal.readCount? value.toList
  | _ => none

/-- The number that a value can be taken for. -/
def number? : Datum → Option Binary64
  | integer value => some (.ofInt value)
  | number value => some value
  | boolean value => some (.ofInt value.toNat)
  | text value =>
    match switch? value with
    | some isOn => some (.ofInt isOn.toNat)
    | none => (Decimal.Numeral.read? value).map Binary64.ofNumeral
  | _ => none

/-- The text that a value can be taken for. -/
def text? : Datum → Option String
  | text value => some value
  | boolean value => some (if value then "true" else "false")
  | integer value => some (Decimal.wholeText value)
  | number value => some value.plainText
  | _ => none

/-- A value that may be missing: null stands for none. -/
def optional? {β : Type} (read : Datum → Option β) : Datum → Option (Option β)
  | null => some none
  | value => some <$> read value

/-- The choice that a value names in any case, as a text or as the only name of a table. -/
def choice? {β : Type} (names : List (String × β)) : Datum → Option β
  | text name => names.lookup (lowerCase name)
  | table [(name, _)] => names.lookup (lowerCase name)
  | _ => none

/-- The values of the names of a section: a table, or a list in the order of the names. -/
def sectionEntries? (names : List String) : Datum → Option Entries
  | table entries => some entries
  | list items => some (names.zip items)
  | _ => none

/-- The value of a name: the standard one if the name is not there. -/
def valueOf? {β : Type} (entries : Entries) (name : String) (read : Datum → Option β)
    (standard : β) : Option β :=
  match get? entries name with
  | some value => read value
  | none => some standard

end Datum

namespace Settings

/-- The settings of a store in a section. -/
def storeOfDatum? (datum : Datum) : Option StoreSettings := do
  let entries ← datum.sectionEntries? StoreSettings.names
  let standard : StoreSettings := {}
  let backend ← Datum.valueOf? entries "backend" (Datum.choice? BackendKind.names) standard.backend
  let sweepMillis ←
    Datum.valueOf? entries "sweep_interval_ms" Datum.count? standard.sweepMillis
  let address ← Datum.valueOf? entries "redis_url" Datum.text? standard.address
  let keyPrefix ← Datum.valueOf? entries "key_prefix" Datum.text? standard.keyPrefix
  let commandTimeoutMillis ← Datum.valueOf? entries "command_timeout_ms"
    (Datum.optional? Datum.count?) standard.commandTimeoutMillis
  return { backend, sweepMillis, address, keyPrefix, commandTimeoutMillis }

/-- The settings of a limiter in a section. -/
def limiterOfDatum? (datum : Datum) : Option (LimiterSettings Binary64) := do
  let entries ← datum.sectionEntries? LimiterSettings.names
  let standard : LimiterSettings Binary64 := .standard
  let algorithm ←
    Datum.valueOf? entries "algorithm" (Datum.choice? Algorithm.names) standard.algorithm
  let limit ← Datum.valueOf? entries "limit" Datum.count? standard.limit
  let windowMillis ← Datum.valueOf? entries "window_ms" Datum.count? standard.windowMillis
  let rate ← Datum.valueOf? entries "rate" Datum.number? standard.rate
  let burst ← Datum.valueOf? entries "burst" Datum.count? standard.burst
  return { algorithm, limit, windowMillis, rate, burst }

/-- The settings in a value. -/
def ofDatum? (datum : Datum) : Option (Settings Binary64) := do
  let entries := datum.entries
  let store ← Datum.valueOf? entries "store" storeOfDatum? {}
  let limiter ← Datum.valueOf? entries "limiter" limiterOfDatum? .standard
  return ⟨store, limiter⟩

/-- The settings in a file, if there is one, and in the environment over it, if they are fit
for use. -/
def load (file? : Option ConfigFile) (environment : List (String × String)) :
    Except (Failure Binary64) (Settings Binary64) :=
  let settings? := do
    let file ← file?
    let entries ← file.entries?
    let layered := (Datum.table []).layPaths entries
    ofDatum? (layered.layPaths (Environment.entries environment))
  match settings? with
  | some settings => settings.validated
  | none => .error (.config .unloadable)

end Settings

end Throttle
