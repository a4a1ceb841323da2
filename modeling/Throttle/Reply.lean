import Throttle.Failure
import Throttle.Text.Quoted

/-!
# Replies of a server

The values a server replies with, the errors it signals, and how both are described when a
reply is not what a call needs.
-/

namespace Throttle

/-- What kind of error a server or its client reports. -/
inductive ErrorKind where
  /-- The server could not do what it was asked. -/
  | response
  /-- An error with a code of its own. -/
  | extension
  /-- A value of another type was needed. -/
  | type
  /-- The reply could not be read. -/
  | parse
  /-- Any other kind, by its name: none of them is an answer to the call. -/
  | other (name : String)
deriving DecidableEq, Repr

namespace ErrorKind

/-- The name of a kind. -/
def name : ErrorKind → String
  | response => "ResponseError"
  | extension => "ExtensionError"
  | type => "TypeError"
  | parse => "ParseError"
  | other name => name

/-- The kind of a name. -/
def ofName (name : String) : ErrorKind :=
  if name = "ResponseError" then response
  else if name = "ExtensionError" then extension
  else if name = "TypeError" then type
  else if name = "ParseError" then parse
  else other name

/-- Whether the server answered, though not with what the call needs. -/
def isAnswer : ErrorKind → Bool
  | other _ => false
  | _ => true

/-- What a caller of the store is told. -/
def failure (kind : ErrorKind) (text : String) : StoreFailure :=
  if kind.isAnswer then .invalidReply (some text) else .unavailable (some text)

/-- An error in words: what happened, the kind, and the detail if there is one. -/
def describe (kind : ErrorKind) (what : String) (detail : Option String) : String :=
  match detail with
  | some detail => what ++ " - " ++ kind.name ++ ": " ++ detail
  | none => what ++ "- " ++ kind.name

/-- A kind is found by its name. -/
theorem name_ofName (name : String) : (ofName name).name = name := by
  unfold ofName
  repeat' split
  all_goals simp_all [ErrorKind.name]

end ErrorKind

/-- An error that a server signals: a code, and the rest of the line if there is one. -/
structure ServerError where
  code : String
  detail : Option String
deriving DecidableEq, Repr

namespace ServerError

/-- The error that a line signals; the code ends at the first space. -/
def ofLine (line : String) : ServerError :=
  let code := String.ofList (line.toList.takeWhile (· ≠ ' '))
  match line.toList.dropWhile (· ≠ ' ') with
  | [] => ⟨code, none⟩
  | _ :: detail => ⟨code, some (String.ofList detail)⟩

/-- The codes with a kind of their own. -/
def knownCodes : List (String × String) :=
  [("ERR", "ResponseError"), ("EXECABORT", "ExecAbortError"), ("LOADING", "BusyLoadingError"),
   ("NOSCRIPT", "NoScriptError"), ("MOVED", "Moved"), ("ASK", "Ask"), ("TRYAGAIN", "TryAgain"),
   ("CLUSTERDOWN", "ClusterDown"), ("CROSSSLOT", "CrossSlot"), ("MASTERDOWN", "MasterDown"),
   ("READONLY", "ReadOnly"), ("NOTBUSY", "NotBusy"), ("NOSUB", "NoSub")]

/-- The kind of an error; a code that is not known makes an extension error. -/
def kind (error : ServerError) : ErrorKind :=
  match knownCodes.lookup error.code with
  | some name => .ofName name
  | none => .extension

/-- Whether the server does not know the script it was to run. -/
def isMissingScript (error : ServerError) : Bool :=
  error.code == "NOSCRIPT"

/-- The error in words. -/
def message (error : ServerError) : String :=
  match error.kind with
  | .extension =>
    error.code ++ ": " ++ error.detail.getD "Unknown extension error encountered"
  | kind => kind.describe "An error was signalled by the server" error.detail

/-- What a caller of the store is told. -/
def failure (error : ServerError) : StoreFailure :=
  error.kind.failure error.message

end ServerError

/-- A value that a server replies with. -/
inductive Reply where
  | nil
  | integer (number : Int)
  | bulk (bytes : ByteArray)
  | array (items : List Reply)
  | okay
  | simple (text : String)
  | double (number : Binary64)
  | boolean (truth : Bool)
  | error (signalled : ServerError)
  /-- A value of any other kind, such as a map or a set: its words, and the values in it. -/
  | other (words : String) (parts : List Reply)

namespace Reply

/-- A line of text; the word that says all is well is a value of its own. -/
def ofLine (text : String) : Reply :=
  if text = "OK" then okay else simple text

/-- A text as a run of bytes. -/
def ofText (text : String) : Reply :=
  bulk text.toUTF8

/-- Texts one after another with a comma between them. -/
def commaSeparated (texts : List String) : String :=
  String.intercalate ", " texts

mutual

/-- A value in words. -/
def describe : Reply → String
  | nil => "nil"
  | integer number => "int(" ++ Decimal.wholeText number ++ ")"
  | bulk bytes =>
    match String.fromUTF8? bytes with
    | some text => "bulk-string('" ++ Text.quote text ++ "')"
    | none =>
      "binary-data([" ++ commaSeparated (bytes.toList.map fun byte => toString byte.toNat) ++ "])"
  | array items => "array([" ++ commaSeparated (describeAll items) ++ "])"
  | okay => "ok"
  | simple text => "simple-string(" ++ Text.quote text ++ ")"
  | double number => "double(" ++ number.detailedText ++ ")"
  | boolean truth => "boolean(" ++ (if truth then "true" else "false") ++ ")"
  | error signalled => "error(" ++ Text.quote signalled.message ++ ")"
  | other words _ => words

/-- Values in words. -/
def describeAll : List Reply → List String
  | [] => []
  | item :: rest => describe item :: describeAll rest

end

mutual

/-- The first error in a value, however deep. -/
def firstError? : Reply → Option ServerError
  | error signalled => some signalled
  | array items => firstErrorOf? items
  | other _ parts => firstErrorOf? parts
  | _ => none

/-- The first error in a list of values. -/
def firstErrorOf? : List Reply → Option ServerError
  | [] => none
  | item :: rest => (firstError? item).or (firstErrorOf? rest)

end

end Reply

end Throttle
