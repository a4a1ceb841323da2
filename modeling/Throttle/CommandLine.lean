import Throttle.Backend
import Throttle.Settings.Layered

/-!
# The command line

The program has one command, `check`, which asks a limiter about calls for a key, one after
another, and prints each verdict.  Options of the program stand before the command and its
own options behind it.  The value of an option is the next argument or stands in the same
one; an argument that begins with a dash is no value, and behind two dashes no option.
-/

namespace Throttle

/-- A call of the command `check`. -/
structure CheckRequest where
  key : String
  /-- How many calls are made. -/
  count : Nat
  /-- The milliseconds between two calls. -/
  intervalMillis : Nat
deriving DecidableEq, Repr

/-- What the arguments ask for. -/
inductive Invocation where
  | version
  /-- The description of the program. -/
  | help
  /-- The description of the command. -/
  | checkHelp
  /-- The description of the command that describes. -/
  | helpHelp
  | check (configPath : Option String) (request : CheckRequest)
deriving DecidableEq, Repr

namespace Invocation

/-! ## Arguments -/

/-- An argument as it is written. -/
inductive Argument where
  /-- An option by its long name, perhaps with a value. -/
  | long (name : String) (value : Option String)
  /-- An option by its letter, with what follows it in the same argument. -/
  | short (letter : Char) (rest : List Char)
  /-- Two dashes alone. -/
  | separator
  | plain (text : String)
deriving DecidableEq, Repr

/-- How an argument is to be understood. -/
def Argument.ofText (text : String) : Argument :=
  match text.toList with
  | ['-', '-'] => separator
  | '-' :: '-' :: rest =>
    let name := rest.takeWhile (· ≠ '=')
    match rest.dropWhile (· ≠ '=') with
    | [] => long (String.ofList name) none
    | _ :: value => long (String.ofList name) (some (String.ofList value))
  | '-' :: letter :: rest => short letter rest
  | _ => plain text

/-- The value of an option and the arguments behind it: what stands in the same argument,
else the next argument. -/
def takeValue? (attached : Option String) (rest : List String) :
    Option (String × List String) :=
  match attached, rest with
  | some value, _ => some (value, rest)
  | none, next :: rest =>
    match Argument.ofText next with
    | .plain value => some (value, rest)
    | _ => none
  | none, [] => none

/-- The value that follows a letter in the same argument, an equals sign before it or not. -/
def attachedTo : List Char → Option String
  | [] => none
  | '=' :: value => some (String.ofList value)
  | value => some (String.ofList value)

/-- A value for something that may be given once. -/
def once? {β : Type} (held : Option β) (value : β) : Option (Option β) :=
  if held.isSome then none else some (some value)

/-! ## The command -/

/-- What has been read of a call of the command. -/
structure CheckDraft where
  key : Option String := none
  count : Option Nat := none
  intervalMillis : Option Nat := none

/-- The number of calls that a text writes, in a word of 32 bits. -/
def readCount? (text : String) : Option Nat := do
  let number ← Decimal.readWord? text.toList
  if 0 ≤ number ∧ number < twoTo 32 then some number.toNat else none

/-- The draft with an option, and the arguments behind it. -/
def CheckDraft.takeOption? (draft : CheckDraft) (name : String) (attached : Option String)
    (rest : List String) : Option (CheckDraft × List String) := do
  let (value, rest) ← takeValue? attached rest
  if name = "count" then
    let count ← once? draft.count (← readCount? value)
    return ({ draft with count }, rest)
  else if name = "interval-ms" then
    let intervalMillis ← once? draft.intervalMillis (← Decimal.readCount? value.toList)
    return ({ draft with intervalMillis }, rest)
  else none

/-- The draft with the key. -/
def CheckDraft.takeKey? (draft : CheckDraft) (key : String) : Option CheckDraft := do
  let key ← once? draft.key key
  return { draft with key }

/-- The call that a draft has become; the key has to be there. -/
def CheckDraft.finish? (draft : CheckDraft) (configPath : Option String) : Option Invocation := do
  let key ← draft.key
  return .check configPath ⟨key, draft.count.getD 1, draft.intervalMillis.getD 0⟩

/-- Read the arguments of the command, at most so many. -/
def readCheck? (configPath : Option String) : Nat → CheckDraft → List String → Option Invocation
  | _, draft, [] => draft.finish? configPath
  | 0, _, _ => none
  | bound + 1, draft, argument :: rest =>
    match Argument.ofText argument with
    | .long "help" none => some .checkHelp
    | .long name attached => do
      let (draft, rest) ← draft.takeOption? name attached rest
      readCheck? configPath bound draft rest
    | .short 'h' _ => some .checkHelp
    | .short 'n' attached => do
      let (draft, rest) ← draft.takeOption? "count" (attachedTo attached) rest
      readCheck? configPath bound draft rest
    | .short _ _ => none
    | .separator => do
      let draft ← rest.foldlM CheckDraft.takeKey? draft
      draft.finish? configPath
    | .plain key => do
      readCheck? configPath bound (← draft.takeKey? key) rest

/-! ## The program -/

/-- A path, which may not be empty. -/
def path? (text : String) : Option String :=
  if text = "" then none else some text

/-- What is asked for by the arguments of the command `help`. -/
def readHelp? : List String → Option Invocation
  | [] => some .help
  | ["check"] => some .checkHelp
  | ["help"] => some .helpHelp
  | _ => none

/-- Read the arguments of the program, at most so many. -/
def read? (configPath : Option String) (jsonLogs : Bool) : Nat → List String → Option Invocation
  | 0, _ => none
  | _, [] => none
  | bound + 1, argument :: rest =>
    let takeConfig (attached : Option String) : Option (Option String × List String) := do
      let (value, rest) ← takeValue? attached rest
      return (← once? configPath (← path? value), rest)
    match Argument.ofText argument with
    | .long "help" none => some .help
    | .long "version" none => some .version
    | .long "json-logs" none => if jsonLogs then none else read? configPath true bound rest
    | .long "config" attached => do
      let (configPath, rest) ← takeConfig attached
      read? configPath jsonLogs bound rest
    | .short 'h' _ => some .help
    | .short 'V' _ => some .version
    | .short 'c' attached => do
      let (configPath, rest) ← takeConfig (attachedTo attached)
      read? configPath jsonLogs bound rest
    | .plain "check" => readCheck? configPath bound {} rest
    | .plain "help" => readHelp? rest
    | _ => none

/-- What arguments ask for, if they can be understood. -/
def ofArguments? (arguments : List String) : Option Invocation :=
  read? none false (arguments.length + 1) arguments

end Invocation

/-! ## What the program does -/

/-- The end of a run of the program. -/
inductive Ended where
  /-- All was done. -/
  | done
  /-- Something went wrong. -/
  | failed (failure : Failure Binary64)
  /-- The arguments could not be understood. -/
  | misused

/-- The exit code of a run. -/
def Ended.exitCode : Ended → Nat
  | done => 0
  | failed _ => 1
  | misused => 2

/-- What a run of the program prints, and how it ends. -/
structure Run where
  lines : List String
  ended : Ended

namespace CheckRequest

/-- Make so many calls, some time apart, until one fails. -/
def callAll (limiter : Limiter Binary64) (timeline : Timeline) (request : CheckRequest) :
    Nat → Backend Binary64 → Instant → Run
  | 0, _, _ => ⟨[], .done⟩
  | count + 1, backend, now =>
    let moment : Moment := ⟨now, ⟨0⟩, none⟩
    let (answer, backend) := limiter.allow backend moment request.key
    match answer.outcome with
    | .error failure => ⟨[], .failed failure⟩
    | .ok verdict =>
      let next := now.after (.ofMillis request.intervalMillis)
      let backend := backend.advanceTo { timeline with now } next
      let rest := callAll limiter timeline request count backend next
      { rest with lines := verdict.json :: rest.lines }

/-- Make the calls that are asked for, with the limiter and the store that settings describe. -/
def run (request : CheckRequest) (settings : Settings Binary64) : Run :=
  let (handle, timeline) := Timeline.initial.create
  match Backend.ofSettings settings.store (Context.background.withCancel handle) with
  | .error failure => ⟨[], .failed failure⟩
  | .ok backend =>
    match settings.limiter.build with
    | .error failure => ⟨[], .failed failure⟩
    | .ok limiter => request.callAll limiter timeline request.count backend .start

end CheckRequest

/-- The name and the version of the program. -/
def versionLine : String := "ratekeeper 0.1.0"

/-- The description of the program. -/
def helpLines : List String := [
  "Keyed rate limiting engine with in-process and Redis-backed stores",
  "",
  "Usage: ratekeeper [OPTIONS] <COMMAND>",
  "",
  "Commands:",
  "  check  Run `allow` for a key and print each result as JSON",
  "  help   Print this message or the help of the given subcommand(s)",
  "",
  "Options:",
  "  -c, --config <CONFIG>  Configuration file (YAML, TOML or JSON)",
  "      --json-logs        Emit logs as JSON",
  "  -h, --help             Print help",
  "  -V, --version          Print version"]

/-- The description of the command. -/
def checkHelpLines : List String := [
  "Run `allow` for a key and print each result as JSON",
  "",
  "Usage: ratekeeper check [OPTIONS] <KEY>",
  "",
  "Arguments:",
  "  <KEY>  The rate limited key",
  "",
  "Options:",
  "  -n, --count <COUNT>              Number of calls to make [default: 1]",
  "      --interval-ms <INTERVAL_MS>  Pause between calls in milliseconds [default: 0]",
  "  -h, --help                       Print help"]

/-- The description of the command that describes. -/
def helpHelpLines : List String := [
  "Print this message or the help of the given subcommand(s)",
  "",
  "Usage: ratekeeper help [COMMAND]...",
  "",
  "Arguments:",
  "  [COMMAND]...  Print help for the subcommand(s)"]

/-- What the program does with its arguments.  A file is read by its path and may be missing;
the environment counts only where a file is given. -/
def runProgram (arguments : List String) (file? : String → Option ConfigFile)
    (environment : List (String × String)) : Run :=
  match Invocation.ofArguments? arguments with
  | none => ⟨[], .misused⟩
  | some .version => ⟨[versionLine], .done⟩
  | some .help => ⟨helpLines, .done⟩
  | some .checkHelp => ⟨checkHelpLines, .done⟩
  | some .helpHelp => ⟨helpHelpLines, .done⟩
  | some (.check none request) => request.run .standard
  | some (.check (some path) request) =>
    match Settings.load (file? path) environment with
    | .error failure => ⟨[], .failed failure⟩
    | .ok settings => request.run settings

end Throttle
