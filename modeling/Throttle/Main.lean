import Throttle.CommandLine

/-!
# The program

Reads the file and the environment that the arguments call for, prints what the command line
makes of them, and ends with its exit code.
-/

namespace Throttle

/-- What stands behind the last point of a path's last name, if a name stands before it. -/
def extensionOf (path : String) : String :=
  let name := (path.toList.reverse.takeWhile (· ≠ '/')).reverse
  let behind := (name.reverse.takeWhile (· ≠ '.')).reverse
  if behind.length + 1 < name.length then String.ofList behind else ""

/-- The configuration file at a path, if it can be read. -/
def readConfigFile (path : String) : IO (Option ConfigFile) := do
  try
    return some ⟨extensionOf path, ← IO.FS.readFile path⟩
  catch _ => return none

/-- The variables of the environment, as the system lists them. -/
def readEnvironment : IO (List (String × String)) := do
  try
    let listing ← IO.FS.readFile "/proc/self/environ"
    return (listing.splitOn "\x00").filterMap fun entry =>
      match entry.splitOn "=" with
      | name :: first :: rest => some (name, String.intercalate "=" (first :: rest))
      | _ => none
  catch _ => return []

/-- Wait between two lines, for as long as the calls are apart. -/
def pauseFor (invocation : Option Invocation) : IO Unit := do
  match invocation with
  | some (.check _ request) => IO.sleep (UInt32.ofNat request.intervalMillis)
  | _ => return ()

/-- Print lines with pauses in between. -/
def printLines (pause : IO Unit) : List String → IO Unit
  | [] => return ()
  | [line] => IO.println line
  | line :: rest => do
    IO.println line
    pause
    printLines pause rest

end Throttle

open Throttle in
def main (arguments : List String) : IO UInt32 := do
  let invocation := Invocation.ofArguments? arguments
  let file? ← match invocation with
    | some (.check (some path) _) => readConfigFile path
    | _ => pure none
  let run := runProgram arguments (fun _ => file?) (← readEnvironment)
  printLines (pauseFor invocation) run.lines
  match run.ended with
  | .failed failure => IO.eprintln ("Error: " ++ (failure.message?.getD "backend unavailable"))
  | .misused => IO.eprintln "For more information, try '--help'."
  | .done => pure ()
  return UInt32.ofNat run.ended.exitCode
