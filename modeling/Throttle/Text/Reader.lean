import Throttle.Text.Loop

/-!
# Readers

A reader takes characters off the front of a text and yields what it has read, or finds the
text wrong.
-/

namespace Throttle.Text

/-- Actions that take characters off the front of a text, or find it wrong. -/
abbrev Reader := StateT (List Char) Option

namespace Reader

/-- Whether nothing is left. -/
def isAtEnd : Reader Bool := return (← get).isEmpty

/-- Whether the next character, if there is one, passes a test. -/
def isNext (test : Char → Bool) : Reader Bool := return (← get).head?.any test

/-- Whether certain characters are next. -/
def isNextText (text : String) : Reader Bool := return text.toList.isPrefixOf (← get)

/-- Take one character. -/
def next : Reader Char := do
  match ← get with
  | [] => failure
  | character :: rest =>
    set rest
    return character

/-- Take certain characters if they are next. -/
def accept (text : String) : Reader Bool := do
  if ← isNextText text then
    modify (·.drop text.length)
    return true
  else return false

/-- Take certain characters, which have to be next. -/
def expect (text : String) : Reader Unit := do
  if !(← accept text) then failure

/-- Take so many characters. -/
def take (count : Nat) : Reader (List Char) := do
  let characters ← get
  if characters.length < count then failure
  set (characters.drop count)
  return characters.take count

/-- Take characters while they pass a test. -/
def takeWhile (test : Char → Bool) : Reader (List Char) := do
  let characters ← get
  set (characters.dropWhile test)
  return characters.takeWhile test

/-- Collect what a step yields until it yields nothing. -/
def collect {β : Type} (step : Reader (Option β)) : Reader (List β) := do
  collectAtMost step ((← get).length + 1)

/-- What a reader makes of a whole text. -/
def readAll? {β : Type} (reader : Reader β) (text : String) : Option β :=
  match reader.run text.toList with
  | some (result, []) => some result
  | _ => none

end Reader

end Throttle.Text
