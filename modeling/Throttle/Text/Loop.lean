/-!
# Loops with a bound

A reader repeats a step that takes characters off the front of a text for as long as the
step asks for it.  The bound is the length of the text, which no such loop can outlast.
-/

namespace Throttle.Text

/-- Repeat a step while it asks for it, at most so many times. -/
def repeatAtMost {m : Type → Type} [Monad m] (step : m Bool) : Nat → m Unit
  | 0 => return ()
  | bound + 1 => do
    if ← step then repeatAtMost step bound

/-- Collect what a step yields until it yields nothing, at most so many times. -/
def collectAtMost {m : Type → Type} [Monad m] {β : Type} (step : m (Option β)) :
    Nat → m (List β)
  | 0 => return []
  | bound + 1 => do
    match ← step with
    | some value => return value :: (← collectAtMost step bound)
    | none => return []

end Throttle.Text
