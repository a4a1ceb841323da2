import Throttle.Store

/-!
# A store with prepared outcomes

Each call is answered by the next outcome, whatever is asked and whoever waits.  Anything
a store may say can be prepared, so a limiter can be tried against every answer.
-/

namespace Throttle

/-- A prepared outcome. -/
inductive Prepared (α : Type) where
  | count (count : WindowCount)
  | tokens (take : TokenTake α)
  | failure (failure : StoreFailure)
deriving DecidableEq, Repr

/-- The outcomes still to be given. -/
structure Canned (α : Type) where
  outcomes : List (Prepared α)

namespace Canned

variable {α : Type}

/-- What is answered when no outcome fits the call. -/
def exhausted : StoreFailure := .unavailable (some "no outcome prepared")

instance : Store (Canned α) α where
  increment store moment _ _ :=
    let outcome := match store.outcomes.head? with
      | some (.count count) => .ok count
      | some (.failure failure) => .error failure
      | _ => .error exhausted
    (⟨outcome, moment.now⟩, ⟨store.outcomes.tail⟩)
  take store moment _ _ _ :=
    let outcome := match store.outcomes.head? with
      | some (.tokens take) => .ok take
      | some (.failure failure) => .error failure
      | _ => .error exhausted
    (⟨outcome, moment.now⟩, ⟨store.outcomes.tail⟩)

end Canned

end Throttle
