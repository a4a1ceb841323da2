import Throttle.Limiter

/-!
# Gates

A gate checks requests: it derives a key from the request, asks its limiter, and hands the
verdict on with the headers for the response.  A denial is also reported to the gate's
handler, with the request and the verdict.  A request without a key and a limiter that
fails are failures, and report nothing.
-/

namespace Throttle

/-- How keys are derived from requests. -/
abbrev KeyExtractor (α ρ : Type) := ρ → Except (Failure α) String

/-- The extractor that knows no key. -/
def KeyExtractor.unset {α ρ : Type} : KeyExtractor α ρ :=
  fun _ => .error (.keyExtraction "no key extractor configured")

/-- A limiter with a way to derive keys. -/
structure Gate (α ρ : Type) [Quantity α] where
  limiter : Limiter α
  keyOf : KeyExtractor α ρ

/-- What is to be done with a request. -/
structure Decision where
  verdict : Verdict
  headers : List (String × String)
deriving DecidableEq, Repr

/-- What the handler is told about a denied request. -/
structure Denial (α ρ : Type) where
  request : ρ
  cause : Failure α
  verdict : Verdict
deriving Repr

/-- The outcome of a check: what the caller gets, and what the handler is told. -/
structure Checked (α ρ : Type) where
  answer : Answer (Failure α) Decision
  denials : List (Denial α ρ)

namespace Gate

/-- How the options of a gate are shown: they hold functions, which have no text. -/
def describeOptions : String := "GateOptions \x7b .. \x7d"

variable {α ρ σ : Type} [Quantity α] [Store σ α]

/-- The denials to report for a verdict. -/
def denialsOf (request : ρ) (verdict : Verdict) : List (Denial α ρ) :=
  if verdict.allowed then [] else [⟨request, .limitExceeded, verdict⟩]

/-- Check one request. -/
def check (gate : Gate α ρ) (store : σ) (moment : Moment) (request : ρ) :
    Checked α ρ × σ :=
  match gate.keyOf request with
  | .error failure => (⟨⟨.error failure, moment.now⟩, []⟩, store)
  | .ok key =>
    let (answer, store) := gate.limiter.allow store moment key
    match answer.outcome with
    | .error failure => (⟨⟨.error failure, answer.time⟩, []⟩, store)
    | .ok verdict =>
      let decision : Decision := ⟨verdict, verdict.headersAt moment.wall⟩
      (⟨⟨.ok decision, answer.time⟩, denialsOf request verdict⟩, store)

end Gate

end Throttle
