import Throttle.Store
import Throttle.Limiter.Verdict

/-!
# Fixed windows

At most a limit of calls per key in each window.  A key's first call anchors its window,
which never slides.
-/

namespace Throttle

/-- A limit of calls in a window of some length. -/
structure FixedWindow where
  limit : Nat
  window : Duration
  lasting : window.nanos ≠ 0

namespace FixedWindow

/-- The limiter, if the window has a length. -/
def new? {α : Type} (limit : Nat) (window : Duration) : Except (Failure α) FixedWindow :=
  if lasting : window.nanos ≠ 0 then .ok ⟨limit, window, lasting⟩ else .error .invalidWindow

/-- What a count says. -/
def judge (limiter : FixedWindow) (counted : WindowCount) : Verdict where
  allowed := decide (counted.count ≤ limiter.limit)
  limit := limiter.limit
  remaining := limiter.limit - counted.count
  resetAfter := counted.resetAfter.shorter limiter.window

/-- Something is left only if the call was allowed. -/
theorem allowed_of_remaining_pos (limiter : FixedWindow) (counted : WindowCount)
    (hleft : 0 < (limiter.judge counted).remaining) : (limiter.judge counted).allowed = true := by
  simp only [judge] at hleft ⊢
  exact decide_eq_true (by omega)

end FixedWindow

end Throttle
