import Throttle.Gate
import Throttle.Proofs.Memory.Denial
import Throttle.Proofs.Memory.Thinning

/-!
# Gates over one memory

Any number of gates and limiters may share a memory.  A check or a call that fails has stopped
before the memory was changed and before a handler was told anything: no key was derived from the
request, or the caller was done.  So a run from which the failed calls are struck out is the same
run for everyone else (`history_kept`), and what a handler is told are the denials that the callers
get, one by one (`reported_history`).
-/

namespace Throttle

namespace Gate

/-! ## One check -/

section

variable {α ρ σ : Type} [Quantity α] [Store σ α] {gate : Gate α ρ} {request : ρ}

/-- What a gate hands on of what its limiter says about a request. -/
def handOn (moment : Moment) (request : ρ) (answer : Answer (Failure α) Verdict) : Checked α ρ :=
  match answer.outcome with
  | .error failure => ⟨⟨.error failure, answer.time⟩, []⟩
  | .ok verdict =>
      ⟨⟨.ok ⟨verdict, verdict.headersAt moment.wall⟩, answer.time⟩, denialsOf request verdict⟩

/-- A request without a key is not brought before the limiter. -/
theorem check_of_unkeyed {failure : Failure α} (hkey : gate.keyOf request = .error failure)
    (store : σ) (moment : Moment) :
    gate.check store moment request = (⟨⟨.error failure, moment.now⟩, []⟩, store) := by
  unfold check
  rw [hkey]

/-- A request with a key is a call of the limiter, whose answer is handed on. -/
theorem check_of_keyed {key : String} (hkey : gate.keyOf request = .ok key) (store : σ)
    (moment : Moment) :
    gate.check store moment request =
      (handOn moment request (gate.limiter.allow store moment key).1,
        (gate.limiter.allow store moment key).2) := by
  unfold check handOn
  rw [hkey]
  cases houtcome : (gate.limiter.allow store moment key).1.outcome with
  | error failure => simp only [houtcome]
  | ok verdict => simp only [houtcome]

end

/-! ## Visits to one memory -/

/-- What may be asked of a memory that gates share; limiters may be called past them, and what has
expired may be swept away. -/
inductive Errand (α ι ρ : Type) [Quantity α] where
  | check (gate : ι) (request : ρ)
  | allow (limiter : Limiter α) (key : String)
  | sweep

/-- An errand, and when and for how long its caller waits. -/
structure Visit (α ι ρ : Type) [Quantity α] where
  moment : Moment
  errand : Errand α ι ρ

/-- What comes of a visit. -/
inductive Told (α ρ : Type) where
  | checked (checked : Checked α ρ)
  | judged (answer : Answer (Failure α) Verdict)
  | swept (removed : Nat)

namespace Told

variable {α ρ : Type}

/-- The verdict or the failure that a caller gets. -/
def result? : Told α ρ → Option (Except (Failure α) Verdict)
  | .checked handed => some (handed.answer.outcome.map Decision.verdict)
  | .judged answer => some answer.outcome
  | .swept _ => none

/-- Whether a caller gets a failure. -/
def hasFailed (told : Told α ρ) : Bool :=
  match told.result? with
  | some (.error _) => true
  | _ => false

theorem hasFailed_iff {told : Told α ρ} :
    told.hasFailed = true ↔ ∃ failure, told.result? = some (.error failure) := by
  unfold hasFailed
  split
  · rename_i failure hresult
    exact iff_of_true rfl ⟨failure, hresult⟩
  · rename_i hnone
    exact iff_of_false Bool.false_ne_true fun ⟨failure, hresult⟩ => hnone failure hresult

end Told

variable {α ι ρ : Type} [Quantity α] (gates : ι → Gate α ρ)

/-- One visit to a memory. -/
def attend (memory : Memory α) (visit : Visit α ι ρ) : Told α ρ × Memory α :=
  match visit.errand with
  | .check gate request =>
      let (checked, memory) := (gates gate).check memory visit.moment request
      (.checked checked, memory)
  | .allow limiter key =>
      let (answer, memory) := limiter.allow memory visit.moment key
      (.judged answer, memory)
  | .sweep =>
      (.swept (memory.size - (memory.sweep visit.moment.now).size), memory.sweep visit.moment.now)

/-- The memory after some visits. -/
def after (memory : Memory α) (visits : List (Visit α ι ρ)) : Memory α :=
  visits.foldl (fun memory visit => (attend gates memory visit).2) memory

/-- Some visits, each with what comes of it. -/
def history (memory : Memory α) : List (Visit α ι ρ) → List (Visit α ι ρ × Told α ρ)
  | [] => []
  | visit :: rest =>
      (visit, (attend gates memory visit).1) :: history (attend gates memory visit).2 rest

/-- What the handler of a gate is told at a visit. -/
def reported [DecidableEq ι] (gate : ι) : Visit α ι ρ × Told α ρ → List (Denial α ρ)
  | (⟨_, .check visited _⟩, .checked checked) => if visited = gate then checked.denials else []
  | _ => []

/-- The denial of a gate's request that a visit comes to: the request, with the verdict that the
caller gets. -/
def denied? [DecidableEq ι] (gate : ι) : Visit α ι ρ × Told α ρ → Option (Denial α ρ)
  | (⟨_, .check visited request⟩, .checked ⟨⟨.ok decision, _⟩, _⟩) =>
      if visited = gate ∧ decision.verdict.allowed = false then
        some ⟨request, .limitExceeded, decision.verdict⟩
      else none
  | _ => none

variable {gates} {memory : Memory α} {visit : Visit α ι ρ}

theorem attend_check_of_unkeyed {moment : Moment} {gate : ι} {request : ρ} {failure : Failure α}
    (hkey : (gates gate).keyOf request = .error failure) :
    attend gates memory ⟨moment, .check gate request⟩ =
      (.checked ⟨⟨.error failure, moment.now⟩, []⟩, memory) := by
  simp only [attend, check_of_unkeyed hkey]

theorem attend_check_of_keyed {moment : Moment} {gate : ι} {request : ρ} {key : String}
    (hkey : (gates gate).keyOf request = .ok key) :
    attend gates memory ⟨moment, .check gate request⟩ =
      (.checked (handOn moment request ((gates gate).limiter.allow memory moment key).1),
        ((gates gate).limiter.allow memory moment key).2) := by
  simp only [attend, check_of_keyed hkey]

theorem attend_allow (gates : ι → Gate α ρ) (memory : Memory α) (moment : Moment)
    (limiter : Limiter α) (key : String) :
    attend gates memory ⟨moment, .allow limiter key⟩ =
      (.judged (limiter.allow memory moment key).1, (limiter.allow memory moment key).2) := rfl

omit [Quantity α] in
/-- A gate hands on the verdict or the failure of its limiter. -/
theorem result?_checked_handOn (moment : Moment) (request : ρ)
    (answer : Answer (Failure α) Verdict) :
    (Told.checked (handOn moment request answer)).result? = some answer.outcome := by
  unfold handOn Told.result?
  cases answer.outcome with
  | error failure => rfl
  | ok verdict => rfl

end Gate

/-- A limiter over a memory fails only for a caller who is done, and then without a trace. -/
theorem Limiter.allow_of_error {α : Type} [Quantity α] {limiter : Limiter α} {memory : Memory α}
    {moment : Moment} {key : String} {failure : Failure α}
    (hfailed : (limiter.allow memory moment key).1.outcome = .error failure) :
    moment.isDone = true ∧ failure = .store .canceled ∧
      (limiter.allow memory moment key).2 = memory := by
  cases hdone : moment.isDone with
  | true =>
      rw [allow_of_done limiter memory hdone] at hfailed ⊢
      exact ⟨rfl, (Except.error.inj hfailed).symm, rfl⟩
  | false =>
      cases limiter with
      | fixedWindow limiter =>
          rw [allow_fixedWindow limiter memory hdone] at hfailed
          cases hfailed
      | tokenBucket limiter =>
          rw [allow_tokenBucket limiter memory hdone] at hfailed
          cases hfailed

namespace Gate

variable {α ι ρ : Type} [Quantity α] {gates : ι → Gate α ρ} {memory : Memory α}
  {visit : Visit α ι ρ}

/-- Why a visit fails: the gate finds no key in the request, or the caller is done. -/
def Fails (gates : ι → Gate α ρ) (visit : Visit α ι ρ) (failure : Failure α) : Prop :=
  (∃ gate request, visit.errand = .check gate request ∧
    (gates gate).keyOf request = .error failure) ∨
  visit.moment.isDone = true ∧ failure = .store .canceled

/-- A visit that fails leaves the memory as it was, and no handler is told of it. -/
theorem attend_of_failed [DecidableEq ι] {failure : Failure α}
    (hfailed : (attend gates memory visit).1.result? = some (.error failure)) :
    Fails gates visit failure ∧ (attend gates memory visit).2 = memory ∧
      ∀ gate, reported gate (visit, (attend gates memory visit).1) = [] := by
  obtain ⟨moment, errand⟩ := visit
  cases errand with
  | check gate request =>
      cases hkey : (gates gate).keyOf request with
      | error refused =>
          rw [attend_check_of_unkeyed hkey] at hfailed ⊢
          obtain rfl := Except.error.inj (Option.some.inj hfailed)
          exact ⟨.inl ⟨gate, request, rfl, hkey⟩, rfl, fun other => ite_self _⟩
      | ok key =>
          rw [attend_check_of_keyed hkey] at hfailed ⊢
          rw [result?_checked_handOn] at hfailed
          have houtcome := Option.some.inj hfailed
          -- there is a key, so it was the limiter that failed
          obtain ⟨hdone, hcanceled, hsame⟩ := Limiter.allow_of_error houtcome
          refine ⟨.inr ⟨hdone, hcanceled⟩, hsame, fun other => ?_⟩
          unfold handOn reported
          simp only [houtcome, ite_self]
  | allow limiter key =>
      rw [attend_allow] at hfailed ⊢
      obtain ⟨hdone, hcanceled, hsame⟩ := Limiter.allow_of_error (Option.some.inj hfailed)
      exact ⟨.inr ⟨hdone, hcanceled⟩, hsame, fun other => rfl⟩
  | sweep => cases hfailed

/-- What the handler of a gate is told at a visit is the denial that the caller gets, if any. -/
theorem reported_attend [DecidableEq ι] (gates : ι → Gate α ρ) (memory : Memory α)
    (visit : Visit α ι ρ) (gate : ι) :
    reported gate (visit, (attend gates memory visit).1) =
      (denied? gate (visit, (attend gates memory visit).1)).toList := by
  obtain ⟨moment, errand⟩ := visit
  cases errand with
  | check visited request =>
      cases hkey : (gates visited).keyOf request with
      | error refused =>
          rw [attend_check_of_unkeyed hkey]
          exact ite_self _
      | ok key =>
          rw [attend_check_of_keyed hkey]
          unfold handOn
          cases houtcome : ((gates visited).limiter.allow memory moment key).1.outcome with
          | error refused => exact ite_self _
          | ok verdict =>
              by_cases hgate : visited = gate
              · cases hallowed : verdict.allowed with
                | true => simp [reported, denied?, denialsOf, hgate, hallowed]
                | false => simp [reported, denied?, denialsOf, hgate, hallowed]
              · simp [reported, denied?, hgate]
  | allow limiter key => rfl
  | sweep => rfl

/-- A check that finds a key, and the call of the limiter for that key that may stand for it. -/
inductive Direct (gates : ι → Gate α ρ) : Visit α ι ρ → Visit α ι ρ → Prop
  | same (visit : Visit α ι ρ) : Direct gates visit visit
  | past {moment : Moment} {gate : ι} {request : ρ} {key : String}
      (hkey : (gates gate).keyOf request = .ok key) :
      Direct gates ⟨moment, .check gate request⟩ ⟨moment, .allow (gates gate).limiter key⟩

/-- Whoever goes past a gate gets the same and leaves the same memory. -/
theorem Direct.attend_eq {other : Visit α ι ρ} (hdirect : Direct gates visit other)
    (memory : Memory α) :
    (attend gates memory other).1.result? = (attend gates memory visit).1.result? ∧
      (attend gates memory other).2 = (attend gates memory visit).2 := by
  cases hdirect with
  | same => exact ⟨rfl, rfl⟩
  | past hkey =>
      rw [attend_allow, attend_check_of_keyed hkey, result?_checked_handOn]
      exact ⟨rfl, rfl⟩

/-! ## Runs -/

@[simp] theorem history_nil (gates : ι → Gate α ρ) (memory : Memory α) :
    history gates memory ([] : List (Visit α ι ρ)) = [] := rfl

@[simp] theorem history_cons (gates : ι → Gate α ρ) (memory : Memory α) (visit : Visit α ι ρ)
    (rest : List (Visit α ι ρ)) :
    history gates memory (visit :: rest) =
      (visit, (attend gates memory visit).1) ::
        history gates (attend gates memory visit).2 rest := rfl

@[simp] theorem after_nil (gates : ι → Gate α ρ) (memory : Memory α) :
    after gates memory ([] : List (Visit α ι ρ)) = memory := rfl

@[simp] theorem after_cons (gates : ι → Gate α ρ) (memory : Memory α) (visit : Visit α ι ρ)
    (rest : List (Visit α ι ρ)) :
    after gates memory (visit :: rest) = after gates (attend gates memory visit).2 rest := rfl

/-- Every entry of a history is a visit to the memory as it then was. -/
theorem exists_attend_of_mem_history {visits : List (Visit α ι ρ)} {entry : Visit α ι ρ × Told α ρ}
    (hentry : entry ∈ history gates memory visits) :
    ∃ found, entry.2 = (attend gates found entry.1).1 := by
  induction visits generalizing memory with
  | nil => cases hentry
  | cons visit rest ih =>
      rcases List.mem_cons.mp hentry with rfl | hrest
      · exact ⟨memory, rfl⟩
      · exact ih hrest

/-- The visits of a run that have not failed. -/
def kept (gates : ι → Gate α ρ) (memory : Memory α) (visits : List (Visit α ι ρ)) :
    List (Visit α ι ρ) :=
  ((history gates memory visits).filter fun entry => !entry.2.hasFailed).map Prod.fst

/-- Without its failed visits a run is the same for all others, and for the memory. -/
theorem history_kept [DecidableEq ι] (gates : ι → Gate α ρ) (memory : Memory α)
    (visits : List (Visit α ι ρ)) :
    history gates memory (kept gates memory visits) =
        (history gates memory visits).filter (fun entry => !entry.2.hasFailed) ∧
      after gates memory (kept gates memory visits) = after gates memory visits := by
  -- On the visits: a failed one is struck out, and the rest begins with the memory as it was.
  induction visits generalizing memory with
  | nil => exact ⟨rfl, rfl⟩
  | cons visit rest ih =>
      obtain ⟨hhistory, hafter⟩ := ih (attend gates memory visit).2
      unfold kept at hhistory hafter ⊢
      cases hfailed : (attend gates memory visit).1.hasFailed with
      | true =>
          obtain ⟨failure, hresult⟩ := Told.hasFailed_iff.mp hfailed
          obtain ⟨-, hsame, -⟩ := attend_of_failed hresult
          rw [hsame] at hhistory hafter
          simpa [hfailed, hsame] using ⟨hhistory, hafter⟩
      | false => simpa [hfailed] using ⟨hhistory, hafter⟩

/-- What a handler is told in a run are the denials of its gate, one by one and in their order. -/
theorem reported_history [DecidableEq ι] (gates : ι → Gate α ρ) (memory : Memory α)
    (visits : List (Visit α ι ρ)) (gate : ι) :
    (history gates memory visits).flatMap (reported gate) =
      (history gates memory visits).filterMap (denied? gate) := by
  induction visits generalizing memory with
  | nil => rfl
  | cons visit rest ih =>
      rw [history_cons, List.flatMap_cons, ih, reported_attend, List.filterMap_cons]
      cases denied? gate (visit, (attend gates memory visit).1) with
      | none => rfl
      | some denial => rfl

/-- The failed visits of a run are nothing to a handler. -/
theorem reported_filter [DecidableEq ι] (gates : ι → Gate α ρ) (memory : Memory α)
    (visits : List (Visit α ι ρ)) (gate : ι) :
    ((history gates memory visits).filter fun entry => !entry.2.hasFailed).flatMap
        (reported gate) =
      (history gates memory visits).flatMap (reported gate) := by
  induction visits generalizing memory with
  | nil => rfl
  | cons visit rest ih =>
      rw [history_cons, List.flatMap_cons, ← ih]
      cases hfailed : (attend gates memory visit).1.hasFailed with
      | true =>
          obtain ⟨failure, hresult⟩ := Told.hasFailed_iff.mp hfailed
          obtain ⟨-, -, hquiet⟩ := attend_of_failed hresult
          rw [hquiet, List.filter_cons_of_neg (by simp [hfailed]), List.nil_append]
      | false => rw [List.filter_cons_of_pos (by simp [hfailed]), List.flatMap_cons]

/-- A run in which some callers go past their gates gives everyone the same. -/
theorem results_of_direct {visits others : List (Visit α ι ρ)}
    (hdirect : List.Forall₂ (Direct gates) visits others) (memory : Memory α) :
    (history gates memory others).map (fun entry => entry.2.result?) =
        (history gates memory visits).map (fun entry => entry.2.result?) ∧
      after gates memory others = after gates memory visits := by
  induction hdirect generalizing memory with
  | nil => exact ⟨rfl, rfl⟩
  | @cons visit other rest others hfirst hrest ih =>
      obtain ⟨hresult, hmemory⟩ := hfirst.attend_eq memory
      obtain ⟨hresults, hafter⟩ := ih (attend gates memory visit).2
      rw [history_cons, history_cons, List.map_cons, List.map_cons, hresult, hmemory, hresults]
      exact ⟨rfl, (congrArg (after gates · others) hmemory).trans hafter⟩

/-- **Failures leave no trace, and denials are reported once.**  Whatever gates and limiters share a
memory: a gate's handler is told of exactly the denials of the gate's requests, in their order and
with the verdicts that the callers get.  A visit fails only because its gate finds no key or its
caller is done, so an exceeded limit is no caller's failure unless an extractor makes it one.
Without the visits that fail, all others are told the same, and so are the handlers, and the memory
is the same.  And whoever calls a gate's limiter for the key of a request is told what the gate
would have told. -/
theorem failures_leave_no_trace [DecidableEq ι] (gates : ι → Gate α ρ) (memory : Memory α)
    (visits : List (Visit α ι ρ)) :
    let run := history gates memory visits
    let rest := kept gates memory visits
    (∀ gate, run.flatMap (reported gate) = run.filterMap (denied? gate)) ∧
      (∀ entry ∈ run, ∀ failure, entry.2.result? = some (.error failure) →
        Fails gates entry.1 failure) ∧
      (∀ entry ∈ run, entry.2.result? = some (.error .limitExceeded) → ∃ gate request,
        entry.1.errand = .check gate request ∧
          (gates gate).keyOf request = .error .limitExceeded) ∧
      (history gates memory rest = run.filter (fun entry => !entry.2.hasFailed) ∧
        after gates memory rest = after gates memory visits ∧
        ∀ gate, (history gates memory rest).flatMap (reported gate) =
          run.flatMap (reported gate)) ∧
      ∀ others, List.Forall₂ (Direct gates) visits others →
        (history gates memory others).map (fun entry => entry.2.result?) =
            run.map (fun entry => entry.2.result?) ∧
          after gates memory others = after gates memory visits := by
  intro run rest
  have hfails : ∀ entry ∈ run, ∀ failure, entry.2.result? = some (.error failure) →
      Fails gates entry.1 failure := by
    intro entry hentry failure hresult
    obtain ⟨found, hfound⟩ := exists_attend_of_mem_history hentry
    rw [hfound] at hresult
    exact (attend_of_failed hresult).1
  obtain ⟨hhistory, hafter⟩ := history_kept gates memory visits
  refine ⟨reported_history gates memory visits, hfails, ?_, ⟨hhistory, hafter, ?_⟩,
    fun others hdirect => results_of_direct hdirect memory⟩
  · intro entry hentry hresult
    rcases hfails entry hentry _ hresult with hunkeyed | ⟨-, hcanceled⟩
    · exact hunkeyed
    · cases hcanceled
  · intro gate
    rw [hhistory]
    exact reported_filter gates memory visits gate

/-- A gate whose extractor takes every request for one too many. -/
def refusing : Unit → Gate Rat String := fun _ =>
  { limiter := .fixedWindow .oneInTen
    keyOf := fun _ => .error .limitExceeded }

/-- What an extractor fails with is handed on as it is, also if it says that a limit is exceeded. -/
theorem limitExceeded_from_extractor :
    let visits : List (Visit Rat Unit String) := [⟨⟨⟨0⟩, ⟨0⟩, none⟩, .check () "first"⟩]
    ¬ ∀ entry ∈ history refusing .empty visits,
      entry.2.result? ≠ some (.error .limitExceeded) := by
  intro visits hnever
  exact hnever _ (List.mem_cons_self ..) rfl

/-- Two gates that let through one request in ten nanoseconds; all requests that say something
have one key. -/
def sharedWindow : Bool → Gate Rat String := fun _ =>
  { limiter := .fixedWindow .oneInTen
    keyOf := fun request =>
      if request = "" then .error (.keyExtraction "missing key") else .ok "k" }

/-- Two requests that count, with a request without a key and a caller who is done in between. -/
def fourRequests : List (Visit Rat Bool String) :=
  [⟨⟨⟨0⟩, ⟨0⟩, none⟩, .check false "first"⟩, ⟨⟨⟨1⟩, ⟨1⟩, none⟩, .check true ""⟩,
    ⟨⟨⟨2⟩, ⟨2⟩, some ⟨2⟩⟩, .check true "canceled"⟩, ⟨⟨⟨3⟩, ⟨3⟩, none⟩, .check true "last"⟩]

/-- The last request is denied, and the handler of its gate is told so, without the two in between
as with them; and past the gate the caller would have been told the same. -/
theorem failures_leave_no_trace_fourRequests :
    let run := history sharedWindow .empty fourRequests
    let rest := kept sharedWindow .empty fourRequests
    let past : Visit Rat Bool String := ⟨⟨⟨3⟩, ⟨3⟩, none⟩, .allow (.fixedWindow .oneInTen) "k"⟩
    rest.length = 2 ∧
      (run.flatMap (reported true)).map (fun denial => (denial.request, denial.verdict)) =
        [("last", ⟨false, 1, 0, ⟨7⟩⟩)] ∧
      (history sharedWindow .empty rest).flatMap (reported true) = run.flatMap (reported true) ∧
      after sharedWindow .empty rest = after sharedWindow .empty fourRequests ∧
      (history sharedWindow .empty (fourRequests.take 3 ++ [past])).map
        (fun entry => entry.2.result?) = run.map (fun entry => entry.2.result?) := by
  intro run rest past
  obtain ⟨hreported, -, -, ⟨-, hafter, hsame⟩, hdirect⟩ :=
    failures_leave_no_trace sharedWindow .empty fourRequests
  have hpast : List.Forall₂ (Direct sharedWindow) fourRequests (fourRequests.take 3 ++ [past]) :=
    .cons (.same _) (.cons (.same _) (.cons (.same _) (.cons (.past rfl) .nil)))
  refine ⟨by decide +kernel, ?_, hsame true, hafter, (hdirect _ hpast).1⟩
  rw [hreported true]
  decide +kernel

end Gate

end Throttle
