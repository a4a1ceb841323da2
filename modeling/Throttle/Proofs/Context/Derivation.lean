import Mathlib.Data.List.Induction
import Mathlib.Order.Bounds.Basic
import Throttle.Timeline

/-!
# Derived contexts

A program derives contexts from one another, cancels and releases handles, and lets time pass
(`Act`).  The contexts form a tree, which the acts alone determine (`births`): a context knows its
parent and what it adds, a handle or a deadline.

What a context is made of is the path from the background context to it.  It is done exactly if a
handle made on that path has been canceled or the first deadline set on it has come
(`contexts_propagate`).
-/

namespace Throttle

/-- What a program does with contexts, which are numbered as they are derived.  The background
context is number zero. -/
inductive Act where
  | withCancel (parent : Nat)
  | withTimeout (parent : Nat) (timeout : Duration)
  | withDeadline (parent : Nat) (deadline : Instant)
  | notify (notice : Notice)
  | advance (duration : Duration)
deriving DecidableEq, Repr

/-- A clock with its handles, and all contexts derived so far. -/
structure World where
  timeline : Timeline
  contexts : List Context
deriving DecidableEq, Repr

/-- Whether a handle has been made and not been released. -/
def Signals.holds (handles : Signals) (handle : Handle) : Bool :=
  handles.signals[handle]?.any fun signal => !signal.released

namespace World

def initial : World := ⟨.initial, [.background]⟩

def derive (world : World) (context : Context) : World :=
  { world with contexts := world.contexts ++ [context] }

def notify (world : World) (notice : Notice) : World :=
  { world with timeline := world.timeline.apply notice }

def advance (world : World) (duration : Duration) : World :=
  { world with timeline := world.timeline.advanceTo (world.timeline.now.after duration) }

/-- One act.  None is possible with a context that does not exist or a handle that is gone, and a
timeout must end at an instant that can be represented. -/
def perform? (world : World) : Act → Option World
  | .withCancel parent => do
      let context ← world.contexts[parent]?
      let (handle, timeline) := world.timeline.create
      return { world with timeline }.derive (context.withCancel handle)
  | .withTimeout parent timeout => do
      let context ← world.contexts[parent]?
      let child ← context.withTimeout? world.timeline.now timeout
      return world.derive child
  | .withDeadline parent deadline => do
      let context ← world.contexts[parent]?
      return world.derive (context.withDeadline deadline)
  | .notify notice =>
      if world.timeline.handles.holds notice.handle then some (world.notify notice) else none
  | .advance duration => some (world.advance duration)

/-- Acts one after another. -/
def run? (world : World) (acts : List Act) : Option World := acts.foldlM perform? world

/-- Whether a context is done now. -/
def isDone (world : World) (context : Context) : Bool := world.timeline.isDone context

end World

/-! ## The tree -/

/-- What a context adds to its parent. -/
inductive Mark where
  | handle (handle : Handle)
  | deadline (deadline : Instant)
deriving DecidableEq, Repr

/-- How a context is derived. -/
structure Birth where
  parent : Nat
  mark : Mark
deriving DecidableEq, Repr

/-- The context derived from a parent. -/
def Mark.extend : Mark → Context → Context
  | .handle made, parent => parent.withCancel made
  | .deadline due, parent => parent.withDeadline due

def Act.length : Act → Nat
  | advance duration => duration.nanos
  | _ => 0

def Act.makesHandle : Act → Bool
  | withCancel _ => true
  | _ => false

/-- When the acts are over. -/
def clock (acts : List Act) : Instant :=
  acts.foldl (fun now act => now.after ⟨act.length⟩) .start

/-- The context that an act derives after others: the handles are numbered as they are made, and a
timeout counts from when it is set. -/
def birth? (before : List Act) : Act → Option Birth
  | .withCancel parent => some ⟨parent, .handle (before.countP Act.makesHandle)⟩
  | .withTimeout parent timeout => some ⟨parent, .deadline ((clock before).after timeout)⟩
  | .withDeadline parent deadline => some ⟨parent, .deadline deadline⟩
  | _ => none

def birthsAfter (before : List Act) : List Act → List Birth
  | [] => []
  | act :: rest => (birth? before act).toList ++ birthsAfter (before ++ [act]) rest

/-- The tree of the contexts: context `number + 1` is the one of birth `number`. -/
def births (acts : List Act) : List Birth := birthsAfter [] acts

/-- A context is another one or is derived from it, directly or through others. -/
inductive Derived (tree : List Birth) (top : Nat) : Nat → Prop
  | self : Derived tree top top
  | child {number : Nat} {birth : Birth} (hbirth : tree[number]? = some birth)
      (hparent : Derived tree top birth.parent) : Derived tree top (number + 1)

/-- A handle or a deadline was added on the path from the background context to a context. -/
def OnPath (tree : List Birth) (mark : Mark) (number : Nat) : Prop :=
  ∃ adder birth, tree[adder]? = some birth ∧ birth.mark = mark ∧ Derived tree (adder + 1) number

theorem birthsAfter_append (before first second : List Act) :
    birthsAfter before (first ++ second) =
      birthsAfter before first ++ birthsAfter (before ++ first) second := by
  induction first generalizing before with
  | nil => simp [birthsAfter]
  | cons act rest ih => simp [birthsAfter, ih]

theorem births_concat (acts : List Act) (act : Act) :
    births (acts ++ [act]) = births acts ++ (birth? acts act).toList := by
  simp [births, birthsAfter_append, birthsAfter]

@[simp] theorem clock_concat (acts : List Act) (act : Act) :
    clock (acts ++ [act]) = (clock acts).after ⟨act.length⟩ := by
  simp [clock]

theorem clock_concat_of_still (acts : List Act) {act : Act} (hstill : act.length = 0) :
    clock (acts ++ [act]) = clock acts := by
  rw [clock_concat, hstill]
  rfl

/-! ## Paths -/

section Paths

variable {tree : List Birth} {mark : Mark} {top number : Nat}

theorem Derived.le
    (hearlier : ∀ number (birth : Birth), tree[number]? = some birth → birth.parent ≤ number)
    (hderived : Derived tree top number) : top ≤ number := by
  induction hderived with
  | self => exact Nat.le_refl _
  | child hbirth _ ih => exact (ih.trans (hearlier _ _ hbirth)).trans (Nat.le_succ _)

theorem not_onPath_zero : ¬ OnPath tree mark 0 := by
  rintro ⟨adder, birth, -, -, hderived⟩
  cases hderived

/-- The path to a context is the path to its parent and what it adds itself. -/
theorem onPath_succ_iff {birth : Birth} (hbirth : tree[number]? = some birth) :
    OnPath tree mark (number + 1) ↔ birth.mark = mark ∨ OnPath tree mark birth.parent := by
  constructor
  · rintro ⟨adder, added, hadded, hmark, hderived⟩
    cases hderived with
    | self =>
        obtain rfl := Option.some.inj (hadded.symm.trans hbirth)
        exact Or.inl hmark
    | child hother hparent =>
        obtain rfl := Option.some.inj (hother.symm.trans hbirth)
        exact Or.inr ⟨adder, added, hadded, hmark, hparent⟩
  · rintro (hmark | ⟨adder, added, hadded, hmark, hparent⟩)
    · exact ⟨number, birth, hbirth, hmark, .self⟩
    · exact ⟨adder, added, hadded, hmark, .child hbirth hparent⟩

end Paths

/-- The earlier of an instant that may never come and one that comes. -/
theorem Instant.earlier?_spec (other? : Option Instant) (instant : Instant) :
    ∃ first, Instant.earlier? other? (some instant) = some first ∧ first ≤ instant ∧
      (∀ other, other? = some other → first ≤ other) ∧ (first = instant ∨ other? = some first) := by
  cases other? with
  | none => exact ⟨instant, rfl, Nat.le_refl _, nofun, Or.inl rfl⟩
  | some other =>
      refine ⟨other.earlier instant, rfl, Nat.min_le_right _ _, ?_, ?_⟩
      · rintro other ⟨⟩
        exact Nat.min_le_left _ _
      · rcases Nat.le_total other.nanos instant.nanos with hle | hle
        · right
          simp [Instant.earlier, Nat.min_eq_left hle]
        · left
          simp [Instant.earlier, Nat.min_eq_right hle]

/-- The contexts of a tree: each is what its parent and its own mark make of it. -/
structure Grown (tree : List Birth) (contexts : List Context) : Prop where
  length_eq : contexts.length = tree.length + 1
  root : contexts[0]? = some .background
  grown : ∀ number birth, tree[number]? = some birth → birth.parent ≤ number ∧
    ∃ parent, contexts[birth.parent]? = some parent ∧
      contexts[number + 1]? = some (birth.mark.extend parent)

namespace Grown

variable {tree : List Birth} {contexts : List Context} {number : Nat} {context : Context}

/-- One more context keeps the tree grown. -/
theorem derive (hgrown : Grown tree contexts) {birth : Birth} {parent : Context}
    (hparent : contexts[birth.parent]? = some parent) :
    Grown (tree ++ [birth]) (contexts ++ [birth.mark.extend parent]) := by
  have hlength := hgrown.length_eq
  refine ⟨by simp [hlength], ?_, fun number other hother => ?_⟩
  · rw [List.getElem?_append_left (by omega), hgrown.root]
  · rcases Nat.lt_or_ge number tree.length with hold | hnew
    · rw [List.getElem?_append_left hold] at hother
      obtain ⟨hle, held, hheld, hextended⟩ := hgrown.grown number other hother
      refine ⟨hle, held, ?_, ?_⟩
      · rw [List.getElem?_append_left (by omega), hheld]
      · rw [List.getElem?_append_left (by omega), hextended]
    · have hlt := (List.getElem?_eq_some_iff.mp hother).1
      rw [List.length_append, List.length_singleton] at hlt
      obtain rfl : number = tree.length := by omega
      obtain rfl := Option.some.inj (List.getElem?_concat_length.symm.trans hother)
      have hbound := (List.getElem?_eq_some_iff.mp hparent).1
      refine ⟨by omega, parent, ?_, ?_⟩
      · rw [List.getElem?_append_left hbound, hparent]
      · rw [← hlength, List.getElem?_concat_length]

/-- Every context but the background is derived. -/
theorem exists_parent (hgrown : Grown tree contexts)
    (hcontext : contexts[number + 1]? = some context) :
    ∃ birth parent, tree[number]? = some birth ∧ birth.parent ≤ number ∧
      contexts[birth.parent]? = some parent ∧ context = birth.mark.extend parent := by
  have hlt := (List.getElem?_eq_some_iff.mp hcontext).1
  rw [hgrown.length_eq] at hlt
  have hbirth := List.getElem?_eq_getElem (Nat.lt_of_succ_lt_succ hlt)
  obtain ⟨hle, parent, hparent, hextended⟩ := hgrown.grown number _ hbirth
  exact ⟨_, parent, hbirth, hle, hparent, Option.some.inj (hcontext.symm.trans hextended)⟩

theorem eq_background (hgrown : Grown tree contexts) (hcontext : contexts[0]? = some context) :
    context = .background :=
  Option.some.inj (hcontext.symm.trans hgrown.root)

/-- The handles of a context are those added on its path. -/
theorem mem_handles_iff (hgrown : Grown tree contexts)
    (hcontext : contexts[number]? = some context) (handle : Handle) :
    handle ∈ context.handles ↔ OnPath tree (.handle handle) number := by
  induction number using Nat.strongRecOn generalizing context with
  | ind number ih =>
      cases number with
      | zero =>
          obtain rfl := hgrown.eq_background hcontext
          exact ⟨nofun, fun honPath => absurd honPath not_onPath_zero⟩
      | succ number =>
          obtain ⟨birth, parent, hbirth, hle, hparent, rfl⟩ := hgrown.exists_parent hcontext
          rw [onPath_succ_iff hbirth, ← ih birth.parent (Nat.lt_succ_of_le hle) hparent]
          cases birth.mark with
          | handle made =>
              simp only [Mark.extend, Context.withCancel, List.mem_append, List.mem_singleton,
                Mark.handle.injEq]
              rw [or_comm, eq_comm]
          | deadline due => simp [Mark.extend, Context.withDeadline]

/-- The deadline of a context is one of those added on its path, and none of them is earlier. -/
theorem deadline_spec (hgrown : Grown tree contexts)
    (hcontext : contexts[number]? = some context) :
    (∀ first, context.deadline = some first → OnPath tree (.deadline first) number) ∧
      ∀ due, OnPath tree (.deadline due) number →
        ∃ first, context.deadline = some first ∧ first ≤ due := by
  induction number using Nat.strongRecOn generalizing context with
  | ind number ih =>
      cases number with
      | zero =>
          obtain rfl := hgrown.eq_background hcontext
          exact ⟨nofun, fun due honPath => absurd honPath not_onPath_zero⟩
      | succ number =>
          obtain ⟨birth, parent, hbirth, hle, hparent, rfl⟩ := hgrown.exists_parent hcontext
          obtain ⟨hset, hfirst⟩ := ih birth.parent (Nat.lt_succ_of_le hle) hparent
          simp only [onPath_succ_iff hbirth]
          cases birth.mark with
          | handle made => exact ⟨fun first heq => Or.inr (hset first heq), fun due honPath =>
              hfirst due (honPath.resolve_left nofun)⟩
          | deadline added =>
              obtain ⟨first, hearlier, hadded, hparent, hone⟩ :=
                Instant.earlier?_spec parent.deadline added
              simp only [Mark.extend, Context.withDeadline, Mark.deadline.injEq, hearlier,
                Option.some.injEq]
              refine ⟨?_, fun due honPath => ⟨first, rfl, ?_⟩⟩
              · rintro other rfl
                exact hone.imp Eq.symm fun heq => hset first heq
              · rcases honPath with rfl | honPath
                · exact hadded
                · obtain ⟨other, hother, hle⟩ := hfirst due honPath
                  exact Nat.le_trans (hparent other hother) hle

/-- The deadline of a context is the first one added on its path. -/
theorem deadline_eq_some_iff (hgrown : Grown tree contexts)
    (hcontext : contexts[number]? = some context) (first : Instant) :
    context.deadline = some first ↔
      IsLeast {due | OnPath tree (.deadline due) number} first := by
  obtain ⟨hset, hfirst⟩ := hgrown.deadline_spec hcontext
  constructor
  · intro heq
    refine ⟨hset first heq, fun due honPath => ?_⟩
    obtain ⟨other, hother, hle⟩ := hfirst due honPath
    rw [heq] at hother
    exact Option.some.inj hother ▸ hle
  · rintro ⟨honPath, hleast⟩
    obtain ⟨other, hother, hle⟩ := hfirst first honPath
    rw [hother, Instant.eq_of_le_of_le hle (hleast (hset other hother))]

theorem deadline_eq_none_iff (hgrown : Grown tree contexts)
    (hcontext : contexts[number]? = some context) :
    context.deadline = none ↔ ∀ due, ¬ OnPath tree (.deadline due) number := by
  obtain ⟨hset, hfirst⟩ := hgrown.deadline_spec hcontext
  constructor
  · intro hnone due honPath
    obtain ⟨first, heq, -⟩ := hfirst due honPath
    rw [hnone] at heq
    cases heq
  · intro hnever
    cases hdeadline : context.deadline with
    | none => rfl
    | some first => exact absurd (hset first hdeadline) (hnever first)

end Grown

/-! ## What one act does -/

namespace Signals

theorem holds_iff (handles : Signals) (handle : Handle) :
    handles.holds handle = true ↔
      handle < handles.signals.length ∧ (handles.signal handle).released = false := by
  unfold holds signal
  rcases Nat.lt_or_ge handle handles.signals.length with hmade | hnot
  · simp [hmade]
  · simp [Nat.not_lt.mpr hnot]

/-- A cancel fires its handle, and no other one. -/
theorem isFired_apply_cancel (handles : Signals) {canceled : Handle}
    (hheld : handles.holds canceled = true) (handle : Handle) :
    (handles.apply (.cancel canceled)).isFired handle = true ↔
      handles.isFired handle = true ∨ handle = canceled := by
  obtain ⟨hmade, hlive⟩ := (handles.holds_iff canceled).mp hheld
  unfold isFired
  by_cases hhandle : handle = canceled
  · subst hhandle
    have hchanged := handles.signal_apply_self (.cancel handle) hmade
    rw [Notice.handle_cancel] at hchanged
    simp [hchanged, Notice.change, hlive]
  · rw [handles.signal_apply_of_ne (.cancel canceled) hhandle]
    exact (or_iff_left hhandle).symm

theorem length_apply (handles : Signals) (notice : Notice) :
    (handles.apply notice).signals.length = handles.signals.length := by
  simp [apply]

end Signals

namespace World

variable {world after : World} {act : Act}

/-- What an act does, and when it can be done. -/
inductive Steps (world : World) : Act → World → Prop
  | withCancel {parent : Nat} {context : Context}
      (hparent : world.contexts[parent]? = some context) :
      Steps world (.withCancel parent)
        ({ world with timeline := world.timeline.create.2 }.derive
          (context.withCancel world.timeline.handles.signals.length))
  | withTimeout {parent : Nat} {context : Context} {timeout : Duration}
      (hparent : world.contexts[parent]? = some context)
      (hfits : (world.timeline.now.after timeout).Representable) :
      Steps world (.withTimeout parent timeout)
        (world.derive (context.withDeadline (world.timeline.now.after timeout)))
  | withDeadline {parent : Nat} {context : Context} {deadline : Instant}
      (hparent : world.contexts[parent]? = some context) :
      Steps world (.withDeadline parent deadline) (world.derive (context.withDeadline deadline))
  | notify {notice : Notice} (hheld : world.timeline.handles.holds notice.handle = true) :
      Steps world (.notify notice) (world.notify notice)
  | advance {duration : Duration} : Steps world (.advance duration) (world.advance duration)

theorem perform?_eq_some_iff : world.perform? act = some after ↔ world.Steps act after := by
  constructor
  · intro hperform
    cases act with
    | withCancel parent =>
        simp only [perform?, Option.bind_eq_bind, Option.bind_eq_some_iff, Option.pure_def,
          Option.some.injEq] at hperform
        obtain ⟨context, hparent, rfl⟩ := hperform
        exact .withCancel hparent
    | withTimeout parent timeout =>
        simp only [perform?, Context.withTimeout?, Instant.after?, Option.bind_eq_bind,
          Option.bind_eq_some_iff, Option.pure_def, Option.some.injEq, Option.map_eq_some_iff,
          Option.ite_none_right_eq_some] at hperform
        obtain ⟨context, hparent, -, ⟨-, ⟨hfits, rfl⟩, rfl⟩, rfl⟩ := hperform
        exact .withTimeout hparent hfits
    | withDeadline parent deadline =>
        simp only [perform?, Option.bind_eq_bind, Option.bind_eq_some_iff, Option.pure_def,
          Option.some.injEq] at hperform
        obtain ⟨context, hparent, rfl⟩ := hperform
        exact .withDeadline hparent
    | notify notice =>
        simp only [perform?, Option.ite_none_right_eq_some, Option.some.injEq] at hperform
        obtain ⟨hheld, rfl⟩ := hperform
        exact .notify hheld
    | advance duration =>
        obtain rfl := Option.some.inj hperform
        exact .advance
  · intro hsteps
    cases hsteps with
    | withCancel hparent => simp [perform?, hparent, Timeline.create, Signals.create]
    | withTimeout hparent hfits =>
        simp [perform?, hparent, Context.withTimeout?, Instant.after?, hfits]
    | withDeadline hparent => simp [perform?, hparent]
    | notify hheld => simp [perform?, hheld]
    | advance => rfl

theorem run?_concat (world : World) (acts : List Act) (act : Act) :
    world.run? (acts ++ [act]) = (world.run? acts).bind fun between => between.perform? act := by
  simp [run?, List.foldlM_append]

theorem run?_cons (world : World) (act : Act) (rest : List Act) :
    world.run? (act :: rest) = (world.perform? act).bind fun between => between.run? rest := by
  simp [run?]

end World

/-! ## What a run keeps -/

/-- What holds of a world after acts. -/
structure Kept (acts : List Act) (world : World) : Prop where
  now_eq : world.timeline.now = clock acts
  agenda_eq : world.timeline.agenda = []
  length_eq : world.timeline.handles.signals.length = acts.countP Act.makesHandle
  fired_iff : ∀ handle, world.timeline.handles.isFired handle = true ↔
    .notify (.cancel handle) ∈ acts
  grown : Grown (births acts) world.contexts

namespace Kept

variable {acts : List Act} {world after : World} {act : Act}

theorem initial : Kept [] .initial where
  now_eq := rfl
  agenda_eq := rfl
  length_eq := rfl
  fired_iff handle := by
    simp [World.initial, Timeline.initial, Signals.isFired, Signals.signal, Signals.none,
      Signal.quiet]
  grown := ⟨rfl, rfl, nofun⟩

/-- An act that derives a context adds it to the tree. -/
theorem grown_derive (hkept : Kept acts world) {birth : Birth} {parent : Context}
    (hbirth : birth? acts act = some birth)
    (hparent : world.contexts[birth.parent]? = some parent) :
    Grown (births (acts ++ [act])) (world.derive (birth.mark.extend parent)).contexts := by
  rw [births_concat, hbirth, Option.toList_some]
  exact hkept.grown.derive hparent

/-- An act that derives no context leaves the tree as it is. -/
theorem grown_same (hkept : Kept acts world) (hbirth : birth? acts act = none) :
    Grown (births (acts ++ [act])) world.contexts := by
  rw [births_concat, hbirth, Option.toList_none, List.append_nil]
  exact hkept.grown

/-- An act that takes no time, makes no handle and cancels none keeps all but the tree. -/
theorem of_quiet (hkept : Kept acts world) (htimeline : after.timeline = world.timeline)
    (hstill : act.length = 0) (hmakes : act.makesHandle = false)
    (hcancels : ∀ handle, act ≠ .notify (.cancel handle))
    (hgrown : Grown (births (acts ++ [act])) after.contexts) : Kept (acts ++ [act]) after where
  now_eq := by rw [htimeline, clock_concat_of_still acts hstill, hkept.now_eq]
  agenda_eq := by rw [htimeline, hkept.agenda_eq]
  length_eq := by simp [htimeline, hkept.length_eq, hmakes]
  fired_iff handle := by
    rw [htimeline, hkept.fired_iff, List.mem_append, List.mem_singleton]
    exact (or_iff_left (Ne.symm (hcancels handle))).symm
  grown := hgrown

theorem step (hkept : Kept acts world) (hsteps : world.Steps act after) :
    Kept (acts ++ [act]) after := by
  cases hsteps with
  | @withCancel parent context hparent =>
      have hbirth : birth? acts (.withCancel parent) =
          some ⟨parent, .handle world.timeline.handles.signals.length⟩ := by
        rw [hkept.length_eq]
        rfl
      exact {
        now_eq := hkept.now_eq.trans (clock_concat_of_still acts rfl).symm
        agenda_eq := hkept.agenda_eq
        length_eq := by
          simp [World.derive, Timeline.create, Signals.create, Act.makesHandle, hkept.length_eq]
        fired_iff := fun handle => by
          rw [List.mem_append, ← hkept.fired_iff handle]
          simp [World.derive, Timeline.create]
        grown := hkept.grown_derive hbirth hparent }
  | @withTimeout parent context timeout hparent hfits =>
      have hbirth : birth? acts (.withTimeout parent timeout) =
          some ⟨parent, .deadline (world.timeline.now.after timeout)⟩ := by
        rw [hkept.now_eq]
        rfl
      exact hkept.of_quiet rfl rfl rfl nofun (hkept.grown_derive hbirth hparent)
  | @withDeadline parent context deadline hparent =>
      have hbirth : birth? acts (.withDeadline parent deadline) =
          some ⟨parent, .deadline deadline⟩ := rfl
      exact hkept.of_quiet rfl rfl rfl nofun (hkept.grown_derive hbirth hparent)
  | @notify notice hheld =>
      exact {
        now_eq := hkept.now_eq.trans (clock_concat_of_still acts rfl).symm
        agenda_eq := hkept.agenda_eq
        length_eq := by
          simp [World.notify, Timeline.apply, Signals.length_apply, Act.makesHandle,
            hkept.length_eq]
        fired_iff := fun handle => by
          rw [List.mem_append, ← hkept.fired_iff handle, List.mem_singleton]
          cases notice with
          | cancel canceled =>
              have hfired := world.timeline.handles.isFired_apply_cancel hheld handle
              simpa [World.notify, Timeline.apply] using hfired
          | release released => simp [World.notify, Timeline.apply]
        grown := hkept.grown_same rfl }
  | @advance duration =>
      have hhandles : (world.advance duration).timeline.handles = world.timeline.handles := by
        simp [World.advance, Timeline.advanceTo, hkept.agenda_eq]
      exact {
        now_eq := by
          rw [clock_concat, ← hkept.now_eq]
          exact congrArg Instant.mk (Nat.max_eq_right (Nat.le_add_right _ _))
        agenda_eq := by simp [World.advance, Timeline.advanceTo, hkept.agenda_eq]
        length_eq := by simp [hhandles, Act.makesHandle, hkept.length_eq]
        fired_iff := fun handle => by
          rw [hhandles, List.mem_append, ← hkept.fired_iff handle]
          simp
        grown := hkept.grown_same rfl }

theorem of_run (hrun : World.initial.run? acts = some world) : Kept acts world := by
  induction acts using List.reverseRecOn generalizing world with
  | nil =>
      obtain rfl := Option.some.inj hrun
      exact initial
  | append_singleton before act ih =>
      rw [World.run?_concat, Option.bind_eq_some_iff] at hrun
      obtain ⟨between, hbefore, hperform⟩ := hrun
      exact (ih hbefore).step (World.perform?_eq_some_iff.mp hperform)

/-- A context is done if a handle of its path has been canceled or the first deadline has come. -/
theorem isDone_iff (hkept : Kept acts world) {number : Nat} {context : Context}
    (hcontext : world.contexts[number]? = some context) :
    world.isDone context = true ↔
      (∃ handle, OnPath (births acts) (.handle handle) number ∧
        .notify (.cancel handle) ∈ acts) ∨
      ∃ first, IsLeast {due | OnPath (births acts) (.deadline due) number} first ∧
        first ≤ world.timeline.now := by
  have hover : context.isOver world.timeline.now = true ↔
      ∃ first, IsLeast {due | OnPath (births acts) (.deadline due) number} first ∧
        first ≤ world.timeline.now := by
    simp only [← hkept.grown.deadline_eq_some_iff hcontext]
    exact context.isOver_iff world.timeline.now
  have hcanceled : context.isCanceled world.timeline.handles = true ↔
      ∃ handle, OnPath (births acts) (.handle handle) number ∧
        .notify (.cancel handle) ∈ acts := by
    simp only [← hkept.grown.mem_handles_iff hcontext, ← hkept.fired_iff]
    exact context.isCanceled_iff world.timeline.handles
  rw [World.isDone, Timeline.isDone, Context.isDone_iff, hover, hcanceled, or_comm]

end Kept

end Throttle
