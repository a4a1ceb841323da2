import Throttle.Proofs.Context.Derivation

/-!
# What derived contexts inherit

The consequences of `Kept` for whole runs: a context that is done stays so, one that is derived
from it is done as well and has no later deadline, a cancel reaches only the contexts derived from
the one whose handle it is, and a handle that is released leaves no trace.
-/

namespace Throttle

/-! ## Handles are made once -/

/-- The handle that is made with a context, if there is one. -/
def Birth.handle? (birth : Birth) : Option Handle :=
  match birth.mark with
  | .handle handle => some handle
  | .deadline _ => none

theorem filterMap_handle?_births (acts : List Act) :
    (births acts).filterMap Birth.handle? = List.range (acts.countP Act.makesHandle) := by
  induction acts using List.reverseRecOn with
  | nil => rfl
  | append_singleton before act ih =>
      rw [births_concat, List.filterMap_append, ih, List.countP_append]
      cases act with
      | withCancel parent => exact (List.range_succ (n := before.countP Act.makesHandle)).symm
      | withTimeout parent timeout => exact List.append_nil _
      | withDeadline parent deadline => exact List.append_nil _
      | notify notice => exact List.append_nil _
      | advance duration => exact List.append_nil _

/-- No two contexts are derived with the same handle. -/
theorem births_once {acts : List Act} {first second : Nat} {one two : Birth} {handle : Handle}
    (hone : (births acts)[first]? = some one) (htwo : (births acts)[second]? = some two)
    (hfirst : one.mark = .handle handle) (hsecond : two.mark = .handle handle) :
    first = second := by
  have hdistinct : (births acts).Pairwise fun earlier later =>
      ∀ made, earlier.handle? = some made → ∀ other, later.handle? = some other →
        made ≠ other := by
    refine List.pairwise_filterMap.mp ?_
    rw [filterMap_handle?_births]
    exact List.nodup_range
  have hnot : ∀ {low high : Nat} {earlier later : Birth}, (births acts)[low]? = some earlier →
      (births acts)[high]? = some later → earlier.mark = .handle handle →
      later.mark = .handle handle → ¬ low < high := by
    intro low high earlier later hlow hhigh hearlier hlater hlt
    obtain ⟨hlowLt, rfl⟩ := List.getElem?_eq_some_iff.mp hlow
    obtain ⟨hhighLt, rfl⟩ := List.getElem?_eq_some_iff.mp hhigh
    exact List.pairwise_iff_getElem.mp hdistinct _ _ hlowLt hhighLt hlt handle
      (by simp [Birth.handle?, hearlier]) handle (by simp [Birth.handle?, hlater]) rfl
  have hle := hnot hone htwo hfirst hsecond
  have hge := hnot htwo hone hsecond hfirst
  omega

/-! ## What a parent hands down -/

theorem Mark.deadline_extend_le (mark : Mark) {parent : Context} {own : Instant}
    (hdeadline : parent.deadline = some own) :
    ∃ first, (mark.extend parent).deadline = some first ∧ first ≤ own := by
  cases mark with
  | handle made => exact ⟨own, hdeadline, Nat.le_refl _⟩
  | deadline due =>
      obtain ⟨first, hearlier, -, hparent, -⟩ := Instant.earlier?_spec parent.deadline due
      exact ⟨first, hearlier, hparent own hdeadline⟩

theorem Mark.mem_handles_extend (mark : Mark) {parent : Context} {handle : Handle}
    (hmem : handle ∈ parent.handles) : handle ∈ (mark.extend parent).handles := by
  cases mark with
  | handle made => exact List.mem_append_left _ hmem
  | deadline due => exact hmem

theorem Mark.isDone_extend (mark : Mark) {parent : Context} {handles : Signals} {now : Instant}
    (hdone : parent.isDone handles now = true) :
    (mark.extend parent).isDone handles now = true := by
  rw [Context.isDone_iff] at hdone ⊢
  refine hdone.imp (fun hover => ?_) fun hcanceled => ?_
  · obtain ⟨own, hdeadline, hpassed⟩ := (parent.isOver_iff now).mp hover
    obtain ⟨first, hfirst, hle⟩ := mark.deadline_extend_le hdeadline
    exact (Context.isOver_iff _ now).mpr ⟨first, hfirst, Nat.le_trans hle hpassed⟩
  · obtain ⟨handle, hmem, hfired⟩ := (parent.isCanceled_iff handles).mp hcanceled
    exact (Context.isCanceled_iff _ handles).mpr ⟨handle, mark.mem_handles_extend hmem, hfired⟩

/-! ## Done for good -/

/-- A context that is done stays done while the clock moves on and handles fire. -/
theorem Context.isDone_mono {context : Context} {handles later : Signals} {now target : Instant}
    (hlater : now ≤ target)
    (hfired : ∀ handle, handles.isFired handle = true → later.isFired handle = true)
    (hdone : context.isDone handles now = true) : context.isDone later target = true := by
  rw [isDone_iff] at hdone ⊢
  refine hdone.imp (fun hover => ?_) fun hcanceled => ?_
  · obtain ⟨deadline, hdeadline, hpassed⟩ := (context.isOver_iff now).mp hover
    exact (context.isOver_iff target).mpr ⟨deadline, hdeadline, Nat.le_trans hpassed hlater⟩
  · obtain ⟨handle, hmem, hbefore⟩ := (context.isCanceled_iff handles).mp hcanceled
    exact (context.isCanceled_iff later).mpr ⟨handle, hmem, hfired handle hbefore⟩

namespace World

variable {world after : World} {act : Act} {number : Nat} {context : Context}

/-- An act takes no context away. -/
theorem Steps.contexts_getElem? (hsteps : world.Steps act after)
    (hcontext : world.contexts[number]? = some context) :
    after.contexts[number]? = some context := by
  have hderive : ∀ child, (world.contexts ++ [child])[number]? = some context := by
    intro child
    rw [List.getElem?_append_left (List.getElem?_eq_some_iff.mp hcontext).1, hcontext]
  cases hsteps with
  | withCancel | withTimeout | withDeadline => exact hderive _
  | notify | advance => exact hcontext

/-- An act leaves a context done that is done. -/
theorem Steps.isDone (hsteps : world.Steps act after) (hdone : world.isDone context = true) :
    after.isDone context = true := by
  cases hsteps with
  | withTimeout | withDeadline => exact hdone
  | withCancel =>
      refine Context.isDone_mono (Nat.le_refl _) (fun handle hfired => ?_) hdone
      simpa [derive, Timeline.create] using hfired
  | @notify notice =>
      exact Context.isDone_mono (Nat.le_refl _)
        (fun handle => Signals.isFired_apply_of_isFired _ handle notice) hdone
  | @advance duration =>
      exact Context.isDone_mono (Nat.le_max_left _ _)
        (fun handle => Signals.isFired_applyAll_of_isFired _ handle _) hdone

/-- What holds of a context for good: it is there, and done if it is done. -/
theorem run?_lasting {acts : List Act} (hrun : world.run? acts = some after)
    (hcontext : world.contexts[number]? = some context) :
    after.contexts[number]? = some context ∧
      (world.isDone context = true → after.isDone context = true) := by
  induction acts generalizing world with
  | nil =>
      obtain rfl := Option.some.inj hrun
      exact ⟨hcontext, id⟩
  | cons act rest ih =>
      rw [run?_cons, Option.bind_eq_some_iff] at hrun
      obtain ⟨between, hperform, hrest⟩ := hrun
      have hsteps := perform?_eq_some_iff.mp hperform
      obtain ⟨hthere, hdone⟩ := ih hrest (hsteps.contexts_getElem? hcontext)
      exact ⟨hthere, fun hbefore => hdone (hsteps.isDone hbefore)⟩

end World

/-! ## Cancels and releases -/

namespace Grown

variable {tree : List Birth} {contexts : List Context} {number maker : Nat}

theorem derived_le (hgrown : Grown tree contexts) (hderived : Derived tree maker number) :
    maker ≤ number :=
  hderived.le fun own birth hbirth => (hgrown.grown own birth hbirth).1

/-- A context is not derived from one that is derived from it. -/
theorem not_derived_of_ancestor (hgrown : Grown tree contexts)
    (hancestor : Derived tree number maker) (hne : number ≠ maker) : ¬ Derived tree maker number :=
  fun hderived => hne (Nat.le_antisymm (hgrown.derived_le hancestor) (hgrown.derived_le hderived))

/-- A context is not derived from another one of the same parent. -/
theorem not_derived_of_sibling (hgrown : Grown tree contexts) {birth other : Birth}
    (hbirth : tree[maker]? = some birth) (hother : tree[number]? = some other)
    (hparent : other.parent = birth.parent) (hne : number ≠ maker) :
    ¬ Derived tree (maker + 1) (number + 1) := by
  intro hderived
  cases hderived with
  | self => exact hne rfl
  | child hagain hbelow =>
      obtain rfl := Option.some.inj (hother.symm.trans hagain)
      have hle := hgrown.derived_le hbelow
      have hearlier := (hgrown.grown maker birth hbirth).1
      omega

end Grown

/-- A cancel changes nothing for a context that is not derived with the handle. -/
theorem Kept.isDone_notify_cancel {acts : List Act} {world : World} (hkept : Kept acts world)
    {number maker : Nat} {context : Context} {birth : Birth} {handle : Handle}
    (hcontext : world.contexts[number]? = some context)
    (hbirth : (births acts)[maker]? = some birth) (hmark : birth.mark = .handle handle)
    (hapart : ¬ Derived (births acts) (maker + 1) number)
    (hheld : world.timeline.handles.holds handle = true) :
    (world.notify (.cancel handle)).isDone context = world.isDone context := by
  have hnot : handle ∉ context.handles := by
    rw [hkept.grown.mem_handles_iff hcontext]
    rintro ⟨adder, added, hadded, hother, hderived⟩
    obtain rfl := births_once hadded hbirth hother hmark
    exact hapart hderived
  have hsame : context.isCanceled (world.timeline.handles.apply (.cancel handle)) = true ↔
      context.isCanceled world.timeline.handles = true := by
    simp only [Context.isCanceled_iff]
    refine exists_congr fun other => and_congr_right fun hmem => ?_
    rw [world.timeline.handles.isFired_apply_cancel hheld]
    refine or_iff_left ?_
    rintro rfl
    exact hnot hmem
  rw [Bool.eq_iff_iff, World.isDone, World.isDone, Timeline.isDone, Timeline.isDone,
    Context.isDone_iff, Context.isDone_iff]
  exact or_congr_right hsame

theorem Signals.holds_create (handles : Signals) (handle : Handle) :
    handles.create.2.holds handle = true ↔
      handles.holds handle = true ∨ handle = handles.signals.length := by
  unfold holds create
  rcases Nat.lt_trichotomy handle handles.signals.length with hold | rfl | hnew
  · simp [List.getElem?_append_left hold, Nat.ne_of_lt hold]
  · simp [Signal.quiet]
  · rw [List.getElem?_eq_none (by simp; omega), List.getElem?_eq_none (by omega)]
    simp [Nat.ne_of_gt hnew]

theorem Signals.holds_apply (handles : Signals) (notice : Notice) (handle : Handle) :
    (handles.apply notice).holds handle = true ↔
      handles.holds handle = true ∧ notice ≠ .release handle := by
  rw [holds_iff, holds_iff, length_apply, and_assoc]
  refine and_congr_right fun hmade => ?_
  by_cases hhandle : handle = notice.handle
  · subst hhandle
    rw [handles.signal_apply_self notice hmade]
    cases notice with
    | cancel handle =>
        cases hreleased : (handles.signal handle).released <;> simp [Notice.change, hreleased]
    | release handle => simp [Notice.change]
  · rw [handles.signal_apply_of_ne notice hhandle]
    refine (and_iff_left ?_).symm
    rintro rfl
    exact hhandle rfl

/-- Two worlds that differ in which handles are still held. -/
structure Alike (released held : World) : Prop where
  contexts_eq : released.contexts = held.contexts
  now_eq : released.timeline.now = held.timeline.now
  agenda_eq : released.timeline.agenda = []
  agenda_eq' : held.timeline.agenda = []
  length_eq : released.timeline.handles.signals.length = held.timeline.handles.signals.length
  fired_iff : ∀ handle, released.timeline.handles.isFired handle = true ↔
    held.timeline.handles.isFired handle = true
  holds : ∀ handle, released.timeline.handles.holds handle = true →
    held.timeline.handles.holds handle = true

namespace Alike

variable {released held after : World} {act : Act}

theorem isDone_eq (halike : Alike released held) (context : Context) :
    released.isDone context = held.isDone context := by
  rw [Bool.eq_iff_iff, World.isDone, World.isDone, Timeline.isDone, Timeline.isDone,
    Context.isDone_iff, Context.isDone_iff, halike.now_eq]
  refine or_congr_right ?_
  simp only [Context.isCanceled_iff, halike.fired_iff]

/-- The same context derived in both worlds keeps them alike. -/
theorem derive (halike : Alike released held) (context : Context) :
    Alike (released.derive context) (held.derive context) :=
  { halike with contexts_eq := congrArg (· ++ [context]) halike.contexts_eq }

/-- A notice that can take effect without a handle can do so with it. -/
theorem notify (halike : Alike released held) {notice : Notice}
    (hheld : released.timeline.handles.holds notice.handle = true) :
    Alike (released.notify notice) (held.notify notice) :=
  { halike with
    length_eq := by
      simpa [World.notify, Timeline.apply, Signals.length_apply] using halike.length_eq
    fired_iff := fun handle => by
      cases notice with
      | cancel canceled =>
          have hwithout := released.timeline.handles.isFired_apply_cancel hheld handle
          have hwith := held.timeline.handles.isFired_apply_cancel (halike.holds _ hheld) handle
          exact hwithout.trans ((or_congr_left (halike.fired_iff handle)).trans hwith.symm)
      | release released => simpa [World.notify, Timeline.apply] using halike.fired_iff handle
    holds := fun handle hholds => by
      obtain ⟨hbefore, hother⟩ := (Signals.holds_apply _ notice handle).mp hholds
      exact (Signals.holds_apply _ notice handle).mpr ⟨halike.holds handle hbefore, hother⟩ }

theorem advance (halike : Alike released held) (duration : Duration) :
    Alike (released.advance duration) (held.advance duration) := by
  have hwithout : (released.advance duration).timeline.handles = released.timeline.handles := by
    simp [World.advance, Timeline.advanceTo, halike.agenda_eq]
  have hwith : (held.advance duration).timeline.handles = held.timeline.handles := by
    simp [World.advance, Timeline.advanceTo, halike.agenda_eq']
  exact {
    contexts_eq := halike.contexts_eq
    now_eq := by simp [World.advance, Timeline.advanceTo, halike.now_eq]
    agenda_eq := by simp [World.advance, Timeline.advanceTo, halike.agenda_eq]
    agenda_eq' := by simp [World.advance, Timeline.advanceTo, halike.agenda_eq']
    length_eq := by rw [hwithout, hwith, halike.length_eq]
    fired_iff := by
      rw [hwithout, hwith]
      exact halike.fired_iff
    holds := by
      rw [hwithout, hwith]
      exact halike.holds }

/-- A handle made in both worlds keeps them alike. -/
theorem create (halike : Alike released held) :
    Alike { released with timeline := released.timeline.create.2 }
      { held with timeline := held.timeline.create.2 } :=
  { halike with
    length_eq := by simp [Timeline.create, Signals.create, halike.length_eq]
    fired_iff := fun handle => by simpa [Timeline.create] using halike.fired_iff handle
    holds := fun handle hholds => by
      refine (Signals.holds_create _ handle).mpr ?_
      refine ((Signals.holds_create _ handle).mp hholds).imp (halike.holds handle) fun hnew => ?_
      rw [hnew, halike.length_eq] }

/-- What can be done without a handle can be done with it, to the same effect. -/
theorem step (halike : Alike released held) (hsteps : released.Steps act after) :
    ∃ other, held.Steps act other ∧ Alike after other := by
  have hcontexts := halike.contexts_eq
  cases hsteps with
  | withCancel hparent =>
      rw [halike.length_eq]
      rw [hcontexts] at hparent
      exact ⟨_, .withCancel hparent, halike.create.derive _⟩
  | withTimeout hparent hfits =>
      rw [halike.now_eq] at hfits ⊢
      rw [hcontexts] at hparent
      exact ⟨_, .withTimeout hparent hfits, halike.derive _⟩
  | withDeadline hparent =>
      rw [hcontexts] at hparent
      exact ⟨_, .withDeadline hparent, halike.derive _⟩
  | notify hheld => exact ⟨_, .notify (halike.holds _ hheld), halike.notify hheld⟩
  | advance => exact ⟨_, .advance, halike.advance _⟩

theorem run (halike : Alike released held) {acts : List Act}
    (hrun : released.run? acts = some after) :
    ∃ other, held.run? acts = some other ∧ Alike after other := by
  induction acts generalizing released held with
  | nil =>
      obtain rfl := Option.some.inj hrun
      exact ⟨held, rfl, halike⟩
  | cons act rest ih =>
      rw [World.run?_cons, Option.bind_eq_some_iff] at hrun
      obtain ⟨between, hperform, hrest⟩ := hrun
      obtain ⟨other, hsteps, hbetween⟩ := halike.step (World.perform?_eq_some_iff.mp hperform)
      obtain ⟨last, hlast, hafter⟩ := ih hbetween hrest
      refine ⟨last, ?_, hafter⟩
      rw [World.run?_cons, World.perform?_eq_some_iff.mpr hsteps]
      exact hlast

/-- A release makes no difference but to who holds the handle. -/
theorem of_release {world : World} (hagenda : world.timeline.agenda = []) (handle : Handle) :
    Alike (world.notify (.release handle)) world where
  contexts_eq := rfl
  now_eq := rfl
  agenda_eq := hagenda
  agenda_eq' := hagenda
  length_eq := Signals.length_apply _ _
  fired_iff other := by simp [World.notify, Timeline.apply]
  holds other hholds := ((Signals.holds_apply _ _ other).mp hholds).1

end Alike

/-! ## Whole runs -/

/-- **Contexts propagate cancels and deadlines, and nothing else.**  After any acts, a context is
done exactly if a handle made on the path from the background context to it has been canceled, or
the first deadline set on that path has come; that one is its deadline.  So it stays done; it is
done once its parent is, and its deadline is not later; a cancel changes nothing for the contexts
that are not derived with the handle, ancestors and siblings among them; and when a handle is
released, everything goes on as if it had not been. -/
theorem contexts_propagate {acts : List Act} {world : World}
    (hrun : World.initial.run? acts = some world) {number : Nat} {context : Context}
    (hcontext : world.contexts[number]? = some context) :
    (world.isDone context = true ↔
      (∃ handle, OnPath (births acts) (.handle handle) number ∧
        .notify (.cancel handle) ∈ acts) ∨
      ∃ first, IsLeast {due | OnPath (births acts) (.deadline due) number} first ∧
        first ≤ world.timeline.now) ∧
    (∀ first, context.deadline = some first ↔
      IsLeast {due | OnPath (births acts) (.deadline due) number} first) ∧
    (context.deadline = none ↔ ∀ due, ¬ OnPath (births acts) (.deadline due) number) ∧
    (∀ later after, world.run? later = some after →
      after.contexts[number]? = some context ∧
        (world.isDone context = true → after.isDone context = true)) ∧
    (∀ own birth, number = own + 1 → (births acts)[own]? = some birth →
      ∃ parent, world.contexts[birth.parent]? = some parent ∧
        (world.isDone parent = true → world.isDone context = true) ∧
        ∀ due, parent.deadline = some due → ∃ first, context.deadline = some first ∧ first ≤ due) ∧
    (∀ maker birth handle canceled, (births acts)[maker]? = some birth →
      birth.mark = .handle handle → world.perform? (.notify (.cancel handle)) = some canceled →
      ¬ Derived (births acts) (maker + 1) number ∨
        (Derived (births acts) number (maker + 1) ∧ number ≠ maker + 1) ∨
        (∃ own other, number = own + 1 ∧ (births acts)[own]? = some other ∧
          other.parent = birth.parent ∧ own ≠ maker) →
      canceled.isDone context = world.isDone context) ∧
    ∀ handle released, world.perform? (.notify (.release handle)) = some released →
      ∀ later after, released.run? later = some after →
        ∃ other, world.run? later = some other ∧ after.contexts = other.contexts ∧
          after.isDone context = other.isDone context := by
  have hkept := Kept.of_run hrun
  refine ⟨hkept.isDone_iff hcontext, hkept.grown.deadline_eq_some_iff hcontext,
    hkept.grown.deadline_eq_none_iff hcontext, ?_, ?_, ?_, ?_⟩
  · intro later after hlater
    exact World.run?_lasting hlater hcontext
  · rintro own birth rfl hbirth
    obtain ⟨-, parent, hparent, hextended⟩ := hkept.grown.grown own birth hbirth
    obtain rfl := Option.some.inj (hcontext.symm.trans hextended)
    exact ⟨parent, hparent, birth.mark.isDone_extend, fun due => birth.mark.deadline_extend_le⟩
  · intro maker birth handle canceled hbirth hmark hperform hother
    have hapart : ¬ Derived (births acts) (maker + 1) number := by
      rcases hother with hapart | ⟨hancestor, hne⟩ | ⟨own, other, rfl, hsibling, hparent, hne⟩
      · exact hapart
      · exact hkept.grown.not_derived_of_ancestor hancestor hne
      · exact hkept.grown.not_derived_of_sibling hbirth hsibling hparent hne
    cases World.perform?_eq_some_iff.mp hperform with
    | notify hheld => exact hkept.isDone_notify_cancel hcontext hbirth hmark hapart hheld
  · intro handle released hperform later after hlater
    cases World.perform?_eq_some_iff.mp hperform with
    | notify =>
        obtain ⟨other, hother, halike⟩ := (Alike.of_release hkept.agenda_eq handle).run hlater
        exact ⟨other, hother, halike.contexts_eq, halike.isDone_eq context⟩

/-- A context below two handles and two deadlines; its first handle is released, its second one
canceled. -/
def familyActs : List Act :=
  [.withCancel 0, .withTimeout 1 ⟨5⟩, .withCancel 2, .notify (.release 0), .advance ⟨2⟩,
    .withTimeout 3 ⟨7⟩, .notify (.cancel 1)]

def familyWorld : World where
  timeline := ⟨⟨2⟩, ⟨[⟨false, 0, true⟩, ⟨true, 1, false⟩]⟩, []⟩
  contexts := [.background, ⟨[0], none⟩, ⟨[0], some ⟨5⟩⟩, ⟨[0, 1], some ⟨5⟩⟩, ⟨[0, 1], some ⟨5⟩⟩]

theorem contexts_propagate_familyActs :
    World.initial.run? familyActs = some familyWorld ∧
      familyWorld.contexts[4]? = some ⟨[0, 1], some ⟨5⟩⟩ ∧
      IsLeast {due | OnPath (births familyActs) (.deadline due) 4} ⟨5⟩ ∧
      (familyWorld.isDone ⟨[0, 1], some ⟨5⟩⟩ = true ↔
        (∃ handle, OnPath (births familyActs) (.handle handle) 4 ∧
          .notify (.cancel handle) ∈ familyActs) ∨
        ∃ first, IsLeast {due | OnPath (births familyActs) (.deadline due) 4} first ∧
          first ≤ ⟨2⟩) := by
  have hrun : World.initial.run? familyActs = some familyWorld := by decide
  obtain ⟨hdone, hdeadline, -⟩ := @contexts_propagate familyActs familyWorld hrun 4 _ rfl
  exact ⟨hrun, rfl, (hdeadline ⟨5⟩).mp rfl, hdone⟩

example : familyWorld.contexts.map familyWorld.isDone = [false, false, false, true, true] := by
  decide

end Throttle
