import Throttle.Proofs.Remote.Run

/-!
# When two keys are independent

A key is kept under three names: its own, and one side name for either script.  The names of
two keys are apart unless one key is the other one with the end of a side name put to it
(`SharesName`), and keys that share no name are independent: a run on both answers the calls of
one key as if those of the other had not been made (`replay_filter_key`).

Keys that share a name are not: it is enough to use one of them and then the other
(`answers_independent_iff`).  The script finds what belongs to one key where it keeps the state
of the other.
-/

namespace Throttle

variable {α : Type}

namespace Remote

/-! ## Names -/

/-- One of two keys is the other one, followed by what a side name ends in. -/
def SharesName (first second : String) : Prop :=
  ∃ script : Script, second = first ++ script.suffix ∨ first = second ++ script.suffix

/-- The names under which a server keeps a key. -/
def Names (remote : Remote α) (key name : String) : Prop :=
  name = remote.serverKey key ∨ ∃ script : Script, name = remote.serverKey key ++ script.suffix

theorem serverKey_inj {remote : Remote α} {first second : String} :
    remote.serverKey first = remote.serverKey second ↔ first = second :=
  String.append_right_inj remote.keyPrefix

theorem serverKey_append (remote : Remote α) (key ending : String) :
    remote.serverKey key ++ ending = remote.serverKey (key ++ ending) :=
  String.append_assoc

/-- The two suffixes are equally long, so that different names stay different before them. -/
theorem eq_of_append_suffix {first second : String} {script other : Script}
    (heq : first ++ script.suffix = second ++ other.suffix) : first = second := by
  have hcharacters := congrArg String.toList heq
  rw [String.toList_append, String.toList_append] at hcharacters
  have hlength : script.suffix.toList.length = other.suffix.toList.length := by
    cases script <;> cases other <;> decide
  exact String.toList_inj.mp (List.append_inj' hcharacters hlength).1

/-- Keys that share no name are kept apart. -/
theorem not_names_of_names {remote : Remote α} {first second name : String}
    (hne : first ≠ second) (hapart : ¬ SharesName first second)
    (hname : remote.Names first name) : ¬ remote.Names second name := by
  rintro (hkey | ⟨other, hside⟩)
  · rcases hname with rfl | ⟨script, rfl⟩
    · exact hne (serverKey_inj.mp hkey)
    · rw [serverKey_append, serverKey_inj] at hkey
      exact hapart ⟨script, Or.inl hkey.symm⟩
  · rcases hname with rfl | ⟨script, rfl⟩
    · rw [serverKey_append, serverKey_inj] at hside
      exact hapart ⟨other, Or.inr hside⟩
    · exact hne (serverKey_inj.mp (eq_of_append_suffix hside))

/-- Over a fresh server, every run on two keys answers the calls of the first one as if those
of the second one had not been made. -/
def Independent (keyPrefix : String) (commandTimeout : Option Duration) (first second : String) :
    Prop :=
  ∀ (clock : Int) (calls : List (Call Binary64)), Chronological calls →
    (∀ call ∈ calls, call.key = first ∨ call.key = second) →
    let remote := onFreshServer keyPrefix commandTimeout clock
    (remote.history calls).filter (fun entry => decide (entry.1.key = first)) =
      remote.history (calls.filter fun call => decide (call.key = first))

/-! ## Keys that share no name -/

variable {remote : Remote α} {clock : Int}

theorem names_targetAt (script : Script) (space : KeySpace α) (now : Int) (key : String) :
    remote.Names key (script.targetAt space now (remote.serverKey key)
      (remote.serverKey key ++ script.suffix)) := by
  rcases script.targetAt_eq_or space now (remote.serverKey key)
    (remote.serverKey key ++ script.suffix) with hkey | hside
  · exact Or.inl hkey
  · exact Or.inr ⟨script, hside⟩

/-- The same is left under the names of a key. -/
def AgreeOn (remote : Remote α) (key : String) (now : Int) (full part : KeySpace α) : Prop :=
  ∀ name, remote.Names key name → full.entryAt now name = part.entryAt now name

variable [Quantity α]

/-- A call leaves alone what is under the names of a key that shares no name with its own. -/
theorem agreeOn_run {key : String} {call : Call α} (hne : key ≠ call.key)
    (hapart : ¬ SharesName key call.key) (space : KeySpace α) (now : Int) :
    remote.AgreeOn key now ((remote.request call).runOn space now).space space := by
  intro name hname
  obtain ⟨arguments, hrequest⟩ := remote.request_eq call
  have hother : name ≠ call.script.targetAt space now (remote.serverKey call.key)
      (remote.serverKey call.key ++ call.script.suffix) := by
    rintro rfl
    exact not_names_of_names hne hapart hname (names_targetAt ..)
  rw [hrequest]
  exact KeySpace.entryAt_of_get?_eq (call.script.get?_run_of_ne arguments space hother) le_rfl

/-- A run on keys that share no name with a key answers its calls as the run of its calls
alone does. -/
theorem replay_filter_key {key : String} {calls : List (Call α)} (hordered : Chronological calls)
    (hapart : ∀ call ∈ calls, call.key = key ∨ ¬ SharesName key call.key)
    {now : Int} (hnow : ∀ call ∈ calls, now ≤ call.millis clock) {full part : KeySpace α}
    (hagree : remote.AgreeOn key now full part) :
    (remote.replay clock full calls).filter (fun entry => decide (entry.1.key = key)) =
      remote.replay clock part (calls.filter fun call => decide (call.key = key)) := by
  refine replay_filter (fun call => decide (call.key = key)) (remote.AgreeOn key) ?_ ?_ ?_
    hordered hapart hnow hagree
  · intro now later full part hlater hagree name hname
    exact KeySpace.entryAt_congr (hagree name hname) hlater
  · intro now full part call _ hkeep hagree
    obtain rfl : call.key = key := of_decide_eq_true hkeep
    obtain ⟨arguments, hrequest⟩ := remote.request_eq call
    rw [hrequest]
    have htarget := call.script.targetAt_congr
      (hagree (remote.serverKey call.key) (Or.inl rfl))
      (hagree (remote.serverKey call.key ++ call.script.suffix) (Or.inr ⟨_, rfl⟩))
    have halike := call.script.run_alike arguments
      ((hagree _ (names_targetAt ..)).trans (congrArg (part.entryAt now) htarget))
    rw [← htarget] at halike
    exact ⟨halike.outcome_eq, fun name hname => halike.entryAt_eq (hagree name hname)⟩
  · intro now full part call hfits hkeep hagree name hname
    have hne : key ≠ call.key := fun heq => of_decide_eq_false hkeep heq.symm
    exact (agreeOn_run hne (hfits.resolve_left hne.symm) full now name hname).trans
      (hagree name hname)

/-! ## A call after calls on other keys -/

section

variable {key : String} {before : List (Call α)} {call : Call α}

omit [Quantity α] in
theorem filter_key_append_singleton (hbefore : ∀ earlier ∈ before, earlier.key ≠ key)
    (hcall : call.key = key) :
    (before ++ [call]).filter (fun call => decide (call.key = key)) = [call] := by
  have hnone : before.filter (fun call => decide (call.key = key)) = [] :=
    List.filter_eq_nil_iff.mpr fun earlier hearlier =>
      of_decide_eq_true.mt (hbefore earlier hearlier)
  rw [List.filter_append, hnone, List.nil_append]
  exact List.filter_cons_of_pos (decide_eq_true hcall)

theorem replay_filter_key_append_singleton (hbefore : ∀ earlier ∈ before, earlier.key ≠ key)
    (hcall : call.key = key) (space : KeySpace α) :
    (remote.replay clock space (before ++ [call])).filter
        (fun entry => decide (entry.1.key = key)) =
      remote.replay clock (remote.spaceAfter clock space before) [call] := by
  have hnone : (remote.replay clock space before).filter
      (fun entry => decide (entry.1.key = key)) = [] :=
    List.filter_eq_nil_iff.mpr fun entry hentry =>
      of_decide_eq_true.mt (hbefore entry.1 (fst_mem_of_mem_replay hentry))
  rw [replay_append, List.filter_append, hnone, List.nil_append]
  exact List.filter_cons_of_pos (decide_eq_true hcall)

end

/-! ## Keys that share a name -/

/-- A call that begins what a script keeps for a key, or finds it begun. -/
def probe (script : Script) (key : String) : Call Binary64 where
  moment := ⟨.start, ⟨0⟩, none⟩
  operation := match script with
    | .countCall => .increment key (.ofMillis 1000)
    | .takeToken => .take key (Binary64.ofInt 1) 1

/-- The arguments of a probe's request. -/
def probeArguments : Script → List String
  | .countCall => ["1000"]
  | .takeToken => ["1", "1", "0"]

/-- A probe that begins. -/
def beginning (script : Script) : ScriptRun Binary64 :=
  script.run .empty 0 ["k", "side"] (probeArguments script)

/-- A probe that finds what the one before it has begun. -/
def continuation (script : Script) : ScriptRun Binary64 :=
  script.run (beginning script).space 0 ["k", "side"] (probeArguments script)

section

variable {remote : Remote Binary64} {space : KeySpace Binary64} {script : Script}
  {key side : String}

/-- What the probes of a script use and leave, by evaluation. -/
theorem probes_eval (script : Script) :
    script.targetAt (.empty : KeySpace Binary64) 0 "k" "side" = "k" ∧
      script.targetAt (beginning script).space 0 "k" "side" = "k" ∧
      ((beginning script).space.entryAt 0 "k").isSome = true ∧
      ((beginning script).space.live 0).typeOf "k" = script.own := by
  cases script <;> decide +kernel

theorem request_probe (remote : Remote Binary64) (script : Script) (key : String) :
    remote.request (probe script key) = ⟨script,
      [remote.serverKey key, remote.serverKey key ++ script.suffix], probeArguments script⟩ := by
  have harguments : [Quantity.text (Binary64.ofInt 1), Decimal.wholeText 1,
      Quantity.text ((⟨0⟩ : WallTime).inSeconds : Binary64)] = ["1", "1", "0"] := by
    decide +kernel
  have hwindow : [Decimal.wholeText (windowMillis (.ofMillis 1000))] = ["1000"] := by
    decide +kernel
  cases script with
  | countCall => exact congrArg (Evaluation.mk _ _) hwindow
  | takeToken => exact congrArg (Evaluation.mk _ _) harguments

theorem serve_probe (remote : Remote Binary64) (space : KeySpace Binary64) (script : Script)
    (key : String) :
    remote.serve 0 space (probe script key) =
      let run := script.run space 0 [remote.serverKey key, remote.serverKey key ++ script.suffix]
        (probeArguments script)
      ((probe script key).outcome (run.answer .start), run.space) := by
  have hdone : (probe script key).moment.isDone = false := rfl
  have hmillis : (probe script key).millis 0 = 0 := by
    simp [Call.millis, Instant.serverMillis, probe, Instant.start]
  unfold serve Evaluation.runOn
  rw [request_probe, hdone, hmillis]
  rfl

theorem run_probe_of_missing
    (hmissing : space.entryAt 0 (script.targetAt space 0 key side) = none) :
    let run := script.run space 0 [key, side] (probeArguments script)
    run.outcome = (beginning script).outcome ∧
      run.space.entryAt 0 (script.targetAt space 0 key side) =
        (beginning script).space.entryAt 0 "k" := by
  obtain ⟨htarget, -⟩ := probes_eval script
  have hsame : space.entryAt 0 (script.targetAt space 0 key side) =
      (.empty : KeySpace Binary64).entryAt 0
        (script.targetAt (.empty : KeySpace Binary64) 0 "k" "side") := hmissing
  have halike := script.run_alike (probeArguments script) hsame
  rw [htarget] at halike
  exact ⟨halike.outcome_eq, KeySpace.entryAt_of_get? halike.parallel.held_eq⟩

theorem run_probe_of_begun (hbegun : space.entryAt 0 (script.targetAt space 0 key side) =
      (beginning script).space.entryAt 0 "k") :
    (script.run space 0 [key, side] (probeArguments script)).outcome =
      (continuation script).outcome := by
  obtain ⟨-, htarget, -⟩ := probes_eval script
  have hsame : space.entryAt 0 (script.targetAt space 0 key side) =
      (beginning script).space.entryAt 0
        (script.targetAt (beginning script).space 0 "k" "side") := by
    rw [hbegun, htarget]
  exact (script.run_alike (probeArguments script) hsame).outcome_eq

/-- The caller of a probe can tell whether it has begun anything. -/
theorem outcome_probe_ne (script : Script) (key : String) :
    (probe script key).outcome ((beginning script).answer .start) ≠
      (probe script key).outcome ((continuation script).answer .start) := by
  have hkey : ∀ answer, (probe script key).outcome answer = (probe script "k").outcome answer :=
    fun answer => by cases script <;> rfl
  rw [hkey, hkey]
  intro heq
  cases script with
  | countCall =>
      have hcount := congrArg (fun outcome => (outcome.count?).map WindowCount.count) heq
      revert hcount
      decide +kernel
  | takeToken =>
      have htake := congrArg (fun outcome => (outcome.take?).map TokenTake.allowed) heq
      revert htake
      decide +kernel

theorem begun_ne_none (script : Script) : (beginning script).space.entryAt 0 "k" ≠ none := by
  obtain ⟨-, -, hbegun, -⟩ := probes_eval script
  exact Option.isSome_iff_ne_none.mp hbegun

theorem typeOf_begun {name : String}
    (hbegun : space.entryAt 0 name = (beginning script).space.entryAt 0 "k") :
    (space.live 0).typeOf name = script.own := by
  obtain ⟨-, -, -, htype⟩ := probes_eval script
  exact (KeySpace.typeOf_congr hbegun).trans htype

/-- A probe that finds nothing begins, and leaves the other names alone. -/
theorem serve_probe_of_missing (remote : Remote Binary64) (space : KeySpace Binary64)
    (script : Script) (key : String) {name : String}
    (htarget : script.targetAt space 0 (remote.serverKey key)
      (remote.serverKey key ++ script.suffix) = name)
    (hmissing : space.entryAt 0 name = none) :
    let left := (remote.serve 0 space (probe script key)).2
    left.entryAt 0 name = (beginning script).space.entryAt 0 "k" ∧
      ∀ other, other ≠ name → left.entryAt 0 other = space.entryAt 0 other := by
  intro left
  subst htarget
  have hleft : left = (script.run space 0 [remote.serverKey key,
      remote.serverKey key ++ script.suffix] (probeArguments script)).space := by
    simp only [left, serve_probe]
  rw [hleft]
  refine ⟨(run_probe_of_missing hmissing).2, fun other hother => ?_⟩
  exact KeySpace.entryAt_of_get?_eq (script.get?_run_of_ne (probeArguments script) space hother)
    le_rfl

end

theorem entryAt_empty (name : String) :
    (KeySpace.empty : KeySpace Binary64).entryAt 0 name = none := rfl

/-- A key with the end of a side name begins what the script then finds beside the key without
it. -/
theorem begun_beside (remote : Remote Binary64) (script : Script) (key : String) :
    let space := remote.spaceAfter 0 .empty [probe script (key ++ script.suffix)]
    space.entryAt 0 (script.targetAt space 0 (remote.serverKey key)
      (remote.serverKey key ++ script.suffix)) = (beginning script).space.entryAt 0 "k" := by
  intro space
  obtain ⟨hbegun, -⟩ := serve_probe_of_missing remote .empty script (key ++ script.suffix)
    (Script.targetAt_of_missing (entryAt_empty _) (entryAt_empty _)) (entryAt_empty _)
  rw [← serverKey_append] at hbegun
  have hside : space.entryAt 0 (remote.serverKey key ++ script.suffix) ≠ none :=
    fun hnone => begun_ne_none script (hbegun.symm.trans hnone)
  rw [Script.targetAt_of_side hside]
  exact hbegun

/-- Where the other script has begun under a key, a script begins beside it, and finds that under
the key with the end of its side name. -/
theorem begun_under (remote : Remote Binary64) (script : Script) (key : String) :
    let space := remote.spaceAfter 0 .empty [probe script.other key, probe script key]
    space.entryAt 0 (script.targetAt space 0 (remote.serverKey (key ++ script.suffix))
      (remote.serverKey (key ++ script.suffix) ++ script.suffix)) =
        (beginning script).space.entryAt 0 "k" := by
  intro space
  have hother := serve_probe_of_missing remote .empty script.other key
    (Script.targetAt_of_missing (entryAt_empty _) (entryAt_empty _)) (entryAt_empty _)
  generalize hbetween : (remote.serve 0 .empty (probe script.other key)).2 = between at hother
  obtain ⟨hbegun, hothers⟩ := hother
  have hforeign : (between.live 0).typeOf (remote.serverKey key) ≠ script.own := by
    rw [typeOf_begun hbegun]
    exact script.own_other_ne
  have hpresent : between.entryAt 0 (remote.serverKey key) ≠ none :=
    fun hnone => begun_ne_none script.other (hbegun.symm.trans hnone)
  obtain ⟨hbeside, hrest⟩ := serve_probe_of_missing remote between script key
    (Script.targetAt_of_foreign hpresent hforeign)
    ((hothers _ (script.append_suffix_ne _)).trans (entryAt_empty _))
  have hspace : space = (remote.serve 0 between (probe script key)).2 := by
    rw [← hbetween]
    rfl
  rw [← hspace, serverKey_append] at hbeside
  -- nothing stands beside the longer key: neither probe has used that name
  have hside : space.entryAt 0 (remote.serverKey (key ++ script.suffix) ++ script.suffix) =
      none := by
    have hkey : remote.serverKey (key ++ script.suffix) ++ script.suffix ≠
        remote.serverKey key := by
      intro heq
      rw [serverKey_append, serverKey_inj, String.append_assoc] at heq
      have hnone := String.append_eq_left_iff.mp heq
      cases script <;> exact absurd hnone (by decide)
    have hbeside' : remote.serverKey (key ++ script.suffix) ++ script.suffix ≠
        remote.serverKey key ++ script.suffix := by
      rw [← remote.serverKey_append key]
      exact script.append_suffix_ne _
    rw [hspace, hrest _ hbeside', hothers _ hkey, entryAt_empty]
  rw [Script.targetAt_of_own (Or.inr (typeOf_begun hbeside)) hside]
  exact hbeside

/-- Of two keys that share a name, the second one can be used so that a script finds its state
for the first one begun. -/
theorem exists_begun (remote : Remote Binary64) {first second : String}
    (hshares : SharesName first second) :
    ∃ (script : Script) (before : List Script),
      let space := remote.spaceAfter 0 .empty (before.map fun script => probe script second)
      space.entryAt 0 (script.targetAt space 0 (remote.serverKey first)
        (remote.serverKey first ++ script.suffix)) = (beginning script).space.entryAt 0 "k" := by
  rcases hshares with ⟨script, rfl | rfl⟩
  · exact ⟨script, [script], begun_beside remote script first⟩
  · exact ⟨script, [script.other, script], begun_under remote script second⟩

theorem serve_probe_ne {remote : Remote Binary64} {space : KeySpace Binary64} {script : Script}
    {key : String}
    (hbegun : space.entryAt 0 (script.targetAt space 0 (remote.serverKey key)
      (remote.serverKey key ++ script.suffix)) = (beginning script).space.entryAt 0 "k") :
    (remote.serve 0 space (probe script key)).1 ≠
      (remote.serve 0 .empty (probe script key)).1 := by
  have hmissing : (KeySpace.empty : KeySpace Binary64).entryAt 0
      (script.targetAt (.empty : KeySpace Binary64) 0 (remote.serverKey key)
        (remote.serverKey key ++ script.suffix)) = none := rfl
  simp only [serve_probe]
  rw [ScriptRun.answer_congr (run_probe_of_begun hbegun),
    ScriptRun.answer_congr (run_probe_of_missing hmissing).1]
  exact (outcome_probe_ne script key).symm

/-- A key is not independent of one whose use begins what a script keeps for it. -/
theorem answers_depend {remote : Remote Binary64} (hserves : remote.Serves 0 .empty .start)
    {first second : String} (hne : first ≠ second) {script : Script} {before : List Script}
    (hbegun : let space := remote.spaceAfter 0 .empty (before.map fun script => probe script second)
      space.entryAt 0 (script.targetAt space 0 (remote.serverKey first)
        (remote.serverKey first ++ script.suffix)) = (beginning script).space.entryAt 0 "k") :
    ¬ ∀ calls : List (Call Binary64), Chronological calls →
      (∀ call ∈ calls, call.key = first ∨ call.key = second) →
      (remote.history calls).filter (fun entry => decide (entry.1.key = first)) =
        remote.history (calls.filter fun call => decide (call.key = first)) := by
  intro hindependent
  have hprobe : (probe script first).key = first := by cases script <;> rfl
  have hbefore : ∀ call ∈ before.map fun script => probe script second,
      call.key = second ∧ call.moment.now = .start := by
    intro call hcall
    obtain ⟨script, -, rfl⟩ := List.mem_map.mp hcall
    cases script <;> exact ⟨rfl, rfl⟩
  generalize before.map (fun script => probe script second) = before at hbegun hbefore
  have hcalls : ∀ call ∈ before ++ [probe script first],
      (call.key = first ∨ call.key = second) ∧ call.moment.now = .start := by
    intro call hcall
    rcases List.mem_append.mp hcall with hmem | hmem
    · exact ⟨Or.inr (hbefore call hmem).1, (hbefore call hmem).2⟩
    · obtain rfl := List.mem_singleton.mp hmem
      exact ⟨Or.inl hprobe, rfl⟩
  have hordered : Chronological (before ++ [probe script first]) :=
    List.pairwise_of_forall_mem_list fun earlier hearlier later hlater => by
      rw [(hcalls earlier hearlier).2, (hcalls later hlater).2]
      exact Nat.le_refl _
  have hothers : ∀ call ∈ before, call.key ≠ first := fun call hcall heq =>
    hne (heq.symm.trans (hbefore call hcall).1)
  have hsame := hindependent _ hordered fun call hcall => (hcalls call hcall).1
  rw [filter_key_append_singleton hothers hprobe,
    hserves.history_eq hordered fun _ _ => Nat.zero_le _,
    hserves.history_eq (List.pairwise_singleton ..) fun _ _ => Nat.zero_le _,
    replay_filter_key_append_singleton hothers hprobe, replay_cons, replay_cons] at hsame
  exact serve_probe_ne hbegun (congrArg Prod.snd (List.head_eq_of_cons_eq hsame))

/-- **Two keys are independent if and only if they share no name**, that is, neither is the other
one followed by what a side name ends in; or if the store waits for no answer at all. -/
theorem answers_independent_iff (keyPrefix : String) (commandTimeout : Option Duration)
    {first second : String} (hne : first ≠ second) :
    Independent keyPrefix commandTimeout first second ↔
      ¬ SharesName first second ∨ commandTimeout = some .zero := by
  by_cases htimeout : commandTimeout = some .zero
  · subst htimeout
    refine ⟨fun _ => Or.inr rfl, fun _ clock calls hordered _ => ?_⟩
    exact (hurried_onFreshServer keyPrefix clock).history_filter hordered
      (fun _ _ => Nat.zero_le _) fun call => decide (call.key = first)
  rw [or_iff_left htimeout]
  constructor
  · intro hindependent hshares
    obtain ⟨script, before, hbegun⟩ :=
      exists_begun (onFreshServer keyPrefix commandTimeout 0) hshares
    exact answers_depend (serves_onFreshServer keyPrefix htimeout 0) hne hbegun (hindependent 0)
  · intro hapart clock calls hordered hkeys remote
    have hserves : remote.Serves clock .empty .start :=
      serves_onFreshServer keyPrefix htimeout clock
    have hkept : ∀ call ∈ calls.filter fun call => decide (call.key = first),
        Instant.start ≤ call.moment.now := fun _ _ => Nat.zero_le _
    rw [hserves.history_eq hordered fun _ _ => Nat.zero_le _,
      hserves.history_eq (hordered.sublist List.filter_sublist) hkept]
    refine replay_filter_key hordered ?_ (fun call _ => call.le_millis clock) (fun _ _ => rfl)
    intro call hcall
    refine (hkeys call hcall).imp_right fun hsecond => ?_
    rwa [hsecond]

theorem answers_independent_iff_bucketName :
    "k" ≠ "k:token_bucket" ∧ ¬ Independent "" none "k" "k:token_bucket" ∧
      "k" ≠ "token_bucket" ∧ Independent "" none "k" "token_bucket" := by
  refine ⟨by decide, ?_, by decide, ?_⟩
  · rw [answers_independent_iff "" none (by decide : "k" ≠ "k:token_bucket")]
    rintro (hapart | htimeout)
    · exact hapart ⟨.takeToken, Or.inl (by decide)⟩
    · cases htimeout
  · rw [answers_independent_iff "" none (by decide : "k" ≠ "token_bucket")]
    refine Or.inl ?_
    rintro ⟨script, hside⟩
    cases script <;> exact absurd hside (by decide)

/-- The first call on a key is counted as the second one of the counter beside it. -/
theorem count_depends_on_key_of_side_name :
    let remote : Remote Binary64 := onFreshServer "" none 0
    let onSideName : Call Binary64 :=
      ⟨⟨.start, ⟨0⟩, none⟩, .increment "k:fixed_window" (.ofMillis 60000)⟩
    let onKey : Call Binary64 := ⟨⟨.start, ⟨0⟩, none⟩, .increment "k" (.ofMillis 60000)⟩
    let counts (entries : List (Call Binary64 × Outcome Binary64)) : List (Option Nat) :=
      (entries.filter fun entry => decide (entry.1.key = "k")).map fun entry =>
        entry.2.count?.map WindowCount.count
    counts (remote.history [onSideName, onKey]) = [some 2] ∧
      counts (remote.history [onKey]) = [some 1] := by
  decide +kernel

end Remote

end Throttle
