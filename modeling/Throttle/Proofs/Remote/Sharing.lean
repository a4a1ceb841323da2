import Throttle.Proofs.Remote.Interleaving

/-!
# What the clients of one counter are told

Whatever the order in which calls are made, run and answered, the server counts the calls that it
runs on one counter one by one, and a caller who is told a count is told that of its own run.  The
count passes through the arithmetic of the script, which has every whole number up to `2 ^ 53`, but
not the next one: up to there no count is skipped or told twice
(`Traffic.counts_gapless_iff`), and beyond it some are (`Traffic.count_repeats_in_rush`).
-/

namespace Throttle.Remote

open KeySpace

variable {window : Duration} {execution : Execution Binary64} {position : Nat} {expiry : Int}

/-! ## Counts -/

namespace Execution.IsAt

theorem readCount_eq (hat : execution.IsAt position expiry) (hposition : position < twoTo 63)
    (window : Duration) :
    Reply.readCount window execution.reply =
      .ok ⟨(Script.throughQuantity Binary64 (position + 1 : Nat)).toNat,
        Reply.timeLeft (Script.throughQuantity Binary64 (expiry - execution.millis)) window⟩ := by
  have hwords : twoTo 63 < twoTo 64 := by decide
  rw [hat.reply]
  exact Reply.readCount_countReply (Nat.succ_le_succ (Nat.zero_le _)) (by omega) _ window

theorem count?_eq (hat : execution.IsAt position expiry) (hposition : position < twoTo 63) :
    execution.count? window =
      some (Script.throughQuantity Binary64 (position + 1 : Nat)).toNat := by
  unfold count?
  rw [hat.readCount_eq hposition]
  rfl

end Execution.IsAt

/-- Up to `2 ^ 53` a count comes out of a script as it is. -/
theorem toNat_throughQuantity {count : Nat} (hcount : count ≤ twoTo 53) :
    (Script.throughQuantity Binary64 count).toNat = count := by
  rw [Script.throughQuantity_of_le (by simpa using hcount), Int.toNat_natCast]

/-- A count that comes out below `2 ^ 53` is the one that went in. -/
theorem eq_of_toNat_throughQuantity {count told : Nat} (hcount : count ≤ twoTo 64)
    (htold : (Script.throughQuantity Binary64 count).toNat = told) (hsmall : told < twoTo 53) :
    told = count := by
  by_cases hle : count ≤ twoTo 53
  · rw [← htold, toNat_throughQuantity hle]
  · have hlow := Script.le_throughQuantity le_rfl (Nat.le_of_not_le hle) hcount
    omega

/-- The first count that a script cannot hand on. -/
theorem toNat_throughQuantity_beyond :
    (Script.throughQuantity Binary64 (twoTo 53 + 1 : Nat)).toNat = twoTo 53 := by
  decide +kernel

/-- **The counts of a counter have no gap and no repeat** exactly while there are no more of them
than `2 ^ 53`. -/
theorem counts_eq_range_iff {executions : List (Execution Binary64)}
    (hat : ∀ (position : Nat) (execution : Execution Binary64),
      executions[position]? = some execution → execution.IsAt position expiry)
    (hlength : executions.length < twoTo 63) :
    executions.map (·.count? window) = (List.range' 1 executions.length).map some ↔
      executions.length ≤ twoTo 53 := by
  have hcount : ∀ (position : Nat) (hposition : position < executions.length),
      (executions[position]).count? window =
        some (Script.throughQuantity Binary64 (position + 1 : Nat)).toNat :=
    fun position hposition => (hat position _ (List.getElem?_eq_getElem hposition)).count?_eq
      (hposition.trans hlength)
  constructor
  · intro heq
    by_contra! hmany
    have hread := congrArg (·[twoTo 53]?) heq
    simp only [List.getElem?_map, List.getElem?_eq_getElem hmany, Option.map_some,
      hcount _ hmany, toNat_throughQuantity_beyond,
      List.getElem?_range' hmany] at hread
    have := Option.some.inj (Option.some.inj hread)
    omega
  · intro hfew
    refine List.ext_getElem (by simp) fun position hleft hright => ?_
    rw [List.length_map] at hleft
    rw [List.getElem_map, hcount position hleft, toNat_throughQuantity (by omega), List.getElem_map,
      List.getElem_range', Nat.one_mul, Nat.add_comm]

/-! ## Verdicts -/

/-- What a limiter says to the caller of a number, if the caller has been told a count. -/
def Traffic.verdict? (traffic : Traffic Binary64) (limiter : FixedWindow) (index : Nat) :
    Option Verdict :=
  (traffic.count? index).map limiter.judge

/-- Where the verdict at every position is that of a count one higher, those that allow a call have
remaining values from the limit downwards. -/
theorem remaining_sublist {β : Type} {limit : Nat} {verdictOf : β → Option Verdict} {items : List β}
    {start : Nat} (hverdict : ∀ (position : Nat) (item : β), items[position]? = some item →
      ∀ verdict ∈ verdictOf item, verdict.allowed = true →
        start + position < limit ∧ verdict.remaining = limit - (start + position + 1)) :
    (((items.filterMap verdictOf).filter Verdict.allowed).map Verdict.remaining).Sublist
      ((List.range' start (limit - start)).map fun count => limit - (count + 1)) := by
  induction items generalizing start with
  | nil => exact List.nil_sublist _
  | cons item rest ih =>
      have hrest := @ih (start + 1) fun position other hother verdict hverdicts hallowed => by
        have hthen := hverdict (position + 1) other hother verdict hverdicts hallowed
        rw [Nat.add_right_comm start 1, Nat.add_assoc start]
        exact hthen
      have htail : ((List.range' (start + 1) (limit - (start + 1))).map
          fun count => limit - (count + 1)).Sublist
          ((List.range' start (limit - start)).map fun count => limit - (count + 1)) := by
        by_cases hroom : start < limit
        · rw [show limit - start = limit - (start + 1) + 1 by omega, List.range'_succ]
          exact List.sublist_cons_self _ _
        · rw [show limit - (start + 1) = 0 by omega]
          exact List.nil_sublist _
      cases hitem : verdictOf item with
      | none =>
          rw [List.filterMap_cons_none hitem]
          exact hrest.trans htail
      | some verdict =>
          rw [List.filterMap_cons_some hitem]
          cases hallowed : verdict.allowed with
          | false =>
              rw [List.filter_cons_of_neg (by simp [hallowed])]
              exact hrest.trans htail
          | true =>
              obtain ⟨hroom, hremaining⟩ := hverdict 0 item rfl verdict hitem hallowed
              rw [List.filter_cons_of_pos hallowed, List.map_cons, hremaining,
                show limit - start = limit - (start + 1) + 1 by omega, List.range'_succ,
                List.map_cons]
              exact hrest.cons_cons _

/-- Where there is a verdict at every position, the remaining values are all from the limit
downwards. -/
theorem remaining_eq {β : Type} {limit : Nat} {verdictOf : β → Option Verdict} {items : List β}
    {start : Nat} (hverdict : ∀ (position : Nat) (item : β), items[position]? = some item →
      ∃ verdict ∈ verdictOf item, verdict.remaining = limit - (start + position + 1)) :
    (items.filterMap verdictOf).map Verdict.remaining =
      (List.range' start items.length).map fun count => limit - (count + 1) := by
  induction items generalizing start with
  | nil => rfl
  | cons item rest ih =>
      have hrest := @ih (start + 1) fun position other hother => by
        rw [Nat.add_right_comm start 1, Nat.add_assoc start]
        exact hverdict (position + 1) other hother
      obtain ⟨verdict, hitem, hremaining⟩ := hverdict 0 item rfl
      rw [List.filterMap_cons_some hitem, List.map_cons, hrest, hremaining, List.length_cons,
        List.range'_succ, List.map_cons, Nat.add_zero]

/-- What is left of a window is never more than the window. -/
theorem resetAfter_le {reply : Reply} {counted : WindowCount}
    (hread : Reply.readCount window reply = .ok counted) : counted.resetAfter ≤ window := by
  unfold Reply.readCount at hread
  split at hread
  · split_ifs at hread
    obtain rfl := Except.ok.inj hread
    exact Reply.timeLeft_le _ _
  · cases hread
  · cases hread

namespace Traffic

variable {key name : String} {traffic : Traffic Binary64}

/-- A caller who has been told a count has been told that of its own run. -/
theorem Sound.of_count? (hsound : traffic.Sound key name window) {index : Nat}
    {counted : WindowCount} (hcount : traffic.count? index = some counted) :
    ∃ execution ∈ traffic.log, execution.call = index ∧
      Reply.readCount window execution.reply = .ok counted := by
  obtain ⟨call, hcall, htold⟩ := Option.bind_eq_some_iff.mp hcount
  have haccords := hsound.accords index call hcall
  by_contra! hnone
  refine (haccords.unserved fun execution hmem hindex => ?_).told counted htold
  exact hnone execution hmem hindex ((haccords.served execution hmem hindex).told counted htold)

/-- The counter, while it is there, has an expiry. -/
theorem Sound.expiry_isSome (hsound : traffic.Sound key name window) {entry : Entry Binary64}
    (hentry : Script.countCall.stateAt traffic.server.space traffic.millis name = some entry) :
    entry.expiresAt.isSome := by
  rcases hsound.tallied.counts.state with hnone | ⟨count, expiry, -, -, hsome⟩
  · cases hnone.symm.trans hentry
  · obtain rfl := Option.some.inj (hsome.symm.trans hentry)
    rfl

/-- The verdict of a caller whose call has come at some position on a counter. -/
theorem Sound.of_verdict? (hsound : traffic.Sound key name window) (hmem : execution ∈ traffic.log)
    (hat : execution.IsAt position expiry) (hposition : position < twoTo 63) {limiter : FixedWindow}
    {verdict : Verdict} (hverdict : traffic.verdict? limiter execution.call = some verdict) :
    let told := (Script.throughQuantity Binary64 (position + 1 : Nat)).toNat
    verdict.allowed = decide (told ≤ limiter.limit) ∧ verdict.remaining = limiter.limit - told := by
  obtain ⟨counted, hcounted, rfl⟩ := Option.map_eq_some_iff.mp hverdict
  obtain ⟨call, hcall, htold⟩ := Option.bind_eq_some_iff.mp hcounted
  have hread := ((hsound.accords _ call hcall).served execution hmem rfl).told counted htold
  rw [hat.readCount_eq hposition] at hread
  obtain rfl := Except.ok.inj hread
  exact ⟨rfl, rfl⟩

theorem nodup_remaining (limit : Nat) :
    ((List.range' 0 limit).map fun count => limit - (count + 1)).Nodup := by
  refine List.Nodup.map_on (fun count hcount other hother heq => ?_) List.nodup_range'
  rw [List.mem_range'_1] at hcount hother
  omega

/-- The verdicts of the callers whose calls have come on one counter. -/
theorem Sound.verdicts (hsound : traffic.Sound key name window)
    (hcalls : traffic.calls.length < twoTo 63) {first : Execution Binary64}
    {rest : List (Execution Binary64)} (hone : OnOneCounter traffic.log first rest)
    (limiter : FixedWindow)
    (hfew : limiter.limit < twoTo 53 ∨ (first :: rest).length ≤ twoTo 53) :
    let verdicts := (first :: rest).filterMap fun execution =>
      traffic.verdict? limiter execution.call
    let allowed := verdicts.filter Verdict.allowed
    allowed.length ≤ limiter.limit ∧ (allowed.map Verdict.remaining).Nodup ∧
      ((∀ execution ∈ first :: rest, (traffic.verdict? limiter execution.call).isSome) →
        (first :: rest).length ≤ limiter.limit →
        verdicts.map Verdict.remaining =
          (List.range (first :: rest).length).map fun count => limiter.limit - (count + 1)) := by
  intro verdicts allowed
  have hlength : (first :: rest).length < twoTo 63 :=
    (hone.successive.length_le.trans
      (length_le_of_once hsound.numbered hsound.once)).trans_lt hcalls
  have hwords : twoTo 63 < twoTo 64 := by decide
  have htold : ∀ (position : Nat) (execution : Execution Binary64),
      (first :: rest)[position]? = some execution →
      position < (first :: rest).length ∧ ∀ verdict,
        traffic.verdict? limiter execution.call = some verdict →
        let told := (Script.throughQuantity Binary64 (position + 1 : Nat)).toNat
        verdict.allowed = decide (told ≤ limiter.limit) ∧
          verdict.remaining = limiter.limit - told := by
    intro position execution hget
    have hinside := (List.getElem?_eq_some_iff.mp hget).1
    have hmem := hone.successive.mem (List.mem_of_getElem? hget)
    exact ⟨hinside, fun verdict hverdict => hsound.of_verdict? hmem
      (hone.isAt hsound.tallied.counted hsound.tallied.linked hget) (hinside.trans hlength)
      hverdict⟩
  have hallowed : (allowed.map Verdict.remaining).Sublist
      ((List.range' 0 limiter.limit).map fun count => limiter.limit - (count + 1)) := by
    refine remaining_sublist fun position execution hget verdict hverdict hallowed => ?_
    obtain ⟨hinside, hverdicts⟩ := htold position execution hget
    obtain ⟨hdecides, hremaining⟩ := hverdicts verdict hverdict
    rw [hdecides] at hallowed
    have hle := of_decide_eq_true hallowed
    have hcount : (Script.throughQuantity Binary64 (position + 1 : Nat)).toNat = position + 1 := by
      rcases hfew with hlimit | hshort
      · exact eq_of_toNat_throughQuantity (by omega) rfl (hle.trans_lt hlimit)
      · exact toNat_throughQuantity (by omega)
    rw [hcount] at hle hremaining
    rw [Nat.zero_add]
    exact ⟨hle, hremaining⟩
  refine ⟨?_, hallowed.nodup (nodup_remaining _), fun hall hshort => ?_⟩
  · have hle := hallowed.length_le
    rwa [List.length_map, List.length_map, List.length_range'] at hle
  · rw [List.range_eq_range']
    refine remaining_eq fun position execution hget => ?_
    obtain ⟨hinside, hverdicts⟩ := htold position execution hget
    have hcount : position + 1 ≤ twoTo 53 := hfew.elim
      (fun hlimit => (hinside.trans_le hshort).trans_le hlimit.le) hinside.trans_le
    obtain ⟨verdict, hverdict⟩ :=
      Option.isSome_iff_exists.mp (hall execution (List.mem_of_getElem? hget))
    obtain ⟨-, hremaining⟩ := hverdicts verdict hverdict
    rw [toNat_throughQuantity hcount] at hremaining
    refine ⟨verdict, hverdict, ?_⟩
    rw [Nat.zero_add]
    exact hremaining

/-- **Many clients share one counter** as long as it counts no more than `2 ^ 53` calls, in whatever
order calls are made, run and answered and whoever gives up.  What the server holds for the key is
what the last run has left, until it expires; each call is run once at most, and a caller who is
told a count is told that of its own run.  On one counter every run leaves the expiry that the first
has set, a limiter allows no more callers than its limit, each with another remaining value, and
these go down from the limit one by one if all callers are answered. -/
theorem counts_gapless_iff {server : ScriptServer Binary64} {events : List (Event Binary64)}
    (hclients : ∀ client, .send client ∈ events → client.serverKey key = name)
    (hapart : server.space.Apart server.clock name)
    (habsent : Script.countCall.stateAt server.space server.clock name = none)
    (hfirst : ExpiryFits server.clock (millisOf window))
    (hlast : ExpiryFits ((start server).run key window events).millis (millisOf window))
    (hcalls : ((start server).run key window events).calls.length < twoTo 63) :
    let final := (start server).run key window events
    (final.log.map Execution.call).Nodup ∧
    (∀ index counted, final.count? index = some counted → counted.resetAfter ≤ window ∧
      ∃ execution ∈ final.log, execution.call = index ∧
        Reply.readCount window execution.reply = .ok counted) ∧
    (∀ entry, Script.countCall.stateAt final.server.space final.millis name = some entry →
      entry.expiresAt.isSome) ∧
    (∀ execution ∈ final.log.head?, execution.found = none) ∧
    final.log.IsChain Execution.Precedes ∧
    ∀ first rest, OnOneCounter final.log first rest →
      let executions := first :: rest
      (∀ execution ∈ executions, execution.millis ≤ first.millis + millisOf window ∧
        execution.left.bind Entry.expiresAt = some (first.millis + millisOf window)) ∧
      (executions.map (·.count? window) = (List.range' 1 executions.length).map some ↔
        executions.length ≤ twoTo 53) ∧
      ∀ limiter : FixedWindow, limiter.limit < twoTo 53 ∨ executions.length ≤ twoTo 53 →
        let verdicts := executions.filterMap fun execution =>
          final.verdict? limiter execution.call
        let allowed := verdicts.filter Verdict.allowed
        allowed.length ≤ limiter.limit ∧ (allowed.map Verdict.remaining).Nodup ∧
          ((∀ execution ∈ executions, (final.verdict? limiter execution.call).isSome) →
            executions.length ≤ limiter.limit →
            verdicts.map Verdict.remaining =
              (List.range executions.length).map fun count => limiter.limit - (count + 1)) := by
  intro final
  have hsound : final.Sound key name window :=
    sound_run hclients hapart habsent hfirst hlast hcalls
  refine ⟨hsound.once, fun index counted hcount => ?_,
    fun entry hentry => hsound.expiry_isSome hentry, hsound.tallied.first, hsound.tallied.linked,
    fun first rest hone => ?_⟩
  · obtain ⟨execution, hmem, hindex, hread⟩ := hsound.of_count? hcount
    exact ⟨resetAfter_le hread, execution, hmem, hindex, hread⟩
  · have hlength : (first :: rest).length < twoTo 63 := (hone.successive.length_le.trans
      (length_le_of_once hsound.numbered hsound.once)).trans_lt hcalls
    refine ⟨fun execution hmem => ?_, ?_, hsound.verdicts hcalls hone⟩
    · obtain ⟨position, hget⟩ := List.mem_iff_getElem?.mp hmem
      have hat := hone.isAt hsound.tallied.counted hsound.tallied.linked hget
      exact ⟨hat.live, by rw [hat.left]; rfl⟩
    · exact counts_eq_range_iff (fun position execution hget =>
        hone.isAt hsound.tallied.counted hsound.tallied.linked hget) hlength

/-- Three calls of two clients: the second is run first, and the first is given up before its reply
is there. -/
def crossedEvents : List (Event Binary64) :=
  let first := onFreshServer "" none 0
  let second := onFreshServer "" (some (.ofSeconds 1)) 0
  [.send first, .send second, .send first, .execute 1, .pass (.ofSeconds 2), .execute 0, .timeOut 1,
    .cancel 0, .receive 0, .execute 2, .receive 2, .receive 1]

/-- The server counts calls that have been given up, too. -/
theorem counts_gapless_iff_crossedEvents :
    let window : Duration := .ofSeconds 60
    let server : ScriptServer Binary64 := ⟨.empty, 0, [.countCall], []⟩
    let final := (start server).run "k" window crossedEvents
    final.log.map Execution.call = [1, 0, 2] ∧
      (List.range 3).map (fun index => (final.count? index).map WindowCount.count) =
        [none, none, some 3] ∧
      ∃ first rest, OnOneCounter final.log first rest ∧
        (first :: rest).map (·.count? window) = [some 1, some 2, some 3] := by
  intro window server final
  have hclients : ∀ client, .send client ∈ crossedEvents → client.serverKey "k" = "k" := by
    intro client hclient
    simp only [crossedEvents, List.mem_cons, Event.send.injEq, List.not_mem_nil, reduceCtorEq,
      or_false] at hclient
    rcases hclient with rfl | rfl | rfl <;> decide
  have hfirst : ExpiryFits server.clock (millisOf window) := by decide
  have hlast : ExpiryFits final.millis (millisOf window) := by decide +kernel
  have hcalls : final.calls.length < twoTo 63 := by decide +kernel
  obtain ⟨-, -, -, hbegins, -, hcounters⟩ :=
    counts_gapless_iff hclients (apart_empty 0 "k") rfl hfirst hlast hcalls
  have hlength : final.log.length = 3 := by decide +kernel
  obtain ⟨first, rest, hlog⟩ := List.exists_cons_of_length_eq_add_one hlength
  have hfound : ∀ execution ∈ final.log.tail, execution.found.isSome := by decide +kernel
  have hone : OnOneCounter final.log first rest :=
    ⟨hlog ▸ List.infix_rfl, hbegins first (hlog ▸ rfl), fun execution hmem =>
      hfound execution (hlog ▸ hmem)⟩
  obtain ⟨-, hgapless, -⟩ := hcounters first rest hone
  have hcount : (first :: rest).length = 3 := hlog ▸ hlength
  refine ⟨by decide +kernel, by decide +kernel, first, rest, hone, ?_⟩
  rw [hgapless.mpr (hcount.trans_le (by decide)), hcount]
  rfl

/-! ## Beyond the whole numbers of a script -/

/-- So many calls of one client, each of them run before the next is made. -/
def rush (client : Remote Binary64) (number : Nat) : List (Event Binary64) :=
  (List.range number).flatMap fun index => [.send client, .execute index]

theorem rush_succ (client : Remote Binary64) (number : Nat) :
    rush client (number + 1) = rush client number ++ [.send client, .execute number] := by
  unfold rush
  rw [List.range_succ, List.flatMap_append, List.flatMap_singleton]

/-- A rush takes no time, and a server that knows the script runs all of its calls. -/
theorem run_rush {server : ScriptServer Binary64} (hknown : .countCall ∈ server.known)
    (client : Remote Binary64) (number : Nat) :
    let final := (start server).run key window (rush client number)
    final.now = .start ∧ .countCall ∈ final.server.known ∧ final.calls.length = number ∧
      final.log.length = number ∧ ∀ execution ∈ final.log, execution.millis = server.clock := by
  induction number with
  | zero => exact ⟨rfl, hknown, rfl, rfl, nofun⟩
  | succ number ih =>
      have hclock : ((start server).run key window (rush client number)).server.clock =
          server.clock := clock_run (start server) (rush client number)
      rw [rush_succ, run_append]
      revert ih hclock
      generalize (start server).run key window (rush client number) = before
      rintro ⟨hnow, hlearned, hcalls, hlog, htimes⟩ hclock
      have hmillis : before.millis = server.clock := by
        unfold millis ScriptServer.millisAt
        rw [hclock, hnow]
        exact Int.add_zero _
      have hget : (before.step key window (.send client)).calls[number]? =
          some ⟨client, before.now, .request false, none⟩ := by
        change (before.calls ++ [_])[number]? = _
        rw [List.getElem?_append_right hcalls.le, hcalls, Nat.sub_self]
        rfl
      have hstep : before.run key window [.send client, .execute number] =
          (before.step key window (.send client)).execute key window number
            ⟨client, before.now, .request false, none⟩ := by
        change ((before.step key window (.send client)).calls[number]?).elim _ _ = _
        rw [hget]
        rfl
      have htransit : (⟨client, before.now, .request false, none⟩ : Issued Binary64).transit =
          .request false := rfl
      have hsent : .countCall ∈ (before.step key window (.send client)).server.known := hlearned
      rw [hstep, execute_of_known htransit hsent]
      refine ⟨hnow, hlearned, ?_, ?_, fun execution hmem => ?_⟩
      · change ((before.calls ++ [_]).set number _).length = number + 1
        rw [List.length_set, List.length_append, hcalls]
        rfl
      · change (before.log ++ [_]).length = number + 1
        rw [List.length_append, hlog]
        rfl
      · rcases List.mem_append.mp hmem with hbefore | hnew
        · exact htimes execution hbefore
        · obtain rfl := List.mem_singleton.mp hnew
          exact hmillis

/-- The runs of a rush are all on one counter. -/
theorem isSome_found_of_chain {executions : List (Execution Binary64)} {first : Execution Binary64}
    {now : Int} (hchain : (first :: executions).IsChain Execution.Precedes)
    (hcounted : ∀ execution ∈ first :: executions, execution.Counted window)
    (htimes : ∀ execution ∈ first :: executions, execution.millis = now) :
    ∀ execution ∈ executions, execution.found.isSome := by
  induction executions generalizing first with
  | nil => nofun
  | cons second rest ih =>
      obtain ⟨⟨-, hfound⟩, hrest⟩ := List.isChain_cons_cons.mp hchain
      have htail := ih hrest (fun made hmade => hcounted made (List.mem_cons_of_mem _ hmade))
        (fun made hmade => htimes made (List.mem_cons_of_mem _ hmade))
      obtain ⟨count, expiry, -, hlive, hleft, -⟩ :=
        (hcounted first (List.mem_cons_self ..)).left_eq
      rw [htimes first (List.mem_cons_self ..)] at hlive
      intro execution hmem
      rcases List.mem_cons.mp hmem with rfl | hlater
      · have hheld : isLive now (counterEntry count expiry : Entry Binary64) = true :=
          decide_eq_true hlive
        rw [hfound, hleft, htimes execution (List.mem_cons_of_mem _ (List.mem_cons_self ..)),
          Option.filter_some_pos hheld]
        rfl
      · exact htail execution hlater

/-- What a rush of calls leaves in the log. -/
theorem isAt_rush {server : ScriptServer Binary64} {client : Remote Binary64}
    (hclient : client.serverKey key = name) (hapart : server.space.Apart server.clock name)
    (habsent : Script.countCall.stateAt server.space server.clock name = none)
    (hfits : ExpiryFits server.clock (millisOf window)) (hknown : .countCall ∈ server.known)
    {number : Nat} (hnumber : number < twoTo 63) (hposition : position < number) :
    let final := (start server).run key window (rush client number)
    ∃ execution, final.log[position]? = some execution ∧
      execution.IsAt position (server.clock + millisOf window) := by
  intro final
  obtain ⟨hnow, -, hcalls, hlog, htimes⟩ := run_rush hknown client number
  have hmillis : final.millis = server.clock := by
    unfold millis ScriptServer.millisAt
    rw [show final.server.clock = server.clock from clock_run (start server) _, hnow]
    exact Int.add_zero _
  have hclients : ∀ other, .send other ∈ rush client number → other.serverKey key = name := by
    intro other hother
    obtain ⟨index, -, hevent⟩ := List.mem_flatMap.mp hother
    rcases List.mem_cons.mp hevent with hsame | hexecute
    · rwa [Event.send.inj hsame]
    · cases List.mem_singleton.mp hexecute
  have hsound : final.Sound key name window :=
    sound_run hclients hapart habsent hfits (by rwa [hmillis]) (hcalls.trans_lt hnumber)
  obtain ⟨first, rest, hcons⟩ := List.exists_cons_of_ne_nil
    (List.length_pos_iff.mp (hposition.pos.trans_eq hlog.symm))
  have hone : OnOneCounter final.log first rest := by
    refine ⟨hcons ▸ List.infix_rfl, hsound.tallied.first first (hcons ▸ rfl), ?_⟩
    exact isSome_found_of_chain (hcons ▸ hsound.tallied.linked)
      (hcons ▸ hsound.tallied.counted) (hcons ▸ htimes)
  have hinside : position < (first :: rest).length := by
    rw [← hcons]
    exact hposition.trans_eq hlog.symm
  have hat := hone.isAt hsound.tallied.counted hsound.tallied.linked
    (List.getElem?_eq_getElem hinside)
  rw [htimes first (hcons ▸ List.mem_cons_self ..)] at hat
  refine ⟨_, ?_, hat⟩
  rw [show final.log = first :: rest from hcons]
  exact List.getElem?_eq_getElem hinside

/-- The call after the first `2 ^ 53` ones of a rush finds a count one higher than the last of them,
and its caller is told the same. -/
theorem repeats_of_rush {server : ScriptServer Binary64} {client : Remote Binary64}
    (hclient : client.serverKey key = name) (hapart : server.space.Apart server.clock name)
    (habsent : Script.countCall.stateAt server.space server.clock name = none)
    (hfits : ExpiryFits server.clock (millisOf window)) (hknown : .countCall ∈ server.known)
    {number : Nat} (hnumber : number < twoTo 63) (hbeyond : twoTo 53 < number) :
    let final := (start server).run key window (rush client number)
    let expiry := server.clock + millisOf window
    ∃ last beyond, final.log[twoTo 53 - 1]? = some last ∧ final.log[twoTo 53]? = some beyond ∧
      last.left = some (counterEntry (twoTo 53) expiry) ∧
      beyond.left = some (counterEntry (twoTo 53 + 1) expiry) ∧
      last.count? window = some (twoTo 53) ∧ beyond.count? window = some (twoTo 53) := by
  intro final expiry
  have hword : twoTo 53 < twoTo 63 := by decide
  have hone : 1 ≤ twoTo 53 := by decide
  have hrush : ∀ position, position < number →
      ∃ execution, final.log[position]? = some execution ∧ execution.IsAt position expiry :=
    fun _ hposition => isAt_rush hclient hapart habsent hfits hknown hnumber hposition
  obtain ⟨last, hlast, hlastAt⟩ := hrush (twoTo 53 - 1) ((Nat.sub_le _ _).trans_lt hbeyond)
  obtain ⟨beyond, hbeyond, hbeyondAt⟩ := hrush (twoTo 53) hbeyond
  have hlastCount : last.count? window = _ := hlastAt.count?_eq ((Nat.sub_le _ _).trans_lt hword)
  have hbeyondCount : beyond.count? window = _ := hbeyondAt.count?_eq hword
  have hlastLeft := hlastAt.left
  rw [Nat.sub_add_cancel hone] at hlastCount hlastLeft
  rw [toNat_throughQuantity le_rfl] at hlastCount
  rw [toNat_throughQuantity_beyond] at hbeyondCount
  exact ⟨last, beyond, hlast, hbeyond, hlastLeft, hbeyondAt.left, hlastCount, hbeyondCount⟩

/-- The two calls after `2 ^ 53 - 1` calls in a window of a minute, all at the same instant, are
told the same count. -/
theorem count_repeats_in_rush :
    let window : Duration := .ofSeconds 60
    let server : ScriptServer Binary64 := ⟨.empty, 0, [.countCall], []⟩
    let final := (start server).run "k" window (rush (onFreshServer "" none 0) (twoTo 53 + 1))
    ∃ last beyond, final.log[twoTo 53 - 1]? = some last ∧ final.log[twoTo 53]? = some beyond ∧
      last.left = some (counterEntry (twoTo 53) 60000) ∧
      beyond.left = some (counterEntry (twoTo 53 + 1) 60000) ∧
      last.count? window = some (twoTo 53) ∧ beyond.count? window = some (twoTo 53) := by
  intro window server
  have hexpiry : server.clock + (millisOf window : Int) = 60000 := by decide
  have hfits : ExpiryFits server.clock (millisOf window) := by decide
  have hname : (onFreshServer "" none 0 : Remote Binary64).serverKey "k" = "k" := by decide
  have habsent : Script.countCall.stateAt server.space server.clock "k" = none := rfl
  have hknown : .countCall ∈ server.known := List.mem_cons_self ..
  have hnumber : twoTo 53 + 1 < twoTo 63 := by decide
  have hrepeats := repeats_of_rush hname (apart_empty 0 "k") habsent hfits hknown hnumber
    (Nat.lt_succ_self _)
  rw [hexpiry] at hrepeats
  exact hrepeats

end Traffic

end Throttle.Remote
