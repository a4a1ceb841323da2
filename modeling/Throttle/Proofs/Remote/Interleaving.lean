import Throttle.Proofs.Remote.Clients

/-!
# One counter for many clients

The server runs one script after another, so whatever its clients do, each execution finds the
counter as the one before has left it.  What can be said of a run at any point is `Sound`: the log
is a chain of executions, every call is in it at most once, and a client who has an answer has that
of its own call.  `sound_run` gets it from the single events.
-/

namespace Throttle.Remote

open KeySpace

/-! ## One execution -/

/-- What the server does for a call: it begins a counter that lasts as long as the window, or it
adds one to a counter and leaves its expiry. -/
inductive Execution.Counted (window : Duration) : Execution Binary64 → Prop
  | began (call : Nat) (millis : Int) : Counted window ⟨call, millis, none,
      countReply Binary64 1 (millisOf window), some (counterEntry 1 (millis + millisOf window))⟩
  | added (call : Nat) (millis : Int) {count : Nat} {expiry : Int} (hpositive : 1 ≤ count)
      (hlive : millis ≤ expiry) : Counted window ⟨call, millis, some (counterEntry count expiry),
      countReply Binary64 (count + 1) (expiry - millis), some (counterEntry (count + 1) expiry)⟩

/-- The second of two executions finds what the first has left, unless that has expired. -/
def Execution.Precedes (earlier later : Execution Binary64) : Prop :=
  earlier.millis ≤ later.millis ∧ later.found = earlier.left.filter (isLive later.millis)

variable {space : KeySpace Binary64} {now : Int} {name : String} {window : Duration} {most : Nat}

/-- A window in range is counted, whatever the server holds for the key. -/
theorem Counts.execution (hcounts : Counts space now name most) (hmost : most + 1 < twoTo 63)
    (hfits : ExpiryFits now (millisOf window)) (index : Nat) :
    let run := Script.countRun space now name window
    Counts run.space now name (most + 1) ∧
      Execution.Counted window ⟨index, now, Script.countCall.stateAt space now name, run.reply,
        Script.countCall.stateAt run.space now name⟩ := by
  intro run
  have hwords : twoTo 63 < twoTo 64 := by decide
  have hword : millisOf window < twoTo 63 := by exact_mod_cast hfits.1.2
  have hsent : windowMillis window = millisOf window := Nat.mod_eq_of_lt (hword.trans hwords)
  have hlong : 0 < millisOf window := Nat.le_max_right _ _
  rcases hcounts.state with habsent | ⟨count, expiry, hpositive, hle, hpresent⟩
  · obtain ⟨hafter, hcases⟩ := Script.countRun_of_absent hcounts.apart habsent window
    rw [hsent] at hcases
    rcases hcases with ⟨hunfit, -⟩ | ⟨-, hzero, -⟩ | ⟨-, -, hreply, hstate⟩
    · exact absurd hfits hunfit
    · exact absurd hzero hlong.ne'
    · refine ⟨⟨hafter, Or.inr ⟨1, _, le_rfl, Nat.succ_le_succ (Nat.zero_le _), hstate⟩⟩, ?_⟩
      rw [habsent, hstate, ScriptRun.reply, hreply]
      exact .began index now
  · obtain ⟨hafter, hreply, hstate⟩ :=
      Script.countRun_of_present hcounts.apart hpresent hpositive (by omega) window
    have hlive := Script.le_of_stateAt hcounts.apart hpresent
    refine ⟨⟨hafter, Or.inr ⟨count + 1, expiry, by omega, by omega, hstate⟩⟩, ?_⟩
    rw [hpresent, hstate, ScriptRun.reply, hreply]
    exact .added index now hpositive hlive

/-- What an execution leaves, and its reply. -/
theorem Execution.Counted.left_eq {execution : Execution Binary64}
    (hcounted : execution.Counted window) :
    ∃ count expiry, 1 ≤ count ∧ execution.millis ≤ expiry ∧
      execution.left = some (counterEntry count expiry) ∧
      execution.reply = countReply Binary64 count (expiry - execution.millis) := by
  cases hcounted with
  | began call millis =>
      refine ⟨1, millis + millisOf window, le_rfl, ?_, rfl, ?_⟩
      · exact Int.le_add_of_nonneg_right (Int.natCast_nonneg _)
      · rw [add_sub_cancel_left]
  | added call millis hpositive hlive =>
      exact ⟨_, _, Nat.succ_le_succ (Nat.zero_le _), hlive, rfl, rfl⟩

/-! ## What callers are told -/

/-- A call that the server has run: its reply is on its way, or has been read if at all. -/
structure Issued.Served (window : Duration) (call : Issued Binary64)
    (execution : Execution Binary64) : Prop where
  transit : call.transit = .nothing ∨ ∃ isSecond, call.transit = .reply isSecond execution.reply
  told : ∀ counted, call.count? = some counted →
    Reply.readCount window execution.reply = .ok counted

/-- A call that the server has not run: nothing has been counted for its caller. -/
structure Issued.Unserved (call : Issued Binary64) : Prop where
  transit : ∀ isSecond reply, call.transit = .reply isSecond reply →
    reply = ScriptServer.missingScript
  told : ∀ counted, call.count? ≠ some counted

variable {call : Issued Binary64} {execution : Execution Binary64} {ending : Ending}

theorem Issued.of_count?_concludeWith {counted : WindowCount}
    (hcount : (call.concludeWith window ending).count? = some counted) :
    call.count? = some counted ∨ (call.answerAt window ending).outcome = .ok counted := by
  unfold concludeWith count? at hcount
  unfold count?
  cases hanswer : call.answer? with
  | some answer =>
      rw [hanswer] at hcount
      exact Or.inl hcount
  | none =>
      rw [hanswer, Option.none_or, Option.bind_some] at hcount
      refine Or.inr ?_
      cases houtcome : (call.answerAt window ending).outcome with
      | ok value =>
          rw [houtcome] at hcount
          exact congrArg Except.ok (Option.some.inj hcount)
      | error failure =>
          rw [houtcome] at hcount
          cases hcount

theorem Issued.Served.concludeWith (hserved : call.Served window execution)
    (hread : ∀ counted, (call.answerAt window ending).outcome = .ok counted →
      Reply.readCount window execution.reply = .ok counted) :
    (call.concludeWith window ending).Served window execution :=
  ⟨hserved.transit, fun counted hcount =>
    (of_count?_concludeWith hcount).elim (hserved.told counted) (hread counted)⟩

theorem Issued.Unserved.concludeWith (hunserved : call.Unserved)
    (hread : ∀ counted, (call.answerAt window ending).outcome ≠ .ok counted) :
    (call.concludeWith window ending).Unserved :=
  ⟨hunserved.transit, fun counted hcount =>
    (of_count?_concludeWith hcount).elim (hunserved.told counted) (hread counted)⟩

/-- A caller who reads the reply is told what it says. -/
theorem Issued.answerAt_reply (hcounted : execution.Counted window) (time : Instant) :
    let ending := Ending.delivered ⟨time, .reply execution.reply⟩
    wantsScript ending = none ∧ ∀ counted, (call.answerAt window ending).outcome = .ok counted →
      Reply.readCount window execution.reply = .ok counted := by
  obtain ⟨count, expiry, -, -, -, hreply⟩ := hcounted.left_eq
  have herror : execution.reply.firstError? = none := by rw [hreply]; rfl
  intro ending
  have hconclude : conclude call.client.commandTimeout call.sentAt ending =
      ⟨.ok execution.reply, time⟩ := by
    unfold ending conclude
    simp only [herror]
  refine ⟨by unfold ending wantsScript; simp only [herror], fun counted hanswer => ?_⟩
  unfold Issued.answerAt readAnswer at hanswer
  rw [hconclude] at hanswer
  cases hread : Reply.readCount window execution.reply with
  | ok value =>
      simp only [hread] at hanswer
      exact congrArg Except.ok (Except.ok.inj hanswer)
  | error fault =>
      simp only [hread] at hanswer
      cases hanswer

/-- A call of some number and the log agree on what the server has done for it. -/
structure Issued.Accords (window : Duration) (log : List (Execution Binary64)) (index : Nat)
    (call : Issued Binary64) : Prop where
  served : ∀ execution ∈ log, execution.call = index → call.Served window execution
  unserved : (∀ execution ∈ log, execution.call ≠ index) → call.Unserved

/-- The server has not run a call while its request is on its way. -/
theorem Issued.Accords.waiting {log : List (Execution Binary64)} {index : Nat}
    (haccords : call.Accords window log index)
    (htransit : (∃ isSecond, call.transit = .request isSecond) ∨ call.transit = .script) :
    ∀ execution ∈ log, execution.call ≠ index := by
  intro execution hmem hindex
  rcases (haccords.served execution hmem hindex).transit with hnothing | ⟨_, hreply⟩
  · rw [hnothing] at htransit
    rcases htransit with ⟨_, hrequest⟩ | hscript
    · cases hrequest
    · cases hscript
  · rw [hreply] at htransit
    rcases htransit with ⟨_, hrequest⟩ | hscript
    · cases hrequest
    · cases hscript

/-- A server that runs no call twice has not run more calls than there are. -/
theorem length_le_of_once {log : List (Execution Binary64)} {number : Nat}
    (hnumbered : ∀ execution ∈ log, execution.call < number)
    (honce : (log.map Execution.call).Nodup) : log.length ≤ number := by
  have hnumbers : log.map Execution.call ⊆ List.range number := by
    intro index hindex
    obtain ⟨execution, hmem, rfl⟩ := List.mem_map.mp hindex
    exact List.mem_range.mpr (hnumbered execution hmem)
  have hle := (List.subperm_of_subset honce hnumbers).length_le
  rwa [List.length_map, List.length_range] at hle

/-! ## What holds all the time -/

namespace Traffic

/-- What the server holds for the key is what the log says. -/
structure Tallied (name : String) (window : Duration) (traffic : Traffic Binary64) : Prop where
  counts : Counts traffic.server.space traffic.millis name traffic.log.length
  state : Script.countCall.stateAt traffic.server.space traffic.millis name =
    (traffic.log.getLast?.bind Execution.left).filter (isLive traffic.millis)
  counted : ∀ execution ∈ traffic.log, execution.Counted window
  passed : ∀ execution ∈ traffic.log, execution.millis ≤ traffic.millis
  first : ∀ execution ∈ traffic.log.head?, execution.found = none
  linked : traffic.log.IsChain Execution.Precedes

/-- What holds of a server and the calls of its clients, whatever has happened. -/
structure Sound (key name : String) (window : Duration) (traffic : Traffic Binary64) : Prop where
  tallied : traffic.Tallied name window
  clients : ∀ call ∈ traffic.calls, call.client.serverKey key = name
  numbered : ∀ execution ∈ traffic.log, execution.call < traffic.calls.length
  once : (traffic.log.map Execution.call).Nodup
  accords : ∀ (index : Nat) (call : Issued Binary64), traffic.calls[index]? = some call →
    call.Accords window traffic.log index

variable {key : String} {traffic : Traffic Binary64} {index : Nat}

theorem millis_start (server : ScriptServer Binary64) :
    (Traffic.start server).millis = server.clock := by
  change server.clock + ((0 / nanosPerMilli : Nat) : Int) = server.clock
  rw [Nat.zero_div, Int.natCast_zero, Int.add_zero]

namespace Tallied

theorem start {server : ScriptServer Binary64} (hapart : server.space.Apart server.clock name)
    (habsent : Script.countCall.stateAt server.space server.clock name = none) :
    (Traffic.start server).Tallied name window := by
  refine ⟨⟨?_, Or.inl ?_⟩, ?_, nofun, nofun, nofun, .nil⟩
  · rwa [millis_start]
  · rwa [millis_start]
  · rw [millis_start]
    exact habsent

/-- Time passes, and the server may be sent a script. -/
theorem later (htallied : traffic.Tallied name window) {next : Traffic Binary64}
    (hlater : traffic.millis ≤ next.millis) (hspace : next.server.space = traffic.server.space)
    (hlog : next.log = traffic.log) : next.Tallied name window := by
  refine ⟨?_, ?_, ?_, ?_, ?_, ?_⟩
  · rw [hspace, hlog]
    exact htallied.counts.mono hlater
  · rw [hspace, hlog, ← filter_isLive_filter hlater, ← htallied.state]
    exact htallied.counts.apart.stateAt_later hlater Script.countCall
  · rw [hlog]
    exact htallied.counted
  · rw [hlog]
    exact fun execution hmem => (htallied.passed execution hmem).trans hlater
  · rw [hlog]
    exact htallied.first
  · rw [hlog]
    exact htallied.linked

/-- The server runs the script of a call. -/
theorem run (htallied : traffic.Tallied name window) (hmost : traffic.log.length + 1 < twoTo 63)
    (hfits : ExpiryFits traffic.millis (millisOf window)) {next : Traffic Binary64}
    (hmillis : next.millis = traffic.millis)
    (hspace : next.server.space =
      (Script.countRun traffic.server.space traffic.millis name window).space)
    (hlog : next.log = traffic.log ++ [⟨index, traffic.millis,
      Script.countCall.stateAt traffic.server.space traffic.millis name,
      (Script.countRun traffic.server.space traffic.millis name window).reply,
      Script.countCall.stateAt next.server.space traffic.millis name⟩]) :
    next.Tallied name window := by
  obtain ⟨hafter, hcounted⟩ := htallied.counts.execution hmost hfits index
  rw [← hspace] at hafter hcounted
  have hleft := hafter.apart.stateAt_later le_rfl Script.countCall
  have hfound := htallied.state
  generalize hexecution : (⟨index, traffic.millis, _, _, _⟩ : Execution Binary64) = execution
    at hcounted hlog
  have hmem : ∀ made ∈ next.log, made ∈ traffic.log ∨ made = execution := by
    rw [hlog]
    exact fun made hmade => (List.mem_append.mp hmade).imp_right List.mem_singleton.mp
  refine ⟨?_, ?_, fun made hmade => ?_, fun made hmade => ?_, fun made hmade => ?_, ?_⟩
  · rw [hmillis, hlog, List.length_append]
    exact hafter
  · rw [hmillis, hlog, List.getLast?_concat, ← hexecution]
    exact hleft
  · rcases hmem made hmade with hbefore | rfl
    · exact htallied.counted made hbefore
    · exact hcounted
  · rw [hmillis]
    rcases hmem made hmade with hbefore | rfl
    · exact htallied.passed made hbefore
    · rw [← hexecution]
  · rw [hlog] at hmade
    cases hempty : traffic.log with
    | nil =>
        rw [hempty] at hmade hfound
        obtain rfl := Option.some.inj hmade
        rw [← hexecution]
        exact hfound
    | cons head rest =>
        rw [hempty] at hmade
        exact htallied.first made (hempty ▸ hmade)
  · rw [hlog]
    refine List.isChain_append.mpr ⟨htallied.linked, .singleton _, fun last hlast next hnext => ?_⟩
    obtain rfl := Option.some.inj hnext
    rw [hlast, Option.bind_some] at hfound
    rw [← hexecution]
    exact ⟨htallied.passed last (List.mem_of_getLast? hlast), hfound⟩

end Tallied

namespace Sound

theorem start {server : ScriptServer Binary64} (hapart : server.space.Apart server.clock name)
    (habsent : Script.countCall.stateAt server.space server.clock name = none) :
    (Traffic.start server).Sound key name window :=
  ⟨.start hapart habsent, nofun, nofun, List.nodup_nil, nofun⟩

/-- A call that changes and still accords with the log. -/
theorem update (hsound : traffic.Sound key name window) {changed : Issued Binary64}
    (haccords : changed.Accords window traffic.log index)
    (hclient : changed.client.serverKey key = name) :
    (traffic.update index changed).Sound key name window := by
  refine ⟨hsound.tallied.later le_rfl rfl rfl, fun call hcall => ?_, fun execution hmem => ?_,
    hsound.once, fun other call hget => ?_⟩
  · rcases List.mem_or_eq_of_mem_set hcall with hbefore | rfl
    · exact hsound.clients call hbefore
    · exact hclient
  · change execution.call < (traffic.calls.set index changed).length
    rw [List.length_set]
    exact hsound.numbered execution hmem
  · change (traffic.calls.set index changed)[other]? = some call at hget
    rw [List.getElem?_set] at hget
    split_ifs at hget with hsame hinside
    · obtain rfl := Option.some.inj hget
      exact hsame ▸ haccords
    · exact hsound.accords other call hget

/-- Nothing depends on which scripts the server knows. -/
theorem withServer (hsound : traffic.Sound key name window) {server : ScriptServer Binary64}
    (hclock : server.clock = traffic.server.clock) (hspace : server.space = traffic.server.space) :
    ({ traffic with server } : Traffic Binary64).Sound key name window := by
  refine ⟨hsound.tallied.later (le_of_eq ?_) hspace rfl, hsound.clients, hsound.numbered,
    hsound.once, hsound.accords⟩
  unfold millis ScriptServer.millisAt
  rw [hclock]

/-- A client makes a call. -/
theorem send (hsound : traffic.Sound key name window) {client : Remote Binary64}
    (hclient : client.serverKey key = name) :
    (traffic.step key window (.send client)).Sound key name window := by
  refine ⟨hsound.tallied.later le_rfl rfl rfl, fun call hcall => ?_, fun execution hmem => ?_,
    hsound.once, fun other call hget => ?_⟩
  · rcases List.mem_append.mp hcall with hbefore | hnew
    · exact hsound.clients call hbefore
    · obtain rfl := List.mem_singleton.mp hnew
      exact hclient
  · change execution.call < (traffic.calls ++ [_]).length
    rw [List.length_append]
    exact Nat.lt_add_right _ (hsound.numbered execution hmem)
  · change (traffic.calls ++ [_])[other]? = some call at hget
    rw [List.getElem?_append] at hget
    split_ifs at hget with hbefore
    · exact hsound.accords other call hget
    · rw [List.getElem?_singleton] at hget
      split_ifs at hget with hnew
      obtain rfl := Option.some.inj hget
      refine ⟨fun execution hmem hindex => ?_, fun _ => ⟨nofun, nofun⟩⟩
      exact absurd (hindex ▸ hsound.numbered execution hmem) hbefore

/-- Time passes. -/
theorem pass (hsound : traffic.Sound key name window) (time : Duration) :
    (traffic.step key window (.pass time)).Sound key name window := by
  have hlater : traffic.millis ≤ (traffic.step key window (.pass time)).millis :=
    Instant.serverMillis_le traffic.server.clock (Nat.le_add_right traffic.now.nanos time.nanos)
  exact ⟨hsound.tallied.later hlater rfl rfl, hsound.clients, hsound.numbered, hsound.once,
    hsound.accords⟩

/-- The server runs the script of a call. -/
theorem run (hsound : traffic.Sound key name window) (hmost : traffic.calls.length < twoTo 63)
    (hfits : ExpiryFits traffic.millis (millisOf window)) {call : Issued Binary64}
    (hget : traffic.calls[index]? = some call) {isSecond : Bool}
    (htransit : call.transit = .request isSecond) (hknown : .countCall ∈ traffic.server.known) :
    (traffic.execute key window index call).Sound key name window := by
  obtain rfl := hsound.clients call (List.mem_of_getElem? hget)
  have haccords := hsound.accords index call hget
  have hwaiting := haccords.waiting (Or.inl ⟨isSecond, htransit⟩)
  have hunserved := haccords.unserved hwaiting
  have hinside : index < traffic.calls.length := (List.getElem?_eq_some_iff.mp hget).1
  rw [execute_of_known htransit hknown]
  set run := Script.countRun traffic.server.space traffic.millis (call.client.serverKey key) window
  set execution : Execution Binary64 := ⟨index, traffic.millis,
    Script.countCall.stateAt traffic.server.space traffic.millis (call.client.serverKey key),
    run.reply, Script.countCall.stateAt run.space traffic.millis (call.client.serverKey key)⟩
    with hexecution
  have hnumbered : ∀ made ∈ traffic.log ++ [execution], made.call < traffic.calls.length := by
    intro made hmade
    rcases List.mem_append.mp hmade with hbefore | hnew
    · exact hsound.numbered made hbefore
    · obtain rfl := List.mem_singleton.mp hnew
      exact hinside
  -- the server has run no call of this number, so it has run fewer than there are
  have honce : ((traffic.log ++ [execution]).map Execution.call).Nodup := by
    rw [List.map_append, List.nodup_append]
    refine ⟨hsound.once, List.nodup_singleton _, fun number hnumber other hother => ?_⟩
    obtain ⟨before, hmem, rfl⟩ := List.mem_map.mp hnumber
    obtain rfl := List.mem_singleton.mp hother
    exact hwaiting before hmem
  have hfew : traffic.log.length + 1 ≤ traffic.calls.length := by
    have hle := length_le_of_once hnumbered honce
    rwa [List.length_append] at hle
  have hserved : ({ call with transit := .reply isSecond run.reply } : Issued Binary64).Served
      window execution :=
    ⟨Or.inr ⟨isSecond, rfl⟩, fun counted htold => absurd htold (hunserved.told counted)⟩
  refine ⟨hsound.tallied.run (hfew.trans_lt hmost) hfits rfl rfl rfl, fun other hother => ?_,
    fun made hmade => ?_, honce, fun other made hmade => ?_⟩
  · rcases List.mem_or_eq_of_mem_set hother with hbefore | rfl
    · exact hsound.clients other hbefore
    · rfl
  · change made.call < (traffic.calls.set index _).length
    rw [List.length_set]
    exact hnumbered made hmade
  · change (traffic.calls.set index _)[other]? = some made at hmade
    change made.Accords window (traffic.log ++ [execution]) other
    rw [List.getElem?_set] at hmade
    by_cases hsame : index = other
    · subst hsame
      rw [if_pos rfl, if_pos hinside] at hmade
      obtain rfl := Option.some.inj hmade
      refine ⟨fun done hdone hindex => ?_, fun hnone => ?_⟩
      · rcases List.mem_append.mp hdone with hbefore | hnew
        · exact absurd hindex (hwaiting done hbefore)
        · obtain rfl := List.mem_singleton.mp hnew
          exact hserved
      · exact absurd rfl (hnone execution (List.mem_append_right _ (List.mem_singleton_self _)))
    · rw [if_neg hsame] at hmade
      have hother := hsound.accords other made hmade
      refine ⟨fun done hdone hindex => ?_, fun hnone => hother.unserved fun done hdone =>
        hnone done (List.mem_append_left _ hdone)⟩
      rcases List.mem_append.mp hdone with hbefore | hnew
      · exact hother.served done hbefore hindex
      · obtain rfl := List.mem_singleton.mp hnew
        exact absurd hindex hsame

/-- The server takes up what a caller has sent. -/
theorem execute (hsound : traffic.Sound key name window) (hmost : traffic.calls.length < twoTo 63)
    (hfits : ExpiryFits traffic.millis (millisOf window)) {call : Issued Binary64}
    (hget : traffic.calls[index]? = some call) :
    (traffic.execute key window index call).Sound key name window := by
  have hclient := hsound.clients call (List.mem_of_getElem? hget)
  have haccords := hsound.accords index call hget
  cases htransit : call.transit with
  | request isSecond =>
      have hwaiting := haccords.waiting (Or.inl ⟨isSecond, htransit⟩)
      by_cases hknown : .countCall ∈ traffic.server.known
      · exact hsound.run hmost hfits hget htransit hknown
      · have hmissing : ({ call with transit := .reply isSecond ScriptServer.missingScript } :
            Issued Binary64).Accords window traffic.log index :=
          ⟨fun execution hmem hindex => absurd hindex (hwaiting execution hmem), fun _ =>
            ⟨fun _ _ hreply => (Transit.reply.inj hreply).2.symm,
              (haccords.unserved hwaiting).told⟩⟩
        rw [execute_of_not_known htransit hknown]
        exact (hsound.update hmissing hclient).withServer rfl rfl
  | script =>
      have hwaiting := haccords.waiting (Or.inr htransit)
      have hagain : ({ call with transit := .request true } : Issued Binary64).Accords window
          traffic.log index :=
        ⟨fun execution hmem hindex => absurd hindex (hwaiting execution hmem), fun _ =>
          ⟨nofun, (haccords.unserved hwaiting).told⟩⟩
      unfold Traffic.execute
      rw [htransit]
      exact (hsound.update hagain hclient).withServer rfl rfl
  | reply isSecond reply =>
      unfold Traffic.execute
      rwa [htransit]
  | nothing =>
      unfold Traffic.execute
      rwa [htransit]

/-- A reply reaches its caller. -/
theorem receive (hsound : traffic.Sound key name window) {call : Issued Binary64}
    (hget : traffic.calls[index]? = some call) :
    (traffic.receive window index call).Sound key name window := by
  have hclient := hsound.clients call (List.mem_of_getElem? hget)
  have haccords := hsound.accords index call hget
  unfold Traffic.receive
  cases htransit : call.transit with
  | request isSecond => exact hsound
  | script => exact hsound
  | nothing => exact hsound
  | reply isSecond reply =>
      simp only
      split_ifs with hwanted
      · have hscript : ({ call with transit := .script } : Issued Binary64).Accords window
            traffic.log index := by
          refine ⟨fun execution hmem hindex => ?_, fun hnone =>
            ⟨nofun, (haccords.unserved hnone).told⟩⟩
          -- what the server has run does not ask for the script
          rcases (haccords.served execution hmem hindex).transit with hnothing | ⟨_, hreply⟩
          · cases htransit.symm.trans hnothing
          · obtain ⟨rfl, rfl⟩ := Transit.reply.inj (htransit.symm.trans hreply)
            rw [(@Issued.answerAt_reply _ call _ (hsound.tallied.counted execution hmem) _).1]
              at hwanted
            cases hwanted.2.2
        exact hsound.update hscript hclient
      · have hread : ({ call.concludeWith window (.delivered ⟨traffic.now, .reply reply⟩) with
            transit := .nothing } : Issued Binary64).Accords window traffic.log index := by
          refine ⟨fun execution hmem hindex => ?_, fun hnone => ?_⟩
          · have hserved := haccords.served execution hmem hindex
            rcases hserved.transit with hnothing | ⟨_, hreply⟩
            · cases htransit.symm.trans hnothing
            · obtain ⟨rfl, rfl⟩ := Transit.reply.inj (htransit.symm.trans hreply)
              have htold := (hserved.concludeWith
                (Issued.answerAt_reply (hsound.tallied.counted execution hmem) traffic.now).2).told
              exact ⟨Or.inl rfl, htold⟩
          · have hunserved := haccords.unserved hnone
            obtain rfl := hunserved.transit isSecond reply htransit
            have hasked : Issued.Unserved (call.concludeWith window
                (.delivered ⟨traffic.now, .reply ScriptServer.missingScript⟩)) :=
              hunserved.concludeWith nofun
            exact ⟨nofun, hasked.told⟩
        exact hsound.update hread hclient

/-- A caller gives up. -/
theorem giveUp (hsound : traffic.Sound key name window) {call : Issued Binary64}
    (hget : traffic.calls[index]? = some call) {ending : Ending}
    (hread : ∀ counted, (call.answerAt window ending).outcome ≠ .ok counted) :
    (traffic.update index (call.concludeWith window ending)).Sound key name window := by
  have haccords := hsound.accords index call hget
  refine hsound.update ⟨fun execution hmem hindex => ?_,
    fun hnone => (haccords.unserved hnone).concludeWith hread⟩
    (hsound.clients call (List.mem_of_getElem? hget))
  exact (haccords.served execution hmem hindex).concludeWith fun counted htold =>
    absurd htold (hread counted)

/-- **Whatever happens next.** -/
theorem step (hsound : traffic.Sound key name window) (hmost : traffic.calls.length < twoTo 63)
    (hfits : ExpiryFits traffic.millis (millisOf window)) {event : Event Binary64}
    (hclients : ∀ client, event = .send client → client.serverKey key = name) :
    (traffic.step key window event).Sound key name window := by
  -- an event that names no call changes nothing
  have hnamed : ∀ {change : Issued Binary64 → Traffic Binary64} (index : Nat),
      (∀ call, traffic.calls[index]? = some call → (change call).Sound key name window) →
      ((traffic.calls[index]?).elim traffic change).Sound key name window := by
    intro change index hchange
    cases hget : traffic.calls[index]? with
    | none => exact hsound
    | some call => exact hchange call hget
  cases event with
  | send client => exact hsound.send (hclients client rfl)
  | execute index => exact hnamed index fun call hget => hsound.execute hmost hfits hget
  | receive index => exact hnamed index fun call hget => hsound.receive hget
  | cancel index => exact hnamed index fun call hget => hsound.giveUp hget nofun
  | timeOut index => exact hnamed index fun call hget => hsound.giveUp hget nofun
  | pass time => exact hsound.pass time

end Sound

/-- Time goes on, and no call is forgotten. -/
theorem step_mono (key : String) (window : Duration) (traffic : Traffic Binary64)
    (event : Event Binary64) :
    let next := traffic.step key window event
    next.server.clock = traffic.server.clock ∧ traffic.now ≤ next.now ∧
      traffic.calls.length ≤ next.calls.length := by
  have hupdate : ∀ (index : Nat) (call : Issued Binary64),
      traffic.calls.length ≤ (traffic.calls.set index call).length :=
    fun index call => List.length_set.ge
  have hnamed : ∀ {change : Issued Binary64 → Traffic Binary64} (index : Nat),
      (∀ call, (change call).server.clock = traffic.server.clock ∧ traffic.now ≤ (change call).now ∧
        traffic.calls.length ≤ (change call).calls.length) →
      let next := (traffic.calls[index]?).elim traffic change
      next.server.clock = traffic.server.clock ∧ traffic.now ≤ next.now ∧
        traffic.calls.length ≤ next.calls.length := by
    intro change index hchange
    cases hget : traffic.calls[index]? with
    | none => exact ⟨rfl, Nat.le_refl _, Nat.le_refl _⟩
    | some call => exact hchange call
  intro next
  cases event with
  | send client => exact ⟨rfl, Nat.le_refl _, (List.length_append ▸ Nat.le_add_right _ _ :
      traffic.calls.length ≤ (traffic.calls ++ [_]).length)⟩
  | execute index =>
      refine hnamed index fun call => ?_
      cases htransit : call.transit with
      | request isSecond =>
          by_cases hknown : .countCall ∈ traffic.server.known
          · rw [execute_of_known htransit hknown]
            exact ⟨rfl, Nat.le_refl _, hupdate _ _⟩
          · rw [execute_of_not_known htransit hknown]
            exact ⟨rfl, Nat.le_refl _, hupdate _ _⟩
      | script =>
          unfold Traffic.execute
          rw [htransit]
          exact ⟨rfl, Nat.le_refl _, hupdate _ _⟩
      | reply isSecond reply =>
          unfold Traffic.execute
          rw [htransit]
          exact ⟨rfl, Nat.le_refl _, Nat.le_refl _⟩
      | nothing =>
          unfold Traffic.execute
          rw [htransit]
          exact ⟨rfl, Nat.le_refl _, Nat.le_refl _⟩
  | receive index =>
      refine hnamed index fun call => ?_
      unfold Traffic.receive
      cases call.transit with
      | reply isSecond reply =>
          simp only
          split_ifs
          · exact ⟨rfl, Nat.le_refl _, hupdate _ _⟩
          · exact ⟨rfl, Nat.le_refl _, hupdate _ _⟩
      | request isSecond => exact ⟨rfl, Nat.le_refl _, Nat.le_refl _⟩
      | script => exact ⟨rfl, Nat.le_refl _, Nat.le_refl _⟩
      | nothing => exact ⟨rfl, Nat.le_refl _, Nat.le_refl _⟩
  | cancel index => exact hnamed index fun call => ⟨rfl, Nat.le_refl _, hupdate _ _⟩
  | timeOut index => exact hnamed index fun call => ⟨rfl, Nat.le_refl _, hupdate _ _⟩
  | pass time => exact ⟨rfl, Nat.le_add_right _ _, Nat.le_refl _⟩

theorem clock_run (traffic : Traffic Binary64) (events : List (Event Binary64)) :
    (traffic.run key window events).server.clock = traffic.server.clock := by
  induction events generalizing traffic with
  | nil => rfl
  | cons event rest ih =>
      exact (ih (traffic.step key window event)).trans (traffic.step_mono key window event).1

/-- What fits at two times fits between them. -/
theorem expiryFits_between {early late millis : Int} (hearly : ExpiryFits early millis)
    (hlate : ExpiryFits late millis) (hle : early ≤ now) (hge : now ≤ late) :
    ExpiryFits now millis := by
  obtain ⟨⟨hlow, -⟩, hfirst, -⟩ := hearly
  obtain ⟨⟨-, hhigh⟩, -, hlast⟩ := hlate
  exact ⟨⟨hlow, hhigh⟩, by omega, by omega⟩

/-- **Whatever happens**, in a run that the window fits from its start to its end. -/
theorem sound_run {server : ScriptServer Binary64} {events : List (Event Binary64)}
    (hclients : ∀ client, .send client ∈ events → client.serverKey key = name)
    (hapart : server.space.Apart server.clock name)
    (habsent : Script.countCall.stateAt server.space server.clock name = none)
    (hfirst : ExpiryFits server.clock (millisOf window))
    (hlast : ExpiryFits ((start server).run key window events).millis (millisOf window))
    (hcalls : ((start server).run key window events).calls.length < twoTo 63) :
    ((start server).run key window events).Sound key name window := by
  induction events using List.reverseRecOn with
  | nil => exact .start hapart habsent
  | append_singleton events event ih =>
      rw [run_append] at hlast hcalls ⊢
      have hstarted : ((start server).run key window events).server.clock = server.clock :=
        clock_run (start server) events
      set before := (start server).run key window events
      obtain ⟨hclock, hnow, hlength⟩ := before.step_mono key window event
      have hbegun : server.clock ≤ before.millis := by
        rw [← hstarted]
        exact before.now.le_serverMillis _
      have hmillis : before.millis ≤ (before.step key window event).millis := by
        unfold millis ScriptServer.millisAt
        rw [hclock]
        exact Instant.serverMillis_le _ hnow
      have hfits := expiryFits_between hfirst hlast hbegun hmillis
      have hfew : before.calls.length < twoTo 63 := hlength.trans_lt hcalls
      refine (ih (fun client hsend => hclients client (List.mem_append_left _ hsend)) hfits
        hfew).step hfew hfits fun client hevent => hclients client ?_
      rw [hevent]
      exact List.mem_append_right _ (List.mem_singleton_self _)

end Traffic

/-! ## One counter -/

/-- Successive executions on one counter, from the one that begins it on. -/
structure OnOneCounter (log : List (Execution Binary64)) (first : Execution Binary64)
    (rest : List (Execution Binary64)) : Prop where
  successive : (first :: rest) <:+: log
  begins : first.found = none
  continues : ∀ execution ∈ rest, execution.found.isSome

theorem counterEntry_inj {count other : Nat} {expiry otherExpiry : Int}
    (heq : (counterEntry count expiry : Entry Binary64) = counterEntry other otherExpiry) :
    count = other ∧ expiry = otherExpiry := by
  obtain ⟨hcontent, hexpiry⟩ := Entry.mk.inj heq
  have hread := congrArg (Decimal.readWhole? ·.toList) (Content.text.inj hcontent)
  rw [Decimal.readWhole?_wholeText, Decimal.readWhole?_wholeText] at hread
  exact ⟨Int.ofNat.inj (Option.some.inj hread), Option.some.inj hexpiry⟩

/-- The execution that comes at some position on a counter. -/
structure Execution.IsAt (execution : Execution Binary64) (position : Nat) (expiry : Int) :
    Prop where
  reply : execution.reply = countReply Binary64 (position + 1) (expiry - execution.millis)
  left : execution.left = some (counterEntry (position + 1) expiry)
  live : execution.millis ≤ expiry

/-- On a counter the next execution counts one more, and finds the expiry as it was. -/
theorem Execution.IsAt.next {earlier later : Execution Binary64} {position : Nat} {expiry : Int}
    (hat : earlier.IsAt position expiry) (hprecedes : earlier.Precedes later)
    (hcounted : later.Counted window) (hfound : later.found.isSome) :
    later.IsAt (position + 1) expiry := by
  obtain ⟨-, hsame⟩ := hprecedes
  rw [hat.left] at hsame
  cases hcounted with
  | began call millis => cases hfound
  | added call millis hpositive hlive =>
      obtain ⟨hheld, -⟩ := Option.filter_eq_some_iff.mp hsame.symm
      obtain ⟨rfl, rfl⟩ := counterEntry_inj (Option.some.inj hheld)
      exact ⟨rfl, rfl, hlive⟩

theorem isAt_of_chain {executions : List (Execution Binary64)}
    (hcounted : ∀ execution ∈ executions, execution.Counted window) {first : Execution Binary64}
    {start : Nat} {expiry : Int} (hchain : (first :: executions).IsChain Execution.Precedes)
    (hfound : ∀ execution ∈ executions, execution.found.isSome)
    (hfirst : first.IsAt start expiry) {position : Nat}
    {execution : Execution Binary64} (hget : (first :: executions)[position]? = some execution) :
    execution.IsAt (start + position) expiry := by
  induction executions generalizing first start position with
  | nil =>
      cases position with
      | zero =>
          obtain rfl := Option.some.inj hget
          exact hfirst
      | succ position => cases hget
  | cons second rest ih =>
      obtain ⟨hprecedes, hrest⟩ := List.isChain_cons_cons.mp hchain
      cases position with
      | zero =>
          obtain rfl := Option.some.inj hget
          exact hfirst
      | succ position =>
          have hsecond := hfirst.next hprecedes (hcounted second (List.mem_cons_self ..))
            (hfound second (List.mem_cons_self ..))
          have hthen := ih (fun other hother => hcounted other (List.mem_cons_of_mem _ hother))
            hrest (fun other hother => hfound other (List.mem_cons_of_mem _ hother)) hsecond hget
          rwa [Nat.add_assoc, Nat.add_comm 1] at hthen

/-- **What the executions on one counter do**: they count up from one, and all find and leave the
expiry that the first has set. -/
theorem OnOneCounter.isAt {log : List (Execution Binary64)} {first : Execution Binary64}
    {rest : List (Execution Binary64)} (hone : OnOneCounter log first rest)
    (hcounted : ∀ execution ∈ log, execution.Counted window)
    (hlinked : log.IsChain Execution.Precedes) {position : Nat} {execution : Execution Binary64}
    (hget : (first :: rest)[position]? = some execution) :
    execution.IsAt position (first.millis + millisOf window) := by
  have hmem : ∀ made ∈ first :: rest, made ∈ log := fun made hmade => hone.successive.mem hmade
  have hfirst : first.IsAt 0 (first.millis + millisOf window) := by
    have hbegun := hcounted first (hmem first (List.mem_cons_self ..))
    have hnone := hone.begins
    cases hbegun with
    | began call millis =>
        refine ⟨?_, rfl, Int.le_add_of_nonneg_right (Int.natCast_nonneg _)⟩
        rw [add_sub_cancel_left]
    | added call millis hpositive hlive => cases hnone
  have hchain := List.IsChain.infix hlinked hone.successive
  have hat := isAt_of_chain
    (fun made hmade => hcounted made (hmem made (List.mem_cons_of_mem _ hmade))) hchain
    hone.continues hfirst hget
  rwa [Nat.zero_add] at hat

end Throttle.Remote
