import LensoWeb.Ingress.Server.Activity
import LensoWeb.Ingress.Server.Watchdog

/-!
# The idle close of a connection

The counter of a connection counts its service calls exactly. A streaming body
outlives the call that returned it and is not counted, so the watchdog respects
it only if there is none: over a run, the idle close never hits an unfinished
response if and only if no call hands a streaming body to Hyper.
-/

namespace Ingress

open Foundation Http Kernel

variable {η : Type}

/-- The call returns a streaming body. -/
def ConnectionAction.streams : ConnectionAction η → Bool
  | returns _ method response _ =>
      (response.body matches .streaming _) && !response.carriesNoBody method
  | _ => false

namespace ConnectionState

variable {config : WebIngressConfig} {s t : ConnectionState} {action : ConnectionAction η}

theorem handOver_eq (method : Method) (response : IngressResponse) (world : World η) :
    handOver method response world =
      if response.carriesNoBody method then .produced
      else match response.body with
        | .streaming stream => .streaming (.new (.new stream))
        | _ => .produced := by
  obtain ⟨status, headers, body⟩ := response
  rw [handOver, Task.bind_apply, IngressResponse.normalizeBody_apply]
  split_ifs with empty
  · rfl
  · cases body <;> rfl

theorem isCalling_handOver (method : Method) (response : IngressResponse) (world : World η) :
    (handOver method response world).isCalling = 0 := by
  rw [handOver_eq]
  split
  · rfl
  · split <;> rfl

theorem isStreaming_handOver (index : Nat) (method : Method) (response : IngressResponse)
    (world : World η) :
    (handOver method response world).isStreaming =
      (ConnectionAction.returns index method response world).streams.toNat := by
  obtain ⟨status, headers, body⟩ := response
  rw [handOver_eq, ConnectionAction.streams]
  split_ifs with empty
  · rw [empty, Bool.not_true, Bool.and_false]
    rfl
  · rw [Bool.not_eq_true] at empty
    rw [empty]
    cases body <;> rfl

/-- A body that has been produced stays so. -/
theorem done_pollFrame {body : StreamingBody} (event : Option ResponseEvent)
    (done : body.done = true) : (body.pollFrame event).done = true := by
  simp only [StreamingBody.pollFrame, if_pos done]
  exact done

theorem unfinished_eq (s : ConnectionState) : s.unfinished = s.calls + s.streamingBodies :=
  census_add fun _ _ => rfl

/-! ### Steps -/

/-- The counter counts the calls, and the exchanges stay within the limit. -/
structure Tracks (config : WebIngressConfig) (s : ConnectionState) : Prop where
  counted : s.activity.activeRequests = s.calls
  bounded : s.calls + s.streamingBodies ≤ config.maxConcurrentRequests

/-- The end of a call, with what is left to produce of its response. -/
theorem Tracks.endCall (tracks : Tracks config s) {index : Nat} {exchange : Exchange}
    (present : s.exchanges[index]? = some .calling) (returned : exchange.isCalling = 0)
    (most : exchange.isStreaming ≤ 1) :
    Tracks config (s.endCall index exchange) ∧
      (s.endCall index exchange).streamingBodies = s.streamingBodies + exchange.isStreaming := by
  obtain ⟨counted, bounded⟩ := tracks
  have calls : (s.endCall index exchange).calls + 1 = s.calls := by
    refine (census_set Exchange.isCalling present exchange).trans ?_
    rw [returned]
    rfl
  have bodies : (s.endCall index exchange).streamingBodies + 0 =
      s.streamingBodies + exchange.isStreaming := census_set Exchange.isStreaming present exchange
  refine ⟨⟨?_, by omega⟩, bodies⟩
  show s.activity.activeRequests - 1 = _
  omega

/-- A streaming body that moves on does not change the calls. -/
theorem Tracks.set_streaming (tracks : Tracks config s) {index : Nat} {body : StreamingBody}
    {exchange : Exchange} (present : s.exchanges[index]? = some (.streaming body))
    (returned : exchange.isCalling = 0) (less : exchange.isStreaming ≤ (!body.done).toNat)
    (next : t = { s with exchanges := s.exchanges.set index exchange }) :
    Tracks config t ∧ t.streamingBodies ≤ s.streamingBodies := by
  obtain ⟨counted, bounded⟩ := tracks
  subst next
  have calls : ConnectionState.calls { s with exchanges := s.exchanges.set index exchange } + 0 =
      s.calls := by
    refine (census_set Exchange.isCalling present exchange).trans ?_
    rw [returned]
    rfl
  have bodies : ConnectionState.streamingBodies
      { s with exchanges := s.exchanges.set index exchange } + (!body.done).toNat =
        s.streamingBodies + exchange.isStreaming :=
    census_set Exchange.isStreaming present exchange
  exact ⟨⟨counted.trans calls.symm, by omega⟩, by omega⟩

/-- A step keeps the count. It adds a streaming body if a call returns one, and none
otherwise. -/
theorem Tracks.step (small : config.maxConcurrentRequests < 2 ^ 64) (tracks : Tracks config s)
    (transition : step config s action = some t) :
    Tracks config t ∧ t.streamingBodies ≤ s.streamingBodies + action.streams.toNat ∧
      action.streams.toNat ≤ t.streamingBodies := by
  cases action with
  | arrive =>
      rw [ConnectionState.step] at transition
      split at transition
      · cases transition
      · next room =>
        cases transition
        obtain ⟨counted, bounded⟩ := tracks
        rw [not_or, Nat.not_le, unfinished_eq] at room
        have calls : s.beginCall.calls = s.calls + 1 := census_append _ _ _
        have bodies : s.beginCall.streamingBodies = s.streamingBodies := census_append _ _ _
        refine ⟨⟨?_, by omega⟩, by omega, Nat.zero_le _⟩
        show min (s.activity.activeRequests + 1) (2 ^ 64 - 1) = _
        omega
  | returns index method response world =>
      rw [ConnectionState.step] at transition
      split at transition
      · next present =>
        cases transition
        have left := isStreaming_handOver index method response world
        have most : (handOver method response world).isStreaming ≤ 1 := by
          rw [left]
          exact Bool.toNat_le _
        obtain ⟨kept, bodies⟩ :=
          tracks.endCall present (isCalling_handOver method response world) most
        exact ⟨kept, by omega, by omega⟩
      · cases transition
  | poll index event =>
      rw [ConnectionState.step] at transition
      split at transition
      · next body present =>
        cases transition
        have less : (Exchange.streaming (body.pollFrame event)).isStreaming ≤
            (!body.done).toNat := by
          cases done : body.done with
          | true =>
              show (!(body.pollFrame event).done).toNat ≤ _
              rw [done_pollFrame event done]
          | false => exact Bool.toNat_le _
        obtain ⟨kept, bodies⟩ := tracks.set_streaming present rfl less rfl
        exact ⟨kept, bodies, Nat.zero_le _⟩
      · cases transition
  | drop index =>
      rw [ConnectionState.step] at transition
      split at transition
      · next present =>
        cases transition
        have none : Exchange.produced.isStreaming ≤ 1 := Nat.zero_le _
        obtain ⟨kept, bodies⟩ := tracks.endCall present rfl none
        exact ⟨kept, bodies.le, Nat.zero_le _⟩
      · next body present =>
        cases transition
        have none : Exchange.produced.isStreaming ≤ (!body.done).toNat := Nat.zero_le _
        obtain ⟨kept, bodies⟩ := tracks.set_streaming present rfl none rfl
        exact ⟨kept, bodies, Nat.zero_le _⟩
      · cases transition
  | tick millis =>
      cases transition
      exact ⟨⟨tracks.counted, tracks.bounded⟩, le_rfl, Nat.zero_le _⟩
  | wake =>
      rw [ConnectionState.step] at transition
      split at transition
      · split at transition
        · cases transition
          rw [ConnectionState.wake]
          split
          · exact ⟨⟨tracks.counted, tracks.bounded⟩, le_rfl, Nat.zero_le _⟩
          · exact ⟨⟨tracks.counted, tracks.bounded⟩, le_rfl, Nat.zero_le _⟩
        · cases transition
      · cases transition

theorem tracks_start (config : WebIngressConfig) (clock : Nat) :
    Tracks config (start config clock) := ⟨rfl, Nat.zero_le _⟩

/-! ### Runs -/

section Runs

variable {actions : List (ConnectionAction η)}

theorem tracks_run (small : config.maxConcurrentRequests < 2 ^ 64) (tracks : Tracks config s)
    (execution : (machine η config).run actions s = some t) : Tracks config t :=
  Machine.run_preserves (fun _ _ _ prior transition => (prior.step small transition).1) tracks
    execution

/-- Without streaming bodies being returned, there are none. -/
theorem streamingBodies_run (small : config.maxConcurrentRequests < 2 ^ 64)
    (tracks : Tracks config s) (none : s.streamingBodies = 0)
    (buffered : ∀ action ∈ actions, action.streams = false)
    (execution : (machine η config).run actions s = some t) : t.streamingBodies = 0 := by
  induction actions generalizing s with
  | nil =>
      cases execution
      exact none
  | cons action rest ih =>
      obtain ⟨u, transition, remaining⟩ := Machine.run_cons_iff.mp execution
      obtain ⟨kept, most, -⟩ := tracks.step small transition
      rw [none, buffered action List.mem_cons_self] at most
      exact ih kept (Nat.le_zero.mp most)
        (fun other inside => buffered other (List.mem_cons_of_mem _ inside)) remaining

end Runs

/-- The counter covers every unfinished response, and the watchdog has not returned
beside a streaming body that is still being produced. -/
def Spares (s : ConnectionState) : Prop :=
  s.unfinished ≤ s.activity.activeRequests ∧ (s.watchdog = .returned → s.streamingBodies = 0)

theorem Tracks.spares_iff (tracks : Tracks config s) : s.Spares ↔ s.streamingBodies = 0 := by
  have counted := tracks.counted
  rw [Spares, unfinished_eq]
  constructor
  · rintro ⟨covered, -⟩
    omega
  · intro none
    exact ⟨by omega, fun _ => none⟩

/-- The idle close spares unfinished responses throughout a run of a connection exactly
if no call of the run returns a streaming body. -/
theorem idle_close_spares_iff {parser : UriParser} {config : WebIngressConfig}
    (valid : config.validate parser = .ok ()) (clock : Nat) (actions : List (ConnectionAction η))
    {last : ConnectionState}
    (execution : (machine η config).run actions (start config clock) = some last) :
    (∀ front s, front <+: actions → (machine η config).run front (start config clock) = some s →
      s.Spares) ↔ ∀ action ∈ actions, action.streams = false := by
  have small : config.maxConcurrentRequests < 2 ^ 64 := by
    have bounded := WebIngressConfig.maxConcurrentRequests_le valid
    rw [maxConcurrentRequestsLimit] at bounded
    omega
  have fresh := tracks_start config clock
  constructor
  · intro spared action inside
    obtain ⟨front, rest, rfl⟩ := List.append_of_mem inside
    rw [Machine.run_append] at execution
    obtain ⟨s, before, remaining⟩ := Option.bind_eq_some_iff.mp execution
    obtain ⟨t, transition, -⟩ := Machine.run_cons_iff.mp remaining
    have tracks := tracks_run small fresh before
    obtain ⟨kept, -, returned⟩ := tracks.step small transition
    have reached : (machine η config).run (front ++ [action]) (start config clock) = some t := by
      rw [Machine.run_append, before]
      exact Machine.run_cons_iff.mpr ⟨t, transition, rfl⟩
    have fine := spared _ t ⟨rest, by simp⟩ reached
    rw [kept.spares_iff.mp fine] at returned
    exact Bool.toNat_eq_zero.mp (Nat.le_zero.mp returned)
  · intro buffered front s within reached
    have tracks := tracks_run small fresh reached
    rw [tracks.spares_iff]
    exact streamingBodies_run small fresh rfl
      (fun action inside => buffered action (within.subset inside)) reached

/-! ### The watchdog of a connection -/

/-- Where the watchdog has got, which is never at the head of its loop between two steps. -/
def wait (s : ConnectionState) : IdleWait :=
  match s.watchdog with
  | .sleeping deadline => .sleeping deadline
  | .returned => .returned

/-- A connection as its watchdog sees it: each exchange has a guard in its place, which lives as
long as the call. -/
structure Watches (s : ConnectionState) (watch : Watch) : Prop where
  clock : watch.clock = s.clock
  activity : watch.activity = s.activity
  wait : watch.wait = s.wait
  guards : watch.guards.map ActiveRequest.isLive = s.exchanges.map Exchange.isCalling

namespace Watches

variable {watch : Watch}

theorem live (watches : Watches s watch) : watch.live = s.calls :=
  congrArg List.sum watches.guards

/-- A call in progress has a guard that has not been dropped. -/
theorem guard (watches : Watches s watch) {index : Nat}
    (present : s.exchanges[index]? = some .calling) :
    ∃ begun, watch.guards[index]? = some ⟨begun, none⟩ := by
  have weight : (watch.guards.map ActiveRequest.isLive)[index]? = some 1 := by
    rw [watches.guards, List.getElem?_map, present]
    rfl
  rw [List.getElem?_map] at weight
  obtain ⟨⟨begun, dropped⟩, held, alive⟩ := Option.map_eq_some_iff.mp weight
  cases dropped with
  | none => exact ⟨begun, held⟩
  | some last => cases alive

/-- The end of a call drops its guard. -/
theorem endCall (watches : Watches s watch) {index : Nat} {exchange : Exchange} {timeout : Nat}
    (present : s.exchanges[index]? = some .calling) (returned : exchange.isCalling = 0) :
    ∃ actions next, (Watch.machine timeout).run actions watch = some next ∧
      Watches (s.endCall index exchange) next := by
  obtain ⟨begun, held⟩ := watches.guard present
  refine ⟨[.drop index], watch.drop index begun, ?_, watches.clock, ?_, watches.wait, ?_⟩
  · refine Machine.run_cons_iff.mpr ⟨_, ?_, rfl⟩
    show Watch.step timeout watch (.drop index) = _
    rw [Watch.step, held]
  · show watch.activity.release watch.clock = _
    rw [watches.activity, watches.clock]
    rfl
  · show (watch.guards.set index ⟨begun, some watch.clock⟩).map ActiveRequest.isLive =
      (s.exchanges.set index exchange).map Exchange.isCalling
    rw [List.map_set, List.map_set, watches.guards, returned]
    rfl

/-- An exchange without a call moves on unseen. -/
theorem set_returned (watches : Watches s watch) {index : Nat} {old new : Exchange}
    (present : s.exchanges[index]? = some old) (before : old.isCalling = 0)
    (after : new.isCalling = 0) :
    Watches { s with exchanges := s.exchanges.set index new } watch := by
  refine ⟨watches.clock, watches.activity, watches.wait, ?_⟩
  show _ = (s.exchanges.set index new).map Exchange.isCalling
  have inRange := (List.getElem?_eq_some_iff.mp present).1
  rw [watches.guards, List.map_set, after]
  refine List.ext_getElem? fun other => ?_
  by_cases here : index = other
  · subst here
    rw [List.getElem?_set_self (by simpa using inRange), List.getElem?_map, present,
      Option.map_some, before]
  · rw [List.getElem?_set_ne here]

/-- The check behind the sleep comes at the same instant. -/
theorem wake (watches : Watches s watch) (timeout : Nat) {deadline : Nat}
    (asleep : s.watchdog = .sleeping deadline) (due : deadline ≤ s.clock) :
    Watch.step timeout watch .wake = some (watch.wake timeout) ∧
      watch.activity.expired timeout watch.clock = s.activity.expired timeout s.clock := by
  constructor
  · rw [Watch.step, watches.wait, ConnectionState.wait, asleep]
    exact if_pos (watches.clock ▸ due)
  · rw [watches.activity, watches.clock]

/-- A round of the loop returns, or it goes back to the head of the loop and on to the next
sleep. -/
theorem round (watches : Watches s watch) (timeout : Nat) {deadline : Nat}
    (asleep : s.watchdog = .sleeping deadline) (due : deadline ≤ s.clock) :
    ∃ actions next, (Watch.machine timeout).run actions watch = some next ∧
      Watches (s.wake timeout) next ∧
      ((s.wake timeout).watchdog = .returned → next = watch.wake timeout) := by
  obtain ⟨woken, expired⟩ := watches.wake timeout asleep due
  rw [ConnectionState.wake]
  split
  · next idle =>
    refine ⟨[.wake], _, Machine.run_cons_iff.mpr ⟨_, woken, rfl⟩, ⟨watches.clock, watches.activity,
      ?_, watches.guards⟩, fun _ => rfl⟩
    rw [Watch.wake, expired, if_pos idle]
    rfl
  · next busy =>
    let slept : Watch :=
      { watch with wait := .sleeping (watch.activity.deadline timeout watch.clock) }
    have armed : Watch.step timeout (watch.wake timeout) .arm = some slept := by
      rw [Watch.wake, expired, if_neg busy]
      rfl
    refine ⟨[.wake, .arm], slept, Machine.run_cons_iff.mpr ⟨_, woken,
      Machine.run_cons_iff.mpr ⟨_, armed, rfl⟩⟩, ⟨watches.clock, watches.activity, ?_,
      watches.guards⟩, by rintro ⟨⟩⟩
    show IdleWait.sleeping _ = .sleeping _
    rw [watches.activity, watches.clock]

/-- A step of a connection is seen as a run of its watchdog. -/
theorem step (small : config.maxConcurrentRequests + 1 < 2 ^ 64 - 1)
    (watches : Watches s watch) (transition : ConnectionState.step config s action = some t) :
    ∃ actions next, (Watch.machine config.connectionIdleTimeoutMillis).run actions watch =
      some next ∧ Watches t next := by
  cases action with
  | arrive =>
      rw [ConnectionState.step] at transition
      split at transition
      · cases transition
      · next room =>
        cases transition
        rw [not_or, Nat.not_le, unfinished_eq] at room
        have live := watches.live
        refine ⟨[.begin], watch.begin, Machine.run_cons_iff.mpr ⟨_, if_neg (by omega), rfl⟩,
          watches.clock, ?_, watches.wait, ?_⟩
        · show watch.activity.begin = _
          rw [watches.activity]
          rfl
        · show (watch.guards ++ [_]).map ActiveRequest.isLive = (s.exchanges ++ [_]).map _
          rw [List.map_append, List.map_append, watches.guards]
          rfl
  | returns index method response world =>
      rw [ConnectionState.step] at transition
      split at transition
      · next present =>
        cases transition
        exact watches.endCall present (isCalling_handOver method response world)
      · cases transition
  | poll index event =>
      rw [ConnectionState.step] at transition
      split at transition
      · next body present =>
        cases transition
        exact ⟨[], watch, rfl, watches.set_returned present rfl rfl⟩
      · cases transition
  | drop index =>
      rw [ConnectionState.step] at transition
      split at transition
      · next present =>
        cases transition
        exact watches.endCall present rfl
      · next body present =>
        cases transition
        exact ⟨[], watch, rfl, watches.set_returned present rfl rfl⟩
      · cases transition
  | tick millis =>
      cases transition
      exact ⟨[.tick millis], _, rfl, congrArg (· + millis) watches.clock, watches.activity,
        watches.wait, watches.guards⟩
  | wake =>
      rw [ConnectionState.step] at transition
      split at transition
      · next deadline asleep =>
        split at transition
        · next due =>
          cases transition
          obtain ⟨seen, next, run, after, -⟩ := watches.round _ asleep due
          exact ⟨seen, next, run, after⟩
        · cases transition
      · cases transition

end Watches

/-- Every run of a connection is seen as a run of its watchdog. -/
theorem exists_watch_run {parser : UriParser} {config : WebIngressConfig}
    (valid : config.validate parser = .ok ()) (clock : Nat) {actions : List (ConnectionAction η)}
    (execution : (machine η config).run actions (start config clock) = some s) :
    ∃ watch, (Watch.machine config.connectionIdleTimeoutMillis).Reachable watch ∧
      Watches s watch := by
  have small : config.maxConcurrentRequests + 1 < 2 ^ 64 - 1 := by
    have bounded := WebIngressConfig.maxConcurrentRequests_le valid
    rw [maxConcurrentRequestsLimit] at bounded
    omega
  let asleep : Watch :=
    { Watch.start clock with
      wait := .sleeping (ConnectionActivity.deadline ⟨0, clock⟩
        config.connectionIdleTimeoutMillis clock) }
  have armed : (Watch.machine config.connectionIdleTimeoutMillis).Reachable asleep :=
    ⟨_, [.arm], ⟨clock, rfl⟩, rfl⟩
  have begins : Watches (start config clock) asleep := ⟨rfl, rfl, rfl, rfl⟩
  have follows : ∀ s action t watch, Watches s watch → (machine η config).step s action = some t →
      ∃ seen next, (Watch.machine config.connectionIdleTimeoutMillis).run seen watch =
        some next ∧ Watches t next :=
    fun _ _ _ _ watches transition => watches.step small transition
  obtain ⟨seen, watch, run, watches⟩ := Machine.exists_run_of_steps follows begins execution
  exact ⟨watch, armed.run run, watches⟩

/-- The idle close of a connection finds every guard that its calls had dropped for a whole
timeout. -/
theorem silent_of_returned {parser : UriParser} {config : WebIngressConfig}
    (valid : config.validate parser = .ok ()) (clock : Nat) {actions : List (ConnectionAction η)}
    (execution : (machine η config).run actions (start config clock) = some s)
    (transition : step config s (.wake : ConnectionAction η) = some t)
    (returned : t.watchdog = .returned) :
    ∃ watch, (Watch.machine config.connectionIdleTimeoutMillis).Reachable watch ∧
      Watches t watch ∧ watch.created + config.connectionIdleTimeoutMillis ≤ t.clock ∧
      ∀ guard ∈ watch.guards, ∃ last, guard.dropped = some last ∧
        last + config.connectionIdleTimeoutMillis ≤ t.clock := by
  obtain ⟨watch, reached, watches⟩ := exists_watch_run valid clock execution
  rw [step] at transition
  split at transition
  · next deadline asleep =>
    split at transition
    · next due =>
      cases transition
      obtain ⟨woken, -⟩ := watches.wake config.connectionIdleTimeoutMillis asleep due
      obtain ⟨seen, next, run, after, same⟩ :=
        watches.round config.connectionIdleTimeoutMillis asleep due
      obtain rfl := same returned
      have waits : (watch.wake config.connectionIdleTimeoutMillis).wait = .returned := by
        rw [after.wait, ConnectionState.wait, returned]
      obtain ⟨created, ended⟩ :=
        Watch.dropped_of_returned (Watch.tracked_of_reachable reached) woken waits
      rw [← after.clock]
      exact ⟨_, reached.run run, after, created, ended⟩
    · cases transition
  · cases transition

/-- One request that is answered with the body, and a minute of silence. -/
def silentMinute (body : IngressBody) : List (ConnectionAction Unit) :=
  [.arrive, .returns 0 .get ⟨.ok, ∅, body⟩ (.start () 0 0), .tick 60000, .wake]

/-- A connection that returned a buffered response is closed when it is idle. -/
theorem idle_close_spares_buffered :
    ∃ s, (machine Unit .default).run (silentMinute (.buffered [])) (start .default 0) = some s ∧
      s.watchdog = .returned ∧ s.Spares := by
  have observed : ((machine Unit .default).run (silentMinute (.buffered []))
      (start .default 0)).map (·.watchdog) = some .returned := by decide +kernel
  obtain ⟨s, execution, returned⟩ := Option.map_eq_some_iff.mp observed
  have buffered : ∀ action ∈ silentMinute (.buffered []), action.streams = false := by decide
  exact ⟨s, execution, returned, (idle_close_spares_iff
    (WebIngressConfig.validate_default .pathOnly) 0 _ execution).mpr buffered _ s
    (List.prefix_refl _) execution⟩

/-- A connection is closed while its streaming response waits for its first chunk. -/
theorem idle_close_hits_stream :
    ∃ s, (machine Unit .default).Reachable s ∧ s.watchdog = .returned ∧ s.streamingBodies = 1 ∧
      s.activity.activeRequests = 0 ∧ ¬ s.Spares := by
  have observed : ((machine Unit .default).run (silentMinute (.streaming ⟨0, []⟩))
      (start .default 0)).map (fun s => (s.watchdog, s.streamingBodies, s.activity.activeRequests)) =
        some (.returned, 1, 0) := by decide +kernel
  obtain ⟨s, execution, counts⟩ := Option.map_eq_some_iff.mp observed
  obtain ⟨returned, counts⟩ := Prod.mk.inj counts
  obtain ⟨streaming, idle⟩ := Prod.mk.inj counts
  refine ⟨s, ⟨_, _, ⟨0, rfl⟩, execution⟩, returned, streaming, idle, ?_⟩
  rintro ⟨-, spared⟩
  rw [spared returned] at streaming
  cases streaming

end ConnectionState

end Ingress
