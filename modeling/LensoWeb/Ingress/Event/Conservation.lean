import LensoWeb.Ingress.Event.Permits

/-!
# Conservation of event permits

A body keeps its permit exactly as long as it is live: until a read sees the
successful terminal, until it is cancelled, or until it is dropped. So the
permits in the semaphore, the calls behind it and the live bodies always add up
to the configured number.
-/

namespace Ingress

open Foundation Http Kernel

/-! ### Live bodies -/

/-- The stream is over. A failed read has cancelled it. -/
def ReadEvent.ends : ReadEvent → Bool
  | finished => true
  | failed _ => true
  | cancelled => true
  | _ => false

/-- The session is over. A failed call has cancelled it. -/
def SessionEvent.ends : SessionEvent → Bool
  | receiveFinished => true
  | failed => true
  | cancelled => true
  | _ => false

/-- The stream has reached its terminal or has been cancelled. -/
def ReadState.ended (s : ReadState) : Bool := s.log.any ReadEvent.ends

/-- The session has reached its terminal or has been cancelled. -/
def SessionState.ended (s : SessionState) : Bool := s.log.any SessionEvent.ends

/-- The call has returned a stream or a session that is live. -/
def EventPhase.live : EventPhase → Nat
  | streaming body => (!body.ended).toNat
  | webSocket body => (!body.ended).toNat
  | _ => 0

/-- A stream keeps a permit as long as it is live. -/
structure ReadState.Held (s : ReadState) : Prop where
  permit : s.stream.permit = !s.ended
  done : s.stream.done = s.ended

/-- A session keeps a permit as long as it is live. -/
structure SessionState.Held (s : SessionState) : Prop where
  permit : s.session.permit = !s.ended
  closed : (s.session.cancelled || s.session.terminal) = s.ended

/-- What the streams and sessions of a population are subject to. -/
def EventPhase.Held : EventPhase → Prop
  | streaming body => body.Held
  | webSocket body => body.Held
  | _ => True

/-! ### One stream -/

namespace ReadState

variable {s t : ReadState} {action : ReadAction}

theorem ended_append (log : List ReadEvent) (stream : WebIngressResponseStream) (waiting : Nat)
    (event : ReadEvent) :
    (ReadState.mk stream waiting (log ++ [event])).ended = (log.any ReadEvent.ends || event.ends) := by
  simp [ended]

/-- A read that does not end the stream leaves its permit alone. -/
theorem Held.append (held : s.Held) {stream : WebIngressResponseStream} {waiting : Nat}
    {event : ReadEvent} (permit : stream.permit = s.stream.permit)
    (done : stream.done = s.stream.done) (goesOn : event.ends = true → s.ended = true) :
    (ReadState.mk stream waiting (s.log ++ [event])).Held := by
  have same : (s.ended || event.ends) = s.ended := Bool.or_eq_left_iff_imp.mpr goesOn
  refine ⟨?_, ?_⟩
  · rw [ended_append, ← ended, same, permit, held.permit]
  · rw [ended_append, ← ended, same, done, held.done]

/-- The stream has ended and has dropped its permit. -/
theorem held_of_over {stream : WebIngressResponseStream} {waiting : Nat} {log : List ReadEvent}
    {event : ReadEvent} (permit : stream.permit = false) (done : stream.done = true)
    (ending : event.ends = true) : (ReadState.mk stream waiting (log ++ [event])).Held := by
  refine ⟨?_, ?_⟩
  · rw [ended_append, ending, Bool.or_true, permit]
    rfl
  · rw [ended_append, ending, Bool.or_true, done]

theorem held_step (held : s.Held) (transition : s.step action = some t) :
    t.Held ∧ t.stream.permit.toNat ≤ s.stream.permit.toNat := by
  cases action with
  | receive =>
      rw [step] at transition
      obtain entered | ⟨ending, entered⟩ | entered := s.stream.enter_cases
      all_goals
        rw [entered] at transition
        cases transition
      · exact ⟨held.append rfl rfl (by rintro ⟨⟩), le_rfl⟩
      · exact ⟨held.append rfl rfl fun _ => held.done.symm.trans ending, le_rfl⟩
      · exact ⟨⟨held.permit, held.done⟩, le_rfl⟩
  | receiveEvent event =>
      rw [step] at transition
      split at transition
      · cases transition
      · obtain again | ⟨bytes, chunk⟩ | finished | ⟨failure, failed⟩ :=
          s.stream.received_cases event
        · rw [again] at transition
          cases transition
          exact ⟨⟨held.permit, held.done⟩, le_rfl⟩
        · rw [chunk] at transition
          cases transition
          exact ⟨held.append rfl rfl (by rintro ⟨⟩), le_rfl⟩
        · rw [finished] at transition
          cases transition
          exact ⟨held_of_over rfl rfl rfl, Nat.zero_le _⟩
        · rw [failed] at transition
          cases transition
          exact ⟨held_of_over rfl rfl rfl, Nat.zero_le _⟩
  | dropReceive =>
      rw [step] at transition
      split at transition
      · cases transition
      · cases transition
        exact ⟨⟨held.permit, held.done⟩, le_rfl⟩
  | cancel =>
      cases transition
      exact ⟨held_of_over rfl rfl rfl, Nat.zero_le _⟩

end ReadState

/-! ### One session -/

namespace SessionState

variable {s t : SessionState} {action : SessionAction}

theorem ended_append (log : List SessionEvent) (session : WebSocketSession)
    (sending receiving : Nat) (event : SessionEvent) :
    (SessionState.mk session sending receiving (log ++ [event])).ended =
      (log.any SessionEvent.ends || event.ends) := by
  simp [ended]

/-- A call that does not end the session leaves its permit alone. -/
theorem Held.append (held : s.Held) {session : WebSocketSession} {sending receiving : Nat}
    {event : SessionEvent} (permit : session.permit = s.session.permit)
    (cancelled : session.cancelled = s.session.cancelled)
    (terminal : session.terminal = s.session.terminal)
    (goesOn : event.ends = true → s.ended = true) :
    (SessionState.mk session sending receiving (s.log ++ [event])).Held := by
  have same : (s.ended || event.ends) = s.ended := Bool.or_eq_left_iff_imp.mpr goesOn
  refine ⟨?_, ?_⟩
  · rw [ended_append, ← ended, same, permit, held.permit]
  · rw [ended_append, ← ended, same, cancelled, terminal, held.closed]

/-- The session has ended and has dropped its permit. -/
theorem held_of_over {session : WebSocketSession} {sending receiving : Nat}
    {log : List SessionEvent} {event : SessionEvent} (permit : session.permit = false)
    (closed : (session.cancelled || session.terminal) = true) (ending : event.ends = true) :
    (SessionState.mk session sending receiving (log ++ [event])).Held := by
  refine ⟨?_, ?_⟩
  · rw [ended_append, ending, Bool.or_true, permit]
    rfl
  · rw [ended_append, ending, Bool.or_true, closed]

theorem held_step (held : s.Held) (transition : s.step action = some t) :
    t.Held ∧ t.session.permit.toNat ≤ s.session.permit.toNat := by
  cases action with
  | send frame =>
      rw [step] at transition
      obtain ⟨-, refused⟩ | ⟨-, invalid⟩ | ⟨-, -, -, forwarded⟩ := s.session.send_cases frame
      · rw [refused] at transition
        cases transition
        exact ⟨held.append rfl rfl rfl (by rintro ⟨⟩), le_rfl⟩
      · rw [invalid] at transition
        cases transition
        exact ⟨held_of_over rfl rfl rfl, Nat.zero_le _⟩
      · rw [forwarded] at transition
        cases transition
        exact ⟨held.append rfl rfl rfl (by rintro ⟨⟩), le_rfl⟩
  | sendReturns result =>
      simp only [step] at transition
      split at transition
      · cases transition
      · cases result with
        | ok _ =>
            cases transition
            exact ⟨⟨held.permit, held.closed⟩, le_rfl⟩
        | error failure =>
            cases transition
            exact ⟨held_of_over rfl rfl rfl, Nat.zero_le _⟩
  | dropSend =>
      rw [step] at transition
      split at transition
      · cases transition
      · cases transition
        exact ⟨⟨held.permit, held.closed⟩, le_rfl⟩
  | receive =>
      rw [step] at transition
      obtain ⟨-, entered⟩ | ⟨-, terminal, entered⟩ | ⟨-, -, entered⟩ | ⟨-, -, entered⟩ :=
        s.session.receive_cases
      all_goals
        rw [entered] at transition
        cases transition
      · exact ⟨held.append rfl rfl rfl (by rintro ⟨⟩), le_rfl⟩
      · refine ⟨held.append rfl rfl rfl fun _ => ?_, le_rfl⟩
        rw [← held.closed, terminal, Bool.or_true]
      · exact ⟨held.append rfl rfl rfl (by rintro ⟨⟩), le_rfl⟩
      · exact ⟨⟨held.permit, held.closed⟩, le_rfl⟩
  | receiveEvent event =>
      rw [step] at transition
      split at transition
      · cases transition
      · obtain again | finished | failed | ⟨frame, -, -, -, passed⟩ :=
          s.session.received_cases event
        · rw [again] at transition
          cases transition
          exact ⟨⟨held.permit, held.closed⟩, le_rfl⟩
        · rw [finished] at transition
          cases transition
          exact ⟨held_of_over rfl (Bool.or_true _) rfl, Nat.zero_le _⟩
        · rw [failed] at transition
          cases transition
          exact ⟨held_of_over rfl rfl rfl, Nat.zero_le _⟩
        · rw [passed] at transition
          cases transition
          exact ⟨held.append rfl rfl rfl (by rintro ⟨⟩), le_rfl⟩
  | dropReceive =>
      rw [step] at transition
      split at transition
      · cases transition
      · cases transition
        exact ⟨⟨held.permit, held.closed⟩, le_rfl⟩
  | cancel =>
      cases transition
      exact ⟨held_of_over rfl rfl rfl, Nat.zero_le _⟩

end SessionState

/-! ### One call -/

section Calls

variable {η : Type} {external : External} {state : EventState η}

/-- A fresh body keeps the permit of its request, if it is a stream or a session. -/
theorem held_ofBody {body : IngressBody} (fresh : body.Fresh) (permit : Bool)
    (owned : permit = true ∨ ∃ bytes, body = .buffered bytes) :
    (EventPhase.ofBody (body.toEvent permit)).Held ∧
      (EventPhase.ofBody (body.toEvent permit)).permits ≤ permit.toNat := by
  cases body with
  | buffered bytes => exact ⟨trivial, Nat.zero_le _⟩
  | streaming stream =>
      obtain rfl | ⟨bytes, ⟨⟩⟩ := owned
      exact ⟨⟨rfl, rfl⟩, le_rfl⟩
  | webSocket upgrade =>
      obtain rfl | ⟨bytes, ⟨⟩⟩ := owned
      obtain ⟨notCancelled, notTerminal⟩ := fresh upgrade rfl
      refine ⟨⟨rfl, ?_⟩, le_rfl⟩
      show (upgrade.session.cancelled || upgrade.session.terminal) = false
      rw [notCancelled, notTerminal]
      rfl

/-- A call returns the normalized body, or it unwinds. -/
theorem answer_eq (call : EventCall) (response : IngressResponse) (permit : Bool)
    (world : World η) :
    call.answer response permit world = .dropped ∨
      call.answer response permit world = .ofBody
        ((if response.carriesNoBody call.request.method then .buffered []
          else response.body).toEvent permit) := by
  rw [EventCall.answer, EventState.reply, Task.bind_apply, IngressResponse.normalizeBody_apply]
  by_cases empty : response.carriesNoBody call.request.method = true
  · rw [if_pos empty, if_pos empty]
    dsimp only
    cases written : withTransportHeaders _ call.requestId with
    | none => exact .inl rfl
    | some sent =>
        obtain ⟨-, -, rfl⟩ := withTransportHeaders_eq_some_iff.mp written
        exact .inr rfl
  · rw [if_neg empty, if_neg empty]
    dsimp only
    cases written : withTransportHeaders _ call.requestId with
    | none => exact .inl rfl
    | some sent =>
        obtain ⟨-, -, rfl⟩ := withTransportHeaders_eq_some_iff.mp written
        exact .inr rfl

/-- What a call returns keeps at most the permit of the call. -/
theorem held_answer (call : EventCall) {response : IngressResponse} (fresh : response.body.Fresh)
    (permit : Bool) (owned : permit = true ∨ ∃ bytes, response.body = .buffered bytes)
    (world : World η) :
    (call.answer response permit world).Held ∧
      (call.answer response permit world).permits ≤ permit.toNat := by
  obtain unwound | returned := answer_eq call response permit world
  · rw [unwound]
    exact ⟨trivial, Nat.zero_le _⟩
  · rw [returned]
    split
    · exact held_ofBody (IngressBody.fresh_buffered []) permit (.inr ⟨[], rfl⟩)
    · exact held_ofBody fresh permit owned

/-- A refusal is answered without keeping anything. -/
theorem held_answer_buffered (call : EventCall) {response : IngressResponse} {bytes : Bytes}
    (buffered : response.body = .buffered bytes) (permit : Bool) (world : World η) :
    (call.answer response permit world).Held ∧
      (call.answer response permit world).permits ≤ permit.toNat :=
  held_answer call (buffered ▸ IngressBody.fresh_buffered bytes) permit (.inr ⟨bytes, buffered⟩)
    world

namespace EventState

/-- What is refused before the permit is refused with a buffered body. -/
theorem refusal_buffered {isOpen isAccepting cancelled : Bool} {headLen : Nat}
    {response : IngressResponse}
    (refused : state.refusal isOpen isAccepting cancelled headLen = some response) :
    ∃ bytes, response.body = .buffered bytes := by
  rw [refusal] at refused
  split at refused
  · cases refused
    exact ⟨_, rfl⟩
  · split at refused
    · cases refused
      exact ⟨_, rfl⟩
    · split at refused
      · cases refused
        exact ⟨_, rfl⟩
      · cases refused

theorem refusalBehindPermit_buffered {isAccepting : Bool} {request : Request Bytes}
    {response : IngressResponse}
    (refused : state.refusalBehindPermit isAccepting request = some response) :
    ∃ bytes, response.body = .buffered bytes := by
  rw [refusalBehindPermit] at refused
  split at refused
  · cases refused
    exact ⟨_, rfl⟩
  · split at refused
    · cases refused
      exact ⟨_, rfl⟩
    · cases refused

end EventState

namespace EventPhase

/-- A held phase keeps a permit while the call is behind the semaphore or its body is
live, and at no other time. -/
theorem Held.permits_eq {phase : EventPhase} (held : phase.Held) :
    phase.permits = phase.acquired + phase.live := by
  cases phase with
  | streaming body =>
      show body.stream.permit.toNat = 0 + (!body.ended).toNat
      rw [held.permit, Nat.zero_add]
  | webSocket body =>
      show body.session.permit.toNat = 0 + (!body.ended).toNat
      rw [held.permit, Nat.zero_add]
  | _ => rfl

theorem Held.cancelToken {phase : EventPhase} (held : phase.Held) :
    phase.cancelToken.Held ∧ phase.cancelToken.permits = phase.permits := by
  cases phase <;> exact ⟨held, rfl⟩

end EventPhase

namespace EventPermits

/-- A new call keeps nothing at its first suspension point. -/
theorem held_enter (state : EventState η) (s : EventPermits) (request : Request Bytes) (cancelled : Bool)
    (world : World η) :
    (enter state s request cancelled world).Held ∧
      (enter state s request cancelled world).permits = 0 := by
  rw [enter]
  split
  · exact ⟨trivial, rfl⟩
  · split
    · exact ⟨trivial, rfl⟩
    · split
      · dsimp only
        split
        · next refused =>
          obtain ⟨bytes, buffered⟩ := EventState.refusal_buffered refused
          obtain ⟨held, most⟩ := held_answer_buffered _ buffered false world
          exact ⟨held, Nat.le_zero.mp most⟩
        · exact ⟨trivial, rfl⟩
      · exact ⟨trivial, rfl⟩

/-- Every step of a call takes a permit from the semaphore, or keeps what it has, or
drops it. -/
theorem held_advance {s : EventPermits} {old new : EventPhase} {action : EventAction η}
    (held : old.Held) (moved : advance external state s old action = some new) :
    new.Held ∧ new.permits ≤ s.available + old.permits := by
  cases action with
  | cancel index =>
      cases moved
      obtain ⟨held, same⟩ := held.cancelToken
      exact ⟨held, by omega⟩
  | appCancels index =>
      rw [advance] at moved
      split at moved
      · cases moved
        obtain ⟨held, same⟩ := held.cancelToken
        exact ⟨held, by omega⟩
      · cases moved
  | acquire index =>
      cases old with
      | waiting call =>
          simp only [advance] at moved
          split at moved
          · cases moved
          · cases moved
            refine ⟨trivial, ?_⟩
            simp only [EventPhase.permits]
            omega
      | _ => cases moved
  | giveUp index world =>
      cases old with
      | waiting call =>
          simp only [advance] at moved
          split at moved
          · cases moved
            obtain ⟨held, most⟩ :=
              held_answer_buffered call (rfl : unavailable.body = _) false world
            exact ⟨held, le_trans most (Nat.zero_le _)⟩
          · cases moved
      | _ => cases moved
  | resume index world =>
      cases old with
      | admitted call =>
          simp only [advance] at moved
          split at moved
          · next refused =>
            cases moved
            obtain ⟨bytes, buffered⟩ := EventState.refusalBehindPermit_buffered refused
            obtain ⟨held, most⟩ := held_answer_buffered call buffered true world
            exact ⟨held, le_trans most (Nat.le_add_left _ _)⟩
          · cases moved
            exact ⟨trivial, Nat.le_add_left _ _⟩
      | _ => cases moved
  | dispatched index world =>
      cases old with
      | dispatching call =>
          simp only [advance, dispatch] at moved
          split at moved
          · next response after returned =>
            cases moved
            have fresh := dispatchBuffered_fresh external call.request call.sessionCookie
              state.routes state.middleware world response after returned
            obtain ⟨held, most⟩ := held_answer call fresh true (.inl rfl) after
            exact ⟨held, le_trans most (Nat.le_add_left _ _)⟩
          · cases moved
          · cases moved
            exact ⟨trivial, Nat.zero_le _⟩
      | _ => cases moved
  | dropCall index =>
      rw [advance] at moved
      split at moved
      · cases moved
        exact ⟨trivial, Nat.zero_le _⟩
      · cases moved
  | read index action =>
      cases old with
      | streaming body =>
          obtain ⟨next, transition, rfl⟩ := Option.map_eq_some_iff.mp moved
          obtain ⟨held, kept⟩ := ReadState.held_step held transition
          exact ⟨held, le_trans kept (Nat.le_add_left _ _)⟩
      | _ => cases moved
  | socket index action =>
      cases old with
      | webSocket body =>
          obtain ⟨next, transition, rfl⟩ := Option.map_eq_some_iff.mp moved
          obtain ⟨held, kept⟩ := SessionState.held_step held transition
          exact ⟨held, le_trans kept (Nat.le_add_left _ _)⟩
      | _ => cases moved
  | dropBody index =>
      rw [advance] at moved
      split at moved
      · cases moved
        exact ⟨trivial, Nat.zero_le _⟩
      · cases moved
  | _ => cases moved

/-! ### All interleavings -/

/-- The permits of the semaphore and those that are kept add up, and every body
keeps one as long as it is live. -/
structure Conserved (capacity : Nat) (s : EventPermits) : Prop where
  held : ∀ phase ∈ s.calls, phase.Held
  total : s.available + census EventPhase.permits s.calls = capacity

theorem Conserved.settle {capacity : Nat} {s : EventPermits} (prior : Conserved capacity s)
    {index : Nat} {old new : EventPhase} (present : s.calls[index]? = some old)
    (held : new.Held) (enough : new.permits ≤ s.available + old.permits) :
    Conserved capacity (s.settle index old new) := by
  refine ⟨?_, ?_⟩
  · intro phase inside
    obtain before | rfl := List.mem_or_eq_of_mem_set inside
    · exact prior.held phase before
    · exact held
  · have moved := census_set EventPhase.permits present new
    have total := prior.total
    simp only [EventPermits.settle]
    omega

theorem Conserved.step {capacity : Nat} {s t : EventPermits} {action : EventAction η}
    (prior : Conserved capacity s) (transition : step external state s action = some t) :
    Conserved capacity t := by
  have about : ∀ index, action.index? = some index →
      (do
        let old ← s.calls[index]?
        let new ← advance external state s old action
        return s.settle index old new) = some t → Conserved capacity t := by
    intro index _ moved
    simp only [Option.bind_eq_bind, Option.bind_eq_some_iff, Option.pure_def,
      Option.some.injEq] at moved
    obtain ⟨old, present, new, advanced, rfl⟩ := moved
    obtain ⟨held, enough⟩ :=
      held_advance (prior.held old (List.mem_of_getElem? present)) advanced
    exact prior.settle present held enough
  cases action with
  | readiness isOpen isAccepting =>
      cases transition
      exact ⟨prior.held, prior.total⟩
  | shutdown =>
      cases transition
      exact ⟨prior.held, prior.total⟩
  | deactivate =>
      cases transition
      exact ⟨prior.held, prior.total⟩
  | call request cancelled world =>
      cases transition
      obtain ⟨held, nothing⟩ := held_enter state s request cancelled world
      refine ⟨?_, ?_⟩
      · intro phase inside
        obtain before | new := List.mem_append.mp inside
        · exact prior.held phase before
        · exact List.mem_singleton.mp new ▸ held
      · rw [census_append, census_cons, nothing]
        exact prior.total
  | cancel index => exact about index rfl transition
  | appCancels index => exact about index rfl transition
  | acquire index => exact about index rfl transition
  | giveUp index world => exact about index rfl transition
  | resume index world => exact about index rfl transition
  | dispatched index world => exact about index rfl transition
  | dropCall index => exact about index rfl transition
  | read index action => exact about index rfl transition
  | socket index action => exact about index rfl transition
  | dropBody index => exact about index rfl transition

theorem conserved_of_reachable {s : EventPermits} (reached : (machine external state).Reachable s) :
    Conserved state.config.maxConcurrentRequests s := by
  refine reached.invariant ?_ fun s action t _ prior transition => prior.step transition
  rintro s ⟨full, empty⟩
  refine ⟨?_, ?_⟩
  · rw [empty]
    rintro phase ⟨⟩
  · rw [empty, full]
    rfl

/-- The calls that have acquired a permit and have not returned. -/
def acquiredCalls (s : EventPermits) : Nat := census EventPhase.acquired s.calls

/-- The returned streams and sessions that are live. -/
def liveBodies (s : EventPermits) : Nat := census EventPhase.live s.calls

/-- At every step the free permits, the calls behind the semaphore and the live bodies
add up to the configured number, and each of these calls and bodies keeps one permit. -/
theorem permits_conserved (external : External) (state : EventState η) {s : EventPermits}
    (reached : (machine external state).Reachable s) :
    s.available + s.acquiredCalls + s.liveBodies = state.config.maxConcurrentRequests ∧
      ∀ phase ∈ s.calls, phase.permits = phase.acquired + phase.live := by
  have conserved := conserved_of_reachable reached
  have split : ∀ phase ∈ s.calls, phase.permits = phase.acquired + phase.live :=
    fun phase inside => (conserved.held phase inside).permits_eq
  refine ⟨?_, split⟩
  rw [acquiredCalls, liveBodies, Nat.add_assoc, ← census_add split]
  exact conserved.total

/-- A state with one route, to a Stream Endpoint. -/
def streamState : EventState Unit := ⟨.default, streamRoutes oneChunk, []⟩

/-- A first call returns a stream while a second one waits for its dispatch. -/
theorem permits_conserved_liveStream :
    ∃ s, (machine bareExternal streamState).Reachable s ∧ s.liveBodies = 1 ∧
      s.acquiredCalls = 1 ∧ s.available + 1 + 1 = streamState.config.maxConcurrentRequests := by
  let start : EventPermits :=
    ⟨true, true, true, false, streamState.config.maxConcurrentRequests, []⟩
  let world : World Unit := .start () 0 0
  let actions : List (EventAction Unit) :=
    [.call bareRequest false world, .acquire 0, .resume 0 world, .dispatched 0 world,
      .read 0 .receive, .call bareRequest false world, .acquire 1, .resume 1 world]
  have execution : ((machine bareExternal streamState).run actions start).map
      (fun s => (s.acquiredCalls, s.liveBodies)) = some (1, 1) := by decide +kernel
  obtain ⟨s, run, counts⟩ := Option.map_eq_some_iff.mp execution
  have reached : (machine bareExternal streamState).Reachable s :=
    ⟨start, actions, ⟨rfl, rfl⟩, run⟩
  have conserved := (permits_conserved bareExternal streamState reached).1
  obtain ⟨acquired, live⟩ := Prod.mk.inj counts
  rw [acquired, live] at conserved
  exact ⟨s, reached, live, acquired, conserved⟩

end EventPermits

end Calls

end Ingress
