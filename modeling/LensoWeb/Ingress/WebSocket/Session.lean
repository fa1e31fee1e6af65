import LensoWeb.Ingress.WebSocket

/-!
# Safety of WebSocket sessions

All interleavings of calls on one session with the events of its provider. Calls
wait at the stream in any number that the session lets in; the session lets in
one per direction. The log records every frame handed to the provider or to the
transport, and how calls ended.
-/

namespace Ingress

open Foundation Kernel

/-- What a session does, in order. `failed` is a call that failed validation or
transport, as opposed to a call that was not let in. -/
inductive SessionEvent where
  | forwarded (frame : Frame)
  | sendRefused
  | returned (frame : Frame)
  | receiveRefused
  | receiveFinished
  | failed
  | cancelled
deriving DecidableEq

/-- After this the session takes no more calls. -/
def SessionEvent.breaks : SessionEvent → Bool
  | .failed => true
  | .cancelled => true
  | _ => false

/-- A session with the calls that wait on its stream. -/
structure SessionState where
  session : WebSocketSession
  sending : Nat
  receiving : Nat
  log : List SessionEvent

inductive SessionAction where
  | send (frame : Frame)
  | sendReturns (result : Except RuntimeFailure Unit)
  | dropSend
  | receive
  | receiveEvent (event : Except RuntimeFailure (StreamEvent Frame ConnectWebsocketError))
  | dropReceive
  | cancel

namespace SessionState

variable {messageLimit sessionLimit : Nat} {s t : SessionState} {action : SessionAction}

/-- The frames handed to the provider. -/
def forwarded (s : SessionState) : List Frame :=
  s.log.filterMap fun event => match event with
    | .forwarded frame => some frame
    | _ => none

/-- The frames handed to the transport. -/
def returned (s : SessionState) : List Frame :=
  s.log.filterMap fun event => match event with
    | .returned frame => some frame
    | _ => none

/-- The session was cancelled, or a call failed validation or transport. -/
def Broken (s : SessionState) : Prop := ∃ event ∈ s.log, event.breaks = true

def step (s : SessionState) : SessionAction → Option SessionState
  | .send frame =>
      match s.session.send frame with
      | (.refused, session) => some { s with session, log := s.log ++ [.sendRefused] }
      | (.invalid, session) => some { s with session, log := s.log ++ [.failed] }
      | (.forwarded, session) =>
          some { s with session, sending := s.sending + 1, log := s.log ++ [.forwarded frame] }
  | .sendReturns result =>
      if s.sending = 0 then none
      else
        some
          { s with
            session := s.session.sendReturned result
            sending := s.sending - 1
            log := match result with
              | .ok () => s.log
              | .error _ => s.log ++ [.failed] }
  | .dropSend =>
      if s.sending = 0 then none
      else some { s with session.writing := false, sending := s.sending - 1 }
  | .receive =>
      match s.session.receive with
      | (.refused, session) => some { s with session, log := s.log ++ [.receiveRefused] }
      | (.finished, session) => some { s with session, log := s.log ++ [.receiveFinished] }
      | (.awaiting, session) => some { s with session, receiving := s.receiving + 1 }
  | .receiveEvent event =>
      if s.receiving = 0 then none
      else
        match s.session.received event with
        | (.again, session) => some { s with session }
        | (.frame frame, session) =>
            some
              { s with
                session
                receiving := s.receiving - 1
                log := s.log ++ [.returned frame] }
        | (.finished, session) =>
            some
              { s with
                session
                receiving := s.receiving - 1
                log := s.log ++ [.receiveFinished] }
        | (.failed, session) =>
            some { s with session, receiving := s.receiving - 1, log := s.log ++ [.failed] }
  | .dropReceive =>
      if s.receiving = 0 then none
      else some { s with session.reading := false, receiving := s.receiving - 1 }
  | .cancel => some { s with session := s.session.cancel, log := s.log ++ [.cancelled] }

/-- One session from its accept frame on. -/
def machine (messageLimit sessionLimit : Nat) : Machine SessionState SessionAction where
  initial s := ∃ stream protocol,
    s = ⟨.accepted stream protocol messageLimit sessionLimit, 0, 0, []⟩
  step := step

end SessionState

namespace WebSocketSession

variable {session : WebSocketSession} {frame : Frame}

/-- A frame is refused without a trace, or it is well formed and counted. -/
theorem validateData_cases (session : WebSocketSession) (frame : Frame) :
    (∃ failure, session.validateData frame = (.error failure, session)) ∨
    (frame.Carriable session.messageLimit ∧
      frame.payloadBytes ≤ session.sessionLimit - session.transferred ∧
      session.validateData frame =
        (.ok (), { session with transferred := session.transferred + frame.payloadBytes })) := by
  unfold validateData
  cases valid : validateFrame frame session.messageLimit with
  | error failure => exact .inl ⟨failure, rfl⟩
  | ok _ =>
      by_cases large : frame.payloadBytes > session.sessionLimit - session.transferred
      · exact .inl ⟨_, if_pos large⟩
      · exact .inr ⟨carriable_of_validateFrame valid, Nat.le_of_not_lt large, if_neg large⟩

/-- The session is open for another send. -/
def Sendable (session : WebSocketSession) : Prop :=
  session.cancelled = false ∧ session.terminal = false ∧ session.sentClose = false ∧
    session.writing = false

theorem send_cases (session : WebSocketSession) (frame : Frame) :
    (¬ session.Sendable ∧ session.send frame = (.refused, session)) ∨
    (session.Sendable ∧ session.send frame = (.invalid, session.cancel)) ∨
    (session.Sendable ∧ frame.Carriable session.messageLimit ∧
      frame.payloadBytes ≤ session.sessionLimit - session.transferred ∧
      session.send frame = (.forwarded,
        { session with
          transferred := session.transferred + frame.payloadBytes
          sentClose := decide (frame.kind = .close)
          writing := true })) := by
  obtain ⟨permit, stream, protocol, messageLimit, sessionLimit, transferred, cancelled, terminal,
    sentClose, receivedClose, reading, writing⟩ := session
  by_cases sendable : cancelled = false ∧ terminal = false ∧ sentClose = false ∧ writing = false
  · obtain ⟨rfl, rfl, rfl, rfl⟩ := sendable
    rcases validateData_cases ⟨permit, stream, protocol, messageLimit, sessionLimit, transferred,
      false, false, false, receivedClose, reading, true⟩ frame with
      ⟨failure, refused⟩ | ⟨carriable, small, counted⟩
    · refine .inr (.inl ⟨⟨rfl, rfl, rfl, rfl⟩, ?_⟩)
      simp only [send, Bool.or_self, Bool.false_eq_true, if_false, refused]
      rfl
    · refine .inr (.inr ⟨⟨rfl, rfl, rfl, rfl⟩, carriable, small, ?_⟩)
      simp only [send, Bool.or_self, Bool.false_eq_true, if_false, counted]
      by_cases close : frame.kind = .close <;> simp [close]
  · refine .inl ⟨sendable, ?_⟩
    rw [send, if_pos]
    revert sendable
    cases cancelled <;> cases terminal <;> cases sentClose <;> cases writing <;> simp

theorem receive_cases (session : WebSocketSession) :
    (session.cancelled = true ∧ session.receive = (.refused, session)) ∨
    (session.cancelled = false ∧ session.terminal = true ∧
      session.receive = (.finished, session)) ∨
    (session.cancelled = false ∧ session.reading = true ∧
      session.receive = (.refused, session)) ∨
    (session.cancelled = false ∧ session.reading = false ∧
      session.receive = (.awaiting, { session with reading := true })) := by
  unfold receive
  cases session.cancelled <;> cases session.terminal <;> cases session.reading <;> simp

theorem received_cases (session : WebSocketSession)
    (event : Except RuntimeFailure (StreamEvent Frame ConnectWebsocketError)) :
    session.received event = (.again, session) ∨
    session.received event =
      (.finished, { session with terminal := true, permit := false, reading := false }) ∨
    session.received event = (.failed, { session.cancel with reading := false }) ∨
    (∃ frame, session.receivedClose = false ∧ frame.Carriable session.messageLimit ∧
      frame.payloadBytes ≤ session.sessionLimit - session.transferred ∧
      session.received event = (.frame frame,
        { session with
          transferred := session.transferred + frame.payloadBytes
          receivedClose := decide (frame.kind = .close)
          reading := false })) := by
  cases event with
  | error failure => exact .inr (.inr (.inl rfl))
  | ok event =>
      cases event with
      | peerHalfClosed => exact .inl rfl
      | terminal result =>
          cases result with
          | ok _ => exact .inr (.inl rfl)
          | error _ => exact .inr (.inr (.inl rfl))
      | message frame =>
          cases open' : session.receivedClose with
          | true =>
              refine .inr (.inr (.inl ?_))
              simp only [received, open', if_true]
          | false =>
              rcases session.validateData_cases frame with
                ⟨failure, refused⟩ | ⟨carriable, small, counted⟩
              · refine .inr (.inr (.inl ?_))
                simp only [received, open', refused]
                rfl
              · refine .inr (.inr (.inr ⟨frame, rfl, carriable, small, ?_⟩))
                simp only [received, open', counted, Bool.false_eq_true, if_false]
                by_cases close : frame.kind = .close <;> simp [close]

end WebSocketSession

/-- Nothing follows a close frame. -/
def CloseLast (frames : List Frame) : Prop :=
  ∀ front frame rest, frames = front ++ frame :: rest → frame.kind = .close → rest = []

/-- The frames of one direction and whether its close frame has passed. -/
structure Direction (frames : List Frame) (closed : Bool) : Prop where
  closeLast : CloseLast frames
  noClose : closed = false → ∀ frame ∈ frames, frame.kind ≠ .close

/-- An open direction takes one more frame. -/
theorem Direction.concat {frames : List Frame} {closed : Bool}
    (direction : Direction frames closed) (stillOpen : closed = false) (frame : Frame) :
    Direction (frames ++ [frame]) (decide (frame.kind = .close)) := by
  have earlier := direction.noClose stillOpen
  refine ⟨?_, ?_⟩
  · intro front last rest split close
    by_contra more
    have inside : last ∈ frames := by
      have position : front ++ [last] <+: frames ++ [frame] := ⟨rest, by simp [split]⟩
      have shorter : (front ++ [last]).length ≤ frames.length := by
        have lengths := congrArg List.length split
        have positive := List.length_pos_iff.mpr more
        simp only [List.length_append, List.length_cons, List.length_nil] at lengths ⊢
        omega
      have within := List.prefix_of_prefix_length_le position (List.prefix_append _ _) shorter
      exact within.subset (List.mem_append_right _ (List.mem_singleton.mpr rfl))
    exact earlier last inside close
  · intro notClose other member
    obtain old | new := List.mem_append.mp member
    · exact earlier other old
    · rw [List.mem_singleton.mp new]
      exact of_decide_eq_false notClose

namespace SessionState

variable {messageLimit sessionLimit : Nat} {s t : SessionState} {action : SessionAction}

theorem forwarded_concat (s : SessionState) (event : SessionEvent) (session : WebSocketSession)
    (sending receiving : Nat) :
    forwarded ⟨session, sending, receiving, s.log ++ [event]⟩ =
      s.forwarded ++ (match event with | .forwarded frame => [frame] | _ => []) := by
  simp only [forwarded, List.filterMap_append]
  cases event <;> rfl

theorem returned_concat (s : SessionState) (event : SessionEvent) (session : WebSocketSession)
    (sending receiving : Nat) :
    returned ⟨session, sending, receiving, s.log ++ [event]⟩ =
      s.returned ++ (match event with | .returned frame => [frame] | _ => []) := by
  simp only [returned, List.filterMap_append]
  cases event <;> rfl

/-- The bytes that passed in both directions. -/
def carriedBytes (s : SessionState) : Nat :=
  ((s.forwarded ++ s.returned).map Frame.payloadBytes).sum

/-- What every interleaving keeps. -/
structure Safe (messageLimit sessionLimit : Nat) (s : SessionState) : Prop where
  limits : s.session.messageLimit = messageLimit ∧ s.session.sessionLimit = sessionLimit
  counted : s.carriedBytes = s.session.transferred
  within : s.session.transferred ≤ sessionLimit
  carriable : ∀ frame ∈ s.forwarded ++ s.returned, frame.Carriable messageLimit
  sent : Direction s.forwarded s.session.sentClose
  received : Direction s.returned s.session.receivedClose
  writing : s.sending = cond s.session.writing 1 0
  reading : s.receiving = cond s.session.reading 1 0
  broken : s.Broken → s.session.cancelled = true

namespace Safe

/-- A segment that passes no frame. -/
theorem quiet (prior : Safe messageLimit sessionLimit s) (forwarded : t.forwarded = s.forwarded)
    (returned : t.returned = s.returned)
    (limits : t.session.messageLimit = s.session.messageLimit ∧
      t.session.sessionLimit = s.session.sessionLimit)
    (transferred : t.session.transferred = s.session.transferred)
    (sentClose : t.session.sentClose = s.session.sentClose)
    (receivedClose : t.session.receivedClose = s.session.receivedClose)
    (writing : t.sending = cond t.session.writing 1 0)
    (reading : t.receiving = cond t.session.reading 1 0)
    (broken : t.Broken → t.session.cancelled = true) : Safe messageLimit sessionLimit t where
  limits := ⟨limits.1.trans prior.limits.1, limits.2.trans prior.limits.2⟩
  counted := by
    rw [carriedBytes, forwarded, returned, transferred]
    exact prior.counted
  within := transferred ▸ prior.within
  carriable := by
    rw [forwarded, returned]
    exact prior.carriable
  sent := by
    rw [forwarded, sentClose]
    exact prior.sent
  received := by
    rw [returned, receivedClose]
    exact prior.received
  writing := writing
  reading := reading
  broken := broken

/-- A segment that passes one frame. -/
theorem pass (prior : Safe messageLimit sessionLimit s) {frame : Frame}
    (carriable : frame.Carriable s.session.messageLimit)
    (small : frame.payloadBytes ≤ s.session.sessionLimit - s.session.transferred)
    (frames : (t.forwarded ++ t.returned).Perm (frame :: (s.forwarded ++ s.returned)))
    (limits : t.session.messageLimit = s.session.messageLimit ∧
      t.session.sessionLimit = s.session.sessionLimit)
    (transferred : t.session.transferred = s.session.transferred + frame.payloadBytes)
    (sent : Direction t.forwarded t.session.sentClose)
    (received : Direction t.returned t.session.receivedClose)
    (writing : t.sending = cond t.session.writing 1 0)
    (reading : t.receiving = cond t.session.reading 1 0)
    (broken : t.Broken → t.session.cancelled = true) : Safe messageLimit sessionLimit t := by
  have within := prior.within
  have counted := prior.counted
  rw [prior.limits.2] at small
  refine ⟨⟨limits.1.trans prior.limits.1, limits.2.trans prior.limits.2⟩, ?_, ?_, ?_, sent,
    received, writing, reading, broken⟩
  · rw [carriedBytes, (frames.map Frame.payloadBytes).sum_eq, List.map_cons, List.sum_cons,
      transferred]
    rw [carriedBytes] at counted
    omega
  · omega
  · intro other member
    obtain rfl | old := List.mem_cons.mp (frames.mem_iff.mp member)
    · exact prior.limits.1 ▸ carriable
    · exact prior.carriable other old

/-- An event that breaks nothing leaves the log as it was in this respect. -/
theorem not_broken (prior : Safe messageLimit sessionLimit s) (event : SessionEvent)
    (harmless : event.breaks = false) {session : WebSocketSession}
    {sending receiving : Nat} (kept : session.cancelled = s.session.cancelled) :
    Broken ⟨session, sending, receiving, s.log ++ [event]⟩ → session.cancelled = true := by
  rintro ⟨cause, member, breaks⟩
  rw [kept]
  obtain old | new := List.mem_append.mp member
  · exact prior.broken ⟨cause, old, breaks⟩
  · rw [List.mem_singleton.mp new, harmless] at breaks
    cases breaks

theorem send (prior : Safe messageLimit sessionLimit s) {frame : Frame}
    (taken : SessionState.step s (.send frame) = some t) : Safe messageLimit sessionLimit t := by
  simp only [SessionState.step] at taken
  rcases s.session.send_cases frame with
    ⟨-, refused⟩ | ⟨sendable, invalid⟩ | ⟨sendable, carriable, small, passed⟩
  · simp only [refused] at taken
    cases taken
    exact prior.quiet ((forwarded_concat s _ _ _ _).trans (List.append_nil _))
      ((returned_concat s _ _ _ _).trans (List.append_nil _)) ⟨rfl, rfl⟩ rfl rfl rfl
      prior.writing prior.reading (prior.not_broken .sendRefused rfl rfl)
  · simp only [invalid] at taken
    cases taken
    exact prior.quiet ((forwarded_concat s _ _ _ _).trans (List.append_nil _))
      ((returned_concat s _ _ _ _).trans (List.append_nil _)) ⟨rfl, rfl⟩ rfl rfl rfl
      prior.writing prior.reading (fun _ => rfl)
  · simp only [passed] at taken
    cases taken
    obtain ⟨-, -, stillOpen, notWriting⟩ := sendable
    refine prior.pass carriable small ?_ ⟨rfl, rfl⟩ rfl ?_ ?_ ?_ prior.reading
      (prior.not_broken (.forwarded frame) rfl rfl)
    · rw [forwarded_concat, returned_concat, List.append_nil, List.append_assoc]
      exact List.perm_middle
    · rw [forwarded_concat]
      exact prior.sent.concat stillOpen frame
    · rw [returned_concat, List.append_nil]
      exact prior.received
    · have idle := prior.writing
      rw [notWriting] at idle
      exact congrArg Nat.succ idle

/-- A waiting send owns the flag, so it is the only one. -/
theorem alone_sending (prior : Safe messageLimit sessionLimit s) (waiting : ¬ s.sending = 0) :
    s.sending - 1 = 0 := by
  have writing := prior.writing
  cases flag : s.session.writing with
  | true =>
      rw [writing, flag]
      rfl
  | false =>
      rw [flag] at writing
      exact absurd writing waiting

/-- A waiting receive owns the flag, so it is the only one. -/
theorem alone_receiving (prior : Safe messageLimit sessionLimit s) (waiting : ¬ s.receiving = 0) :
    s.receiving - 1 = 0 := by
  have reading := prior.reading
  cases flag : s.session.reading with
  | true =>
      rw [reading, flag]
      rfl
  | false =>
      rw [flag] at reading
      exact absurd reading waiting

theorem receiveEvent (prior : Safe messageLimit sessionLimit s)
    {event : Except RuntimeFailure (StreamEvent Frame ConnectWebsocketError)}
    (taken : SessionState.step s (.receiveEvent event) = some t) :
    Safe messageLimit sessionLimit t := by
  simp only [SessionState.step] at taken
  split at taken
  · cases taken
  · next waiting =>
    have only := prior.alone_receiving waiting
    rcases s.session.received_cases event with
      again | finished | failed | ⟨frame, stillOpen, carriable, small, passed⟩
    · simp only [again] at taken
      cases taken
      exact prior
    · simp only [finished] at taken
      cases taken
      exact prior.quiet ((forwarded_concat s _ _ _ _).trans (List.append_nil _))
        ((returned_concat s _ _ _ _).trans (List.append_nil _)) ⟨rfl, rfl⟩ rfl rfl rfl
        prior.writing only (prior.not_broken .receiveFinished rfl rfl)
    · simp only [failed] at taken
      cases taken
      exact prior.quiet ((forwarded_concat s _ _ _ _).trans (List.append_nil _))
        ((returned_concat s _ _ _ _).trans (List.append_nil _)) ⟨rfl, rfl⟩ rfl rfl rfl
        prior.writing only (fun _ => rfl)
    · simp only [passed] at taken
      cases taken
      refine prior.pass carriable small ?_ ⟨rfl, rfl⟩ rfl ?_ ?_ prior.writing only
        (prior.not_broken (.returned frame) rfl rfl)
      · rw [forwarded_concat, returned_concat, List.append_nil, ← List.append_assoc]
        exact List.perm_append_singleton _ _
      · rw [forwarded_concat, List.append_nil]
        exact prior.sent
      · rw [returned_concat]
        exact prior.received.concat stillOpen frame

theorem sendReturns (prior : Safe messageLimit sessionLimit s) {result : Except RuntimeFailure Unit}
    (taken : SessionState.step s (.sendReturns result) = some t) :
    Safe messageLimit sessionLimit t := by
  simp only [SessionState.step] at taken
  split at taken
  · cases taken
  · next waiting =>
    have only := prior.alone_sending waiting
    cases result with
    | ok _ =>
        cases taken
        exact prior.quiet rfl rfl ⟨rfl, rfl⟩ rfl rfl rfl only prior.reading prior.broken
    | error failure =>
        cases taken
        exact prior.quiet ((forwarded_concat s _ _ _ _).trans (List.append_nil _))
          ((returned_concat s _ _ _ _).trans (List.append_nil _)) ⟨rfl, rfl⟩ rfl rfl rfl
          only prior.reading (fun _ => rfl)

theorem receive (prior : Safe messageLimit sessionLimit s)
    (taken : SessionState.step s .receive = some t) : Safe messageLimit sessionLimit t := by
  simp only [SessionState.step] at taken
  rcases s.session.receive_cases with
    ⟨-, refused⟩ | ⟨-, -, finished⟩ | ⟨-, -, refused⟩ | ⟨-, notReading, awaiting⟩
  · simp only [refused] at taken
    cases taken
    exact prior.quiet ((forwarded_concat s _ _ _ _).trans (List.append_nil _))
      ((returned_concat s _ _ _ _).trans (List.append_nil _)) ⟨rfl, rfl⟩ rfl rfl rfl
      prior.writing prior.reading (prior.not_broken .receiveRefused rfl rfl)
  · simp only [finished] at taken
    cases taken
    exact prior.quiet ((forwarded_concat s _ _ _ _).trans (List.append_nil _))
      ((returned_concat s _ _ _ _).trans (List.append_nil _)) ⟨rfl, rfl⟩ rfl rfl rfl
      prior.writing prior.reading (prior.not_broken .receiveFinished rfl rfl)
  · simp only [refused] at taken
    cases taken
    exact prior.quiet ((forwarded_concat s _ _ _ _).trans (List.append_nil _))
      ((returned_concat s _ _ _ _).trans (List.append_nil _)) ⟨rfl, rfl⟩ rfl rfl rfl
      prior.writing prior.reading (prior.not_broken .receiveRefused rfl rfl)
  · simp only [awaiting] at taken
    cases taken
    have idle := prior.reading
    rw [notReading] at idle
    exact prior.quiet rfl rfl ⟨rfl, rfl⟩ rfl rfl rfl prior.writing (congrArg Nat.succ idle)
      prior.broken

theorem step (prior : Safe messageLimit sessionLimit s)
    (taken : SessionState.step s action = some t) : Safe messageLimit sessionLimit t := by
  cases action with
  | send frame => exact prior.send taken
  | sendReturns result => exact prior.sendReturns taken
  | dropSend =>
      simp only [SessionState.step] at taken
      split at taken
      · cases taken
      · next waiting =>
        cases taken
        exact prior.quiet rfl rfl ⟨rfl, rfl⟩ rfl rfl rfl (prior.alone_sending waiting)
          prior.reading prior.broken
  | receive => exact prior.receive taken
  | receiveEvent event => exact prior.receiveEvent taken
  | dropReceive =>
      simp only [SessionState.step] at taken
      split at taken
      · cases taken
      · next waiting =>
        cases taken
        exact prior.quiet rfl rfl ⟨rfl, rfl⟩ rfl rfl rfl prior.writing
          (prior.alone_receiving waiting) prior.broken
  | cancel =>
      cases taken
      exact prior.quiet ((forwarded_concat s _ _ _ _).trans (List.append_nil _))
        ((returned_concat s _ _ _ _).trans (List.append_nil _)) ⟨rfl, rfl⟩ rfl rfl rfl
        prior.writing prior.reading (fun _ => rfl)

end Safe

theorem safe_of_reachable (reached : (machine messageLimit sessionLimit).Reachable s) :
    Safe messageLimit sessionLimit s := by
  refine reached.invariant (P := Safe messageLimit sessionLimit) ?_ ?_
  · rintro s ⟨stream, protocol, rfl⟩
    refine ⟨⟨rfl, rfl⟩, rfl, Nat.zero_le _, ?_, ⟨?_, ?_⟩, ⟨?_, ?_⟩, rfl, rfl, ?_⟩
    · intro frame member
      cases member
    · intro front frame rest split
      exact absurd split (by simp [forwarded])
    · intro stillOpen frame member
      cases member
    · intro front frame rest split
      exact absurd split (by simp [returned])
    · intro stillOpen frame member
      cases member
    · rintro ⟨event, member, -⟩
      cases member
  · intro u action v reached prior transition
    exact prior.step transition

/-! ### After the session is cancelled -/

/-- A cancelled session stays cancelled and forwards nothing more. -/
theorem step_of_cancelled (cancelled : s.session.cancelled = true)
    (taken : step s action = some t) :
    t.session.cancelled = true ∧ t.forwarded = s.forwarded := by
  cases action with
  | send frame =>
      obtain ⟨-, refused⟩ | ⟨sendable, -⟩ | ⟨sendable, -⟩ := s.session.send_cases frame
      · simp only [step, refused] at taken
        cases taken
        exact ⟨cancelled, (forwarded_concat s _ _ _ _).trans (List.append_nil _)⟩
      · cases cancelled.symm.trans sendable.1
      · cases cancelled.symm.trans sendable.1
  | sendReturns result =>
      simp only [step] at taken
      split at taken
      · cases taken
      · cases result with
        | ok _ =>
            cases taken
            exact ⟨cancelled, rfl⟩
        | error failure =>
            cases taken
            exact ⟨rfl, (forwarded_concat s _ _ _ _).trans (List.append_nil _)⟩
  | dropSend =>
      simp only [step] at taken
      split at taken
      · cases taken
      · cases taken
        exact ⟨cancelled, rfl⟩
  | receive =>
      rcases s.session.receive_cases with
        ⟨-, refused⟩ | ⟨open', -⟩ | ⟨open', -⟩ | ⟨open', -⟩
      · simp only [step, refused] at taken
        cases taken
        exact ⟨cancelled, (forwarded_concat s _ _ _ _).trans (List.append_nil _)⟩
      all_goals cases cancelled.symm.trans open'
  | receiveEvent event =>
      simp only [step] at taken
      split at taken
      · cases taken
      · rcases s.session.received_cases event with
          again | finished | failed | ⟨frame, -, -, -, passed⟩
        · simp only [again] at taken
          cases taken
          exact ⟨cancelled, rfl⟩
        · simp only [finished] at taken
          cases taken
          exact ⟨cancelled, (forwarded_concat s _ _ _ _).trans (List.append_nil _)⟩
        · simp only [failed] at taken
          cases taken
          exact ⟨rfl, (forwarded_concat s _ _ _ _).trans (List.append_nil _)⟩
        · simp only [passed] at taken
          cases taken
          exact ⟨cancelled, (forwarded_concat s _ _ _ _).trans (List.append_nil _)⟩
  | dropReceive =>
      simp only [step] at taken
      split at taken
      · cases taken
      · cases taken
        exact ⟨cancelled, rfl⟩
  | cancel =>
      cases taken
      exact ⟨rfl, (forwarded_concat s _ _ _ _).trans (List.append_nil _)⟩

theorem run_of_cancelled {actions : List SessionAction} (cancelled : s.session.cancelled = true)
    (execution : (machine messageLimit sessionLimit).run actions s = some t) :
    t.session.cancelled = true ∧ t.forwarded = s.forwarded := by
  refine Machine.run_preserves
    (P := fun u => u.session.cancelled = true ∧ u.forwarded = s.forwarded) ?_ ⟨cancelled, rfl⟩
    execution
  rintro u action v ⟨cancelled, same⟩ transition
  obtain ⟨stays, forwards⟩ := step_of_cancelled cancelled transition
  exact ⟨stays, forwards.trans same⟩

/-- Session safety over all interleavings: the byte budget and the message limit
hold, each direction ends with its close frame, only carriable frames pass, one
call per direction is in progress and the flags say so, and once the session is
cancelled or a call has failed, nothing is forwarded and every receive is refused. -/
theorem session_safe (reached : (machine messageLimit sessionLimit).Reachable s) :
    s.carriedBytes ≤ sessionLimit ∧
    (∀ frame ∈ s.forwarded ++ s.returned, frame.Carriable messageLimit) ∧
    CloseLast s.forwarded ∧ CloseLast s.returned ∧
    (s.Broken → ∀ actions t, (machine messageLimit sessionLimit).run actions s = some t →
      t.forwarded = s.forwarded ∧
      ∀ u, (machine messageLimit sessionLimit).step t .receive = some u →
        u.log = t.log ++ [.receiveRefused] ∧ u.receiving = t.receiving) ∧
    s.sending = cond s.session.writing 1 0 ∧ s.receiving = cond s.session.reading 1 0 := by
  have safe := safe_of_reachable reached
  refine ⟨safe.counted ▸ safe.within, safe.carriable, safe.sent.closeLast,
    safe.received.closeLast, ?_, safe.writing, safe.reading⟩
  intro broken actions t execution
  obtain ⟨cancelled, forwards⟩ := run_of_cancelled (safe.broken broken) execution
  refine ⟨forwards, fun u taken => ?_⟩
  obtain ⟨-, refused⟩ | ⟨open', -⟩ | ⟨open', -⟩ | ⟨open', -⟩ := t.session.receive_cases
  · simp only [machine, step, refused] at taken
    cases taken
    exact ⟨rfl, rfl⟩
  all_goals cases cancelled.symm.trans open'

/-- An echo of one text frame, then a frame over the message limit. -/
def echoThenOversized : List SessionAction :=
  let hi : Frame := ⟨.text, none, some (ascii "hi"), none, none, none⟩
  [.send hi, .receive, .sendReturns (.ok ()), .receiveEvent (.ok (.message hi)),
    .send ⟨.text, none, some (ascii "too long"), none, none, none⟩]

theorem session_safe_echo :
    ∃ s, (machine 4 8).Reachable s ∧ s.Broken ∧ s.carriedBytes ≤ 8 := by
  have outcome : ∃ s, (machine 4 8).Reachable s ∧ s.Broken :=
    ⟨_, ⟨_, echoThenOversized, ⟨0, none, rfl⟩, rfl⟩, .failed, by decide, rfl⟩
  obtain ⟨s, reached, broken⟩ := outcome
  exact ⟨s, reached, broken, (session_safe reached).1⟩

end SessionState

end Ingress
