import LensoWeb.Ingress.WebSocket.Session

/-!
# The native socket pump

Two loops share a socket and a session: one hands the messages of the peer to the
session, the other hands the frames of the session to the peer. They are polled by one
task, so their segments interleave in any order with the events of the peer, of the
provider and of the clock. The first loop that fails ends both.

A frame that is written to a socket which is already closed is dropped by the socket
without an error of the pump.
-/

namespace Ingress

open Foundation Kernel

/-- `tungstenite::Message`; a close frame may come without a code. -/
inductive SocketMessage where
  | text (text : Bytes)
  | binary (body : Bytes)
  | close (frame : Option (Nat × Bytes))
  | ping
  | pong
  | raw
deriving DecidableEq

/-- What the incoming loop makes of a message. -/
inductive Intake where
  | skip
  | refused
  | frame (frame : Frame)

/-- The `match` of the incoming loop. -/
def SocketMessage.intake : SocketMessage → Intake
  | .text content => .frame ⟨.text, none, some content, none, none, none⟩
  | .binary content => .frame ⟨.binary, none, none, some content, none, none⟩
  | .close (some (code, reason)) => .frame ⟨.close, none, none, none, some code, some reason⟩
  | .close none => .frame ⟨.close, none, none, none, some 1000, none⟩
  | .ping => .skip
  | .pong => .skip
  | .raw => .refused

/-- The frame that a message is handed on as. -/
def SocketMessage.frame? (message : SocketMessage) : Option Frame :=
  match message.intake with
  | .frame frame => some frame
  | _ => none

/-- What the outgoing loop makes of a frame. -/
inductive Answer where
  | write (message : SocketMessage)
  | flush
  | refused

/-- The `match` of the outgoing loop. -/
def Frame.answer (peerClosed : Bool) (frame : Frame) : Answer :=
  match frame.kind with
  | .text => frame.text.elim .refused fun text => .write (.text text)
  | .binary => frame.body.elim .refused fun body => .write (.binary body)
  | .close =>
      if peerClosed then .flush
      else frame.code.elim .refused fun code =>
        if 0 ≤ code ∧ code < 2 ^ 16 then
          .write (.close (some (code.toNat, frame.reason.getD [])))
        else .refused
  | .accept => .refused

/-- How a call on the sink ends. -/
inductive SinkEnd where
  | ok
  | alreadyClosed
  | failed
deriving DecidableEq

/-- Where the incoming loop is. -/
inductive Incoming where
  | reading
  | sending (closing : Bool)
  | done
deriving DecidableEq

/-- Where the outgoing loop is. -/
inductive Outgoing where
  | starting
  | receiving
  | writing
  | flushing
  | closing
  | done
deriving DecidableEq

/-- Where the task is; `reporting` sends the peer a last close frame. A task that has
completed has seen the end of both loops. -/
inductive PumpStage where
  | upgrading
  | exchanging
  | reporting
  | ended (completed : Bool)
deriving DecidableEq

/-- The task of one socket. `read` and `written` are the messages that passed through its
two halves, without the last close frame of a failed exchange. -/
structure Pump where
  shared : SessionState
  stage : PumpStage
  incoming : Incoming
  outgoing : Outgoing
  peerClosed : Bool
  read : List SocketMessage
  written : List SocketMessage

inductive PumpAction where
  | upgraded (succeeded : Bool)
  | starts
  | message (event : Option (Except Unit SocketMessage))
  | sendReturns (result : Except RuntimeFailure Unit)
  | providerEvent (event : Except RuntimeFailure (StreamEvent Frame ConnectWebsocketError))
  | sinkReturns (result : SinkEnd)
  | expire
  | cancel
  | reported

namespace SessionState

/-- A call of the session, which is always let in. -/
def perform (s : SessionState) (action : SessionAction) : SessionState := (step s action).getD s

/-- The calls that are in flight are dropped. -/
def dropCalls (s : SessionState) : SessionState := (s.perform .dropSend).perform .dropReceive

end SessionState

namespace Pump

/-- A loop failed, the lifetime is over or the App shuts down: the loops are dropped. -/
def fail (s : Pump) : Pump := { s with shared := s.shared.dropCalls, stage := .reporting }

/-- `session.cancel()` at the end of the task. -/
def finish (s : Pump) (completed : Bool) : Pump :=
  { s with shared := s.shared.perform .cancel, stage := .ended completed }

/-- The exchange is over when both loops are done. -/
def settle (s : Pump) : Pump :=
  if s.incoming = .done ∧ s.outgoing = .done then s.finish true else s

/-- The head of the outgoing loop. -/
def nextReceive (s : Pump) : Pump :=
  let next := { s with shared := s.shared.perform .receive }
  match s.shared.session.receive.1 with
  | .refused => next.fail
  | .finished => { next with outgoing := .closing }
  | .awaiting => { next with outgoing := .receiving }

/-- A message of the peer, behind the count of what was read. -/
def takeIn (s : Pump) (message : SocketMessage) : Pump :=
  match message.intake with
  | .skip => s
  | .refused => s.fail
  | .frame frame =>
      let closing := decide (frame.kind = .close)
      let next := { s with
        shared := s.shared.perform (.send frame)
        peerClosed := s.peerClosed || closing }
      match (s.shared.session.send frame).1 with
      | .forwarded => { next with incoming := .sending closing }
      | _ => next.fail

/-- A frame of the provider, behind the call that returned it. -/
def handOut (s : Pump) (frame : Frame) : Pump :=
  match frame.answer s.peerClosed with
  | .write message => { s with outgoing := .writing, written := s.written ++ [message] }
  | .flush => { s with outgoing := .flushing }
  | .refused => s.fail

/-- One segment of the task. -/
def step (s : Pump) : PumpAction → Option Pump
  | .upgraded succeeded =>
      if s.stage ≠ .upgrading then none
      else if succeeded then some { s with stage := .exchanging }
      else some (s.finish false)
  | .starts =>
      if s.stage ≠ .exchanging ∨ s.outgoing ≠ .starting then none else some s.nextReceive
  | .message event =>
      if s.stage ≠ .exchanging ∨ s.incoming ≠ .reading then none
      else
        match event with
        | some (.ok message) => some ({ s with read := s.read ++ [message] }.takeIn message)
        | _ => some s.fail
  | .sendReturns result =>
      if s.stage ≠ .exchanging then none
      else
        match s.incoming with
        | .sending closing =>
            let next := { s with shared := s.shared.perform (.sendReturns result) }
            match result with
            | .ok () => some { next with incoming := if closing then .done else .reading }.settle
            | .error _ => some next.fail
        | _ => none
  | .providerEvent event =>
      if s.stage ≠ .exchanging ∨ s.outgoing ≠ .receiving then none
      else
        let next := { s with shared := s.shared.perform (.receiveEvent event) }
        match (s.shared.session.received event).1 with
        | .again => some next
        | .finished => some { next with outgoing := .closing }
        | .failed => some next.fail
        | .frame frame => some (next.handOut frame)
  | .sinkReturns result =>
      if s.stage ≠ .exchanging then none
      else
        match s.outgoing with
        | .closing =>
            if result = .failed then some s.fail else some { s with outgoing := .done }.settle
        | .writing => if result = .failed then some s.fail else some s.nextReceive
        | .flushing => if result = .failed then some s.fail else some s.nextReceive
        | _ => none
  | .expire => if s.stage ≠ .exchanging then none else some s.fail
  | .cancel =>
      match s.stage with
      | .upgrading => some (s.finish false)
      | .exchanging => some s.fail
      | _ => none
  | .reported => if s.stage ≠ .reporting then none else some (s.finish false)

/-- `run`, when it is first polled. -/
def start (session : WebSocketSession) : Pump where
  shared := ⟨session, 0, 0, []⟩
  stage := .upgrading
  incoming := .reading
  outgoing := .starting
  peerClosed := false
  read := []
  written := []

/-- `run`, from a session that was accepted. -/
def machine (messageLimit sessionLimit : Nat) : Machine Pump PumpAction where
  initial s := ∃ stream protocol, s = start (.accepted stream protocol messageLimit sessionLimit)
  step := step

end Pump

/-! ### Calls of the session -/

namespace SessionState

variable {messageLimit sessionLimit : Nat} {s : SessionState}

theorem perform_reachable (reached : (machine messageLimit sessionLimit).Reachable s)
    (action : SessionAction) : (machine messageLimit sessionLimit).Reachable (s.perform action) := by
  unfold perform
  cases taken : step s action with
  | none => exact reached
  | some t => exact reached.step taken

/-- A call passes these frames and leaves so many calls in flight. -/
structure Passes (s t : SessionState) (forwarded returned : List Frame) (sending receiving : Nat) :
    Prop where
  forwarded : t.forwarded = s.forwarded ++ forwarded
  returned : t.returned = s.returned ++ returned
  sending : t.sending = sending
  receiving : t.receiving = receiving
  terminal : s.session.terminal = true → t.session.terminal = true

/-- A call that only writes down how it ended. -/
theorem passes_concat {event : SessionEvent} {session : WebSocketSession} {sending receiving : Nat}
    (terminal : s.session.terminal = true → session.terminal = true) :
    Passes s ⟨session, sending, receiving, s.log ++ [event]⟩
      (match event with | .forwarded frame => [frame] | _ => [])
      (match event with | .returned frame => [frame] | _ => []) sending receiving :=
  ⟨forwarded_concat s event session sending receiving,
    returned_concat s event session sending receiving, rfl, rfl, terminal⟩

theorem passes_quiet {session : WebSocketSession} {sending receiving : Nat}
    (terminal : s.session.terminal = true → session.terminal = true) :
    Passes s ⟨session, sending, receiving, s.log⟩ [] [] sending receiving :=
  ⟨(List.append_nil _).symm, (List.append_nil _).symm, rfl, rfl, terminal⟩

theorem perform_send (s : SessionState) (frame : Frame) :
    ((s.session.send frame).1 = .forwarded ∧
      Passes s (s.perform (.send frame)) [frame] [] (s.sending + 1) s.receiving) ∨
    ((s.session.send frame).1 ≠ .forwarded ∧
      Passes s (s.perform (.send frame)) [] [] s.sending s.receiving) := by
  obtain ⟨-, refused⟩ | ⟨-, invalid⟩ | ⟨-, -, -, passed⟩ := s.session.send_cases frame
  · refine .inr ⟨by rw [refused]; rintro ⟨⟩, ?_⟩
    simp only [perform, step, refused, Option.getD_some]
    exact passes_concat id
  · refine .inr ⟨by rw [invalid]; rintro ⟨⟩, ?_⟩
    simp only [perform, step, invalid, Option.getD_some]
    exact passes_concat id
  · refine .inl ⟨by rw [passed], ?_⟩
    simp only [perform, step, passed, Option.getD_some]
    exact passes_concat id

theorem perform_sendReturns (waiting : s.sending ≠ 0) (result : Except RuntimeFailure Unit) :
    Passes s (s.perform (.sendReturns result)) [] [] (s.sending - 1) s.receiving := by
  simp only [perform, step, if_neg waiting, Option.getD_some]
  cases result with
  | ok _ => exact passes_quiet id
  | error failure => exact passes_concat id

theorem perform_receive (s : SessionState) :
    (s.session.receive.1 = .awaiting ∧
      Passes s (s.perform .receive) [] [] s.sending (s.receiving + 1)) ∨
    (s.session.receive.1 = .finished ∧ (s.perform .receive).session.terminal = true ∧
      Passes s (s.perform .receive) [] [] s.sending s.receiving) ∨
    (s.session.receive.1 = .refused ∧
      Passes s (s.perform .receive) [] [] s.sending s.receiving) := by
  obtain ⟨-, refused⟩ | ⟨-, terminal, finished⟩ | ⟨-, -, refused⟩ | ⟨-, -, awaiting⟩ :=
    s.session.receive_cases
  · refine .inr (.inr ⟨by rw [refused], ?_⟩)
    simp only [perform, step, refused, Option.getD_some]
    exact passes_concat id
  · refine .inr (.inl ⟨by rw [finished], ?_, ?_⟩) <;>
      simp only [perform, step, finished, Option.getD_some]
    · exact terminal
    · exact passes_concat id
  · refine .inr (.inr ⟨by rw [refused], ?_⟩)
    simp only [perform, step, refused, Option.getD_some]
    exact passes_concat id
  · refine .inl ⟨by rw [awaiting], ?_⟩
    simp only [perform, step, awaiting, Option.getD_some]
    exact passes_quiet id

/-- A frame that a receive returns has been validated. -/
theorem valid_of_received {session : WebSocketSession} {frame : Frame}
    {event : Except RuntimeFailure (StreamEvent Frame ConnectWebsocketError)}
    (returned : (session.received event).1 = .frame frame) :
    validateFrame frame session.messageLimit = .ok () := by
  unfold WebSocketSession.received at returned
  split at returned
  · next other =>
    split at returned
    · cases returned
    · split at returned
      · cases returned
      · next counted =>
        cases returned
        unfold WebSocketSession.validateData at counted
        split at counted
        · cases counted
        · next valid => exact valid
  all_goals cases returned

theorem perform_receiveEvent (waiting : s.receiving ≠ 0)
    (event : Except RuntimeFailure (StreamEvent Frame ConnectWebsocketError)) :
    ((s.session.received event).1 = .again ∧
      Passes s (s.perform (.receiveEvent event)) [] [] s.sending s.receiving) ∨
    ((s.session.received event).1 = .finished ∧
      (s.perform (.receiveEvent event)).session.terminal = true ∧
      Passes s (s.perform (.receiveEvent event)) [] [] s.sending (s.receiving - 1)) ∨
    ((s.session.received event).1 = .failed ∧
      Passes s (s.perform (.receiveEvent event)) [] [] s.sending (s.receiving - 1)) ∨
    ∃ frame, (s.session.received event).1 = .frame frame ∧
      validateFrame frame s.session.messageLimit = .ok () ∧
      Passes s (s.perform (.receiveEvent event)) [] [frame] s.sending (s.receiving - 1) := by
  obtain again | finished | failed | ⟨frame, -, -, -, passed⟩ := s.session.received_cases event
  · refine .inl ⟨by rw [again], ?_⟩
    simp only [perform, step, if_neg waiting, again, Option.getD_some]
    exact passes_quiet id
  · refine .inr (.inl ⟨by rw [finished], ?_, ?_⟩) <;>
      simp only [perform, step, if_neg waiting, finished, Option.getD_some]
    exact passes_concat fun _ => rfl
  · refine .inr (.inr (.inl ⟨by rw [failed], ?_⟩))
    simp only [perform, step, if_neg waiting, failed, Option.getD_some]
    exact passes_concat id
  · refine .inr (.inr (.inr ⟨frame, by rw [passed], valid_of_received (by rw [passed]), ?_⟩))
    simp only [perform, step, if_neg waiting, passed, Option.getD_some]
    exact passes_concat id

theorem perform_cancel (s : SessionState) :
    Passes s (s.perform .cancel) [] [] s.sending s.receiving ∧
      (s.perform .cancel).session.cancelled = true ∧ (s.perform .cancel).session.permit = false :=
  ⟨passes_concat id, rfl, rfl⟩

/-- Dropped calls are no longer in flight, if there was one of each at most. -/
theorem dropCalls_passes (sending : s.sending ≤ 1) (receiving : s.receiving ≤ 1) :
    Passes s s.dropCalls [] [] 0 0 := by
  have first : Passes s (s.perform .dropSend) [] [] 0 s.receiving := by
    by_cases none : s.sending = 0
    · simp only [perform, step, if_pos none, Option.getD_none]
      exact ⟨(List.append_nil _).symm, (List.append_nil _).symm, none, rfl, id⟩
    · simp only [perform, step, if_neg none, Option.getD_some]
      exact ⟨(List.append_nil _).symm, (List.append_nil _).symm, by dsimp only; omega, rfl, id⟩
  unfold dropCalls
  generalize s.perform .dropSend = t at first
  have second : Passes t (t.perform .dropReceive) [] [] t.sending 0 := by
    by_cases none : t.receiving = 0
    · simp only [perform, step, if_pos none, Option.getD_none]
      exact ⟨(List.append_nil _).symm, (List.append_nil _).symm, rfl, none, id⟩
    · simp only [perform, step, if_neg none, Option.getD_some]
      have one := first.receiving
      exact ⟨(List.append_nil _).symm, (List.append_nil _).symm, rfl, by dsimp only; omega, id⟩
  refine ⟨?_, ?_, second.sending.trans first.sending, second.receiving, second.terminal ∘ first.terminal⟩
  · rw [second.forwarded, first.forwarded, List.append_nil]
  · rw [second.returned, first.returned, List.append_nil]

end SessionState

/-! ### Messages and frames -/

/-- A frame is written as a message, unless the peer has closed. -/
def WrittenAs (frame : Frame) (message : SocketMessage) : Prop := frame.answer false = .write message

/-- A validated frame is written or, where the peer has closed before, answered by a flush. -/
theorem answer_cases {frame : Frame} {limit : Nat} (valid : validateFrame frame limit = .ok ())
    (peerClosed : Bool) :
    (∃ message, frame.answer peerClosed = .write message ∧ WrittenAs frame message) ∨
      (frame.answer peerClosed = .flush ∧ frame.kind = .close ∧ peerClosed = true) := by
  have formed : frame.wellFormed limit = true := by
    unfold validateFrame at valid
    split at valid
    · cases valid
    · split at valid
      · next formed => exact formed
      · cases valid
  obtain ⟨kind, protocol, text, body, code, reason⟩ := frame
  cases kind with
  | accept => cases formed
  | text =>
      cases text with
      | none => cases formed
      | some text => exact .inl ⟨.text text, rfl, rfl⟩
  | binary =>
      cases body with
      | none =>
          simp [Frame.wellFormed] at formed
      | some body => exact .inl ⟨.binary body, rfl, rfl⟩
  | close =>
      cases code with
      | none => simp [Frame.wellFormed] at formed
      | some code =>
          have bounds : 0 ≤ code ∧ code < 2 ^ 16 := by
            simp only [Frame.wellFormed, Frame.closeCode, Option.any_some, Bool.and_eq_true,
              Bool.or_eq_true, decide_eq_true_eq] at formed
            omega
          have written : WrittenAs ⟨.close, protocol, text, body, some code, reason⟩
              (.close (some (code.toNat, reason.getD []))) := if_pos bounds
          cases peerClosed with
          | false => exact .inl ⟨_, written, written⟩
          | true => exact .inr ⟨rfl, rfl, rfl⟩

/-- Only a close message is handed on as a close frame. -/
theorem frame_kind_close_iff {message : SocketMessage} {frame : Frame}
    (taken : message.intake = .frame frame) :
    frame.kind = .close ↔ ∃ close, message = .close close := by
  cases message with
  | text content => cases taken; exact ⟨nofun, nofun⟩
  | binary content => cases taken; exact ⟨nofun, nofun⟩
  | close close =>
      cases close <;>
      · cases taken
        exact ⟨fun _ => ⟨_, rfl⟩, fun _ => rfl⟩
  | ping => cases taken
  | pong => cases taken
  | raw => cases taken

/-! ### What every interleaving keeps -/

namespace Pump

variable {messageLimit sessionLimit : Nat} {s t : Pump}

/-- What was read has been handed on, but for one message that was refused, and what was
returned has been written, but for a close frame that the peer has sent before. -/
structure Carries (messageLimit sessionLimit : Nat) (s : Pump) : Prop where
  session : (SessionState.machine messageLimit sessionLimit).Reachable s.shared
  inward : ∃ refused, s.read.filterMap SocketMessage.frame? = s.shared.forwarded ++ refused ∧
    refused.length ≤ 1
  outward : ∃ front answered, s.shared.returned = front ++ answered ∧
    List.Forall₂ WrittenAs front s.written ∧
    (answered = [] ∨ ∃ close, answered = [close] ∧ close.kind = .close ∧ s.peerClosed = true)
  unclosed : s.peerClosed = false → ∀ close, .close close ∉ s.read
  closed : s.peerClosed = true →
    ∃ front close, s.read = front ++ [.close close] ∧ ∀ other, .close other ∉ front

/-- The incoming loop knows whether the peer has closed. -/
def Agrees (peerClosed : Bool) : Incoming → Prop
  | .reading => peerClosed = false
  | .sending closing => closing = peerClosed
  | .done => peerClosed = true

/-- Both loops are where their calls say. -/
structure Exchanges (messageLimit sessionLimit : Nat) (s : Pump) : Prop
    extends Carries messageLimit sessionLimit s where
  exact : s.read.filterMap SocketMessage.frame? = s.shared.forwarded
  sending : s.shared.sending = if s.incoming = .reading ∨ s.incoming = .done then 0 else 1
  receiving : s.shared.receiving = if s.outgoing = .receiving then 1 else 0
  incoming : Agrees s.peerClosed s.incoming
  outgoing : s.outgoing = .closing ∨ s.outgoing = .done → s.shared.session.terminal = true

/-- No call of the session is in flight. -/
def Idle (s : Pump) : Prop := s.shared.sending = 0 ∧ s.shared.receiving = 0

/-- A task that has ended has cancelled its session, and one that has completed has seen a close
frame of the peer and the end of the provider. -/
structure Ended (s : Pump) (completed : Bool) : Prop where
  idle : s.Idle
  cancelled : s.shared.session.cancelled = true
  permit : s.shared.session.permit = false
  completed : completed = true → s.peerClosed = true ∧ s.shared.session.terminal = true

/-- What holds at each stage. -/
def Sound (messageLimit sessionLimit : Nat) (s : Pump) : Prop :=
  match s.stage with
  | .upgrading => Exchanges messageLimit sessionLimit s ∧ s.Idle
  | .exchanging => Exchanges messageLimit sessionLimit s
  | .reporting => Carries messageLimit sessionLimit s ∧ s.Idle
  | .ended completed => Carries messageLimit sessionLimit s ∧ s.Ended completed

/-- A call that passes no frame. -/
theorem Carries.pass (carries : Carries messageLimit sessionLimit s) {sending receiving : Nat}
    (session : (SessionState.machine messageLimit sessionLimit).Reachable t.shared)
    (passes : SessionState.Passes s.shared t.shared [] [] sending receiving)
    (read : t.read = s.read) (written : t.written = s.written)
    (peerClosed : t.peerClosed = s.peerClosed) : Carries messageLimit sessionLimit t := by
  have forwarded := passes.forwarded
  have returned := passes.returned
  rw [List.append_nil] at forwarded returned
  exact ⟨session, by rw [read, forwarded]; exact carries.inward,
    by rw [returned, written, peerClosed]; exact carries.outward,
    by rw [read, peerClosed]; exact carries.unclosed,
    by rw [read, peerClosed]; exact carries.closed⟩

theorem sound_fail (carries : Carries messageLimit sessionLimit s) :
    Sound messageLimit sessionLimit s.fail := by
  have safe := SessionState.safe_of_reachable carries.session
  have passes := @SessionState.dropCalls_passes s.shared
    (by rw [safe.writing]; cases s.shared.session.writing <;> decide)
    (by rw [safe.reading]; cases s.shared.session.reading <;> decide)
  have session := SessionState.perform_reachable
    (SessionState.perform_reachable carries.session .dropSend) .dropReceive
  exact ⟨carries.pass session passes rfl rfl rfl, passes.sending, passes.receiving⟩

theorem sound_finish (carries : Carries messageLimit sessionLimit s) (idle : s.Idle)
    {completed : Bool}
    (ends : completed = true → s.peerClosed = true ∧ s.shared.session.terminal = true) :
    Sound messageLimit sessionLimit (s.finish completed) := by
  obtain ⟨passes, cancelled, permit⟩ := s.shared.perform_cancel
  have session := SessionState.perform_reachable carries.session .cancel
  exact ⟨carries.pass session passes rfl rfl rfl, ⟨passes.sending.trans idle.1,
    passes.receiving.trans idle.2⟩, cancelled, permit,
    fun completed => ⟨(ends completed).1, passes.terminal (ends completed).2⟩⟩

theorem Exchanges.sound (exchanges : Exchanges messageLimit sessionLimit s)
    (stage : s.stage = .exchanging) : Sound messageLimit sessionLimit s := by
  rw [Sound, stage]
  exact exchanges

theorem sound_settle (exchanges : Exchanges messageLimit sessionLimit s)
    (stage : s.stage = .exchanging) : Sound messageLimit sessionLimit s.settle := by
  unfold settle
  split
  · next done =>
    have incoming := exchanges.incoming
    rw [done.1] at incoming
    refine sound_finish exchanges.toCarries ⟨?_, ?_⟩ fun _ =>
      ⟨incoming, exchanges.outgoing (.inr done.2)⟩
    · rw [exchanges.sending, if_pos (.inr done.1)]
    · rw [exchanges.receiving, done.2, if_neg nofun]
  · exact exchanges.sound stage

/-- The head of the outgoing loop, where no receive is in flight. -/
theorem sound_nextReceive (exchanges : Exchanges messageLimit sessionLimit s)
    (stage : s.stage = .exchanging) (none : s.outgoing ≠ .receiving) :
    Sound messageLimit sessionLimit s.nextReceive := by
  have zero := exchanges.receiving
  rw [if_neg none] at zero
  have session := SessionState.perform_reachable exchanges.session .receive
  unfold nextReceive
  obtain ⟨entry, passes⟩ | ⟨entry, terminal, passes⟩ | ⟨entry, passes⟩ := s.shared.perform_receive
  · rw [entry]
    have exchanged : Exchanges messageLimit sessionLimit
        { s with shared := s.shared.perform .receive, outgoing := .receiving } := by
      refine ⟨exchanges.toCarries.pass session passes rfl rfl rfl, ?_,
        passes.sending.trans exchanges.sending, ?_, exchanges.incoming, nofun⟩
      · rw [passes.forwarded, List.append_nil]
        exact exchanges.exact
      · rw [passes.receiving, zero]
        rfl
    exact exchanged.sound stage
  · rw [entry]
    have exchanged : Exchanges messageLimit sessionLimit
        { s with shared := s.shared.perform .receive, outgoing := .closing } := by
      refine ⟨exchanges.toCarries.pass session passes rfl rfl rfl, ?_,
        passes.sending.trans exchanges.sending, ?_, exchanges.incoming, fun _ => terminal⟩
      · rw [passes.forwarded, List.append_nil]
        exact exchanges.exact
      · rw [passes.receiving, zero]
        rfl
    exact exchanged.sound stage
  · rw [entry]
    exact sound_fail (exchanges.toCarries.pass session passes rfl rfl rfl)

/-- A message that is not handed on. -/
theorem Exchanges.ignore (exchanges : Exchanges messageLimit sessionLimit s)
    (peerOpen : s.peerClosed = false) {message : SocketMessage} (none : message.frame? = none) :
    Exchanges messageLimit sessionLimit { s with read := s.read ++ [message] } := by
  have frames : (s.read ++ [message]).filterMap SocketMessage.frame? =
      s.read.filterMap SocketMessage.frame? := by
    rw [List.filterMap_append, List.filterMap_cons, none]
    exact List.append_nil _
  have other : ∀ close, message ≠ .close close := by
    rintro (_ | _) rfl <;> cases none
  refine ⟨⟨exchanges.session, frames ▸ exchanges.inward, exchanges.outward, ?_, ?_⟩,
    frames.trans exchanges.exact, exchanges.sending, exchanges.receiving, exchanges.incoming,
    exchanges.outgoing⟩
  · intro _ close member
    obtain old | new := List.mem_append.mp member
    · exact exchanges.unclosed peerOpen close old
    · exact other close (List.mem_singleton.mp new).symm
  · intro closed
    rw [peerOpen] at closed
    cases closed

/-- What a message was read as, once its frame has been given to the session. -/
theorem Exchanges.carries_taken (exchanges : Exchanges messageLimit sessionLimit s)
    (peerOpen : s.peerClosed = false) {message : SocketMessage} {frame : Frame}
    (taken : message.intake = .frame frame) {shared : SessionState}
    (session : (SessionState.machine messageLimit sessionLimit).Reachable shared)
    {forwarded : List Frame} {sending receiving : Nat}
    (passes : SessionState.Passes s.shared shared forwarded [] sending receiving)
    (handed : forwarded = [frame] ∨ forwarded = []) (incoming : Incoming) :
    Carries messageLimit sessionLimit { s with
      read := s.read ++ [message]
      shared
      peerClosed := s.peerClosed || decide (frame.kind = .close)
      incoming } := by
  have frames : (s.read ++ [message]).filterMap SocketMessage.frame? =
      s.shared.forwarded ++ [frame] := by
    have here : message.frame? = some frame := by rw [SocketMessage.frame?, taken]
    rw [List.filterMap_append, exchanges.exact, List.filterMap_cons, here]
    rfl
  constructor
  · exact session
  · rw [frames, passes.forwarded]
    obtain rfl | rfl := handed
    · exact ⟨[], (List.append_nil _).symm, Nat.zero_le _⟩
    · exact ⟨[frame], by rw [List.append_nil], le_refl _⟩
  · obtain ⟨front, answered, returned, written, closing⟩ := exchanges.outward
    refine ⟨front, answered, ?_, written, ?_⟩
    · rw [passes.returned, List.append_nil]
      exact returned
    · obtain none | ⟨close, -, -, closed⟩ := closing
      · exact .inl none
      · rw [peerOpen] at closed
        cases closed
  · dsimp only
    rw [peerOpen, Bool.false_or]
    intro other close member
    obtain old | new := List.mem_append.mp member
    · exact exchanges.unclosed peerOpen close old
    · have kind := (frame_kind_close_iff taken).mpr ⟨close, (List.mem_singleton.mp new).symm⟩
      rw [kind] at other
      cases other
  · dsimp only
    rw [peerOpen, Bool.false_or]
    intro closing
    obtain ⟨close, rfl⟩ := (frame_kind_close_iff taken).mp (of_decide_eq_true closing)
    exact ⟨s.read, close, rfl, exchanges.unclosed peerOpen⟩

theorem sound_takeIn (exchanges : Exchanges messageLimit sessionLimit s)
    (stage : s.stage = .exchanging) (reading : s.incoming = .reading) (message : SocketMessage) :
    Sound messageLimit sessionLimit ({ s with read := s.read ++ [message] }.takeIn message) := by
  have peerOpen : s.peerClosed = false := by
    have incoming := exchanges.incoming
    rwa [reading] at incoming
  unfold takeIn
  split
  · next skip =>
    exact (exchanges.ignore peerOpen (by rw [SocketMessage.frame?, skip])).sound stage
  · next refused =>
    exact sound_fail (exchanges.ignore peerOpen (by rw [SocketMessage.frame?, refused])).toCarries
  · next frame taken =>
    have session := SessionState.perform_reachable exchanges.session (.send frame)
    have zero := exchanges.sending
    rw [if_pos (.inl reading)] at zero
    obtain ⟨entry, passes⟩ | ⟨entry, passes⟩ := s.shared.perform_send frame
    · dsimp only
      rw [entry]
      have exchanged : Exchanges messageLimit sessionLimit { s with
          read := s.read ++ [message]
          shared := s.shared.perform (.send frame)
          peerClosed := s.peerClosed || decide (frame.kind = .close)
          incoming := .sending (decide (frame.kind = .close)) } := by
        refine ⟨exchanges.carries_taken peerOpen taken session passes (.inl rfl) _, ?_, ?_,
          passes.receiving.trans exchanges.receiving, ?_, fun ends =>
            passes.terminal (exchanges.outgoing ends)⟩
        · have here : message.frame? = some frame := by rw [SocketMessage.frame?, taken]
          rw [List.filterMap_append, exchanges.exact, List.filterMap_cons, here, passes.forwarded]
          rfl
        · rw [passes.sending, zero]
          rfl
        · rw [peerOpen, Bool.false_or]
          rfl
      exact exchanged.sound stage
    · have carries := exchanges.carries_taken peerOpen taken session passes (.inr rfl) s.incoming
      dsimp only
      split
      · next forwarded => exact absurd forwarded entry
      · exact sound_fail carries

/-- A frame of the provider is written, or it is a close frame that the peer has sent before. -/
theorem sound_handOut (exchanges : Exchanges messageLimit sessionLimit s)
    (stage : s.stage = .exchanging) {shared : SessionState}
    (session : (SessionState.machine messageLimit sessionLimit).Reachable shared) {frame : Frame}
    {limit : Nat} (valid : validateFrame frame limit = .ok ())
    (passes : SessionState.Passes s.shared shared [] [frame] s.shared.sending 0) :
    Sound messageLimit sessionLimit ({ s with shared }.handOut frame) := by
  have exact : s.read.filterMap SocketMessage.frame? = shared.forwarded := by
    rw [passes.forwarded, List.append_nil]
    exact exchanges.exact
  obtain ⟨front, answered, returned, written, closing⟩ := exchanges.outward
  have last := (SessionState.safe_of_reachable session).received.closeLast
  rw [passes.returned, returned] at last
  have nothing : answered = [] := by
    obtain none | ⟨close, rfl, kind, -⟩ := closing
    · exact none
    · cases last front close [frame] (by simp) kind
  subst nothing
  rw [List.append_nil] at returned
  have inward : ∃ refused, s.read.filterMap SocketMessage.frame? = shared.forwarded ++ refused ∧
      refused.length ≤ 1 := ⟨[], by rw [exact, List.append_nil], Nat.zero_le _⟩
  unfold handOut
  obtain ⟨message, answer, writes⟩ | ⟨answer, kind, closed⟩ := answer_cases valid s.peerClosed
  · dsimp only
    rw [answer]
    have exchanged : Exchanges messageLimit sessionLimit
        { s with shared, outgoing := .writing, written := s.written ++ [message] } := by
      refine ⟨⟨session, inward, ⟨front ++ [frame], [], ?_, ?_, .inl rfl⟩, exchanges.unclosed,
        exchanges.closed⟩, exact, passes.sending.trans exchanges.sending, passes.receiving,
        exchanges.incoming, by rintro (ends | ends) <;> cases ends⟩
      · rw [passes.returned, returned, List.append_nil]
      · exact List.rel_append written (.cons writes .nil)
    exact exchanged.sound stage
  · dsimp only
    rw [answer]
    have exchanged : Exchanges messageLimit sessionLimit
        { s with shared, outgoing := .flushing } := by
      refine ⟨⟨session, inward, ⟨front, [frame], ?_, written, .inr ⟨frame, rfl, kind, closed⟩⟩,
        exchanges.unclosed, exchanges.closed⟩, exact, passes.sending.trans exchanges.sending,
        passes.receiving, exchanges.incoming, by rintro (ends | ends) <;> cases ends⟩
      rw [passes.returned, returned]
    exact exchanged.sound stage

/-- A call of a loop that passes no frame and leaves the loop somewhere else. -/
theorem Exchanges.pass (exchanges : Exchanges messageLimit sessionLimit s) {action : SessionAction}
    {count receives : Nat}
    (passes : SessionState.Passes s.shared (s.shared.perform action) [] [] count receives)
    {place : Incoming} {toward : Outgoing}
    (sending : count = if place = .reading ∨ place = .done then 0 else 1)
    (receiving : receives = if toward = .receiving then 1 else 0)
    (incoming : Agrees s.peerClosed place)
    (outgoing : toward = .closing ∨ toward = .done →
      (s.shared.perform action).session.terminal = true) :
    Exchanges messageLimit sessionLimit
      { s with shared := s.shared.perform action, incoming := place, outgoing := toward } := by
  refine ⟨exchanges.toCarries.pass (SessionState.perform_reachable exchanges.session action) passes
    rfl rfl rfl, ?_, passes.sending.trans sending, passes.receiving.trans receiving, incoming,
    outgoing⟩
  rw [passes.forwarded, List.append_nil]
  exact exchanges.exact

theorem sound_sendReturns (exchanges : Exchanges messageLimit sessionLimit s)
    (stage : s.stage = .exchanging) {result : Except RuntimeFailure Unit}
    (taken : s.step (.sendReturns result) = some t) : Sound messageLimit sessionLimit t := by
  rw [step, if_neg (not_not_intro stage)] at taken
  cases place : s.incoming with
  | reading =>
      rw [place] at taken
      cases taken
  | done =>
      rw [place] at taken
      cases taken
  | sending closing =>
      rw [place] at taken
      have one := exchanges.sending
      rw [place, if_neg (by simp)] at one
      have knows := exchanges.incoming
      rw [place] at knows
      have passes := s.shared.perform_sendReturns (by rw [one]; decide) result
      cases result with
      | error failure =>
          cases taken
          have session := SessionState.perform_reachable exchanges.session (.sendReturns (.error failure))
          exact sound_fail (exchanges.toCarries.pass session passes rfl rfl rfl)
      | ok _ =>
          cases taken
          have next : Agrees s.peerClosed (if closing = true then .done else .reading) := by
            obtain rfl : closing = s.peerClosed := knows
            cases s.peerClosed <;> rfl
          have moved := exchanges.pass passes
            (show s.shared.sending - 1 = _ by
              rw [one]
              cases closing <;> rfl)
            exchanges.receiving next fun ends => passes.terminal (exchanges.outgoing ends)
          exact sound_settle moved stage

theorem sound_providerEvent (exchanges : Exchanges messageLimit sessionLimit s)
    (stage : s.stage = .exchanging)
    {event : Except RuntimeFailure (StreamEvent Frame ConnectWebsocketError)}
    (taken : s.step (.providerEvent event) = some t) : Sound messageLimit sessionLimit t := by
  simp only [step] at taken
  split at taken
  · cases taken
  · next here =>
    push Not at here
    have one := exchanges.receiving
    rw [here.2, if_pos rfl] at one
    have session := SessionState.perform_reachable exchanges.session (.receiveEvent event)
    obtain ⟨entry, passes⟩ | ⟨entry, terminal, passes⟩ | ⟨entry, passes⟩ | ⟨frame, entry, valid, passes⟩ :=
      s.shared.perform_receiveEvent (by rw [one]; decide) event
    · rw [entry] at taken
      cases taken
      exact (exchanges.pass passes exchanges.sending exchanges.receiving exchanges.incoming
        fun ends => passes.terminal (exchanges.outgoing ends)).sound stage
    · rw [entry] at taken
      cases taken
      exact (exchanges.pass passes exchanges.sending (by rw [one]; rfl) exchanges.incoming
        fun _ => terminal).sound stage
    · rw [entry] at taken
      cases taken
      exact sound_fail (exchanges.toCarries.pass session passes rfl rfl rfl)
    · rw [entry] at taken
      cases taken
      rw [one] at passes
      exact sound_handOut exchanges stage session valid passes

theorem sound_sinkReturns (exchanges : Exchanges messageLimit sessionLimit s)
    (stage : s.stage = .exchanging) {result : SinkEnd}
    (taken : s.step (.sinkReturns result) = some t) : Sound messageLimit sessionLimit t := by
  have written : ∀ {t : Pump}, s.outgoing ≠ .receiving →
      (if result = .failed then some s.fail else some s.nextReceive) = some t →
      Sound messageLimit sessionLimit t := by
    intro t other taken
    split at taken
    · cases taken
      exact sound_fail exchanges.toCarries
    · cases taken
      exact sound_nextReceive exchanges stage other
  rw [step, if_neg (not_not_intro stage)] at taken
  cases place : s.outgoing with
  | starting =>
      rw [place] at taken
      cases taken
  | receiving =>
      rw [place] at taken
      cases taken
  | done =>
      rw [place] at taken
      cases taken
  | writing =>
      rw [place] at taken
      exact written (by rw [place]; exact nofun) taken
  | flushing =>
      rw [place] at taken
      exact written (by rw [place]; exact nofun) taken
  | closing =>
      rw [place] at taken
      dsimp only at taken
      split at taken
      · cases taken
        exact sound_fail exchanges.toCarries
      · cases taken
        have receives := exchanges.receiving
        rw [place] at receives
        have closed : Exchanges messageLimit sessionLimit { s with outgoing := .done } :=
          ⟨⟨exchanges.session, exchanges.inward, exchanges.outward, exchanges.unclosed,
            exchanges.closed⟩, exchanges.exact, exchanges.sending, receives, exchanges.incoming,
            fun _ => exchanges.outgoing (.inl place)⟩
        exact sound_settle closed stage

theorem Sound.step (sound : Sound messageLimit sessionLimit s) {action : PumpAction}
    (taken : s.step action = some t) : Sound messageLimit sessionLimit t := by
  cases stage : s.stage with
  | upgrading =>
      rw [Sound, stage] at sound
      obtain ⟨exchanges, idle⟩ := sound
      cases action with
      | upgraded succeeded =>
          simp only [Pump.step, stage, ne_eq, not_true_eq_false, if_false] at taken
          split at taken
          · cases taken
            exact ⟨⟨exchanges.session, exchanges.inward, exchanges.outward, exchanges.unclosed,
              exchanges.closed⟩, exchanges.exact, exchanges.sending, exchanges.receiving,
              exchanges.incoming, exchanges.outgoing⟩
          · cases taken
            exact sound_finish exchanges.toCarries idle (by rintro ⟨⟩)
      | cancel =>
          simp only [Pump.step, stage] at taken
          cases taken
          exact sound_finish exchanges.toCarries idle (by rintro ⟨⟩)
      | _ => simp [Pump.step, stage] at taken
  | exchanging =>
      rw [Sound, stage] at sound
      cases action with
      | upgraded succeeded => simp [Pump.step, stage] at taken
      | starts =>
          simp only [Pump.step] at taken
          split at taken
          · cases taken
          · next here =>
            push Not at here
            cases taken
            exact sound_nextReceive sound stage (by rw [here.2]; rintro ⟨⟩)
      | message event =>
          simp only [Pump.step] at taken
          split at taken
          · cases taken
          · next here =>
            push Not at here
            split at taken
            · cases taken
              exact sound_takeIn sound stage here.2 _
            · cases taken
              exact sound_fail sound.toCarries
      | sendReturns result => exact sound_sendReturns sound stage taken
      | providerEvent event => exact sound_providerEvent sound stage taken
      | sinkReturns result => exact sound_sinkReturns sound stage taken
      | expire =>
          simp only [Pump.step, stage, ne_eq, not_true_eq_false, if_false] at taken
          cases taken
          exact sound_fail sound.toCarries
      | cancel =>
          simp only [Pump.step, stage] at taken
          cases taken
          exact sound_fail sound.toCarries
      | reported => simp [Pump.step, stage] at taken
  | reporting =>
      rw [Sound, stage] at sound
      cases action with
      | reported =>
          simp only [Pump.step, stage, ne_eq, not_true_eq_false, if_false] at taken
          cases taken
          exact sound_finish sound.1 sound.2 (by rintro ⟨⟩)
      | _ => simp [Pump.step, stage] at taken
  | ended completed => cases action <;> simp [Pump.step, stage] at taken

theorem sound_of_reachable (reached : (machine messageLimit sessionLimit).Reachable s) :
    Sound messageLimit sessionLimit s := by
  refine reached.invariant (P := Sound messageLimit sessionLimit) ?_ ?_
  · rintro s ⟨stream, protocol, rfl⟩
    exact ⟨⟨⟨.of_initial ⟨stream, protocol, rfl⟩, ⟨[], rfl, Nat.zero_le _⟩, ⟨[], [], rfl, .nil, .inl rfl⟩,
      fun _ _ => List.not_mem_nil, nofun⟩, rfl, rfl, rfl, rfl, by rintro (ends | ends) <;> cases ends⟩,
      rfl, rfl⟩
  · intro u action v _ prior transition
    exact prior.step transition

/-- The pump relays in both directions, whatever the order of events: the session is only used
as its own interleavings allow; the provider gets the messages of the peer in their order, up to
the last one if that was refused; the peer gets the frames of the provider in their order, but
for a close frame that it has sent itself before; nothing is read behind a close frame; no call
outlives the exchange; and the task does not end without cancelling the session. -/
theorem pump_relays (reached : (machine messageLimit sessionLimit).Reachable s) :
    (SessionState.machine messageLimit sessionLimit).Reachable s.shared ∧
    (∃ refused, s.read.filterMap SocketMessage.frame? = s.shared.forwarded ++ refused ∧
      refused.length ≤ 1 ∧ (s.stage = .exchanging → refused = [])) ∧
    (∃ front answered, s.shared.returned = front ++ answered ∧
      List.Forall₂ WrittenAs front s.written ∧
      (answered = [] ∨ ∃ close, answered = [close] ∧ close.kind = .close ∧ s.peerClosed = true)) ∧
    (∀ front close rest, s.read = front ++ .close close :: rest → rest = []) ∧
    (s.stage ≠ .exchanging → s.Idle) ∧
    (∀ completed, s.stage = .ended completed → s.shared.session.cancelled = true ∧
      s.shared.session.permit = false ∧
      (completed = true → (∃ close, .close close ∈ s.read) ∧ s.shared.session.terminal = true)) := by
  have sound := sound_of_reachable reached
  have carries : Carries messageLimit sessionLimit s := by
    unfold Sound at sound
    split at sound
    · exact sound.1.toCarries
    · exact sound.toCarries
    · exact sound.1
    · exact sound.1
  refine ⟨carries.session, ?_, carries.outward, ?_, fun other => ?_, fun completed stage => ?_⟩
  · obtain ⟨refused, split, short⟩ := carries.inward
    refine ⟨refused, split, short, fun stage => ?_⟩
    rw [Sound, stage] at sound
    rw [sound.exact] at split
    exact List.self_eq_append_right.mp split
  · intro front close rest split
    cases closed : s.peerClosed with
    | false =>
        have none := carries.unclosed closed close
        rw [split] at none
        exact absurd (List.mem_append_right _ List.mem_cons_self) none
    | true =>
        obtain ⟨before, last, whole, none⟩ := carries.closed closed
        by_contra more
        obtain ⟨init, final, rfl⟩ := List.eq_nil_or_concat rest |>.resolve_left more
        have same : before ++ [.close last] = (front ++ .close close :: init) ++ [final] := by
          rw [← whole, split, List.append_assoc, List.cons_append, List.concat_eq_append]
        have front := (List.append_inj' same rfl).1
        rw [front] at none
        exact none close (List.mem_append_right _ List.mem_cons_self)
  · unfold Sound at sound
    split at sound
    · exact sound.2
    · next here => exact absurd here other
    · exact sound.2
    · exact sound.2.idle
  · rw [Sound, stage] at sound
    refine ⟨sound.2.cancelled, sound.2.permit, fun finished => ?_⟩
    obtain ⟨closed, terminal⟩ := sound.2.completed finished
    obtain ⟨front, close, whole, -⟩ := carries.closed closed
    exact ⟨⟨close, whole ▸ List.mem_append_right _ (List.mem_singleton_self _)⟩, terminal⟩

/-- An echo of one text message, and a close of the peer that the provider echoes as well. -/
def echoThenClose : List PumpAction :=
  let hi : Frame := ⟨.text, none, some (ascii "hi"), none, none, none⟩
  let close : Frame := ⟨.close, none, none, none, some 1000, none⟩
  [.upgraded true, .starts, .message (some (.ok (.text (ascii "hi")))), .sendReturns (.ok ()),
    .providerEvent (.ok (.message hi)), .sinkReturns .ok, .message (some (.ok (.close none))),
    .sendReturns (.ok ()), .providerEvent (.ok (.message close)), .sinkReturns .ok,
    .providerEvent (.ok (.terminal (.ok ()))), .sinkReturns .alreadyClosed]

theorem pump_relays_echo :
    ∃ s, (machine 4 8).Reachable s ∧ s.stage = .ended true ∧ s.written = [.text (ascii "hi")] ∧
      s.shared.session.cancelled = true := by
  have outcome : ∃ s, (machine 4 8).Reachable s ∧ s.stage = .ended true ∧
      s.written = [.text (ascii "hi")] :=
    ⟨_, ⟨_, echoThenClose, ⟨0, none, rfl⟩, rfl⟩, by decide, by decide⟩
  obtain ⟨s, reached, stage, written⟩ := outcome
  obtain ⟨-, -, -, -, -, ended⟩ := pump_relays reached
  exact ⟨s, reached, stage, written, (ended true stage).1⟩

end Pump

end Ingress
