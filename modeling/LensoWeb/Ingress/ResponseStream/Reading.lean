import LensoWeb.Foundation.Transition
import LensoWeb.Ingress.ResponseStream

/-!
# Reads of a response stream

`receive` cut at its suspension points, and all interleavings of reads with
`cancel` on one stream. A read waits at the stream below; an event ends it or
sends it back to wait. The log records how reads ended and when the stream was
cancelled.
-/

namespace Ingress

open Foundation Kernel

/-- How a round of `receive` ends. -/
inductive StreamExit where
  | again
  | chunk (bytes : Bytes)
  | finished
  | failed (failure : RuntimeFailure)
deriving DecidableEq

/-- What the end of a round means to the caller of `receive`. -/
def StreamExit.result : StreamExit → Outcome (Except RuntimeFailure (Option Bytes))
  | .again => .pending
  | .chunk bytes => .ready (.ok (some bytes))
  | .finished => .ready (.ok none)
  | .failed failure => .ready (.error failure)

namespace WebIngressResponseStream

/-- `receive` up to its first call on the stream below. -/
def enter (self : WebIngressResponseStream) : ReceiveEntry × WebIngressResponseStream :=
  if self.cancelled then (.refused, self)
  else if self.done then (.finished, self)
  else if self.receiving then (.refused, self)
  else (.awaiting, { self with receiving := true })

/-- One round of the loop of `receive`. -/
def received (self : WebIngressResponseStream) (event : ResponseEvent) :
    StreamExit × WebIngressResponseStream :=
  match event with
  | .ok (.message frame) =>
      if frame.isChunk then (.chunk (frame.body.getD []), { self with receiving := false })
      else (.failed terminationFailure, { self.cancel with receiving := false })
  | .ok .peerHalfClosed => (.again, self)
  | .ok (.terminal (.ok ())) =>
      (.finished, { self with done := true, permit := false, receiving := false })
  | .ok (.terminal (.error _)) =>
      (.failed terminationFailure, { self.cancel with receiving := false })
  | .error failure => (.failed failure, { self.cancel with receiving := false })

/-- The loop goes by its rounds. -/
theorem receiveLoop_cons (self : WebIngressResponseStream) (event : ResponseEvent)
    (rest : List ResponseEvent) :
    self.receiveLoop (event :: rest) =
      if (self.received event).1 = .again then self.receiveLoop rest
      else ((self.received event).1.result,
        { (self.received event).2 with stream := ⟨self.stream.id, rest⟩ }) := by
  obtain failure | frame | _ | (error | _) := event
  · rfl
  · rw [receiveLoop, received]
    cases frame.isChunk <;> rfl
  · rfl
  · rfl
  · rfl

/-- An entered read goes through the loop. -/
theorem receive_of_enter {self waiting : WebIngressResponseStream}
    (entered : self.enter = (.awaiting, waiting)) :
    receive self = waiting.receiveLoop self.stream.events := by
  rw [receive]
  rw [enter] at entered
  split at entered
  · cases entered
  · split at entered
    · cases entered
    · split at entered
      · cases entered
      · next running unfinished free =>
        cases entered
        rw [if_neg running, if_neg unfinished, if_neg free]

/-- Every round keeps the permit of a stream that goes on, and drops that of a
stream that has ended. -/
theorem received_cases (self : WebIngressResponseStream) (event : ResponseEvent) :
    self.received event = (.again, self) ∨
    (∃ bytes, self.received event = (.chunk bytes, { self with receiving := false })) ∨
    self.received event =
      (.finished, { self with done := true, permit := false, receiving := false }) ∨
    (∃ failure, self.received event = (.failed failure, { self.cancel with receiving := false })) := by
  obtain failure | frame | _ | (error | _) := event
  · exact .inr (.inr (.inr ⟨failure, rfl⟩))
  · rw [received]
    cases frame.isChunk with
    | true => exact .inr (.inl ⟨_, rfl⟩)
    | false => exact .inr (.inr (.inr ⟨_, rfl⟩))
  · exact .inl rfl
  · exact .inr (.inr (.inr ⟨_, rfl⟩))
  · exact .inr (.inr (.inl rfl))

theorem enter_cases (self : WebIngressResponseStream) :
    self.enter = (.refused, self) ∨
    (self.done = true ∧ self.enter = (.finished, self)) ∨
    self.enter = (.awaiting, { self with receiving := true }) := by
  rw [enter]
  cases self.cancelled <;> cases self.done <;> cases self.receiving <;> simp

end WebIngressResponseStream

/-! ### All interleavings -/

/-- What happened to a stream, in order. -/
inductive ReadEvent where
  | refused
  | chunk (bytes : Bytes)
  | finished
  | failed (failure : RuntimeFailure)
  | cancelled
deriving DecidableEq

/-- A stream with the reads that wait at the stream below. -/
structure ReadState where
  stream : WebIngressResponseStream
  waiting : Nat
  log : List ReadEvent

inductive ReadAction where
  | receive
  | receiveEvent (event : ResponseEvent)
  | dropReceive
  | cancel

namespace ReadState

def step (s : ReadState) : ReadAction → Option ReadState
  | .receive =>
      match s.stream.enter with
      | (.refused, stream) => some { s with stream, log := s.log ++ [.refused] }
      | (.finished, stream) => some { s with stream, log := s.log ++ [.finished] }
      | (.awaiting, stream) => some { s with stream, waiting := s.waiting + 1 }
  | .receiveEvent event =>
      if s.waiting = 0 then none
      else
        match s.stream.received event with
        | (.again, stream) => some { s with stream }
        | (.chunk bytes, stream) =>
            some ⟨stream, s.waiting - 1, s.log ++ [.chunk bytes]⟩
        | (.finished, stream) => some ⟨stream, s.waiting - 1, s.log ++ [.finished]⟩
        | (.failed failure, stream) => some ⟨stream, s.waiting - 1, s.log ++ [.failed failure]⟩
  | .dropReceive =>
      if s.waiting = 0 then none
      else some { s with stream.receiving := false, waiting := s.waiting - 1 }
  | .cancel => some { s with stream := s.stream.cancel, log := s.log ++ [.cancelled] }

end ReadState

end Ingress
