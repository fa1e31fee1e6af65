import LensoWeb.Foundation.Transition
import LensoWeb.Kernel

/-!
# WebSocket sessions

A session validates every application frame in both directions, counts payload
bytes against one budget, and closes its stream at the first violation. Its
methods are asynchronous and run on one thread: a method is cut into the segments
between its suspension points, and a segment is atomic.

`Active` guards release their flag on every exit of a method, also when the call
is dropped at its suspension point.
-/

namespace Ingress

open Foundation Kernel

/-- `ConnectWebsocketResponseKind`. -/
inductive FrameKind where
  | accept
  | text
  | binary
  | close
deriving DecidableEq

/-- `ConnectWebsocketResponse`, the frame vocabulary of both peers. -/
structure Frame where
  kind : FrameKind
  protocol : Option Bytes
  text : Option Bytes
  body : Option Bytes
  code : Option Int
  reason : Option Bytes
deriving DecidableEq

namespace Frame

/-- `no_payload`. -/
def noPayload (frame : Frame) : Bool := frame.text.isNone && frame.body.isNone

/-- The bytes that count against the session limit. -/
def payloadBytes (frame : Frame) : Nat :=
  frame.text.elim 0 List.length + frame.body.elim 0 List.length

/-- Close codes that may go on the wire. -/
def closeCode (code : Int) : Bool :=
  (decide (1000 ≤ code) && decide (code ≤ 1003)) ||
    (decide (1007 ≤ code) && decide (code ≤ 1014)) ||
    (decide (3000 ≤ code) && decide (code ≤ 4999))

end Frame

def sessionFailure : RuntimeFailure := pluginFailure "invalid WebSocket session"

/-- The shape that `validate_frame` requires of each kind. -/
def Frame.wellFormed (frame : Frame) (limit : Nat) : Bool :=
  match frame.kind with
  | .text => frame.text.any (fun text => decide (text.length ≤ limit)) &&
      frame.body.isNone && frame.code.isNone && frame.reason.isNone
  | .binary => frame.body.any (fun body => decide (body.length ≤ limit)) &&
      frame.text.isNone && frame.code.isNone && frame.reason.isNone
  | .close => frame.noPayload && frame.code.any Frame.closeCode &&
      frame.reason.all (fun reason => decide (reason.length ≤ 123))
  | .accept => false

/-- `validate_frame`. -/
def validateFrame (frame : Frame) (limit : Nat) : Except RuntimeFailure Unit :=
  if frame.protocol.isSome then .error sessionFailure
  else if frame.wellFormed limit then .ok ()
  else .error sessionFailure

/-- What may pass in either direction: one payload of the frame's own kind within
the message limit, or a bare close frame. -/
structure Frame.Carriable (frame : Frame) (limit : Nat) : Prop where
  noProtocol : frame.protocol = none
  notAccept : frame.kind ≠ .accept
  text : frame.kind = .text → ∃ text, frame.text = some text ∧ text.length ≤ limit ∧
    frame.body = none
  binary : frame.kind = .binary → ∃ body, frame.body = some body ∧ body.length ≤ limit ∧
    frame.text = none
  close : frame.kind = .close → frame.text = none ∧ frame.body = none

theorem carriable_of_validateFrame {frame : Frame} {limit : Nat}
    (valid : validateFrame frame limit = .ok ()) : frame.Carriable limit := by
  obtain ⟨kind, protocol, text, body, code, reason⟩ := frame
  cases protocol with
  | some protocol => cases valid
  | none =>
      simp only [validateFrame, Option.isSome_none, Bool.false_eq_true, if_false] at valid
      split at valid
      · next accepted =>
        cases kind with
        | accept => cases accepted
        | text =>
            simp only [Frame.wellFormed, Bool.and_eq_true, Option.any_eq_true, decide_eq_true_eq,
              Option.isNone_iff_eq_none] at accepted
            obtain ⟨⟨⟨⟨content, present, short⟩, noBody⟩, -⟩, -⟩ := accepted
            exact ⟨rfl, nofun, fun _ => ⟨content, present, short, noBody⟩, nofun, nofun⟩
        | binary =>
            simp only [Frame.wellFormed, Bool.and_eq_true, Option.any_eq_true, decide_eq_true_eq,
              Option.isNone_iff_eq_none] at accepted
            obtain ⟨⟨⟨⟨content, present, short⟩, noText⟩, -⟩, -⟩ := accepted
            exact ⟨rfl, nofun, nofun, fun _ => ⟨content, present, short, noText⟩, nofun⟩
        | close =>
            simp only [Frame.wellFormed, Frame.noPayload, Bool.and_eq_true,
              Option.isNone_iff_eq_none] at accepted
            exact ⟨rfl, nofun, nofun, nofun, fun _ => accepted.1.1⟩
      · cases valid

/-- `WebSocketSession`. The stream is named by its identifier, and `permit` says
whether the session still holds a concurrency permit. -/
structure WebSocketSession where
  permit : Bool
  stream : StreamId
  protocol : Option Bytes
  messageLimit : Nat
  sessionLimit : Nat
  transferred : Nat
  cancelled : Bool
  terminal : Bool
  sentClose : Bool
  receivedClose : Bool
  reading : Bool
  writing : Bool
deriving DecidableEq

/-- How the first segment of `send` ends. -/
inductive SendEntry where
  | refused
  | invalid
  | forwarded
deriving DecidableEq

/-- How the first segment of `receive` ends. -/
inductive ReceiveEntry where
  | refused
  | finished
  | awaiting
deriving DecidableEq

/-- How a segment of `receive` that handles one event ends. -/
inductive ReceiveExit where
  | again
  | frame (frame : Frame)
  | finished
  | failed
deriving DecidableEq

/-- `ConnectWebsocketError`. -/
inductive ConnectWebsocketError where
  | unauthorized
  | rejected
  | unsupportedProtocol
  | unknown (code : Bytes)
deriving DecidableEq

namespace WebSocketSession

/-- The session that `accept` builds from a valid accept frame. -/
def accepted (stream : StreamId) (protocol : Option Bytes) (messageLimit sessionLimit : Nat) :
    WebSocketSession where
  permit := false
  stream := stream
  protocol := protocol
  messageLimit := messageLimit
  sessionLimit := sessionLimit
  transferred := 0
  cancelled := false
  terminal := false
  sentClose := false
  receivedClose := false
  reading := false
  writing := false

/-- `cancel`, without the call on the stream. -/
def cancel (session : WebSocketSession) : WebSocketSession :=
  { session with permit := false, cancelled := true }

/-- `validate_data`. -/
def validateData (session : WebSocketSession) (frame : Frame) :
    Except RuntimeFailure Unit × WebSocketSession :=
  match validateFrame frame session.messageLimit with
  | .error failure => (.error failure, session)
  | .ok () =>
      if frame.payloadBytes > session.sessionLimit - session.transferred then
        (.error sessionFailure, session)
      else (.ok (), { session with transferred := session.transferred + frame.payloadBytes })

/-- `send` up to the call on the stream. -/
def send (session : WebSocketSession) (frame : Frame) : SendEntry × WebSocketSession :=
  if session.cancelled || session.terminal || session.sentClose || session.writing then
    (.refused, session)
  else
    match { session with writing := true }.validateData frame with
    | (.error _, session) => (.invalid, { session.cancel with writing := false })
    | (.ok (), session) =>
        (.forwarded, if frame.kind = .close then { session with sentClose := true } else session)

/-- `send` after the call on the stream returned. -/
def sendReturned (session : WebSocketSession) (result : Except RuntimeFailure Unit) :
    WebSocketSession :=
  match result with
  | .ok () => { session with writing := false }
  | .error _ => { session.cancel with writing := false }

/-- `receive` up to its first call on the stream. -/
def receive (session : WebSocketSession) : ReceiveEntry × WebSocketSession :=
  if session.cancelled then (.refused, session)
  else if session.terminal then (.finished, session)
  else if session.reading then (.refused, session)
  else (.awaiting, { session with reading := true })

/-- One round of the loop of `receive`. -/
def received (session : WebSocketSession)
    (event : Except RuntimeFailure (StreamEvent Frame ConnectWebsocketError)) :
    ReceiveExit × WebSocketSession :=
  match event with
  | .ok (.message frame) =>
      if session.receivedClose then (.failed, { session.cancel with reading := false })
      else
        match session.validateData frame with
        | (.error _, session) => (.failed, { session.cancel with reading := false })
        | (.ok (), session) =>
            let session :=
              if frame.kind = .close then { session with receivedClose := true } else session
            (.frame frame, { session with reading := false })
  | .ok .peerHalfClosed => (.again, session)
  | .ok (.terminal (.ok ())) =>
      (.finished, { session with terminal := true, permit := false, reading := false })
  | .ok (.terminal (.error _)) => (.failed, { session.cancel with reading := false })
  | .error _ => (.failed, { session.cancel with reading := false })

end WebSocketSession

end Ingress
