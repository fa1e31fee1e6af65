import LensoWeb.Foundation.Transition
import LensoWeb.Foundation.Text

/-!
# The Workers WebSocket transport

`createWebSocketTransport` moves frames between a native socket and a session of
the host. Handlers run to completion: one action is one event handler, one
continuation behind an `await`, or one call of the function that was given to
`session.invoke`. That function is called at most once, and `invoke` resolves with
its result, so it resolves only behind the call; it may reject at any time.

Exceptions that a handler catches are branches here. Whether the calls on the
native socket throw is up to the environment.
-/

namespace Ingress

open Foundation

/-- The code units of a JavaScript string. -/
abbrev JsString := List UInt16

/-- `encoder.encode(text).byteLength`. A surrogate without a partner is replaced by
a character of three bytes. -/
def utf8Length : JsString → Nat
  | [] => 0
  | [unit] => if unit < 0x80 then 1 else if unit < 0x800 then 2 else 3
  | unit :: next :: rest =>
      if 0xD800 ≤ unit ∧ unit ≤ 0xDBFF ∧ 0xDC00 ≤ next ∧ next ≤ 0xDFFF then 4 + utf8Length rest
      else (if unit < 0x80 then 1 else if unit < 0x800 then 2 else 3) + utf8Length (next :: rest)

/-- The four limits of a transport, which the constructor checks. -/
structure WebSocketLimits where
  maxMessageBytes : Nat
  maxQueuedMessages : Nat
  maxQueuedBytes : Nat
  maxSessionBytes : Nat
  valid : ∀ value ∈ [maxMessageBytes, maxQueuedMessages, maxQueuedBytes, maxSessionBytes],
    1 ≤ value ∧ value < 2 ^ 53

/-- `base64` and `binary`, which refuses a body that is not canonical or too long. -/
structure BinaryCodec where
  base64 : Bytes → Bytes
  binary : Bytes → Nat → Option Bytes

/-- The data of a message event. -/
inductive MessageData where
  | text (data : JsString)
  | binary (data : Bytes)
  | other

/-- A frame for `session.value.send`. -/
inductive HostFrame where
  | text (text : JsString)
  | binary (body : Bytes)
  | close (code : Nat) (reason : JsString)
deriving DecidableEq

/-- What `session.value.read` resolves with. -/
inductive ProviderFrame where
  | null
  | text (text : JsString)
  | binary (body : Bytes)
  | close (code : Nat) (reason : JsString)
  | invalid

/-- An element of the queue. -/
structure Queued where
  frame : HostFrame
  bytes : Nat
deriving DecidableEq

/-- A `session.invoke` that a `drain` awaits, and whether its function has been called. -/
structure Sending where
  queued : Queued
  called : Bool
deriving DecidableEq

/-- The variables of one transport, and a record of its calls: the frames that
`enqueue` accepted, that were taken from the queue and that were passed to
`session.value.send`; the bytes sent to the peer; the calls of `session.cancel` and
of `server.close`. -/
structure WorkersTransport where
  active : Bool
  closing : Bool
  sending : Bool
  peerClosed : Bool
  scopeClosed : Bool
  listening : Bool
  reading : Bool
  queuedBytes : Int
  transferred : Nat
  queue : List Queued
  outstanding : List Sending
  accepted : List Queued
  taken : List Queued
  passed : List HostFrame
  sentBytes : Nat
  cancels : Nat
  closes : List (Nat × JsString)

def sessionUnavailable : JsString := (ascii "session unavailable").map (·.toUInt16)

namespace WorkersTransport

/-- `close`. -/
def close (s : WorkersTransport) (code : Nat) (reason : JsString) : WorkersTransport :=
  if s.closing then s
  else { s with closing := true, closes := s.closes ++ [(code, reason)] }

/-- `fail`. -/
def fail (s : WorkersTransport) (code : Nat) : WorkersTransport :=
  if !s.active then s
  else
    let s := { s with active := false }.close code sessionUnavailable
    { s with cancels := s.cancels + 1 }

/-- The loop of `drain` up to its next `await`, or to the end of `drain`. -/
def drainLoop (s : WorkersTransport) : WorkersTransport :=
  if s.active then
    match s.queue with
    | [] => { s with sending := false }
    | next :: rest =>
        { s with
          queue := rest
          outstanding := s.outstanding ++ [⟨next, false⟩]
          taken := s.taken ++ [next] }
  else { s with sending := false }

/-- `drain`. -/
def drain (s : WorkersTransport) : WorkersTransport :=
  if s.sending then s else { s with sending := true }.drainLoop

/-- The `finally` behind an awaited send. -/
def settle (s : WorkersTransport) (index : Nat) (sent : Sending) : WorkersTransport :=
  { s with
    outstanding := s.outstanding.eraseIdx index
    queuedBytes := s.queuedBytes - sent.queued.bytes }

/-- `cleanup`. -/
def cleanup (s : WorkersTransport) : WorkersTransport :=
  { s with active := false, queue := [], listening := false }

variable (limits : WebSocketLimits) (codec : BinaryCodec)

/-- `budget`, which throws beyond a limit. -/
def budget (s : WorkersTransport) (bytes : Nat) : Option WorkersTransport :=
  if limits.maxMessageBytes < bytes ∨ limits.maxSessionBytes < s.transferred + bytes then none
  else some { s with transferred := s.transferred + bytes }

/-- The queue has no room for another frame. -/
def full (s : WorkersTransport) (bytes : Nat) : Bool :=
  decide (limits.maxQueuedMessages ≤ s.queue.length + if s.sending then 1 else 0) ||
    decide ((limits.maxQueuedBytes : Int) - s.queuedBytes < bytes)

/-- `enqueue`. -/
def enqueue (s : WorkersTransport) (frame : HostFrame) (bytes : Nat) : WorkersTransport :=
  if !s.active || s.scopeClosed then s
  else if s.full limits bytes then s.fail 1009
  else
    drain { s with
      queuedBytes := s.queuedBytes + bytes
      queue := s.queue ++ [⟨frame, bytes⟩]
      accepted := s.accepted ++ [⟨frame, bytes⟩] }

/-- The frame for the data of a message and its size; `none` where the handler throws. -/
def hostFrame (data : MessageData) : Option (HostFrame × Nat) :=
  match data with
  | .text data =>
      if limits.maxMessageBytes < data.length then none else some (.text data, utf8Length data)
  | .binary data =>
      if limits.maxMessageBytes < data.length then none
      else some (.binary (codec.base64 data), data.length)
  | .other => none

/-- The handler of message events. -/
def message (s : WorkersTransport) (data : MessageData) : WorkersTransport :=
  if !s.active || s.peerClosed || s.scopeClosed then s
  else
    match hostFrame limits codec data with
    | none => s.fail 1009
    | some (frame, bytes) =>
        match s.budget limits bytes with
        | none => s.fail 1009
        | some s => s.enqueue limits frame bytes

/-- The handler of close events. -/
def closed (s : WorkersTransport) (code : Nat) (reason : JsString) : WorkersTransport :=
  let s := { s with peerClosed := true }
  if !s.active || s.scopeClosed then s
  else if code = 1006 then s.fail 1011
  else s.enqueue limits (.close (if code = 1005 then 1000 else code) reason) 0

/-- Back at the head of the read loop. -/
def readLoop (s : WorkersTransport) : WorkersTransport :=
  { s with reading := s.active && !s.scopeClosed }

/-- The read loop ends in its `catch`. -/
def readFails (s : WorkersTransport) : WorkersTransport :=
  { s with reading := false }.fail 1011

/-- Count and send a payload to the peer; `throws` says that `server.send` does. -/
def sendToPeer (s : WorkersTransport) (bytes : Nat) (throws : Bool) : WorkersTransport :=
  match s.budget limits bytes with
  | none => s.readFails
  | some s =>
      if throws then s.readFails else { s with sentBytes := s.sentBytes + bytes }.readLoop

/-- The read loop from a resolved read to its next one. -/
def provided (s : WorkersTransport) (frame : ProviderFrame) (throws : Bool) : WorkersTransport :=
  if !s.active || s.scopeClosed then { s with reading := false }
  else
    match frame with
    | .null => { s.close 1000 [] with reading := false }
    | .text text =>
        if limits.maxMessageBytes < text.length then s.readFails
        else s.sendToPeer limits (utf8Length text) throws
    | .binary body =>
        match codec.binary body limits.maxMessageBytes with
        | none => s.readFails
        | some bytes => s.sendToPeer limits bytes.length throws
    | .close code reason => (s.close code reason).readLoop
    | .invalid => s.readFails

end WorkersTransport

/-! ### The machine -/

inductive WorkersAction where
  | message (data : MessageData)
  | peerCloses (code : Nat) (reason : JsString)
  | peerFails
  | passes (index : Nat)
  | resolves (index : Nat)
  | rejects (index : Nat)
  | provides (frame : ProviderFrame) (throws : Bool)
  | readRejects
  | sessionCloses
  | sessionRejects
  | scopeCloses
  | aborts (invalidated : Bool)

namespace WorkersTransport

variable (limits : WebSocketLimits) (codec : BinaryCodec)

def step (s : WorkersTransport) : WorkersAction → Option WorkersTransport
  | .message data => if s.listening then some (s.message limits codec data) else none
  | .peerCloses code reason => if s.listening then some (s.closed limits code reason) else none
  | .peerFails => if s.listening then some (s.fail 1011) else none
  | .passes index =>
      match s.outstanding[index]? with
      | some ⟨queued, false⟩ =>
          some { s with
            outstanding := s.outstanding.set index ⟨queued, true⟩
            passed := s.passed ++ [queued.frame] }
      | _ => none
  | .resolves index =>
      match s.outstanding[index]? with
      | some ⟨queued, true⟩ => some (s.settle index ⟨queued, true⟩).drainLoop
      | _ => none
  | .rejects index =>
      match s.outstanding[index]? with
      | some sent => some { (s.settle index sent).fail 1011 with sending := false }
      | none => none
  | .provides frame throws =>
      if s.reading then some (s.provided limits codec frame throws) else none
  | .readRejects => if s.reading then some s.readFails else none
  | .sessionCloses => some s.cleanup
  | .sessionRejects => some (s.close 1011 sessionUnavailable).cleanup
  | .scopeCloses => some { s with scopeClosed := true }
  | .aborts invalidated =>
      some (if invalidated then s.close 1011 sessionUnavailable else s.close 1000 [])

/-- A transport that has just been set up. The read loop is at its first read unless
the scope is closed. -/
def start (scopeClosed : Bool) : WorkersTransport where
  active := true
  closing := false
  sending := false
  peerClosed := false
  scopeClosed := scopeClosed
  listening := true
  reading := !scopeClosed
  queuedBytes := 0
  transferred := 0
  queue := []
  outstanding := []
  accepted := []
  taken := []
  passed := []
  sentBytes := 0
  cancels := 0
  closes := []

/-- A transport behind the construction of its response, which may have thrown. -/
def machine : Machine WorkersTransport WorkersAction where
  initial s := ∃ scopeClosed, s = start scopeClosed ∨ s = ((start scopeClosed).fail 1011).cleanup
  step := step limits codec

end WorkersTransport

end Ingress
