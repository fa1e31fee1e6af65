import LensoWeb.Ingress.Endpoint

/-!
# Response streams

The body of a streaming response as a transport sees it. The transport pulls one
chunk at a time; only a successful terminal is a clean end. `done` and
`cancelled` are sticky, and `receiving` refuses a second reader.
-/

namespace Ingress

open Foundation Kernel

/-- `WebIngressResponseStream`. `permit` says whether a concurrency permit is still
held, `streamCancelled` whether `cancel` was called on the stream below. -/
structure WebIngressResponseStream where
  permit : Bool
  stream : ResponseStream
  done : Bool
  cancelled : Bool
  receiving : Bool
  streamCancelled : Bool

def terminationFailure : RuntimeFailure :=
  pluginFailure "invalid HTTP response stream termination"

/-- The frames that `receive` hands on. -/
def HandleStreamResponse.isChunk (frame : HandleStreamResponse) : Bool :=
  frame.kind == .chunk && frame.status.isNone && frame.headers.isNone

namespace WebIngressResponseStream

/-- `new`. -/
def new (stream : ResponseStream) : WebIngressResponseStream where
  permit := false
  stream := stream
  done := false
  cancelled := false
  receiving := false
  streamCancelled := false

/-- `cancel`. -/
def cancel (self : WebIngressResponseStream) : WebIngressResponseStream :=
  { self with permit := false, cancelled := true, done := true, streamCancelled := true }

/-- The stream after some of its events, with the `Reading` guard dropped. -/
def released (self : WebIngressResponseStream) (rest : List ResponseEvent) :
    WebIngressResponseStream :=
  { self with stream := ⟨self.stream.id, rest⟩, receiving := false }

/-- The loop of `receive`. -/
def receiveLoop (self : WebIngressResponseStream) : List ResponseEvent →
    Outcome (Except RuntimeFailure (Option Bytes)) × WebIngressResponseStream
  | [] => (.pending, { self with stream := ⟨self.stream.id, []⟩ })
  | .ok (.message frame) :: rest =>
      if frame.isChunk then (.ready (.ok (some (frame.body.getD []))), self.released rest)
      else (.ready (.error terminationFailure), self.cancel.released rest)
  | .ok .peerHalfClosed :: rest => self.receiveLoop rest
  | .ok (.terminal (.ok ())) :: rest =>
      (.ready (.ok none), { self.released rest with done := true, permit := false })
  | .ok (.terminal (.error _)) :: rest =>
      (.ready (.error terminationFailure), self.cancel.released rest)
  | .error failure :: rest => (.ready (.error failure), self.cancel.released rest)

/-- `receive`. -/
def receive : Task WebIngressResponseStream (Except RuntimeFailure (Option Bytes)) := fun self =>
  if self.cancelled then
    (.ready (.error (pluginFailure "HTTP response stream cancelled")), self)
  else if self.done then (.ready (.ok none), self)
  else if self.receiving then
    (.ready (.error (pluginFailure "concurrent HTTP response stream read")), self)
  else { self with receiving := true }.receiveLoop self.stream.events

end WebIngressResponseStream

/-! ### Pulling a body -/

/-- How far a transport got with a body. -/
inductive BodyEnd where
  | clean
  | failed (failure : RuntimeFailure)
  | waiting
deriving DecidableEq

namespace WebIngressResponseStream

/-- The chunks that a transport receives in at most so many pulls, and the end of
the body if it saw one. -/
def pull : Nat → WebIngressResponseStream → List Bytes × BodyEnd
  | 0, _ => ([], .waiting)
  | pulls + 1, self =>
      match receive self with
      | (.ready (.ok (some chunk)), self) =>
          let later := pull pulls self
          (chunk :: later.1, later.2)
      | (.ready (.ok none), _) => ([], .clean)
      | (.ready (.error failure), _) => ([], .failed failure)
      | _ => ([], .waiting)

/-- The body that a transport sees if it pulls until nothing is left to see. -/
def drain (stream : ResponseStream) : List Bytes × BodyEnd :=
  (new stream).pull (stream.events.length + 1)

/-- A body that a next `receive` reads from. -/
structure Readable (body : WebIngressResponseStream) : Prop where
  notCancelled : body.cancelled = false
  notDone : body.done = false
  notReceiving : body.receiving = false

end WebIngressResponseStream

namespace WebIngressResponseStream

end WebIngressResponseStream

end Ingress
