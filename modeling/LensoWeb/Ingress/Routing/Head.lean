import LensoWeb.Ingress.Routing

/-!
# The head of a response stream

What the events of an opened stream amount to up to its head frame. The head is
checked in three places of the source: in the loop that waits for it, in the test
of its fields after the loop, and in `from_stream_endpoint`. `headPhase` reads
the same verdict off the events, and `awaitHead_dispatchResponse` says that the
three checks together compute it.
-/

namespace Ingress

open Foundation Http Kernel

/-- What the events of a stream amount to up to the head. A head with more fields than a
header map can be made for is not refused: the dispatch unwinds. -/
inductive HeadPhase where
  | waiting
  | failed (failure : RuntimeFailure)
  | refused
  | invalid
  | unwound
  | accepted (status : StatusCode) (headers : HeaderMap) (rest : List ResponseEvent)

/-- The verdict on a head whose status is known. -/
def headWith (status : StatusCode) (rest : List ResponseEvent) :
    Except HeaderFault HeaderMap → HeadPhase
  | .error .invalid => .invalid
  | .error .unwound => .unwound
  | .ok headers => .accepted status headers rest

/-- The verdict on the first message. -/
def headOf (frame : HandleStreamResponse) (rest : List ResponseEvent) : HeadPhase :=
  match frame.kind, frame.status, frame.headers, frame.body with
  | .head, some status, some items, none =>
      match endpointStatus status with
      | none => .invalid
      | some status => headWith status rest (endpointHeaders items)
  | _, _, _, _ => .refused

/-- The verdict on the events, which half-closes do not touch. -/
def headPhase : List ResponseEvent → HeadPhase
  | [] => .waiting
  | .error failure :: _ => .failed failure
  | .ok .peerHalfClosed :: rest => headPhase rest
  | .ok (.terminal _) :: _ => .refused
  | .ok (.message frame) :: rest => headOf frame rest

namespace RouteTable

variable {η : Type} (routes : RouteTable η)

/-- What the crate does about a verdict. A runtime failure is reported, but it
does not cancel the stream, and neither does an unwinding. -/
def answerHead (request : InboundRequest) (matched : RouteMatch) (stream : StreamId) :
    HeadPhase → Task (World η) IngressResponse
  | .waiting => .never
  | .failed failure => do
      return dispatchErrorResponse
        (← routes.runtimeDispatchError (failureEvent request matched failure))
  | .refused => do
      World.cancel stream
      return dispatchErrorResponse .rejected
  | .invalid => do
      World.cancel stream
      return invalidEndpointResponse
  | .unwound => .panic
  | .accepted status headers rest => return ⟨status, headers, .streaming ⟨stream, rest⟩⟩

theorem awaitHead_dispatchResponse (request : InboundRequest) (matched : RouteMatch)
    (stream : StreamId) (events : List ResponseEvent) :
    (routes.awaitHead request matched stream events >>= dispatchResponse) =
      routes.answerHead request matched stream (headPhase events) := by
  induction events with
  | nil => rfl
  | cons event rest ih =>
      obtain failure | frame | _ | result := event
      · simp only [awaitHead, receiveHead, headPhase, answerHead, bind_assoc, pure_bind]
        rfl
      · obtain ⟨kind, status, items, body⟩ := frame
        cases kind with
        | chunk =>
            simp only [awaitHead, receiveHead, headPhase, headOf, answerHead, bind_assoc]
            rfl
        | head =>
            obtain _ | status := status <;> rcases items with _ | items <;>
              obtain _ | body := body
            all_goals try rfl
            simp only [awaitHead, receiveHead, headPhase, headOf, if_true, pure_bind,
              dispatchResponse, fromStreamEndpoint]
            cases endpointStatus status with
            | none => rfl
            | some status =>
                obtain (_ | _) | headers := endpointHeaders items <;> rfl
      · exact ih
      · simp only [awaitHead, receiveHead, headPhase, answerHead, bind_assoc, pure_bind]
        rfl

/-- The stream that dispatching a request in a host state opens, if it opens a
response stream: the route, the events to come, and the host state after it. -/
def opensStream (request : InboundRequest) (host : η) :
    Option (RouteMatch × List ResponseEvent × η) :=
  match routes.select request with
  | .error _ => none
  | .ok matched =>
      match matched.target.provider with
      | .streaming index =>
          match routes.streamProviders[index]?, routes.invocationContext host with
          | some provider, .ok () =>
              match provider (handleRequest request matched) host with
              | (.ready (.ok events), host) => some (matched, events, host)
              | _ => none
          | _, _ => none
      | _ => none

theorem opensStream_eq_some {request : InboundRequest} {start host : η} {matched : RouteMatch}
    {events : List ResponseEvent}
    (opened : routes.opensStream request start = some (matched, events, host)) :
    ∃ index provider, routes.select request = .ok matched ∧
      matched.target.provider = .streaming index ∧
      routes.streamProviders[index]? = some provider ∧
      routes.invocationContext start = .ok () ∧
      provider (handleRequest request matched) start = (.ready (.ok events), host) := by
  unfold opensStream at opened
  split at opened
  · cases opened
  · next route selected =>
    split at opened
    · next index streaming =>
      split at opened
      · next provider found context =>
        split at opened
        · next returned =>
          cases opened
          exact ⟨index, provider, selected, streaming, found, context, returned⟩
        · cases opened
      · cases opened
    · cases opened

/-- The world right after a stream was opened. -/
def afterOpening (world : World η) (host : η) : World η :=
  { world with
    host := host
    nextStream := world.nextStream + 1
    effects := world.effects ++ [.opened world.nextStream] }

/-- Dispatch to a Stream Endpoint that opens its stream. -/
theorem dispatch_of_opensStream {request : InboundRequest} {handshake : Option Handshake}
    {world : World η} {matched : RouteMatch} {events : List ResponseEvent} {host : η}
    (opened : routes.opensStream request world.host = some (matched, events, host)) :
    (routes.dispatch request handshake >>= dispatchResponse) world =
      routes.answerHead request matched world.nextStream (headPhase events)
        (afterOpening world host) := by
  obtain ⟨index, provider, selected, streaming, found, context, returned⟩ :=
    routes.opensStream_eq_some opened
  have invoked : (routes.invokeStreaming request matched index >>= dispatchResponse) world =
      (routes.awaitHead request matched world.nextStream events >>= dispatchResponse)
        (afterOpening world host) := by
    rw [invokeStreaming, found, bind_assoc]
    show ((World.onHost (provider (handleRequest request matched)) >>= _) >>= _) _ = _
    rw [bind_assoc, Task.bind_of_ready (World.onHost_of_ready returned)]
    rfl
  rw [← awaitHead_dispatchResponse, ← invoked, dispatch, selected]
  have granted : World.onHost routes.invocationContextAfter world = (.ready (.ok ()), world) := by
    rw [World.onHost_apply, invocationContextAfter, context]
  show ((World.onHost _ >>= _) >>= _) world = _
  rw [bind_assoc, Task.bind_of_ready granted, streaming]

end RouteTable

end Ingress
