import LensoWeb.Ingress.Config
import LensoWeb.Ingress.Response

/-!
# Route dispatch

The immutable route table of one Ingress and the invocation of the Endpoint that
a request selects. Matching a path is the router's business: a router is any
function from paths to targets.

`dispatch` races the invocation against cancellation, but it awaits the
invocation to its end in both cases, so only the provider notices the difference.
-/

namespace Ingress

open Foundation Http Kernel

/-- `RouteProvider`, with the index into the providers of its kind. -/
inductive RouteProvider where
  | buffered (index : Nat)
  | streaming (index : Nat)
  | webSocket (index : Nat)
deriving DecidableEq

namespace RouteProvider

def index : RouteProvider → Nat
  | buffered index => index
  | streaming index => index
  | webSocket index => index

end RouteProvider

/-- `RouteTarget`. -/
structure RouteTarget where
  routeId : Bytes
  provider : RouteProvider
deriving DecidableEq

/-- A target with the parameters that the path binds. -/
structure RouteMatch where
  target : RouteTarget
  parameters : List PathParameter
deriving DecidableEq

/-- `Router::at`. -/
abbrev Router := Bytes → Option RouteMatch

/-- `RouteTable`. Methods are the keys of a map; `invocationContext` tells whether
the dependencies still give out a context. -/
structure RouteTable (η : Type) where
  invocationContext : η → Except RuntimeFailure Unit
  diagnostics : WebIngressDiagnostics η
  providers : List (EndpointClient η)
  streamProviders : List (StreamEndpointClient η)
  websocketProviders : List (WebsocketEndpointClient η)
  websocketPolicy : Option WebSocketConfig
  methods : List (Method × Router)
  distinct : (methods.map Prod.fst).Nodup

namespace RouteTable

variable {η : Type} (routes : RouteTable η)

/-- `allowed_methods`. -/
def allowedMethods (path : Bytes) : List Method :=
  ((routes.methods.filter fun entry => (entry.2 path).isSome).map Prod.fst).mergeSort
    fun left right => decide (Text.codes left.token ≤ Text.codes right.token)

/-- The error for a path that the method does not serve. -/
def unmatched (path : Bytes) : DispatchError :=
  let allowed := routes.allowedMethods path
  if allowed.isEmpty then .notFound else .methodNotAllowed allowed

/-- The part of `dispatch` that selects a target. -/
def select (request : InboundRequest) : Except DispatchError RouteMatch :=
  match routes.methods.lookup request.method with
  | none => .error (routes.unmatched request.path)
  | some router =>
      match router request.path with
      | none => .error (routes.unmatched request.path)
      | some matched => .ok matched

/-- `PluginDependencies::invocation_context_after`. -/
def invocationContextAfter : Task η (Except RuntimeFailure Unit) := fun host =>
  (.ready (routes.invocationContext host), host)

/-- The call of the observer. -/
def endpointRuntimeFailure (event : WebIngressEndpointFailure) : Task η Unit := fun host =>
  match routes.diagnostics event host with
  | some host => (.ready (), host)
  | none => (.panicked, host)

/-- `observe_failure`. -/
def observeFailure (event : WebIngressEndpointFailure) : Task (World η) Unit :=
  World.onHost (routes.endpointRuntimeFailure event)

/-- `runtime_dispatch_error`. -/
def runtimeDispatchError (event : WebIngressEndpointFailure) : Task (World η) DispatchError := do
  routes.observeFailure event
  return if event.failure = .deadlineExceeded then .timedOut else .unavailable

/-- The failure event of a request at a matched route. -/
def failureEvent (request : InboundRequest) (matched : RouteMatch) (failure : RuntimeFailure) :
    WebIngressEndpointFailure :=
  ⟨request.requestId, matched.target.routeId, matched.target.provider.index, failure⟩

/-- The request for either HTTP Endpoint. -/
def handleRequest (request : InboundRequest) (matched : RouteMatch) : HandleRequest where
  body := request.body
  credential := request.credential
  headers := request.headers.map fun header => ⟨header.name, header.value⟩
  method := request.method.token
  path := request.path
  pathParameters := matched.parameters
  query := request.query
  requestId := request.requestId
  routeId := matched.target.routeId

/-- The request for a WebSocket Endpoint. -/
def connectWebsocketRequest (request : InboundRequest) (matched : RouteMatch)
    (protocols : List Bytes) : ConnectWebsocketRequest where
  credential := request.credential
  headers := request.headers.map fun header => ⟨header.name, header.value⟩
  path := request.path
  pathParameters := matched.parameters
  protocols := protocols
  query := request.query
  requestId := request.requestId
  routeId := matched.target.routeId

/-- The buffered branch of `dispatch`. An index out of range unwinds. -/
def invokeBuffered (request : InboundRequest) (matched : RouteMatch) (index : Nat) :
    Task (World η) (Except DispatchError DispatchResponse) := do
  let provider ← Task.expect routes.providers[index]?
  match ← World.onHost (provider (handleRequest request matched)) with
  | .ok response => return .ok (.buffered response)
  | .error (.domain _) => return .error .rejected
  | .error (.runtime failure) =>
      return .error (← routes.runtimeDispatchError (failureEvent request matched failure))

/-- The loop that waits for the head frame of an opened stream. -/
def receiveHead (request : InboundRequest) (matched : RouteMatch) (stream : StreamId) :
    List ResponseEvent →
      Task (World η) (Except DispatchError (HandleStreamResponse × List ResponseEvent))
  | [] => .never
  | .error failure :: _ => do
      return .error (← routes.runtimeDispatchError (failureEvent request matched failure))
  | .ok (.message frame) :: rest =>
      if frame.kind = .head then return .ok (frame, rest)
      else do
        World.cancel stream
        return .error .rejected
  | .ok .peerHalfClosed :: rest => receiveHead request matched stream rest
  | .ok (.terminal _) :: _ => do
      World.cancel stream
      return .error .rejected

/-- The streaming branch of `dispatch` once the stream is open. -/
def awaitHead (request : InboundRequest) (matched : RouteMatch) (stream : StreamId)
    (events : List ResponseEvent) : Task (World η) (Except DispatchError DispatchResponse) := do
  match ← routes.receiveHead request matched stream events with
  | .error error => return .error error
  | .ok (head, rest) =>
      match head.status, head.headers, head.body with
      | some status, some headers, none =>
          return .ok (.streaming ⟨headers, status, ⟨stream, rest⟩⟩)
      | _, _, _ => do
          World.cancel stream
          return .error .rejected

/-- The streaming branch of `dispatch`. -/
def invokeStreaming (request : InboundRequest) (matched : RouteMatch) (index : Nat) :
    Task (World η) (Except DispatchError DispatchResponse) := do
  let provider ← Task.expect routes.streamProviders[index]?
  match ← World.onHost (provider (handleRequest request matched)) with
  | .error (.domain _) => return .error .rejected
  | .error (.runtime failure) =>
      return .error (← routes.runtimeDispatchError (failureEvent request matched failure))
  | .ok events => do
      let stream ← World.openStream
      routes.awaitHead request matched stream events

/-- The frame that opens a WebSocket session. -/
def acceptsSession (frame : Frame) (offered : List Bytes) : Bool :=
  frame.kind == .accept && frame.noPayload && frame.code.isNone && frame.reason.isNone &&
    frame.protocol.all offered.contains

/-- `WebSocketSession::accept`. -/
def acceptSession (stream : StreamId) (offered : List Bytes) (policy : WebSocketConfig) :
    List SocketEvent → Task (World η) (Except RuntimeFailure WebSocketSession)
  | [] => .never
  | .ok (.message frame) :: _ =>
      if acceptsSession frame offered then
        return .ok (.accepted stream frame.protocol policy.maxMessageBytes policy.maxSessionBytes)
      else do
        World.cancel stream
        return .error sessionFailure
  | _ :: _ => do
      World.cancel stream
      return .error sessionFailure

/-- The response for an accepted or refused session. -/
def sessionResponse (handshake : Handshake) :
    Except RuntimeFailure WebSocketSession → Except DispatchError DispatchResponse
  | .error _ => .error .rejected
  | .ok session => .ok (.webSocket ⟨session, handshake.accept⟩)

/-- What a domain error of a WebSocket Endpoint means. -/
def connectError : ConnectWebsocketError → DispatchError
  | .unauthorized => .unauthorized
  | .rejected => .forbidden
  | .unsupportedProtocol => .badHandshake
  | .unknown _ => .rejected

/-- The WebSocket branch of `dispatch`. -/
def invokeWebSocket (request : InboundRequest) (matched : RouteMatch) (index : Nat)
    (handshake : Option Handshake) : Task (World η) (Except DispatchError DispatchResponse) := do
  match handshake with
  | none => return .error .upgradeRequired
  | some handshake =>
    if !request.body.isEmpty then return .error .badHandshake
    let provider ← Task.expect routes.websocketProviders[index]?
    match ← World.onHost (provider (connectWebsocketRequest request matched handshake.protocols)) with
    | .error (.domain error) => return .error (connectError error)
    | .error (.runtime failure) =>
        return .error (← routes.runtimeDispatchError (failureEvent request matched failure))
    | .ok events =>
      let stream ← World.openStream
      match routes.websocketPolicy with
      | none => return .error .unavailable
      | some policy =>
        let session ← acceptSession stream handshake.protocols policy events
        return sessionResponse handshake session

/-- `dispatch`. -/
def dispatch (request : InboundRequest) (handshake : Option Handshake) :
    Task (World η) (Except DispatchError DispatchResponse) := do
  match routes.select request with
  | .error error => return .error error
  | .ok matched =>
    match ← World.onHost routes.invocationContextAfter with
    | .error failure => do
        routes.observeFailure (failureEvent request matched failure)
        return .error .unavailable
    | .ok () =>
      match matched.target.provider with
      | .webSocket index => routes.invokeWebSocket request matched index handshake
      | .buffered index => routes.invokeBuffered request matched index
      | .streaming index => routes.invokeStreaming request matched index

end RouteTable

end Ingress
