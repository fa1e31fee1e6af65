import LensoWeb.Ingress.Middleware
import LensoWeb.Ingress.Routing

/-!
# Dispatching a buffered request

Both transports hand a request with its whole body to `dispatchBuffered`. The
stream that a dispatched response owns does not pass through middleware; it
waits in the slot and is joined to the response that middleware returned.
-/

namespace Ingress

open Foundation Http Kernel

/-- The parts of other crates that decide something here. -/
structure External where
  uri : UriParser
  handshake : HandshakeCodec

variable {η : Type} (external : External)

/-- The handshake of an upgrade request; `none` where none is asked for. -/
def upgradeHandshake (request : Request Bytes) (policy : Option WebSocketConfig) :
    Except Unit (Option Handshake) :=
  if request.headers.contains .upgrade then
    if request.method ≠ .get || request.version ≠ .http11 || !request.body.isEmpty then .error ()
    else
      match policy with
      -- Unreachable: an upgrade without a policy has been refused before.
      | none => .error ()
      | some policy =>
          (Handshake.parse external.handshake request.headers policy.allowedOrigins).map some
  else .ok none

/-- Dispatch what middleware left, if it can still be restored. -/
def dispatchRestored (routes : RouteTable η) (handshake : Option Handshake)
    (control : InboundRequestControl) (visible : WebIngressRequest) :
    Task (World η) IngressResponse :=
  match restoreInboundRequest visible control with
  | .ok inbound => do
      World.emit (.dispatched visible inbound)
      dispatchResponse (← routes.dispatch inbound handshake)
  | .error rejection => pure (requestRejection rejection)

/-- Leave the stream of a response in the slot, and its head to middleware. -/
def parkStream (response : IngressResponse) : Task (World η) WebIngressResponse := do
  let (response, stream) := response.intoMiddlewareResponse
  World.setSlot stream
  return response

/-- The closure that `dispatch_buffered` hands to `middleware::run`. -/
def dispatchVisible (routes : RouteTable η) (handshake : Option Handshake)
    (control : InboundRequestControl) (visible : WebIngressRequest) :
    Task (World η) WebIngressResponse := do
  let response ← dispatchRestored routes handshake control visible
  parkStream response

/-- What `dispatch_buffered` makes of the caught result of `middleware::run`. -/
def joinSlot : Option (Except RuntimeFailure WebIngressResponse) → Task (World η) IngressResponse
  | some (.ok response) => do
      let response := IngressResponse.fromMiddlewareResponse response
      match ← World.takeSlot with
      | some body => response.withSession body
      | none => return response
  | _ => do
      World.dropSlot
      return unavailable

theorem joinSlot_of_some {head : WebIngressResponse} {body : IngressBody} {world : World η}
    (slot : world.slot = some body) :
    joinSlot (some (.ok head)) world =
      (IngressResponse.fromMiddlewareResponse head).withSession body { world with slot := none } := by
  simp only [joinSlot, Task.bind_apply, World.takeSlot, slot]

theorem joinSlot_of_none {head : WebIngressResponse} {world : World η} (slot : world.slot = none) :
    joinSlot (some (.ok head)) world =
      (.ready (IngressResponse.fromMiddlewareResponse head), { world with slot := none }) := by
  simp only [joinSlot, Task.bind_apply, World.takeSlot, slot]
  rfl

/-- The guarded run of middleware and dispatch. -/
def dispatchEnvelope (routes : RouteTable η) (middleware : List (WebIngressMiddleware η))
    (handshake : Option Handshake) (control : InboundRequestControl)
    (visible : WebIngressRequest) : Task (World η) IngressResponse := do
  World.setSlot none
  let result ← Task.catchUnwind
    (Middleware.run (middleware.map (·.within World.hostPart)) visible
      (dispatchVisible routes handshake control))
  joinSlot result

/-- `dispatch_buffered` from the point where the client request is accepted. -/
def dispatchInbound (routes : RouteTable η) (middleware : List (WebIngressMiddleware η))
    (handshake : Option Handshake) (version : Version) (inbound : InboundRequest) :
    Task (World η) IngressResponse :=
  match middlewareRequest external.uri inbound version with
  | none => .panic
  | some (visible, control) => dispatchEnvelope routes middleware handshake control visible

/-- The checks of `dispatch_buffered` before middleware: the response that ends
them early, or the accepted request with the handshake it asks for. -/
def admission (request : Request Bytes) (sessionCookie : Option SessionCookiePolicy)
    (routes : RouteTable η) : Except IngressResponse (Option Handshake × InboundRequest) :=
  if request.method = .connect ∨
      (request.headers.contains .upgrade = true ∧ routes.websocketPolicy.isNone = true) then
    .error (.json .notImplemented "unsupported_interaction")
  else
    match upgradeHandshake external request routes.websocketPolicy with
    | .error _ => .error badRequest
    | .ok handshake =>
        match inboundRequest request.method request.uri request.headers request.body
            sessionCookie with
        | .error rejection => .error (requestRejection rejection)
        | .ok inbound => .ok (handshake, inbound)

/-- `dispatch_buffered`. -/
def dispatchBuffered (request : Request Bytes) (sessionCookie : Option SessionCookiePolicy)
    (routes : RouteTable η) (middleware : List (WebIngressMiddleware η)) :
    Task (World η) IngressResponse :=
  match admission external request sessionCookie routes with
  | .error response => return response
  | .ok accepted =>
      dispatchInbound external routes middleware accepted.1 request.version accepted.2

/-- A handshake is parsed only under a WebSocket policy. -/
theorem policy_of_upgradeHandshake {request : Request Bytes} {policy : Option WebSocketConfig}
    {handshake : Handshake}
    (parsed : upgradeHandshake external request policy = .ok (some handshake)) :
    policy.isSome = true := by
  unfold upgradeHandshake at parsed
  split at parsed
  · split at parsed
    · cases parsed
    · split at parsed
      · cases parsed
      · rfl
  · cases parsed

/-- What has been checked of an accepted request. -/
theorem admission_eq_ok {request : Request Bytes} {sessionCookie : Option SessionCookiePolicy}
    {routes : RouteTable η} {handshake : Option Handshake} {inbound : InboundRequest}
    (admitted : admission external request sessionCookie routes = .ok (handshake, inbound)) :
    upgradeHandshake external request routes.websocketPolicy = .ok handshake ∧
      inboundRequest request.method request.uri request.headers request.body sessionCookie =
        .ok inbound := by
  unfold admission at admitted
  split at admitted
  · cases admitted
  · split at admitted
    · cases admitted
    · next handshake' parsed =>
      split at admitted
      · cases admitted
      · next inbound' accepted =>
        cases admitted
        exact ⟨parsed, accepted⟩

/-- An accepted request asks for a session only under a WebSocket policy. -/
theorem policy_of_admission {request : Request Bytes} {sessionCookie : Option SessionCookiePolicy}
    {routes : RouteTable η} {handshake : Option Handshake} {inbound : InboundRequest}
    (admitted : admission external request sessionCookie routes = .ok (handshake, inbound))
    (asked : handshake.isSome = true) : routes.websocketPolicy.isSome = true := by
  obtain ⟨parsed, rfl⟩ := Option.isSome_iff_exists.mp asked
  exact policy_of_upgradeHandshake external (admission_eq_ok external admitted).1

/-- A response that ends the checks early is buffered. -/
theorem buffered_of_admission {request : Request Bytes} {sessionCookie : Option SessionCookiePolicy}
    {routes : RouteTable η} {response : IngressResponse}
    (answered : admission external request sessionCookie routes = .error response) :
    ∃ bytes, response.body = .buffered bytes := by
  unfold admission at answered
  split at answered
  · cases answered
    exact ⟨_, rfl⟩
  · split at answered
    · cases answered
      exact ⟨_, rfl⟩
    · split at answered
      · next rejection _ =>
        cases answered
        cases rejection <;> exact ⟨_, rfl⟩
      · cases answered

/-! ### Bare requests and routes -/

/-- A parser for bare paths, and no Base64. -/
def bareExternal : External := ⟨.pathOnly, ⟨fun _ => none, id, id⟩⟩

/-- A bare `GET /`. -/
def bareRequest : Request Bytes := ⟨.get, .originForm rootPath none, .http11, bareHeaders, []⟩

/-- One route `GET /` to an Endpoint that answers with status 200. -/
def bareRoutes : RouteTable Unit where
  invocationContext _ := .ok ()
  diagnostics _ := some
  providers := [fun _ => pure (.ok ⟨[], [], 200⟩)]
  streamProviders := []
  websocketProviders := []
  websocketPolicy := none
  methods := [(.get, fun path => if path = ascii "/" then some ⟨⟨ascii "root", .buffered 0⟩, []⟩
    else none)]
  distinct := by decide

/-- One route `GET /` to a Stream Endpoint that opens a stream with the events. -/
def streamRoutes (events : List ResponseEvent) : RouteTable Unit where
  invocationContext _ := .ok ()
  diagnostics _ := some
  providers := []
  streamProviders := [fun _ => pure (.ok events)]
  websocketProviders := []
  websocketPolicy := none
  methods := [(.get, fun path => if path = ascii "/" then some ⟨⟨ascii "root", .streaming 0⟩, []⟩
    else none)]
  distinct := by decide

/-- A half-close, a head, a chunk and a successful terminal. -/
def oneChunk : List ResponseEvent :=
  [.ok .peerHalfClosed, .ok (.message ⟨.head, some 200, some [], none⟩),
    .ok (.message ⟨.chunk, none, none, some (ascii "a")⟩), .ok (.terminal (.ok ()))]

end Ingress
