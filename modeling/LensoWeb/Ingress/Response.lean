import LensoWeb.Ingress.Endpoint
import LensoWeb.Ingress.Handshake

/-!
# Responses inside the Ingress

A response is buffered, or it owns an opened stream or WebSocket session. Calls
run on a `World`: the state of the host, the supply of stream identifiers, the
slot in which a dispatched stream waits while middleware handles its head, and
the effects of this request so far. Cancelling a stream is an effect; dropping
one is not, except where this crate's own `Drop` cancels it.
-/

namespace Ingress

open Foundation Http Kernel

/-- `WebSocketUpgrade`. -/
structure WebSocketUpgrade where
  session : WebSocketSession
  acceptKey : Bytes
deriving DecidableEq

/-- `IngressBody`. -/
inductive IngressBody where
  | buffered (bytes : Bytes)
  | streaming (stream : ResponseStream)
  | webSocket (upgrade : WebSocketUpgrade)

/-- The stream that a body owns. -/
def IngressBody.stream? : IngressBody → Option StreamId
  | buffered _ => none
  | streaming stream => some stream.id
  | webSocket upgrade => some upgrade.session.stream

/-- `IngressResponse`. -/
structure IngressResponse where
  status : StatusCode
  headers : HeaderMap
  body : IngressBody

/-- `DispatchError`. -/
inductive DispatchError where
  | notFound
  | upgradeRequired
  | badHandshake
  | unauthorized
  | forbidden
  | methodNotAllowed (allowed : List Method)
  | rejected
  | timedOut
  | unavailable
deriving DecidableEq

/-- `StreamingResponse`. -/
structure StreamingResponse where
  headers : List HeaderItem
  status : Int
  stream : ResponseStream

/-- `DispatchResponse`. -/
inductive DispatchResponse where
  | buffered (response : HandleResponse)
  | streaming (response : StreamingResponse)
  | webSocket (upgrade : WebSocketUpgrade)

/-! ### The world of one request -/

/-- What the crate did for a request. `dispatched` records the request as the last
middleware left it and the request that `RouteTable::dispatch` was called with. -/
inductive Effect where
  | dispatched (visible : WebIngressRequest) (inbound : InboundRequest)
  | opened (stream : StreamId)
  | cancelled (stream : StreamId)
deriving DecidableEq

structure World (η : Type) where
  host : η
  requestIds : UInt64
  nextStream : StreamId
  slot : Option IngressBody
  effects : List Effect

namespace World

variable {η : Type}

/-- The world in which a request arrives. -/
def start (host : η) (requestIds : UInt64) (nextStream : StreamId) : World η where
  host := host
  requestIds := requestIds
  nextStream := nextStream
  slot := none
  effects := []

/-- The state that providers and middleware run on. -/
def hostPart : Task.Part (World η) η where
  get world := world.host
  set host world := { world with host := host }
  get_set _ _ := rfl
  set_get _ := rfl
  set_set _ _ _ := rfl

/-- Run a call of the host. -/
def onHost {α : Type} (call : Task η α) : Task (World η) α := call.within hostPart

theorem onHost_apply {α : Type} (call : Task η α) (world : World η) :
    onHost call world = ((call world.host).1, { world with host := (call world.host).2 }) := rfl

theorem onHost_of_ready {α : Type} {call : Task η α} {world : World η} {value : α} {host : η}
    (returned : call world.host = (.ready value, host)) :
    onHost call world = (.ready value, { world with host := host }) := by
  rw [onHost_apply, returned]

/-- A call of the host, followed by more. -/
theorem onHost_bind_ends {α β : Type} {call : Task η α} {rest : α → Task (World η) β}
    {world : World η} {Q : Outcome β → World η → Prop}
    (pending : ∀ host, Q .pending { world with host := host })
    (panicked : ∀ host, Q .panicked { world with host := host })
    (returned : ∀ value host, call world.host = (.ready value, host) →
      (rest value).Ends { world with host := host } Q) :
    (onHost call >>= rest).Ends world Q := by
  refine .bind ?_
  unfold Task.Ends
  rw [onHost_apply]
  rcases whole : call world.host with ⟨_ | _ | _, host⟩
  · exact returned _ host whole
  · exact pending host
  · exact panicked host

def emit (effect : Effect) : Task (World η) Unit :=
  .update fun world => { world with effects := world.effects ++ [effect] }

/-- `NativeStream::cancel`. -/
def cancel (stream : StreamId) : Task (World η) Unit := emit (.cancelled stream)

/-- A provider accepted the invocation and returned an open stream. -/
def openStream : Task (World η) StreamId := fun world =>
  (.ready world.nextStream,
    { world with
      nextStream := world.nextStream + 1
      effects := world.effects ++ [.opened world.nextStream] })

/-- Write the stream slot. -/
def setSlot (slot : Option IngressBody) : Task (World η) Unit :=
  .update fun world => { world with slot := slot }

/-- `RefCell::take` on the stream slot. -/
def takeSlot : Task (World η) (Option IngressBody) := fun world =>
  (.ready world.slot, { world with slot := none })

/-- Drop the stream slot. Only `WebSocketSession` cancels its stream on drop. -/
def dropSlot : Task (World η) Unit := do
  match ← takeSlot with
  | some (.webSocket upgrade) => cancel upgrade.session.stream
  | _ => return ()

theorem dropSlot_of_socket {world : World η} {upgrade : WebSocketUpgrade}
    (slot : world.slot = some (.webSocket upgrade)) :
    dropSlot world = (.ready (),
      { world with
        slot := none
        effects := world.effects ++ [.cancelled upgrade.session.stream] }) := by
  simp only [dropSlot, Task.bind_apply, takeSlot, slot]
  rfl

theorem dropSlot_of_noSocket {world : World η}
    (noSocket : ∀ upgrade, world.slot ≠ some (.webSocket upgrade)) :
    dropSlot world = (.ready (), { world with slot := none }) := by
  rcases slot : world.slot with _ | bytes | stream | upgrade <;>
    simp only [dropSlot, Task.bind_apply, takeSlot, slot]
  · rfl
  · rfl
  · rfl
  · exact absurd slot (noSocket upgrade)

end World

/-! ### Error responses -/

def nosniffHeader : HeaderName :=
  ⟨ascii "x-content-type-options", by decide, by decide, by decide, by decide⟩

namespace IngressResponse

/-- The JSON text of an error code. -/
def errorBody (code : String) : Bytes :=
  ascii "\x7b\"error\":\"" ++ ascii code ++ ascii "\"\x7d"

/-- `IngressResponse::json`, with the error code for the static text. -/
def json (status : StatusCode) (code : String) : IngressResponse where
  status := status
  headers := (∅ : HeaderMap).insert .contentType
    ⟨ascii "application/json; charset=utf-8", by decide⟩
  body := .buffered (errorBody code)

end IngressResponse

open IngressResponse (json)

def badRequest : IngressResponse := json .badRequest "bad_request"
def csrfForbidden : IngressResponse := json .forbidden "csrf_rejected"
def payloadTooLarge : IngressResponse := json .payloadTooLarge "payload_too_large"
def requestTimeout : IngressResponse := json .requestTimeout "request_timeout"
def unavailable : IngressResponse := json .serviceUnavailable "endpoint_unavailable"
def invalidEndpointResponse : IngressResponse := json .badGateway "invalid_endpoint_response"
def headTooLarge : IngressResponse :=
  json .requestHeaderFieldsTooLarge "request_header_fields_too_large"

/-- `request_rejection`. -/
def requestRejection : RequestRejection → IngressResponse
  | .badRequest => badRequest
  | .csrfForbidden => csrfForbidden

/-- `method_not_allowed`. -/
def methodNotAllowed (allowed : List Method) : IngressResponse :=
  let response := json .methodNotAllowed "method_not_allowed"
  match HeaderValue.fromBytes ((ascii ", ").intercalate (allowed.map Method.token)) with
  | some value => { response with headers := response.headers.insert .allow value }
  | none => response

/-! ### Endpoint responses -/

/-- `is_ingress_owned_response_header`. -/
def isIngressOwnedResponseHeader (name : HeaderName) : Bool :=
  isStaticHopByHopHeader name || name == .contentLength || name == nosniffHeader ||
    name == requestIdHeader

/-- `u16::try_from` and `StatusCode::from_u16` in sequence. -/
def endpointStatus (status : Int) : Option StatusCode :=
  if 0 ≤ status ∧ status < 65536 then StatusCode.fromU16 status.toNat else none

/-- Why no header map is made of header items: one of them is not accepted, or a call
on the map unwinds. -/
inductive HeaderFault where
  | invalid
  | unwound
deriving DecidableEq

/-- One round of the header loop that `from_endpoint` and `from_stream_endpoint` share. -/
def appendEndpointHeader (headers : HeaderMap) (item : HeaderItem) :
    Except HeaderFault HeaderMap :=
  match HeaderName.fromBytes item.name with
  | none => .error .invalid
  | some name =>
      if isIngressOwnedResponseHeader name then .error .invalid
      else match HeaderValue.fromBytes item.value with
        | none => .error .invalid
        | some value => (headers.append? name value).elim (.error .unwound) .ok

/-- The header loop, in a map that is made for as many names as there are items. -/
def endpointHeaders (items : List HeaderItem) : Except HeaderFault HeaderMap :=
  match HeaderMap.withCapacity? items.length with
  | none => .error .unwound
  | some headers => items.foldlM appendEndpointHeader headers

section Streams

variable {η : Type}

/-- `from_endpoint`. -/
def fromEndpoint (response : HandleResponse) : Task (World η) IngressResponse :=
  match endpointStatus response.status with
  | none => return invalidEndpointResponse
  | some status =>
      match endpointHeaders response.headers with
      | .error .invalid => return invalidEndpointResponse
      | .error .unwound => .panic
      | .ok headers => return ⟨status, headers, .buffered response.body⟩

/-- A buffered response is made without a trace. -/
theorem fromEndpoint_keeps {invariant : World η → Prop} (response : HandleResponse) :
    (fromEndpoint response : Task (World η) IngressResponse).Keeps invariant := by
  unfold fromEndpoint
  split
  · exact .pure _
  · split
    · exact .pure _
    · exact .panic
    · exact .pure _

/-- `from_stream_endpoint`. -/
def fromStreamEndpoint (response : StreamingResponse) : Task (World η) IngressResponse :=
  match endpointStatus response.status with
  | none => do
      World.cancel response.stream.id
      return invalidEndpointResponse
  | some status =>
      match endpointHeaders response.headers with
      | .error .invalid => do
          World.cancel response.stream.id
          return invalidEndpointResponse
      | .error .unwound => .panic
      | .ok headers => return ⟨status, headers, .streaming response.stream⟩

/-- The response to a failed dispatch. -/
def dispatchErrorResponse : DispatchError → IngressResponse
  | .unauthorized => json .unauthorized "unauthorized"
  | .forbidden => json .forbidden "forbidden"
  | .upgradeRequired => json .upgradeRequired "websocket_upgrade_required"
  | .badHandshake => json .badRequest "invalid_websocket_handshake"
  | .notFound => json .notFound "not_found"
  | .methodNotAllowed allowed => methodNotAllowed allowed
  | .rejected => json .badGateway "endpoint_rejected"
  | .timedOut => json .gatewayTimeout "endpoint_timeout"
  | .unavailable => unavailable

/-- `dispatch_response`. -/
def dispatchResponse : Except DispatchError DispatchResponse → Task (World η) IngressResponse
  | .ok (.buffered response) => fromEndpoint response
  | .ok (.streaming response) => fromStreamEndpoint response
  | .ok (.webSocket upgrade) => return ⟨.switchingProtocols, ∅, .webSocket upgrade⟩
  | .error error => return dispatchErrorResponse error

namespace IngressResponse

/-- `into_middleware_response`. -/
def intoMiddlewareResponse (response : IngressResponse) :
    WebIngressResponse × Option IngressBody :=
  match response.body with
  | .buffered body => (⟨response.status, response.headers, body⟩, none)
  | body => (⟨response.status, response.headers, []⟩, some body)

/-- `from_middleware_response`. -/
def fromMiddlewareResponse (response : WebIngressResponse) : IngressResponse where
  status := response.status
  headers := (response.headers.keys.filter isIngressOwnedResponseHeader).foldl
    MultiMap.remove response.headers
  body := .buffered response.body

/-- `with_session`. -/
def withSession (response : IngressResponse) (body : IngressBody) :
    Task (World η) IngressResponse :=
  match body with
  | .webSocket upgrade =>
      if response.status ≠ .switchingProtocols then do
        World.cancel upgrade.session.stream
        return response
      else do
        let headers ← Task.expect
          (response.headers.insert? .upgrade ⟨ascii "websocket", by decide⟩)
        let headers ← Task.expect (headers.insert? .connection ⟨ascii "Upgrade", by decide⟩)
        let accept ← Task.expect (HeaderValue.fromBytes upgrade.acceptKey)
        let headers ← Task.expect (headers.insert? Handshake.acceptHeader accept)
        match upgrade.session.protocol with
        | none => return ⟨response.status, headers, body⟩
        | some protocol =>
            let protocol ← Task.expect (HeaderValue.fromBytes protocol)
            let headers ← Task.expect (headers.insert? Handshake.protocolHeader protocol)
            return ⟨response.status, headers, body⟩
  | body => return { response with body := body }

/-- What a session adds to a response that switches protocols. -/
theorem withSession_ready_of_switching {response result : IngressResponse}
    {upgrade : WebSocketUpgrade} {world after : World η}
    (switching : response.status = .switchingProtocols)
    (returned : response.withSession (.webSocket upgrade) world = (.ready result, after)) :
    after = world ∧ ∃ accept, HeaderValue.fromBytes upgrade.acceptKey = some accept ∧
      let headers := ((response.headers.insert .upgrade ⟨ascii "websocket", by decide⟩).insert
        .connection ⟨ascii "Upgrade", by decide⟩).insert Handshake.acceptHeader accept
      (upgrade.session.protocol = none ∧
        result = ⟨response.status, headers, .webSocket upgrade⟩) ∨
      ∃ protocol value, upgrade.session.protocol = some protocol ∧
        HeaderValue.fromBytes protocol = some value ∧
        result = ⟨response.status, headers.insert Handshake.protocolHeader value,
          .webSocket upgrade⟩ := by
  simp only [withSession, ne_eq, switching, not_true_eq_false, if_false] at returned
  obtain ⟨upgraded, inserted, returned⟩ := Task.expect_bind_ready_iff.mp returned
  obtain ⟨-, rfl⟩ := HeaderMap.insert?_eq_some_iff.mp inserted
  obtain ⟨connected, inserted, returned⟩ := Task.expect_bind_ready_iff.mp returned
  obtain ⟨-, rfl⟩ := HeaderMap.insert?_eq_some_iff.mp inserted
  obtain ⟨accept, written, returned⟩ := Task.expect_bind_ready_iff.mp returned
  obtain ⟨accepted, inserted, returned⟩ := Task.expect_bind_ready_iff.mp returned
  obtain ⟨-, rfl⟩ := HeaderMap.insert?_eq_some_iff.mp inserted
  cases chosen : upgrade.session.protocol with
  | none =>
      rw [chosen] at returned
      cases returned
      exact ⟨rfl, accept, written, .inl ⟨rfl, by rw [switching]⟩⟩
  | some protocol =>
      rw [chosen] at returned
      obtain ⟨value, named, returned⟩ := Task.expect_bind_ready_iff.mp returned
      obtain ⟨final, inserted, returned⟩ := Task.expect_bind_ready_iff.mp returned
      obtain ⟨-, rfl⟩ := HeaderMap.insert?_eq_some_iff.mp inserted
      cases returned
      exact ⟨rfl, accept, written, .inr ⟨protocol, value, rfl, named, by rw [switching]⟩⟩

/-- Whether `normalize_body` empties the body. -/
def carriesNoBody (response : IngressResponse) (method : Method) : Bool :=
  method == .head ||
    (response.status.isInformational && !(response.body matches .webSocket _)) ||
    response.status == .noContent || response.status == .notModified

/-- `normalize_body`. -/
def normalizeBody (response : IngressResponse) (method : Method) :
    Task (World η) IngressResponse :=
  if response.carriesNoBody method then do
    match response.body with
    | .streaming stream => World.cancel stream.id
    | .webSocket upgrade => World.cancel upgrade.session.stream
    | .buffered _ => pure ()
    return { response with body := .buffered [] }
  else return response

/-- A body that is emptied is cancelled. -/
theorem normalizeBody_apply (response : IngressResponse) (method : Method) (world : World η) :
    response.normalizeBody method world =
      if response.carriesNoBody method then
        (.ready { response with body := .buffered [] },
          { world with
            effects := world.effects ++ (response.body.stream?.map Effect.cancelled).toList })
      else (.ready response, world) := by
  unfold normalizeBody
  split
  · obtain ⟨status, headers, body⟩ := response
    cases body with
    | buffered bytes => simp [IngressBody.stream?]
    | streaming stream => rfl
    | webSocket upgrade => rfl
  · rfl

theorem noSocket_of_normalizeBody {response normal : IngressResponse} {method : Method}
    {world after : World η} (noSocket : ∀ upgrade, response.body ≠ .webSocket upgrade)
    (returned : response.normalizeBody method world = (.ready normal, after))
    (upgrade : WebSocketUpgrade) : normal.body ≠ .webSocket upgrade := by
  rw [normalizeBody_apply] at returned
  split at returned <;> cases returned
  · rintro ⟨⟩
  · exact noSocket upgrade

end IngressResponse

end Streams

def nosniff : HeaderValue := ⟨ascii "nosniff", by decide⟩

/-- `with_transport_headers`; `none` is an unwinding. -/
def withTransportHeaders {β : Type} (response : Response β) (requestId : HeaderValue) :
    Option (Response β) := do
  let headers ← response.headers.insert? requestIdHeader requestId
  let headers ← headers.insert? nosniffHeader nosniff
  some { response with headers := headers }

/-- The fields of a response once the transport has written its own. -/
def transportHeaders (headers : HeaderMap) (requestId : HeaderValue) : HeaderMap :=
  (headers.insert requestIdHeader requestId).insert nosniffHeader nosniff

theorem withTransportHeaders_eq_some_iff {β : Type} {response result : Response β}
    {requestId : HeaderValue} :
    withTransportHeaders response requestId = some result ↔
      response.headers.HasRoom ∧
        HeaderMap.HasRoom (response.headers.insert requestIdHeader requestId) ∧
        result = { response with headers := transportHeaders response.headers requestId } := by
  simp only [withTransportHeaders, Option.bind_eq_bind, Option.bind_eq_some_iff,
    HeaderMap.insert?_eq_some_iff, Option.some.injEq]
  constructor
  · rintro ⟨first, ⟨room, rfl⟩, second, ⟨later, rfl⟩, rfl⟩
    exact ⟨room, later, rfl⟩
  · rintro ⟨room, later, rfl⟩
    exact ⟨_, ⟨room, rfl⟩, _, ⟨later, rfl⟩, rfl⟩

end Ingress
