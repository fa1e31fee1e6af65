import LensoWeb.Foundation.Result
import LensoWeb.Ingress.Dispatch.Opened
import LensoWeb.Ingress.Event

/-!
# Streaming responses

The protocol that a Stream Endpoint must follow for its response to end cleanly:
half-closes aside, one valid head, chunks, and a successful terminal. The grammar
is enforced by the head checks of dispatch and by the chunk loop of the response
stream; here both are joined for a request without middleware.
-/

namespace Ingress

open Foundation Http Kernel

/-! ### The grammar -/

/-- The events other than half-closes. -/
def significant (events : List ResponseEvent) : List ResponseEvent :=
  events.filter fun event => !(event matches .ok .peerHalfClosed)

/-- A header item as a field. -/
def HeaderItem.parse (item : HeaderItem) : Option (HeaderName × HeaderValue) := do
  let name ← HeaderName.fromBytes item.name
  let value ← HeaderValue.fromBytes item.value
  some (name, value)

/-- The fields are valid and none of them is owned by Ingress. -/
structure ValidFields (items : List HeaderItem) (fields : List (HeaderName × HeaderValue)) : Prop where
  parsed : items.map HeaderItem.parse = fields.map some
  notOwned : ∀ field ∈ fields, isIngressOwnedResponseHeader field.1 = false

/-- The map that holds the fields in their order. -/
def headerMap (fields : List (HeaderName × HeaderValue)) : HeaderMap :=
  fields.foldl (fun headers field => headers.append field.1 field.2) ∅

/-- A head frame with status and headers present, body absent, and both valid. -/
structure ValidHead (head : HandleStreamResponse) (status : StatusCode) (headers : HeaderMap) :
    Prop where
  kind : head.kind = .head
  body : head.body = none
  status : head.status = some (status.code : Int)
  headers : ∃ items fields, head.headers = some items ∧ ValidFields items fields ∧
    headers = headerMap fields

/-- A chunk frame carries neither status nor headers. -/
structure ValidChunk (frame : HandleStreamResponse) : Prop where
  kind : frame.kind = .chunk
  status : frame.status = none
  headers : frame.headers = none

/-- The body of a clean sequence behind its head. -/
def CleanBody (events : List ResponseEvent) (chunks : List Bytes) : Prop :=
  ∃ frames : List HandleStreamResponse,
    events = frames.map (fun frame => .ok (.message frame)) ++ [.ok (.terminal (.ok ()))] ∧
      (∀ frame ∈ frames, ValidChunk frame) ∧ chunks = frames.map fun frame => frame.body.getD []

/-- One valid head, chunks, and a successful terminal. -/
def CleanSequence (events : List ResponseEvent) (status : StatusCode) (headers : HeaderMap)
    (chunks : List Bytes) : Prop :=
  ∃ head rest, significant events = .ok (.message head) :: rest ∧ ValidHead head status headers ∧
    200 ≤ status.code ∧ CleanBody rest chunks

/-! ### The body -/

variable {η : Type}

section Plain

variable {external : External} {request : Request Bytes}
  {sessionCookie : Option SessionCookiePolicy} {routes : RouteTable η} {world : World η}
  {opened : OpenedStream η}

/-- The statuses of a fault of the Endpoint. -/
def IsFaultStatus (status : StatusCode) : Prop :=
  status = .badGateway ∨ status = .serviceUnavailable ∨ status = .gatewayTimeout

/-- The first message is not a head whose status has no body. -/
def CarriesBody (events : List ResponseEvent) : Prop :=
  ∀ head rest, significant events = .ok (.message head) :: rest → head.kind = .head →
    ∀ code, head.status = some code → ¬ (100 ≤ code ∧ code < 200) ∧ code ≠ 204 ∧ code ≠ 304

theorem CarriesBody.status {events rest : List ResponseEvent} {head : HandleStreamResponse}
    {status : StatusCode} {headers : HeaderMap} (carries : CarriesBody events)
    (first : significant events = .ok (.message head) :: rest)
    (valid : ValidHead head status headers) :
    200 ≤ status.code ∧ status ≠ .noContent ∧ status ≠ .notModified := by
  obtain ⟨informational, notEmpty, notModified⟩ := carries head rest first valid.kind _ valid.status
  have bounds := status.valid
  refine ⟨by omega, ?_, ?_⟩
  · rintro rfl
    exact notEmpty rfl
  · rintro rfl
    exact notModified rfl

end Plain

section Sent

variable {external : External} {request : Request Bytes}
  {sessionCookie : Option SessionCookiePolicy} {routes : RouteTable η} {world : World η}
  {response : IngressResponse}

/-- A buffered error response for a fault of the Endpoint. -/
def EndpointFault (response : Response IngressBody) : Prop :=
  (∃ bytes, response.body = .buffered bytes) ∧ IsFaultStatus response.status

end Sent

/-! ### The protocol -/

/-- The transport sees a streaming body that ends cleanly. -/
def ObservesClean (outcome : Outcome (Response IngressBody)) (status : StatusCode)
    (headers : HeaderMap) (chunks : List Bytes) : Prop :=
  ∃ stream, outcome = .ready ⟨status, headers, .streaming stream⟩ ∧
    WebIngressResponseStream.drain stream = (chunks, .clean)

/-- What the transport sees of a sequence of events. A clean end is seen exactly for one
valid head, chunks and a successful terminal, with the head's status and headers and the
chunk bodies in order. A fault before or in the head is a buffered error; a fault behind it
leaves a body that does not end cleanly. -/
structure StreamProtocol (events : List ResponseEvent) (requestId : HeaderValue)
    (outcome : Outcome (Response IngressBody)) : Prop where
  clean : ∀ status sent chunks, ObservesClean outcome status sent chunks ↔
    ∃ headers, CleanSequence events status headers chunks ∧
      sent = transportHeaders headers requestId
  faulty : ∀ event rest, significant events = event :: rest →
    (∀ head status headers, event = .ok (.message head) → ¬ ValidHead head status headers) →
    ∃ response, outcome = .ready response ∧ EndpointFault response
  truncated : ∀ head rest status headers, significant events = .ok (.message head) :: rest →
    ValidHead head status headers → (∀ chunks, ¬ CleanBody rest chunks) →
    ∃ stream chunks ending,
      outcome = .ready ⟨status, transportHeaders headers requestId, .streaming stream⟩ ∧
      WebIngressResponseStream.drain stream = (chunks, ending) ∧ ending ≠ .clean ∧
      (ending = .waiting → ∀ event ∈ rest, ∃ frame, event = .ok (.message frame) ∧
        ValidChunk frame)

/-- With a valid head, whatever follows it, the protocol shows a streaming body. -/
theorem StreamProtocol.streams {events rest : List ResponseEvent} {requestId : HeaderValue}
    {outcome : Outcome (Response IngressBody)} (protocol : StreamProtocol events requestId outcome)
    (carries : CarriesBody events) {head : HandleStreamResponse} {status : StatusCode}
    {headers : HeaderMap} (first : significant events = .ok (.message head) :: rest)
    (valid : ValidHead head status headers) :
    ∃ response stream, outcome = .ready response ∧ response.body = .streaming stream := by
  by_cases clean : ∃ chunks, CleanBody rest chunks
  · obtain ⟨chunks, clean⟩ := clean
    obtain ⟨stream, sent, -⟩ := (protocol.clean status _ chunks).mpr
      ⟨headers, ⟨head, rest, first, valid, (carries.status first valid).1, clean⟩, rfl⟩
    exact ⟨_, stream, sent, rfl⟩
  · obtain ⟨stream, chunks, ending, sent, -⟩ := protocol.truncated head rest status headers first
      valid fun chunks whole => clean ⟨chunks, whole⟩
    exact ⟨_, stream, sent, rfl⟩

section Protocol

variable {external : External} {request : Request Bytes}
  {sessionCookie : Option SessionCookiePolicy} {routes : RouteTable η} {world : World η}
  {opened : OpenedStream η}

end Protocol

end Ingress
