import LensoWeb.Ingress.SessionCookie

/-!
# Requests inside the Ingress

A client request is turned into an `InboundRequest` without credentials, hop by
hop headers and transport headers. Global middleware sees it as an ordinary
request again; what middleware leaves is filtered a second time, while credential
and request identifier are carried around middleware in the control record.

Cancellation and disconnection of a request act on its provider only. They are
left out here: a provider is any source of events.
-/

namespace Ingress

open Foundation Http

/-- `REQUEST_ID_HEADER`. -/
def requestIdHeader : HeaderName :=
  ⟨ascii "x-request-id", by decide, by decide, by decide, by decide⟩

structure InboundHeader where
  name : Bytes
  value : Bytes
deriving DecidableEq

/-- `InboundRequest`. -/
structure InboundRequest where
  body : Bytes
  credential : Option CredentialEvidence
  csrfHeaderName : Option HeaderName
  headers : List InboundHeader
  method : Method
  path : Bytes
  query : Option Bytes
  requestId : Bytes
deriving DecidableEq

inductive RequestRejection where
  | badRequest
  | csrfForbidden
deriving DecidableEq

/-- `From<CredentialRejection>`. -/
def RequestRejection.ofCredential : CredentialRejection → RequestRejection
  | .badRequest => .badRequest
  | .csrfForbidden => .csrfForbidden

/-! ### Request identifiers -/

/-- The digit loop of `request_id_header_value`; `none` is an index underflow. -/
def writeDigits : Nat → Nat → Bytes → Option (Nat × Bytes)
  | 0, _, _ => none
  | start + 1, value, buffer =>
      let buffer := buffer.set start (48 + UInt8.ofNat (value % 10))
      if value / 10 = 0 then some (start, buffer) else writeDigits start (value / 10) buffer

/-- `request_id_header_value`. -/
def requestIdHeaderValue (value : UInt64) : Option HeaderValue := do
  let (start, buffer) ← writeDigits 26 value.toNat (List.replicate 26 0)
  let start ← if start < 6 then none else some (start - 6)
  let buffer := buffer.take start ++ ascii "lenso-" ++ buffer.drop (start + 6)
  HeaderValue.fromBytes (buffer.drop start)

/-- `RequestIdSequence::next`: the value drawn and the counter after it. -/
def nextRequestId (counter : UInt64) : UInt64 × UInt64 := (counter, counter + 1)

/-- `request_id`. -/
def requestId (headers : HeaderMap) : Except RequestRejection Bytes :=
  match (headers.get? requestIdHeader).bind HeaderValue.toStr with
  | none => .error .badRequest
  | some text =>
      if text.isEmpty || decide (128 < text.length) then .error .badRequest else .ok text

/-! ### Header filters -/

/-- `is_static_hop_by_hop_name`. -/
def isStaticHopByHopName (name : Bytes) : Bool :=
  Text.eqIgnoreCase name (ascii "connection") || Text.eqIgnoreCase name (ascii "te") ||
    Text.eqIgnoreCase name (ascii "trailer") ||
    Text.eqIgnoreCase name (ascii "transfer-encoding") ||
    Text.eqIgnoreCase name (ascii "upgrade") || Text.eqIgnoreCase name (ascii "keep-alive") ||
    Text.eqIgnoreCase name (ascii "proxy-connection")

/-- `is_static_hop_by_hop_header`. -/
def isStaticHopByHopHeader (name : HeaderName) : Bool :=
  name == .connection || name == .te || name == .trailer || name == .transferEncoding ||
    name == .upgrade || name.text == ascii "keep-alive" || name.text == ascii "proxy-connection"

/-- `is_filtered_request_header`. -/
def isFilteredRequestHeader (name : HeaderName) : Bool :=
  name == .authorization || name == .cookie || isStaticHopByHopHeader name ||
    name == .contentLength || name == .host || name == requestIdHeader

/-- The names that one `Connection` value nominates. -/
def nominatedNames (text : Bytes) : List Bytes :=
  ((Text.split 44 text).map Text.trim).filter fun name => !name.isEmpty

/-- One nomination. Hop-by-hop names are skipped: they are filtered in any case. -/
def nominate (owned : List HeaderName) (name : Bytes) :
    Except RequestRejection (List HeaderName) :=
  if isStaticHopByHopName name then .ok owned
  else match HeaderName.fromBytes name with
    | none => .error .badRequest
    | some header => .ok (owned ++ [header])

/-- One `Connection` field. -/
def nominateField (owned : List HeaderName) (value : HeaderValue) :
    Except RequestRejection (List HeaderName) :=
  match value.toStr with
  | none => .error .badRequest
  | some text => (nominatedNames text).foldlM nominate owned

/-- `connection_owned_headers`. -/
def connectionOwnedHeaders (headers : HeaderMap) : Except RequestRejection (List HeaderName) :=
  (headers.getAll .connection).foldlM nominateField []

/-- Whether a header survives the filter. -/
def passesFilter (csrfHeaderName : Option HeaderName) (connectionOwned : List HeaderName)
    (name : HeaderName) : Bool :=
  !isFilteredRequestHeader name && !(csrfHeaderName == some name) &&
    !connectionOwned.contains name

/-- One surviving field as text. -/
def inboundHeader (field : HeaderName × HeaderValue) : Except RequestRejection InboundHeader :=
  match field.2.toStr with
  | some value => .ok ⟨field.1.text, value⟩
  | none => .error .badRequest

/-- The header list of an inbound request. -/
def inboundHeaders (headers : HeaderMap) (csrfHeaderName : Option HeaderName) :
    Except RequestRejection (List InboundHeader) := do
  let connectionOwned ← connectionOwnedHeaders headers
  (headers.toList.filter fun field => passesFilter csrfHeaderName connectionOwned field.1).mapM
    inboundHeader

/-- `normalized_method`. -/
def normalizedMethod (method : Method) : Method where
  token := Text.uppercase method.token
  nonempty := by simpa [Text.uppercase] using method.nonempty
  valid := by
    refine List.all_eq_true.mpr fun byte member => ?_
    obtain ⟨original, stored, rfl⟩ := List.mem_map.mp member
    exact Method.isTokenByte_toUpper original (List.all_eq_true.mp method.valid original stored)

/-- `inbound_request`. -/
def inboundRequest (method : Method) (uri : Uri) (headers : HeaderMap) (body : Bytes)
    (sessionCookie : Option SessionCookiePolicy) : Except RequestRejection InboundRequest := do
  let requestId ← requestId headers
  let credential ← (selectCredential method headers sessionCookie).mapError .ofCredential
  let csrfHeaderName := sessionCookie.map (·.csrfHeaderName)
  let headers ← inboundHeaders headers csrfHeaderName
  return {
    body
    credential
    csrfHeaderName
    headers
    method := normalizedMethod method
    path := uri.path
    query := uri.query
    requestId }

/-! ### The middleware envelope -/

abbrev WebIngressRequest := Request Bytes
abbrev WebIngressResponse := Response Bytes

/-- `InboundRequestControl`. -/
structure InboundRequestControl where
  credential : Option CredentialEvidence
  csrfHeaderName : Option HeaderName
  requestId : Bytes
deriving DecidableEq

/-- Append one field; `none` is an unwinding `expect`. There is room: the fields come from
a header map that held the request identifier besides. -/
def appendHeader (headers : HeaderMap) (header : InboundHeader) : Option HeaderMap := do
  let name ← HeaderName.fromBytes header.name
  let value ← HeaderValue.fromBytes header.value
  some (headers.append name value)

/-- `middleware_request`; `none` is an unwinding `expect`. -/
def middlewareRequest (parser : UriParser) (request : InboundRequest) (version : Version) :
    Option (WebIngressRequest × InboundRequestControl) := do
  let uri ← parser.parse (Uri.render request.path request.query)
  let headers ← request.headers.foldlM appendHeader ∅
  let requestId ← HeaderValue.fromBytes request.requestId
  some (
    { method := request.method
      uri
      version
      headers := headers.insert requestIdHeader requestId
      body := request.body },
    ⟨request.credential, request.csrfHeaderName, request.requestId⟩)

/-- `restore_inbound_request`. -/
def restoreInboundRequest (request : WebIngressRequest) (control : InboundRequestControl) :
    Except RequestRejection InboundRequest := do
  let headers ← inboundHeaders request.headers control.csrfHeaderName
  return {
    body := request.body
    credential := control.credential
    csrfHeaderName := control.csrfHeaderName
    headers
    method := normalizedMethod request.method
    path := request.uri.path
    query := request.uri.query
    requestId := control.requestId }

/-! ### A bare request -/

/-- The headers of a bare request once its identifier is set. -/
def bareHeaders : HeaderMap := (∅ : HeaderMap).insert requestIdHeader ⟨ascii "lenso-0", by decide⟩

/-- What a bare `GET` is accepted as. -/
def bareInbound (path : Bytes) : InboundRequest where
  body := []
  credential := none
  csrfHeaderName := none
  headers := []
  method := .get
  path := path
  query := none
  requestId := ascii "lenso-0"

/-- The root path. -/
def rootPath : UriPath := ⟨ascii "/", by decide, by decide, by decide⟩

end Ingress
