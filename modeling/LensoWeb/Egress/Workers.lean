import LensoWeb.Egress.Policy

/-!
# The Workers Egress provider

The event provider prepares a request as the native one does and hands it to an
injected transport. For Workers that transport is the Fetch bridge of
`event-fetch.mjs` with its Rust adapter. The bridge bounds what it receives while
it receives it, before anything is filtered; the adapter checks the bounds again
when it decodes the response, and the provider filters the headers at the end.

Only exchanges that run to their end are modelled here: the bridge's timer does
not fire and its `abort` is not called.
-/

namespace Egress

open Foundation Http

structure HttpEventLimits where
  maxResponseBodyBytes : Nat
  maxResponseHeadBytes : Nat
  requestTimeoutMillis : Nat
deriving DecidableEq

structure HttpEventRequest where
  request : Request Bytes
  limits : HttpEventLimits

inductive HttpEventError where
  | timeout
  | responseTooLarge
  | transportFailure
deriving DecidableEq

/-- `From<HttpEventError> for SendError`. -/
def HttpEventError.toSendError : HttpEventError → SendError
  | timeout => .timeout
  | responseTooLarge => .responseTooLarge
  | transportFailure => .transportFailure

/-- The limits that the provider hands to its transport. -/
def HttpEgressConfig.eventLimits (config : HttpEgressConfig) : HttpEventLimits :=
  ⟨config.maxResponseBodyBytes, config.maxResponseHeadBytes, config.requestTimeoutMillis⟩

/-! ### The Fetch bridge

Header names and values are byte strings to Fetch, so their length in JavaScript
is their number of bytes. -/

/-- What the adapter passes to the bridge. -/
structure FetchRequest where
  url : Bytes
  method : Bytes
  headers : List (Bytes × Bytes)
  body : Bytes
  limits : HttpEventLimits
deriving DecidableEq

/-- How the host exposes `Set-Cookie`: by either of two functions, or not at all,
in which case it may still be told whether there is one. -/
inductive CookieAccess where
  | getSetCookie (values : List Bytes)
  | getAll (values : List Bytes)
  | unsupported (present : Bool)
deriving DecidableEq

/-- What the bridge reads of a Fetch `Response`. `fields` is the iteration of the
headers; a body is the chunks that its reader delivers. -/
structure FetchResponse where
  status : Nat
  redirected : Bool
  fields : List (Bytes × Bytes)
  cookies : CookieAccess
  body : Option (List Bytes)
deriving DecidableEq

/-- `Headers.get`: the values of a name, joined. -/
def FetchResponse.get (response : FetchResponse) (name : Bytes) : Option Bytes :=
  match (response.fields.filter (·.1 = name)).map Prod.snd with
  | [] => none
  | values => some ((ascii ", ").intercalate values)

/-- The `code` of a rejection. -/
inductive FailureCode where
  | timeout
  | responseTooLarge
  | transportFailure
deriving DecidableEq

/-- What the bridge resolves to. -/
structure FetchedResponse where
  status : Nat
  headers : List (Bytes × Bytes)
  body : Bytes
deriving DecidableEq

namespace EventFetch

def setCookie : Bytes := ascii "set-cookie"

/-- What a received field costs. -/
def pairBytes (pair : Bytes × Bytes) : Nat := pair.1.length + pair.2.length + 4

/-- `append`. -/
def append (headLimit : Nat) : List (Bytes × Bytes) × Nat → Bytes × Bytes →
    Except FailureCode (List (Bytes × Bytes) × Nat) :=
  Budget.push .responseTooLarge pairBytes headLimit

/-- The fields that the first loop takes: all but `Set-Cookie`, which the host lists
separately. -/
def plainFields (response : FetchResponse) : List (Bytes × Bytes) :=
  response.fields.filter (Text.lowercase ·.1 != setCookie)

/-- The pairs that the host gives for `Set-Cookie`. -/
def cookiePairs : CookieAccess → Except FailureCode (List (Bytes × Bytes))
  | .getSetCookie values => .ok (values.map (setCookie, ·))
  | .getAll values => .ok (values.map (setCookie, ·))
  | .unsupported present => if present then .error .transportFailure else .ok []

/-- The two header loops. -/
def collectHeaders (headLimit : Nat) (response : FetchResponse) :
    Except FailureCode (List (Bytes × Bytes)) := do
  let state ← (plainFields response).foldlM (append headLimit) ([], 0)
  let cookies ← cookiePairs response.cookies
  let (headers, _) ← cookies.foldlM (append headLimit) state
  return headers

/-- One round of the reader loop. -/
def readChunk (bodyLimit : Nat) : List Bytes × Nat → Bytes →
    Except FailureCode (List Bytes × Nat) :=
  Budget.push .responseTooLarge List.length bodyLimit

/-- The reader loop and the concatenation after it. -/
def readBody (bodyLimit : Nat) (body : Option (List Bytes)) : Except FailureCode Bytes := do
  let (chunks, _) ← (body.getD []).foldlM (readChunk bodyLimit) ([], 0)
  return chunks.flatten

/-- Whether the advertised length rules the body out. The bound is below `2^53`,
so comparing the rounded `Number(length)` with it is comparing the length. -/
def advertisesTooMuch (bodyLimit : Nat) (response : FetchResponse) : Bool :=
  response.body.isSome &&
    ((response.get (ascii "content-length")).bind Text.decimal).any (bodyLimit < ·)

/-- What the bridge does with a response. -/
def collectResponse (limits : HttpEventLimits) (response : FetchResponse) :
    Except FailureCode FetchedResponse :=
  if response.redirected then .error .transportFailure
  else do
    let headers ← collectHeaders limits.maxResponseHeadBytes response
    if advertisesTooMuch limits.maxResponseBodyBytes response then .error .responseTooLarge
    else
      let body ← readBody limits.maxResponseBodyBytes response.body
      return ⟨response.status, headers, body⟩

/-- `Number.isSafeInteger(v) && v > 0`. -/
def isPositiveSafe (value : Nat) : Bool := decide (0 < value ∧ value < 2 ^ 53)

/-- `eventHttpFetch`; `none` is a rejected `fetch`. -/
def eventHttpFetch (fetch : FetchRequest → Option FetchResponse) (request : FetchRequest) :
    Except FailureCode FetchedResponse :=
  if !(isPositiveSafe request.limits.maxResponseBodyBytes &&
      isPositiveSafe request.limits.maxResponseHeadBytes &&
      isPositiveSafe request.limits.requestTimeoutMillis) then
    .error .transportFailure
  else match fetch request with
    | none => .error .transportFailure
    | some response => collectResponse request.limits response

end EventFetch

/-! ### The Rust adapter -/

namespace WorkersFetch

/-- `Uri::to_string`. -/
def uriText (uri : Uri) : Bytes :=
  uri.scheme.elim [] (· ++ ascii "://") ++ uri.authority.getD [] ++ Uri.render uri.path uri.query

/-- One request header as the bridge takes it. -/
def encodeHeader (field : HeaderName × HeaderValue) : Except HttpEventError (Bytes × Bytes) :=
  match field.2.toStr with
  | none => .error .transportFailure
  | some value => .ok (field.1.text, value)

/-- `encode_request`; the limits must be `u32`. -/
def encodeRequest (input : HttpEventRequest) : Except HttpEventError FetchRequest := do
  let headers ← input.request.headers.toList.mapM encodeHeader
  if 2 ^ 32 ≤ input.limits.maxResponseBodyBytes ∨ 2 ^ 32 ≤ input.limits.maxResponseHeadBytes ∨
      2 ^ 32 ≤ input.limits.requestTimeoutMillis then
    .error .transportFailure
  else
    return ⟨uriText input.request.uri, input.request.method.token, headers, input.request.body,
      input.limits⟩

theorem limits_of_encodeRequest {input : HttpEventRequest} {encoded : FetchRequest}
    (written : encodeRequest input = .ok encoded) : encoded.limits = input.limits := by
  obtain ⟨headers, -, made⟩ := Result.bind_eq_ok.mp written
  split at made
  · cases made
  · cases made
    rfl

/-- `JsValue::as_string` on a byte string: the UTF-8 text of its code units. -/
def asString (text : Bytes) : Bytes :=
  text.flatMap fun unit =>
    if unit < 128 then [unit] else [(192 : UInt8) ||| unit >>> 6, (128 : UInt8) ||| unit &&& 63]

/-- One round of the header loop of `decode_response`. -/
def decodeHeader (headLimit : Nat) (state : HeaderMap × Nat) (pair : Bytes × Bytes) :
    Except HttpEventError (HeaderMap × Nat) :=
  let name := asString pair.1
  let value := asString pair.2
  let add := saturatingAdd Target.workers.usizeBits
  let headBytes := add (add (add state.2 name.length) value.length) 4
  if headLimit < headBytes then .error .responseTooLarge
  else match HeaderName.fromBytes name with
    | none => .error .transportFailure
    | some name =>
        match HeaderValue.fromBytes value with
        | none => .error .transportFailure
        | some value => .ok (state.1.append name value, headBytes)

/-- `response_status`, and the status that `Response::builder` stores. -/
def responseStatus (status : Nat) : Except HttpEventError StatusCode :=
  if valid : 100 ≤ status ∧ status ≤ 599 then .ok ⟨status, valid.1, by omega⟩
  else .error .transportFailure

/-- `decode_response`, on values of the type that the bridge resolves to. -/
def decodeResponse (value : FetchedResponse) (bodyLimit headLimit : Nat) :
    Except HttpEventError (Response Bytes) := do
  let status ← responseStatus value.status
  if bodyLimit < value.body.length then .error .responseTooLarge
  else if headLimit / 4 < value.headers.length then .error .responseTooLarge
  else
    let (headers, _) ← value.headers.foldlM (decodeHeader headLimit) (∅, 0)
    return ⟨status, headers, value.body⟩

/-- How the adapter reads the code of a rejection. -/
def rejection : FailureCode → HttpEventError
  | .timeout => .timeout
  | .responseTooLarge => .responseTooLarge
  | .transportFailure => .transportFailure

/-- `HttpEventTransport::send` for the bridge. -/
def send (fetch : FetchRequest → Option FetchResponse) (input : HttpEventRequest) :
    Except HttpEventError (Response Bytes) := do
  let encoded ← encodeRequest input
  let value ← (EventFetch.eventHttpFetch fetch encoded).mapError rejection
  decodeResponse value input.limits.maxResponseBodyBytes input.limits.maxResponseHeadBytes

end WorkersFetch

/-! ### The event provider -/

namespace EventProvider

def userAgent : HeaderName := ⟨ascii "user-agent", by decide, by decide, by decide, by decide⟩

/-- The length that a response declares, as `execute` reads it. -/
def declaredLength (headers : HeaderMap) : Option Nat :=
  ((headers.get? .contentLength).bind HeaderValue.toStr).bind
    (Text.parseUsize Target.workers.usizeBits)

/-- The end of `EventProvider::execute`: what is done with a transport's response. -/
def acceptResponse (config : HttpEgressConfig) (isHead : Bool) (response : Response Bytes) :
    Except SendError SendResponse :=
  if decide (config.maxResponseBodyBytes < response.body.length) ||
      (!isHead && !(response.status == .noContent || response.status == .notModified) &&
        (declaredLength response.headers).any (config.maxResponseBodyBytes < ·)) then
    .error .responseTooLarge
  else do
    let headers ← responseHeaders .workers response.headers config.maxResponseHeadBytes
    return ⟨response.body, headers, response.status.code⟩

/-- What `execute` hands to the transport. `agent` is the package's own user agent,
which a caller may override. -/
def eventRequest (agent : HeaderValue) (config : HttpEgressConfig) (prepared : PreparedRequest)
    (uri : Uri) : HttpEventRequest where
  request :=
    { method := prepared.method
      uri
      version := .http11
      headers := if prepared.headers.contains userAgent then prepared.headers
        else prepared.headers.insert userAgent agent
      body := prepared.body }
  limits := config.eventLimits

/-- `EventProvider::execute`. -/
def execute (transport : HttpEventRequest → Except HttpEventError (Response Bytes))
    (parser : UrlParser) (uris : UriParser) (agent : HeaderValue) (config : HttpEgressConfig)
    (allowedOrigins : Finset Bytes) (request : SendRequest) : Except SendError SendResponse := do
  let prepared ← prepareRequest .workers parser config allowedOrigins request
  match uris.parse prepared.url.text with
  | none => .error .invalidRequest
  | some uri =>
      -- `entry` makes room for a user agent before it looks for one.
      if prepared.headers.HasRoom then
        let response ← (transport (eventRequest agent config prepared uri)).mapError
          HttpEventError.toSendError
        acceptResponse config (prepared.method == .head) response
      else .error .unwound

/-- What the Workers path makes of a response that Fetch delivers. -/
def readResponse (config : HttpEgressConfig) (isHead : Bool) (response : FetchResponse) :
    Except SendError SendResponse := do
  let value ← ((EventFetch.collectResponse config.eventLimits response).mapError
    WorkersFetch.rejection).mapError HttpEventError.toSendError
  let decoded ← (WorkersFetch.decodeResponse value config.maxResponseBodyBytes
    config.maxResponseHeadBytes).mapError HttpEventError.toSendError
  acceptResponse config isHead decoded

end EventProvider

/-! ### What the bridge returns -/

namespace EventFetch

/-- The bridge returns every field it is given, if they fit the head budget. -/
theorem collectHeaders_eq_ok {headLimit : Nat} {response : FetchResponse}
    {cookies headers : List (Bytes × Bytes)} (listed : cookiePairs response.cookies = .ok cookies) :
    collectHeaders headLimit response = .ok headers ↔
      Budget.total pairBytes (plainFields response ++ cookies) ≤ headLimit ∧
        headers = plainFields response ++ cookies := by
  rw [collectHeaders, Result.bind_eq_ok, Budget.total_append]
  constructor
  · rintro ⟨state, looped, continued⟩
    obtain ⟨paid, rfl⟩ := (Budget.foldlM_push_eq_ok (Nat.zero_le headLimit)).mp looped
    obtain ⟨pairs, given, continued⟩ := Result.bind_eq_ok.mp continued
    cases given.symm.trans listed
    obtain ⟨final, looped, returned⟩ := Result.bind_eq_ok.mp continued
    obtain ⟨enough, rfl⟩ := (Budget.foldlM_push_eq_ok paid).mp looped
    cases returned
    rw [Nat.zero_add] at enough
    exact ⟨enough, rfl⟩
  · rintro ⟨enough, rfl⟩
    have paid : 0 + Budget.total pairBytes (plainFields response) ≤ headLimit := by omega
    refine ⟨_, (Budget.foldlM_push_eq_ok (Nat.zero_le headLimit)).mpr ⟨paid, rfl⟩, ?_⟩
    refine Result.bind_eq_ok.mpr ⟨cookies, listed, ?_⟩
    refine Result.bind_eq_ok.mpr
      ⟨_, (Budget.foldlM_push_eq_ok paid).mpr ⟨by simp only; omega, rfl⟩, rfl⟩

/-- The bridge returns the whole body, if it is within the limit. -/
theorem readBody_eq_ok {bodyLimit : Nat} {body : Option (List Bytes)} {result : Bytes} :
    readBody bodyLimit body = .ok result ↔
      (body.getD []).flatten.length ≤ bodyLimit ∧ result = (body.getD []).flatten := by
  rw [readBody, Result.bind_eq_ok, List.length_flatten]
  constructor
  · rintro ⟨state, looped, returned⟩
    obtain ⟨paid, rfl⟩ := (Budget.foldlM_push_eq_ok (Nat.zero_le bodyLimit)).mp looped
    cases returned
    rw [Nat.zero_add] at paid
    exact ⟨paid, rfl⟩
  · rintro ⟨paid, rfl⟩
    refine ⟨_, (Budget.foldlM_push_eq_ok (Nat.zero_le bodyLimit)).mpr ⟨?_, rfl⟩, rfl⟩
    rw [Nat.zero_add]
    exact paid

end EventFetch

/-! ### What the adapter decodes -/

namespace WorkersFetch

/-- A field as JavaScript holds it. -/
def fieldText (field : HeaderName × HeaderValue) : Bytes × Bytes := (field.1.text, field.2.bytes)

/-- A map with one more field. -/
def addField (headers : HeaderMap) (field : HeaderName × HeaderValue) : HeaderMap :=
  headers.append field.1 field.2

theorem asString_eq {text : Bytes} (small : ∀ unit ∈ text, unit < 128) : asString text = text := by
  induction text with
  | nil => rfl
  | cons unit rest ih =>
      rw [asString, List.flatMap_cons, if_pos (small unit List.mem_cons_self)]
      exact congrArg (unit :: ·) (ih fun other member => small other (List.mem_cons_of_mem _ member))

theorem asString_name (name : HeaderName) : asString name.text = name.text := by
  apply asString_eq
  intro unit member
  have token := List.all_eq_true.mp name.token unit member
  exact Text.forall_byte (P := fun b => isTokenByte b = true → b < 128) (by decide +kernel) unit token

theorem asString_value {value : HeaderValue} (visible : value.toStr.isSome = true) :
    asString value.bytes = value.bytes := by
  obtain ⟨text, read⟩ := Option.isSome_iff_exists.mp visible
  obtain ⟨rfl, visible⟩ := HeaderValue.toStr_eq_some_iff.mp read
  apply asString_eq
  intro unit member
  have visible := List.all_eq_true.mp visible unit member
  exact Text.forall_byte (P := fun b => isVisibleAscii b = true → b < 128) (by decide +kernel) unit
    visible

private theorem decodeHeader_eq_ok {headLimit : Nat}
    (fits : headLimit + 1 < 2 ^ Target.workers.usizeBits) {field : HeaderName × HeaderValue}
    (visible : field.2.toStr.isSome = true) (state next : HeaderMap × Nat) :
    decodeHeader headLimit state (fieldText field) = .ok next ↔
      True ∧ state.2 + fieldBytes field ≤ headLimit ∧
        next = (addField state.1 field, state.2 + fieldBytes field) := by
  have parsed : HeaderValue.fromBytes field.2.bytes = some field.2 := dif_pos field.2.valid
  simp only [decodeHeader, fieldText, asString_name, asString_value visible, true_and,
    HeaderName.fromBytes_text, parsed]
  by_cases paid : state.2 + fieldBytes field ≤ headLimit
  · have exact : saturatingAdd Target.workers.usizeBits (saturatingAdd Target.workers.usizeBits
        (saturatingAdd Target.workers.usizeBits state.2 field.1.text.length)
        field.2.bytes.length) 4 = state.2 + fieldBytes field := by
      rw [fieldBytes] at paid ⊢
      simp only [saturatingAdd]
      omega
    rw [exact, if_neg (Nat.not_lt.mpr paid), Except.ok.injEq]
    simp only [paid, true_and]
    exact eq_comm
  · rw [if_pos]
    · simp [paid]
    · rw [fieldBytes] at paid
      simp only [saturatingAdd]
      omega

/-- Fields of visible text decode to a map that lists them, if they fit the head
budget. The check on their number never fails alone: a field costs four bytes or more. -/
theorem decodeResponse_eq_ok {value : FetchedResponse} {bodyLimit headLimit : Nat}
    {listed : List (HeaderName × HeaderValue)} {response : Response Bytes}
    (fits : headLimit + 1 < 2 ^ Target.workers.usizeBits)
    (fields : value.headers = listed.map fieldText)
    (visible : ∀ field ∈ listed, field.2.toStr.isSome = true) {status : StatusCode}
    (answered : responseStatus value.status = .ok status) :
    decodeResponse value bodyLimit headLimit = .ok response ↔
      value.body.length ≤ bodyLimit ∧ Budget.total fieldBytes listed ≤ headLimit ∧
        response = ⟨status, listed.foldl addField ∅, value.body⟩ := by
  have loop : ∀ final, listed.foldlM (fun state field => decodeHeader headLimit state
        (fieldText field)) (∅, 0) = .ok final ↔ _ := fun final => Budget.foldlM_eq_ok
    (fun field member state next _ => decodeHeader_eq_ok fits (visible field member) state next)
    (Nat.zero_le headLimit)
  simp only [implies_true, true_and, Nat.zero_add] at loop
  have started : decodeResponse value bodyLimit headLimit =
      if bodyLimit < value.body.length then .error .responseTooLarge
      else if headLimit / 4 < value.headers.length then .error .responseTooLarge
      else do
        let (headers, _) ← value.headers.foldlM (decodeHeader headLimit) (∅, 0)
        return ⟨status, headers, value.body⟩ := by
    rw [decodeResponse, answered]
    rfl
  rw [started, fields, List.length_map, List.foldlM_map]
  constructor
  · intro decoded
    split at decoded
    · cases decoded
    · next bounded =>
      split at decoded
      · cases decoded
      · obtain ⟨final, looped, returned⟩ := Result.bind_eq_ok.mp decoded
        obtain ⟨paid, rfl⟩ := (loop final).mp looped
        cases returned
        exact ⟨Nat.le_of_not_lt bounded, paid, rfl⟩
  · rintro ⟨bounded, paid, rfl⟩
    have few : 4 * listed.length ≤ Budget.total fieldBytes listed :=
      Budget.mul_length_le_total fun field _ => Nat.le_add_left 4 _
    rw [if_neg (Nat.not_lt.mpr bounded), if_neg (by omega)]
    exact Result.bind_eq_ok.mpr ⟨_, (loop _).mpr ⟨paid, rfl⟩, rfl⟩

end WorkersFetch

/-! ### From a request to its response -/

namespace EventProvider

open EventFetch

/-- Once a request is prepared and encoded, the provider reads the response that
Fetch delivers. -/
theorem execute_eq_readResponse {fetch : FetchRequest → Option FetchResponse}
    {parser : UrlParser} {uris : UriParser} {agent : HeaderValue} {config : HttpEgressConfig}
    {allowedOrigins : Finset Bytes} {request : SendRequest} {prepared : PreparedRequest} {uri : Uri}
    {encoded : FetchRequest} {response : FetchResponse} (limits : config.limitsValid)
    (accepted : prepareRequest .workers parser config allowedOrigins request = .ok prepared)
    (addressed : uris.parse prepared.url.text = some uri) (room : prepared.headers.HasRoom)
    (written : WorkersFetch.encodeRequest (eventRequest agent config prepared uri) = .ok encoded)
    (answered : fetch encoded = some response) :
    execute (WorkersFetch.send fetch) parser uris agent config allowedOrigins request =
      readResponse config (prepared.method == .head) response := by
  have carried : encoded.limits = config.eventLimits := WorkersFetch.limits_of_encodeRequest written
  have positive : isPositiveSafe config.maxResponseBodyBytes = true ∧
      isPositiveSafe config.maxResponseHeadBytes = true ∧
      isPositiveSafe config.requestTimeoutMillis = true := by
    obtain ⟨-, ⟨bodyPos, bodyMax⟩, -, ⟨headPos, headMax⟩, -, -, ⟨timePos, timeMax⟩, -⟩ := limits
    rw [maxTransferBytes] at bodyMax
    rw [maxHeadBytes] at headMax
    rw [maxTimeoutMillis] at timeMax
    simp only [isPositiveSafe, decide_eq_true_eq]
    omega
  have fetched : eventHttpFetch fetch encoded = collectResponse config.eventLimits response := by
    rw [eventHttpFetch, answered, carried]
    simp [HttpEgressConfig.eventLimits, positive]
  have sent : WorkersFetch.send fetch (eventRequest agent config prepared uri) =
      (collectResponse config.eventLimits response).mapError WorkersFetch.rejection >>= fun value =>
        WorkersFetch.decodeResponse value config.maxResponseBodyBytes
          config.maxResponseHeadBytes := by
    rw [WorkersFetch.send, written, ← fetched]
    rfl
  have started : execute (WorkersFetch.send fetch) parser uris agent config allowedOrigins request =
      (WorkersFetch.send fetch (eventRequest agent config prepared uri)).mapError
        HttpEventError.toSendError >>= acceptResponse config (prepared.method == .head) := by
    rw [execute, accepted]
    simp only [bind, Except.bind, addressed, if_pos room]
  rw [started, sent, readResponse]
  cases collectResponse config.eventLimits response with
  | error code => rfl
  | ok value => rfl

end EventProvider

end Egress
