import LensoWeb.Foundation.Result
import LensoWeb.Ingress.Request

/-!
# The middleware envelope

What an accepted client request looks like on its way into middleware and out of
it again: which requests can be rebuilt for middleware, and which header names
never reach an Endpoint, whatever middleware put into the request.
-/

namespace Ingress

open Foundation Http

/-! ### Inversion -/

theorem inboundHeaders_eq_ok {visible : HeaderMap} {csrf : Option HeaderName}
    {headers : List InboundHeader} (accepted : inboundHeaders visible csrf = .ok headers) :
    ∃ owned, connectionOwnedHeaders visible = .ok owned ∧
      ∀ header ∈ headers, ∃ (name : HeaderName) (value : HeaderValue), header.name = name.text ∧
        passesFilter csrf owned name = true ∧ value.toStr = some header.value := by
  obtain ⟨owned, nominated, collected⟩ := Result.bind_eq_ok.mp accepted
  refine ⟨owned, nominated, fun header member => ?_⟩
  obtain ⟨field, inside, round⟩ := Result.exists_of_mem_mapM collected member
  have passed := (List.mem_filter.mp inside).2
  unfold inboundHeader at round
  split at round
  · next text visible =>
    cases round
    exact ⟨field.1, field.2, rfl, passed, visible⟩
  · cases round

/-- What an accepted client request consists of. -/
theorem inboundRequest_eq_ok {method : Method} {uri : Uri} {headers : HeaderMap} {body : Bytes}
    {policy : Option SessionCookiePolicy} {inbound : InboundRequest}
    (accepted : inboundRequest method uri headers body policy = .ok inbound) :
    requestId headers = .ok inbound.requestId ∧
      selectCredential method headers policy = .ok inbound.credential ∧
      inbound.csrfHeaderName = policy.map (·.csrfHeaderName) ∧
      inboundHeaders headers (policy.map (·.csrfHeaderName)) = .ok inbound.headers ∧
      inbound.path = uri.path ∧ inbound.query = uri.query ∧ inbound.body = body ∧
      inbound.method = normalizedMethod method := by
  obtain ⟨identifier, identified, rest⟩ := Result.bind_eq_ok.mp accepted
  obtain ⟨credential, selected, rest⟩ := Result.bind_eq_ok.mp rest
  obtain ⟨fields, filtered, built⟩ := Result.bind_eq_ok.mp rest
  cases built
  exact ⟨identified, Result.mapError_eq_ok.mp selected, rfl, filtered, rfl, rfl, rfl, rfl⟩

/-- The control record of an accepted client request. -/
def InboundRequest.control (inbound : InboundRequest) : InboundRequestControl :=
  ⟨inbound.credential, inbound.csrfHeaderName, inbound.requestId⟩

theorem control_of_middlewareRequest {parser : UriParser} {inbound : InboundRequest}
    {version : Version} {visible : WebIngressRequest} {control : InboundRequestControl}
    (rebuilt : middlewareRequest parser inbound version = some (visible, control)) :
    control = inbound.control := by
  obtain ⟨uri, -, rest⟩ := Option.bind_eq_some_iff.mp rebuilt
  obtain ⟨headers, -, rest⟩ := Option.bind_eq_some_iff.mp rest
  obtain ⟨identifier, -, built⟩ := Option.bind_eq_some_iff.mp rest
  cases built
  rfl

/-- What a request restored after middleware consists of. -/
theorem restoreInboundRequest_eq_ok {request : WebIngressRequest} {control : InboundRequestControl}
    {inbound : InboundRequest} (restored : restoreInboundRequest request control = .ok inbound) :
    inboundHeaders request.headers control.csrfHeaderName = .ok inbound.headers ∧
      inbound.credential = control.credential ∧ inbound.requestId = control.requestId := by
  obtain ⟨fields, filtered, built⟩ := Result.bind_eq_ok.mp restored
  cases built
  exact ⟨filtered, rfl, rfl⟩

/-! ### Rebuilding a request for middleware -/

theorem fromBytes_of_requestId {headers : HeaderMap} {identifier : Bytes}
    (identified : requestId headers = .ok identifier) :
    ∃ value, HeaderValue.fromBytes identifier = some value := by
  unfold requestId at identified
  split at identified
  · cases identified
  · next text found =>
    split at identified
    · cases identified
    · cases identified
      obtain ⟨value, -, visible⟩ := Option.bind_eq_some_iff.mp found
      exact ⟨value, HeaderValue.fromBytes_of_toStr visible⟩

/-- The header loop of `middleware_request` never unwinds on accepted headers. -/
theorem appendHeader_loop_isSome {visible : HeaderMap} {csrf : Option HeaderName}
    {headers : List InboundHeader} (accepted : inboundHeaders visible csrf = .ok headers) :
    (headers.foldlM appendHeader ∅).isSome = true := by
  obtain ⟨owned, -, fields⟩ := inboundHeaders_eq_ok accepted
  refine Result.foldlM_isSome (fun map header member => ?_) ∅
  obtain ⟨name, value, named, -, visible⟩ := fields header member
  rw [appendHeader, named, HeaderName.fromBytes_text, HeaderValue.fromBytes_of_toStr visible]
  rfl

/-- The rebuilt target parses exactly when the client's path is not empty. -/
theorem parse_render_isSome_iff (parser : UriParser) {uri : Uri} (produced : parser.Produces uri) :
    (parser.parse (Uri.render uri.path uri.query)).isSome = true ↔ uri.path ≠ [] := by
  constructor
  · intro parsed empty
    obtain ⟨authority, rfl⟩ := Uri.path_eq_nil_iff.mp empty
    rw [show Uri.render (Uri.authorityForm authority).path (Uri.authorityForm authority).query = []
      from rfl, parser.parse_nil] at parsed
    cases parsed
  · intro nonempty
    obtain ⟨again, parsed, -, -⟩ := parser.parse_render uri produced nonempty
    rw [parsed]
    rfl

/-- `middleware_request` completes on an accepted client request exactly when the
request target has a path. Behind an authority-form target the rebuilt text is
empty, and the `expect` on the builder unwinds. -/
theorem middlewareRequest_completes_iff (parser : UriParser) (method : Method) (uri : Uri)
    (version : Version) (headers : HeaderMap) (body : Bytes)
    (policy : Option SessionCookiePolicy) (inbound : InboundRequest)
    (produced : parser.Produces uri)
    (accepted : inboundRequest method uri headers body policy = .ok inbound) :
    (middlewareRequest parser inbound version).isSome = true ↔ uri.path ≠ [] := by
  obtain ⟨identified, -, -, filtered, path, query, -, -⟩ := inboundRequest_eq_ok accepted
  obtain ⟨value, encoded⟩ := fromBytes_of_requestId identified
  obtain ⟨map, looped⟩ := Option.isSome_iff_exists.mp (appendHeader_loop_isSome filtered)
  rw [← parse_render_isSome_iff parser produced, middlewareRequest, path, query]
  cases parser.parse (Uri.render uri.path uri.query) with
  | none => exact Iff.rfl
  | some again =>
      simp only [looped, encoded, Option.bind_eq_bind, Option.bind_some, Option.isSome_some]

theorem middlewareRequest_completes_root :
    inboundRequest .get (.originForm rootPath none) bareHeaders [] none =
        .ok (bareInbound (ascii "/")) ∧
      (middlewareRequest .pathOnly (bareInbound (ascii "/")) .http11).isSome = true := by
  have accepted : inboundRequest .get (.originForm rootPath none) bareHeaders [] none =
      .ok (bareInbound (ascii "/")) := by decide +kernel
  exact ⟨accepted, (middlewareRequest_completes_iff .pathOnly .get (.originForm rootPath none)
    .http11 bareHeaders [] none _ ⟨_, UriParser.parseTarget_render rootPath none⟩ accepted).mpr
      rootPath.text_ne_nil⟩

/-- The target of `GET foo` is a host name. -/
def hostTargets : UriParser :=
  .withTarget (ascii "foo") (.authorityForm (ascii "foo")) (List.cons_ne_nil _ _) rfl

/-- `GET foo` is accepted and passes the checks before the envelope, and then the
`expect` on the rebuilt target unwinds. -/
theorem authority_target_unwinds :
    hostTargets.parse (ascii "foo") = some (.authorityForm (ascii "foo")) ∧
      hostTargets.Produces (.authorityForm (ascii "foo")) ∧ Method.get ≠ .connect ∧
      bareHeaders.contains .upgrade = false ∧
      inboundRequest .get (.authorityForm (ascii "foo")) bareHeaders [] none =
        .ok (bareInbound []) ∧
      middlewareRequest hostTargets (bareInbound []) .http11 = none := by
  refine ⟨rfl, .inl rfl, by decide, by decide, by decide +kernel, ?_⟩
  rfl

/-! ### Names that never reach an Endpoint -/

/-- The names that Ingress withholds from every Endpoint. -/
def withheldNames : List Bytes :=
  [ascii "authorization", ascii "cookie", ascii "host", ascii "content-length",
    ascii "x-request-id", ascii "connection", ascii "te", ascii "trailer",
    ascii "transfer-encoding", ascii "upgrade", ascii "keep-alive", ascii "proxy-connection"]

/-- A name that an Endpoint may see, whatever its letter case: not withheld, not
the CSRF header, and not named by a `Connection` token of the visible request. -/
structure Isolated (csrf : Option HeaderName) (visible : HeaderMap) (name : Bytes) : Prop where
  notWithheld : ∀ withheld ∈ withheldNames, Text.eqIgnoreCase name withheld = false
  notCsrf : ∀ header, csrf = some header → Text.eqIgnoreCase name header.text = false
  notNominated : ∀ value ∈ visible.getAll .connection, ∀ token ∈ nominatedNames value.bytes,
    Text.eqIgnoreCase name token = false

/-- A nominated token is a hop-by-hop name or has been recorded. -/
def Nominated (token : Bytes) (owned : List HeaderName) : Prop :=
  isStaticHopByHopName token = true ∨ ∃ header ∈ owned, header.text = Text.lowercase token

theorem nominated_of_nominate {owned next : List HeaderName} {token : Bytes}
    (round : nominate owned token = .ok next) : Nominated token next := by
  unfold nominate at round
  split at round
  · next hop => exact .inl hop
  · split at round
    · cases round
    · next header parsed =>
      cases round
      exact .inr ⟨header, by simp, HeaderName.text_of_fromBytes parsed⟩

theorem Nominated.nominate {owned next : List HeaderName} {token other : Bytes}
    (recorded : Nominated other owned) (round : Ingress.nominate owned token = .ok next) :
    Nominated other next := by
  unfold Ingress.nominate at round
  split at round
  · cases round
    exact recorded
  · split at round
    · cases round
    · cases round
      obtain hop | ⟨header, member, same⟩ := recorded
      · exact .inl hop
      · exact .inr ⟨header, List.mem_append_left _ member, same⟩

/-- Every token of one `Connection` field has been recorded. -/
def RecordedField (value : HeaderValue) (owned : List HeaderName) : Prop :=
  ∀ token ∈ nominatedNames value.bytes, Nominated token owned

/-- One `Connection` field records all its tokens and keeps the earlier ones. -/
theorem nominateField_records {owned next : List HeaderName} {value : HeaderValue}
    (round : nominateField owned value = .ok next) :
    RecordedField value next ∧
      ∀ other, Nominated other owned → Nominated other next := by
  unfold nominateField at round
  split at round
  · cases round
  · next text visible =>
    obtain ⟨rfl, -⟩ := HeaderValue.toStr_eq_some_iff.mp visible
    have made : ∀ owned token next, nominate owned token = .ok next → Nominated token next :=
      fun _ _ _ => nominated_of_nominate
    have kept : ∀ owned token next other, nominate owned token = .ok next →
        Nominated other owned → Nominated other next :=
      fun _ _ _ _ round recorded => recorded.nominate round
    exact Result.foldlM_marks made kept round

theorem connectionOwnedHeaders_records {visible : HeaderMap} {owned : List HeaderName}
    (collected : connectionOwnedHeaders visible = .ok owned) :
    ∀ value ∈ visible.getAll .connection, RecordedField value owned := by
  have made : ∀ owned value next, nominateField owned value = .ok next →
      RecordedField value next :=
    fun _ _ _ round => (nominateField_records round).1
  have kept : ∀ owned value next other, nominateField owned value = .ok next →
      RecordedField other owned → RecordedField other next :=
    fun _ _ _ _ round recorded token member =>
      (nominateField_records round).2 token (recorded token member)
  exact (Result.foldlM_marks made kept collected).1

theorem isFilteredRequestHeader_iff {name : HeaderName} :
    isFilteredRequestHeader name = true ↔ name.text ∈ withheldNames := by
  simp only [isFilteredRequestHeader, isStaticHopByHopHeader, withheldNames, Bool.or_eq_true,
    beq_iff_eq, HeaderName.eq_iff_text, List.mem_cons, List.not_mem_nil, or_false,
    HeaderName.authorization, HeaderName.cookie, HeaderName.connection, HeaderName.te,
    HeaderName.trailer, HeaderName.transferEncoding, HeaderName.upgrade,
    HeaderName.contentLength, HeaderName.host, requestIdHeader]
  grind

theorem lowercase_mem_withheldNames {token : Bytes} (hop : isStaticHopByHopName token = true) :
    Text.lowercase token ∈ withheldNames := by
  simp only [isStaticHopByHopName, Bool.or_eq_true, Text.eqIgnoreCase_iff] at hop
  obtain (((((same | same) | same) | same) | same) | same) | same := hop <;>
    · rw [same]
      decide

/-- What survives the filter may be shown to an Endpoint. -/
theorem isolated_of_inboundHeaders {visible : HeaderMap} {csrf : Option HeaderName}
    {headers : List InboundHeader} (accepted : inboundHeaders visible csrf = .ok headers) :
    ∀ header ∈ headers, Isolated csrf visible header.name := by
  obtain ⟨owned, nominated, fields⟩ := inboundHeaders_eq_ok accepted
  have recorded := connectionOwnedHeaders_records nominated
  intro header member
  obtain ⟨name, value, named, passed, -⟩ := fields header member
  simp only [passesFilter, Bool.and_eq_true, Bool.not_eq_true', beq_eq_false_iff_ne,
    List.contains_eq_mem, decide_eq_false_iff_not] at passed
  obtain ⟨⟨unfiltered, notCsrf⟩, notOwned⟩ := passed
  have notWithheld : name.text ∉ withheldNames := by
    rw [← isFilteredRequestHeader_iff, unfiltered]
    exact Bool.false_ne_true
  rw [named]
  refine ⟨fun withheld listed => ?_, fun header configured => ?_, fun value stored token listed => ?_⟩
  · refine Bool.eq_false_iff.mpr fun same => notWithheld ?_
    have lower : ∀ text ∈ withheldNames, Text.lowercase text = text := by decide
    rw [Text.eqIgnoreCase_iff, name.lower, lower withheld listed] at same
    rwa [same]
  · refine Bool.eq_false_iff.mpr fun same => notCsrf ?_
    rw [Text.eqIgnoreCase_iff, name.lower, header.lower] at same
    rw [configured, HeaderName.ext_text same]
  · refine Bool.eq_false_iff.mpr fun same => ?_
    rw [Text.eqIgnoreCase_iff, name.lower] at same
    obtain hop | ⟨header, inside, text⟩ := recorded value stored token listed
    · exact notWithheld (same ▸ lowercase_mem_withheldNames hop)
    · exact notOwned (HeaderName.ext_text (text.trans same.symm) ▸ inside)

end Ingress
