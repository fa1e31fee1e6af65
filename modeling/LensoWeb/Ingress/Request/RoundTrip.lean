import LensoWeb.Ingress.Request.Envelope

/-!
# The envelope round trip

A request that middleware leaves alone comes out of the envelope as it went in. The
fields that survive the first filter contain no `Connection` field, so the second
filter has no nominations to follow and lets all of them pass again.
-/

namespace Ingress

open Foundation Http

/-! ### The rebuilt fields -/

/-- The fields of an accepted request, before they are turned into text. -/
def survivors (headers : HeaderMap) (csrf : Option HeaderName) (owned : List HeaderName) :
    HeaderMap := headers.filterKeys (passesFilter csrf owned)

theorem inboundHeaders_ok_iff {headers : HeaderMap} {csrf : Option HeaderName}
    {fields : List InboundHeader} : inboundHeaders headers csrf = .ok fields ↔
      ∃ owned, connectionOwnedHeaders headers = .ok owned ∧
        (survivors headers csrf owned).toList.mapM inboundHeader = .ok fields := by
  rw [inboundHeaders, Result.bind_eq_ok]
  simp only [survivors, MultiMap.toList_filterKeys]

/-- Appending a field as text appends the field. -/
theorem appendHeader_of_inboundHeader {field : HeaderName × HeaderValue} {header : InboundHeader}
    (texted : inboundHeader field = .ok header) (headers : HeaderMap) :
    appendHeader headers header = some (headers.append field.1 field.2) := by
  rw [inboundHeader] at texted
  split at texted
  · next value visible =>
    cases texted
    rw [appendHeader, HeaderName.fromBytes_text, HeaderValue.fromBytes_of_toStr visible]
    rfl
  · cases texted

theorem foldlM_appendHeader {pairs : List (HeaderName × HeaderValue)}
    {fields : List InboundHeader} (texted : pairs.mapM inboundHeader = .ok fields)
    (headers : HeaderMap) : fields.foldlM appendHeader headers =
      some (pairs.foldl (fun map pair => map.append pair.1 pair.2) headers) := by
  induction pairs generalizing fields headers with
  | nil =>
      cases texted
      rfl
  | cons pair rest ih =>
      rw [List.mapM_cons] at texted
      obtain ⟨header, first, texted⟩ := Result.bind_eq_ok.mp texted
      obtain ⟨others, later, built⟩ := Result.bind_eq_ok.mp texted
      cases built
      rw [List.foldlM_cons, appendHeader_of_inboundHeader first]
      exact ih later _

/-- The header loop of `middleware_request` gives back the surviving fields. -/
theorem foldlM_appendHeader_survivors {headers : HeaderMap} {fields : List InboundHeader}
    (texted : headers.toList.mapM inboundHeader = .ok fields) :
    fields.foldlM appendHeader ∅ = some headers := by
  rw [foldlM_appendHeader texted, MultiMap.foldl_append_toList]

/-! ### The second filter -/

section Survivors

variable {headers : HeaderMap} {csrf : Option HeaderName} {owned : List HeaderName}

theorem passesFilter_of_mem {name : HeaderName} (member : name ∈ (survivors headers csrf owned).keys) :
    passesFilter csrf owned name = true := by
  obtain ⟨entry, inside, rfl⟩ := List.mem_map.mp member
  exact (List.mem_filter.mp inside).2

theorem passesFilter_eq_false {name : HeaderName} (filtered : isFilteredRequestHeader name = true) :
    passesFilter csrf owned name = false := by
  rw [passesFilter, filtered, Bool.not_true, Bool.false_and, Bool.false_and]

theorem notMem_survivors {name : HeaderName} (filtered : isFilteredRequestHeader name = true) :
    name ∉ (survivors headers csrf owned).keys := by
  intro member
  have passed := passesFilter_of_mem member
  rw [passesFilter_eq_false filtered] at passed
  cases passed

/-- Without nominations, fewer names are filtered. -/
theorem passesFilter_nil {name : HeaderName} (passed : passesFilter csrf owned name = true) :
    passesFilter csrf [] name = true := by
  rw [passesFilter, Bool.and_eq_true] at passed ⊢
  exact ⟨passed.1, by simp⟩

/-- What middleware is shown: the surviving fields and the request identifier. -/
def shown (headers : HeaderMap) (csrf : Option HeaderName) (owned : List HeaderName)
    (identifier : HeaderValue) : HeaderMap :=
  (survivors headers csrf owned).insert requestIdHeader identifier

variable {identifier : HeaderValue}

theorem connectionOwnedHeaders_shown :
    connectionOwnedHeaders (shown headers csrf owned identifier) = .ok [] := by
  have apart : HeaderName.connection ≠ requestIdHeader := by decide
  have filtered : isFilteredRequestHeader .connection = true := by decide
  have none : (shown headers csrf owned identifier).getAll .connection = [] := by
    refine List.eq_nil_iff_forall_not_mem.mpr fun value member => ?_
    have listed := MultiMap.mem_keys_of_mem_toList (MultiMap.mem_getAll_iff.mp member)
    obtain same | earlier := MultiMap.mem_keys_insert.mp listed
    · exact apart same
    · exact notMem_survivors filtered earlier
  rw [connectionOwnedHeaders, none]
  rfl

/-- The second filter takes out the identifier and nothing else. -/
theorem survivors_shown : (survivors (shown headers csrf owned identifier) csrf []).toList =
    (survivors headers csrf owned).toList := by
  have identified : isFilteredRequestHeader requestIdHeader = true := by decide
  have absent : requestIdHeader ∉ (survivors headers csrf owned).keys :=
    notMem_survivors identified
  rw [survivors, MultiMap.toList_filterKeys, shown, MultiMap.toList_insert_of_notMem absent,
    List.filter_append,
    List.filter_cons_of_neg (by simp [passesFilter_eq_false identified]), List.filter_nil,
    List.append_nil, List.filter_eq_self]
  intro pair member
  exact passesFilter_nil (passesFilter_of_mem (MultiMap.mem_keys_of_mem_toList member))

end Survivors

/-! ### The round trip -/

theorem uppercase_uppercase (text : Bytes) :
    Text.uppercase (Text.uppercase text) = Text.uppercase text := by
  simp only [Text.uppercase, List.map_map, List.map_inj_left, Function.comp_apply]
  exact fun byte _ => Text.forall_byte (P := fun b => Text.toUpper (Text.toUpper b) = Text.toUpper b)
    (by decide +kernel) byte

theorem normalizedMethod_normalizedMethod (method : Method) :
    normalizedMethod (normalizedMethod method) = normalizedMethod method :=
  Method.ext_token (uppercase_uppercase method.token)

/-- An accepted request with a path comes back unchanged if middleware changes nothing. -/
theorem restore_middlewareRequest (parser : UriParser) (method : Method) (uri : Uri)
    (version : Version) (headers : HeaderMap) (body : Bytes)
    (policy : Option SessionCookiePolicy) (inbound : InboundRequest)
    (produced : parser.Produces uri)
    (accepted : inboundRequest method uri headers body policy = .ok inbound)
    (nonempty : uri.path ≠ []) :
    ∃ visible control, middlewareRequest parser inbound version = some (visible, control) ∧
      restoreInboundRequest visible control = .ok inbound := by
  obtain ⟨identified, -, csrf, filtered, path, query, -, normalized⟩ := inboundRequest_eq_ok accepted
  rw [← csrf] at filtered
  obtain ⟨identifier, encoded⟩ := fromBytes_of_requestId identified
  obtain ⟨owned, -, texted⟩ := inboundHeaders_ok_iff.mp filtered
  obtain ⟨target, parsed, samePath, sameQuery⟩ := parser.parse_render uri produced nonempty
  have rebuilt : middlewareRequest parser inbound version = some (
      ⟨inbound.method, target, version, shown headers inbound.csrfHeaderName owned identifier,
        inbound.body⟩, inbound.control) := by
    rw [middlewareRequest, path, query, parsed, foldlM_appendHeader_survivors texted, encoded]
    rfl
  have restored : inboundHeaders (shown headers inbound.csrfHeaderName owned identifier)
      inbound.csrfHeaderName = .ok inbound.headers := by
    refine inboundHeaders_ok_iff.mpr ⟨[], connectionOwnedHeaders_shown, ?_⟩
    rw [survivors_shown, texted]
  have again := normalizedMethod_normalizedMethod method
  rw [← normalized] at again
  refine ⟨_, _, rebuilt, Result.bind_eq_ok.mpr ⟨inbound.headers, restored, ?_⟩⟩
  simp only [again, samePath.trans path.symm, sameQuery.trans query.symm]
  rfl

def acceptHeader : HeaderName := ⟨ascii "accept", by decide, by decide, by decide, by decide⟩
def hopHeader : HeaderName := ⟨ascii "x-hop", by decide, by decide, by decide, by decide⟩

/-- A request with a repeated field, a nominated field and an empty query. -/
def chattyHeaders : HeaderMap :=
  ((((bareHeaders.append .connection ⟨ascii "x-hop", by decide⟩).append acceptHeader
    ⟨ascii "text/html", by decide⟩).append hopHeader ⟨ascii "1", by decide⟩).append acceptHeader
    ⟨ascii "text/plain", by decide⟩)

/-- What the request is accepted as: the nominated field is gone. -/
def chattyInbound : InboundRequest :=
  { bareInbound (ascii "/") with
    headers := [⟨ascii "accept", ascii "text/html"⟩, ⟨ascii "accept", ascii "text/plain"⟩]
    query := some [] }

theorem restore_middlewareRequest_chatty :
    inboundRequest .get (.originForm rootPath (some ⟨[], by decide⟩)) chattyHeaders [] none =
        .ok chattyInbound ∧
      ∃ visible control, middlewareRequest .pathOnly chattyInbound .http2 =
        some (visible, control) ∧ restoreInboundRequest visible control = .ok chattyInbound := by
  have accepted : inboundRequest .get (.originForm rootPath (some ⟨[], by decide⟩)) chattyHeaders []
      none = .ok chattyInbound := by decide +kernel
  exact ⟨accepted, restore_middlewareRequest .pathOnly .get
    (.originForm rootPath (some ⟨[], by decide⟩)) .http2 chattyHeaders [] none _
    ⟨_, UriParser.parseTarget_render rootPath (some ⟨[], by decide⟩)⟩ accepted
    rootPath.text_ne_nil⟩

end Ingress
