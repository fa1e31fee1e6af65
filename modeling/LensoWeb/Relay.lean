import LensoWeb.Egress.Policy
import LensoWeb.Ingress.Request.Envelope

/-!
# Relaying headers

A header that belongs to the connection it arrived on must not be passed on. Ingress
filters what an Endpoint gets to see, Egress what an application gets back, and both
keep a list of names and read the `Connection` fields on their own. The lists differ:
Egress also drops the two headers of proxy authentication, Ingress `proxy-connection`.
-/

namespace Relay

open Foundation Http Ingress Egress

/-! ### The two filters -/

/-- The CSRF header of a configuration. -/
def csrfHeader (sessionCookie : Option SessionCookieConfig) : Option HeaderName :=
  (sessionCookie.bind SessionCookiePolicy.fromConfig).map SessionCookiePolicy.csrfHeaderName

/-- The headers that Ingress handles in its own right. -/
def ownedByIngress (csrf : Option HeaderName) : List HeaderName :=
  [.authorization, .cookie, .host, .contentLength, requestIdHeader] ++ csrf.toList

/-- The Ingress request filter takes a header out. -/
def RemovedByIngress (csrf : Option HeaderName) (headers : HeaderMap) (name : HeaderName) : Prop :=
  ∃ owned, connectionOwnedHeaders headers = .ok owned ∧ passesFilter csrf owned name = false

/-- The Egress response filter takes a header out. -/
def RemovedByEgress (headers : HeaderMap) (name : HeaderName) : Prop :=
  ∃ nominated, connectionHeaders headers = .ok nominated ∧
    ∀ value, passes nominated (name, value) = false

/-- The headers that must not cross a boundary. -/
def scopedNames : List Bytes :=
  ["connection", "keep-alive", "proxy-authenticate", "proxy-authorization", "proxy-connection",
    "te", "trailer", "transfer-encoding", "upgrade"].map ascii

/-- The headers that only one of the two lists names. -/
def unsharedNames : List Bytes :=
  ["proxy-authenticate", "proxy-authorization", "proxy-connection"].map ascii

/-- Both boundaries take the same headers for hop-by-hop headers. -/
structure Agree (csrf : Option HeaderName) (headers : HeaderMap) : Prop where
  same : ∀ name ∈ headers.keys, name ∉ ownedByIngress csrf →
    (RemovedByIngress csrf headers name ↔ RemovedByEgress headers name)
  relayed : ∀ fields, inboundHeaders headers csrf = .ok fields → ∀ field ∈ fields,
    ∀ forbidden ∈ forbiddenRequestHeaders, Text.eqIgnoreCase field.name forbidden = false
  inbound : ∀ fields, inboundHeaders headers csrf = .ok fields → ∀ field ∈ fields,
    field.name ∉ scopedNames
  outbound : ∀ target limit items, limit ≤ Egress.maxHeadBytes →
    responseHeaders target headers limit = .ok items → ∀ item ∈ items, item.name ∉ scopedNames

/-! ### Nominations -/

/-- What one piece of a `Connection` value adds to the Ingress list. -/
def recordedBy (piece : Bytes) : List HeaderName :=
  if isStaticHopByHopName piece then [] else (HeaderName.fromBytes piece).toList

theorem nominate_eq {piece : Bytes} (valid : (HeaderName.fromBytes piece).isSome = true)
    (owned : List HeaderName) : nominate owned piece = .ok (owned ++ recordedBy piece) := by
  obtain ⟨header, parsed⟩ := Option.isSome_iff_exists.mp valid
  rw [nominate, recordedBy, parsed]
  by_cases hop : isStaticHopByHopName piece = true
  · rw [if_pos hop, if_pos hop, List.append_nil]
  · rw [if_neg hop, if_neg hop]
    rfl

/-- Ingress takes the `Connection` fields that Egress takes. -/
theorem connectionOwnedHeaders_eq {headers : HeaderMap} (valid : ConnectionValid headers) :
    connectionOwnedHeaders headers = .ok ((headers.getAll .connection).flatMap fun value =>
      (nominations value.bytes).flatMap recordedBy) := by
  have field : ∀ owned (value : HeaderValue), (value.toStr.isSome = true ∧
      ∀ piece ∈ nominations value.bytes, (HeaderName.fromBytes piece).isSome = true) →
      Ingress.nominateField owned value =
        .ok (owned ++ (nominations value.bytes).flatMap recordedBy) := by
    rintro owned value ⟨text, pieces⟩
    obtain ⟨read, visible⟩ := Option.isSome_iff_exists.mp text
    obtain ⟨rfl, -⟩ := HeaderValue.toStr_eq_some_iff.mp visible
    rw [Ingress.nominateField]
    simp only [visible]
    exact Result.foldlM_append_eq (fun owned piece valid => nominate_eq valid owned) pieces owned
  rw [connectionOwnedHeaders, Result.foldlM_append_eq field valid, List.nil_append]

theorem isStaticHopByHopName_lowercase (name : Bytes) :
    isStaticHopByHopName (Text.lowercase name) = isStaticHopByHopName name := by
  simp only [isStaticHopByHopName, Text.eqIgnoreCase, Text.lowercase_lowercase]

private theorem mem_recordedBy_iff {piece : Bytes} {name : HeaderName}
    (other : isStaticHopByHopName name.text = false) :
    name ∈ recordedBy piece ↔ name.text ∈ namedBy piece := by
  rw [recordedBy, namedBy]
  cases parsed : HeaderName.fromBytes piece with
  | none => simp
  | some header =>
      have lower := HeaderName.text_of_fromBytes parsed
      by_cases hop : isStaticHopByHopName piece = true
      · -- A static name is skipped, and it is not the name in question.
        have apart : name.text ≠ header.text := by
          intro same
          rw [same, lower, isStaticHopByHopName_lowercase, hop] at other
          cases other
        simp [hop, apart]
      · simp [hop, HeaderName.eq_iff_text]

/-- A header that Ingress does not filter by its name is recorded when it is nominated. -/
theorem mem_owned_iff {headers : HeaderMap} {name : HeaderName}
    (other : isStaticHopByHopName name.text = false) :
    (name ∈ (headers.getAll .connection).flatMap fun value =>
      (nominations value.bytes).flatMap recordedBy) ↔ name.text ∈ nominatedBy headers := by
  simp only [nominatedBy, List.mem_flatMap, Finset.mem_biUnion, List.mem_toFinset,
    mem_recordedBy_iff other]

/-! ### What the filters take out -/

section Filters

variable {csrf : Option HeaderName} {headers : HeaderMap} (valid : ConnectionValid headers)
  {name : HeaderName}

include valid

theorem removedByEgress_iff : RemovedByEgress headers name ↔
    name.text ∈ forbiddenRequestHeaders ∨ name.text ∈ nominatedBy headers := by
  have collected := connectionHeaders_eq_ok.mpr ⟨valid, rfl⟩
  rw [RemovedByEgress]
  constructor
  · rintro ⟨nominated, found, dropped⟩
    obtain ⟨-, rfl⟩ := connectionHeaders_eq_ok.mp found
    have kept := dropped ⟨[], rfl⟩
    rwa [passes, Bool.not_eq_false', Bool.or_eq_true, List.contains_iff_mem, decide_eq_true_iff] at kept
  · intro dropped
    refine ⟨_, collected, fun value => ?_⟩
    rwa [passes, Bool.not_eq_false', Bool.or_eq_true, List.contains_iff_mem, decide_eq_true_iff]

theorem removedByIngress_iff : RemovedByIngress csrf headers name ↔
    name.text ∈ withheldNames ∨ csrf = some name ∨ name.text ∈ nominatedBy headers := by
  have collected := connectionOwnedHeaders_eq valid
  have filtered : ∀ owned, passesFilter csrf owned name = false ↔
      name.text ∈ withheldNames ∨ csrf = some name ∨ name ∈ owned := by
    intro owned
    rw [← isFilteredRequestHeader_iff]
    simp only [passesFilter, Bool.and_eq_false_iff, Bool.not_eq_false', beq_iff_eq,
      List.contains_iff_mem, or_assoc]
  rw [RemovedByIngress]
  cases other : isStaticHopByHopName name.text with
  | true =>
      -- A static name is withheld, whether it has been recorded or not.
      have withheld : name.text ∈ withheldNames := by
        have listed := lowercase_mem_withheldNames other
        rwa [name.lower] at listed
      exact iff_of_true ⟨_, collected, (filtered _).mpr (.inl withheld)⟩ (.inl withheld)
  | false =>
      rw [← mem_owned_iff other]
      constructor
      · rintro ⟨owned, found, dropped⟩
        rw [collected] at found
        cases found
        exact (filtered _).mp dropped
      · intro dropped
        exact ⟨_, collected, (filtered _).mpr dropped⟩

/-- What an Endpoint gets to see of a request. -/
theorem seen_of_inboundHeaders {fields : List InboundHeader}
    (accepted : inboundHeaders headers csrf = .ok fields) {field : InboundHeader}
    (member : field ∈ fields) : ∃ name ∈ headers.keys, field.name = name.text ∧
      name.text ∉ withheldNames ∧ csrf ≠ some name ∧ name.text ∉ nominatedBy headers := by
  obtain ⟨owned, collected, texted⟩ := Result.bind_eq_ok.mp accepted
  obtain ⟨original, inside, round⟩ := Result.exists_of_mem_mapM texted member
  obtain ⟨stored, passed⟩ := List.mem_filter.mp inside
  have kept : ¬ RemovedByIngress csrf headers original.1 := by
    rintro ⟨owned', found, dropped⟩
    rw [collected] at found
    cases found
    rw [passed] at dropped
    cases dropped
  rw [removedByIngress_iff valid, not_or, not_or] at kept
  rw [inboundHeader] at round
  split at round
  · cases round
    exact ⟨original.1, MultiMap.mem_keys_of_mem_toList stored, rfl, kept⟩
  · cases round

omit valid in
/-- What an application gets to see of a response. -/
theorem seen_of_responseHeaders {target : Target} {limit : Nat} {items : List Egress.HeaderItem}
    (bounded : limit ≤ Egress.maxHeadBytes)
    (returned : responseHeaders target headers limit = .ok items)
    {item : Egress.HeaderItem} (member : item ∈ items) :
    ∃ name ∈ headers.keys, item.name = name.text ∧
      name.text ∉ forbiddenRequestHeaders ∧ name.text ∉ nominatedBy headers := by
  have small : Egress.maxHeadBytes ≤ Egress.maxTransferBytes := by decide
  have fits := target.limit_lt (bounded.trans small)
  obtain ⟨-, -, -, rfl⟩ := (responseHeaders_eq_ok fits).mp returned
  obtain ⟨field, kept, rfl⟩ := List.mem_map.mp member
  obtain ⟨stored, passed⟩ := List.mem_filter.mp kept
  simp only [passes, Bool.not_eq_true', Bool.or_eq_false_iff, decide_eq_false_iff_not,
    List.contains_eq_mem] at passed
  exact ⟨field.1, MultiMap.mem_keys_of_mem_toList stored, rfl, passed⟩

end Filters

/-- The texts of the headers that Ingress handles in its own right. -/
def ownTexts : List Bytes :=
  ["authorization", "cookie", "host", "content-length", "x-request-id"].map ascii

theorem notMem_ownedByIngress_iff {csrf : Option HeaderName} {name : HeaderName} :
    name ∉ ownedByIngress csrf ↔ name.text ∉ ownTexts ∧ csrf ≠ some name := by
  have texts : ownTexts = [HeaderName.authorization, .cookie, .host, .contentLength,
      requestIdHeader].map HeaderName.text := by rfl
  have named : name.text ∈ ownTexts ↔ name ∈ [HeaderName.authorization, .cookie, .host,
      .contentLength, requestIdHeader] := by
    rw [texts, List.mem_map_of_injective fun _ _ => HeaderName.ext_text]
  rw [ownedByIngress, List.mem_append, not_or, Option.mem_toList, ← named]

/-- A validated CSRF header is a header of its own. -/
theorem notMem_reserved_of_csrfHeader {sessionCookie : Option SessionCookieConfig}
    (valid : ∀ config ∈ sessionCookie, config.validate = .ok ()) {header : HeaderName}
    (configured : csrfHeader sessionCookie = some header) :
    header.text ∉ SessionCookieConfig.reservedHeaderNames := by
  obtain ⟨policy, built, rfl⟩ := Option.map_eq_some_iff.mp configured
  obtain ⟨config, given, parsed⟩ := Option.bind_eq_some_iff.mp built
  obtain ⟨header, named, rfl⟩ := Option.map_eq_some_iff.mp parsed
  have checked := valid config given
  rw [SessionCookieConfig.validate] at checked
  split at checked
  · cases checked
  split at checked
  · cases checked
  simp only [named] at checked
  split at checked
  · cases checked
  next dedicated =>
  rwa [List.contains_iff_mem] at dedicated

/-- The boundaries agree on a header map exactly when every header that only one list
names is taken out for another reason: a `Connection` field nominates it, or it is the
CSRF header. -/
theorem boundaries_agree_iff {sessionCookie : Option SessionCookieConfig} {headers : HeaderMap}
    (valid : ∀ config ∈ sessionCookie, config.validate = .ok ())
    (connection : ConnectionValid headers) :
    Agree (csrfHeader sessionCookie) headers ↔
      ∀ name ∈ headers.keys, name.text ∈ unsharedNames →
        name.text ∈ nominatedBy headers ∨ csrfHeader sessionCookie = some name := by
  have unsharedParts : ∀ word ∈ unsharedNames, word ∉ ownTexts ∧
      ¬ (word ∈ withheldNames ↔ word ∈ forbiddenRequestHeaders) := by decide
  constructor
  · intro agree name member unshared
    obtain ⟨foreign, differs⟩ := unsharedParts name.text unshared
    by_contra kept
    obtain ⟨notNominated, notCsrf⟩ := not_or.mp kept
    have same := agree.same name member (notMem_ownedByIngress_iff.mpr ⟨foreign, notCsrf⟩)
    rw [removedByIngress_iff connection, removedByEgress_iff connection] at same
    simp only [notNominated, notCsrf, or_false] at same
    exact differs same
  · intro covered
    have shared : ∀ name ∈ headers.keys, csrfHeader sessionCookie ≠ some name →
        name.text ∉ nominatedBy headers → name.text ∉ unsharedNames := by
      intro name member notCsrf notNominated unshared
      obtain nominated | csrf := covered name member unshared
      · exact notNominated nominated
      · exact notCsrf csrf
    have forbiddenParts : ∀ word ∈ forbiddenRequestHeaders,
        word ∈ withheldNames ∨ word ∈ unsharedNames := by decide
    have withheldParts : ∀ word ∈ withheldNames, word ∉ ownTexts → word ∉ unsharedNames →
        word ∈ forbiddenRequestHeaders := by decide
    refine ⟨?_, ?_, ?_, ?_⟩
    · intro name member foreign
      obtain ⟨notOwn, notCsrf⟩ := notMem_ownedByIngress_iff.mp foreign
      rw [removedByIngress_iff connection, removedByEgress_iff connection]
      by_cases nominated : name.text ∈ nominatedBy headers
      · simp only [nominated, or_true]
      · have unlisted := shared name member notCsrf nominated
        simp only [nominated, notCsrf, or_false]
        constructor
        · exact fun withheld => withheldParts name.text withheld notOwn unlisted
        · exact fun forbidden => (forbiddenParts name.text forbidden).resolve_right unlisted
    · intro fields accepted field inside forbidden listed
      obtain ⟨name, member, named, notWithheld, notCsrf, notNominated⟩ :=
        seen_of_inboundHeaders connection accepted inside
      have lower : ∀ word ∈ forbiddenRequestHeaders, Text.lowercase word = word := by decide
      refine Bool.eq_false_iff.mpr fun same => ?_
      rw [named, Text.eqIgnoreCase_iff, name.lower, lower forbidden listed] at same
      obtain withheld | unshared := forbiddenParts forbidden listed
      · exact notWithheld (same ▸ withheld)
      · exact shared name member notCsrf notNominated (same ▸ unshared)
    · intro fields accepted field inside isScoped
      obtain ⟨name, member, named, notWithheld, notCsrf, notNominated⟩ :=
        seen_of_inboundHeaders connection accepted inside
      have scopedParts : ∀ word ∈ scopedNames, word ∈ withheldNames ∨ word ∈ unsharedNames := by
        decide
      obtain withheld | unshared := scopedParts _ (named ▸ isScoped)
      · exact notWithheld withheld
      · exact shared name member notCsrf notNominated unshared
    · intro target limit items bounded returned item inside isScoped
      obtain ⟨name, member, named, permitted, notNominated⟩ :=
        seen_of_responseHeaders bounded returned inside
      have scopedParts : ∀ word ∈ scopedNames, word ∉ forbiddenRequestHeaders →
          word ∈ unsharedNames ∧ word ∈ SessionCookieConfig.reservedHeaderNames := by
        decide
      obtain ⟨unshared, reserved⟩ := scopedParts _ (named ▸ isScoped) permitted
      obtain nominated | csrf := covered name member unshared
      · exact notNominated nominated
      · exact notMem_reserved_of_csrfHeader valid csrf reserved

/-! ### Proxy credentials -/

/-- `proxy-authorization`. -/
def proxyAuthorization : HeaderName :=
  ⟨ascii "proxy-authorization", by decide, by decide, by decide, by decide⟩

/-- A request with proxy credentials. -/
def proxyHeaders : HeaderMap :=
  (∅ : HeaderMap).append proxyAuthorization ⟨ascii "Basic c2VjcmV0", rfl⟩

/-- The same request, with the credentials nominated by its `Connection` field. -/
def nominatedProxyHeaders : HeaderMap :=
  proxyHeaders.append .connection ⟨ascii "Proxy-Authorization", rfl⟩

theorem boundaries_agree_nominated : Agree (csrfHeader none) nominatedProxyHeaders := by
  have collected : connectionHeaders nominatedProxyHeaders =
      .ok {ascii "proxy-authorization"} := by decide +kernel
  have connection := (connectionHeaders_eq_ok.mp collected).1
  refine (boundaries_agree_iff (fun _ impossible => by cases impossible) connection).mpr ?_
  intro name member unshared
  refine .inl ?_
  have names : ∀ name ∈ nominatedProxyHeaders.keys, name.text ∈ unsharedNames →
      name.text ∈ nominatedBy nominatedProxyHeaders := by decide +kernel
  exact names name member unshared

/-- Ingress shows the credentials to the Endpoint, and Egress refuses to relay them. -/
theorem proxy_credentials_cross :
    ConnectionValid proxyHeaders ∧
      inboundHeaders proxyHeaders (csrfHeader none) =
        .ok [⟨ascii "proxy-authorization", ascii "Basic c2VjcmV0"⟩] ∧
      responseHeaders .native proxyHeaders 1024 = .ok [] ∧
      ¬ Agree (csrfHeader none) proxyHeaders := by
  have shown : inboundHeaders proxyHeaders (csrfHeader none) =
      .ok [⟨ascii "proxy-authorization", ascii "Basic c2VjcmV0"⟩] := by decide +kernel
  have collected : connectionHeaders proxyHeaders = .ok ∅ := by decide +kernel
  refine ⟨(connectionHeaders_eq_ok.mp collected).1, shown, by decide +kernel, fun agree => ?_⟩
  exact agree.inbound _ shown _ (List.mem_singleton_self _) (by decide)

end Relay
