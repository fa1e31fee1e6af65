import LensoWeb.Egress.Policy

/-!
# What Egress allows

Two functions decide where a request may go: one brings the configured origins into
their canonical spelling, the other asks whether the origin of a request is among
them. Both go through the URL parser, so spellings that parse to one origin are one
origin for either. What a request must look like besides is a condition on its parts.
-/

namespace Egress

open Foundation Http

/-! ### Requests -/

/-- A header that a request may carry. -/
structure HeaderAllowed (header : HeaderItem) : Prop where
  name : (HeaderName.fromBytes header.name).isSome = true
  value : (HeaderValue.fromBytes header.value).isSome = true
  permitted : ∀ forbidden ∈ forbiddenRequestHeaders,
    Text.eqIgnoreCase header.name forbidden = false

/-- What a header costs in the head of a request. -/
def itemBytes (header : HeaderItem) : Nat := header.name.length + header.value.length + 4

/-- A URL that names a resource of an allowed origin, and nothing else. -/
structure DestinationAllowed (allowedOrigins : Finset Bytes) (url : Url) : Prop where
  username : url.username = []
  password : url.password = none
  fragment : url.fragment = none
  scheme : url.scheme = ascii "http" ∨ url.scheme = ascii "https"
  origin : url.origin ∈ allowedOrigins

/-- A request that may be sent. -/
structure Admissible (parser : UrlParser) (config : HttpEgressConfig)
    (allowedOrigins : Finset Bytes) (request : SendRequest) : Prop where
  method : ∃ method, Method.fromBytes request.method = some method ∧ method ≠ .connect ∧
    method ≠ .trace
  shortMethod : request.method.length ≤ 32
  destination : ∃ url, parser.parse request.url = some url ∧ DestinationAllowed allowedOrigins url
  shortUrl : request.url.length ≤ 4096
  body : request.body.length ≤ config.maxRequestBodyBytes
  headers : ∀ header ∈ request.headers, HeaderAllowed header
  head : Budget.total itemBytes request.headers ≤ config.maxRequestHeadBytes

/-- The values that a request gives a header, in their order. -/
def SendRequest.valuesOf (request : SendRequest) (name : Bytes) : List Bytes :=
  (request.headers.filter fun header => Text.lowercase header.name = name).map HeaderItem.value

/-- A prepared request is the request that was given, with lower-case header names. -/
structure PreparedRequest.Carries (prepared : PreparedRequest) (parser : UrlParser)
    (request : SendRequest) : Prop where
  method : prepared.method.token = request.method
  url : parser.parse request.url = some prepared.url
  headers : ∀ name, (prepared.headers.getAll name).map HeaderValue.bytes =
    request.valuesOf name.text
  body : prepared.body = request.body

theorem requestOrigin_eq_some {url : Url} {origin : Bytes} :
    requestOrigin url = some origin ↔
      (url.scheme = ascii "http" ∨ url.scheme = ascii "https") ∧ url.origin ≠ ascii "null" ∧
        url.origin = origin := by
  rw [requestOrigin, Url.isHttp]
  by_cases http : url.scheme = ascii "http" ∨ url.scheme = ascii "https"
  · by_cases null : url.origin = ascii "null"
    · simp [null]
    · simp [http, null]
  · simp [not_or.mp http]

/-! ### The header loop -/

/-- The field of a header, if its name and value are valid. -/
def fieldOf (header : HeaderItem) : Option (HeaderName × HeaderValue) :=
  (HeaderName.fromBytes header.name).bind fun name =>
    (HeaderValue.fromBytes header.value).map fun value => (name, value)

/-- The map with the field of one more header. -/
def appendItem (headers : HeaderMap) (header : HeaderItem) : HeaderMap :=
  match fieldOf header with
  | some field => headers.append field.1 field.2
  | none => headers

/-- Parsing keeps the value, and the name up to letter case. -/
theorem fieldOf_eq_some {header : HeaderItem} {field : HeaderName × HeaderValue}
    (found : fieldOf header = some field) :
    field.1.text = Text.lowercase header.name ∧ field.2.bytes = header.value := by
  obtain ⟨name, named, rest⟩ := Option.bind_eq_some_iff.mp found
  obtain ⟨value, valued, rfl⟩ := Option.map_eq_some_iff.mp rest
  refine ⟨HeaderName.text_of_fromBytes named, ?_⟩
  rw [HeaderValue.fromBytes] at valued
  split at valued
  · cases valued
    rfl
  · cases valued

theorem fieldBytes_of_fieldOf {header : HeaderItem} {field : HeaderName × HeaderValue}
    (found : fieldOf header = some field) : fieldBytes field = itemBytes header := by
  obtain ⟨name, value⟩ := fieldOf_eq_some found
  rw [fieldBytes, itemBytes, name, value, Text.lowercase, List.length_map]

theorem HeaderAllowed.fieldOf_isSome {header : HeaderItem} (allowed : HeaderAllowed header) :
    ∃ field, fieldOf header = some field := by
  obtain ⟨name, named⟩ := Option.isSome_iff_exists.mp allowed.name
  obtain ⟨value, valued⟩ := Option.isSome_iff_exists.mp allowed.value
  exact ⟨(name, value), by rw [fieldOf, named, valued]; rfl⟩

/-- The forbidden names are matched in every letter case. -/
private theorem forbidden_contains_iff (name : Bytes) :
    forbiddenRequestHeaders.contains (Text.lowercase name) = true ↔
      ∃ forbidden ∈ forbiddenRequestHeaders, Text.eqIgnoreCase name forbidden = true := by
  have lower : ∀ forbidden ∈ forbiddenRequestHeaders, Text.lowercase forbidden = forbidden := by
    decide
  rw [List.contains_iff_mem]
  constructor
  · intro member
    refine ⟨_, member, Text.eqIgnoreCase_iff.mpr ?_⟩
    rw [Text.lowercase_lowercase]
  · rintro ⟨forbidden, member, same⟩
    rw [Text.eqIgnoreCase_iff.mp same, lower forbidden member]
    exact member

private theorem headerAllowed_iff {header : HeaderItem} {name : HeaderName} {value : HeaderValue}
    (named : HeaderName.fromBytes header.name = some name)
    (valued : HeaderValue.fromBytes header.value = some value) :
    HeaderAllowed header ↔ forbiddenRequestHeaders.contains name.text = false := by
  rw [HeaderName.text_of_fromBytes named, ← Bool.not_eq_true, forbidden_contains_iff]
  constructor
  · rintro ⟨-, -, permitted⟩ ⟨forbidden, member, same⟩
    rw [permitted forbidden member] at same
    cases same
  · intro permitted
    refine ⟨by rw [named]; rfl, by rw [valued]; rfl, fun forbidden member => ?_⟩
    exact Bool.eq_false_iff.mpr fun same => permitted ⟨forbidden, member, same⟩

private theorem parseRequestHeader_eq_ok {target : Target} {limit : Nat}
    (fits : limit + 1 < 2 ^ target.usizeBits) (header : HeaderItem) (state next : HeaderMap × Nat)
    (_ : state.2 ≤ limit) :
    parseRequestHeader target limit state header = .ok next ↔
      HeaderAllowed header ∧ state.2 + itemBytes header ≤ limit ∧ state.1.HasRoom ∧
        next = (appendItem state.1 header, state.2 + itemBytes header) := by
  rw [parseRequestHeader]
  cases named : HeaderName.fromBytes header.name with
  | none =>
      have refused : ¬ HeaderAllowed header := fun allowed => by simpa [named] using allowed.name
      simp [refused]
  | some name =>
      cases valued : HeaderValue.fromBytes header.value with
      | none =>
          have refused : ¬ HeaderAllowed header :=
            fun allowed => by simpa [valued] using allowed.value
          simp [refused]
      | some value =>
          have found : fieldOf header = some (name, value) := by rw [fieldOf, named, valued]; rfl
          rw [headerAllowed_iff named valued, appendItem, found, ← fieldBytes_of_fieldOf found]
          cases forbidden : forbiddenRequestHeaders.contains name.text with
          | true => simp only [forbidden, if_true, reduceCtorEq, false_and]
          | false =>
              simp only [forbidden, Bool.false_eq_true, if_false, true_and]
              by_cases paid : state.2 + fieldBytes (name, value) ≤ limit
              · have exact : state.2 + fieldBytes (name, value) < 2 ^ target.usizeBits := by omega
                rw [checkedAdd, if_pos exact]
                simp only [if_neg (Nat.not_lt.mpr paid), paid, true_and, HeaderMap.append?]
                by_cases room : state.1.HasRoom
                · simp only [room, if_true, Option.elim_some, Except.ok.injEq, true_and]
                  exact eq_comm
                · simp only [room, if_false, Option.elim_none, false_and, reduceCtorEq]
              · simp only [paid, false_and, iff_false]
                rw [checkedAdd]
                by_cases exact : state.2 + fieldBytes (name, value) < 2 ^ target.usizeBits
                · simp only [exact, if_true, Nat.lt_of_not_le paid, reduceCtorEq, not_false_iff]
                · simp only [exact, if_false, reduceCtorEq, not_false_iff]

/-- The different names of the headers, in lower case. -/
def headerNames (headers : List HeaderItem) : Finset Bytes :=
  (headers.map fun header => Text.lowercase header.name).toFinset

/-- When the last header is appended the map still has room, whose every name comes from
one of the headers before. -/
def HeadersFit (headers : List HeaderItem) : Prop :=
  (headerNames headers.dropLast).card < HeaderMap.capacity

/-- The map has the names of the headers. -/
theorem names_foldl_appendItem {headers : List HeaderItem}
    (allowed : ∀ header ∈ headers, HeaderAllowed header) :
    ((headers.foldl appendItem ∅).keys.map HeaderName.text).toFinset = headerNames headers := by
  induction headers using List.reverseRecOn with
  | nil => rfl
  | append_singleton front last ih =>
      obtain ⟨field, found⟩ := (allowed last (by simp)).fieldOf_isSome
      obtain ⟨named, -⟩ := fieldOf_eq_some found
      have before := ih fun header member => allowed header (List.mem_append_left _ member)
      rw [List.foldl_append, List.foldl_cons, List.foldl_nil, appendItem, found, headerNames,
        List.map_append, List.toFinset_append, ← headerNames, ← before]
      ext name
      simp only [List.mem_toFinset, List.mem_map, MultiMap.mem_keys_append, Finset.mem_union,
        List.map_cons, List.map_nil, List.mem_singleton, ← named]
      constructor
      · rintro ⟨key, rfl | old, rfl⟩
        · exact .inr rfl
        · exact .inl ⟨key, old, rfl⟩
      · rintro (⟨key, old, rfl⟩ | rfl)
        · exact ⟨key, .inr old, rfl⟩
        · exact ⟨field.1, .inl rfl, rfl⟩

theorem length_keys_foldl_appendItem {headers : List HeaderItem}
    (allowed : ∀ header ∈ headers, HeaderAllowed header) :
    (headers.foldl appendItem ∅).keys.length = (headerNames headers).card := by
  have distinct : ((headers.foldl appendItem ∅).keys.map HeaderName.text).Nodup :=
    (MultiMap.nodup_keys _).map fun _ _ same => HeaderName.ext_text same
  rw [← names_foldl_appendItem allowed, List.toFinset_card_of_nodup distinct, List.length_map]

/-- There is room in every round if there is in the last. -/
theorem hasRoom_iff_headersFit {headers : List HeaderItem}
    (allowed : ∀ header ∈ headers, HeaderAllowed header) :
    (∀ front header rest, headers = front ++ header :: rest →
        HeaderMap.HasRoom (front.foldl appendItem ∅)) ↔ HeadersFit headers := by
  unfold HeaderMap.HasRoom HeadersFit
  constructor
  · intro rooms
    cases headers using List.reverseRecOn with
    | nil => decide
    | append_singleton front last =>
        have room := rooms front last [] rfl
        rw [length_keys_foldl_appendItem fun header member =>
          allowed header (List.mem_append_left _ member)] at room
        rwa [List.dropLast_concat]
  · rintro room front header rest rfl
    rw [length_keys_foldl_appendItem fun header member =>
      allowed header (List.mem_append_left _ member)]
    refine (Finset.card_le_card fun name member => ?_).trans_lt room
    rw [List.dropLast_append_of_ne_nil (List.cons_ne_nil _ _), headerNames, List.map_append,
      List.toFinset_append]
    exact Finset.mem_union_left _ member

/-- The header loop takes exactly the allowed headers that the head can pay for and that
the map has room for. -/
theorem parseRequestHeaders_eq_ok {target : Target} {headers : List HeaderItem} {limit : Nat}
    {parsed : HeaderMap} (fits : limit + 1 < 2 ^ target.usizeBits) :
    parseRequestHeaders target headers limit = .ok parsed ↔
      (∀ header ∈ headers, HeaderAllowed header) ∧ Budget.total itemBytes headers ≤ limit ∧
        HeadersFit headers ∧ parsed = headers.foldl appendItem ∅ := by
  have loop := @Budget.foldlM_eq_ok_of_room SendError HeaderItem HeaderMap
    (parseRequestHeader target limit) HeaderAllowed HeaderMap.HasRoom itemBytes appendItem limit
    headers (fun header _ => parseRequestHeader_eq_ok fits header) (∅, 0)
  rw [parseRequestHeaders, Result.bind_eq_ok]
  constructor
  · rintro ⟨final, looped, returned⟩
    obtain ⟨allowed, paid, rooms, rfl⟩ := (loop (Nat.zero_le limit)).mp looped
    cases returned
    exact ⟨allowed, by simpa using paid, (hasRoom_iff_headersFit allowed).mp rooms, rfl⟩
  · rintro ⟨allowed, paid, room, rfl⟩
    exact ⟨_, (loop (Nat.zero_le limit)).mpr ⟨allowed, by simpa using paid,
      (hasRoom_iff_headersFit allowed).mpr room, rfl⟩, rfl⟩

theorem foldl_appendItem {headers : List HeaderItem}
    (allowed : ∀ header ∈ headers, HeaderAllowed header) (map : HeaderMap) (name : HeaderName) :
    ((headers.foldl appendItem map).getAll name).map HeaderValue.bytes =
      (map.getAll name).map HeaderValue.bytes ++
        (headers.filter fun header => Text.lowercase header.name = name.text).map
          HeaderItem.value := by
  induction headers generalizing map with
  | nil => simp
  | cons header rest ih =>
      obtain ⟨field, found⟩ := (allowed header List.mem_cons_self).fieldOf_isSome
      obtain ⟨named, valued⟩ := fieldOf_eq_some found
      rw [List.foldl_cons, ih fun other member => allowed other (List.mem_cons_of_mem _ member),
        appendItem, found, MultiMap.getAll_append]
      by_cases same : name = field.1
      · have kept : Text.lowercase header.name = name.text := by rw [same, named]
        rw [if_pos same, List.filter_cons_of_pos (by simpa using kept), List.map_cons, ← valued,
          ← same, List.map_append, List.append_assoc]
        rfl
      · have dropped : ¬ Text.lowercase header.name = name.text := by
          rw [← named]
          exact fun equal => same (HeaderName.ext_text equal.symm)
        rw [if_neg same, List.filter_cons_of_neg (by simpa using dropped)]

/-! ### Preparing a request -/

section Requests

variable {target : Target} {parser : UrlParser} {config : HttpEgressConfig}
  {allowedOrigins : Finset Bytes} {request : SendRequest} {prepared : PreparedRequest}

/-- What `prepare_request` returns, and when. -/
theorem prepareRequest_eq_ok (valid : config.limitsValid)
    (notNull : ascii "null" ∉ allowedOrigins) :
    prepareRequest target parser config allowedOrigins request = .ok prepared ↔
      Admissible parser config allowedOrigins request ∧ HeadersFit request.headers ∧
        Method.fromBytes request.method = some prepared.method ∧
        parser.parse request.url = some prepared.url ∧
        prepared.headers = request.headers.foldl appendItem ∅ ∧ prepared.body = request.body := by
  have fits : config.maxRequestHeadBytes + 1 < 2 ^ target.usizeBits := by
    have bounded : config.maxRequestHeadBytes ≤ maxHeadBytes := valid.2.2.1.2
    exact target.limit_lt (bounded.trans (by decide))
  constructor
  · intro accepted
    rw [prepareRequest] at accepted
    split at accepted
    · cases accepted
    next short =>
    split at accepted
    · cases accepted
    next method found =>
    split at accepted
    · cases accepted
    next ordinary =>
    split at accepted
    · cases accepted
    next url parsed =>
    split at accepted
    · cases accepted
    next bare =>
    split at accepted
    · cases accepted
    next origin known =>
    split at accepted
    · cases accepted
    next listed =>
    split at accepted
    · cases accepted
    next light =>
    obtain ⟨headers, looped, returned⟩ := Result.bind_eq_ok.mp accepted
    obtain ⟨allowed, paid, room, rfl⟩ := (parseRequestHeaders_eq_ok fits).mp looped
    obtain ⟨scheme, -, rfl⟩ := requestOrigin_eq_some.mp known
    cases returned
    simp only [Bool.or_eq_true, not_or, Bool.not_eq_true, Bool.not_eq_false',
      Option.isSome_eq_false_iff, Option.isNone_iff_eq_none, List.isEmpty_iff] at bare
    obtain ⟨⟨username, password⟩, fragment⟩ := bare
    obtain ⟨notConnect, notTrace⟩ := not_or.mp ordinary
    refine ⟨⟨⟨method, found, notConnect, notTrace⟩, ?_, ⟨url, parsed, username, password, fragment,
      scheme, not_not.mp listed⟩, ?_, not_lt.mp light, allowed, paid⟩, room, found, parsed, rfl,
      rfl⟩
    · omega
    · omega
  · rintro ⟨admissible, room, found, parsed, headers, body⟩
    obtain ⟨⟨method, found', notConnect, notTrace⟩, shortMethod, ⟨url, parsed', destination⟩,
      shortUrl, light, allowed, paid⟩ := admissible
    obtain rfl := Option.some.inj (found'.symm.trans found)
    obtain rfl := Option.some.inj (parsed'.symm.trans parsed)
    obtain ⟨username, password, fragment, scheme, listed⟩ := destination
    have known : requestOrigin prepared.url = some prepared.url.origin := by
      refine requestOrigin_eq_some.mpr ⟨scheme, ?_, rfl⟩
      rintro null
      exact notNull (null ▸ listed)
    have short : ¬ (32 < request.method.length ∨ 4096 < request.url.length) := by omega
    have looped : parseRequestHeaders target request.headers config.maxRequestHeadBytes =
        .ok prepared.headers := (parseRequestHeaders_eq_ok fits).mpr ⟨allowed, paid, room, headers⟩
    rw [prepareRequest, if_neg short]
    simp only [found, notConnect, notTrace, or_self, if_false, parsed, username, password,
      fragment, List.isEmpty_nil, Bool.not_true, Option.isSome_none, Bool.or_self,
      Bool.false_eq_true, known, listed, not_true_eq_false, not_lt.mpr light, looped]
    rw [← body]
    rfl

end Requests

/-! ### Configured origins -/

/-- A bare origin: a URL with a scheme and a host, and nothing else but a port. -/
structure BareOrigin (parser : UrlParser) (text : Bytes) (url : Url) : Prop where
  short : text.length ≤ maxUrlBytes
  parsed : parser.parse text = some url
  scheme : url.scheme = ascii "http" ∨ url.scheme = ascii "https"
  host : url.host.isSome = true
  username : url.username = []
  password : url.password = none
  path : url.path = ascii "/"
  query : url.query = none
  fragment : url.fragment = none

section Origins

variable {parser : UrlParser} {config : HttpEgressConfig}

theorem canonicalOrigin_eq_ok {text origin : Bytes} :
    canonicalOrigin parser text = .ok origin ↔
      ∃ url, BareOrigin parser text url ∧ url.origin ≠ ascii "null" ∧ url.origin = origin := by
  rw [canonicalOrigin]
  constructor
  · intro accepted
    split at accepted
    · cases accepted
    next short =>
    split at accepted
    · cases accepted
    next url parsed =>
    split at accepted
    · cases accepted
    next bare =>
    split at accepted
    · cases accepted
    next origin' known =>
    cases accepted
    obtain ⟨scheme, notNull, same⟩ := requestOrigin_eq_some.mp known
    simp only [Bool.or_eq_true, not_or, Bool.not_eq_true, Bool.not_eq_false',
      Option.isSome_eq_false_iff, Option.isNone_iff_eq_none, List.isEmpty_iff, bne_eq_false_iff_eq]
      at bare
    obtain ⟨⟨⟨⟨⟨⟨-, host⟩, username⟩, password⟩, path⟩, query⟩, fragment⟩ := bare
    have present := Option.isSome_iff_ne_none.mpr host
    exact ⟨url, ⟨not_lt.mp short, parsed, scheme, present, username, password, path, query,
      fragment⟩, notNull, same⟩
  · rintro ⟨url, bare, notNull, same⟩
    have known : requestOrigin url = some origin :=
      requestOrigin_eq_some.mpr ⟨bare.scheme, notNull, same⟩
    have http : url.isHttp = true := by simpa [Url.isHttp] using bare.scheme
    have host : url.host.isNone = false := by simpa using bare.host
    rw [if_neg (not_lt.mpr bare.short)]
    simp only [bare.parsed, http, host, bare.username, bare.password, bare.path, bare.query,
      bare.fragment, List.isEmpty_nil, Bool.not_true, Option.isSome_none, bne_self_eq_false,
      Bool.or_self, Bool.false_eq_true, if_false, known]

/-- The origins that `validate` returns are those that the configured texts denote. -/
theorem validate_eq_ok {origins : Finset Bytes} :
    config.validate parser = .ok origins ↔
      config.allowedOrigins.length ∈ Set.Icc 1 maxAllowedOrigins ∧ config.limitsValid ∧
      ∃ denoted, List.Forall₂ (fun text origin => canonicalOrigin parser text = .ok origin)
        config.allowedOrigins denoted ∧ denoted.Nodup ∧ origins = denoted.toFinset := by
  have unique : ∀ denoted : List Bytes, denoted.length = config.allowedOrigins.length →
      (denoted.toFinset.card = config.allowedOrigins.length ↔ denoted.Nodup) := by
    intro denoted length
    rw [← length]
    exact Multiset.toFinset_card_eq_card_iff_nodup
  have counted : ¬ (config.allowedOrigins.isEmpty ||
      decide (maxAllowedOrigins < config.allowedOrigins.length)) = true ↔
      config.allowedOrigins.length ∈ Set.Icc 1 maxAllowedOrigins := by
    rw [Bool.or_eq_true, not_or, decide_eq_true_iff, List.isEmpty_iff, Set.mem_Icc, not_lt,
      ← List.length_eq_zero_iff]
    omega
  rw [HttpEgressConfig.validate]
  constructor
  · intro accepted
    split at accepted
    · cases accepted
    next count =>
    split at accepted
    · cases accepted
    next denoted canonical =>
    split at accepted
    · cases accepted
    next distinct =>
    split at accepted
    · cases accepted
    next limits =>
    cases accepted
    have each := Result.mapM_eq_ok.mp canonical
    exact ⟨counted.mp count, not_not.mp limits, denoted, each,
      (unique denoted each.length_eq.symm).mp (not_not.mp distinct), rfl⟩
  · rintro ⟨count, limits, denoted, each, distinct, rfl⟩
    have card := (unique denoted each.length_eq.symm).mpr distinct
    rw [if_neg (counted.mpr count), Result.mapM_eq_ok.mpr each]
    simp only [card, ne_eq, not_true_eq_false, if_false, limits]

theorem null_notMem_of_validate {origins : Finset Bytes}
    (valid : config.validate parser = .ok origins) : ascii "null" ∉ origins := by
  obtain ⟨-, -, denoted, each, -, rfl⟩ := validate_eq_ok.mp valid
  intro member
  obtain ⟨text, -, canonical⟩ :=
    Result.exists_of_mem_mapM (Result.mapM_eq_ok.mpr each) (List.mem_toFinset.mp member)
  obtain ⟨url, -, notNull, same⟩ := canonicalOrigin_eq_ok.mp canonical
  exact notNull same

end Origins

section Authority

variable {target : Target} {parser : UrlParser} {config : HttpEgressConfig}
  {origins : Finset Bytes} {request : SendRequest}

end Authority

end Egress
