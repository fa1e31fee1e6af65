import LensoWeb.Egress.Provider
import LensoWeb.Egress.Workers

/-!
# Native and Workers Egress

One upstream response, read by both implementations. `Upstream` is the response
as it is sent; `ReceivedBy` and `DeliveredTo` say what `reqwest` and Fetch make
of it. Both paths return the same response, but not for the same responses: the
Workers bridge pays for every field it receives, the native path only for those
it keeps.
-/

namespace Egress

open Foundation Http

def setCookieName : HeaderName := ⟨ascii "set-cookie", by decide, by decide, by decide, by decide⟩

/-- A final response with a body. Names other than `Set-Cookie` occur once, values
are text, and a declared length is the length of the body. -/
structure Upstream where
  status : StatusCode
  headers : HeaderMap
  body : Bytes
  final : 200 ≤ status.code ∧ status.code ≤ 599
  carriesBody : status ≠ .noContent ∧ status ≠ .notModified
  distinct : ((headers.toList.filter (·.1 ≠ setCookieName)).map Prod.fst).Nodup
  visible : ∀ field ∈ headers.toList, field.2.toStr.isSome = true
  truthful : ∀ field ∈ headers.toList, field.1 = .contentLength →
    Text.decimal field.2.bytes = some body.length

namespace Upstream

/-- `reqwest` has received the response, without a transport error and in chunks
of any sizes. -/
structure ReceivedBy (upstream : Upstream) (response : ReceivedResponse) : Prop where
  status : response.status = upstream.status
  headers : response.headers = upstream.headers
  length : ∀ length, response.contentLength = some length → length = upstream.body.length
  chunks : ∃ data : List Bytes, response.chunks = data.map .ok ∧ data.flatten = upstream.body

/-- Fetch has delivered the response: its iteration yields every field other than
`Set-Cookie` once, the cookies are listed separately, and the reader delivers the
body in chunks of any sizes. -/
structure Lists (upstream : Upstream) (listed : List (HeaderName × HeaderValue))
    (response : FetchResponse) : Prop where
  perm : listed.Perm upstream.headers.toList
  status : response.status = upstream.status.code
  direct : response.redirected = false
  fields : EventFetch.plainFields response =
    (listed.filter (·.1 ≠ setCookieName)).map WorkersFetch.fieldText
  cookies : EventFetch.cookiePairs response.cookies =
    .ok ((listed.filter (·.1 = setCookieName)).map WorkersFetch.fieldText)
  body : (response.body.getD []).flatten = upstream.body

/-- Fetch has delivered the response, in some order of its fields. -/
def DeliveredTo (upstream : Upstream) (response : FetchResponse) : Prop :=
  ∃ listed, upstream.Lists listed response

/-- What all fields of the response cost. -/
def headBytes (upstream : Upstream) : Nat := Budget.total fieldBytes upstream.headers.toList

variable {upstream : Upstream}

/-! ### The Workers path -/

section Workers

variable {listed : List (HeaderName × HeaderValue)} {response : FetchResponse}

/-- The fields in the order in which the bridge returns them. -/
def returned (listed : List (HeaderName × HeaderValue)) : List (HeaderName × HeaderValue) :=
  listed.filter (·.1 ≠ setCookieName) ++ listed.filter (·.1 = setCookieName)

theorem returned_perm (listed : List (HeaderName × HeaderValue)) :
    (returned listed).Perm listed := by
  have parts := List.filter_append_perm (fun field => decide (field.1 = setCookieName)) listed
  refine (List.perm_append_comm.trans ?_)
  simpa only [ne_eq, decide_not] using parts

theorem Lists.total_pairs (delivered : upstream.Lists listed response) :
    Budget.total EventFetch.pairBytes ((returned listed).map WorkersFetch.fieldText) =
      upstream.headBytes := by
  have same : ∀ fields : List (HeaderName × HeaderValue),
      Budget.total EventFetch.pairBytes (fields.map WorkersFetch.fieldText) =
        Budget.total fieldBytes fields := by
    intro fields
    rw [Budget.total, List.map_map]
    rfl
  rw [same, headBytes]
  exact Budget.total_perm ((returned_perm listed).trans delivered.perm)

/-- The values under a name other than `Set-Cookie`, as Fetch iterates over them. -/
theorem Lists.valuesOf (delivered : upstream.Lists listed response) {name : HeaderName}
    (plain : name ≠ setCookieName) :
    (response.fields.filter (·.1 = name.text)).map Prod.snd =
      (listed.filter (·.1 = name)).map (·.2.bytes) := by
  have kept : response.fields.filter (·.1 = name.text) =
      (EventFetch.plainFields response).filter (·.1 = name.text) := by
    rw [EventFetch.plainFields, List.filter_filter]
    apply List.filter_congr
    intro pair _
    by_cases same : pair.1 = name.text
    · have other : name.text ≠ EventFetch.setCookie := fun equal =>
        plain (HeaderName.ext_text equal)
      simp [same, name.lower, other]
    · simp [same]
  rw [kept, delivered.fields, List.filter_map, List.map_map, List.filter_filter]
  refine congrArg (List.map _) (List.filter_congr ?_)
  intro field _
  by_cases same : field.1 = name
  · simp [WorkersFetch.fieldText, same, plain]
  · have texts : field.1.text ≠ name.text := fun equal => same (HeaderName.ext_text equal)
    simp [WorkersFetch.fieldText, same, texts]

/-- The length that Fetch reports is the length of the body. -/
theorem Lists.reported (delivered : upstream.Lists listed response) {text : Bytes}
    (read : response.get HeaderName.contentLength.text = some text) :
    Text.decimal text = some upstream.body.length := by
  have plain : HeaderName.contentLength ≠ setCookieName := by decide
  rw [FetchResponse.get, delivered.valuesOf plain] at read
  have members : ∀ field ∈ listed.filter (·.1 = HeaderName.contentLength),
      Text.decimal field.2.bytes = some upstream.body.length := by
    intro field inside
    obtain ⟨member, named⟩ := List.mem_filter.mp inside
    exact upstream.truthful field (delivered.perm.mem_iff.mp member) (of_decide_eq_true named)
  have names : ((listed.filter (·.1 = HeaderName.contentLength)).map Prod.fst).Nodup := by
    have distinct := ((delivered.perm.filter (·.1 ≠ setCookieName)).map Prod.fst).nodup_iff.mpr
      upstream.distinct
    refine distinct.sublist (List.Sublist.map _ ?_)
    apply List.monotone_filter_right listed
    intro field named
    rw [of_decide_eq_true named]
    exact decide_eq_true plain
  -- A name that occurs once is not joined with anything.
  cases fields : listed.filter (·.1 = HeaderName.contentLength) with
  | nil =>
      rw [fields] at read
      cases read
  | cons first rest =>
      rw [fields] at read members names
      cases rest with
      | nil =>
          cases read
          simpa using members first List.mem_cons_self
      | cons second rest =>
          have firstName : first.1 = .contentLength := by
            have inside : first ∈ listed.filter (·.1 = HeaderName.contentLength) := by simp [fields]
            exact of_decide_eq_true (List.mem_filter.mp inside).2
          have secondName : second.1 = .contentLength := by
            have inside : second ∈ listed.filter (·.1 = HeaderName.contentLength) := by simp [fields]
            exact of_decide_eq_true (List.mem_filter.mp inside).2
          simp [firstName, secondName] at names

theorem Lists.advertises (delivered : upstream.Lists listed response) {bodyLimit : Nat}
    (bounded : upstream.body.length ≤ bodyLimit) :
    EventFetch.advertisesTooMuch bodyLimit response = false := by
  rw [EventFetch.advertisesTooMuch, Bool.and_eq_false_iff]
  right
  rw [Bool.eq_false_iff, ne_eq, Option.any_eq_true]
  rintro ⟨length, declared, large⟩
  obtain ⟨text, read, number⟩ := Option.bind_eq_some_iff.mp declared
  cases (delivered.reported read).symm.trans number
  exact absurd (of_decide_eq_true large) (Nat.not_lt.mpr bounded)

/-- The bridge returns a response if all its fields fit the head budget. -/
theorem Lists.collectResponse_eq_ok (delivered : upstream.Lists listed response)
    {limits : HttpEventLimits} {value : FetchedResponse} :
    EventFetch.collectResponse limits response = .ok value ↔
      upstream.headBytes ≤ limits.maxResponseHeadBytes ∧
        upstream.body.length ≤ limits.maxResponseBodyBytes ∧
        value = ⟨upstream.status.code, (returned listed).map WorkersFetch.fieldText,
          upstream.body⟩ := by
  have headers : ∀ fields, EventFetch.collectHeaders limits.maxResponseHeadBytes response =
      .ok fields ↔ _ := fun _ => EventFetch.collectHeaders_eq_ok delivered.cookies
  rw [delivered.fields, ← List.map_append, ← returned, delivered.total_pairs] at headers
  rw [EventFetch.collectResponse, delivered.direct, if_neg Bool.false_ne_true, Result.bind_eq_ok]
  constructor
  · rintro ⟨fields, collected, continued⟩
    obtain ⟨paid, rfl⟩ := (headers fields).mp collected
    split at continued
    · cases continued
    · obtain ⟨body, read, built⟩ := Result.bind_eq_ok.mp continued
      obtain ⟨bounded, rfl⟩ := EventFetch.readBody_eq_ok.mp read
      cases built
      rw [delivered.body] at bounded ⊢
      rw [delivered.status]
      exact ⟨paid, bounded, rfl⟩
  · rintro ⟨paid, bounded, rfl⟩
    refine ⟨_, (headers _).mpr ⟨paid, rfl⟩, ?_⟩
    rw [delivered.advertises bounded, if_neg Bool.false_ne_true]
    refine Result.bind_eq_ok.mpr ⟨upstream.body, ?_, by rw [delivered.status]; rfl⟩
    rw [EventFetch.readBody_eq_ok, delivered.body]
    exact ⟨bounded, rfl⟩

/-- The header map that the adapter decodes. -/
def decoded (listed : List (HeaderName × HeaderValue)) : HeaderMap :=
  (returned listed).foldl WorkersFetch.addField ∅

theorem Lists.decoded_perm (delivered : upstream.Lists listed response) :
    (decoded listed).toList.Perm upstream.headers.toList :=
  (MultiMap.toList_foldl_append_perm ∅ (returned listed)).trans
    ((returned_perm listed).trans delivered.perm)

theorem Lists.decodeResponse_eq_ok (delivered : upstream.Lists listed response)
    {bodyLimit headLimit : Nat} (fits : headLimit + 1 < 2 ^ Target.workers.usizeBits)
    {result : Response Bytes} :
    WorkersFetch.decodeResponse
        ⟨upstream.status.code, (returned listed).map WorkersFetch.fieldText, upstream.body⟩
        bodyLimit headLimit = .ok result ↔
      upstream.body.length ≤ bodyLimit ∧ upstream.headBytes ≤ headLimit ∧
        result = ⟨upstream.status, decoded listed, upstream.body⟩ := by
  have same := (returned_perm listed).trans delivered.perm
  have visible : ∀ field ∈ returned listed, field.2.toStr.isSome = true := fun field member =>
    upstream.visible field (same.mem_iff.mp member)
  have answered : WorkersFetch.responseStatus upstream.status.code = .ok upstream.status := by
    rw [WorkersFetch.responseStatus, dif_pos ⟨upstream.status.valid.1, upstream.final.2⟩]
  rw [WorkersFetch.decodeResponse_eq_ok fits rfl visible answered, Budget.total_perm same]
  rfl

theorem Lists.declared (delivered : upstream.Lists listed response) {length : Nat}
    (read : EventProvider.declaredLength (decoded listed) = some length) :
    length = upstream.body.length := by
  obtain ⟨text, found, parsed⟩ := Option.bind_eq_some_iff.mp read
  obtain ⟨value, first, shown⟩ := Option.bind_eq_some_iff.mp found
  obtain ⟨rfl, -⟩ := HeaderValue.toStr_eq_some_iff.mp shown
  have member := MultiMap.mem_getAll_iff.mp (List.mem_of_head? first)
  have number := upstream.truthful _ (delivered.decoded_perm.mem_iff.mp member) rfl
  rw [Text.parseUsize_of_decimal number] at parsed
  exact (Option.mem_filter_iff.mp parsed).1 |> Option.some.inj |> Eq.symm

theorem Lists.acceptResponse_eq (delivered : upstream.Lists listed response)
    {config : HttpEgressConfig} (bounded : upstream.body.length ≤ config.maxResponseBodyBytes) :
    EventProvider.acceptResponse config false ⟨upstream.status, decoded listed, upstream.body⟩ =
      (responseHeaders .workers (decoded listed) config.maxResponseHeadBytes).bind fun headers =>
        .ok ⟨upstream.body, headers, upstream.status.code⟩ := by
  rw [EventProvider.acceptResponse, if_neg]
  · rfl
  · rw [Bool.or_eq_true, decide_eq_true_eq, not_or]
    refine ⟨Nat.not_lt.mpr bounded, ?_⟩
    rw [Bool.and_eq_true, Option.any_eq_true]
    rintro ⟨-, length, read, large⟩
    rw [delivered.declared read] at large
    exact absurd (of_decide_eq_true large) (Nat.not_lt.mpr bounded)

/-- What the Workers path makes of a response: it pays for every field, and then
filters as the native path does. -/
theorem Lists.readResponse_eq_ok (delivered : upstream.Lists listed response)
    {config : HttpEgressConfig} (limits : config.limitsValid) {result : SendResponse} :
    EventProvider.readResponse config false response = .ok result ↔
      upstream.headBytes ≤ config.maxResponseHeadBytes ∧
        upstream.body.length ≤ config.maxResponseBodyBytes ∧
        ConnectionValid upstream.headers ∧
        result = ⟨upstream.body, (keptFields (decoded listed)).map headerItem,
          upstream.status.code⟩ := by
  have fits := Target.workers.limit_lt (limits.2.2.2.1.2.trans (by decide))
  have same := delivered.decoded_perm
  rw [EventProvider.readResponse, Result.bind_eq_ok]
  constructor
  · rintro ⟨value, collected, continued⟩
    obtain ⟨paid, bounded, rfl⟩ := delivered.collectResponse_eq_ok.mp
      (Result.mapError_eq_ok.mp (Result.mapError_eq_ok.mp collected))
    obtain ⟨decoded, read, accepted⟩ := Result.bind_eq_ok.mp continued
    obtain ⟨-, -, rfl⟩ := (delivered.decodeResponse_eq_ok fits).mp (Result.mapError_eq_ok.mp read)
    rw [delivered.acceptResponse_eq bounded] at accepted
    obtain ⟨headers, filtered, built⟩ := Result.bind_eq_ok.mp accepted
    obtain ⟨valid, -, -, rfl⟩ := (responseHeaders_eq_ok fits).mp filtered
    cases built
    exact ⟨paid, bounded, (connectionValid_of_perm same).mp valid, rfl⟩
  · rintro ⟨paid, bounded, valid, rfl⟩
    refine ⟨_, Result.mapError_eq_ok.mpr (Result.mapError_eq_ok.mpr
      (delivered.collectResponse_eq_ok.mpr ⟨paid, bounded, rfl⟩)), ?_⟩
    refine Result.bind_eq_ok.mpr ⟨_, Result.mapError_eq_ok.mpr
      ((delivered.decodeResponse_eq_ok fits).mpr ⟨bounded, paid, rfl⟩), ?_⟩
    rw [delivered.acceptResponse_eq bounded]
    refine Result.bind_eq_ok.mpr ⟨_, (responseHeaders_eq_ok fits).mpr
      ⟨(connectionValid_of_perm same).mpr valid, ?_, ?_, rfl⟩, rfl⟩
    · intro field kept
      exact upstream.visible field (same.mem_iff.mp (List.mem_filter.mp kept).1)
    · exact (Budget.total_filter_le fieldBytes _ _).trans (Budget.total_perm same ▸ paid)

end Workers

/-! ### The native path -/

/-- What the native path makes of a response: it pays for what it keeps. -/
theorem ReceivedBy.readResponse_eq_ok {response : ReceivedResponse}
    (received : upstream.ReceivedBy response) {config : HttpEgressConfig}
    (limits : config.limitsValid) {result : SendResponse} :
    HttpEgressProvider.readResponse config response = .ok result ↔
      Budget.total fieldBytes (keptFields upstream.headers) ≤ config.maxResponseHeadBytes ∧
        upstream.body.length ≤ config.maxResponseBodyBytes ∧
        ConnectionValid upstream.headers ∧
        result = ⟨upstream.body, (keptFields upstream.headers).map headerItem,
          upstream.status.code⟩ := by
  obtain ⟨data, whole, content⟩ := received.chunks
  have truthful : ∀ length, response.contentLength = some length →
      length = data.flatten.length := by
    rw [content]
    exact received.length
  rw [HttpEgressProvider.readResponse_eq_ok limits whole truthful, received.headers, content,
    received.status]
  constructor
  · rintro ⟨valid, -, paid, bounded, rfl⟩
    exact ⟨paid, bounded, valid, rfl⟩
  · rintro ⟨paid, bounded, valid, rfl⟩
    refine ⟨valid, ?_, paid, bounded, rfl⟩
    exact fun field kept => upstream.visible field (List.mem_filter.mp kept).1

/-! ### Both paths -/

/-- For every validated configuration, accepted request and upstream response, the
Workers path returns a response if and only if the native path does and all
received fields together fit the head budget; and when both return one, they agree
on the status, the body and the headers up to their order. -/
theorem responses_agree {target : Target} {parser : UrlParser} {config : HttpEgressConfig}
    {origins : Finset Bytes} {request : SendRequest} {prepared : PreparedRequest}
    {native : ReceivedResponse} {fetched : FetchResponse}
    (valid : config.validate parser = .ok origins)
    (accepted : prepareRequest target parser config origins request = .ok prepared)
    (bodied : request.method ≠ Method.head.token)
    (received : upstream.ReceivedBy native) (delivered : upstream.DeliveredTo fetched) :
    ((∃ result, EventProvider.readResponse config (prepared.method == .head) fetched =
        .ok result) ↔
      (∃ result, HttpEgressProvider.readResponse config native = .ok result) ∧
        upstream.headBytes ≤ config.maxResponseHeadBytes) ∧
    ∀ nativeResult workersResult,
      HttpEgressProvider.readResponse config native = .ok nativeResult →
      EventProvider.readResponse config (prepared.method == .head) fetched = .ok workersResult →
      nativeResult.status = workersResult.status ∧ nativeResult.body = workersResult.body ∧
        nativeResult.headers.Perm workersResult.headers := by
  obtain ⟨listed, delivered⟩ := delivered
  have limits := HttpEgressConfig.limitsValid_of_validate valid
  have notHead : (prepared.method == Method.head) = false := by
    rw [beq_eq_false_iff_ne]
    rintro head
    rw [← method_of_prepareRequest accepted, head] at bodied
    exact bodied rfl
  simp only [notHead, delivered.readResponse_eq_ok limits, received.readResponse_eq_ok limits]
  refine ⟨⟨?_, ?_⟩, ?_⟩
  · rintro ⟨result, paid, bounded, connection, -⟩
    refine ⟨⟨_, ?_, bounded, connection, rfl⟩, paid⟩
    exact (Budget.total_filter_le fieldBytes _ _).trans paid
  · rintro ⟨⟨result, -, bounded, connection, -⟩, paid⟩
    exact ⟨_, paid, bounded, connection, rfl⟩
  · rintro nativeResult workersResult ⟨-, -, -, rfl⟩ ⟨-, -, -, rfl⟩
    exact ⟨rfl, rfl, ((keptFields_perm delivered.decoded_perm).map headerItem).symm⟩

/-! ### One response, two budgets -/

/-- A parser that knows one URL. -/
def exampleParser : UrlParser where
  parse text :=
    if text = ascii "https://api.example.test" ∨ text = ascii "https://api.example.test/" then
      some
        { text := ascii "https://api.example.test/"
          scheme := ascii "https"
          username := []
          password := none
          host := some (ascii "api.example.test")
          path := ascii "/"
          query := none
          fragment := none
          origin := ascii "https://api.example.test" }
    else none

/-- The default policy for one origin, with a head budget of its own. -/
def exampleConfig (headLimit : Nat) : HttpEgressConfig :=
  { HttpEgressConfig.withDefaults [ascii "https://api.example.test"] with
    maxResponseHeadBytes := headLimit }

def exampleRequest : SendRequest := ⟨[], [], ascii "GET", ascii "https://api.example.test/"⟩

def examplePrepared : PreparedRequest where
  method := .get
  url := (exampleParser.parse (ascii "https://api.example.test/")).get (by decide)
  headers := ∅
  body := []

/-- Two bytes of body and the length that announces them. -/
def greeting : Upstream where
  status := .ok
  headers := (∅ : HeaderMap).append .contentLength ⟨ascii "2", by decide⟩
  body := ascii "ok"
  final := by decide
  carriesBody := by decide
  distinct := by decide
  visible := by decide
  truthful := by decide

def greetingReceived : ReceivedResponse :=
  ⟨.ok, greeting.headers, some 2, [.ok (ascii "o"), .ok (ascii "k")]⟩

def greetingFetched : FetchResponse :=
  ⟨200, false, [(ascii "content-length", ascii "2")], .getSetCookie [], some [ascii "ok"]⟩

theorem greeting_receivedBy : greeting.ReceivedBy greetingReceived where
  status := rfl
  headers := rfl
  length := by
    rintro length ⟨⟩
    rfl
  chunks := ⟨[ascii "o", ascii "k"], rfl, rfl⟩

theorem greeting_deliveredTo : greeting.DeliveredTo greetingFetched :=
  ⟨greeting.headers.toList, .refl _, rfl, rfl, by decide, rfl, rfl⟩

theorem responses_agree_greeting :
    ∃ result, EventProvider.readResponse (exampleConfig 32768) (examplePrepared.method == .head)
      greetingFetched = .ok result := by
  have valid : (exampleConfig 32768).validate exampleParser =
      .ok {ascii "https://api.example.test"} := by rfl
  have accepted : prepareRequest .workers exampleParser (exampleConfig 32768)
      {ascii "https://api.example.test"} exampleRequest = .ok examplePrepared := by rfl
  refine (responses_agree valid accepted (by decide) greeting_receivedBy
    greeting_deliveredTo).1.mpr ⟨⟨⟨ascii "ok", [], 200⟩, by rfl⟩, by decide⟩

/-- With a head budget of 16 bytes the two targets part: the length field costs 19
bytes, which the Workers bridge pays for and the native path does not. -/
theorem responses_differ_greeting :
    (exampleConfig 16).validate exampleParser = .ok {ascii "https://api.example.test"} ∧
      prepareRequest .native exampleParser (exampleConfig 16) {ascii "https://api.example.test"}
        exampleRequest = .ok examplePrepared ∧
      exampleRequest.method ≠ Method.head.token ∧
      greeting.ReceivedBy greetingReceived ∧ greeting.DeliveredTo greetingFetched ∧
      HttpEgressProvider.readResponse (exampleConfig 16) greetingReceived =
        .ok ⟨ascii "ok", [], 200⟩ ∧
      EventProvider.readResponse (exampleConfig 16) (examplePrepared.method == .head)
        greetingFetched = .error .responseTooLarge :=
  ⟨by rfl, by rfl, by decide, greeting_receivedBy, greeting_deliveredTo, by rfl, by rfl⟩

end Upstream

end Egress
