import LensoWeb.Egress.Config
import LensoWeb.Foundation.Result

/-!
# Outbound authority, header and transfer validation

The policy that both Egress implementations share: what makes a request
acceptable, and which response headers an application gets to see. A response
header is dropped when it belongs to the connection, either by its name or
because a `Connection` field nominates it; only what is kept is paid for.
-/

namespace Egress

open Foundation Http

/-- Where the policy runs. The two targets differ in the width of a word. -/
inductive Target where
  | native
  | workers
deriving DecidableEq

/-- `usize::BITS`; Workers run `wasm32`. -/
def Target.usizeBits : Target → Nat
  | native => 64
  | workers => 32

/-- Every limit that a configuration may set fits a word of either target. -/
theorem Target.limit_lt (target : Target) {limit : Nat} (bounded : limit ≤ maxTransferBytes) :
    limit + 1 < 2 ^ target.usizeBits := by
  have small : maxTransferBytes + 1 < 2 ^ target.usizeBits := by
    cases target <;> decide
  omega

/-- The domain errors of `lenso.http.client`. The catch-all for errors that a
foreign provider declares is left out: no code here makes one. `unwound` is none
of them: it stands for a call that unwinds where its result is expected. -/
inductive SendError where
  | destinationNotAllowed
  | invalidRequest
  | requestTooLarge
  | responseTooLarge
  | timeout
  | transportFailure
  | unwound
deriving DecidableEq

/-- `SendRequestHeadersItem` and `SendResponseHeadersItem`. -/
structure HeaderItem where
  name : Bytes
  value : Bytes
deriving DecidableEq

structure SendRequest where
  body : Bytes
  headers : List HeaderItem
  method : Bytes
  url : Bytes
deriving DecidableEq

structure SendResponse where
  body : Bytes
  headers : List HeaderItem
  status : Int
deriving DecidableEq

structure PreparedRequest where
  method : Method
  url : Url
  headers : HeaderMap
  body : Bytes
deriving DecidableEq

/-- `FORBIDDEN_REQUEST_HEADERS`. -/
def forbiddenRequestHeaders : List Bytes :=
  ["connection", "content-length", "host", "keep-alive", "proxy-authenticate",
    "proxy-authorization", "te", "trailer", "transfer-encoding", "upgrade"].map ascii

/-- What a field costs in a head: its text, and four bytes of framing. -/
def fieldBytes (field : HeaderName × HeaderValue) : Nat :=
  field.1.text.length + field.2.bytes.length + 4

/-! ### Requests -/

/-- One round of `parse_request_headers`. -/
def parseRequestHeader (target : Target) (maxHeadBytes : Nat) (state : HeaderMap × Nat)
    (header : HeaderItem) : Except SendError (HeaderMap × Nat) :=
  match HeaderName.fromBytes header.name with
  | none => .error .invalidRequest
  | some name =>
      if forbiddenRequestHeaders.contains name.text then .error .invalidRequest
      else match HeaderValue.fromBytes header.value with
        | none => .error .invalidRequest
        | some value =>
            match checkedAdd target.usizeBits state.2 (fieldBytes (name, value)) with
            | none => .error .requestTooLarge
            | some headBytes =>
                if maxHeadBytes < headBytes then .error .requestTooLarge
                else (state.1.append? name value).elim (.error .unwound) fun parsed =>
                  .ok (parsed, headBytes)

/-- `parse_request_headers`. -/
def parseRequestHeaders (target : Target) (headers : List HeaderItem) (maxHeadBytes : Nat) :
    Except SendError HeaderMap := do
  let (parsed, _) ← headers.foldlM (parseRequestHeader target maxHeadBytes) (∅, 0)
  return parsed

/-- `prepare_request`. -/
def prepareRequest (target : Target) (parser : UrlParser) (config : HttpEgressConfig)
    (allowedOrigins : Finset Bytes) (request : SendRequest) : Except SendError PreparedRequest :=
  if 32 < request.method.length ∨ 4096 < request.url.length then .error .invalidRequest
  else match Method.fromBytes request.method with
    | none => .error .invalidRequest
    | some method =>
        if method = .connect ∨ method = .trace then .error .invalidRequest
        else match parser.parse request.url with
          | none => .error .invalidRequest
          | some url =>
              if !url.username.isEmpty || url.password.isSome || url.fragment.isSome then
                .error .invalidRequest
              else match requestOrigin url with
                | none => .error .invalidRequest
                | some origin =>
                    if origin ∉ allowedOrigins then .error .destinationNotAllowed
                    else if config.maxRequestBodyBytes < request.body.length then
                      .error .requestTooLarge
                    else do
                      let headers ← parseRequestHeaders target request.headers
                        config.maxRequestHeadBytes
                      return ⟨method, url, headers, request.body⟩

/-- A prepared request keeps the method it was given. -/
theorem method_of_prepareRequest {target : Target} {parser : UrlParser}
    {config : HttpEgressConfig} {allowedOrigins : Finset Bytes} {request : SendRequest}
    {prepared : PreparedRequest}
    (accepted : prepareRequest target parser config allowedOrigins request = .ok prepared) :
    prepared.method.token = request.method := by
  rw [prepareRequest] at accepted
  split at accepted
  · cases accepted
  · split at accepted
    · cases accepted
    · next method parsed =>
      have token : method.token = request.method := by
        rw [Method.fromBytes] at parsed
        split at parsed
        · cases parsed
          rfl
        · cases parsed
      split at accepted
      · cases accepted
      · split at accepted
        · cases accepted
        · split at accepted
          · cases accepted
          · split at accepted
            · cases accepted
            · split at accepted
              · cases accepted
              · split at accepted
                · cases accepted
                · obtain ⟨headers, -, built⟩ := Result.bind_eq_ok.mp accepted
                  cases built
                  exact token

/-! ### Response headers -/

/-- One name that a `Connection` value nominates. -/
def nominateName (nominated : Finset Bytes) (name : Bytes) : Except SendError (Finset Bytes) :=
  match HeaderName.fromBytes name with
  | none => .error .transportFailure
  | some header => .ok (insert header.text nominated)

/-- The pieces of a `Connection` value. -/
def nominations (text : Bytes) : List Bytes :=
  ((Text.split 44 text).map Text.trim).filter fun name => !name.isEmpty

/-- One `Connection` field. -/
def nominateField (nominated : Finset Bytes) (value : HeaderValue) :
    Except SendError (Finset Bytes) :=
  match value.toStr with
  | none => .error .transportFailure
  | some text => (nominations text).foldlM nominateName nominated

/-- The first loop of `response_headers`. -/
def connectionHeaders (headers : HeaderMap) : Except SendError (Finset Bytes) :=
  (headers.getAll .connection).foldlM nominateField ∅

/-- Whether a response header reaches the application. -/
def passes (nominated : Finset Bytes) (field : HeaderName × HeaderValue) : Bool :=
  !(forbiddenRequestHeaders.contains field.1.text || decide (field.1.text ∈ nominated))

/-- One round of the second loop of `response_headers`. -/
def responseHeader (target : Target) (maxHeadBytes : Nat) (nominated : Finset Bytes)
    (state : List HeaderItem × Nat) (field : HeaderName × HeaderValue) :
    Except SendError (List HeaderItem × Nat) :=
  if !passes nominated field then .ok state
  else match checkedAdd target.usizeBits state.2 (fieldBytes field) with
    | none => .error .responseTooLarge
    | some headBytes =>
        if maxHeadBytes < headBytes then .error .responseTooLarge
        else match field.2.toStr with
          | none => .error .transportFailure
          | some value => .ok (state.1 ++ [⟨field.1.text, value⟩], headBytes)

/-- `response_headers`. -/
def responseHeaders (target : Target) (headers : HeaderMap) (maxHeadBytes : Nat) :
    Except SendError (List HeaderItem) := do
  let nominated ← connectionHeaders headers
  let (result, _) ← headers.toList.foldlM (responseHeader target maxHeadBytes nominated) ([], 0)
  return result

/-! ### What the response filter returns -/

/-- The names that a piece of a `Connection` value stands for: one, or none. -/
def namedBy (piece : Bytes) : Finset Bytes :=
  ((HeaderName.fromBytes piece).map HeaderName.text).toFinset

/-- All names that the `Connection` fields nominate. -/
def nominatedBy (headers : HeaderMap) : Finset Bytes :=
  (headers.getAll .connection).toFinset.biUnion fun value =>
    (nominations value.bytes).toFinset.biUnion namedBy

/-- Every `Connection` field is a list of header names. -/
def ConnectionValid (headers : HeaderMap) : Prop :=
  ∀ value ∈ headers.getAll .connection, value.toStr.isSome = true ∧
    ∀ piece ∈ nominations value.bytes, (HeaderName.fromBytes piece).isSome = true

theorem nominateName_eq_ok {nominated final : Finset Bytes} {piece : Bytes} :
    nominateName nominated piece = .ok final ↔
      (HeaderName.fromBytes piece).isSome = true ∧ final = nominated ∪ namedBy piece := by
  rw [nominateName, namedBy]
  cases HeaderName.fromBytes piece with
  | none => simp
  | some header =>
      simp only [Except.ok.injEq, Option.isSome_some, true_and, Option.map_some,
        Option.toFinset_some]
      rw [Finset.union_comm, ← Finset.insert_eq, eq_comm]

theorem nominateField_eq_ok {nominated final : Finset Bytes} {value : HeaderValue} :
    nominateField nominated value = .ok final ↔
      (value.toStr.isSome = true ∧
        ∀ piece ∈ nominations value.bytes, (HeaderName.fromBytes piece).isSome = true) ∧
      final = nominated ∪ (nominations value.bytes).toFinset.biUnion namedBy := by
  rw [nominateField]
  cases read : value.toStr with
  | none => simp
  | some text =>
      obtain ⟨rfl, _⟩ := HeaderValue.toStr_eq_some_iff.mp read
      simp only [Option.isSome_some, true_and]
      apply Result.foldlM_union
      intro state piece next
      exact nominateName_eq_ok

theorem connectionHeaders_eq_ok {headers : HeaderMap} {final : Finset Bytes} :
    connectionHeaders headers = .ok final ↔
      ConnectionValid headers ∧ final = nominatedBy headers := by
  rw [connectionHeaders, ConnectionValid, nominatedBy, ← Finset.empty_union (Finset.biUnion _ _)]
  apply Result.foldlM_union
  intro state value next
  exact nominateField_eq_ok

/-- A kept header as the application sees it. -/
def headerItem (field : HeaderName × HeaderValue) : HeaderItem := ⟨field.1.text, field.2.bytes⟩

/-- The result so far, with the field if it is kept. -/
def keepField (nominated : Finset Bytes) (done : List HeaderItem)
    (field : HeaderName × HeaderValue) : List HeaderItem :=
  if passes nominated field then done ++ [headerItem field] else done

private theorem responseHeader_eq_ok {target : Target} {limit : Nat}
    {nominated : Finset Bytes} (fits : limit + 1 < 2 ^ target.usizeBits)
    (field : HeaderName × HeaderValue) (state next : List HeaderItem × Nat)
    (solvent : state.2 ≤ limit) :
    responseHeader target limit nominated state field = .ok next ↔
      (passes nominated field = true → field.2.toStr.isSome = true) ∧
        state.2 + (if passes nominated field then fieldBytes field else 0) ≤ limit ∧
        next = (keepField nominated state.1 field,
          state.2 + if passes nominated field then fieldBytes field else 0) := by
  rw [responseHeader, keepField]
  cases kept : passes nominated field with
  | false =>
      simp only [Bool.not_false, if_true, Except.ok.injEq, Bool.false_eq_true, false_imp_iff,
        if_false, Nat.add_zero, solvent, true_and]
      exact eq_comm
  | true =>
      simp only [Bool.not_true, Bool.false_eq_true, if_false, if_true, true_imp_iff]
      by_cases paid : state.2 + fieldBytes field ≤ limit
      · rw [checkedAdd, if_pos (by omega)]
        simp only [if_neg (Nat.not_lt.mpr paid), paid, true_and]
        cases read : field.2.toStr with
        | none => simp
        | some text =>
            obtain ⟨rfl, _⟩ := HeaderValue.toStr_eq_some_iff.mp read
            simp only [Except.ok.injEq, Option.isSome_some, true_and, headerItem]
            exact eq_comm
      · simp only [paid, false_and, and_false, iff_false]
        rw [checkedAdd]
        by_cases exact : state.2 + fieldBytes field < 2 ^ target.usizeBits
        · rw [if_pos exact]
          simp only [if_pos (Nat.lt_of_not_le paid)]
          simp
        · rw [if_neg exact]
          simp

private theorem foldl_keepField (nominated : Finset Bytes)
    (fields : List (HeaderName × HeaderValue)) (done : List HeaderItem) :
    fields.foldl (keepField nominated) done =
      done ++ (fields.filter (passes nominated)).map headerItem := by
  induction fields generalizing done with
  | nil => simp
  | cons field rest ih =>
      rw [List.foldl_cons, ih, keepField]
      by_cases kept : passes nominated field = true
      · rw [if_pos kept, List.filter_cons_of_pos kept, List.map_cons, List.append_assoc,
          List.singleton_append]
      · rw [if_neg kept, List.filter_cons_of_neg kept]

private theorem foldlM_responseHeader {target : Target} {limit : Nat} {nominated : Finset Bytes}
    (fits : limit + 1 < 2 ^ target.usizeBits) (fields : List (HeaderName × HeaderValue))
    (final : List HeaderItem × Nat) :
    fields.foldlM (responseHeader target limit nominated) ([], 0) = .ok final ↔
      (∀ field ∈ fields.filter (passes nominated), field.2.toStr.isSome = true) ∧
        Budget.total fieldBytes (fields.filter (passes nominated)) ≤ limit ∧
        final = ((fields.filter (passes nominated)).map headerItem,
          Budget.total fieldBytes (fields.filter (passes nominated))) := by
  rw [Budget.foldlM_eq_ok (fun field _ => responseHeader_eq_ok fits field) (Nat.zero_le limit),
    foldl_keepField, Budget.total_skip, Nat.zero_add, List.nil_append]
  simp only [List.mem_filter, and_imp]

/-- The response headers that reach the application. -/
def keptFields (headers : HeaderMap) : List (HeaderName × HeaderValue) :=
  headers.toList.filter (passes (nominatedBy headers))

/-- The response filter succeeds when the `Connection` fields are lists of names,
what is kept is text, and what is kept fits the head budget. -/
theorem responseHeaders_eq_ok {target : Target} {headers : HeaderMap} {limit : Nat}
    {result : List HeaderItem} (fits : limit + 1 < 2 ^ target.usizeBits) :
    responseHeaders target headers limit = .ok result ↔
      ConnectionValid headers ∧ (∀ field ∈ keptFields headers, field.2.toStr.isSome = true) ∧
        Budget.total fieldBytes (keptFields headers) ≤ limit ∧
        result = (keptFields headers).map headerItem := by
  rw [responseHeaders, Result.bind_eq_ok]
  constructor
  · rintro ⟨nominated, found, filtered⟩
    obtain ⟨valid, rfl⟩ := connectionHeaders_eq_ok.mp found
    obtain ⟨final, looped, returned⟩ := Result.bind_eq_ok.mp filtered
    obtain ⟨visible, paid, rfl⟩ := (foldlM_responseHeader fits _ final).mp looped
    cases returned
    exact ⟨valid, visible, paid, rfl⟩
  · rintro ⟨valid, visible, paid, rfl⟩
    refine ⟨nominatedBy headers, connectionHeaders_eq_ok.mpr ⟨valid, rfl⟩, ?_⟩
    exact Result.bind_eq_ok.mpr
      ⟨_, (foldlM_responseHeader fits _ _).mpr ⟨visible, paid, rfl⟩, rfl⟩

/-! ### Maps with the same fields -/

section SameFields

variable {left right : HeaderMap} (same : left.toList.Perm right.toList)

include same

theorem mem_getAll_of_perm (name : HeaderName) (value : HeaderValue) :
    value ∈ left.getAll name ↔ value ∈ right.getAll name := by
  rw [MultiMap.mem_getAll_iff, MultiMap.mem_getAll_iff, same.mem_iff]

theorem connectionValid_of_perm : ConnectionValid left ↔ ConnectionValid right := by
  simp only [ConnectionValid, mem_getAll_of_perm same]

theorem nominatedBy_of_perm : nominatedBy left = nominatedBy right := by
  have values : (left.getAll .connection).toFinset = (right.getAll .connection).toFinset := by
    apply Finset.ext
    intro value
    rw [List.mem_toFinset, List.mem_toFinset, mem_getAll_of_perm same]
  rw [nominatedBy, nominatedBy, values]

/-- Maps that list the same fields keep the same fields. -/
theorem keptFields_perm : (keptFields left).Perm (keptFields right) := by
  rw [keptFields, keptFields, nominatedBy_of_perm same]
  exact same.filter _

end SameFields

end Egress
