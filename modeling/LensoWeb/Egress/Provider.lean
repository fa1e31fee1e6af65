import LensoWeb.Egress.Policy
import LensoWeb.Foundation.BoundedRead

/-!
# The native Egress provider

A prepared request goes out through `reqwest`, and the response is read back
under the configured limits. The client itself is outside this development: it
is any function from prepared requests to received responses. Permits and
cancellation wrap a call from outside and do not look at the response.
-/

namespace Egress

open Foundation Http

/-- A `reqwest::Error`, of which only `is_timeout` is read. -/
inductive TransportError where
  | timeout
  | other
deriving DecidableEq

/-- `classify_transport_error`. -/
def classifyTransportError : TransportError → SendError
  | .timeout => .timeout
  | .other => .transportFailure

/-- A `reqwest::Response`. `contentLength` is the exact size of the body, where it
is known ahead; `chunks` is what successive calls of `chunk` deliver. -/
structure ReceivedResponse where
  status : StatusCode
  headers : HeaderMap
  contentLength : Option Nat
  chunks : List (Except TransportError Bytes)

namespace HttpEgressProvider

/-- The loop of `read_bounded_body`, from the third chunk on. -/
def readRemaining (limit : Nat) : Bytes → List (Except TransportError Bytes) →
    Except SendError Bytes
  | body, [] => .ok body
  | _, .error failure :: _ => .error (classifyTransportError failure)
  | body, .ok chunk :: rest =>
      if limit < saturatingAdd Target.native.usizeBits body.length chunk.length then
        .error .responseTooLarge
      else readRemaining limit (body ++ chunk) rest

/-- `read_bounded_body`: a body of one chunk is returned as it came. -/
def readBoundedBody (limit : Nat) : List (Except TransportError Bytes) → Except SendError Bytes
  | [] => .ok []
  | .error failure :: _ => .error (classifyTransportError failure)
  | .ok first :: rest =>
      if limit < first.length then .error .responseTooLarge
      else match rest with
        | [] => .ok first
        | .error failure :: _ => .error (classifyTransportError failure)
        | .ok second :: rest =>
            if limit < saturatingAdd Target.native.usizeBits first.length second.length then
              .error .responseTooLarge
            else readRemaining limit (first ++ second) rest

/-- `HttpEgressProvider::read_response`. -/
def readResponse (config : HttpEgressConfig) (response : ReceivedResponse) :
    Except SendError SendResponse := do
  let headers ← responseHeaders .native response.headers config.maxResponseHeadBytes
  if response.contentLength.any (config.maxResponseBodyBytes < ·) then
    .error .responseTooLarge
  else
    let body ← readBoundedBody config.maxResponseBodyBytes response.chunks
    return ⟨body, headers, response.status.code⟩

/-- `HttpEgressProvider::execute`. -/
def execute (client : PreparedRequest → Except TransportError ReceivedResponse)
    (parser : UrlParser) (config : HttpEgressConfig) (allowedOrigins : Finset Bytes)
    (request : SendRequest) : Except SendError SendResponse := do
  let prepared ← prepareRequest .native parser config allowedOrigins request
  let response ← (client prepared).mapError classifyTransportError
  readResponse config response

/-! ### What is read of a body -/

variable {limit : Nat}

/-- What the read of a body returns. -/
def bodyResult : ReadEnd TransportError UInt8 → Except SendError Bytes
  | .whole contents => .ok contents
  | .tooLarge => .error .responseTooLarge
  | .failed failure => .error (classifyTransportError failure)

/-- Sums of lengths are exact: the limit leaves room to exceed it, or all data of the
chunks fits the address space. -/
def Measurable (limit : Nat) (done : Bytes) (chunks : List (Except TransportError Bytes)) : Prop :=
  limit + 1 < 2 ^ Target.native.usizeBits ∨
    done.length + Budget.total (fun chunk => (chunk.toOption.getD []).length) chunks <
      2 ^ Target.native.usizeBits

theorem Measurable.lt_iff {done chunk : Bytes} {rest : List (Except TransportError Bytes)}
    (measurable : Measurable limit done (.ok chunk :: rest)) :
    limit < saturatingAdd Target.native.usizeBits done.length chunk.length ↔
      limit < done.length + chunk.length := by
  obtain room | short := measurable
  · exact lt_saturatingAdd_iff room
  · rw [Budget.total_cons, ← Nat.add_assoc] at short
    have small : done.length + chunk.length < 2 ^ Target.native.usizeBits :=
      (Nat.le_add_right _ _).trans_lt short
    rw [saturatingAdd_eq small]

theorem Measurable.next {done chunk : Bytes} {rest : List (Except TransportError Bytes)}
    (measurable : Measurable limit done (.ok chunk :: rest)) :
    Measurable limit (done ++ chunk) rest := by
  refine measurable.imp_right fun short => ?_
  rw [Budget.total_cons, ← Nat.add_assoc] at short
  rw [List.length_append]
  exact short

theorem readRemaining_eq {chunks : List (Except TransportError Bytes)} {body : Bytes}
    (measurable : Measurable limit body chunks) :
    readRemaining limit body chunks = bodyResult (BoundedRead.readFrom id limit body chunks) := by
  induction chunks generalizing body with
  | nil => rfl
  | cons chunk rest ih =>
      cases chunk with
      | error failure => rfl
      | ok chunk =>
          simp only [readRemaining, BoundedRead.readFrom, measurable.lt_iff, id]
          split
          · rfl
          · exact ih measurable.next

/-- The body is read chunk by chunk; the first two are read as the loop would read them
from an empty body. -/
theorem readBoundedBody_eq {chunks : List (Except TransportError Bytes)}
    (measurable : Measurable limit [] chunks) :
    readBoundedBody limit chunks = bodyResult (BoundedRead.readFrom id limit [] chunks) := by
  suffices unrolled : readBoundedBody limit chunks = readRemaining limit [] chunks by
    rw [unrolled, readRemaining_eq measurable]
  rcases chunks with _ | ⟨_ | first, rest⟩
  · rfl
  · rfl
  · have first := measurable.lt_iff
    rw [List.length_nil, Nat.zero_add] at first
    simp only [readRemaining, List.length_nil, first, List.nil_append]
    rcases rest with _ | ⟨_ | second, rest⟩ <;> simp only [readBoundedBody, readRemaining]

/-- A body that arrives whole is returned if and only if it is within the limit,
however it is cut into chunks. -/
theorem readBoundedBody_data (fits : limit + 1 < 2 ^ Target.native.usizeBits) (data : List Bytes)
    (result : Bytes) :
    readBoundedBody limit (data.map .ok) = .ok result ↔
      data.flatten.length ≤ limit ∧ result = data.flatten := by
  rw [readBoundedBody_eq (.inl fits), BoundedRead.readFrom_map_ok (Nat.zero_le limit),
    List.nil_append, List.flatMap_id]
  split
  · next small =>
    simp only [bodyResult, Except.ok.injEq, small, true_and]
    exact eq_comm
  · next large => exact iff_of_false nofun fun whole => large whole.1

/-- What the native path makes of a response that arrives whole. -/
theorem readResponse_eq_ok {config : HttpEgressConfig} {response : ReceivedResponse}
    {data : List Bytes} {result : SendResponse} (limits : config.limitsValid)
    (whole : response.chunks = data.map .ok)
    (truthful : ∀ length, response.contentLength = some length → length = data.flatten.length) :
    readResponse config response = .ok result ↔
      ConnectionValid response.headers ∧
        (∀ field ∈ keptFields response.headers, field.2.toStr.isSome = true) ∧
        Budget.total fieldBytes (keptFields response.headers) ≤ config.maxResponseHeadBytes ∧
        data.flatten.length ≤ config.maxResponseBodyBytes ∧
        result = ⟨data.flatten, (keptFields response.headers).map headerItem,
          response.status.code⟩ := by
  obtain ⟨-, ⟨-, bodyBounded⟩, -, ⟨-, headBounded⟩, -⟩ := limits
  have headFits := Target.native.limit_lt (headBounded.trans (by decide))
  have bodyFits := Target.native.limit_lt bodyBounded
  rw [readResponse, Result.bind_eq_ok, whole]
  constructor
  · rintro ⟨headers, filtered, continued⟩
    obtain ⟨valid, visible, paid, rfl⟩ := (responseHeaders_eq_ok headFits).mp filtered
    split at continued
    · cases continued
    · obtain ⟨body, read, returned⟩ := Result.bind_eq_ok.mp continued
      obtain ⟨bounded, rfl⟩ := (readBoundedBody_data bodyFits data body).mp read
      cases returned
      exact ⟨valid, visible, paid, bounded, rfl⟩
  · rintro ⟨valid, visible, paid, bounded, rfl⟩
    refine ⟨_, (responseHeaders_eq_ok headFits).mpr ⟨valid, visible, paid, rfl⟩, ?_⟩
    rw [if_neg]
    · exact Result.bind_eq_ok.mpr
        ⟨_, (readBoundedBody_data bodyFits data _).mpr ⟨bounded, rfl⟩, rfl⟩
    · rw [Option.any_eq_true]
      rintro ⟨length, known, large⟩
      rw [truthful length known] at large
      exact absurd (of_decide_eq_true large) (Nat.not_lt.mpr bounded)

end HttpEgressProvider

end Egress
