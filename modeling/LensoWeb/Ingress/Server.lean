import LensoWeb.Foundation.BoundedRead
import LensoWeb.Ingress.Dispatch
import LensoWeb.Ingress.ResponseStream
import LensoWeb.Ingress.Transport

/-!
# The native transport

One request on a connection: limits, permits, the bounded read of its body,
dispatch, and the response that goes back to the connection. A WebSocket session
is moved into the socket task of the connection.
-/

namespace Ingress

open Foundation Http Kernel

/-! ### Request bodies -/

/-- One frame of a request body. -/
inductive BodyFrame where
  | data (bytes : Bytes)
  | trailers
deriving DecidableEq

/-- A request body: its frames, an `error` being a transport error, and whether it
reports its end before it is read. A body that does has no frames. -/
structure IncomingBody where
  frames : List (Except Unit BodyFrame)
  endStream : Bool
  ended : endStream = true → frames = []

/-- `BodyReadError`. -/
inductive BodyReadError where
  | tooLarge
  | invalid
deriving DecidableEq

/-- The variables of the loop in `collect_bounded_body`. -/
structure Collecting where
  first : Option Bytes
  combined : Option Bytes
  total : Nat

/-- Add the data of one frame. The capacity that the source reserves for the
combined buffer does not show in its contents. -/
def Collecting.extend (state : Collecting) (data : Bytes) (total : Nat) : Collecting :=
  match state.combined, state.first with
  | some buffer, first => ⟨first, some (buffer ++ data), total⟩
  | none, some initial => ⟨none, some (initial ++ data), total⟩
  | none, none => ⟨some data, none, total⟩

/-- One round of `collect_bounded_body`. -/
def collectFrame (limit : Nat) (state : Collecting) (frame : Except Unit BodyFrame) :
    Except BodyReadError Collecting :=
  match frame with
  | .error _ => .error .invalid
  | .ok .trailers => .ok state
  | .ok (.data data) =>
      let total := state.total + data.length
      if 2 ^ 64 ≤ total then .error .tooLarge
      else if limit < total then .error .tooLarge
      else if data.isEmpty then .ok { state with total := total }
      else .ok (state.extend data total)

/-- `collect_bounded_body`. -/
def collectBoundedBody (frames : List (Except Unit BodyFrame)) (limit : Nat) :
    Except BodyReadError Bytes := do
  let state ← frames.foldlM (collectFrame limit) ⟨none, none, 0⟩
  return match state.combined, state.first with
    | some buffer, _ => buffer
    | none, some data => data
    | none, none => []

/-! ### What is read of a request body -/

/-- The data of a frame. -/
def frameData : Except Unit BodyFrame → Bytes
  | .ok (.data bytes) => bytes
  | _ => []

/-- The data of a frame that arrived. -/
def BodyFrame.bytes : BodyFrame → Bytes
  | data bytes => bytes
  | trailers => []

theorem frameData_ok (frame : BodyFrame) : frameData (.ok frame) = frame.bytes := by
  cases frame <;> rfl

/-- The data of all frames. -/
def framesData (frames : List (Except Unit BodyFrame)) : Bytes := frames.flatMap frameData

/-- No frame is a transport error. -/
def Intact (frames : List (Except Unit BodyFrame)) : Prop := .error () ∉ frames

instance (frames : List (Except Unit BodyFrame)) : Decidable (Intact frames) :=
  inferInstanceAs (Decidable (_ ∉ _))

/-- What has been collected. -/
def Collecting.contents (state : Collecting) : Bytes :=
  match state.combined, state.first with
  | some buffer, _ => buffer
  | none, some data => data
  | none, none => []

/-- The count is right and within the limit. -/
structure Collecting.Fits (state : Collecting) (limit : Nat) : Prop where
  counted : state.total = state.contents.length
  bounded : state.total ≤ limit

theorem Collecting.contents_extend (state : Collecting) (data : Bytes) (total : Nat) :
    (state.extend data total).contents = state.contents ++ data := by
  obtain ⟨_ | first, _ | combined, count⟩ := state <;> rfl

section Collect

variable {limit : Nat} {state : Collecting}

/-- A frame that fits is added to the contents. -/
theorem collectFrame_of_le (small : limit < 2 ^ 64) {frame : Except Unit BodyFrame}
    (intact : frame ≠ .error ()) (fits : state.Fits limit)
    (room : state.contents.length + (frameData frame).length ≤ limit) :
    ∃ next, collectFrame limit state frame = .ok next ∧ next.Fits limit ∧
      next.contents = state.contents ++ frameData frame := by
  have counted := fits.counted
  obtain _ | data | _ := frame
  · exact absurd rfl intact
  · have total : state.total + data.length ≤ limit := by rwa [counted]
    have checked : ¬ 2 ^ 64 ≤ state.total + data.length := by omega
    simp only [collectFrame, if_neg checked, if_neg (Nat.not_lt.mpr total)]
    cases data with
    | nil => exact ⟨_, rfl, ⟨counted, total⟩, (List.append_nil _).symm⟩
    | cons byte rest =>
        refine ⟨_, rfl, ⟨?_, ?_⟩, state.contents_extend _ _⟩
        · rw [state.contents_extend, List.length_append, ← counted]
          obtain ⟨_ | first, _ | combined, count⟩ := state <;> rfl
        · obtain ⟨_ | first, _ | combined, count⟩ := state <;> exact total
  · exact ⟨state, rfl, fits, (List.append_nil _).symm⟩

/-- A frame that does not fit ends the read. -/
theorem collectFrame_of_lt {frame : Except Unit BodyFrame} (fits : state.Fits limit)
    (full : limit < state.contents.length + (frameData frame).length) :
    collectFrame limit state frame = .error .tooLarge := by
  have counted := fits.counted
  have bounded := fits.bounded
  obtain _ | data | _ := frame
  · simp only [frameData, List.length_nil] at full
    omega
  · have total : limit < state.total + data.length := by rwa [counted]
    simp only [collectFrame, if_pos total, ite_self]
  · simp only [frameData, List.length_nil] at full
    omega

end Collect

/-- What the read of a body returns. -/
def bodyResult : ReadEnd Unit UInt8 → Except BodyReadError Bytes
  | .whole contents => .ok contents
  | .tooLarge => .error .tooLarge
  | .failed () => .error .invalid

/-- The loop reads frame by frame. -/
theorem collectFrames_eq {limit : Nat} (small : limit < 2 ^ 64)
    (frames : List (Except Unit BodyFrame)) {state : Collecting} (fits : state.Fits limit) :
    (frames.foldlM (collectFrame limit) state).map Collecting.contents =
      bodyResult (BoundedRead.readFrom BodyFrame.bytes limit state.contents frames) := by
  induction frames generalizing state with
  | nil => rfl
  | cons item rest ih =>
      rw [List.foldlM_cons]
      cases item with
      | error _ => rfl
      | ok frame =>
          have intact : (.ok frame : Except Unit BodyFrame) ≠ .error () := nofun
          have same := frameData_ok frame
          by_cases room : state.contents.length + (frameData (.ok frame)).length ≤ limit
          · obtain ⟨next, collected, fits', contents⟩ := collectFrame_of_le small intact fits room
            rw [same] at room contents
            rw [collected, BoundedRead.readFrom_of_le room, ← contents]
            exact ih fits'
          · have exceeds := Nat.lt_of_not_le room
            rw [collectFrame_of_lt fits exceeds]
            rw [same] at exceeds
            rw [BoundedRead.readFrom_of_lt exceeds]
            rfl

/-- The body is read frame by frame. -/
theorem collectBoundedBody_readFrom {limit : Nat} (small : limit < 2 ^ 64)
    (frames : List (Except Unit BodyFrame)) :
    collectBoundedBody frames limit =
      bodyResult (BoundedRead.readFrom BodyFrame.bytes limit [] frames) := by
  have fits : Collecting.Fits ⟨none, none, 0⟩ limit := ⟨rfl, Nat.zero_le _⟩
  exact collectFrames_eq small frames fits

/-- The data of an intact body is read if it is within the limit. -/
theorem collectBoundedBody_eq {limit : Nat} (small : limit < 2 ^ 64)
    {frames : List (Except Unit BodyFrame)} (intact : Intact frames) :
    collectBoundedBody frames limit =
      if (framesData frames).length ≤ limit then .ok (framesData frames)
      else .error .tooLarge := by
  have arrives : frames ∈ Set.range (List.map (.ok : BodyFrame → Except Unit BodyFrame)) := by
    rw [Set.range_list_map]
    rintro (_ | frame) member
    · exact absurd member intact
    · exact ⟨frame, rfl⟩
  obtain ⟨arrived, rfl⟩ := arrives
  have data : framesData (arrived.map .ok) = arrived.flatMap BodyFrame.bytes := by
    rw [framesData, List.flatMap_map]
    exact List.flatMap_congr fun frame _ => frameData_ok frame
  rw [collectBoundedBody_readFrom small, BoundedRead.readFrom_map_ok (Nat.zero_le limit), data,
    List.nil_append]
  split <;> rfl

/-! ### The service -/

/-- How the read of a body ends beside its deadline and the cancellation token. -/
inductive BodyRead where
  | finished
  | deadline
  | cancelled
deriving DecidableEq

/-- What surrounds a native request. -/
structure NativeSurroundings where
  cancelled : Bool
  localConcurrency : Option Semaphore
  globalConcurrency : Semaphore
  bodyRead : BodyRead

/-- Nothing is cancelled, permits are free and the body arrives in time. -/
def NativeSurroundings.free : NativeSurroundings := ⟨false, none, .available, .finished⟩

/-- `IngressService`, without the handles that the surroundings stand for. -/
structure IngressService (η : Type) where
  config : WebIngressConfig
  middleware : List (WebIngressMiddleware η)
  routes : RouteTable η
  sessionCookie : Option SessionCookiePolicy

/-- `ResponseBody`. -/
inductive ResponseBody where
  | buffered (bytes : Bytes)
  | streaming (stream : WebIngressResponseStream)

/-- A response on a connection, with the session given to the socket task. -/
structure NativeResponse where
  response : Response ResponseBody
  socketTask : Option WebSocketSession

variable {η : Type}

/-- The session policy of a configuration; `none` is an unwinding `expect`. -/
def WebIngressConfig.sessionCookiePolicy (config : WebIngressConfig) :
    Option (Option SessionCookiePolicy) :=
  match config.sessionCookie with
  | none => some none
  | some policy => (SessionCookiePolicy.fromConfig policy).map some

/-- A validated configuration has a session policy or wants none. -/
theorem WebIngressConfig.sessionCookiePolicy_isSome {parser : UriParser}
    {config : WebIngressConfig} (valid : config.validate parser = .ok ()) :
    config.sessionCookiePolicy.isSome = true := by
  obtain ⟨-, -, -, -, cookie⟩ := of_validate valid
  unfold sessionCookiePolicy
  cases configured : config.sessionCookie with
  | none => rfl
  | some policy =>
      rw [Option.isSome_map]
      exact SessionCookiePolicy.fromConfig_isSome (cookie policy configured)

/-- `IngressResponse::into_response`. -/
def IngressResponse.intoResponse (response : IngressResponse) :
    Task (World η) (Response ResponseBody) :=
  match response.body with
  | .buffered bytes => return ⟨response.status, response.headers, .buffered bytes⟩
  | .webSocket upgrade => do
      World.cancel upgrade.session.stream
      return ⟨response.status, response.headers, .buffered []⟩
  | .streaming stream =>
      return ⟨response.status, response.headers, .streaming (.new stream)⟩

namespace IngressService

variable (external : External) (service : IngressService η) (around : NativeSurroundings)

/-- The service that `serve` builds; `none` is an unwinding `expect`. -/
def new (config : WebIngressConfig) (routes : RouteTable η)
    (middleware : List (WebIngressMiddleware η)) : Option (IngressService η) :=
  config.sessionCookiePolicy.map fun sessionCookie => ⟨config, middleware, routes, sessionCookie⟩

/-- The bounded read of a body, or the response that replaces it. -/
def readBody (body : IncomingBody) : Except IngressResponse Bytes :=
  if body.endStream then .ok []
  else
    match around.bodyRead with
    | .deadline => .error requestTimeout
    | .cancelled => .error unavailable
    | .finished =>
        match collectBoundedBody body.frames service.config.maxRequestBodyBytes with
        | .ok bytes => .ok bytes
        | .error .tooLarge => .error payloadTooLarge
        | .error .invalid => .error badRequest

/-- `IngressService::dispatch`. -/
def dispatch (request : Request IncomingBody) : Task (World η) IngressResponse :=
  if declaresTooMuch request.headers service.config.maxRequestBodyBytes then
    return payloadTooLarge
  else
    match service.readBody around request.body with
    | .error response => return response
    | .ok body =>
        dispatchBuffered external { request with body := body } service.sessionCookie
          service.routes service.middleware

/-- Move a WebSocket session into the socket task, or cancel it. -/
def handOverSocket (upgrading : Bool) (response : IngressResponse) :
    Task (World η) (IngressResponse × Option WebSocketSession) :=
  match response.body with
  | .webSocket upgrade =>
      if upgrading && service.config.websocket.isSome then
        return ({ response with body := .buffered [] }, some upgrade.session)
      else do
        World.cancel upgrade.session.stream
        return (unavailable, none)
  | _ => return (response, none)

/-- A response without a session passes through. -/
theorem handOverSocket_of_noSocket (upgrading : Bool) {response : IngressResponse}
    (noSocket : ∀ upgrade, response.body ≠ .webSocket upgrade) :
    service.handOverSocket upgrading response = pure (response, none) := by
  unfold handOverSocket
  split
  · next upgrade body => exact absurd body (noSocket upgrade)
  · rfl

/-- The end of `call`. -/
def reply (method : Method) (upgrading : Bool) (requestId : HeaderValue)
    (response : IngressResponse) : Task (World η) NativeResponse := do
  let handed ← service.handOverSocket upgrading response
  let response ← handed.1.normalizeBody method
  let response ← response.intoResponse
  let response ← Task.expect (withTransportHeaders response requestId)
  return ⟨response, handed.2⟩

/-- The local permit, where the lane has a budget of its own. -/
def acquireLocalPermit : Task (World η) Bool :=
  match around.localConcurrency with
  | some semaphore => acquireRequestPermit semaphore around.cancelled
  | none => return true

/-- `IngressService::call`. A request without a local permit is answered at once. -/
def call (request : Request IncomingBody) : Task (World η) NativeResponse := do
  let upgrading := request.headers.contains .upgrade
  let headLen := canonicalRequestHeadLen request
  let (headers, requestId) ← replaceRequestId request.headers
  if headLen > service.config.maxRequestHeadBytes then
    service.reply request.method upgrading requestId headTooLarge
  else if !(← acquireLocalPermit around) then
    let response ← unavailable.intoResponse
    let response ← Task.expect (withTransportHeaders response requestId)
    return ⟨response, none⟩
  else if !(← acquireRequestPermit around.globalConcurrency around.cancelled) then
    service.reply request.method upgrading requestId unavailable
  else
    let response ← service.dispatch external around { request with headers := headers }
    service.reply request.method upgrading requestId response

end IngressService

end Ingress
