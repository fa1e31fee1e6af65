import LensoWeb.Ingress.Dispatch
import LensoWeb.Ingress.ResponseStream
import LensoWeb.Ingress.Server

/-!
# The event transport

One request that a host hands over with its whole body. The checks of the native
transport are made here on the buffered body and in another order; a streaming
response or a WebSocket session keeps the concurrency permit of its request.
-/

namespace Ingress

open Foundation Http Kernel

/-- `WebIngressEventBody`. -/
inductive WebIngressEventBody where
  | buffered (bytes : Bytes)
  | streaming (stream : WebIngressResponseStream)
  | webSocket (session : WebSocketSession)

/-- What surrounds an event request. `accepting` is asked again behind the permit. -/
structure EventSurroundings where
  isOpen : Bool
  isAccepting : Bool
  cancelled : Bool
  concurrency : Semaphore
  stillAccepting : Bool

/-- The App is ready, nothing is cancelled and permits are free. -/
def EventSurroundings.free : EventSurroundings := ⟨true, true, false, .available, true⟩

/-- `EventState`, without the handles that the surroundings stand for. -/
structure EventState (η : Type) where
  config : WebIngressConfig
  routes : RouteTable η
  middleware : List (WebIngressMiddleware η)

variable {η : Type}

/-- The body of the event response; `permit` says whether the request holds one. -/
def IngressBody.toEvent (body : IngressBody) (permit : Bool) : WebIngressEventBody :=
  match body with
  | .webSocket upgrade => .webSocket { upgrade.session with permit := permit }
  | .buffered bytes => .buffered bytes
  | .streaming stream => .streaming { WebIngressResponseStream.new stream with permit := permit }

namespace EventState

variable (external : External) (state : EventState η) (around : EventSurroundings)

/-- The guarded part of `handle_response`, with whether the request holds a permit. -/
def work (request : Request Bytes) (headLen : Nat) (sessionCookie : Option SessionCookiePolicy) :
    Task (World η) (IngressResponse × Bool) := do
  if !around.isOpen || !around.isAccepting then return (unavailable, false)
  else if headLen > state.config.maxRequestHeadBytes then return (headTooLarge, false)
  else if around.cancelled then return (unavailable, false)
  else if !(← acquireOwned around.concurrency) then return (unavailable, false)
  else if !around.stillAccepting then return (unavailable, true)
  else if oversized request state.config.maxRequestBodyBytes then return (payloadTooLarge, true)
  else
    let response ← dispatchBuffered external request sessionCookie state.routes state.middleware
    return (response, true)

/-- The end of `handle_response`. -/
def reply (method : Method) (requestId : HeaderValue) (response : IngressResponse)
    (permit : Bool) : Task (World η) (Except RuntimeFailure (Response WebIngressEventBody)) := do
  let response ← response.normalizeBody method
  let response ← Task.expect (withTransportHeaders
    ⟨response.status, response.headers, response.body.toEvent permit⟩ requestId)
  return .ok response

end EventState

/-- `handle_response`. Without an active state the call fails. -/
def handleResponse (external : External) (active : Option (EventState η))
    (around : EventSurroundings) (request : Request Bytes) :
    Task (World η) (Except RuntimeFailure (Response WebIngressEventBody)) :=
  match active with
  | none => return .error (pluginFailure "event ingress is not active")
  | some state => do
      let sessionCookie ← Task.expect state.config.sessionCookiePolicy
      let headLen := canonicalRequestHeadLen request
      let (headers, requestId) ← replaceRequestId request.headers
      let (response, permit) ←
        state.work external around { request with headers := headers } headLen sessionCookie
      EventState.reply request.method requestId response permit

/-- A call in an active state with a session policy, which may be to want none. -/
theorem handleResponse_of_policy (external : External) {state : EventState η}
    (around : EventSurroundings) (request : Request Bytes)
    {sessionCookie : Option SessionCookiePolicy}
    (known : state.config.sessionCookiePolicy = some sessionCookie) :
    handleResponse external (some state) around request =
      replaceRequestId request.headers >>= fun drawn =>
        state.work external around { request with headers := drawn.1 }
          (canonicalRequestHeadLen request) sessionCookie >>= fun answered =>
        EventState.reply request.method drawn.2 answered.1 answered.2 := by
  rw [handleResponse]
  dsimp only
  rw [known]
  rfl

/-! ### The end of a call -/

/-- The end of a request on either transport, up to the type of the body. -/
def sendResponse (method : Method) (requestId : HeaderValue) (response : IngressResponse) :
    Task (World η) (Response IngressBody) := do
  let response ← response.normalizeBody method
  Task.expect
    (withTransportHeaders ⟨response.status, response.headers, response.body⟩ requestId)

/-- What the body is does not matter to the fields that a transport adds. -/
theorem withTransportHeaders_map {β γ : Type} (response : Response β) (change : β → γ)
    (requestId : HeaderValue) :
    withTransportHeaders ⟨response.status, response.headers, change response.body⟩ requestId =
      (withTransportHeaders response requestId).map fun sent =>
        ⟨sent.status, sent.headers, change sent.body⟩ := by
  unfold withTransportHeaders
  cases response.headers.insert? requestIdHeader requestId with
  | none => rfl
  | some headers =>
      dsimp only [Option.bind_eq_bind, Option.bind_some]
      cases headers.insert? nosniffHeader nosniff <;> rfl

/-- The event transport puts the body into its own type. -/
theorem eventReply_eq (method : Method) (requestId : HeaderValue) (response : IngressResponse)
    (permit : Bool) :
    (EventState.reply method requestId response permit : Task (World η) _) = (do
      let sent ← sendResponse method requestId response
      return .ok ⟨sent.status, sent.headers, sent.body.toEvent permit⟩) := by
  simp only [sendResponse, EventState.reply, bind_assoc]
  congr 1
  funext normal
  have mapped := withTransportHeaders_map ⟨normal.status, normal.headers, normal.body⟩
    (fun body => body.toEvent permit) requestId
  rw [mapped]
  cases withTransportHeaders ⟨normal.status, normal.headers, normal.body⟩ requestId <;> rfl

/-- A body as a connection takes it once a session has been moved away. -/
def IngressBody.onConnection : IngressBody → ResponseBody
  | buffered bytes => .buffered bytes
  | streaming stream => .streaming (.new stream)
  | webSocket _ => .buffered []

theorem intoResponse_of_noSocket {response : IngressResponse}
    (noSocket : ∀ upgrade, response.body ≠ .webSocket upgrade) :
    (response.intoResponse : Task (World η) _) =
      pure ⟨response.status, response.headers, response.body.onConnection⟩ := by
  obtain ⟨status, headers, body⟩ := response
  cases body with
  | buffered bytes => rfl
  | streaming stream => rfl
  | webSocket upgrade => exact absurd rfl (noSocket upgrade)

/-- The native transport does so as well with a response that owns no session. -/
theorem nativeReply_eq (service : IngressService η) (method : Method) (upgrading : Bool)
    (requestId : HeaderValue) {response : IngressResponse}
    (noSocket : ∀ upgrade, response.body ≠ .webSocket upgrade) :
    service.reply method upgrading requestId response = (do
      let sent ← sendResponse method requestId response
      return ⟨⟨sent.status, sent.headers, sent.body.onConnection⟩, none⟩) := by
  rw [IngressService.reply, service.handOverSocket_of_noSocket upgrading noSocket, pure_bind,
    sendResponse, bind_assoc]
  funext world
  rw [Task.bind_apply, Task.bind_apply]
  rcases normalized : response.normalizeBody method world with ⟨normal | _ | _, after⟩
  · have moved := IngressResponse.noSocket_of_normalizeBody noSocket normalized
    have mapped := withTransportHeaders_map ⟨normal.status, normal.headers, normal.body⟩
      IngressBody.onConnection requestId
    simp only [intoResponse_of_noSocket moved, pure_bind]
    rw [mapped]
    cases withTransportHeaders ⟨normal.status, normal.headers, normal.body⟩ requestId <;> rfl
  · rfl
  · rfl

end Ingress
