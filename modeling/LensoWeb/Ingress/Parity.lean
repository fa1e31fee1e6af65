import LensoWeb.Ingress.Dispatch.Sockets
import LensoWeb.Ingress.Event

/-!
# Parity of the two transports

The native transport reads a body frame by frame, the event transport is handed
the whole body. Their checks are written twice and stand in different orders.
Where nothing is cancelled and permits are free, both return the same response
and leave the same world, WebSocket sessions aside.
-/

namespace Ingress

open Foundation Http Kernel

variable {η : Type}

/-! ### Surroundings -/

/-- A native request that is not cancelled, gets its permits and reads its body in time. -/
structure NativeSurroundings.Ready (around : NativeSurroundings) : Prop where
  running : around.cancelled = false
  localPermit : ∀ semaphore, around.localConcurrency = some semaphore → semaphore = .available
  globalPermit : around.globalConcurrency = .available
  inTime : around.bodyRead = .finished

/-- An event request to a ready App that is not cancelled and gets its permit. -/
structure EventSurroundings.Ready (around : EventSurroundings) : Prop where
  isOpen : around.isOpen = true
  isAccepting : around.isAccepting = true
  running : around.cancelled = false
  permit : around.concurrency = .available
  stillAccepting : around.stillAccepting = true

theorem NativeSurroundings.Ready.acquireLocalPermit {around : NativeSurroundings}
    (ready : around.Ready) :
    (IngressService.acquireLocalPermit around : Task (World η) Bool) = pure true := by
  unfold IngressService.acquireLocalPermit acquireRequestPermit
  cases lane : around.localConcurrency with
  | none => rfl
  | some semaphore =>
      rw [ready.running, ready.localPermit semaphore lane]
      rfl

theorem NativeSurroundings.Ready.acquireRequestPermit {around : NativeSurroundings}
    (ready : around.Ready) :
    (Ingress.acquireRequestPermit around.globalConcurrency around.cancelled :
      Task (World η) Bool) = pure true := by
  rw [ready.running, ready.globalPermit]
  rfl

/-! ### Agreement -/

/-- The same bytes, or the same stream. Only the permit that a stream carries is
particular to a transport. -/
inductive SameBody : ResponseBody → WebIngressEventBody → Prop where
  | buffered (bytes : Bytes) : SameBody (.buffered bytes) (.buffered bytes)
  | streaming (stream : WebIngressResponseStream) (permit : Bool) :
      SameBody (.streaming stream) (.streaming { stream with permit := permit })

/-- The same response, without a socket task. -/
structure SameResponse (native : NativeResponse) (event : Response WebIngressEventBody) :
    Prop where
  status : native.response.status = event.status
  headers : native.response.headers = event.headers
  body : SameBody native.response.body event.body
  noSocket : native.socketTask = none

/-- Both calls return the same response, or both end without one in the same way. -/
inductive SameOutcome : Outcome NativeResponse →
    Outcome (Except RuntimeFailure (Response WebIngressEventBody)) → Prop where
  | returned {native : NativeResponse} {event : Response WebIngressEventBody}
      (same : SameResponse native event) : SameOutcome (.ready native) (.ready (.ok event))
  | pending : SameOutcome .pending .pending
  | panicked : SameOutcome .panicked .panicked

theorem SameOutcome.exists_of_ready {outcome : Outcome NativeResponse}
    {event : Response WebIngressEventBody} (same : SameOutcome outcome (.ready (.ok event))) :
    ∃ native, outcome = .ready native ∧ SameResponse native event := by
  cases same with
  | returned same => exact ⟨_, rfl, same⟩

/-- The calls agree on the outcome and on everything they did. -/
structure Agree (native : Outcome NativeResponse × World η)
    (event : Outcome (Except RuntimeFailure (Response WebIngressEventBody)) × World η) :
    Prop where
  outcome : SameOutcome native.1 event.1
  world : native.2 = event.2

/-- Calls agree that begin alike and agree from there on. -/
theorem Agree.bind {α : Type} {first : Task (World η) α} {native : α → Task (World η) NativeResponse}
    {event : α → Task (World η) (Except RuntimeFailure (Response WebIngressEventBody))}
    {world : World η}
    (rest : ∀ value after, first world = (.ready value, after) →
      Agree (native value after) (event value after)) :
    Agree ((first >>= native) world) ((first >>= event) world) := by
  rw [Task.bind_apply, Task.bind_apply]
  rcases whole : first world with ⟨value | _ | _, after⟩
  · exact rest value after whole
  · exact ⟨.pending, rfl⟩
  · exact ⟨.panicked, rfl⟩

/-! ### The end of a call -/

/-- Both transports end a response without a session alike. -/
theorem reply_agree (service : IngressService η) (method : Method) (upgrading : Bool)
    (requestId : HeaderValue) (permit : Bool) {response : IngressResponse}
    (noSocket : ∀ upgrade, response.body ≠ .webSocket upgrade) (world : World η) :
    Agree (service.reply method upgrading requestId response world)
      (EventState.reply method requestId response permit world) := by
  rw [nativeReply_eq service method upgrading requestId noSocket, eventReply_eq]
  refine .bind fun sent after returned => ?_
  obtain ⟨normal, middle, normalized, written⟩ := Task.bind_ready_iff.mp returned
  have noSocket' := IngressResponse.noSocket_of_normalizeBody noSocket normalized
  obtain ⟨result, written, returned⟩ := Task.expect_bind_ready_iff.mp
    ((congrFun (bind_pure _) middle).trans written)
  obtain ⟨-, -, rfl⟩ := withTransportHeaders_eq_some_iff.mp written
  cases returned
  obtain ⟨status, headers, body⟩ := normal
  cases body with
  | buffered bytes => exact ⟨.returned ⟨rfl, rfl, .buffered bytes, rfl⟩, rfl⟩
  | streaming stream => exact ⟨.returned ⟨rfl, rfl, .streaming (.new stream) permit, rfl⟩, rfl⟩
  | webSocket upgrade => exact absurd rfl (noSocket' upgrade)

/-- An error response of the transports themselves. -/
theorem noSocket_json (status : StatusCode) (code : String) (upgrade : WebSocketUpgrade) :
    (IngressResponse.json status code).body ≠ .webSocket upgrade := nofun

/-! ### Whole calls -/

/-- The bytes that the frames of a body hold. -/
def IncomingBody.payload (body : IncomingBody) : Bytes := framesData body.frames

section Calls

variable {external : External} {config : WebIngressConfig}

/-- An intact body is read in time if and only if it is within the limit. -/
theorem readBody_eq {service : IngressService η} {around : NativeSurroundings}
    {body : IncomingBody} (inTime : around.bodyRead = .finished) (intact : Intact body.frames)
    (small : service.config.maxRequestBodyBytes < 2 ^ 64) :
    service.readBody around body =
      if body.payload.length ≤ service.config.maxRequestBodyBytes then .ok body.payload
      else .error payloadTooLarge := by
  unfold IngressService.readBody
  split
  · next ended =>
    have empty : body.payload = [] := by
      rw [IncomingBody.payload, body.ended ended]
      rfl
    rw [empty]
    rfl
  · rw [inTime, collectBoundedBody_eq small intact, IncomingBody.payload]
    dsimp only
    split
    · next read =>
      split at read
      · cases read
        rw [if_pos (by assumption)]
      · cases read
    · next read =>
      split at read
      · cases read
      · rw [if_neg (by assumption)]
    · next read => split at read <;> cases read

/-- The native dispatch is the dispatch of the payload. -/
theorem nativeDispatch_eq {service : IngressService η} {around : NativeSurroundings}
    (request : Request IncomingBody) (ready : around.Ready) (intact : Intact request.body.frames)
    (small : service.config.maxRequestBodyBytes < 2 ^ 64) :
    service.dispatch external around request =
      if oversized { request with body := request.body.payload }
          service.config.maxRequestBodyBytes then pure payloadTooLarge
      else dispatchBuffered external { request with body := request.body.payload }
        service.sessionCookie service.routes service.middleware := by
  rw [IngressService.dispatch, readBody_eq ready.inTime intact small]
  by_cases declared : declaresTooMuch request.headers service.config.maxRequestBodyBytes = true
  · simp [oversized, declared]
  · by_cases room : request.body.payload.length ≤ service.config.maxRequestBodyBytes
    · simp [oversized, declared, room]
    · simp [oversized, declared, room]

/-- The guarded part of an event call is the dispatch of its body. -/
theorem eventWork_eq {state : EventState η} {around : EventSurroundings} (request : Request Bytes)
    {headLen : Nat} (sessionCookie : Option SessionCookiePolicy) (ready : around.Ready)
    (fits : headLen ≤ state.config.maxRequestHeadBytes) :
    state.work external around request headLen sessionCookie =
      if oversized request state.config.maxRequestBodyBytes then pure (payloadTooLarge, true)
      else do
        let response ← dispatchBuffered external request sessionCookie state.routes
          state.middleware
        return (response, true) := by
  simp only [EventState.work, ready.isOpen, ready.isAccepting, ready.running, ready.permit,
    ready.stillAccepting, acquireOwned, pure_bind, Nat.not_lt.mpr fits,
    Bool.not_true, Bool.or_self, Bool.false_eq_true, if_false]

/-- A response with a session is accounted for in everything done later. -/
theorem noSocket_of_reply {request : Request Bytes} {sessionCookie : Option SessionCookiePolicy}
    {routes : RouteTable η} {middleware : List (WebIngressMiddleware η)} {world after : World η}
    {response : IngressResponse} {method : Method} {requestId : HeaderValue} {permit : Bool}
    (returned : dispatchBuffered external request sessionCookie routes middleware world =
      (.ready response, after))
    (noRoute : ¬ SocketDispatched routes
      (EventState.reply method requestId response permit after).2.effects)
    (upgrade : WebSocketUpgrade) : response.body ≠ .webSocket upgrade := by
  intro body
  refine noRoute ((dispatchBuffered_socketDispatched returned body).mono ?_)
  have normal := response.normalizeBody_apply method after
  split at normal <;> rw [EventState.reply, Task.bind_of_ready normal] <;>
    cases withTransportHeaders _ requestId
  · exact List.subset_append_left _ _
  · exact List.subset_append_left _ _
  · exact List.Subset.refl _
  · exact List.Subset.refl _

/-- Behind the permits both transports do the same. -/
theorem dispatch_agree {config : WebIngressConfig} {routes : RouteTable η}
    {middleware : List (WebIngressMiddleware η)} {sessionCookie : Option SessionCookiePolicy}
    {native : NativeSurroundings} {event : EventSurroundings} (request : Request IncomingBody)
    {headLen : Nat} {method : Method} {upgrading : Bool} {requestId : HeaderValue}
    {world : World η} (nativeReady : native.Ready) (eventReady : event.Ready)
    (intact : Intact request.body.frames) (small : config.maxRequestBodyBytes < 2 ^ 64)
    (fits : headLen ≤ config.maxRequestHeadBytes)
    (noRoute : ¬ SocketDispatched routes
      ((EventState.work external ⟨config, routes, middleware⟩ event
        { request with body := request.body.payload } headLen sessionCookie >>= fun answered =>
        EventState.reply method requestId answered.1 answered.2) world).2.effects) :
    Agree
      ((IngressService.dispatch external ⟨config, middleware, routes, sessionCookie⟩ native
          request >>=
        IngressService.reply ⟨config, middleware, routes, sessionCookie⟩ method upgrading
          requestId) world)
      ((EventState.work external ⟨config, routes, middleware⟩ event
        { request with body := request.body.payload } headLen sessionCookie >>= fun answered =>
        EventState.reply method requestId answered.1 answered.2) world) := by
  rw [eventWork_eq _ sessionCookie eventReady fits] at noRoute ⊢
  rw [nativeDispatch_eq request nativeReady intact small]
  dsimp only at noRoute ⊢
  split
  · rw [pure_bind, pure_bind]
    exact reply_agree _ _ _ _ _ (noSocket_json _ _) world
  · next within =>
    rw [if_neg within, bind_assoc] at noRoute
    rw [bind_assoc]
    refine .bind fun response after returned => ?_
    rw [Task.bind_of_ready returned] at noRoute
    exact reply_agree _ _ _ _ _ (noSocket_of_reply returned noRoute) after

end Calls

/-- Both transports answer a request alike. -/
theorem transports_agree (external : External) {config : WebIngressConfig}
    (valid : config.validate external.uri = .ok ()) (routes : RouteTable η)
    (middleware : List (WebIngressMiddleware η)) {native : NativeSurroundings}
    {event : EventSurroundings} (nativeReady : native.Ready) (eventReady : event.Ready)
    (request : Request IncomingBody) (intact : Intact request.body.frames) (host : η)
    (requestIds : UInt64) (nextStream : StreamId)
    (noRoute : ¬ SocketDispatched routes
      (handleResponse external (some ⟨config, routes, middleware⟩) event
        { request with body := request.body.payload }
        (.start host requestIds nextStream)).2.effects) :
    ∃ service, IngressService.new config routes middleware = some service ∧
      Agree (service.call external native request (.start host requestIds nextStream))
        (handleResponse external (some ⟨config, routes, middleware⟩) event
          { request with body := request.body.payload } (.start host requestIds nextStream)) := by
  obtain ⟨sessionCookie, known⟩ :=
    Option.isSome_iff_exists.mp (config.sessionCookiePolicy_isSome valid)
  have small : config.maxRequestBodyBytes < 2 ^ 64 := by
    have bounded := (WebIngressConfig.of_validate valid).1
    simp only [maxTransferBytes] at bounded
    omega
  refine ⟨⟨config, middleware, routes, sessionCookie⟩, by simp [IngressService.new, known], ?_⟩
  let state : EventState η := ⟨config, routes, middleware⟩
  have policy : state.config.sessionCookiePolicy = some sessionCookie := known
  rw [handleResponse_of_policy external event _ policy] at noRoute ⊢
  refine .bind fun drawn world replaced => ?_
  rw [Task.bind_of_ready replaced] at noRoute
  obtain ⟨headers, requestId⟩ := drawn
  dsimp only at noRoute ⊢
  have sameLen : canonicalRequestHeadLen { request with body := request.body.payload } =
      canonicalRequestHeadLen request := rfl
  rw [sameLen] at noRoute ⊢
  by_cases long : canonicalRequestHeadLen request > config.maxRequestHeadBytes
  · have refused : state.work external event
        { request with headers := headers, body := request.body.payload }
        (canonicalRequestHeadLen request) sessionCookie = pure (headTooLarge, false) := by
      simp [EventState.work, eventReady.isOpen, eventReady.isAccepting, long, state]
    rw [if_pos long, refused, pure_bind]
    exact reply_agree _ _ _ _ _ (noSocket_json _ _) world
  · rw [if_neg long, nativeReady.acquireLocalPermit, pure_bind]
    simp only [Bool.not_true, Bool.false_eq_true, if_false, nativeReady.acquireRequestPermit,
      pure_bind]
    exact dispatch_agree { request with headers := headers } nativeReady eventReady intact small
      (Nat.not_lt.mp long) noRoute

/-! A body in several frames. -/

def framedBody : IncomingBody where
  frames := [.ok (.data (ascii "a")), .ok (.data []), .ok (.data (ascii "b")), .ok .trailers]
  endStream := false
  ended := nofun

theorem bareRoutes_noSocket (inbound : InboundRequest) : ¬ bareRoutes.SelectsWebSocket inbound := by
  rintro ⟨matched, index, selected, socket⟩
  unfold RouteTable.select at selected
  simp only [bareRoutes, List.lookup] at selected
  cases served : inbound.method == .get <;> simp only [served] at selected
  · cases selected
  · by_cases root : inbound.path = ascii "/"
    · rw [if_pos root] at selected
      cases selected
      cases socket
    · rw [if_neg root] at selected
      cases selected

/-- The event call returned a response with the status. -/
def answersWith (outcome : Outcome (Except RuntimeFailure (Response WebIngressEventBody)))
    (status : StatusCode) : Bool :=
  match outcome with
  | .ready (.ok event) => event.status == status
  | _ => false

theorem exists_of_answersWith
    {outcome : Outcome (Except RuntimeFailure (Response WebIngressEventBody))}
    {status : StatusCode} (answered : answersWith outcome status = true) :
    ∃ event, outcome = .ready (.ok event) ∧ event.status = status := by
  unfold answersWith at answered
  split at answered
  · exact ⟨_, rfl, eq_of_beq answered⟩
  · cases answered

theorem transports_agree_framed :
    ∃ service native event,
      IngressService.new .default bareRoutes [] = some service ∧
      (service.call bareExternal .free { bareRequest with body := framedBody }
        (.start () 0 0)).1 = .ready native ∧
      (handleResponse bareExternal (some ⟨.default, bareRoutes, []⟩) .free
        { bareRequest with body := ascii "ab" } (.start () 0 0)).1 = .ready (.ok event) ∧
      SameResponse native event ∧ event.status = .ok := by
  have nativeReady : NativeSurroundings.free.Ready := ⟨rfl, nofun, rfl, rfl⟩
  have eventReady : EventSurroundings.free.Ready := ⟨rfl, rfl, rfl, rfl, rfl⟩
  obtain ⟨service, built, agree⟩ := transports_agree bareExternal
    (WebIngressConfig.validate_default _) bareRoutes [] nativeReady eventReady
    { bareRequest with body := framedBody } (by decide) () 0 0
    fun ⟨_, inbound, _, selected⟩ => bareRoutes_noSocket inbound selected
  have payload : framedBody.payload = ascii "ab" := by decide
  rw [payload] at agree
  have answered : answersWith (handleResponse bareExternal (some ⟨.default, bareRoutes, []⟩) .free
      { bareRequest with body := ascii "ab" } (.start () 0 0)).1 .ok = true := by decide +kernel
  obtain ⟨event, replied, status⟩ := exists_of_answersWith answered
  have outcome := agree.outcome
  rw [replied] at outcome
  obtain ⟨native, returned, same⟩ := outcome.exists_of_ready
  exact ⟨service, native, event, built, returned, replied, same, status⟩

end Ingress
