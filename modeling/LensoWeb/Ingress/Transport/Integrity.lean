import LensoWeb.Ingress.Dispatch.Fresh
import LensoWeb.Ingress.Transport.Ownership

/-!
# What a response may carry

The hop-by-hop fields, the declared length, the request identifier and the sniffing
guard of a response are written by the transport alone. Whatever providers and
middleware return, the fields of a response that goes out are those of one table:
the transport's own, and those of a handshake that was asked for and completed.
-/

namespace Ingress

open Foundation Http Kernel

variable {η : Type}

/-! ### Owned fields -/

theorem valid_upgrade : (ascii "Upgrade").all isValueByte = true := by decide

theorem valid_websocket : (ascii "websocket").all isValueByte = true := by decide

theorem valid_nosniff : (ascii "nosniff").all isValueByte = true := by decide

/-- The hop-by-hop fields of a complete answer to an upgrade, and of no other answer. -/
def upgradeFields (switching : Bool) (name : HeaderName) : List HeaderValue :=
  if switching then
    if name = .connection then [⟨ascii "Upgrade", valid_upgrade⟩]
    else if name = .upgrade then [⟨ascii "websocket", valid_websocket⟩]
    else []
  else []

/-- The fields that Ingress owns, as a transport sends them. -/
def transportFields (requestId : HeaderValue) (switching : Bool) (name : HeaderName) :
    List HeaderValue :=
  if name = nosniffHeader then [⟨ascii "nosniff", valid_nosniff⟩]
  else if name = requestIdHeader then [requestId]
  else upgradeFields switching name

/-- The owned fields are those of the handshake, if there is one. -/
def Framed (headers : HeaderMap) (switching : Bool) : Prop :=
  ∀ name, isIngressOwnedResponseHeader name = true →
    headers.getAll name = upgradeFields switching name

/-- The owned fields are those that the transport writes. -/
def Sealed (headers : HeaderMap) (requestId : HeaderValue) (switching : Bool) : Prop :=
  ∀ name, isIngressOwnedResponseHeader name = true →
    headers.getAll name = transportFields requestId switching name

theorem framed_of_unowned {headers : HeaderMap}
    (unowned : ∀ name ∈ headers.keys, isIngressOwnedResponseHeader name = false) :
    Framed headers false := by
  intro name owned
  refine MultiMap.getAll_of_notMem fun member => ?_
  rw [unowned name member] at owned
  cases owned

/-- A field that Ingress does not own may be added to any response. -/
theorem Framed.insert {headers : HeaderMap} {switching : Bool} (framed : Framed headers switching)
    (name : HeaderName) (unowned : isIngressOwnedResponseHeader name = false)
    (value : HeaderValue) : Framed (headers.insert name value) switching := by
  intro other owned
  have apart : other ≠ name := by
    rintro rfl
    rw [unowned] at owned
    cases owned
  rw [MultiMap.getAll_insert, if_neg apart]
  exact framed other owned

/-- `with_session` turns the fields of a plain answer into those of a handshake. -/
theorem Framed.upgrade {headers : HeaderMap} (framed : Framed headers false) :
    Framed ((headers.insert .upgrade ⟨ascii "websocket", by decide⟩).insert .connection
      ⟨ascii "Upgrade", by decide⟩) true := by
  intro name owned
  rw [MultiMap.getAll_insert, MultiMap.getAll_insert]
  unfold upgradeFields
  rw [if_pos rfl]
  split
  · rfl
  · split
    · rfl
    · exact framed name owned

/-- `with_transport_headers` completes the fields. -/
theorem sealed_transportHeaders {headers : HeaderMap} {switching : Bool}
    (framed : Framed headers switching) (requestId : HeaderValue) :
    Sealed (transportHeaders headers requestId) requestId switching := by
  intro name owned
  unfold transportHeaders transportFields
  rw [MultiMap.getAll_insert, MultiMap.getAll_insert]
  split
  · rfl
  · split
    · rfl
    · exact framed name owned

theorem framed_json (status : StatusCode) (code : String) :
    Framed (IngressResponse.json status code).headers false :=
  Framed.insert (framed_of_unowned (by rintro name ⟨⟩)) _ (by decide) _

/-- No field that Ingress owns comes from middleware. -/
theorem framed_fromMiddlewareResponse (response : WebIngressResponse) :
    Framed (IngressResponse.fromMiddlewareResponse response).headers false := by
  refine framed_of_unowned fun name member => ?_
  obtain ⟨stored, kept⟩ := MultiMap.mem_keys_foldl_remove.mp member
  by_contra owned
  exact kept (List.mem_filter.mpr ⟨stored, Bool.eq_true_of_not_eq_false owned⟩)

/-! ### Completed handshakes -/

/-- The session answers the handshake that the request offers. -/
structure Answers (handshake : Handshake) (upgrade : WebSocketUpgrade) : Prop where
  key : upgrade.acceptKey = handshake.accept
  protocol : ∀ protocol ∈ upgrade.session.protocol, protocol ∈ handshake.protocols

/-- A response completes the handshake with the protocol chosen. -/
structure Completes (handshake : Handshake) (status : StatusCode) (headers : HeaderMap)
    (protocol : Option Bytes) : Prop where
  switching : status = .switchingProtocols
  accepted : (headers.getAll Handshake.acceptHeader).map HeaderValue.bytes = [handshake.accept]
  chosen : ∀ name ∈ protocol, name ∈ handshake.protocols ∧
    (headers.getAll Handshake.protocolHeader).map HeaderValue.bytes = [name]

/-- Whether a body owns a WebSocket session. -/
def IngressBody.isSocket : IngressBody → Bool
  | webSocket _ => true
  | _ => false

theorem IngressBody.isSocket_iff {body : IngressBody} :
    body.isSocket = true ↔ ∃ upgrade, body = .webSocket upgrade := by
  cases body with
  | webSocket upgrade => exact iff_of_true rfl ⟨upgrade, rfl⟩
  | buffered _ => exact iff_of_false Bool.false_ne_true (by rintro ⟨_, ⟨⟩⟩)
  | streaming _ => exact iff_of_false Bool.false_ne_true (by rintro ⟨_, ⟨⟩⟩)

theorem IngressBody.isSocket_eq_false {body : IngressBody}
    (noSocket : ∀ upgrade, body ≠ .webSocket upgrade) : body.isSocket = false := by
  cases body with
  | webSocket upgrade => exact absurd rfl (noSocket upgrade)
  | buffered _ => rfl
  | streaming _ => rfl

/-- What `dispatch_buffered` answers to a request that offers `handshake`. -/
structure Lawful (handshake : Option Handshake) (response : IngressResponse) : Prop where
  framed : Framed response.headers response.body.isSocket
  completes : ∀ upgrade, response.body = .webSocket upgrade → ∃ offered, handshake = some offered ∧
    Completes offered response.status response.headers upgrade.session.protocol

theorem lawful_of_noSocket {handshake : Option Handshake} {response : IngressResponse}
    (framed : Framed response.headers false)
    (noSocket : ∀ upgrade, response.body ≠ .webSocket upgrade) : Lawful handshake response where
  framed := by rwa [IngressBody.isSocket_eq_false noSocket]
  completes upgrade body := absurd body (noSocket upgrade)

theorem lawful_json (handshake : Option Handshake) (status : StatusCode) (code : String) :
    Lawful handshake (.json status code) :=
  lawful_of_noSocket (framed_json status code) (by rintro _ ⟨⟩)

/-- The session that `with_session` hands over completes its handshake. -/
theorem withSession_lawful {handshake : Option Handshake} {head : WebIngressResponse}
    {body : IngressBody}
    (answers : ∀ upgrade, body = .webSocket upgrade →
      ∃ offered, handshake = some offered ∧ Answers offered upgrade) :
    ((IngressResponse.fromMiddlewareResponse head).withSession body :
      Task (World η) IngressResponse).Yields (Lawful handshake) := by
  have framed := framed_fromMiddlewareResponse head
  cases body with
  | buffered bytes => exact .pure (lawful_of_noSocket framed (by rintro _ ⟨⟩))
  | streaming stream => exact .pure (lawful_of_noSocket framed (by rintro _ ⟨⟩))
  | webSocket upgrade =>
      obtain ⟨offered, asked, answer⟩ := answers upgrade rfl
      have upgraded := framed.upgrade
      by_cases refused :
          (IngressResponse.fromMiddlewareResponse head).status ≠ .switchingProtocols
      · -- A status other than 101 keeps the answer of middleware without the session.
        simp only [IngressResponse.withSession, if_pos refused]
        exact .bind fun _ => .pure (lawful_of_noSocket framed (by rintro _ ⟨⟩))
      · intro world response after returned
        rw [not_not] at refused
        obtain ⟨-, accept, parsed, ⟨chosen, rfl⟩ | ⟨protocol, value, chosen, text, rfl⟩⟩ :=
          IngressResponse.withSession_ready_of_switching refused returned
        · have accepted : accept.bytes = offered.accept :=
            (HeaderValue.bytes_of_fromBytes parsed).trans answer.key
          refine ⟨upgraded.insert Handshake.acceptHeader (by decide) accept, ?_⟩
          rintro _ ⟨⟩
          refine ⟨offered, asked, refused, ?_, ?_⟩
          · rw [MultiMap.getAll_insert, if_pos rfl, List.map_singleton, accepted]
          · rw [chosen]
            rintro name ⟨⟩
        · have accepted : accept.bytes = offered.accept :=
            (HeaderValue.bytes_of_fromBytes parsed).trans answer.key
          have withAccept := upgraded.insert Handshake.acceptHeader (by decide) accept
          refine ⟨withAccept.insert _ (by decide) value, ?_⟩
          rintro _ ⟨⟩
          refine ⟨offered, asked, refused, ?_, ?_⟩
          · rw [MultiMap.getAll_insert, if_neg (by decide), MultiMap.getAll_insert, if_pos rfl,
              List.map_singleton, accepted]
          · intro name named
            obtain rfl : protocol = name := by simpa [chosen] using named
            refine ⟨answer.protocol _ named, ?_⟩
            rw [MultiMap.getAll_insert, if_pos rfl, List.map_singleton,
              HeaderValue.bytes_of_fromBytes text]

/-! ### The session in the slot -/

/-- A response with a session answers the handshake that the request offers. -/
def AnswersOffer (handshake : Option Handshake) (response : IngressResponse) : Prop :=
  ∀ upgrade, response.body = .webSocket upgrade →
    ∃ offered, handshake = some offered ∧ Answers offered upgrade

/-- A session in the slot answers the handshake that the request offers. -/
def SlotAnswers (handshake : Option Handshake) (world : World η) : Prop :=
  ∀ upgrade, world.slot = some (.webSocket upgrade) →
    ∃ offered, handshake = some offered ∧ Answers offered upgrade

theorem answersOffer_of_noSocket {handshake : Option Handshake} {response : IngressResponse}
    (noSocket : ∀ upgrade, response.body ≠ .webSocket upgrade) : AnswersOffer handshake response :=
  fun upgrade body => absurd body (noSocket upgrade)

theorem dispatchErrorResponse_buffered (error : DispatchError) :
    ∃ bytes, (dispatchErrorResponse error).body = .buffered bytes := by
  cases error with
  | methodNotAllowed allowed =>
      simp only [dispatchErrorResponse, methodNotAllowed]
      split <;> exact ⟨_, rfl⟩
  | _ => exact ⟨_, rfl⟩

/-- What a dispatch must have returned for its response to answer the offer. -/
def DispatchAnswers (handshake : Option Handshake) :
    Except DispatchError DispatchResponse → Prop
  | .ok (.webSocket upgrade) => ∃ offered, handshake = some offered ∧ Answers offered upgrade
  | _ => True

theorem dispatchResponse_answers {handshake : Option Handshake}
    {result : Except DispatchError DispatchResponse} (answers : DispatchAnswers handshake result) :
    (dispatchResponse result : Task (World η) IngressResponse).Yields
      (AnswersOffer handshake) := by
  rcases result with error | response | response | upgrade
  · obtain ⟨bytes, buffered⟩ := dispatchErrorResponse_buffered error
    refine .pure (answersOffer_of_noSocket ?_)
    rw [buffered]
    rintro _ ⟨⟩
  · show (fromEndpoint response : Task (World η) IngressResponse).Yields _
    unfold fromEndpoint
    split
    · exact .pure (answersOffer_of_noSocket (by rintro _ ⟨⟩))
    · split
      · exact .pure (answersOffer_of_noSocket (by rintro _ ⟨⟩))
      · exact .panic
      · exact .pure (answersOffer_of_noSocket (by rintro _ ⟨⟩))
  · have refused : (do World.cancel response.stream.id; return invalidEndpointResponse :
        Task (World η) IngressResponse).Yields (AnswersOffer handshake) :=
      .bind fun _ => .pure (answersOffer_of_noSocket (by rintro _ ⟨⟩))
    show (fromStreamEndpoint response : Task (World η) IngressResponse).Yields _
    unfold fromStreamEndpoint
    split
    · exact refused
    · split
      · exact refused
      · exact .panic
      · exact .pure (answersOffer_of_noSocket (by rintro _ ⟨⟩))
  · refine .pure ?_
    rintro _ ⟨⟩
    exact answers

section Dispatch

variable (routes : RouteTable η) (request : InboundRequest) (matched : RouteMatch)
  (handshake : Option Handshake)

theorem invokeBuffered_answers (index : Nat) :
    (routes.invokeBuffered request matched index).Yields (DispatchAnswers handshake) := by
  refine .bind fun provider => .bind fun invoked => ?_
  obtain (_ | failure) | response := invoked
  · exact .pure trivial
  · exact .bind fun _ => .pure trivial
  · exact .pure trivial

theorem awaitHead_answers (stream : StreamId) (events : List ResponseEvent) :
    (routes.awaitHead request matched stream events).Yields (DispatchAnswers handshake) := by
  refine .bind fun received => ?_
  obtain error | ⟨head, rest⟩ := received
  · exact .pure trivial
  · dsimp only
    split
    · exact .pure trivial
    · exact .bind fun _ => .pure trivial

theorem invokeStreaming_answers (index : Nat) :
    (routes.invokeStreaming request matched index).Yields (DispatchAnswers handshake) := by
  refine .bind fun provider => .bind fun invoked => ?_
  obtain (_ | failure) | events := invoked
  · exact .pure trivial
  · exact .bind fun _ => .pure trivial
  · exact .bind fun stream => awaitHead_answers routes request matched handshake stream events

/-- A session is accepted with one of the protocols that were offered. -/
theorem acceptSession_offered (stream : StreamId) (offered : List Bytes) (policy : WebSocketConfig)
    (events : List SocketEvent) :
    (RouteTable.acceptSession stream offered policy events :
      Task (World η) (Except RuntimeFailure WebSocketSession)).Yields
      fun result => ∀ session, result = .ok session →
        ∀ protocol ∈ session.protocol, protocol ∈ offered := by
  unfold RouteTable.acceptSession
  split
  · exact .never
  · next frame _ =>
    split
    · next accepted =>
      refine .pure ?_
      rintro session ⟨⟩ protocol chosen
      rw [RouteTable.acceptsSession, Bool.and_eq_true] at accepted
      have chosen : frame.protocol = some protocol := chosen
      have contained := accepted.2
      rw [chosen] at contained
      exact List.contains_iff_mem.mp contained
    · exact .bind fun _ => .pure (by rintro _ ⟨⟩)
  · exact .bind fun _ => .pure (by rintro _ ⟨⟩)

theorem invokeWebSocket_answers (index : Nat) :
    (routes.invokeWebSocket request matched index handshake).Yields
      (DispatchAnswers handshake) := by
  cases handshake with
  | none => exact .pure trivial
  | some offered =>
      rw [RouteTable.invokeWebSocket]
      split
      · exact .pure trivial
      · refine .bind fun provider => .bind fun invoked => ?_
        obtain (_ | failure) | events := invoked
        · exact .pure trivial
        · exact .bind fun _ => .pure trivial
        · refine .bind fun stream => ?_
          split
          · exact .pure trivial
          · refine .bind_of (acceptSession_offered stream offered.protocols _ events) ?_
            rintro (failure | session) accepted
            · exact .pure trivial
            · exact .pure ⟨offered, rfl, rfl, accepted session rfl⟩

theorem dispatch_answers :
    (routes.dispatch request handshake).Yields (DispatchAnswers handshake) := by
  unfold RouteTable.dispatch
  split
  · exact .pure trivial
  · refine .bind fun context => ?_
    obtain failure | _ := context
    · exact .bind fun _ => .pure trivial
    · dsimp only
      split
      · exact invokeWebSocket_answers routes request _ handshake _
      · exact invokeBuffered_answers routes request _ handshake _
      · exact invokeStreaming_answers routes request _ handshake _

theorem dispatchRestored_answers (control : InboundRequestControl) (visible : WebIngressRequest) :
    (dispatchRestored routes handshake control visible).Yields (AnswersOffer handshake) := by
  unfold dispatchRestored
  split
  · exact .bind fun _ => .bind_of (dispatch_answers routes _ handshake) fun _ answers =>
      dispatchResponse_answers answers
  · next rejection _ =>
    exact .pure (answersOffer_of_noSocket (by cases rejection <;> rintro _ ⟨⟩))

end Dispatch

section Runs

variable {routes : RouteTable η} {handshake : Option Handshake}
  (policy : handshake.isSome = true → routes.websocketPolicy.isSome = true)

include policy

theorem dispatchVisible_slotAnswers (control : InboundRequestControl)
    (visible : WebIngressRequest) :
    (dispatchVisible routes handshake control visible).Keeps (SlotAnswers handshake) := by
  intro world answers
  have slot := dispatchRestored_slot policy control visible world
  have offers := dispatchRestored_answers routes handshake control visible world
  rw [dispatchVisible, Task.bind_apply]
  rcases whole : dispatchRestored routes handshake control visible world with ⟨outcome, after⟩
  rw [whole] at slot
  cases outcome with
  | pending => exact fun upgrade full => answers upgrade (slot.symm.trans full)
  | panicked => exact fun upgrade full => answers upgrade (slot.symm.trans full)
  | ready response =>
      have offer := offers response after whole
      intro upgrade full
      obtain ⟨status, headers, body⟩ := response
      cases body <;> cases full
      exact offer upgrade rfl

theorem dispatchEnvelope_lawful (middleware : List (WebIngressMiddleware η))
    (control : InboundRequestControl) (visible : WebIngressRequest) :
    (dispatchEnvelope routes middleware handshake control visible).Yields (Lawful handshake) := by
  intro world response after returned
  let start : World η := { world with slot := none }
  have hooks : ∀ layer ∈ middleware.map (·.within World.hostPart),
      layer.Keeps (SlotAnswers handshake) := by
    intro layer inside
    obtain ⟨inner, -, rfl⟩ := List.mem_map.mp inside
    exact ⟨fun _ => .within _ fun _ _ answers => answers,
      fun _ _ => .within _ fun _ _ answers => answers⟩
  have kept := (Middleware.run_keeps hooks (dispatchVisible_slotAnswers policy control)
    visible).catchUnwind start (by rintro _ ⟨⟩)
  have guarded : ((Middleware.run (middleware.map (·.within World.hostPart)) visible
      (dispatchVisible routes handshake control)).catchUnwind >>= joinSlot) start =
      (.ready response, after) := returned
  obtain ⟨result, middle, run, joining⟩ := Task.bind_ready_iff.mp guarded
  rw [run] at kept
  rcases result with _ | failure | head
  · exact (Task.Yields.bind fun _ => .pure (lawful_json _ _ _)) _ _ _ joining
  · exact (Task.Yields.bind fun _ => .pure (lawful_json _ _ _)) _ _ _ joining
  · cases slot : middle.slot with
    | none =>
        rw [joinSlot_of_none slot] at joining
        cases joining
        exact lawful_of_noSocket (framed_fromMiddlewareResponse head) (by rintro _ ⟨⟩)
    | some body =>
        rw [joinSlot_of_some slot] at joining
        refine withSession_lawful (fun upgrade same => ?_) _ _ _ joining
        exact kept upgrade (by rw [slot, same])

end Runs

/-- The handshake that a request is admitted with. -/
def offeredHandshake (external : External) (request : Request Bytes)
    (policy : Option WebSocketConfig) : Option Handshake :=
  (upgradeHandshake external request policy).toOption.join

theorem dispatchBuffered_lawful (external : External) (request : Request Bytes)
    (sessionCookie : Option SessionCookiePolicy) (routes : RouteTable η)
    (middleware : List (WebIngressMiddleware η)) :
    (dispatchBuffered external request sessionCookie routes middleware).Yields
      (Lawful (offeredHandshake external request routes.websocketPolicy)) := by
  unfold dispatchBuffered
  cases admitted : admission external request sessionCookie routes with
  | error early =>
      refine .pure ?_
      unfold admission at admitted
      split at admitted
      · cases admitted
        exact lawful_json _ _ _
      · split at admitted
        · cases admitted
          exact lawful_json _ _ _
        · split at admitted
          · next rejection _ =>
            cases admitted
            cases rejection <;> exact lawful_json _ _ _
          · cases admitted
  | ok accepted =>
      obtain ⟨handshake, inbound⟩ := accepted
      have offered : offeredHandshake external request routes.websocketPolicy = handshake := by
        unfold offeredHandshake
        rw [(admission_eq_ok external admitted).1]
        rfl
      rw [offered]
      simp only [dispatchInbound]
      split
      · rintro _ _ _ ⟨⟩
      · exact dispatchEnvelope_lawful (policy_of_admission external admitted) middleware _ _

/-! ### Transports -/

/-- A status whose responses have no body. -/
def isBodiless (status : StatusCode) : Bool :=
  status.isInformational || status == .noContent || status == .notModified

theorem carriesNoBody_eq (response : IngressResponse) (method : Method) :
    response.carriesNoBody method =
      (method == .head || response.status.isInformational && !response.body.isSocket ||
        response.status == .noContent || response.status == .notModified) := by
  obtain ⟨status, headers, body⟩ := response
  cases body <;> rfl

/-- The request asks for a session, and the response completes its handshake. -/
structure Upgrades (external : External) (policy : Option WebSocketConfig) (method : Method)
    (version : Version) (headers : HeaderMap) (status : StatusCode) (answered : HeaderMap)
    (protocol : Option Bytes) : Prop where
  method : method = .get
  version : version = .http11
  handshake : ∃ config offered, policy = some config ∧
    Handshake.parse external.handshake headers config.allowedOrigins = .ok offered ∧
    Completes offered status answered protocol

theorem upgradeHandshake_eq_some {external : External} {request : Request Bytes}
    {policy : Option WebSocketConfig} {offered : Handshake}
    (parsed : offeredHandshake external request policy = some offered) :
    request.headers.contains .upgrade = true ∧ request.method = .get ∧
      request.version = .http11 ∧ ∃ config, policy = some config ∧
      Handshake.parse external.handshake request.headers config.allowedOrigins = .ok offered := by
  unfold offeredHandshake upgradeHandshake at parsed
  split at parsed
  · next upgrading =>
    split at parsed
    · cases parsed
    · next plain =>
      simp only [ne_eq, Bool.or_eq_true, decide_eq_true_eq, not_or, not_not] at plain
      split at parsed
      · cases parsed
      · next config =>
        refine ⟨upgrading, plain.1.1, plain.1.2, config, rfl, ?_⟩
        cases whole : Handshake.parse external.handshake request.headers config.allowedOrigins with
        | error _ =>
            rw [whole] at parsed
            cases parsed
        | ok handshake =>
            rw [whole] at parsed
            cases parsed
            rfl
  · cases parsed

/-- What a transport hands on of the response to a request. -/
structure Answered (external : External) (request : Request Bytes)
    (policy : Option WebSocketConfig) (response : IngressResponse) : Prop where
  framed : Framed response.headers response.body.isSocket
  upgrades : ∀ upgrade, response.body = .webSocket upgrade →
    Upgrades external policy request.method request.version request.headers response.status
      response.headers upgrade.session.protocol

theorem answered_of_lawful {external : External} {request : Request Bytes}
    {policy : Option WebSocketConfig} {response : IngressResponse}
    (lawful : Lawful (offeredHandshake external request policy) response) :
    Answered external request policy response where
  framed := lawful.framed
  upgrades upgrade body := by
    obtain ⟨offered, asked, completes⟩ := lawful.completes upgrade body
    obtain ⟨-, method, version, config, known, parsed⟩ := upgradeHandshake_eq_some asked
    exact ⟨method, version, config, offered, known, parsed, completes⟩

theorem answered_json (external : External) (request : Request Bytes)
    (policy : Option WebSocketConfig) (status : StatusCode) (code : String) :
    Answered external request policy (.json status code) :=
  answered_of_lawful (lawful_json _ status code)

theorem normalizeBody_ready {response normal : IngressResponse} {method : Method}
    {world after : World η}
    (returned : response.normalizeBody method world = (.ready normal, after)) :
    normal = if response.carriesNoBody method then { response with body := .buffered [] }
      else response := by
  rw [IngressResponse.normalizeBody_apply] at returned
  split at returned
  · next silent =>
    cases returned
    rw [if_pos silent]
  · next speaking =>
    cases returned
    rw [if_neg speaking]

/-- A response without a session has no body where HTTP allows none. -/
theorem normalizeBody_silent {response normal : IngressResponse} {method : Method}
    {world after : World η} (noSocket : response.body.isSocket = false)
    (returned : response.normalizeBody method world = (.ready normal, after))
    (silent : method = .head ∨ isBodiless normal.status = true) : normal.body = .buffered [] := by
  have same := normalizeBody_ready returned
  have speechless : response.carriesNoBody method = true := by
    have status : normal.status = response.status := by
      rw [same]
      split <;> rfl
    rw [carriesNoBody_eq, noSocket]
    rw [status, isBodiless] at silent
    obtain rfl | bodiless := silent
    · rfl
    · rw [Bool.not_false, Bool.and_true, Bool.or_assoc, Bool.or_assoc]
      rw [Bool.or_assoc] at bodiless
      rw [bodiless, Bool.or_true]
  rw [same, if_pos speechless]

/-- What may be said of the head of every response that goes out, and of the session
that goes with it. -/
structure OutgoingHead (external : External) (policy : Option WebSocketConfig) (method : Method)
    (version : Version) (headers : HeaderMap) (requestId : HeaderValue) (status : StatusCode)
    (answered : HeaderMap) (session : Option WebSocketSession) : Prop where
  fields : Sealed answered requestId session.isSome
  upgrades : ∀ one ∈ session,
    Upgrades external policy method version headers status answered one.protocol

section Transports

variable {external : External}

/-! A handshake is not disturbed by the fields that the transport adds. -/

theorem Upgrades.transportHeaders {policy : Option WebSocketConfig} {method : Method}
    {version : Version} {headers answered : HeaderMap} {status : StatusCode}
    {protocol : Option Bytes}
    (upgrades : Upgrades external policy method version headers status answered protocol)
    (requestId : HeaderValue) :
    Upgrades external policy method version headers status
      (Ingress.transportHeaders answered requestId) protocol := by
  obtain ⟨isGet, isHttp11, config, offered, known, parsed, completes⟩ := upgrades
  have kept : ∀ name, name ≠ nosniffHeader → name ≠ requestIdHeader →
      (Ingress.transportHeaders answered requestId).getAll name = answered.getAll name := by
    intro name other another
    rw [Ingress.transportHeaders, MultiMap.getAll_insert, if_neg other,
      MultiMap.getAll_insert, if_neg another]
  refine ⟨isGet, isHttp11, config, offered, known, parsed, completes.switching, ?_, ?_⟩
  · rw [kept _ (by decide) (by decide)]
    exact completes.accepted
  · intro name chosen
    rw [kept _ (by decide) (by decide)]
    exact completes.chosen name chosen

/-- A session is handed to the socket task, or the response owns none any more. -/
theorem handOverSocket_outgoing {service : IngressService η} {request : Request Bytes}
    {upgrading : Bool} {response : IngressResponse}
    (answered : Answered external request service.routes.websocketPolicy response) :
    (service.handOverSocket upgrading response :
      Task (World η) (IngressResponse × Option WebSocketSession)).Yields fun handed =>
      Framed handed.1.headers handed.2.isSome ∧ handed.1.body.isSocket = false ∧
        ∀ session ∈ handed.2, Upgrades external service.routes.websocketPolicy request.method
          request.version request.headers handed.1.status handed.1.headers session.protocol := by
  obtain ⟨framed, upgrades⟩ := answered
  obtain ⟨status, headers, body⟩ := response
  cases body with
  | buffered bytes => exact .pure ⟨framed, rfl, by rintro _ ⟨⟩⟩
  | streaming stream => exact .pure ⟨framed, rfl, by rintro _ ⟨⟩⟩
  | webSocket upgrade =>
      unfold IngressService.handOverSocket
      dsimp only
      split
      · refine .pure ⟨framed, rfl, ?_⟩
        rintro _ ⟨⟩
        exact upgrades upgrade rfl
      · exact .bind fun _ => .pure ⟨framed_json _ _, rfl, by rintro _ ⟨⟩⟩

theorem reply_outgoing {service : IngressService η} {request : Request Bytes}
    {response : IngressResponse}
    (answered : Answered external request service.routes.websocketPolicy response)
    (upgrading : Bool) (requestId : HeaderValue) :
    (service.reply request.method upgrading requestId response).Yields fun native =>
      OutgoingHead external service.routes.websocketPolicy request.method request.version
          request.headers requestId native.response.status native.response.headers
          native.socketTask ∧
        (request.method = .head ∨ isBodiless native.response.status = true →
          native.response.body = .buffered []) := by
  refine .bind_of (handOverSocket_outgoing answered) fun handed holds => ?_
  obtain ⟨framed, noSocket, upgrades⟩ := holds
  intro world native after returned
  obtain ⟨normal, middle, normalized, returned⟩ := Task.bind_ready_iff.mp returned
  obtain ⟨result, last, converted, returned⟩ := Task.bind_ready_iff.mp returned
  obtain ⟨sent, written, returned⟩ := Task.expect_bind_ready_iff.mp returned
  obtain ⟨-, -, rfl⟩ := withTransportHeaders_eq_some_iff.mp written
  cases returned
  have head : normal.status = handed.1.status ∧ normal.headers = handed.1.headers := by
    rw [normalizeBody_ready normalized]
    split <;> exact ⟨rfl, rfl⟩
  have silent := normalizeBody_silent noSocket normalized
  have converts : result.status = normal.status ∧ result.headers = normal.headers ∧
      (normal.body = .buffered [] → result.body = .buffered []) := by
    obtain ⟨status, headers, body⟩ := normal
    cases body <;> cases converted
    · refine ⟨rfl, rfl, ?_⟩
      rintro ⟨⟩
      rfl
    · exact ⟨rfl, rfl, by rintro ⟨⟩⟩
    · exact ⟨rfl, rfl, by rintro ⟨⟩⟩
  obtain ⟨status, headers, emptied⟩ := converts
  refine ⟨⟨?_, ?_⟩, ?_⟩
  · apply sealed_transportHeaders
    rw [headers, head.2]
    exact framed
  · intro session task
    have completed := upgrades session task
    rw [← head.1, ← status, ← head.2, ← headers] at completed
    exact completed.transportHeaders requestId
  · intro asked
    apply emptied
    apply silent
    rw [← status]
    exact asked

theorem nativeDispatch_answered {service : IngressService η} {around : NativeSurroundings}
    (request : Request IncomingBody) (body : Bytes)
    (read : service.readBody around request.body = .ok body ∨
      ∀ bytes, service.readBody around request.body ≠ .ok bytes) :
    (service.dispatch external around request).Yields
      (Answered external { request with body := body } service.routes.websocketPolicy) := by
  unfold IngressService.dispatch
  split
  · exact .pure (answered_json _ _ _ _ _)
  · split
    · next early failed =>
      refine .pure ?_
      unfold IngressService.readBody at failed
      split at failed
      · cases failed
      · split at failed
        · cases failed
          exact answered_json _ _ _ _ _
        · cases failed
          exact answered_json _ _ _ _ _
        · split at failed <;> cases failed <;> exact answered_json _ _ _ _ _
    · next bytes collected =>
      obtain known | never := read
      · obtain rfl : bytes = body := by
          rw [collected] at known
          exact Except.ok.inj known
        intro world response after returned
        exact answered_of_lawful (dispatchBuffered_lawful _ _ _ _ _ _ _ _ returned)
      · exact absurd collected (never bytes)

end Transports

/-- The native call refused the local permit before it looked at the request. -/
def IngressService.turnsAway (service : IngressService η) (around : NativeSurroundings)
    (request : Request IncomingBody) : Bool :=
  decide (canonicalRequestHeadLen request ≤ service.config.maxRequestHeadBytes) &&
    !around.grantsLocal

/-- Whatever providers and middleware do, the owned fields of a native response are
those of the transport, an upgrade is one that the client asked for, and a response
that may have no body has none. Only the answer for want of a local permit is sent
without a look at the method. -/
theorem native_responses_sealed (external : External) (service : IngressService η)
    (around : NativeSurroundings) (request : Request IncomingBody) {world after : World η}
    {native : NativeResponse}
    (returned : service.call external around request world = (.ready native, after)) :
    ∃ requestId, requestIdHeaderValue world.requestIds = some requestId ∧
      OutgoingHead external service.routes.websocketPolicy request.method request.version
        (request.headers.insert requestIdHeader requestId) requestId native.response.status
        native.response.headers native.socketTask ∧
      (isBodiless native.response.status = true → native.response.body = .buffered []) ∧
      (request.method = .head → service.turnsAway around request = false →
        native.response.body = .buffered []) := by
  obtain ⟨⟨headers, requestId⟩, drawn, replaced, returned⟩ := Task.bind_ready_iff.mp returned
  obtain ⟨number, counted, first, replaced⟩ := Task.bind_ready_iff.mp replaced
  cases first
  obtain ⟨identifier, known, replaced⟩ := Task.expect_bind_ready_iff.mp replaced
  cases replaced
  refine ⟨requestId, known, ?_⟩
  let visible : Request Bytes :=
    { request with
      headers := request.headers.insert requestIdHeader requestId
      body := (service.readBody around request.body).toOption.getD [] }
  -- Every answer but the early refusal goes through `reply`.
  have replies : ∀ {response : IngressResponse} {middle : World η},
      Answered external visible service.routes.websocketPolicy response →
      service.reply request.method (request.headers.contains .upgrade) requestId response middle =
        (.ready native, after) → _ := fun answered replied =>
    reply_outgoing answered (request.headers.contains .upgrade) requestId _ _ _ replied
  dsimp only at returned
  split at returned
  · obtain ⟨outgoing, silent⟩ := replies (answered_json _ _ _ _ _) returned
    exact ⟨outgoing, fun bodiless => silent (.inr bodiless), fun head _ => silent (.inl head)⟩
  · next short =>
    obtain ⟨granted, _, asked, returned⟩ := Task.bind_ready_iff.mp returned
    obtain ⟨rfl, rfl⟩ := acquireLocalPermit_ready asked
    cases localPermit : around.grantsLocal <;> rw [localPermit] at returned
    · obtain ⟨refusal, _, refused, returned⟩ := Task.bind_ready_iff.mp returned
      cases refused
      obtain ⟨sent, written, returned⟩ := Task.expect_bind_ready_iff.mp returned
      obtain ⟨-, -, rfl⟩ := withTransportHeaders_eq_some_iff.mp written
      cases returned
      have framed := framed_json .serviceUnavailable "endpoint_unavailable"
      refine ⟨⟨sealed_transportHeaders framed requestId, by rintro _ ⟨⟩⟩, fun bodiless => absurd
        (show isBodiless .serviceUnavailable = true from bodiless) (by decide),
        fun _ admitted => absurd admitted ?_⟩
      simp only [IngressService.turnsAway, localPermit, Nat.not_lt.mp short]
      decide
    · obtain ⟨granted, _, asked, returned⟩ := Task.bind_ready_iff.mp returned
      obtain ⟨rfl, rfl⟩ := acquireRequestPermit_ready asked
      split at returned
      · obtain ⟨outgoing, silent⟩ := replies (answered_json _ _ _ _ _) returned
        exact ⟨outgoing, fun bodiless => silent (.inr bodiless), fun head _ => silent (.inl head)⟩
      · obtain ⟨response, middle, dispatched, replied⟩ := Task.bind_ready_iff.mp returned
        have answered : Answered external visible service.routes.websocketPolicy response := by
          refine nativeDispatch_answered _ _ ?_ _ _ _ dispatched
          cases read : service.readBody around request.body with
          | ok bytes => exact .inl rfl
          | error early => exact .inr (by rintro _ ⟨⟩)
        obtain ⟨outgoing, silent⟩ := replies answered replied
        exact ⟨outgoing, fun bodiless => silent (.inr bodiless), fun head _ => silent (.inl head)⟩

theorem native_responses_sealed_oneChunk :
    ∃ native after requestId,
      IngressService.call bareExternal ⟨.default, [], streamRoutes oneChunk, none⟩ .free
        { bareRequest with body := noBody } (.start () 0 0) = (.ready native, after) ∧
      requestIdHeaderValue 0 = some requestId ∧
      Sealed native.response.headers requestId native.socketTask.isSome := by
  obtain ⟨native, after, returned, -⟩ := exists_of_handsStream
    (show handsStream (IngressService.call bareExternal
      ⟨.default, [], streamRoutes oneChunk, none⟩ .free { bareRequest with body := noBody }
      (.start () 0 0)) = true by decide +kernel)
  obtain ⟨requestId, known, outgoing, -⟩ := native_responses_sealed _ _ _ _ returned
  exact ⟨native, after, requestId, returned, known, outgoing.fields⟩

/-! ### The event transport -/

/-- The session that goes out with an event response. -/
def WebIngressEventBody.session? : WebIngressEventBody → Option WebSocketSession
  | webSocket session => some session
  | _ => none

theorem work_answered (external : External) (state : EventState η) (around : EventSurroundings)
    (request : Request Bytes) (headLen : Nat) (sessionCookie : Option SessionCookiePolicy) :
    (state.work external around request headLen sessionCookie).Yields fun answered =>
      Answered external request state.routes.websocketPolicy answered.1 := by
  unfold EventState.work
  split
  · exact .pure (answered_json _ _ _ _ _)
  · split
    · exact .pure (answered_json _ _ _ _ _)
    · split
      · exact .pure (answered_json _ _ _ _ _)
      · refine .bind fun granted => ?_
        split
        · exact .pure (answered_json _ _ _ _ _)
        · split
          · exact .pure (answered_json _ _ _ _ _)
          · split
            · exact .pure (answered_json _ _ _ _ _)
            · refine .bind_of (dispatchBuffered_lawful external request sessionCookie state.routes
                state.middleware) fun response lawful => ?_
              exact .pure (answered_of_lawful lawful)

/-- A session is handed to the host as it was asked for: `normalize_body` never meets one. -/
theorem normalizeBody_of_socket {external : External} {request : Request Bytes}
    {policy : Option WebSocketConfig} {response : IngressResponse}
    (answered : Answered external request policy response)
    (socket : response.body.isSocket = true) :
    response.carriesNoBody request.method = false := by
  obtain ⟨upgrade, body⟩ := IngressBody.isSocket_iff.mp socket
  obtain ⟨method, -, _, _, -, -, completes⟩ := answered.upgrades upgrade body
  rw [carriesNoBody_eq, method, completes.switching, socket]
  decide

theorem eventReply_outgoing {external : External} {request : Request Bytes}
    {policy : Option WebSocketConfig} {requestId : HeaderValue} {response : IngressResponse}
    {permit : Bool} {world after : World η} {event : Response WebIngressEventBody}
    (answered : Answered external request policy response)
    (returned : EventState.reply request.method requestId response permit world =
      (.ready (.ok event), after)) :
    OutgoingHead external policy request.method request.version request.headers requestId
        event.status event.headers event.body.session? ∧
      (request.method = .head ∨ isBodiless event.status = true →
        event.body.session? = none → event.body = .buffered []) := by
  obtain ⟨normal, middle, normalized, returned⟩ := Task.bind_ready_iff.mp returned
  obtain ⟨sent, written, returned⟩ := Task.expect_bind_ready_iff.mp returned
  obtain ⟨-, -, rfl⟩ := withTransportHeaders_eq_some_iff.mp written
  cases returned
  cases socket : response.body.isSocket with
  | true =>
      obtain rfl : normal = response := by
        rw [normalizeBody_ready normalized, normalizeBody_of_socket answered socket]
        rfl
      obtain ⟨upgrade, body⟩ := IngressBody.isSocket_iff.mp socket
      obtain ⟨status, headers, _⟩ := normal
      cases body
      refine ⟨⟨sealed_transportHeaders answered.framed requestId, ?_⟩, ?_⟩
      · rintro _ ⟨⟩
        exact (answered.upgrades upgrade rfl).transportHeaders requestId
      · rintro - ⟨⟩
  | false =>
      have framed : Framed normal.headers false := by
        rw [normalizeBody_ready normalized, ← socket]
        split <;> exact answered.framed
      have plain : normal.body.isSocket = false := by
        rw [normalizeBody_ready normalized]
        split
        · rfl
        · exact socket
      have silent := normalizeBody_silent socket normalized
      have unowned : (normal.body.toEvent permit).session? = none := by
        obtain ⟨status, headers, body⟩ := normal
        cases body with
        | buffered bytes => rfl
        | streaming stream => rfl
        | webSocket upgrade => cases plain
      refine ⟨⟨?_, ?_⟩, ?_⟩
      · show Sealed _ requestId (normal.body.toEvent permit).session?.isSome
        rw [unowned]
        exact sealed_transportHeaders framed requestId
      · intro session owned
        rw [show (normal.body.toEvent permit).session? = some session from owned] at unowned
        cases unowned
      · intro asked _
        show normal.body.toEvent permit = .buffered []
        rw [silent asked]
        rfl

/-- The event transport writes the same fields. A session leaves with the response
itself, and only where the client asked for it. -/
theorem event_responses_sealed (external : External) (state : EventState η)
    (around : EventSurroundings) (request : Request Bytes) {world after : World η}
    {event : Response WebIngressEventBody}
    (returned : handleResponse external (some state) around request world =
      (.ready (.ok event), after)) :
    ∃ requestId, requestIdHeaderValue world.requestIds = some requestId ∧
      OutgoingHead external state.routes.websocketPolicy request.method request.version
        (request.headers.insert requestIdHeader requestId) requestId event.status event.headers
        event.body.session? ∧
      (request.method = .head ∨ isBodiless event.status = true →
        event.body.session? = none → event.body = .buffered []) := by
  obtain ⟨sessionCookie, configured, returned⟩ := Task.expect_bind_ready_iff.mp returned
  obtain ⟨⟨headers, requestId⟩, drawn, replaced, returned⟩ := Task.bind_ready_iff.mp returned
  obtain ⟨number, counted, first, replaced⟩ := Task.bind_ready_iff.mp replaced
  cases first
  obtain ⟨identifier, known, replaced⟩ := Task.expect_bind_ready_iff.mp replaced
  cases replaced
  obtain ⟨⟨response, permit⟩, middle, worked, replied⟩ := Task.bind_ready_iff.mp returned
  have answered := work_answered external state around
    { request with headers := request.headers.insert requestIdHeader requestId }
    (canonicalRequestHeadLen request) sessionCookie _ _ _ worked
  exact ⟨requestId, known, eventReply_outgoing answered replied⟩

/-- The event call returns a response. -/
def answersEvent
    (result : Outcome (Except RuntimeFailure (Response WebIngressEventBody)) × World Unit) : Bool :=
  match result.1 with
  | .ready (.ok _) => true
  | _ => false

theorem exists_of_answersEvent
    {result : Outcome (Except RuntimeFailure (Response WebIngressEventBody)) × World Unit}
    (answers : answersEvent result = true) :
    ∃ event after, result = (.ready (.ok event), after) := by
  obtain ⟨outcome, after⟩ := result
  unfold answersEvent at answers
  split at answers
  · next event returned =>
    dsimp only at returned
    subst returned
    exact ⟨event, after, rfl⟩
  · cases answers

theorem event_responses_sealed_head :
    ∃ event after requestId,
      handleResponse bareExternal
        (some ⟨.default, { streamRoutes oneChunk with
          methods := [(.head, fun path => if path = ascii "/" then
            some ⟨⟨ascii "root", .streaming 0⟩, []⟩ else none)], distinct := by decide }, []⟩) .free
        { bareRequest with method := .head } (.start () 0 0) = (.ready (.ok event), after) ∧
      requestIdHeaderValue 0 = some requestId ∧
      Sealed event.headers requestId event.body.session?.isSome := by
  obtain ⟨event, after, returned⟩ := exists_of_answersEvent
    (show answersEvent (handleResponse bareExternal
      (some ⟨.default, { streamRoutes oneChunk with
        methods := [(.head, fun path => if path = ascii "/" then
          some ⟨⟨ascii "root", .streaming 0⟩, []⟩ else none)], distinct := by decide }, []⟩) .free
      { bareRequest with method := .head } (.start () 0 0)) = true by decide +kernel)
  obtain ⟨requestId, known, outgoing, -⟩ := event_responses_sealed _ _ _ _ returned
  exact ⟨event, after, requestId, returned, known, outgoing.fields⟩

end Ingress
