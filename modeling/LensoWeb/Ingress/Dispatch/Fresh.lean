import LensoWeb.Ingress.Dispatch.Sockets

/-!
# Dispatched sessions are fresh

Nobody has used a WebSocket session before the response that carries it is
returned: it is open, and it holds no permit yet.
-/

namespace Ingress

open Foundation Http Kernel

variable {η : Type}

/-- The session has neither ended nor been cancelled. -/
structure WebSocketSession.Fresh (session : WebSocketSession) : Prop where
  notCancelled : session.cancelled = false
  notTerminal : session.terminal = false

/-- A session in the body is fresh. -/
def IngressBody.Fresh (body : IngressBody) : Prop :=
  ∀ upgrade, body = .webSocket upgrade → upgrade.session.Fresh

theorem IngressBody.fresh_buffered (bytes : Bytes) : (IngressBody.buffered bytes).Fresh := by
  rintro upgrade ⟨⟩

namespace RouteTable

/-- A session in a dispatched response is fresh. -/
def FreshDispatch (result : Except DispatchError DispatchResponse) : Prop :=
  ∀ upgrade, result = .ok (.webSocket upgrade) → upgrade.session.Fresh

theorem freshDispatch_error (error : DispatchError) : FreshDispatch (.error error) := by
  rintro upgrade ⟨⟩

variable (routes : RouteTable η) (request : InboundRequest) (matched : RouteMatch)

theorem acceptSession_yields (stream : StreamId) (offered : List Bytes) (policy : WebSocketConfig)
    (events : List SocketEvent) :
    (acceptSession stream offered policy events : Task (World η) _).Yields
      fun result => ∀ session, result = .ok session → session.Fresh := by
  have refused : (do World.cancel stream; return .error sessionFailure :
      Task (World η) (Except RuntimeFailure WebSocketSession)).Yields
        fun result => ∀ session, result = .ok session → session.Fresh :=
    .bind fun _ => .pure (by rintro session ⟨⟩)
  obtain _ | ⟨failure | frame | _ | _, rest⟩ := events
  · exact .never
  · exact refused
  · rw [acceptSession]
    split
    · refine .pure ?_
      rintro session ⟨⟩
      exact ⟨rfl, rfl⟩
    · exact refused
  · exact refused
  · exact refused

theorem runtimeDispatchError_yields (event : WebIngressEndpointFailure) :
    (do return .error (← routes.runtimeDispatchError event) :
      Task (World η) (Except DispatchError DispatchResponse)).Yields FreshDispatch :=
  .bind fun _ => .pure (freshDispatch_error _)

theorem invokeWebSocket_yields (index : Nat) (handshake : Option Handshake) :
    (routes.invokeWebSocket request matched index handshake).Yields FreshDispatch := by
  cases handshake with
  | none => exact .pure (freshDispatch_error _)
  | some handshake =>
      rw [invokeWebSocket]
      split
      · exact .pure (freshDispatch_error _)
      · refine .bind fun provider => .bind fun invoked => ?_
        obtain (error | failure) | events := invoked
        · exact .pure (freshDispatch_error _)
        · exact routes.runtimeDispatchError_yields _
        · refine .bind fun stream => ?_
          cases routes.websocketPolicy with
          | none => exact .pure (freshDispatch_error _)
          | some policy =>
              refine .bind_of (acceptSession_yields stream _ policy events) ?_
              intro result fresh
              refine .pure ?_
              cases result with
              | error failure => exact freshDispatch_error _
              | ok session =>
                  rintro upgrade ⟨⟩
                  exact fresh session rfl

theorem invokeBuffered_yields (index : Nat) :
    (routes.invokeBuffered request matched index).Yields FreshDispatch := by
  refine .bind fun provider => .bind fun invoked => ?_
  obtain (error | failure) | response := invoked
  · exact .pure (freshDispatch_error _)
  · exact routes.runtimeDispatchError_yields _
  · refine .pure ?_
    rintro upgrade ⟨⟩

theorem invokeStreaming_yields (index : Nat) :
    (routes.invokeStreaming request matched index).Yields FreshDispatch := by
  refine .bind fun provider => .bind fun invoked => ?_
  obtain (error | failure) | events := invoked
  · exact .pure (freshDispatch_error _)
  · exact routes.runtimeDispatchError_yields _
  · refine .bind fun stream => .bind fun received => ?_
    obtain error | ⟨⟨kind, status, headers, body⟩, rest⟩ := received
    · exact .pure (freshDispatch_error _)
    · have refused : (do World.cancel stream; return .error .rejected :
          Task (World η) (Except DispatchError DispatchResponse)).Yields FreshDispatch :=
        .bind fun _ => .pure (freshDispatch_error _)
      obtain _ | status := status
      · exact refused
      · obtain _ | headers := headers
        · exact refused
        · obtain _ | body := body
          · refine .pure ?_
            rintro upgrade ⟨⟩
          · exact refused

theorem dispatch_yields (handshake : Option Handshake) :
    (routes.dispatch request handshake).Yields FreshDispatch := by
  rw [dispatch]
  cases routes.select request with
  | error error => exact .pure (freshDispatch_error _)
  | ok matched =>
      refine .bind fun context => ?_
      cases context with
      | error failure => exact .bind fun _ => .pure (freshDispatch_error _)
      | ok _ =>
          dsimp only
          split
          · exact routes.invokeWebSocket_yields request matched _ handshake
          · exact routes.invokeBuffered_yields request matched _
          · exact routes.invokeStreaming_yields request matched _

end RouteTable

/-- The response to a dispatch carries the session that was dispatched. -/
theorem dispatchResponse_yields {result : Except DispatchError DispatchResponse}
    (fresh : RouteTable.FreshDispatch result) :
    (dispatchResponse result : Task (World η) IngressResponse).Yields fun response =>
      response.body.Fresh := by
  obtain error | response | response | upgrade := result
  · refine .pure ?_
    obtain ⟨bytes, buffered⟩ := RouteTable.unowned_error error _ rfl
    exact buffered ▸ IngressBody.fresh_buffered bytes
  · rw [dispatchResponse, fromEndpoint]
    split
    · exact .pure (IngressBody.fresh_buffered _)
    · split
      · exact .pure (IngressBody.fresh_buffered _)
      · exact .panic
      · exact .pure (IngressBody.fresh_buffered _)
  · rw [dispatchResponse, fromStreamEndpoint]
    split
    · exact .bind fun _ => .pure (IngressBody.fresh_buffered _)
    · split
      · exact .bind fun _ => .pure (IngressBody.fresh_buffered _)
      · exact .panic
      · refine .pure ?_
        rintro upgrade ⟨⟩
  · refine .pure ?_
    rintro upgrade' ⟨⟩
    exact fresh upgrade rfl

theorem dispatchRestored_yields (routes : RouteTable η) (handshake : Option Handshake)
    (control : InboundRequestControl) (visible : WebIngressRequest) :
    (dispatchRestored routes handshake control visible).Yields fun response =>
      response.body.Fresh := by
  rw [dispatchRestored]
  split
  · exact .bind fun _ => .bind_of (routes.dispatch_yields _ handshake)
      fun _ fresh => dispatchResponse_yields fresh
  · next rejection _ =>
    refine .pure ?_
    cases rejection <;> exact IngressBody.fresh_buffered _

/-! ### The slot -/

/-- A session in the slot is fresh. -/
def FreshSlot (world : World η) : Prop := ∀ body, world.slot = some body → body.Fresh

theorem freshSlot_parkStream {response : IngressResponse} (fresh : response.body.Fresh)
    (world : World η) : FreshSlot (parkStream response world).2 := by
  obtain ⟨status, headers, body⟩ := response
  cases body with
  | buffered bytes => rintro body ⟨⟩
  | streaming stream =>
      rintro body ⟨⟩
      exact fresh
  | webSocket upgrade =>
      rintro body ⟨⟩
      exact fresh

/-- Routing does not touch the slot. -/
theorem dispatchRestored_slot {routes : RouteTable η} {handshake : Option Handshake}
    (policy : handshake.isSome = true → routes.websocketPolicy.isSome = true)
    (control : InboundRequestControl) (visible : WebIngressRequest) (world : World η) :
    (dispatchRestored routes handshake control visible world).2.slot = world.slot := by
  rw [dispatchRestored]
  cases restoreInboundRequest visible control with
  | error rejection => rfl
  | ok inbound =>
      let dispatched : World η :=
        { world with effects := world.effects ++ [.dispatched visible inbound] }
      have ended : (routes.dispatch inbound handshake >>= dispatchResponse).Ends dispatched
          (RouteTable.DispatchEnd routes inbound dispatched) :=
        RouteTable.dispatch_ends handshake policy
      exact (noted_of_dispatchEnd ended).1

/-- What is parked in the slot is fresh. -/
theorem dispatchVisible_fresh {routes : RouteTable η} {handshake : Option Handshake}
    (policy : handshake.isSome = true → routes.websocketPolicy.isSome = true)
    (control : InboundRequestControl) (visible : WebIngressRequest) :
    (dispatchVisible routes handshake control visible).Keeps FreshSlot := by
  intro world held
  rw [dispatchVisible, Task.bind_apply]
  cases whole : dispatchRestored routes handshake control visible world with
  | mk outcome after =>
      have kept : after.slot = world.slot := by
        have ended := dispatchRestored_slot policy control visible world
        rwa [whole] at ended
      cases outcome with
      | ready response =>
          exact freshSlot_parkStream
            (dispatchRestored_yields routes handshake control visible world response after whole) after
      | pending => exact fun body full => held body (kept ▸ full)
      | panicked => exact fun body full => held body (kept ▸ full)

theorem dispatchEnvelope_fresh {routes : RouteTable η} {handshake : Option Handshake}
    (policy : handshake.isSome = true → routes.websocketPolicy.isSome = true)
    (middleware : List (WebIngressMiddleware η)) (control : InboundRequestControl)
    (visible : WebIngressRequest) :
    (dispatchEnvelope routes middleware handshake control visible).Yields fun response =>
      response.body.Fresh := by
  intro world response after returned
  have hooks : ∀ layer ∈ middleware.map (·.within World.hostPart), layer.Keeps FreshSlot := by
    intro layer inside
    obtain ⟨inner, -, rfl⟩ := List.mem_map.mp inside
    exact ⟨fun _ => .within _ fun _ _ fresh => fresh, fun _ _ => .within _ fun _ _ fresh => fresh⟩
  have kept := (Middleware.run_keeps hooks (dispatchVisible_fresh policy control)
    visible).catchUnwind { world with slot := none } (by rintro body ⟨⟩)
  have guarded : ((Middleware.run (middleware.map (·.within World.hostPart)) visible
      (dispatchVisible routes handshake control)).catchUnwind >>= joinSlot)
      { world with slot := none } = (.ready response, after) := returned
  obtain ⟨result, middle, run, joining⟩ := Task.bind_ready_iff.mp guarded
  rw [run] at kept
  intro upgrade body
  cases joinSlot_joined joining with
  | handed head owned _ slot same _ => exact kept owned slot upgrade (same ▸ body)
  | cancelled _ _ unowned _ => simp [body, IngressBody.stream?] at unowned
  | dropped _ _ unowned _ => simp [body, IngressBody.stream?] at unowned

/-- A session in the response to a request is fresh. -/
theorem dispatchBuffered_fresh (external : External) (request : Request Bytes)
    (sessionCookie : Option SessionCookiePolicy) (routes : RouteTable η)
    (middleware : List (WebIngressMiddleware η)) :
    (dispatchBuffered external request sessionCookie routes middleware).Yields fun response =>
      response.body.Fresh := by
  rw [dispatchBuffered]
  split
  · next response admitted =>
    obtain ⟨bytes, buffered⟩ := buffered_of_admission external admitted
    exact .pure (buffered ▸ IngressBody.fresh_buffered bytes)
  · next accepted admitted =>
    rw [dispatchInbound]
    split
    · rintro world response after ⟨⟩
    · exact dispatchEnvelope_fresh (policy_of_admission external admitted) middleware _ _

end Ingress
