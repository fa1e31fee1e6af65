import LensoWeb.Ingress.Routing.Head

/-!
# How a dispatch ends

Every way in which the dispatch of one request can end, with the effects it
leaves. Apart from response streams, which `Routing.Head` follows, a dispatch
opens at most one WebSocket stream, and it cancels it or returns its session.
-/

namespace Ingress

open Foundation Http Kernel

namespace RouteTable

variable {η : Type}

/-- The request is routed to a WebSocket Endpoint. -/
def SelectsWebSocket (routes : RouteTable η) (request : InboundRequest) : Prop :=
  ∃ matched index, routes.select request = .ok matched ∧
    matched.target.provider = .webSocket index

/-- The outcome does not own a stream. -/
def Unowned (outcome : Outcome IngressResponse) : Prop :=
  ∀ response, outcome = .ready response → ∃ bytes, response.body = .buffered bytes

/-- The outcome waits for a session, or returns the session on the stream. -/
def Holds (outcome : Outcome IngressResponse) (stream : StreamId) : Prop :=
  outcome = .pending ∨ ∃ response upgrade, outcome = .ready response ∧
    response.body = .webSocket upgrade ∧ upgrade.session.stream = stream

/-- The ways in which a dispatch can end. -/
inductive DispatchEnd (routes : RouteTable η) (request : InboundRequest) (world : World η)
    (outcome : Outcome IngressResponse) (after : World η) : Prop where
  | quiet (noStream : routes.opensStream request world.host = none)
      (effects : after.effects = world.effects) (slot : after.slot = world.slot)
      (unowned : Unowned outcome)
  | closed (noStream : routes.opensStream request world.host = none)
      (effects : after.effects =
        world.effects ++ [.opened world.nextStream, .cancelled world.nextStream])
      (slot : after.slot = world.slot) (unowned : Unowned outcome)
  | socket (noStream : routes.opensStream request world.host = none)
      (selected : routes.SelectsWebSocket request)
      (effects : after.effects = world.effects ++ [.opened world.nextStream])
      (slot : after.slot = world.slot) (held : Holds outcome world.nextStream)
  | stream (matched : RouteMatch) (events : List ResponseEvent) (host : η)
      (opened : routes.opensStream request world.host = some (matched, events, host))
      (answered : routes.answerHead request matched world.nextStream (headPhase events)
        (afterOpening world host) = (outcome, after))

theorem unowned_pending : Unowned .pending := nofun

theorem unowned_panicked : Unowned .panicked := nofun

theorem unowned_error (error : DispatchError) :
    Unowned (.ready (dispatchErrorResponse error)) := by
  rintro response ⟨⟩
  cases error with
  | methodNotAllowed allowed =>
      simp only [dispatchErrorResponse, methodNotAllowed]
      split <;> exact ⟨_, rfl⟩
  | _ => exact ⟨_, rfl⟩

variable {routes : RouteTable η} {request : InboundRequest} {world : World η}

/-- Nothing but the host state has changed, and the outcome owns no stream. -/
structure Quiet (world : World η) (outcome : Outcome IngressResponse) (after : World η) : Prop where
  effects : after.effects = world.effects
  slot : after.slot = world.slot
  unowned : Unowned outcome

/-- Calls of the host are quiet, and so is what they are followed by if it is. -/
theorem quiet_onHost {α : Type} {call : Task η α} {rest : α → Task (World η) IngressResponse}
    {start : World η} (same : start.effects = world.effects ∧ start.slot = world.slot)
    (returned : ∀ value host, call start.host = (.ready value, host) →
      (rest value).Ends { start with host := host } (Quiet world)) :
    (World.onHost call >>= rest).Ends start (Quiet world) :=
  World.onHost_bind_ends (fun _ => ⟨same.1, same.2, unowned_pending⟩)
    (fun _ => ⟨same.1, same.2, unowned_panicked⟩) returned

theorem quiet_runtimeDispatchError {event : WebIngressEndpointFailure} {start : World η}
    (same : start.effects = world.effects ∧ start.slot = world.slot) :
    ((do return .error (← routes.runtimeDispatchError event)) >>= dispatchResponse :
      Task (World η) IngressResponse).Ends start (Quiet world) := by
  simp only [runtimeDispatchError, observeFailure, bind_assoc, pure_bind]
  exact quiet_onHost same fun _ _ _ => ⟨same.1, same.2, unowned_error _⟩

theorem quiet_error {error : DispatchError} {start : World η}
    (same : start.effects = world.effects ∧ start.slot = world.slot) :
    ((pure (.error error) : Task (World η) _) >>= dispatchResponse).Ends start (Quiet world) :=
  ⟨same.1, same.2, unowned_error error⟩

theorem quiet_fromEndpoint (response : HandleResponse) {start : World η}
    (same : start.effects = world.effects ∧ start.slot = world.slot) :
    (fromEndpoint response).Ends start (Quiet world) := by
  unfold fromEndpoint
  split
  · exact ⟨same.1, same.2, by rintro _ ⟨⟩; exact ⟨_, rfl⟩⟩
  · split
    · exact ⟨same.1, same.2, by rintro _ ⟨⟩; exact ⟨_, rfl⟩⟩
    · exact ⟨same.1, same.2, unowned_panicked⟩
    · exact ⟨same.1, same.2, by rintro _ ⟨⟩; exact ⟨_, rfl⟩⟩

theorem invokeBuffered_ends (matched : RouteMatch) (index : Nat) :
    (routes.invokeBuffered request matched index >>= dispatchResponse).Ends world (Quiet world) := by
  rw [invokeBuffered, bind_assoc]
  refine .expect_bind ⟨rfl, rfl, unowned_panicked⟩ fun provider _ => ?_
  rw [bind_assoc]
  refine quiet_onHost ⟨rfl, rfl⟩ fun invoked host _ => ?_
  obtain (_ | failure) | response := invoked
  · exact quiet_error ⟨rfl, rfl⟩
  · exact quiet_runtimeDispatchError ⟨rfl, rfl⟩
  · exact quiet_fromEndpoint response ⟨rfl, rfl⟩

/-- A Stream Endpoint that does not open its stream. -/
theorem invokeStreaming_ends {matched : RouteMatch} {index : Nat}
    (selected : routes.select request = .ok matched)
    (streaming : matched.target.provider = .streaming index)
    (context : routes.invocationContext world.host = .ok ())
    (noStream : routes.opensStream request world.host = none) :
    (routes.invokeStreaming request matched index >>= dispatchResponse).Ends world
      (Quiet world) := by
  rw [invokeStreaming, bind_assoc]
  refine .expect_bind ⟨rfl, rfl, unowned_panicked⟩ fun provider found => ?_
  rw [bind_assoc]
  refine quiet_onHost ⟨rfl, rfl⟩ fun invoked host returned => ?_
  obtain (_ | failure) | events := invoked
  · exact quiet_error ⟨rfl, rfl⟩
  · exact quiet_runtimeDispatchError ⟨rfl, rfl⟩
  · simp [opensStream, selected, streaming, found, context, returned] at noStream

/-- The ways in which the invocation of a WebSocket Endpoint can end. -/
inductive SocketEnd (world : World η) (outcome : Outcome IngressResponse) (after : World η) :
    Prop where
  | quiet (quiet : Quiet world outcome after)
  | closed
      (effects : after.effects =
        world.effects ++ [.opened world.nextStream, .cancelled world.nextStream])
      (slot : after.slot = world.slot) (unowned : Unowned outcome)
  | held (effects : after.effects = world.effects ++ [.opened world.nextStream])
      (slot : after.slot = world.slot) (held : Holds outcome world.nextStream)

theorem acceptSession_ends (handshake : Handshake) (policy : WebSocketConfig)
    (events : List SocketEvent) (host : η) :
    (acceptSession world.nextStream handshake.protocols policy events >>= fun session =>
      dispatchResponse (sessionResponse handshake session)).Ends (afterOpening world host)
        (SocketEnd world) := by
  have closed : (World.cancel world.nextStream >>= fun _ =>
      (pure (dispatchErrorResponse .rejected) : Task (World η) _)).Ends (afterOpening world host)
        (SocketEnd world) :=
    .closed (List.append_assoc _ _ _) rfl (unowned_error .rejected)
  unfold acceptSession
  split
  · exact .held rfl rfl (.inl rfl)
  · split
    · exact .held rfl rfl (.inr ⟨_, _, rfl, rfl, rfl⟩)
    · rw [bind_assoc]
      exact closed
  · rw [bind_assoc]
    exact closed

theorem invokeWebSocket_ends (matched : RouteMatch) (index : Nat) (handshake : Option Handshake)
    (policy : handshake.isSome = true → routes.websocketPolicy.isSome = true) :
    (routes.invokeWebSocket request matched index handshake >>= dispatchResponse).Ends world
      (SocketEnd world) := by
  cases handshake with
  | none => exact .quiet (quiet_error ⟨rfl, rfl⟩)
  | some handshake =>
      obtain ⟨config, configured⟩ := Option.isSome_iff_exists.mp (policy rfl)
      rw [invokeWebSocket]
      split
      · exact .quiet (quiet_error ⟨rfl, rfl⟩)
      · rw [bind_assoc]
        refine .expect_bind (.quiet ⟨rfl, rfl, unowned_panicked⟩) fun provider _ => ?_
        rw [bind_assoc]
        refine World.onHost_bind_ends (fun _ => .quiet ⟨rfl, rfl, unowned_pending⟩)
          (fun _ => .quiet ⟨rfl, rfl, unowned_panicked⟩) fun invoked host _ => ?_
        obtain (error | failure) | events := invoked
        · exact .quiet (quiet_error ⟨rfl, rfl⟩)
        · exact .quiet (quiet_runtimeDispatchError ⟨rfl, rfl⟩)
        · rw [configured]
          have ended : (acceptSession world.nextStream handshake.protocols config events >>=
              fun session => dispatchResponse (sessionResponse handshake session)).Ends
                (afterOpening world host) (SocketEnd world) :=
            acceptSession_ends handshake config events host
          simp only [bind_assoc, pure_bind]
          exact .bind ended

theorem dispatch_ends (handshake : Option Handshake)
    (policy : handshake.isSome = true → routes.websocketPolicy.isSome = true) :
    (routes.dispatch request handshake >>= dispatchResponse).Ends world
      (DispatchEnd routes request world) := by
  cases noStream : routes.opensStream request world.host with
  | some opened =>
      obtain ⟨matched, events, host⟩ := opened
      refine .stream matched events host noStream ?_
      rw [dispatch_of_opensStream routes noStream]
  | none =>
      have quiet : ∀ {outcome after}, Quiet world outcome after →
          DispatchEnd routes request world outcome after :=
        fun ended => .quiet noStream ended.effects ended.slot ended.unowned
      unfold dispatch
      split
      · exact quiet (quiet_error ⟨rfl, rfl⟩)
      · next matched selected =>
        rw [bind_assoc]
        refine World.onHost_bind_ends (fun _ => quiet ⟨rfl, rfl, unowned_pending⟩)
          (fun _ => quiet ⟨rfl, rfl, unowned_panicked⟩) fun context host granted => ?_
        -- Asking for a context does not change the host.
        cases granted
        cases context : routes.invocationContext world.host with
        | error failure =>
            simp only [observeFailure, bind_assoc, pure_bind]
            exact quiet (quiet_onHost ⟨rfl, rfl⟩ fun _ _ _ => ⟨rfl, rfl, unowned_error _⟩)
        | ok _ =>
            dsimp only
            cases provider : matched.target.provider with
            | webSocket index =>
                rcases invokeWebSocket_ends matched index handshake policy with
                  ended | ⟨effects, slot, unowned⟩ | ⟨effects, slot, held⟩
                · exact quiet ended
                · exact .closed noStream effects slot unowned
                · exact .socket noStream ⟨matched, index, selected, provider⟩ effects slot held
            | buffered index => exact quiet (invokeBuffered_ends matched index)
            | streaming index => exact quiet (invokeStreaming_ends selected provider context noStream)

end RouteTable

end Ingress
