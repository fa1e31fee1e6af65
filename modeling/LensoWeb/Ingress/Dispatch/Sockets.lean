import LensoWeb.Ingress.Dispatch.Ownership

/-!
# Where WebSocket responses come from

A response owns a WebSocket session only if a request was dispatched to a
WebSocket route. The slot carries the session past middleware, so this is an
invariant of slot and effects.
-/

namespace Ingress

open Foundation Http Kernel

variable {η : Type}

/-- Some request has been dispatched to a WebSocket route. -/
def SocketDispatched (routes : RouteTable η) (effects : List Effect) : Prop :=
  ∃ visible inbound, .dispatched visible inbound ∈ effects ∧ routes.SelectsWebSocket inbound

theorem SocketDispatched.mono {routes : RouteTable η} {effects later : List Effect}
    (dispatched : SocketDispatched routes effects) (grown : effects ⊆ later) :
    SocketDispatched routes later := by
  obtain ⟨visible, inbound, member, selected⟩ := dispatched
  exact ⟨visible, inbound, grown member, selected⟩

/-- A session in the slot has been dispatched. -/
def Noted (routes : RouteTable η) (world : World η) : Prop :=
  ∀ upgrade, world.slot = some (.webSocket upgrade) → SocketDispatched routes world.effects

theorem Noted.later {routes : RouteTable η} {world after : World η} (noted : Noted routes world)
    (slot : after.slot = world.slot) (grown : world.effects ⊆ after.effects) :
    Noted routes after := fun upgrade full =>
  (noted upgrade (slot.symm.trans full)).mono grown

/-- The slot is kept, the effects grow, and the outcome owns no session. -/
structure Socketless (world : World η) (outcome : Outcome IngressResponse) (after : World η) :
    Prop where
  slot : after.slot = world.slot
  grown : world.effects ⊆ after.effects
  noSocket : ∀ response upgrade, outcome = .ready response → response.body ≠ .webSocket upgrade

theorem noSocket_of_unowned {outcome : Outcome IngressResponse}
    (unowned : RouteTable.Unowned outcome) (response : IngressResponse)
    (upgrade : WebSocketUpgrade) (returned : outcome = .ready response) :
    response.body ≠ .webSocket upgrade := by
  obtain ⟨bytes, buffered⟩ := unowned response returned
  rw [buffered]
  rintro ⟨⟩

/-- The answer to a head never owns a session. -/
theorem answerHead_socketless (routes : RouteTable η) (request : InboundRequest)
    (matched : RouteMatch) (stream : StreamId) (phase : HeadPhase) (world : World η) :
    (routes.answerHead request matched stream phase).Ends world (Socketless world) := by
  cases phase with
  | waiting =>
      exact ⟨rfl, List.Subset.refl _, noSocket_of_unowned RouteTable.unowned_pending⟩
  | failed failure =>
      rw [RouteTable.answerHead, RouteTable.runtimeDispatchError, RouteTable.observeFailure,
        bind_assoc]
      refine World.onHost_bind_ends
        (fun _ => ⟨rfl, List.Subset.refl _, noSocket_of_unowned RouteTable.unowned_pending⟩)
        (fun _ => ⟨rfl, List.Subset.refl _, noSocket_of_unowned RouteTable.unowned_panicked⟩)
        fun _ _ _ => ⟨rfl, List.Subset.refl _, noSocket_of_unowned (RouteTable.unowned_error _)⟩
  | refused =>
      exact ⟨rfl, List.subset_append_left _ _,
        noSocket_of_unowned (RouteTable.unowned_error .rejected)⟩
  | invalid =>
      refine ⟨rfl, List.subset_append_left _ _, noSocket_of_unowned ?_⟩
      rintro response ⟨⟩
      exact ⟨_, rfl⟩
  | unwound =>
      exact ⟨rfl, List.Subset.refl _, noSocket_of_unowned RouteTable.unowned_panicked⟩
  | accepted status headers rest =>
      refine ⟨rfl, List.Subset.refl _, ?_⟩
      rintro response upgrade ⟨⟩ ⟨⟩

/-- How a dispatch ends, as far as sessions are concerned. -/
theorem noted_of_dispatchEnd {routes : RouteTable η} {inbound : InboundRequest}
    {world after : World η} {outcome : Outcome IngressResponse}
    (ended : RouteTable.DispatchEnd routes inbound world outcome after) :
    after.slot = world.slot ∧ world.effects ⊆ after.effects ∧
      ∀ response upgrade, outcome = .ready response → response.body = .webSocket upgrade →
        routes.SelectsWebSocket inbound := by
  cases ended with
  | quiet _ effects slot unowned =>
      refine ⟨slot, by rw [effects]; exact List.Subset.refl _, ?_⟩
      intro response upgrade returned body
      exact absurd body (noSocket_of_unowned unowned response upgrade returned)
  | closed _ effects slot unowned =>
      refine ⟨slot, by rw [effects]; exact List.subset_append_left _ _, ?_⟩
      intro response upgrade returned body
      exact absurd body (noSocket_of_unowned unowned response upgrade returned)
  | socket _ selected effects slot _ =>
      exact ⟨slot, by rw [effects]; exact List.subset_append_left _ _, fun _ _ _ _ => selected⟩
  | stream matched events host _ answered =>
      have answer := answerHead_socketless routes inbound matched world.nextStream
        (headPhase events) (RouteTable.afterOpening world host)
      rw [Task.Ends, answered] at answer
      exact ⟨answer.slot, fun _ inside => answer.grown (List.mem_append_left _ inside),
        fun response upgrade returned body =>
          absurd body (answer.noSocket response upgrade returned)⟩

/-! ### Whole requests -/

section Runs

variable {routes : RouteTable η} {handshake : Option Handshake}
  (policy : handshake.isSome = true → routes.websocketPolicy.isSome = true)

include policy

theorem dispatchVisible_noted (control : InboundRequestControl) (visible : WebIngressRequest) :
    (dispatchVisible routes handshake control visible).Keeps (Noted routes) := by
  intro world noted
  show (dispatchVisible routes handshake control visible).Ends world fun _ after =>
    Noted routes after
  refine .bind ?_
  unfold dispatchRestored
  cases restored : restoreInboundRequest visible control with
  | error rejection => cases rejection <;> rintro _ ⟨⟩
  | ok inbound =>
      let dispatched : World η :=
        { world with effects := world.effects ++ [.dispatched visible inbound] }
      have recorded : Effect.dispatched visible inbound ∈ dispatched.effects :=
        List.mem_append_right _ (List.mem_singleton_self _)
      have ended : (routes.dispatch inbound handshake >>= dispatchResponse).Ends dispatched
          (RouteTable.DispatchEnd routes inbound dispatched) :=
        RouteTable.dispatch_ends handshake policy
      obtain ⟨slot, grown, sockets⟩ := noted_of_dispatchEnd ended
      have later : Noted routes
          ((routes.dispatch inbound handshake >>= dispatchResponse) dispatched).2 :=
        noted.later slot fun _ inside => grown (List.mem_append_left _ inside)
      show Task.After _ _ ((routes.dispatch inbound handshake >>= dispatchResponse) dispatched).1
        ((routes.dispatch inbound handshake >>= dispatchResponse) dispatched).2
      cases whole : (routes.dispatch inbound handshake >>= dispatchResponse) dispatched with
      | mk outcome after =>
          rw [whole] at grown sockets later
          cases outcome with
          | pending => exact later
          | panicked => exact later
          | ready response =>
              intro upgrade full
              refine ⟨visible, inbound, grown recorded, sockets response upgrade rfl ?_⟩
              obtain ⟨status, headers, body⟩ := response
              cases body <;> cases full
              rfl

theorem dispatchEnvelope_noted {middleware : List (WebIngressMiddleware η)}
    {control : InboundRequestControl} {visible : WebIngressRequest} {world after : World η}
    {response : IngressResponse} {upgrade : WebSocketUpgrade}
    (returned : dispatchEnvelope routes middleware handshake control visible world =
      (.ready response, after)) (body : response.body = .webSocket upgrade) :
    SocketDispatched routes after.effects := by
  let start : World η := { world with slot := none }
  have hooks : ∀ layer ∈ middleware.map (·.within World.hostPart),
      layer.Keeps (Noted routes) := by
    intro layer inside
    obtain ⟨inner, -, rfl⟩ := List.mem_map.mp inside
    exact ⟨fun _ => .within _ fun _ _ noted => noted, fun _ _ => .within _ fun _ _ noted => noted⟩
  have kept := (Middleware.run_keeps hooks (dispatchVisible_noted policy control)
    visible).catchUnwind start (by rintro _ ⟨⟩)
  have guarded : ((Middleware.run (middleware.map (·.within World.hostPart)) visible
      (dispatchVisible routes handshake control)).catchUnwind >>= joinSlot) start =
      (.ready response, after) := returned
  obtain ⟨result, middle, run, joining⟩ := Task.bind_ready_iff.mp guarded
  rw [run] at kept
  cases joinSlot_joined joining with
  | handed head owned _ slot same effects =>
      rw [effects]
      exact kept upgrade (by rw [slot, ← same, body])
  | cancelled _ _ unowned _ => simp [body, IngressBody.stream?] at unowned
  | dropped _ _ unowned _ => simp [body, IngressBody.stream?] at unowned

end Runs

/-- A response with a session was dispatched to a WebSocket route. -/
theorem dispatchBuffered_socketDispatched {external : External} {request : Request Bytes}
    {sessionCookie : Option SessionCookiePolicy} {routes : RouteTable η}
    {middleware : List (WebIngressMiddleware η)} {world after : World η}
    {response : IngressResponse} {upgrade : WebSocketUpgrade}
    (returned : dispatchBuffered external request sessionCookie routes middleware world =
      (.ready response, after)) (body : response.body = .webSocket upgrade) :
    SocketDispatched routes after.effects := by
  unfold dispatchBuffered at returned
  cases admitted : admission external request sessionCookie routes with
  | error early =>
      rw [admitted] at returned
      cases returned
      obtain ⟨bytes, buffered⟩ := buffered_of_admission external admitted
      cases buffered.symm.trans body
  | ok accepted =>
      obtain ⟨handshake, inbound⟩ := accepted
      simp only [admitted, dispatchInbound] at returned
      cases rebuilt : middlewareRequest external.uri inbound request.version with
      | none =>
          rw [rebuilt] at returned
          cases returned
      | some envelope =>
          rw [rebuilt] at returned
          exact dispatchEnvelope_noted (policy_of_admission external admitted) returned body

end Ingress
