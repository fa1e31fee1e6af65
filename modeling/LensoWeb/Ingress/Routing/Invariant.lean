import LensoWeb.Ingress.Routing

/-!
# Invariants of a dispatch

Around the call of a provider, a dispatch only reports failures to the observer, opens
a stream and cancels it. An invariant of these three is one of every wait for the first
frame of a stream or session.
-/

namespace Ingress

open Foundation Kernel

variable {η : Type}

/-- The steps of a dispatch other than the provider call keep the invariant. -/
structure RouteTable.Preserves (routes : RouteTable η) (invariant : World η → Prop) : Prop where
  observeFailure : ∀ event, (routes.observeFailure event).Keeps invariant
  cancel : ∀ stream, (World.cancel stream : Task (World η) Unit).Keeps invariant
  openStream : (World.openStream : Task (World η) StreamId).Keeps invariant

namespace RouteTable.Preserves

variable {routes : RouteTable η} {invariant : World η → Prop}
  (preserves : routes.Preserves invariant)
include preserves

theorem runtimeDispatchError (event : WebIngressEndpointFailure) :
    (routes.runtimeDispatchError event).Keeps invariant :=
  .bind (preserves.observeFailure event) fun _ => .pure _

/-- Close the stream and report an error. -/
theorem refuse {α : Type} (stream : StreamId) (value : α) :
    (do World.cancel stream; return value : Task (World η) α).Keeps invariant :=
  .bind (preserves.cancel stream) fun _ => .pure _

theorem receiveHead (request : InboundRequest) (matched : RouteMatch) (stream : StreamId)
    (events : List ResponseEvent) :
    (routes.receiveHead request matched stream events).Keeps invariant := by
  induction events with
  | nil => exact .never
  | cons event rest ih =>
      obtain failure | frame | _ | result := event
      · exact .bind (preserves.runtimeDispatchError _) fun _ => .pure _
      · rw [RouteTable.receiveHead]
        split
        · exact .pure _
        · exact preserves.refuse stream _
      · exact ih
      · exact preserves.refuse stream _

theorem awaitHead (request : InboundRequest) (matched : RouteMatch) (stream : StreamId)
    (events : List ResponseEvent) :
    (routes.awaitHead request matched stream events).Keeps invariant := by
  refine .bind (preserves.receiveHead request matched stream events) fun received => ?_
  obtain error | ⟨head, rest⟩ := received
  · exact .pure _
  · dsimp only
    split
    · exact .pure _
    · exact preserves.refuse stream _

theorem acceptSession (stream : StreamId) (offered : List Bytes) (policy : WebSocketConfig)
    (events : List SocketEvent) :
    (acceptSession stream offered policy events :
      Task (World η) (Except RuntimeFailure WebSocketSession)).Keeps invariant := by
  unfold RouteTable.acceptSession
  split
  · exact .never
  · split
    · exact .pure _
    · exact preserves.refuse stream _
  · exact preserves.refuse stream _

end RouteTable.Preserves

end Ingress
