import LensoWeb.Ingress.Dispatch
import LensoWeb.Ingress.Request.Envelope
import LensoWeb.Ingress.Routing.Invariant

/-!
# Evidence isolation

Whatever global middleware does to a request, the request that reaches the route
table shows no withheld header, and its credential and identifier are those of
the client's own request. The argument is an invariant of the effects: all that
is ever dispatched was restored with the control record of the client's request.
-/

namespace Ingress

open Foundation Http Kernel

variable {η : Type}

/-! ### Invariants of the effects -/

/-- Every effect so far has the property. -/
def World.Logs (P : Effect → Prop) (world : World η) : Prop := ∀ effect ∈ world.effects, P effect

/-- The property says nothing against streams being opened and cancelled. -/
structure AdmitsStreams (P : Effect → Prop) : Prop where
  opened : ∀ stream, P (.opened stream)
  cancelled : ∀ stream, P (.cancelled stream)

variable {P : Effect → Prop}

namespace World

theorem onHost_keeps {α : Type} (call : Task η α) : (onHost call).Keeps (Logs P) :=
  .within hostPart fun _ _ logged => logged

theorem emit_keeps {effect : Effect} (holds : P effect) :
    (emit effect : Task (World η) Unit).Keeps (Logs P) := by
  refine .update fun world logged other member => ?_
  obtain old | new := List.mem_append.mp member
  · exact logged other old
  · rw [List.mem_singleton.mp new]
    exact holds

theorem cancel_keeps (admits : AdmitsStreams P) (stream : StreamId) :
    (cancel stream : Task (World η) Unit).Keeps (Logs P) := emit_keeps (admits.cancelled stream)

theorem openStream_keeps (admits : AdmitsStreams P) :
    (openStream : Task (World η) StreamId).Keeps (Logs P) := by
  intro world logged other member
  obtain old | new := List.mem_append.mp member
  · exact logged other old
  · rw [List.mem_singleton.mp new]
    exact admits.opened _

theorem setSlot_keeps (slot : Option IngressBody) :
    (setSlot slot : Task (World η) Unit).Keeps (Logs P) := fun _ logged => logged

theorem takeSlot_keeps : (takeSlot : Task (World η) (Option IngressBody)).Keeps (Logs P) :=
  fun _ logged => logged

theorem dropSlot_keeps (admits : AdmitsStreams P) :
    (dropSlot : Task (World η) Unit).Keeps (Logs P) := by
  refine .bind takeSlot_keeps fun slot => ?_
  obtain _ | _ | _ | upgrade := slot
  · exact .pure _
  · exact .pure _
  · exact .pure _
  · exact cancel_keeps admits _

end World

open World

section Dispatch

variable (admits : AdmitsStreams P) (routes : RouteTable η)

include admits

theorem fromStreamEndpoint_keeps (response : StreamingResponse) :
    (fromStreamEndpoint response : Task (World η) IngressResponse).Keeps (Logs P) := by
  unfold fromStreamEndpoint
  split
  · exact .bind (cancel_keeps admits _) fun _ => .pure _
  · split
    · exact .bind (cancel_keeps admits _) fun _ => .pure _
    · exact .panic
    · exact .pure _

theorem dispatchResponse_keeps (result : Except DispatchError DispatchResponse) :
    (dispatchResponse result : Task (World η) IngressResponse).Keeps (Logs P) := by
  unfold dispatchResponse
  split
  · exact fromEndpoint_keeps _
  · exact fromStreamEndpoint_keeps admits _
  · exact .pure _
  · exact .pure _

theorem withSession_keeps (response : IngressResponse) (body : IngressBody) :
    (response.withSession body : Task (World η) IngressResponse).Keeps (Logs P) := by
  unfold IngressResponse.withSession
  split
  · split
    · exact .bind (cancel_keeps admits _) fun _ => .pure _
    · refine .bind (.expect _) fun _ => .bind (.expect _) fun _ => .bind (.expect _) fun _ =>
        .bind (.expect _) fun _ => ?_
      split
      · exact .pure _
      · exact .bind (.expect _) fun _ => .bind (.expect _) fun _ => .pure _
  · exact .pure _

namespace RouteTable

theorem preserves_logs : routes.Preserves (Logs P) where
  observeFailure _ := onHost_keeps _
  cancel := cancel_keeps admits
  openStream := openStream_keeps admits

theorem invokeBuffered_keeps (request : InboundRequest) (matched : RouteMatch) (index : Nat) :
    (routes.invokeBuffered request matched index).Keeps (Logs P) := by
  refine .bind (.expect _) fun provider => .bind (onHost_keeps _) fun invoked => ?_
  obtain (_ | failure) | response := invoked
  · exact .pure _
  · exact .bind ((preserves_logs admits routes).runtimeDispatchError _) fun _ => .pure _
  · exact .pure _

theorem invokeStreaming_keeps (request : InboundRequest) (matched : RouteMatch) (index : Nat) :
    (routes.invokeStreaming request matched index).Keeps (Logs P) := by
  refine .bind (.expect _) fun provider => .bind (onHost_keeps _) fun invoked => ?_
  obtain (_ | failure) | events := invoked
  · exact .pure _
  · exact .bind ((preserves_logs admits routes).runtimeDispatchError _) fun _ => .pure _
  · exact .bind (openStream_keeps admits) fun stream =>
      (preserves_logs admits routes).awaitHead request matched stream events

theorem invokeWebSocket_keeps (request : InboundRequest) (matched : RouteMatch) (index : Nat)
    (handshake : Option Handshake) :
    (routes.invokeWebSocket request matched index handshake).Keeps (Logs P) := by
  cases handshake with
  | none => exact .pure _
  | some handshake =>
      rw [invokeWebSocket]
      split
      · exact .pure _
      · refine .bind (.expect _) fun provider => .bind (onHost_keeps _) fun invoked => ?_
        obtain (_ | failure) | events := invoked
        · exact .pure _
        · exact .bind ((preserves_logs admits routes).runtimeDispatchError _) fun _ => .pure _
        · refine .bind (openStream_keeps admits) fun stream => ?_
          split
          · exact .pure _
          · exact .bind ((preserves_logs admits routes).acceptSession stream _ _ events) fun _ =>
              .pure _

theorem dispatch_keeps (request : InboundRequest) (handshake : Option Handshake) :
    (routes.dispatch request handshake).Keeps (Logs P) := by
  unfold dispatch
  split
  · exact .pure _
  · refine .bind (onHost_keeps _) fun context => ?_
    cases context with
    | error failure => exact .bind (onHost_keeps _) fun _ => .pure _
    | ok _ =>
        dsimp only
        split
        · exact invokeWebSocket_keeps admits routes request _ _ handshake
        · exact invokeBuffered_keeps admits routes request _ _
        · exact invokeStreaming_keeps admits routes request _ _

end RouteTable

theorem dispatchVisible_keeps (handshake : Option Handshake) (control : InboundRequestControl)
    (recorded : ∀ visible inbound, restoreInboundRequest visible control = .ok inbound →
      P (.dispatched visible inbound)) (visible : WebIngressRequest) :
    (dispatchVisible routes handshake control visible).Keeps (Logs P) := by
  refine .bind ?_ fun response => .bind (setSlot_keeps _) fun _ => .pure _
  unfold dispatchRestored
  split
  · next inbound restored =>
    exact .bind (emit_keeps (recorded visible inbound restored)) fun _ =>
      .bind (RouteTable.dispatch_keeps admits routes inbound handshake) fun result =>
        dispatchResponse_keeps admits result
  · exact .pure _

theorem joinSlot_keeps (result : Option (Except RuntimeFailure WebIngressResponse)) :
    (joinSlot result : Task (World η) IngressResponse).Keeps (Logs P) := by
  unfold joinSlot
  split
  · refine .bind takeSlot_keeps fun slot => ?_
    cases slot with
    | none => exact .pure _
    | some body => exact withSession_keeps admits _ body
  · exact .bind (dropSlot_keeps admits) fun _ => .pure _

end Dispatch

/-! ### Isolation -/

/-- A dispatched request was restored with the given control record. -/
def RestoredWith (control : InboundRequestControl) : Effect → Prop
  | .dispatched visible inbound => restoreInboundRequest visible control = .ok inbound
  | _ => True

theorem restoredWith_admitsStreams (control : InboundRequestControl) :
    AdmitsStreams (RestoredWith control) := ⟨fun _ => trivial, fun _ => trivial⟩

theorem dispatchEnvelope_logs (routes : RouteTable η) (middleware : List (WebIngressMiddleware η))
    (handshake : Option Handshake) (control : InboundRequestControl)
    (visible : WebIngressRequest) :
    (dispatchEnvelope routes middleware handshake control visible).Keeps
      (Logs (RestoredWith control)) := by
  have admits := restoredWith_admitsStreams control
  refine .bind (setSlot_keeps none) fun _ => .bind (.catchUnwind ?_) fun result =>
    joinSlot_keeps admits result
  refine Middleware.run_keeps (fun layer inside => ?_) (fun request => ?_) visible
  · obtain ⟨inner, -, rfl⟩ := List.mem_map.mp inside
    exact ⟨fun _ => onHost_keeps _, fun _ _ => onHost_keeps _⟩
  · exact dispatchVisible_keeps admits routes handshake control (fun _ _ restored => restored) request

/-- Whatever is dispatched for a client request was restored with its control record. -/
theorem restored_of_dispatched {external : External} {request : Request Bytes}
    {policy : Option SessionCookiePolicy} {routes : RouteTable η}
    {middleware : List (WebIngressMiddleware η)} {world : World η}
    (unused : world.effects = []) {visible : WebIngressRequest} {inbound : InboundRequest}
    (dispatched : .dispatched visible inbound ∈
      (dispatchBuffered external request policy routes middleware world).2.effects) :
    ∃ client, inboundRequest request.method request.uri request.headers request.body policy =
        .ok client ∧ restoreInboundRequest visible client.control = .ok inbound := by
  have silent : ∀ effect, effect ∉ world.effects := by simp [unused]
  unfold dispatchBuffered at dispatched
  cases admitted : admission external request policy routes with
  | error response =>
      rw [admitted] at dispatched
      exact absurd dispatched (silent _)
  | ok accepted =>
      obtain ⟨handshake, client⟩ := accepted
      refine ⟨client, (admission_eq_ok external admitted).2, ?_⟩
      simp only [admitted, dispatchInbound] at dispatched
      cases rebuilt : middlewareRequest external.uri client request.version with
      | none =>
          rw [rebuilt] at dispatched
          exact absurd dispatched (silent _)
      | some envelope =>
          obtain ⟨visible', control⟩ := envelope
          obtain rfl := control_of_middlewareRequest rebuilt
          rw [rebuilt] at dispatched
          have logs := dispatchEnvelope_logs routes middleware handshake client.control visible'
            world fun effect member => absurd member (silent effect)
          exact logs _ dispatched

/-- The request that reaches the route table shows no withheld header, whatever
middleware did, and carries the credential and the identifier of the client's
request. Two lists of middleware agree on both. -/
theorem evidence_isolated (external : External) (request : Request Bytes)
    (policy : Option SessionCookiePolicy) (routes : RouteTable η)
    (middleware : List (WebIngressMiddleware η)) (host : η) (requestIds : UInt64)
    (nextStream : StreamId) (visible : WebIngressRequest) (inbound : InboundRequest)
    (dispatched : .dispatched visible inbound ∈ (dispatchBuffered external request policy routes
      middleware (.start host requestIds nextStream)).2.effects) :
    (∀ header ∈ inbound.headers,
        Isolated (policy.map (·.csrfHeaderName)) visible.headers header.name) ∧
      requestId request.headers = .ok inbound.requestId ∧
      selectCredential request.method request.headers policy = .ok inbound.credential ∧
      ∀ (middleware' : List (WebIngressMiddleware η)) (host' : η) (visible' : WebIngressRequest)
        (inbound' : InboundRequest),
        .dispatched visible' inbound' ∈ (dispatchBuffered external request policy routes
          middleware' (.start host' requestIds nextStream)).2.effects →
        inbound'.credential = inbound.credential ∧ inbound'.requestId = inbound.requestId := by
  obtain ⟨client, accepted, restored⟩ := restored_of_dispatched rfl dispatched
  obtain ⟨identified, selected, csrf, -⟩ := inboundRequest_eq_ok accepted
  obtain ⟨filtered, credential, identifier⟩ := restoreInboundRequest_eq_ok restored
  refine ⟨?_, ?_, ?_, ?_⟩
  · rw [← csrf]
    exact isolated_of_inboundHeaders filtered
  · rw [identified, identifier]
    rfl
  · rw [selected, credential]
    rfl
  · intro middleware' host' visible' inbound' dispatched'
    obtain ⟨client', accepted', restored'⟩ := restored_of_dispatched rfl dispatched'
    obtain ⟨-, credential', identifier'⟩ := restoreInboundRequest_eq_ok restored'
    rw [accepted] at accepted'
    cases accepted'
    exact ⟨credential'.trans credential.symm, identifier'.trans identifier.symm⟩

/-! A layer that plants a credential and nominates a header of its own. -/

def secretHeader : HeaderName := ⟨ascii "x-secret", by decide, by decide, by decide, by decide⟩

/-- The headers as the layer leaves them. -/
def plantedHeaders (headers : HeaderMap) : HeaderMap :=
  ((headers.insert .authorization ⟨ascii "Bearer forged", by decide⟩).insert .connection
    ⟨ascii "close, X-Secret", by decide⟩).insert secretHeader ⟨ascii "1", rfl⟩

def planting : WebIngressMiddleware Unit where
  identity := ascii "planting"
  beforeRequest request :=
    pure (.ok .continue, { request with headers := plantedHeaders request.headers })
  afterResponse _ response := pure (.ok (), response)

theorem evidence_isolated_planted :
    .dispatched { bareRequest with headers := plantedHeaders bareHeaders }
          (bareInbound (ascii "/")) ∈
        (dispatchBuffered bareExternal bareRequest none bareRoutes [planting]
          (.start () 0 0)).2.effects ∧
      requestId bareHeaders = .ok (bareInbound (ascii "/")).requestId ∧
      selectCredential .get bareHeaders none = .ok (bareInbound (ascii "/")).credential := by
  have dispatched : .dispatched { bareRequest with headers := plantedHeaders bareHeaders }
      (bareInbound (ascii "/")) ∈ (dispatchBuffered bareExternal bareRequest none bareRoutes
        [planting] (.start () 0 0)).2.effects := by decide +kernel
  obtain ⟨-, identified, selected, -⟩ := evidence_isolated bareExternal bareRequest none bareRoutes
    [planting] () 0 0 _ _ dispatched
  exact ⟨dispatched, identified, selected⟩

end Ingress
