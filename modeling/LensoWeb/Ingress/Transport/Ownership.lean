import LensoWeb.Ingress.Dispatch.Ownership
import LensoWeb.Ingress.Event

/-!
# Ownership of opened streams across the transports

Both transports hand a stream on or cancel it: what is settled when a response is
dispatched is settled when it is returned. So a transport loses a stream exactly
when it takes a request in whose dispatch loses one.
-/

namespace Ingress

open Foundation Http Kernel

variable {η : Type}

/-! ### What a returned response owns -/

/-- The stream that the response body or the socket task has been given. -/
def NativeResponse.stream? (native : NativeResponse) : Option StreamId :=
  match native.socketTask, native.response.body with
  | some session, _ => some session.stream
  | none, .streaming body => some body.stream.id
  | none, .buffered _ => none

/-- The stream that the host has been given. -/
def WebIngressEventBody.stream? : WebIngressEventBody → Option StreamId
  | buffered _ => none
  | streaming body => some body.stream.id
  | webSocket session => some session.stream

section Native

variable {service : IngressService η}

end Native

/-! ### What a transport takes in -/

/-- A native request is granted the local permit, where there is one. -/
def NativeSurroundings.grantsLocal (around : NativeSurroundings) : Bool :=
  around.localConcurrency.all fun semaphore => !around.cancelled && semaphore.grants

/-- A native request is granted the global permit. -/
def NativeSurroundings.grantsGlobal (around : NativeSurroundings) : Bool :=
  !around.cancelled && around.globalConcurrency.grants

theorem acquireLocalPermit_ready {around : NativeSurroundings} {granted : Bool}
    {world after : World η}
    (returned : IngressService.acquireLocalPermit around world = (.ready granted, after)) :
    granted = around.grantsLocal ∧ after = world := by
  unfold IngressService.acquireLocalPermit at returned
  unfold NativeSurroundings.grantsLocal
  cases lane : around.localConcurrency with
  | none =>
      rw [lane] at returned
      cases returned
      exact ⟨rfl, rfl⟩
  | some semaphore =>
      rw [lane] at returned
      exact acquireRequestPermit_ready returned

/-- The request with its whole body, if the body is read. -/
def IngressService.buffer (service : IngressService η) (around : NativeSurroundings)
    (request : Request IncomingBody) : Option (Request Bytes) :=
  if declaresTooMuch request.headers service.config.maxRequestBodyBytes then none
  else (service.readBody around request.body).toOption.map fun body =>
    { request with body := body }

/-- The buffered request that a native request comes to, if it is dispatched. -/
def IngressService.intake (service : IngressService η) (around : NativeSurroundings)
    (request : Request IncomingBody) (requestIds : UInt64) : Option (Request Bytes) := do
  let requestId ← requestIdHeaderValue requestIds
  if canonicalRequestHeadLen request ≤ service.config.maxRequestHeadBytes ∧
      around.grantsLocal = true ∧ around.grantsGlobal = true then
    service.buffer around
      { request with headers := request.headers.insert requestIdHeader requestId }
  else none

/-- The App accepts an event request and grants its permit. -/
def EventSurroundings.accepts (around : EventSurroundings) : Bool :=
  around.isOpen && around.isAccepting && !around.cancelled && around.concurrency.grants &&
    around.stillAccepting

/-- An event request passes every check before its dispatch. -/
def EventState.passes (state : EventState η) (around : EventSurroundings) (request : Request Bytes)
    (headLen : Nat) : Bool :=
  decide (headLen ≤ state.config.maxRequestHeadBytes) && around.accepts &&
    !oversized request state.config.maxRequestBodyBytes

/-- The request that an event request comes to, if it is dispatched. -/
def EventState.intake (state : EventState η) (around : EventSurroundings)
    (request : Request Bytes) (requestIds : UInt64) : Option (Request Bytes) := do
  let requestId ← requestIdHeaderValue requestIds
  let buffered : Request Bytes :=
    { request with headers := request.headers.insert requestIdHeader requestId }
  if state.passes around buffered (canonicalRequestHeadLen request) then some buffered else none

section Returned

variable {external : External} {host : η} {requestIds : UInt64} {nextStream : StreamId}
  {after : World η}

end Returned

/-- A body that is complete before it is read. -/
def noBody : IncomingBody := ⟨[], true, fun _ => rfl⟩

/-- The response is returned and hands stream 0 on. -/
def handsStream (result : Outcome NativeResponse × World Unit) : Bool :=
  match result.1 with
  | .ready native => decide (native.stream? = some 0)
  | _ => false

theorem exists_of_handsStream {result : Outcome NativeResponse × World Unit}
    (handed : handsStream result = true) :
    ∃ native after, result = (.ready native, after) ∧ native.stream? = some 0 := by
  obtain ⟨outcome, after⟩ := result
  unfold handsStream at handed
  split at handed
  · next native returned =>
    dsimp only at returned
    subst returned
    exact ⟨native, after, rfl, of_decide_eq_true handed⟩
  · cases handed

end Ingress
