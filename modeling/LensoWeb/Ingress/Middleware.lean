import LensoWeb.Foundation.Task
import LensoWeb.Ingress.Request
import LensoWeb.Kernel

/-!
# Global middleware

Middleware runs in declaration order before route dispatch and in reverse order
after a response. A hook is an arbitrary call; it may fail, unwind, or never
return.
-/

namespace Ingress

open Foundation Http Kernel

/-- `WebIngressMiddlewareOutcome`. -/
inductive WebIngressMiddlewareOutcome where
  | continue
  | respond (response : WebIngressResponse)

/-- `WebIngressMiddleware`. A hook returns the request or response that it was
given for mutation together with its result. -/
structure WebIngressMiddleware (σ : Type) where
  identity : Bytes
  beforeRequest : WebIngressRequest →
    Task σ (Except RuntimeFailure WebIngressMiddlewareOutcome × WebIngressRequest)
  afterResponse : WebIngressRequest → WebIngressResponse →
    Task σ (Except RuntimeFailure Unit × WebIngressResponse)

namespace Middleware

variable {σ τ : Type}

/-- What the request half of `run` leaves behind. -/
structure Entered where
  entered : Nat
  response : Option WebIngressResponse
  request : WebIngressRequest

/-- The loop over `before_request`. -/
def enter : List (WebIngressMiddleware σ) → WebIngressRequest →
    Task σ (Except RuntimeFailure Entered)
  | [], request => pure (.ok ⟨0, none, request⟩)
  | layer :: rest, request => do
      match ← layer.beforeRequest request with
      | (.error failure, _) => return .error failure
      | (.ok (.respond response), request) => return .ok ⟨1, some response, request⟩
      | (.ok .continue, request) =>
          match ← enter rest request with
          | .error failure => return .error failure
          | .ok inner => return .ok { inner with entered := inner.entered + 1 }

/-- The loop over `after_response`, through the layers in the order given. -/
def leave : List (WebIngressMiddleware σ) → WebIngressRequest → WebIngressResponse →
    Task σ (Except RuntimeFailure WebIngressResponse)
  | [], _, response => pure (.ok response)
  | layer :: rest, request, response => do
      match ← layer.afterResponse request response with
      | (.error failure, _) => return .error failure
      | (.ok (), response) => leave rest request response

/-- The response that goes back through the layers. -/
def answer (inner : Entered) (dispatch : WebIngressRequest → Task σ WebIngressResponse) :
    Task σ WebIngressResponse :=
  match inner.response with
  | some response => pure response
  | none => dispatch inner.request

/-- The response half of `run`. -/
def finish (middleware : List (WebIngressMiddleware σ)) (inner : Entered)
    (dispatch : WebIngressRequest → Task σ WebIngressResponse) :
    Task σ (Except RuntimeFailure WebIngressResponse) := do
  let response ← answer inner dispatch
  leave (middleware.take inner.entered).reverse inner.request response

/-- `run`. -/
def run (middleware : List (WebIngressMiddleware σ)) (request : WebIngressRequest)
    (dispatch : WebIngressRequest → Task σ WebIngressResponse) :
    Task σ (Except RuntimeFailure WebIngressResponse) := do
  match ← enter middleware request with
  | .error failure => return .error failure
  | .ok inner => finish middleware inner dispatch

end Middleware

/-- Both hooks keep a property of the state. -/
structure WebIngressMiddleware.Keeps {σ : Type} (layer : WebIngressMiddleware σ)
    (invariant : σ → Prop) : Prop where
  beforeRequest : ∀ request, (layer.beforeRequest request).Keeps invariant
  afterResponse : ∀ request response, (layer.afterResponse request response).Keeps invariant

namespace Middleware

variable {σ : Type} {invariant : σ → Prop}

theorem enter_keeps {middleware : List (WebIngressMiddleware σ)}
    (kept : ∀ layer ∈ middleware, layer.Keeps invariant) (request : WebIngressRequest) :
    (enter middleware request).Keeps invariant := by
  induction middleware generalizing request with
  | nil => exact .pure _
  | cons layer rest ih =>
      refine .bind ((kept layer List.mem_cons_self).beforeRequest request) fun hook => ?_
      obtain ⟨_ | _ | response, request⟩ := hook
      · exact .pure _
      · refine .bind (ih (fun other inside => kept other (List.mem_cons_of_mem _ inside)) request)
          fun inner => ?_
        cases inner <;> exact .pure _
      · exact .pure _

theorem leave_keeps {middleware : List (WebIngressMiddleware σ)}
    (kept : ∀ layer ∈ middleware, layer.Keeps invariant) (request : WebIngressRequest)
    (response : WebIngressResponse) : (leave middleware request response).Keeps invariant := by
  induction middleware generalizing response with
  | nil => exact .pure _
  | cons layer rest ih =>
      refine .bind ((kept layer List.mem_cons_self).afterResponse request response) fun hook => ?_
      obtain ⟨_ | _, response⟩ := hook
      · exact .pure _
      · exact ih (fun other inside => kept other (List.mem_cons_of_mem _ inside)) response

theorem finish_keeps {middleware : List (WebIngressMiddleware σ)}
    {dispatch : WebIngressRequest → Task σ WebIngressResponse}
    (kept : ∀ layer ∈ middleware, layer.Keeps invariant)
    (dispatched : ∀ request, (dispatch request).Keeps invariant) (inner : Entered) :
    (finish middleware inner dispatch).Keeps invariant := by
  have left : ∀ layer ∈ (middleware.take inner.entered).reverse, layer.Keeps invariant :=
    fun layer inside => kept layer (List.mem_of_mem_take (List.mem_reverse.mp inside))
  refine .bind ?_ fun response => leave_keeps left inner.request response
  unfold answer
  split
  · exact .pure _
  · exact dispatched inner.request

/-- A property that hooks and dispatch keep is kept by the whole run. -/
theorem run_keeps {middleware : List (WebIngressMiddleware σ)}
    {dispatch : WebIngressRequest → Task σ WebIngressResponse}
    (kept : ∀ layer ∈ middleware, layer.Keeps invariant)
    (dispatched : ∀ request, (dispatch request).Keeps invariant) (request : WebIngressRequest) :
    (run middleware request dispatch).Keeps invariant := by
  refine .bind (enter_keeps kept request) fun entered => ?_
  cases entered with
  | error failure => exact .pure _
  | ok inner => exact finish_keeps kept dispatched inner

end Middleware

/-- The same hooks on a part of a larger state. -/
def WebIngressMiddleware.within {σ τ : Type} (part : Task.Part σ τ)
    (layer : WebIngressMiddleware τ) : WebIngressMiddleware σ where
  identity := layer.identity
  beforeRequest request := (layer.beforeRequest request).within part
  afterResponse request response := (layer.afterResponse request response).within part

namespace Middleware

variable {σ τ : Type} (part : Task.Part σ τ)

end Middleware

end Ingress
