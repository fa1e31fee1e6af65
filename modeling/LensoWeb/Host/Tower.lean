import LensoWeb.Ingress.Middleware

/-!
# Tower policies

A Tower service may be called only after `poll_ready` has returned `Ready(Ok)` on the same
instance, once for each call; a clone starts not ready. The adapter in front of dispatch
clones the policy service for every request and calls the clone.

An instance carries the outcome of its most recent `poll_ready`, and every call writes down
what it found there.
-/

namespace Host

open Foundation Http Ingress Kernel

/-- `TowerMiddlewareOutcome`. -/
inductive TowerMiddlewareOutcome where
  | continue
  | respond (response : WebIngressResponse)

/-- What `poll_ready` returns. -/
inductive Readiness where
  | pending
  | ready
  | failed (failure : RuntimeFailure)
deriving DecidableEq

/-- A policy service. Its instances have states of type `ι` and share what is in `σ`; errors
are taken after their conversion. -/
structure PolicyService (σ ι : Type) where
  clone : ι → σ → ι × σ
  pollReady : ι → σ → Readiness × ι × σ
  call : ι → WebIngressRequest → Task σ (Except RuntimeFailure TowerMiddlewareOutcome)

/-- An instance, and whether it has reported readiness since its creation and its last call. -/
structure Instance (ι : Type) where
  state : ι
  ready : Bool

/-- For every call so far: was the instance ready? -/
abbrev CallLog := List Bool

namespace PolicyService

variable {σ ι : Type} (policy : PolicyService σ ι)

/-- `Clone::clone`. -/
def cloneInstance (source : Instance ι) : Task (σ × CallLog) (Instance ι) := fun (s, calls) =>
  let (state, t) := policy.clone source.state s
  (.ready ⟨state, false⟩, (t, calls))

/-- `Service::poll_ready`. -/
def pollInstance (polled : Instance ι) : Task (σ × CallLog) (Readiness × Instance ι) :=
  fun (s, calls) =>
    let (readiness, state, t) := policy.pollReady polled.state s
    (.ready (readiness, ⟨state, readiness = .ready⟩), (t, calls))

/-- `Service::call`, awaited. The call takes the instance's readiness with it. -/
def callInstance (called : Instance ι) (request : WebIngressRequest) :
    Task (σ × CallLog) (Except RuntimeFailure TowerMiddlewareOutcome) := fun (s, calls) =>
  let (outcome, t) := policy.call called.state request s
  (outcome, (t, calls ++ [called.ready]))

end PolicyService

/-- `TowerIngressMiddleware`. -/
structure TowerIngressMiddleware (ι : Type) where
  identity : Bytes
  service : Instance ι

namespace TowerIngressMiddleware

variable {σ ι : Type} (policy : PolicyService σ ι) (adapter : TowerIngressMiddleware ι)

/-- `TowerIngressMiddleware::before_request`. The service sees a copy of the request. -/
def beforeRequest (request : WebIngressRequest) : Task (σ × CallLog)
    (Except RuntimeFailure WebIngressMiddlewareOutcome × WebIngressRequest) := do
  let service ← policy.cloneInstance adapter.service
  match ← policy.callInstance service request with
  | .error failure => return (.error failure, request)
  | .ok .continue => return (.ok .continue, request)
  | .ok (.respond response) => return (.ok (.respond response), request)

/-- The adapter as a layer of Ingress. Its `after_response` is the default one. -/
def middleware : WebIngressMiddleware (σ × CallLog) where
  identity := adapter.identity
  beforeRequest := adapter.beforeRequest policy
  afterResponse _ response := pure (.ok (), response)

/-- The state after the adapter has seen some requests. A request that fails, unwinds or
stays suspended does not keep the next one from being served. -/
def serve (requests : List WebIngressRequest) (start : σ × CallLog) : σ × CallLog :=
  requests.foldl (fun state request => ((adapter.middleware policy).beforeRequest request state).2)
    start

/-- A request makes one call, on an instance that has not reported readiness. -/
theorem beforeRequest_calls (request : WebIngressRequest) (s : σ) (calls : CallLog) :
    ((adapter.beforeRequest policy request (s, calls)).2).2 = calls ++ [false] := by
  rw [beforeRequest, Task.bind_apply]
  simp only [PolicyService.cloneInstance, Task.bind_apply, PolicyService.callInstance]
  cases (policy.call (policy.clone adapter.service.state s).1 request
    (policy.clone adapter.service.state s).2).1 with
  | pending => rfl
  | panicked => rfl
  | ready result =>
      cases result with
      | error failure => rfl
      | ok outcome => cases outcome <;> rfl

theorem serve_calls (requests : List WebIngressRequest) (start : σ × CallLog) :
    (adapter.serve policy requests start).2 =
      start.2 ++ List.replicate requests.length false := by
  induction requests generalizing start with
  | nil => exact (List.append_nil start.2).symm
  | cons request rest ih =>
      have one := adapter.beforeRequest_calls policy request start.1 start.2
      rw [serve, List.foldl_cons, ← serve, ih]
      rw [middleware, one, List.append_assoc, List.length_cons, List.replicate_succ]
      rfl

/-- The adapter keeps the protocol of no policy service, as soon as there is a request. -/
theorem protocol_obeyed_iff (requests : List WebIngressRequest) (shared : σ) :
    (∀ ready ∈ (adapter.serve policy requests (shared, [])).2, ready = true) ↔ requests = [] := by
  rw [adapter.serve_calls policy requests (shared, []), List.nil_append]
  cases requests with
  | nil => exact ⟨fun _ => rfl, fun _ _ impossible => nomatch impossible⟩
  | cons request rest =>
      constructor
      · intro obeyed
        cases obeyed false List.mem_cons_self
      · rintro ⟨⟩

end TowerIngressMiddleware

/-- An instance that has reported readiness may be called. -/
theorem PolicyService.callInstance_of_ready {σ ι : Type} (policy : PolicyService σ ι)
    {polled ready : Instance ι} {s t : σ} {calls after : CallLog} (request : WebIngressRequest)
    (reported : policy.pollInstance polled (s, calls) = (.ready (.ready, ready), (t, after))) :
    (policy.callInstance ready request (t, after)).2.2 = calls ++ [true] := by
  simp only [pollInstance, Prod.mk.injEq, Outcome.ready.injEq] at reported
  obtain ⟨⟨outcome, rfl⟩, -, rfl⟩ := reported
  simp [callInstance, outcome]

/-- A concurrency limit around a service that lets everything through. An instance holds a
permit or not; a call without one unwinds. -/
def concurrencyLimit : PolicyService Nat Bool where
  clone _ permits := (false, permits)
  pollReady held permits :=
    if held then (.ready, true, permits)
    else if permits = 0 then (.pending, false, permits)
    else (.ready, true, permits - 1)
  call held _ := if held then fun permits => (.ready (.ok .continue), permits + 1) else Task.panic

/-- The first request through the limit unwinds, with a permit to be had. -/
theorem first_call_unwinds :
    ((TowerIngressMiddleware.beforeRequest concurrencyLimit ⟨ascii "limit", false, false⟩
        ⟨.get, .originForm rootPath none, .http11, ∅, []⟩) (1, [])).1 = .panicked ∧
      ¬ ∀ ready ∈ (TowerIngressMiddleware.serve concurrencyLimit ⟨ascii "limit", false, false⟩
        [⟨.get, .originForm rootPath none, .http11, ∅, []⟩] (1, [])).2, ready = true := by
  refine ⟨rfl, fun obeyed => ?_⟩
  cases obeyed false List.mem_cons_self

end Host
