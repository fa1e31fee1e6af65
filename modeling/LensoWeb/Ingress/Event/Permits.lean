import LensoWeb.Foundation.Census
import LensoWeb.Ingress.Dispatch.Fresh
import LensoWeb.Ingress.Event
import LensoWeb.Ingress.ResponseStream.Reading
import LensoWeb.Ingress.WebSocket.Session

/-!
# Concurrent event requests

Any number of calls of `handle_response` on one active state, interleaved with
the use of the streams and sessions they returned. A call is cut at its
suspension points: the wait for a permit, and the dispatch behind it. What a
dispatch returns depends on the world it ran in, which the scheduler picks.

A permit is kept by a call, then by the body it returns. Dropping a permit, on
whatever path, returns it to the semaphore.
-/

namespace Ingress

open Foundation Http Kernel

variable {η : Type}

namespace EventState

variable (state : EventState η)

/-- The checks before the wait for a permit: the response that ends them early. -/
def refusal (isOpen isAccepting cancelled : Bool) (headLen : Nat) : Option IngressResponse :=
  if !isOpen || !isAccepting then some unavailable
  else if headLen > state.config.maxRequestHeadBytes then some headTooLarge
  else if cancelled then some unavailable
  else none

/-- The checks behind the permit. -/
def refusalBehindPermit (isAccepting : Bool) (request : Request Bytes) : Option IngressResponse :=
  if !isAccepting then some unavailable
  else if oversized request state.config.maxRequestBodyBytes then some payloadTooLarge
  else none

/-- The guarded part of `handle_response` goes by these segments. -/
theorem work_eq (external : External) (around : EventSurroundings) (request : Request Bytes)
    (headLen : Nat) (sessionCookie : Option SessionCookiePolicy) :
    state.work external around request headLen sessionCookie =
      match state.refusal around.isOpen around.isAccepting around.cancelled headLen with
      | some response => return (response, false)
      | none => do
          if !(← acquireOwned around.concurrency) then return (unavailable, false)
          else
            match state.refusalBehindPermit around.stillAccepting request with
            | some response => return (response, true)
            | none => do
                let response ← dispatchBuffered external request sessionCookie state.routes
                  state.middleware
                return (response, true) := by
  rw [work, refusal]
  split
  · rfl
  · split
    · rfl
    · split
      · rfl
      · refine congrArg _ (funext fun granted => ?_)
        rw [refusalBehindPermit]
        split
        · rfl
        · split
          · rfl
          · split <;> rfl

end EventState

/-! ### Calls and what they return -/

/-- A call of `handle_response` in progress, with the state of its token. -/
structure EventCall where
  request : Request Bytes
  requestId : HeaderValue
  sessionCookie : Option SessionCookiePolicy
  cancelled : Bool

/-- Where a call has got. `admitted` and `dispatching` are behind the permit; a call that has
returned has left a body or an error. -/
inductive EventPhase where
  | waiting (call : EventCall)
  | admitted (call : EventCall)
  | dispatching (call : EventCall)
  | failed
  | buffered (body : Bytes)
  | streaming (body : ReadState)
  | webSocket (body : SessionState)
  | dropped

namespace EventPhase

/-- The permits that are kept in this phase. -/
def permits : EventPhase → Nat
  | admitted _ => 1
  | dispatching _ => 1
  | streaming body => body.stream.permit.toNat
  | webSocket body => body.session.permit.toNat
  | _ => 0

/-- The call has acquired a permit and has not returned. -/
def acquired : EventPhase → Nat
  | admitted _ => 1
  | dispatching _ => 1
  | _ => 0

/-- Cancel the token of a call in progress. -/
def cancelToken : EventPhase → EventPhase
  | waiting call => waiting { call with cancelled := true }
  | admitted call => admitted { call with cancelled := true }
  | dispatching call => dispatching { call with cancelled := true }
  | phase => phase

/-- The call has not returned yet. -/
def inProgress : EventPhase → Bool
  | waiting _ => true
  | admitted _ => true
  | dispatching _ => true
  | _ => false

/-- The host has got something that it can drop. -/
def returned : EventPhase → Bool
  | buffered _ => true
  | streaming _ => true
  | webSocket _ => true
  | _ => false

/-- What the host has got. -/
def ofBody : WebIngressEventBody → EventPhase
  | .buffered body => buffered body
  | .streaming stream => streaming ⟨stream, 0, []⟩
  | .webSocket session => webSocket ⟨session, 0, 0, []⟩

end EventPhase

/-- The end of `handle_response`, from the response of its guarded part on. -/
def EventCall.answer (call : EventCall) (response : IngressResponse) (permit : Bool)
    (world : World η) : EventPhase :=
  match (EventState.reply call.request.method call.requestId response permit world).1 with
  | .ready (.ok reply) => .ofBody reply.body
  | .ready (.error _) => .failed
  | _ => .dropped

/-! ### The machine -/

/-- The semaphore of one state, its readiness and all calls made on it. -/
structure EventPermits where
  active : Bool
  isOpen : Bool
  isAccepting : Bool
  appCancelled : Bool
  available : Nat
  calls : List EventPhase

inductive EventAction (η : Type) where
  | readiness (isOpen isAccepting : Bool)
  | shutdown
  | deactivate
  | call (request : Request Bytes) (cancelled : Bool) (world : World η)
  | cancel (index : Nat)
  | appCancels (index : Nat)
  | acquire (index : Nat)
  | giveUp (index : Nat) (world : World η)
  | resume (index : Nat) (world : World η)
  | dispatched (index : Nat) (world : World η)
  | dropCall (index : Nat)
  | read (index : Nat) (action : ReadAction)
  | socket (index : Nat) (action : SessionAction)
  | dropBody (index : Nat)

namespace EventPermits

/-- A call moves on. Permits that it no longer keeps have been dropped. -/
def settle (s : EventPermits) (index : Nat) (old new : EventPhase) : EventPermits :=
  { s with
    available := s.available + old.permits - new.permits
    calls := s.calls.set index new }

variable (external : External) (state : EventState η)

/-- The first segment of `handle_response`. -/
def enter (s : EventPermits) (request : Request Bytes) (cancelled : Bool) (world : World η) :
    EventPhase :=
  if !s.active then .failed
  else
    match state.config.sessionCookiePolicy with
    | none => .dropped
    | some sessionCookie =>
        match (replaceRequestId request.headers world).1 with
        | .ready (headers, requestId) =>
            let call : EventCall :=
              ⟨{ request with headers := headers }, requestId, sessionCookie, cancelled⟩
            match state.refusal s.isOpen s.isAccepting cancelled
                (canonicalRequestHeadLen request) with
            | some response => call.answer response false world
            | none => .waiting call
        | _ => .dropped

/-- How a dispatch moves its call on; `none` while it is suspended. -/
def dispatch (call : EventCall) (world : World η) : Option EventPhase :=
  match dispatchBuffered external call.request call.sessionCookie state.routes state.middleware
      world with
  | (.ready response, after) => some (call.answer response true after)
  | (.pending, _) => none
  | (.panicked, _) => some .dropped

/-- How an action moves on the call it is about. -/
def advance (s : EventPermits) (old : EventPhase) : EventAction η → Option EventPhase
  | .cancel _ => some old.cancelToken
  | .appCancels _ => if s.appCancelled then some old.cancelToken else none
  | .acquire _ =>
      match old with
      | .waiting call => if s.available = 0 then none else some (.admitted call)
      | _ => none
  | .giveUp _ world =>
      match old with
      | .waiting call => if call.cancelled then some (call.answer unavailable false world) else none
      | _ => none
  | .resume _ world =>
      match old with
      | .admitted call =>
          match state.refusalBehindPermit s.isAccepting call.request with
          | some response => some (call.answer response true world)
          | none => some (.dispatching call)
      | _ => none
  | .dispatched _ world =>
      match old with
      | .dispatching call => dispatch external state call world
      | _ => none
  | .dropCall _ => if old.inProgress then some .dropped else none
  | .read _ action =>
      match old with
      | .streaming body => (body.step action).map .streaming
      | _ => none
  | .socket _ action =>
      match old with
      | .webSocket body => (body.step action).map .webSocket
      | _ => none
  | .dropBody _ => if old.returned then some .dropped else none
  | _ => none

end EventPermits

/-- The call that an action is about. -/
def EventAction.index? : EventAction η → Option Nat
  | cancel index => some index
  | appCancels index => some index
  | acquire index => some index
  | giveUp index _ => some index
  | resume index _ => some index
  | dispatched index _ => some index
  | dropCall index => some index
  | read index _ => some index
  | socket index _ => some index
  | dropBody index => some index
  | _ => none

namespace EventPermits

variable (external : External) (state : EventState η)

def step (s : EventPermits) (action : EventAction η) : Option EventPermits :=
  match action with
  | .readiness isOpen isAccepting => some { s with isOpen, isAccepting }
  | .shutdown => some { s with isAccepting := false, appCancelled := true }
  | .deactivate => some { s with active := false }
  | .call request cancelled world =>
      some { s with calls := s.calls ++ [enter state s request cancelled world] }
  | action => do
      let index ← action.index?
      let old ← s.calls[index]?
      let new ← advance external state s old action
      return s.settle index old new

/-- One activated state, with all permits in its semaphore. -/
def machine : Machine EventPermits (EventAction η) where
  initial s := s.available = state.config.maxConcurrentRequests ∧ s.calls = []
  step := step external state

end EventPermits

end Ingress
