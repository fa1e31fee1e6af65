import LensoWeb.Foundation.Census
import LensoWeb.Foundation.Transition
import LensoWeb.Ingress.Transport

/-!
# The request budget of replicated lanes

A native request takes a permit of its lane and then one of the listener group.
The lanes share the outer semaphore and run in parallel; within a lane, what a
request does between two suspension points is atomic. A request waits at a
semaphore beside the cancellation token of its lane.

Semaphores are counters here. A permit that is dropped, on whatever path, goes
back to its counter, and any request that waits may take a free permit next.
-/

namespace Ingress

open Foundation Http

/-! ### One permit -/

/-- How `acquire_request_permit` begins. -/
inductive PermitEntry where
  | refused
  | granted
  | waits
deriving DecidableEq

/-- `acquire_request_permit` up to its wait. -/
def permitEntry (cancelled : Bool) (available : Nat) : PermitEntry :=
  if cancelled then .refused
  else if available = 0 then .waits
  else .granted

/-- A counter as `acquire_request_permit` finds it. -/
def Semaphore.ofAvailable (available : Nat) (answer : PermitAnswer) : Semaphore :=
  if available = 0 then .contended answer else .available

theorem acquireRequestPermit_ofAvailable {σ : Type} (available : Nat) (answer : PermitAnswer)
    (cancelled : Bool) :
    (acquireRequestPermit (.ofAvailable available answer) cancelled : Task σ Bool) =
      match permitEntry cancelled available with
      | .refused => return false
      | .granted => return true
      | .waits => awaitPermit answer := by
  cases cancelled with
  | true => rfl
  | false =>
      by_cases empty : available = 0
      · simp [acquireRequestPermit, permitEntry, Semaphore.ofAvailable, empty]
      · simp [acquireRequestPermit, permitEntry, Semaphore.ofAvailable, empty]

/-! ### One request -/

/-- Where a request has got. A request that waits for the outer permit holds the
permit of its lane, a dispatch holds both. -/
inductive RequestPhase where
  | waitingLocal
  | waitingGlobal
  | dispatching
  | ended
deriving DecidableEq

namespace RequestPhase

/-- The lane permits that are held in this phase. -/
def localPermits : RequestPhase → Nat
  | waitingGlobal => 1
  | dispatching => 1
  | _ => 0

/-- The outer permits that are held in this phase. -/
def globalPermits : RequestPhase → Nat
  | dispatching => 1
  | _ => 0

/-- The request waits at a semaphore. -/
def waiting : RequestPhase → Bool
  | waitingLocal => true
  | waitingGlobal => true
  | _ => false

/-- `IngressService::call` from the lane permit on. -/
def behindLocal (cancelled : Bool) (global : Nat) : RequestPhase :=
  match permitEntry cancelled global with
  | .refused => ended
  | .granted => dispatching
  | .waits => waitingGlobal

/-- `IngressService::call` up to its first suspension at a semaphore. -/
def arrival (cancelled : Bool) (lane global : Nat) : RequestPhase :=
  match permitEntry cancelled lane with
  | .refused => ended
  | .granted => behindLocal cancelled global
  | .waits => waitingLocal

end RequestPhase

/-! ### All lanes -/

/-- The free permits of a lane and its cancellation token. -/
structure LaneBudget where
  available : Nat
  cancelled : Bool

structure LaneRequest (n : Nat) where
  lane : Fin n
  phase : RequestPhase

/-- The request is being served on the lane, or it can still be. A request that waits
behind a cancelled token is answered without a dispatch unless a permit comes first. -/
def LaneRequest.pending {n : Nat} (request : LaneRequest n) (lane : Fin n) (cancelled : Bool) :
    Nat :=
  if request.lane = lane ∧ (request.phase = .dispatching ∨
    (request.phase.waiting = true ∧ cancelled = false)) then 1 else 0

/-- The listener group: its outer semaphore, its lanes and all requests so far. -/
structure RequestBudget (n : Nat) where
  global : Nat
  lanes : Fin n → LaneBudget
  requests : List (LaneRequest n)

inductive BudgetAction (n : Nat) where
  | arrive (lane : Fin n) (headLen : Nat)
  | takeLocal (index : Nat)
  | takeGlobal (index : Nat)
  | giveUp (index : Nat)
  | finish (index : Nat)
  | drop (index : Nat)
  | cancel (lane : Fin n)

namespace RequestBudget

variable {n : Nat}

/-- Account for a request of a lane that moves on. Permits that it no longer holds
have been dropped. -/
def charge (s : RequestBudget n) (lane : Fin n) (old new : RequestPhase) : RequestBudget n :=
  { s with
    global := s.global + old.globalPermits - new.globalPermits
    lanes := Function.update s.lanes lane
      { s.lanes lane with
        available := (s.lanes lane).available + old.localPermits - new.localPermits } }

/-- Where a request that moves on gets; `none` where it cannot move so. -/
def advance (s : RequestBudget n) (request : LaneRequest n) :
    BudgetAction n → Option RequestPhase
  | .takeLocal _ =>
      if request.phase = .waitingLocal ∧ (s.lanes request.lane).available ≠ 0 then
        some (.behindLocal (s.lanes request.lane).cancelled s.global)
      else none
  | .takeGlobal _ =>
      if request.phase = .waitingGlobal ∧ s.global ≠ 0 then some .dispatching else none
  | .giveUp _ =>
      if request.phase.waiting ∧ (s.lanes request.lane).cancelled then some .ended else none
  | .finish _ => if request.phase = .dispatching then some .ended else none
  | .drop _ => if request.phase = .ended then none else some .ended
  | _ => none

/-- Move a request on. -/
def move (s : RequestBudget n) (index : Nat) (action : BudgetAction n) :
    Option (RequestBudget n) := do
  let request ← s.requests[index]?
  let phase ← s.advance request action
  return { s.charge request.lane request.phase phase with
    requests := s.requests.set index { request with phase } }

/-- A request whose head is too large is answered without a permit. -/
def arrivalPhase (config : WebIngressConfig) (s : RequestBudget n) (lane : Fin n) (headLen : Nat) :
    RequestPhase :=
  if headLen > config.maxRequestHeadBytes then .ended
  else .arrival (s.lanes lane).cancelled (s.lanes lane).available s.global

def step (config : WebIngressConfig) (s : RequestBudget n) (action : BudgetAction n) :
    Option (RequestBudget n) :=
  match action with
  | .arrive lane headLen =>
      let phase := arrivalPhase config s lane headLen
      some { s.charge lane .ended phase with requests := s.requests ++ [⟨lane, phase⟩] }
  | .cancel lane =>
      some { s with
        lanes := Function.update s.lanes lane { s.lanes lane with cancelled := true } }
  | .takeLocal index => s.move index action
  | .takeGlobal index => s.move index action
  | .giveUp index => s.move index action
  | .finish index => s.move index action
  | .drop index => s.move index action

/-- `local_request_limit` of the coordinator. -/
def localRequestLimit (config : WebIngressConfig) (n : Nat) : Nat :=
  config.maxConcurrentRequests ⌈/⌉ n

/-- The semaphores that `bind` and `register` create, and no request yet. -/
def machine (config : WebIngressConfig) (n : Nat) :
    Machine (RequestBudget n) (BudgetAction n) where
  initial s := s = ⟨config.maxConcurrentRequests,
    fun _ => ⟨localRequestLimit config n, false⟩, []⟩
  step := step config

/-! ### What is in use -/

/-- The permits of a lane that are held. -/
def localHeld (s : RequestBudget n) (lane : Fin n) : Nat :=
  census (fun request => if request.lane = lane then request.phase.localPermits else 0) s.requests

/-- The outer permits that are held. -/
def globalHeld (s : RequestBudget n) : Nat :=
  census (fun request => request.phase.globalPermits) s.requests

/-- The dispatches in progress. -/
def inProgress (s : RequestBudget n) : Nat :=
  census (fun request => if request.phase = .dispatching then 1 else 0) s.requests

/-- The dispatches in progress on a lane. -/
def inProgressOn (s : RequestBudget n) (lane : Fin n) : Nat :=
  census (fun request => if request.lane = lane ∧ request.phase = .dispatching then 1 else 0)
    s.requests

/-- The requests of a lane that are being served or can still be. -/
def pendingOn (s : RequestBudget n) (lane : Fin n) : Nat :=
  census (fun request => request.pending lane (s.lanes lane).cancelled) s.requests

end RequestBudget

end Ingress
