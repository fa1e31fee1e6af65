import LensoWeb.Ingress.Event.Factory

/-!
# The simulated Web Host

The test surface over the event factory. A simulated request is shared by its clones: whoever
sends it first takes it, and all later sends find it gone. Its token is the token of the call
that dispatched it, so a disconnect reaches the call wherever it stands, and a shutdown of the
App is seen as a disconnect.
-/

namespace Ingress

open Foundation Http Kernel

variable {η : Type}

/-! ### The token of a call -/

/-- The token of a call in progress. -/
def EventPhase.token : EventPhase → Option Bool
  | .waiting call => some call.cancelled
  | .admitted call => some call.cancelled
  | .dispatching call => some call.cancelled
  | _ => none

/-- The call whose token an action cancels. -/
def EventAction.cancels : EventAction η → Option Nat
  | .cancel index => some index
  | .appCancels index => some index
  | _ => none

theorem EventAction.index?_of_cancels (action : EventAction η) {call : Nat}
    (cancels : action.cancels = some call) : action.index? = some call := by
  cases action <;> first | exact cancels | cases cancels

/-- The same, with the activation that the call belongs to. -/
def EventIngressAction.cancels : EventIngressAction η → Option (Nat × Nat)
  | .progress index action => action.cancels.map fun call => (index, call)
  | _ => none

theorem token_ofBody (body : WebIngressEventBody) : (EventPhase.ofBody body).token = none := by
  cases body <;> rfl

theorem token_answer (call : EventCall) (response : IngressResponse) (permit : Bool)
    (world : World η) : (call.answer response permit world).token = none := by
  obtain unwound | returned := answer_eq call response permit world
  · rw [unwound]
    rfl
  · rw [returned]
    exact token_ofBody _

theorem token_cancelToken {phase : EventPhase} {flag : Bool}
    (inProgress : phase.cancelToken.token = some flag) : flag = true := by
  cases phase <;> cases inProgress <;> rfl

namespace EventPermits

variable {external : External} {state : EventState η} {s : EventPermits}

/-- A new call has the token it was given. -/
theorem token_enter {request : Request Bytes} {cancelled flag : Bool} {world : World η}
    (inProgress : (enter state s request cancelled world).token = some flag) :
    flag = cancelled := by
  rw [enter] at inProgress
  split at inProgress
  · cases inProgress
  · split at inProgress
    · cases inProgress
    · split at inProgress
      · dsimp only at inProgress
        split at inProgress
        · rw [token_answer] at inProgress
          cases inProgress
        · cases inProgress
          rfl
      · cases inProgress

/-- A call keeps its token until it returns. -/
theorem token_advance {old new : EventPhase} {action : EventAction η}
    (moved : advance external state s old action = some new) {flag : Bool}
    (inProgress : new.token = some flag) :
    if action.cancels.isSome then flag = true else old.token = some flag := by
  cases action with
  | cancel index =>
      cases moved
      exact token_cancelToken inProgress
  | appCancels index =>
      rw [advance] at moved
      split at moved
      · cases moved
        exact token_cancelToken inProgress
      · cases moved
  | acquire index =>
      cases old with
      | waiting call =>
          simp only [advance] at moved
          split at moved
          · cases moved
          · cases moved
            exact inProgress
      | _ => cases moved
  | giveUp index world =>
      cases old with
      | waiting call =>
          simp only [advance] at moved
          split at moved
          · cases moved
            rw [token_answer] at inProgress
            cases inProgress
          · cases moved
      | _ => cases moved
  | resume index world =>
      cases old with
      | admitted call =>
          simp only [advance] at moved
          split at moved
          · cases moved
            rw [token_answer] at inProgress
            cases inProgress
          · cases moved
            exact inProgress
      | _ => cases moved
  | dispatched index world =>
      cases old with
      | dispatching call =>
          simp only [advance, dispatch] at moved
          split at moved
          · cases moved
            rw [token_answer] at inProgress
            cases inProgress
          · cases moved
          · cases moved
            cases inProgress
      | _ => cases moved
  | dropCall index =>
      rw [advance] at moved
      split at moved
      · cases moved
        cases inProgress
      · cases moved
  | read index action =>
      cases old with
      | streaming body =>
          obtain ⟨next, -, rfl⟩ := Option.map_eq_some_iff.mp moved
          cases inProgress
      | _ => cases moved
  | socket index action =>
      cases old with
      | webSocket body =>
          obtain ⟨next, -, rfl⟩ := Option.map_eq_some_iff.mp moved
          cases inProgress
      | _ => cases moved
  | dropBody index =>
      rw [advance] at moved
      split at moved
      · cases moved
        cases inProgress
      · cases moved
  | _ => cases moved

end EventPermits

/-! ### One call in the course of the steps -/

/-- A call of an activation with what its caller expects. -/
def Activation.entry (activation : Activation η) (call : Nat) : Option (Expects × EventPhase) := do
  let expects ← activation.expects[call]?
  let phase ← activation.permits.calls[call]?
  return (expects, phase)

/-- A call of any activation. -/
def EventIngress.entry (s : EventIngress η) (call : Nat × Nat) : Option (Expects × EventPhase) := do
  let activation ← s.activations[call.1]?
  activation.entry call.2

namespace Activation

variable {external : External} {a b : Activation η} {call : Nat} {expects : Expects}
  {phase : EventPhase}

theorem entry_eq_some : a.entry call = some (expects, phase) ↔
    a.expects[call]? = some expects ∧ a.permits.calls[call]? = some phase := by
  unfold entry
  simp only [Option.bind_eq_bind, Option.bind_eq_some_iff, Option.pure_def, Option.some.injEq,
    Prod.mk.injEq]
  constructor
  · rintro ⟨_, expected, _, present, rfl, rfl⟩
    exact ⟨expected, present⟩
  · rintro ⟨expected, present⟩
    exact ⟨_, expected, _, present, rfl, rfl⟩

/-- What a caller drops has no token. -/
theorem entry_sift (external : External) (index : Nat)
    (held : a.entry call = some (expects, phase)) :
    ∃ next, (a.sift external index).entry call = some (expects, next) ∧
      ∀ flag, next.token = some flag → phase.token = some flag := by
  obtain ⟨expected, present⟩ := entry_eq_some.mp held
  unfold sift
  split
  · split
    · exact ⟨phase, held, fun _ same => same⟩
    · split
      · next dropped =>
        obtain ⟨_, _, _, ⟨⟩, _⟩ | ⟨⟨⟩, _⟩ | ⟨other, old, new, target, held', advanced, moved⟩ :=
          EventPermits.calls_of_step dropped
        by_cases same : other = call
        · subst same
          cases present.symm.trans held'
          have inRange := (List.getElem?_eq_some_iff.mp present).1
          refine ⟨new, entry_eq_some.mpr ⟨expected, ?_⟩, fun flag inProgress => ?_⟩
          · show (EventPermits.calls _)[other]? = some new
            rw [moved, List.getElem?_set_self inRange]
          · exact EventPermits.token_advance advanced inProgress
        · refine ⟨phase, entry_eq_some.mpr ⟨expected, ?_⟩, fun _ same => same⟩
          show (EventPermits.calls _)[call]? = some phase
          rw [moved, List.getElem?_set_ne same]
          exact present
      · exact ⟨phase, held, fun _ same => same⟩
  · exact ⟨phase, held, fun _ same => same⟩

/-- A new call of the same activation leaves the calls that are there. -/
theorem entry_handle {expected : Expects} {request : Request Bytes} {cancelled : Bool}
    {world : World η} (called : a.handle external expected request cancelled world = some b)
    (held : a.entry call = some (expects, phase)) :
    ∃ next, b.entry call = some (expects, next) ∧
      ∀ flag, next.token = some flag → phase.token = some flag := by
  unfold Activation.handle at called
  obtain ⟨permits, transition, called⟩ := Option.bind_eq_some_iff.mp called
  cases transition
  cases called
  obtain ⟨expected', present⟩ := entry_eq_some.mp held
  apply entry_sift
  apply entry_eq_some.mpr
  exact ⟨(List.getElem?_append_left (List.getElem?_eq_some_iff.mp expected').1).trans expected',
    (List.getElem?_append_left (List.getElem?_eq_some_iff.mp present).1).trans present⟩

/-- The new call itself. -/
theorem entry_handled (paired : a.expects.length = a.permits.calls.length)
    {request : Request Bytes} {cancelled : Bool} {world : World η}
    (called : a.handle external expects request cancelled world = some b) :
    ∃ next, b.entry a.permits.calls.length = some (expects, next) ∧
      ∀ flag, next.token = some flag → flag = cancelled := by
  unfold Activation.handle at called
  obtain ⟨permits, transition, called⟩ := Option.bind_eq_some_iff.mp called
  have added : permits.calls[a.permits.calls.length]? =
      some (EventPermits.enter a.state a.permits request cancelled world) := by
    cases transition
    exact List.getElem?_concat_length
  have expected : (a.expects ++ [expects])[a.permits.calls.length]? = some expects := by
    rw [← paired]
    exact List.getElem?_concat_length
  cases called
  have held : ({ a with permits, expects := a.expects ++ [expects] } : Activation η).entry
      a.permits.calls.length = some (expects, _) := entry_eq_some.mpr ⟨expected, added⟩
  obtain ⟨next, present, kept⟩ := entry_sift external a.permits.calls.length held
  exact ⟨next, present, fun flag inProgress => EventPermits.token_enter (kept flag inProgress)⟩

/-- A step of the calls keeps what the callers expect, and the tokens that it does not cancel. -/
theorem entry_progress {action : EventAction η} (internal : action.internal = true)
    (moved : a.progress external action = some b) (held : a.entry call = some (expects, phase)) :
    ∃ next, b.entry call = some (expects, next) ∧ ∀ flag, next.token = some flag →
      if action.cancels = some call then flag = true else phase.token = some flag := by
  unfold Activation.progress at moved
  obtain ⟨permits, transition, moved⟩ := Option.bind_eq_some_iff.mp moved
  obtain ⟨expected, present⟩ := entry_eq_some.mp held
  obtain ⟨_, _, _, rfl, _⟩ | ⟨nobody, same⟩ | ⟨index, old, new, target, held', advanced, same⟩ :=
    EventPermits.calls_of_step transition
  · cases internal
  · rw [nobody] at moved
    cases moved
    refine ⟨phase, entry_eq_some.mpr ⟨expected, same ▸ present⟩, fun flag inProgress => ?_⟩
    rw [if_neg]
    · exact inProgress
    · intro cancels
      cases nobody.symm.trans (action.index?_of_cancels cancels)
  · rw [target] at moved
    cases moved
    by_cases about : index = call
    · subst about
      cases present.symm.trans held'
      have inRange := (List.getElem?_eq_some_iff.mp present).1
      have replaced : ({ a with permits } : Activation η).entry index = some (expects, new) := by
        apply entry_eq_some.mpr
        refine ⟨expected, ?_⟩
        show permits.calls[index]? = some new
        rw [same, List.getElem?_set_self inRange]
      obtain ⟨next, there, kept⟩ := entry_sift external index replaced
      refine ⟨next, there, fun flag inProgress => ?_⟩
      have token := EventPermits.token_advance advanced (kept flag inProgress)
      by_cases cancels : action.cancels = some index
      · rw [if_pos cancels]
        rw [cancels] at token
        exact token
      · rw [if_neg cancels]
        have other : action.cancels.isSome = false := by
          cases cancelled : action.cancels with
          | none => rfl
          | some call =>
              cases target.symm.trans (action.index?_of_cancels cancelled)
              exact absurd cancelled cancels
        rw [other] at token
        exact token
    · have left : ({ a with permits } : Activation η).entry call = some (expects, phase) := by
        apply entry_eq_some.mpr
        refine ⟨expected, ?_⟩
        show permits.calls[call]? = some phase
        rw [same, List.getElem?_set_ne about]
        exact present
      obtain ⟨next, there, kept⟩ := entry_sift external index left
      refine ⟨next, there, fun flag inProgress => ?_⟩
      rw [if_neg]
      · exact kept flag inProgress
      · intro cancels
        exact about (Option.some.inj (target.symm.trans (action.index?_of_cancels cancels)))

end Activation

namespace EventIngress

variable {factory : WebIngressEventFactory η} {format : AddressFormat} {parser : UriParser}
  {external : External} {s t : EventIngress η} {action : EventIngressAction η} {call : Nat × Nat} {expects : Expects}
  {phase : EventPhase}

theorem entry_eq_some : s.entry call = some (expects, phase) ↔
    ∃ activation, s.activations[call.1]? = some activation ∧
      activation.entry call.2 = some (expects, phase) :=
  Option.bind_eq_some_iff

/-- One activation moves on, and a call of it keeps its caller. -/
theorem entry_setActivation {index : Nat} {activation next : Activation η} {Kept : EventPhase → Prop}
    (present : s.activations[index]? = some activation)
    (held : s.entry call = some (expects, phase)) (unmoved : index ≠ call.1 → Kept phase)
    (moved : index = call.1 → activation.entry call.2 = some (expects, phase) →
      ∃ new, next.entry call.2 = some (expects, new) ∧ Kept new) :
    ∃ new, EventIngress.entry { s with activations := s.activations.set index next } call =
      some (expects, new) ∧ Kept new := by
  obtain ⟨own, there, entry⟩ := entry_eq_some.mp held
  by_cases same : index = call.1
  · rw [same] at present
    cases present.symm.trans there
    obtain ⟨new, after, kept⟩ := moved same entry
    refine ⟨new, entry_eq_some.mpr ⟨next, ?_, after⟩, kept⟩
    rw [same]
    exact List.getElem?_set_self (List.getElem?_eq_some_iff.mp there).1
  · refine ⟨phase, entry_eq_some.mpr ⟨own, ?_, entry⟩, unmoved same⟩
    exact (List.getElem?_set_ne same).trans there

/-- A call stays with its caller, and keeps its token unless the step cancels it. -/
theorem entry_step (taken : IngressStep factory format parser external s action t)
    (held : s.entry call = some (expects, phase)) :
    ∃ next, t.entry call = some (expects, next) ∧ ∀ flag, next.token = some flag →
      if action.cancels = some call then flag = true else phase.token = some flag := by
  cases taken with
  | activated instance' =>
      obtain ⟨activation, there, entry⟩ := entry_eq_some.mp held
      refine ⟨phase, entry_eq_some.mpr ⟨activation, ?_, entry⟩, fun _ same => same⟩
      unfold EventIngress.activate
      exact (List.getElem?_append_left (List.getElem?_eq_some_iff.mp there).1).trans there
  | called active present called =>
      apply entry_setActivation present held
      · exact fun _ _ same => same
      · exact fun _ entry => Activation.entry_handle called entry
  | @progressed index action activation next internal present moved =>
      apply entry_setActivation present held
      · intro different flag inProgress
        rw [if_neg]
        · exact inProgress
        · intro cancels
          obtain ⟨_, _, same⟩ := Option.map_eq_some_iff.mp cancels
          exact different (congrArg Prod.fst same)
      · intro same entry
        obtain ⟨new, after, kept⟩ := Activation.entry_progress internal moved entry
        refine ⟨new, after, fun flag inProgress => ?_⟩
        have token := kept flag inProgress
        have cancels : (EventIngressAction.progress index action).cancels = some call ↔
            action.cancels = some call.2 := by
          unfold EventIngressAction.cancels
          rw [Option.map_eq_some_iff]
          constructor
          · rintro ⟨_, cancels, rfl⟩
            exact cancels
          · intro cancels
            exact ⟨call.2, cancels, by rw [same]⟩
        simpa only [cancels] using token
  | _ => exact ⟨phase, held, fun _ same => same⟩

/-- The call that an active state is given, with the token it was given. -/
theorem entry_of_handle {current : Nat} (active : s.cell = some current)
    (paired : ∀ activation ∈ s.activations,
      activation.expects.length = activation.permits.calls.length)
    {request : Request Bytes} {cancelled : Bool} {world : World η}
    (called : s.step factory format parser external (.handle expects request cancelled world) =
      some t) :
    ∃ activation next, s.activations[current]? = some activation ∧
      t.entry (current, activation.permits.calls.length) = some (expects, next) ∧
      ∀ flag, next.token = some flag → flag = cancelled := by
  cases IngressStep.of_step called with
  | inactive empty => cases active.symm.trans empty
  | @called _ _ _ _ index activation moved active' there handled =>
      cases active.symm.trans active'
      have inRange := (List.getElem?_eq_some_iff.mp there).1
      obtain ⟨next, entry, token⟩ :=
        Activation.entry_handled (paired activation (List.mem_of_getElem? there)) handled
      refine ⟨activation, next, there, entry_eq_some.mpr ⟨moved, ?_, entry⟩, token⟩
      exact List.getElem?_set_self inRange

end EventIngress

end Ingress

/-! ### The surface -/

namespace Host

open Foundation Http Kernel Ingress

variable {η : Type}

/-- What became of one send. -/
inductive Sent where
  | dispatched (call : Nat × Nat)
  | inactive
  | alreadyDispatched
deriving DecidableEq

/-- `SimulatedWebRequest`, with what became of the sends of its clones. -/
structure SimulatedWebRequest where
  request : Option (Request Bytes)
  cancelled : Bool
  sends : List Sent

/-- The call that dispatched the request. -/
def SimulatedWebRequest.call (simulated : SimulatedWebRequest) : Option (Nat × Nat) :=
  simulated.sends.findSome? fun sent => match sent with
    | .dispatched call => some call
    | _ => none

/-- A clone is sent too late. -/
def SimulatedWebRequest.refuse (simulated : SimulatedWebRequest) : SimulatedWebRequest :=
  { simulated with sends := simulated.sends ++ [.alreadyDispatched] }

/-- A clone takes the request. -/
def SimulatedWebRequest.take (simulated : SimulatedWebRequest) (sent : Sent) :
    SimulatedWebRequest :=
  { simulated with request := none, sends := simulated.sends ++ [sent] }

/-- The client is gone. -/
def SimulatedWebRequest.cancel (simulated : SimulatedWebRequest) : SimulatedWebRequest :=
  { simulated with cancelled := true }

/-- The token of a call has been cancelled. -/
def SimulatedWebRequest.observe (call : Option (Nat × Nat)) (simulated : SimulatedWebRequest) :
    SimulatedWebRequest :=
  if call.isSome ∧ simulated.call = call then simulated.cancel else simulated

/-- `SimulatedWebHost` and all requests begun on it. -/
structure SimulatedWebHost (η : Type) where
  ingress : EventIngress η
  requests : List SimulatedWebRequest

inductive SimulatedAction (η : Type) where
  | ingress (action : EventIngressAction η)
  | beginRequest (request : Request Bytes)
  | send (index : Nat) (expects : Expects) (world : World η)
  | disconnect (index : Nat)

namespace SimulatedWebHost

variable (factory : WebIngressEventFactory η) (format : AddressFormat) (parser : UriParser)
  (external : External)

/-- A step of the App. Requests see that the token of their call has been cancelled. -/
def through (s : SimulatedWebHost η) (action : EventIngressAction η) :
    Option (SimulatedWebHost η) := do
  let ingress ← s.ingress.step factory format parser external action
  return { ingress, requests := s.requests.map (·.observe action.cancels) }

/-- What becomes of a request that is sent now. -/
def sent (s : SimulatedWebHost η) : Sent :=
  match s.ingress.cell with
  | none => .inactive
  | some active => .dispatched (active, (s.ingress.callCount active).getD 0)

/-- `send_response` of a clone of `simulated`, under one of the three operations. -/
def send (s : SimulatedWebHost η) (index : Nat) (simulated : SimulatedWebRequest)
    (expects : Expects) (world : World η) : Option (SimulatedWebHost η) :=
  match simulated.request with
  | none => some { s with requests := s.requests.set index simulated.refuse }
  | some request => do
      let called ← s.through factory format parser external
        (.handle expects request simulated.cancelled world)
      return { called with requests := called.requests.set index (simulated.take s.sent) }

def step (s : SimulatedWebHost η) : SimulatedAction η → Option (SimulatedWebHost η)
  | .ingress action => s.through factory format parser external action
  | .beginRequest request =>
      some { s with requests := s.requests ++ [⟨some request, false, []⟩] }
  | .send index expects world => do
      let simulated ← s.requests[index]?
      if expects = .any then none
      else s.send factory format parser external index simulated expects world
  | .disconnect index => do
      let simulated ← s.requests[index]?
      match simulated.call with
      | none => return { s with requests := s.requests.set index simulated.cancel }
      | some (active, call) =>
          s.through factory format parser external (.progress active (.cancel call))

end SimulatedWebHost

/-- All interleavings of a simulated host with its App. -/
def simulatedWebHost (factory : WebIngressEventFactory η) (format : AddressFormat)
    (parser : UriParser) (external : External) :
    Machine (SimulatedWebHost η) (SimulatedAction η) where
  initial s := (eventIngress factory format parser external).initial s.ingress ∧ s.requests = []
  step := SimulatedWebHost.step factory format parser external

/-! ### One request -/

namespace SimulatedWebRequest

variable {simulated later : SimulatedWebRequest}

/-- A request that nobody has sent, or that the first send took. -/
inductive OneShot : SimulatedWebRequest → Prop
  | unsent {request : Request Bytes} {cancelled : Bool} : OneShot ⟨some request, cancelled, []⟩
  | sent {cancelled : Bool} {first : Sent} (taken : first ≠ .alreadyDispatched) (again : Nat) :
      OneShot ⟨none, cancelled, first :: List.replicate again .alreadyDispatched⟩

theorem call_eq_of_sends (same : later.sends = simulated.sends) : later.call = simulated.call := by
  unfold call
  rw [same]

theorem observe_frame (call : Option (Nat × Nat)) (simulated : SimulatedWebRequest) :
    (simulated.observe call).request = simulated.request ∧
      (simulated.observe call).sends = simulated.sends := by
  unfold observe
  split <;> exact ⟨rfl, rfl⟩

@[simp] theorem call_observe (call : Option (Nat × Nat)) (simulated : SimulatedWebRequest) :
    (simulated.observe call).call = simulated.call :=
  call_eq_of_sends (observe_frame call simulated).2

/-- Sends that come too late do not make a call. -/
theorem call_refuse (simulated : SimulatedWebRequest) :
    simulated.refuse.call = simulated.call := by
  unfold call refuse
  rw [List.findSome?_append]
  exact Option.or_none

theorem OneShot.cancel (oneShot : simulated.OneShot) : simulated.cancel.OneShot := by
  cases oneShot with
  | unsent => exact .unsent
  | sent taken again => exact .sent taken again

theorem OneShot.observe (oneShot : simulated.OneShot) (call : Option (Nat × Nat)) :
    (simulated.observe call).OneShot := by
  unfold SimulatedWebRequest.observe
  split
  · exact oneShot.cancel
  · exact oneShot

theorem OneShot.refuse (oneShot : simulated.OneShot) (gone : simulated.request = none) :
    simulated.refuse.OneShot := by
  cases oneShot with
  | unsent => cases gone
  | @sent cancelled first taken again =>
      have more : first :: List.replicate again Sent.alreadyDispatched ++ [.alreadyDispatched] =
          first :: List.replicate (again + 1) .alreadyDispatched := by
        rw [List.replicate_succ', List.cons_append]
      show OneShot ⟨none, cancelled, _⟩
      rw [more]
      exact .sent taken (again + 1)

/-- A request that can be sent has not been sent. -/
theorem OneShot.sends_eq_nil (oneShot : simulated.OneShot) {request : Request Bytes}
    (held : simulated.request = some request) : simulated.sends = [] := by
  cases oneShot with
  | unsent => rfl
  | sent taken again => cases held

theorem OneShot.take (oneShot : simulated.OneShot) {request : Request Bytes}
    (held : simulated.request = some request) {sent : Sent} (first : sent ≠ .alreadyDispatched) :
    (simulated.take sent).OneShot := by
  unfold SimulatedWebRequest.take
  rw [oneShot.sends_eq_nil held]
  exact .sent first 0

/-- What cannot be undone about a request. -/
structure Later (simulated later : SimulatedWebRequest) : Prop where
  cancelled : simulated.cancelled = true → later.cancelled = true
  gone : simulated.request = none → later.request = none ∧
    ∃ again, later.sends = simulated.sends ++ List.replicate again .alreadyDispatched

namespace Later

theorem refl (simulated : SimulatedWebRequest) : Later simulated simulated :=
  ⟨id, fun gone => ⟨gone, 0, (List.append_nil _).symm⟩⟩

theorem trans {last : SimulatedWebRequest} (first : Later simulated later)
    (second : Later later last) : Later simulated last := by
  refine ⟨fun cancelled => second.cancelled (first.cancelled cancelled), fun gone => ?_⟩
  obtain ⟨gone', again, sends⟩ := first.gone gone
  obtain ⟨gone'', more, sends'⟩ := second.gone gone'
  refine ⟨gone'', again + more, ?_⟩
  rw [sends', sends, List.append_assoc, List.replicate_append_replicate]

theorem observe (call : Option (Nat × Nat)) (simulated : SimulatedWebRequest) :
    Later simulated (simulated.observe call) := by
  unfold SimulatedWebRequest.observe
  split
  · exact ⟨fun _ => rfl, (refl simulated).gone⟩
  · exact refl simulated

end Later

end SimulatedWebRequest

/-! ### All requests -/

namespace SimulatedWebHost

open SimulatedWebRequest (OneShot Later)

variable {factory : WebIngressEventFactory η} {format : AddressFormat}
  [DecidableEq format.Address] {parser : UriParser} {external : External}
  {s t : SimulatedWebHost η} {action : SimulatedAction η} {index : Nat}
  {simulated replaced : SimulatedWebRequest}

/-- The call of a request is one of the calls on the event Ingress, its caller expects one kind
of body, and its token is the token of the request. -/
def Linked (ingress : EventIngress η) (simulated : SimulatedWebRequest) : Prop :=
  ∀ call, simulated.call = some call → ∃ expects phase,
    ingress.entry call = some (expects, phase) ∧ expects ≠ .any ∧
      ∀ flag, phase.token = some flag → flag = simulated.cancelled

/-- What all interleavings keep. -/
structure Sound (factory : WebIngressEventFactory η) (format : AddressFormat)
    [DecidableEq format.Address] (parser : UriParser) (external : External)
    (s : SimulatedWebHost η) : Prop where
  ingress : (eventIngress factory format parser external).Reachable s.ingress
  oneShot : ∀ simulated ∈ s.requests, simulated.OneShot
  linked : ∀ simulated ∈ s.requests, Linked s.ingress simulated
  distinct : ∀ (i j : Nat) (first second : SimulatedWebRequest) (call : Nat × Nat),
    s.requests[i]? = some first → s.requests[j]? = some second → first.call = some call →
    second.call = some call → i = j

omit [DecidableEq format.Address] in
/-- A step of the App keeps the link, through what the request observes. -/
theorem Linked.step {ingress : EventIngress η} {action : EventIngressAction η}
    (linked : Linked s.ingress simulated)
    (taken : s.ingress.step factory format parser external action = some ingress) :
    Linked ingress (simulated.observe action.cancels) := by
  intro call same
  rw [SimulatedWebRequest.call_observe] at same
  obtain ⟨expects, phase, entry, specific, token⟩ := linked call same
  obtain ⟨next, after, kept⟩ := EventIngress.entry_step (.of_step taken) entry
  refine ⟨expects, next, after, specific, fun flag inProgress => ?_⟩
  have token' := kept flag inProgress
  unfold SimulatedWebRequest.observe
  by_cases cancels : action.cancels = some call
  · rw [if_pos cancels] at token'
    rw [if_pos ⟨by rw [cancels]; rfl, same.trans cancels.symm⟩]
    exact token'
  · rw [if_neg cancels] at token'
    rw [if_neg fun both => cancels (both.2.symm.trans same)]
    exact token flag token'

namespace Sound

omit [DecidableEq format.Address] in
theorem of_through {action : EventIngressAction η}
    (moved : s.through factory format parser external action = some t) :
    s.ingress.step factory format parser external action = some t.ingress ∧
      t.requests = s.requests.map (·.observe action.cancels) := by
  unfold SimulatedWebHost.through at moved
  obtain ⟨ingress, taken, moved⟩ := Option.bind_eq_some_iff.mp moved
  cases moved
  exact ⟨taken, rfl⟩

theorem through (prior : Sound factory format parser external s) {action : EventIngressAction η}
    (moved : s.through factory format parser external action = some t) :
    Sound factory format parser external t := by
  obtain ⟨taken, requests⟩ := of_through moved
  have transition : (eventIngress factory format parser external).step s.ingress action =
      some t.ingress := taken
  refine ⟨prior.ingress.step transition, ?_, ?_, ?_⟩
  · rw [requests]
    intro simulated member
    obtain ⟨old, before, rfl⟩ := List.mem_map.mp member
    exact (prior.oneShot old before).observe _
  · rw [requests]
    intro simulated member
    obtain ⟨old, before, rfl⟩ := List.mem_map.mp member
    exact (prior.linked old before).step taken
  · rw [requests]
    intro i j first second call atFirst atSecond
    rw [List.getElem?_map] at atFirst atSecond
    obtain ⟨before, there, rfl⟩ := Option.map_eq_some_iff.mp atFirst
    obtain ⟨before', there', rfl⟩ := Option.map_eq_some_iff.mp atSecond
    rw [SimulatedWebRequest.call_observe, SimulatedWebRequest.call_observe]
    exact prior.distinct i j before before' call there there'

/-- One request changes, with its own call or with one that no other request has. -/
theorem setRequest (prior : Sound factory format parser external s)
    (present : s.requests[index]? = some simulated) (oneShot : replaced.OneShot)
    (linked : Linked s.ingress replaced)
    (own : ∀ call, replaced.call = some call → simulated.call = some call ∨
      ∀ other ∈ s.requests, other.call ≠ some call) :
    Sound factory format parser external
      { s with requests := s.requests.set index replaced } := by
  have inRange := (List.getElem?_eq_some_iff.mp present).1
  -- another request does not have the call of the replaced one
  have apart : ∀ (other : Nat) (request : SimulatedWebRequest) (call : Nat × Nat),
      other ≠ index → s.requests[other]? = some request → request.call = some call →
      replaced.call ≠ some call := by
    intro other request call different there has same
    obtain before | new := own call same
    · exact different (prior.distinct other index request simulated call there present has before)
    · exact new request (List.mem_of_getElem? there) has
  refine ⟨prior.ingress, ?_, ?_, ?_⟩
  · intro request member
    obtain old | rfl := List.mem_or_eq_of_mem_set member
    · exact prior.oneShot request old
    · exact oneShot
  · intro request member
    obtain old | rfl := List.mem_or_eq_of_mem_set member
    · exact prior.linked request old
    · exact linked
  · intro i j first second call atFirst atSecond hasFirst hasSecond
    have lookup : ∀ (other : Nat) (request : SimulatedWebRequest), (s.requests.set index replaced)[other]? = some request →
        other = index ∧ request = replaced ∨
          other ≠ index ∧ s.requests[other]? = some request := by
      intro other request found
      by_cases same : index = other
      · subst same
        rw [List.getElem?_set_self inRange] at found
        exact .inl ⟨rfl, (Option.some.inj found).symm⟩
      · rw [List.getElem?_set_ne same] at found
        exact .inr ⟨Ne.symm same, found⟩
    obtain ⟨rfl, rfl⟩ | ⟨different, there⟩ := lookup i first atFirst
    · obtain ⟨rfl, -⟩ | ⟨different, there⟩ := lookup j second atSecond
      · rfl
      · exact absurd hasFirst (apart j second call different there hasSecond)
    · obtain ⟨rfl, rfl⟩ | ⟨-, there'⟩ := lookup j second atSecond
      · exact absurd hasSecond (apart i first call different there hasFirst)
      · exact prior.distinct i j first second call there there' hasFirst hasSecond

/-- The same call, or none yet. -/
theorem setSame (prior : Sound factory format parser external s)
    (present : s.requests[index]? = some simulated) (oneShot : replaced.OneShot)
    (same : replaced.call = simulated.call)
    (token : replaced.cancelled = simulated.cancelled ∨ simulated.call = none) :
    Sound factory format parser external
      { s with requests := s.requests.set index replaced } := by
  apply prior.setRequest present oneShot
  · intro call has
    rw [same] at has
    obtain kept | none := token
    · rw [kept]
      exact prior.linked simulated (List.mem_of_getElem? present) call has
    · cases none.symm.trans has
  · intro call has
    exact .inl (same.symm.trans has)

omit [DecidableEq format.Address] in
/-- Nothing is observed where no token is cancelled. -/
theorem requests_of_handle {expects : Expects} {request : Request Bytes} {cancelled : Bool}
    {world : World η}
    (called : s.through factory format parser external
      (.handle expects request cancelled world) = some t) : t.requests = s.requests := by
  rw [(of_through called).2]
  calc s.requests.map (·.observe none) = s.requests.map id := by
        refine List.map_congr_left fun simulated _ => ?_
        unfold SimulatedWebRequest.observe
        exact if_neg fun both => Bool.false_ne_true both.1
    _ = s.requests := List.map_id _

/-- No request has a call that is still to be made. -/
theorem call_ne_next (prior : Sound factory format parser external s) {active : Nat}
    {activation : Activation η} (present : s.ingress.activations[active]? = some activation)
    (simulated : SimulatedWebRequest) (member : simulated ∈ s.requests) :
    simulated.call ≠ some (active, activation.permits.calls.length) := by
  intro has
  obtain ⟨expects, phase, entry, -⟩ := prior.linked simulated member _ has
  obtain ⟨_, there, held⟩ := EventIngress.entry_eq_some.mp entry
  cases present.symm.trans there
  have inRange := (List.getElem?_eq_some_iff.mp (Activation.entry_eq_some.mp held).2).1
  exact absurd inRange (lt_irrefl _)

/-- The first send takes the request. -/
theorem dispatch (prior : Sound factory format parser external s)
    (present : s.requests[index]? = some simulated) {request : Request Bytes}
    (held : simulated.request = some request) {expects : Expects} (specific : expects ≠ .any)
    {world : World η}
    (moved : s.through factory format parser external
      (.handle expects request simulated.cancelled world) = some t) :
    Sound factory format parser external
      { t with requests := t.requests.set index (simulated.take s.sent) } := by
  have oneShot := prior.oneShot simulated (List.mem_of_getElem? present)
  have after := prior.through moved
  have requests := requests_of_handle moved
  have present' : t.requests[index]? = some simulated := requests ▸ present
  have only : (simulated.take s.sent).call =
      [s.sent].findSome? fun sent => match sent with
        | .dispatched call => some call
        | _ => none := by
    unfold SimulatedWebRequest.call SimulatedWebRequest.take
    rw [oneShot.sends_eq_nil held]
    rfl
  have unsent : simulated.call = none := by
    unfold SimulatedWebRequest.call
    rw [oneShot.sends_eq_nil held]
    rfl
  cases active : s.ingress.cell with
  | none =>
      have sent : s.sent = .inactive := by
        unfold SimulatedWebHost.sent
        rw [active]
      rw [sent] at only ⊢
      exact after.setSame present' (oneShot.take held (by decide)) (only.trans unsent.symm)
        (.inr unsent)
  | some current =>
      have paired : ∀ activation ∈ s.ingress.activations,
          activation.expects.length = activation.permits.calls.length :=
        fun activation member =>
          ((EventIngress.sound_of_reachable prior.ingress).calls activation member).paired
      obtain ⟨activation, next, there, entry, token⟩ :=
        EventIngress.entry_of_handle active paired (of_through moved).1
      have sent : s.sent = .dispatched (current, activation.permits.calls.length) := by
        unfold SimulatedWebHost.sent EventIngress.callCount
        rw [active]
        dsimp only
        rw [there]
        rfl
      rw [sent] at only ⊢
      apply after.setRequest present' (oneShot.take held (by nofun))
      · intro call has
        cases only.symm.trans has
        exact ⟨expects, next, entry, specific, token⟩
      · intro call has
        cases only.symm.trans has
        rw [requests]
        exact .inr fun other member => prior.call_ne_next there other member

theorem send (prior : Sound factory format parser external s)
    (present : s.requests[index]? = some simulated) {expects : Expects} (specific : expects ≠ .any)
    {world : World η}
    (sends : s.send factory format parser external index simulated expects world = some t) :
    Sound factory format parser external t := by
  unfold SimulatedWebHost.send at sends
  cases held : simulated.request with
  | none =>
      rw [held] at sends
      cases sends
      have oneShot := prior.oneShot simulated (List.mem_of_getElem? present)
      exact prior.setSame present (oneShot.refuse held)
        (SimulatedWebRequest.call_refuse simulated) (.inl rfl)
  | some request =>
      rw [held] at sends
      obtain ⟨called, moved, sends⟩ := Option.bind_eq_some_iff.mp sends
      cases sends
      exact prior.dispatch present held specific moved

theorem step (prior : Sound factory format parser external s)
    (transition : s.step factory format parser external action = some t) :
    Sound factory format parser external t := by
  cases action with
  | ingress action => exact prior.through transition
  | beginRequest request =>
      cases transition
      refine ⟨prior.ingress, ?_, ?_, ?_⟩
      · intro simulated member
        obtain old | new := List.mem_append.mp member
        · exact prior.oneShot simulated old
        · rw [List.mem_singleton.mp new]
          exact .unsent
      · intro simulated member
        obtain old | new := List.mem_append.mp member
        · exact prior.linked simulated old
        · rw [List.mem_singleton.mp new]
          nofun
      · intro i j first second call atFirst atSecond hasFirst hasSecond
        -- a request that has a call is not the new one
        have before : ∀ (other : Nat) (request' : SimulatedWebRequest),
            (s.requests ++ [⟨some request, false, []⟩])[other]? = some request' →
            request'.call = some call → s.requests[other]? = some request' := by
          intro other request' found has
          rw [List.getElem?_append] at found
          split at found
          · exact found
          · rw [List.getElem?_singleton] at found
            split at found
            · cases found
              cases has
            · cases found
        exact prior.distinct i j first second call (before i first atFirst hasFirst)
          (before j second atSecond hasSecond) hasFirst hasSecond
  | send index expects world =>
      simp only [SimulatedWebHost.step] at transition
      obtain ⟨simulated, present, transition⟩ := Option.bind_eq_some_iff.mp transition
      split at transition
      · cases transition
      · next specific => exact prior.send present specific transition
  | disconnect index =>
      simp only [SimulatedWebHost.step] at transition
      obtain ⟨simulated, present, transition⟩ := Option.bind_eq_some_iff.mp transition
      split at transition
      · next unsent =>
        cases transition
        have oneShot := prior.oneShot simulated (List.mem_of_getElem? present)
        exact prior.setSame present oneShot.cancel
          (SimulatedWebRequest.call_eq_of_sends rfl) (.inr unsent)
      · exact prior.through transition

end Sound

theorem sound_of_reachable
    (reached : (simulatedWebHost factory format parser external).Reachable s) :
    Sound factory format parser external s := by
  refine reached.invariant ?_ fun s action t _ prior transition => prior.step transition
  rintro s ⟨start, none⟩
  refine ⟨.of_initial start, ?_, ?_, ?_⟩
  · rw [none]
    intro simulated member
    cases member
  · rw [none]
    intro simulated member
    cases member
  · rw [none]
    intro i j first second call atFirst
    cases atFirst

/-! ### What stays for good -/

/-- Requests keep their places, and what has become of them. -/
def LaterAll (s t : SimulatedWebHost η) : Prop :=
  ∀ (index : Nat) (simulated : SimulatedWebRequest), s.requests[index]? = some simulated →
    ∃ later, t.requests[index]? = some later ∧ Later simulated later

theorem LaterAll.refl (s : SimulatedWebHost η) : LaterAll s s :=
  fun _ simulated present => ⟨simulated, present, .refl simulated⟩

theorem LaterAll.trans {u : SimulatedWebHost η} (first : LaterAll s t) (second : LaterAll t u) :
    LaterAll s u := by
  intro index simulated present
  obtain ⟨later, present', step⟩ := first index simulated present
  obtain ⟨last, present'', step'⟩ := second index later present'
  exact ⟨last, present'', step.trans step'⟩

theorem LaterAll.setRequest (present : s.requests[index]? = some simulated)
    (later : Later simulated replaced) :
    LaterAll s { s with requests := s.requests.set index replaced } := by
  intro other request there
  by_cases same : index = other
  · subst same
    cases present.symm.trans there
    exact ⟨replaced, List.getElem?_set_self (List.getElem?_eq_some_iff.mp present).1, later⟩
  · exact ⟨request, (List.getElem?_set_ne same).trans there, .refl request⟩

omit [DecidableEq format.Address] in
theorem LaterAll.through {action : EventIngressAction η}
    (moved : s.through factory format parser external action = some t) : LaterAll s t := by
  intro index simulated present
  refine ⟨simulated.observe action.cancels, ?_, .observe _ _⟩
  rw [(Sound.of_through moved).2, List.getElem?_map, present]
  rfl

omit [DecidableEq format.Address] in
theorem LaterAll.step (transition : s.step factory format parser external action = some t) :
    LaterAll s t := by
  cases action with
  | ingress action => exact .through transition
  | beginRequest request =>
      cases transition
      intro index simulated present
      have inRange := (List.getElem?_eq_some_iff.mp present).1
      exact ⟨simulated, (List.getElem?_append_left inRange).trans present, .refl simulated⟩
  | send index expects world =>
      simp only [SimulatedWebHost.step] at transition
      obtain ⟨simulated, present, transition⟩ := Option.bind_eq_some_iff.mp transition
      split at transition
      · cases transition
      · unfold SimulatedWebHost.send at transition
        cases held : simulated.request with
        | none =>
            rw [held] at transition
            cases transition
            exact .setRequest present ⟨id, fun gone => ⟨gone, 1, rfl⟩⟩
        | some request =>
            rw [held] at transition
            obtain ⟨called, moved, transition⟩ := Option.bind_eq_some_iff.mp transition
            cases transition
            have present' : called.requests[index]? = some simulated :=
              Sound.requests_of_handle moved ▸ present
            refine (LaterAll.through moved).trans (.setRequest present' ⟨id, fun gone => ?_⟩)
            cases held.symm.trans gone
  | disconnect index =>
      simp only [SimulatedWebHost.step] at transition
      obtain ⟨simulated, present, transition⟩ := Option.bind_eq_some_iff.mp transition
      split at transition
      · cases transition
        exact .setRequest present ⟨fun _ => rfl, (SimulatedWebRequest.Later.refl simulated).gone⟩
      · exact .through transition

omit [DecidableEq format.Address] in
theorem LaterAll.run {actions : List (SimulatedAction η)}
    (execution : (simulatedWebHost factory format parser external).run actions s = some t) :
    LaterAll s t := by
  refine Machine.run_preserves (P := LaterAll s) ?_ (.refl s) execution
  exact fun u action v prior transition => prior.trans (.step transition)

/-- The simulated host in every interleaving with its App. Its event Ingress is one that could
run without it. A request is dispatched at most once, whichever clone is sent, and every later
send is turned away. No two requests share a call; the caller keeps no body but of the one kind
that its send expects, and the call's token is that of the request until it returns. -/
theorem simulated_host_sound
    (reached : (simulatedWebHost factory format parser external).Reachable s) :
    (eventIngress factory format parser external).Reachable s.ingress ∧
    (∀ simulated ∈ s.requests, simulated.OneShot) ∧
    (∀ (i j : Nat) (first second : SimulatedWebRequest) (call : Nat × Nat),
      s.requests[i]? = some first → s.requests[j]? = some second → first.call = some call →
      second.call = some call → i = j) ∧
    (∀ simulated ∈ s.requests, ∀ call, simulated.call = some call → ∃ expects phase,
      s.ingress.entry call = some (expects, phase) ∧ expects ≠ .any ∧
      expects.takes phase = true ∧
      ∀ flag, phase.token = some flag → flag = simulated.cancelled) ∧
    ∀ actions t, (simulatedWebHost factory format parser external).run actions s = some t →
      ∀ (index : Nat) (simulated : SimulatedWebRequest), s.requests[index]? = some simulated →
        ∃ later, t.requests[index]? = some later ∧
          (simulated.cancelled = true → later.cancelled = true) ∧
          (simulated.request = none → later.request = none ∧ ∃ again,
            later.sends = simulated.sends ++ List.replicate again .alreadyDispatched) := by
  have sound := sound_of_reachable reached
  refine ⟨sound.ingress, sound.oneShot, sound.distinct, ?_, ?_⟩
  · intro simulated member call has
    obtain ⟨expects, phase, entry, specific, token⟩ := sound.linked simulated member call has
    obtain ⟨activation, there, held⟩ := EventIngress.entry_eq_some.mp entry
    obtain ⟨expected, present⟩ := Activation.entry_eq_some.mp held
    have calls := (EventIngress.sound_of_reachable sound.ingress).calls activation
      (List.mem_of_getElem? there)
    exact ⟨expects, phase, entry, specific, calls.taken _ expects phase expected present, token⟩
  · intro actions t execution index simulated present
    obtain ⟨later, present', kept⟩ := LaterAll.run execution index simulated present
    exact ⟨later, present', kept.cancelled, kept.gone⟩

/-- A request is sent twice, and the client disconnects while its dispatch is under way. -/
def disconnectedSend : List (SimulatedAction Unit) :=
  let world : World Unit := .start () 0 0
  [.ingress (.instantiate (.object [])),
    .ingress (.activate (.ok (streamRoutes oneChunk)) true true), .beginRequest bareRequest,
    .send 0 .buffered world, .send 0 .streaming world, .ingress (.progress 0 (.acquire 0)),
    .disconnect 0]

theorem simulated_host_sound_disconnected :
    ∃ s, (simulatedWebHost EventIngress.bareFactory loopbackOnly UriParser.pathOnly
        bareExternal).Reachable s ∧
      ∃ simulated ∈ s.requests, simulated.sends = [.dispatched (0, 0), .alreadyDispatched] ∧
        simulated.cancelled = true ∧ ∃ expects phase,
          s.ingress.entry (0, 0) = some (expects, phase) ∧ expects.takes phase = true ∧
          ∀ flag, phase.token = some flag → flag = simulated.cancelled := by
  let start : SimulatedWebHost Unit := ⟨⟨false, [], none, none, []⟩, []⟩
  have execution : ((simulatedWebHost EventIngress.bareFactory loopbackOnly UriParser.pathOnly
      bareExternal).run disconnectedSend start).map
        (fun s => s.requests.map fun request => (request.sends, request.cancelled)) =
      some [([.dispatched (0, 0), .alreadyDispatched], true)] := by decide +kernel
  obtain ⟨s, run, values⟩ := Option.map_eq_some_iff.mp execution
  have reached : (simulatedWebHost EventIngress.bareFactory loopbackOnly UriParser.pathOnly
      bareExternal).Reachable s := ⟨start, disconnectedSend, ⟨rfl, rfl⟩, run⟩
  obtain ⟨simulated, rest, requests, same, -⟩ := List.map_eq_cons_iff.mp values
  obtain ⟨sends, cancelled⟩ := Prod.mk.inj same
  have member : simulated ∈ s.requests := by
    rw [requests]
    exact List.mem_cons_self
  obtain ⟨-, -, -, linked, -⟩ := simulated_host_sound reached
  have own : simulated.call = some (0, 0) := by
    unfold SimulatedWebRequest.call
    rw [sends]
    rfl
  obtain ⟨expects, phase, entry, -, taken, token⟩ := linked simulated member (0, 0) own
  exact ⟨s, reached, simulated, member, sends, cancelled, expects, phase, entry, taken, token⟩

end SimulatedWebHost

end Host
