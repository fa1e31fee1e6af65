import LensoWeb.Ingress.Config.Plan
import LensoWeb.Ingress.Event.Conservation

/-!
# The event factory

The clones of one `WebIngressEventFactory` share a flag and a cell. The flag lets one
instantiation succeed. Every activation of the instance puts a new state into the cell, with a
semaphore of its own, and a deactivation empties the cell. A call works to its end on the state
that it found there.

An activation runs the machine of the calls on its state. `handle` drops a body that is not
buffered with the segment that returns it, and so does any caller that expects one kind of body.
-/

namespace Ingress

open Foundation Http Kernel

variable {η : Type}

/-- The bodies that the caller of an event Ingress goes on with. -/
inductive Expects where
  | any
  | buffered
  | streaming
  | webSocket
deriving DecidableEq

/-- The caller goes on with what its call has returned: an error, or a body that it expects. -/
def Expects.takes (expects : Expects) : EventPhase → Bool
  | .buffered _ => expects = .any || expects = .buffered
  | .streaming _ => expects = .any || expects = .streaming
  | .webSocket _ => expects = .any || expects = .webSocket
  | _ => true

/-- An action that is left to the calls and the kernel once an activation has begun. -/
def EventAction.internal : EventAction η → Bool
  | .call _ _ _ => false
  | .deactivate => false
  | _ => true

/-- A state that was in the cell, with the calls on it and what their callers expect. -/
structure Activation (η : Type) where
  state : EventState η
  permits : EventPermits
  expects : List Expects

/-- `WebIngressEventFactory`, without what its clones share. -/
structure WebIngressEventFactory (η : Type) where
  middleware : List (WebIngressMiddleware η)
  identities : List String
  named : identities.map (fun identity => utf8 identity.toList) = middleware.map (·.identity)

/-- How `WebIngressEventFactory::instantiate` fails. -/
inductive EventInstantiateError where
  | plan (error : InstantiateError)
  | used (failure : RuntimeFailure)
deriving DecidableEq

/-- What the clones share, the instance, and the states that have been in the cell. -/
structure EventIngress (η : Type) where
  instantiated : Bool
  instantiations : List (Except EventInstantiateError WebIngressConfig)
  lifecycle : Option WebIngressConfig
  cell : Option Nat
  activations : List (Activation η)

inductive EventIngressAction (η : Type) where
  | instantiate (configuration : Json)
  | activate (resolved : Except RuntimeFailure (RouteTable η)) (isOpen isAccepting : Bool)
  | deactivate
  | handle (expects : Expects) (request : Request Bytes) (cancelled : Bool) (world : World η)
  | progress (index : Nat) (action : EventAction η)

namespace Activation

variable (external : External) (activation : Activation η)

/-- A caller drops a body that it does not expect. -/
def sift (index : Nat) : Activation η :=
  match activation.expects[index]?, activation.permits.calls[index]? with
  | some expects, some phase =>
      if expects.takes phase then activation
      else
        match EventPermits.step external activation.state activation.permits (.dropBody index) with
        | some permits => { activation with permits }
        | none => activation
  | _, _ => activation

/-- A new call on this state. -/
def handle (expects : Expects) (request : Request Bytes) (cancelled : Bool) (world : World η) :
    Option (Activation η) := do
  let permits ← EventPermits.step external activation.state activation.permits
    (.call request cancelled world)
  return { activation with permits, expects := activation.expects ++ [expects] }.sift external
    activation.permits.calls.length

/-- The calls go on. -/
def progress (action : EventAction η) : Option (Activation η) := do
  let permits ← EventPermits.step external activation.state activation.permits action
  match action.index? with
  | some index => return { activation with permits }.sift external index
  | none => return { activation with permits }

end Activation

/-- The part of `WebIngressEventFactory::instantiate` that reads and validates. -/
def WebIngressEventFactory.configured (factory : WebIngressEventFactory η)
    (format : AddressFormat) (parser : UriParser) (configuration : Json) :
    Except InstantiateError (format.Address × WebIngressConfig) := do
  let config ← ((WebIngressConfig.codec format).decode configuration).mapError
    InstantiateError.configuration
  (config.2.validate parser).mapError InstantiateError.invalidResolvedPlan
  (validateMiddleware factory.identities).mapError InstantiateError.invalidResolvedPlan
  return config

namespace EventIngress

variable (factory : WebIngressEventFactory η) (format : AddressFormat) (parser : UriParser)
  (external : External)

/-- `WebIngressEventFactory::instantiate`. -/
def instantiate (s : EventIngress η) (configuration : Json) : EventIngress η :=
  match factory.configured format parser configuration with
  | .error error => { s with instantiations := s.instantiations ++ [.error (.plan error)] }
  | .ok (_, config) =>
      if s.instantiated then
        { s with
          instantiations := s.instantiations ++
            [.error (.used (pluginFailure
              "create a fresh WebIngressEventFactory for each event App"))] }
      else
        { s with
          instantiated := true
          instantiations := s.instantiations ++ [.ok config]
          lifecycle := some config }

/-- The end of `EventLifecycle::activate`, with routes that have been resolved. -/
def activate (s : EventIngress η) (config : WebIngressConfig) (routes : RouteTable η)
    (isOpen isAccepting : Bool) : EventIngress η :=
  { s with
    cell := some s.activations.length
    activations := s.activations ++
      [⟨⟨config, routes, factory.middleware⟩,
        ⟨true, isOpen, isAccepting, false, config.maxConcurrentRequests, []⟩, []⟩] }

def step (s : EventIngress η) : EventIngressAction η → Option (EventIngress η)
  | .instantiate configuration => some (s.instantiate factory format parser configuration)
  | .activate resolved isOpen isAccepting => do
      let config ← s.lifecycle
      match resolved with
      | .error _ => some s
      | .ok routes => some (s.activate factory config routes isOpen isAccepting)
  | .deactivate => some { s with cell := none }
  | .handle expects request cancelled world =>
      match s.cell with
      | none => some s
      | some index => do
          let activation ← s.activations[index]?
          let next ← activation.handle external expects request cancelled world
          return { s with activations := s.activations.set index next }
  | .progress index action =>
      if action.internal then do
        let activation ← s.activations[index]?
        let next ← activation.progress external action
        return { s with activations := s.activations.set index next }
      else none

end EventIngress

/-- All interleavings of the clones of one factory with the calls on its states. -/
def eventIngress (factory : WebIngressEventFactory η) (format : AddressFormat)
    (parser : UriParser) (external : External) :
    Machine (EventIngress η) (EventIngressAction η) where
  initial s := s = ⟨false, [], none, none, []⟩
  step := EventIngress.step factory format parser external

/-! ### The calls on one state -/

namespace EventPermits

variable {external : External} {state : EventState η} {s t : EventPermits}
  {action : EventAction η}

theorem reachable_step (reached : (machine external state).Reachable s)
    (transition : step external state s action = some t) : (machine external state).Reachable t :=
  Machine.Reachable.step reached (a := action) transition

/-- A step adds a call, moves one on, or leaves the calls alone. -/
theorem calls_of_step (transition : step external state s action = some t) :
    (∃ request cancelled world, action = .call request cancelled world ∧
      t.calls = s.calls ++ [enter state s request cancelled world]) ∨
    (action.index? = none ∧ t.calls = s.calls) ∨
    ∃ index old new, action.index? = some index ∧ s.calls[index]? = some old ∧
      advance external state s old action = some new ∧ t.calls = s.calls.set index new := by
  have about : ∀ index, action.index? = some index →
      (do
        let old ← s.calls[index]?
        let new ← advance external state s old action
        return s.settle index old new) = some t →
      ∃ index old new, action.index? = some index ∧ s.calls[index]? = some old ∧
        advance external state s old action = some new ∧ t.calls = s.calls.set index new := by
    intro index target moved
    obtain ⟨old, present, moved⟩ := Option.bind_eq_some_iff.mp moved
    obtain ⟨new, advanced, settled⟩ := Option.bind_eq_some_iff.mp moved
    cases settled
    exact ⟨index, old, new, target, present, advanced, rfl⟩
  cases action with
  | readiness isOpen isAccepting =>
      cases transition
      exact .inr (.inl ⟨rfl, rfl⟩)
  | shutdown =>
      cases transition
      exact .inr (.inl ⟨rfl, rfl⟩)
  | deactivate =>
      cases transition
      exact .inr (.inl ⟨rfl, rfl⟩)
  | call request cancelled world =>
      cases transition
      exact .inl ⟨request, cancelled, world, rfl, rfl⟩
  | cancel index => exact .inr (.inr (about index rfl transition))
  | appCancels index => exact .inr (.inr (about index rfl transition))
  | acquire index => exact .inr (.inr (about index rfl transition))
  | giveUp index world => exact .inr (.inr (about index rfl transition))
  | resume index world => exact .inr (.inr (about index rfl transition))
  | dispatched index world => exact .inr (.inr (about index rfl transition))
  | dropCall index => exact .inr (.inr (about index rfl transition))
  | read index action => exact .inr (.inr (about index rfl transition))
  | socket index action => exact .inr (.inr (about index rfl transition))
  | dropBody index => exact .inr (.inr (about index rfl transition))

end EventPermits

/-- What a caller does not go on with can be dropped. -/
theorem Expects.returned_of_not_takes {expects : Expects} {phase : EventPhase}
    (unexpected : expects.takes phase = false) : phase.returned = true := by
  cases phase <;> first | rfl | cases unexpected

namespace Activation

variable {external : External} {a b : Activation η}

/-- The calls on a state that has been activated, each with what its caller expects. -/
structure Sound (external : External) (a : Activation η) : Prop where
  reached : (EventPermits.machine external a.state).Reachable a.permits
  paired : a.expects.length = a.permits.calls.length
  taken : ∀ (index : Nat) (expects : Expects) (phase : EventPhase),
    a.expects[index]? = some expects → a.permits.calls[index]? = some phase →
    expects.takes phase = true

theorem sift_frame (external : External) (a : Activation η) (index : Nat) :
    (a.sift external index).state = a.state ∧ (a.sift external index).expects = a.expects ∧
      (a.sift external index).permits.calls.length = a.permits.calls.length := by
  unfold sift
  split
  · split
    · exact ⟨rfl, rfl, rfl⟩
    · split
      · next dropped =>
        refine ⟨rfl, rfl, ?_⟩
        obtain ⟨_, _, _, ⟨⟩, _⟩ | ⟨⟨⟩, _⟩ | ⟨_, _, _, _, _, _, moved⟩ :=
          EventPermits.calls_of_step dropped
        show List.length (EventPermits.calls _) = _
        rw [moved, List.length_set]
      · exact ⟨rfl, rfl, rfl⟩
  · exact ⟨rfl, rfl, rfl⟩

/-- After a step of one call its caller drops what it does not expect. -/
theorem Sound.sift {index : Nat}
    (reached : (EventPermits.machine external a.state).Reachable a.permits)
    (paired : a.expects.length = a.permits.calls.length)
    (others : ∀ (other : Nat) (expects : Expects) (phase : EventPhase), other ≠ index →
      a.expects[other]? = some expects → a.permits.calls[other]? = some phase →
      expects.takes phase = true) :
    (a.sift external index).Sound external := by
  cases expected : a.expects[index]? with
  | none =>
      have same : a.sift external index = a := by
        unfold Activation.sift
        rw [expected]
      rw [same]
      refine ⟨reached, paired, fun other expects phase present => ?_⟩
      apply others other expects phase ?_ present
      rintro rfl
      cases expected.symm.trans present
  | some expects =>
      obtain ⟨phase, present⟩ : ∃ phase, a.permits.calls[index]? = some phase := by
        have inRange := (List.getElem?_eq_some_iff.mp expected).1
        rw [paired] at inRange
        exact ⟨_, List.getElem?_eq_getElem inRange⟩
      cases goesOn : expects.takes phase with
      | true =>
          have same : a.sift external index = a := by
            unfold Activation.sift
            simp only [expected, present, goesOn, if_true]
          rw [same]
          refine ⟨reached, paired, fun other expects' phase' expected' present' => ?_⟩
          by_cases same : other = index
          · cases same
            cases expected.symm.trans expected'
            cases present.symm.trans present'
            exact goesOn
          · exact others other expects' phase' same expected' present'
      | false =>
          have returned := Expects.returned_of_not_takes goesOn
          have dropped : EventPermits.step external a.state a.permits (.dropBody index) =
              some (a.permits.settle index phase .dropped) := by
            simp only [EventPermits.step, EventAction.index?, EventPermits.advance, present,
              returned, Option.bind_eq_bind, Option.bind_some, Option.pure_def, if_true]
          have sifted : a.sift external index =
              { a with permits := a.permits.settle index phase .dropped } := by
            unfold Activation.sift
            simp only [expected, present, goesOn, dropped, Bool.false_eq_true, if_false]
          rw [sifted]
          refine ⟨EventPermits.reachable_step reached dropped, ?_, ?_⟩
          · rw [paired]
            exact (List.length_set).symm
          · intro other expects' phase' expected' present'
            by_cases same : index = other
            · cases same
              have inRange := (List.getElem?_eq_some_iff.mp present).1
              have replaced : (a.permits.calls.set index .dropped)[index]? = some phase' := present'
              rw [List.getElem?_set_self inRange] at replaced
              cases replaced
              rfl
            · have kept : (a.permits.calls.set index .dropped)[other]? = some phase' := present'
              rw [List.getElem?_set_ne same] at kept
              exact others other expects' phase' (Ne.symm same) expected' kept

theorem Sound.handle (prior : a.Sound external) {expects : Expects} {request : Request Bytes}
    {cancelled : Bool} {world : World η}
    (called : a.handle external expects request cancelled world = some b) :
    b.Sound external ∧ b.state = a.state := by
  unfold Activation.handle at called
  obtain ⟨permits, transition, called⟩ := Option.bind_eq_some_iff.mp called
  cases called
  have added : permits.calls = a.permits.calls ++
      [EventPermits.enter a.state a.permits request cancelled world] := by
    cases transition
    rfl
  refine ⟨?_, (sift_frame external _ _).1⟩
  apply Sound.sift
  · exact EventPermits.reachable_step prior.reached transition
  · simp only [added, List.length_append, List.length_singleton, prior.paired]
  · intro other expects' phase different expected present
    have old : other < a.permits.calls.length := by
      have inRange := (List.getElem?_eq_some_iff.mp present).1
      simp only [added, List.length_append, List.length_singleton] at inRange
      omega
    simp only [added, List.getElem?_append_left old] at present
    rw [List.getElem?_append_left (prior.paired ▸ old)] at expected
    exact prior.taken other expects' phase expected present

theorem Sound.progress (prior : a.Sound external) {action : EventAction η}
    (internal : action.internal = true) (moved : a.progress external action = some b) :
    b.Sound external ∧ b.state = a.state ∧
      b.permits.calls.length = a.permits.calls.length := by
  unfold Activation.progress at moved
  obtain ⟨permits, transition, moved⟩ := Option.bind_eq_some_iff.mp moved
  have reached := EventPermits.reachable_step prior.reached transition
  obtain ⟨_, _, _, rfl, _⟩ | ⟨nobody, same⟩ | ⟨index, old, new, target, present, advanced, same⟩ :=
    EventPermits.calls_of_step transition
  · cases internal
  · rw [nobody] at moved
    cases moved
    refine ⟨⟨reached, ?_, ?_⟩, rfl, congrArg List.length same⟩
    · exact prior.paired.trans (congrArg List.length same).symm
    · intro index expects phase expected present
      rw [same] at present
      exact prior.taken index expects phase expected present
  · rw [target] at moved
    cases moved
    have length : permits.calls.length = a.permits.calls.length := by
      rw [same, List.length_set]
    obtain ⟨state, -, calls⟩ := sift_frame external { a with permits } index
    refine ⟨?_, state, calls.trans length⟩
    apply Sound.sift (a := { a with permits }) reached (prior.paired.trans length.symm)
    intro other expects phase different expected present
    simp only [same, List.getElem?_set_ne (Ne.symm different)] at present
    exact prior.taken other expects phase expected present

end Activation

/-! ### The cell and its states -/

/-- An event Ingress is configured as a native one that listens alone. -/
theorem WebIngressEventFactory.configured_eq_ok {factory : WebIngressEventFactory η}
    {format : AddressFormat} [DecidableEq format.Address] {parser : UriParser}
    {configuration : Json} {config : format.Address × WebIngressConfig} :
    factory.configured format parser configuration = .ok config ↔
      Ingress.instantiate format parser factory.identities none configuration = .ok config := by
  rw [instantiate_eq_ok, configured, Result.bind_eq_ok]
  constructor
  · rintro ⟨read, decoded, rest⟩
    obtain ⟨_, valid, rest⟩ := Result.bind_eq_ok.mp rest
    obtain ⟨_, named, returned⟩ := Result.bind_eq_ok.mp rest
    cases returned
    exact ⟨Result.mapError_eq_ok.mp decoded, Result.mapError_eq_ok.mp valid,
      Result.mapError_eq_ok.mp named, nofun⟩
  · rintro ⟨decoded, valid, named, -⟩
    refine ⟨config, Result.mapError_eq_ok.mpr decoded, ?_⟩
    refine Result.bind_eq_ok.mpr ⟨(), Result.mapError_eq_ok.mpr valid, ?_⟩
    exact Result.bind_eq_ok.mpr ⟨(), Result.mapError_eq_ok.mpr named, rfl⟩

namespace EventIngress

variable {factory : WebIngressEventFactory η} {format : AddressFormat}
  [DecidableEq format.Address] {parser : UriParser} {external : External}
  {s t : EventIngress η} {action : EventIngressAction η}

/-- The number of calls on the state of an activation. -/
def callCount (s : EventIngress η) (index : Nat) : Option Nat :=
  s.activations[index]?.map (·.permits.calls.length)

/-- Everything that a step can do. -/
inductive IngressStep (factory : WebIngressEventFactory η) (format : AddressFormat)
    (parser : UriParser) (external : External) (s : EventIngress η) :
    EventIngressAction η → EventIngress η → Prop
  | refused {configuration : Json} (error : EventInstantiateError) :
      IngressStep factory format parser external s (.instantiate configuration)
        { s with instantiations := s.instantiations ++ [.error error] }
  | instantiated {configuration : Json} {config : format.Address × WebIngressConfig}
      (read : factory.configured format parser configuration = .ok config)
      (fresh : s.instantiated = false) :
      IngressStep factory format parser external s (.instantiate configuration)
        { s with
          instantiated := true
          instantiations := s.instantiations ++ [.ok config.2]
          lifecycle := some config.2 }
  | activated {config : WebIngressConfig} {routes : RouteTable η} {isOpen isAccepting : Bool}
      (instance' : s.lifecycle = some config) :
      IngressStep factory format parser external s (.activate (.ok routes) isOpen isAccepting)
        (s.activate factory config routes isOpen isAccepting)
  | unresolved {failure : RuntimeFailure} {isOpen isAccepting : Bool} :
      IngressStep factory format parser external s
        (.activate (.error failure) isOpen isAccepting) s
  | deactivated : IngressStep factory format parser external s .deactivate { s with cell := none }
  | inactive {expects : Expects} {request : Request Bytes} {cancelled : Bool} {world : World η}
      (empty : s.cell = none) :
      IngressStep factory format parser external s (.handle expects request cancelled world) s
  | called {expects : Expects} {request : Request Bytes} {cancelled : Bool} {world : World η}
      {index : Nat} {activation next : Activation η} (active : s.cell = some index)
      (present : s.activations[index]? = some activation)
      (called : activation.handle external expects request cancelled world = some next) :
      IngressStep factory format parser external s (.handle expects request cancelled world)
        { s with activations := s.activations.set index next }
  | progressed {index : Nat} {action : EventAction η} {activation next : Activation η}
      (internal : action.internal = true) (present : s.activations[index]? = some activation)
      (moved : activation.progress external action = some next) :
      IngressStep factory format parser external s (.progress index action)
        { s with activations := s.activations.set index next }

omit [DecidableEq format.Address] in
theorem IngressStep.of_step (transition : s.step factory format parser external action = some t) :
    IngressStep factory format parser external s action t := by
  cases action with
  | instantiate configuration =>
      simp only [step, instantiate] at transition
      split at transition
      · cases transition
        exact .refused _
      · next read =>
        split at transition
        · cases transition
          exact .refused _
        · next fresh =>
          cases transition
          exact .instantiated read (Bool.eq_false_iff.mpr fresh)
  | activate resolved isOpen isAccepting =>
      simp only [step] at transition
      obtain ⟨config, instance', transition⟩ := Option.bind_eq_some_iff.mp transition
      cases resolved with
      | error failure =>
          cases transition
          exact .unresolved
      | ok routes =>
          cases transition
          exact .activated instance'
  | deactivate =>
      cases transition
      exact .deactivated
  | handle expects request cancelled world =>
      simp only [step] at transition
      split at transition
      · next empty =>
        cases transition
        exact .inactive empty
      · next index active =>
        obtain ⟨activation, present, transition⟩ := Option.bind_eq_some_iff.mp transition
        obtain ⟨next, called, transition⟩ := Option.bind_eq_some_iff.mp transition
        cases transition
        exact .called active present called
  | progress index action =>
      simp only [step] at transition
      split at transition
      · next internal =>
        obtain ⟨activation, present, transition⟩ := Option.bind_eq_some_iff.mp transition
        obtain ⟨next, moved, transition⟩ := Option.bind_eq_some_iff.mp transition
        cases transition
        exact .progressed internal present moved
      · cases transition

/-- What all interleavings keep. -/
structure Sound (factory : WebIngressEventFactory η) (format : AddressFormat)
    [DecidableEq format.Address] (parser : UriParser) (external : External)
    (s : EventIngress η) : Prop where
  once : s.instantiations.filterMap Except.toOption = s.lifecycle.toList
  flag : s.instantiated = s.lifecycle.isSome
  configured : ∀ config, s.lifecycle = some config → ∃ configuration address,
    Ingress.instantiate format parser factory.identities none configuration =
      .ok (address, config)
  current : ∀ index, s.cell = some index → index < s.activations.length
  calls : ∀ activation ∈ s.activations, activation.Sound external
  states : ∀ activation ∈ s.activations, s.lifecycle = some activation.state.config ∧
    activation.state.middleware = factory.middleware

namespace Sound

/-- One activation moves on. -/
theorem setActivation (prior : Sound factory format parser external s) {index : Nat}
    {activation next : Activation η} (present : s.activations[index]? = some activation)
    (sound : next.Sound external) (same : next.state = activation.state) :
    Sound factory format parser external
      { s with activations := s.activations.set index next } where
  once := prior.once
  flag := prior.flag
  configured := prior.configured
  current := fun other active => by
    rw [List.length_set]
    exact prior.current other active
  calls := fun other member => by
    obtain old | rfl := List.mem_or_eq_of_mem_set member
    · exact prior.calls other old
    · exact sound
  states := fun other member => by
    obtain old | rfl := List.mem_or_eq_of_mem_set member
    · exact prior.states other old
    · rw [same]
      exact prior.states activation (List.mem_of_getElem? present)

/-- A new state starts with all permits and no calls. -/
theorem activate (prior : Sound factory format parser external s) {config : WebIngressConfig}
    {routes : RouteTable η} {isOpen isAccepting : Bool} (held : s.lifecycle = some config) :
    Sound factory format parser external
      (s.activate factory config routes isOpen isAccepting) where
  once := prior.once
  flag := prior.flag
  configured := prior.configured
  current := fun index active => by
    have newest : s.activations.length = index := Option.some.inj active
    unfold EventIngress.activate
    rw [← newest, List.length_append]
    exact Nat.lt_succ_self _
  calls := fun activation member => by
    obtain old | new := List.mem_append.mp member
    · exact prior.calls activation old
    · rw [List.mem_singleton.mp new]
      refine ⟨Machine.Reachable.of_initial ⟨rfl, rfl⟩, rfl, ?_⟩
      intro index expects phase expected
      cases expected
  states := fun activation member => by
    obtain old | new := List.mem_append.mp member
    · exact prior.states activation old
    · rw [List.mem_singleton.mp new]
      exact ⟨held, rfl⟩

theorem step (prior : Sound factory format parser external s)
    (taken : IngressStep factory format parser external s action t) :
    Sound factory format parser external t := by
  cases taken with
  | refused error =>
      refine ⟨?_, prior.flag, prior.configured, prior.current, prior.calls, prior.states⟩
      rw [List.filterMap_append, prior.once]
      exact List.append_nil _
  | @instantiated configuration config read fresh =>
      have nobody : s.lifecycle = none := by
        rw [← Option.not_isSome_iff_eq_none, ← prior.flag, fresh]
        decide
      refine ⟨?_, rfl, ?_, prior.current, prior.calls, ?_⟩
      · rw [List.filterMap_append, prior.once, nobody]
        rfl
      · intro other same
        cases same
        exact ⟨configuration, config.1, WebIngressEventFactory.configured_eq_ok.mp read⟩
      · intro activation member
        cases nobody.symm.trans (prior.states activation member).1
  | activated instance' => exact prior.activate instance'
  | unresolved => exact prior
  | deactivated =>
      exact ⟨prior.once, prior.flag, prior.configured, nofun, prior.calls, prior.states⟩
  | inactive empty => exact prior
  | called active present called =>
      obtain ⟨sound, same⟩ := (prior.calls _ (List.mem_of_getElem? present)).handle called
      exact prior.setActivation present sound same
  | progressed internal present moved =>
      obtain ⟨sound, same, -⟩ :=
        (prior.calls _ (List.mem_of_getElem? present)).progress internal moved
      exact prior.setActivation present sound same

end Sound

theorem sound_of_reachable
    (reached : (eventIngress factory format parser external).Reachable s) :
    Sound factory format parser external s := by
  refine reached.invariant ?_ fun s action t _ prior transition => prior.step (.of_step transition)
  rintro s rfl
  exact ⟨rfl, rfl, nofun, nofun, nofun, nofun⟩

/-! ### What stays for good -/

/-- What is settled in one state and stays so in a later one. -/
structure Settled (s t : EventIngress η) : Prop where
  lifecycle : ∀ config, s.lifecycle = some config → t.lifecycle = some config
  grown : s.activations.length ≤ t.activations.length
  retired : ∀ index < s.activations.length, s.cell ≠ some index →
    t.cell ≠ some index ∧ t.callCount index = s.callCount index

namespace Settled

theorem refl (s : EventIngress η) : Settled s s :=
  ⟨fun _ same => same, le_rfl, fun _ _ retired => ⟨retired, rfl⟩⟩

theorem trans {u : EventIngress η} (first : Settled s t) (second : Settled t u) :
    Settled s u where
  lifecycle := fun config same => second.lifecycle config (first.lifecycle config same)
  grown := first.grown.trans second.grown
  retired := fun index inRange retired => by
    obtain ⟨still, same⟩ := first.retired index inRange retired
    obtain ⟨finally', same'⟩ := second.retired index (inRange.trans_le first.grown) still
    exact ⟨finally', same'.trans same⟩

/-- A step of one activation that leaves the number of its calls, or belongs to the current
one. -/
theorem setActivation {index : Nat} {activation next : Activation η}
    (present : s.activations[index]? = some activation)
    (counted : s.cell = some index ∨
      next.permits.calls.length = activation.permits.calls.length) :
    Settled s { s with activations := s.activations.set index next } := by
  refine ⟨fun _ same => same, (List.length_set).ge, fun other inRange retired => ⟨retired, ?_⟩⟩
  unfold callCount
  by_cases same : index = other
  · cases same
    obtain active | length := counted
    · exact absurd active retired
    · simp only [List.getElem?_set_self inRange, present, Option.map_some, length]
  · simp only [List.getElem?_set_ne same]

theorem step (sound : Sound factory format parser external s)
    (taken : IngressStep factory format parser external s action t) : Settled s t := by
  cases taken with
  | refused error => exact ⟨fun _ same => same, le_rfl, fun _ _ retired => ⟨retired, rfl⟩⟩
  | instantiated read fresh =>
      refine ⟨fun config held => ?_, le_rfl, fun _ _ retired => ⟨retired, rfl⟩⟩
      have flag := sound.flag
      rw [fresh, held] at flag
      cases flag
  | @activated config routes isOpen isAccepting held =>
      unfold EventIngress.activate
      refine ⟨fun _ same => same, ?_, fun index inRange retired => ⟨?_, ?_⟩⟩
      · rw [List.length_append]
        exact Nat.le_add_right _ _
      · intro active
        have newest : s.activations.length = index := Option.some.inj active
        omega
      · unfold callCount
        rw [List.getElem?_append_left inRange]
  | unresolved => exact .refl s
  | deactivated => exact ⟨fun _ same => same, le_rfl, fun _ _ _ => ⟨nofun, rfl⟩⟩
  | inactive empty => exact .refl s
  | called active present called => exact setActivation present (.inl active)
  | progressed internal present moved =>
      obtain ⟨-, -, length⟩ :=
        (sound.calls _ (List.mem_of_getElem? present)).progress internal moved
      exact setActivation present (.inr length)

theorem run {actions : List (EventIngressAction η)}
    (reached : (eventIngress factory format parser external).Reachable s)
    (execution : (eventIngress factory format parser external).run actions s = some t) :
    Settled s t := by
  have both : (eventIngress factory format parser external).Reachable t ∧ Settled s t := by
    refine Machine.run_preserves (P := fun u =>
      (eventIngress factory format parser external).Reachable u ∧ Settled s u) ?_
      ⟨reached, .refl s⟩ execution
    intro u action v prior transition
    exact ⟨prior.1.step transition,
      prior.2.trans (.step (sound_of_reachable prior.1) (.of_step transition))⟩
  exact both.2

end Settled

/-- A caller that takes buffered bodies only keeps no permit once its call has returned. -/
theorem permits_of_buffered {phase : EventPhase} (taken : Expects.buffered.takes phase = true) :
    phase.permits = phase.acquired := by
  cases phase <;> first | rfl | cases taken

/-- The clones of one event factory. At most one instantiation succeeds, with a configuration
that a native Ingress accepts, and it stays the configuration of every activation. Each
activation has a semaphore of its own whose permits the calls on it and the bodies they
returned share; a caller keeps no body that it does not expect, nor a permit with it. A state
that has been taken out of the cell or replaced in it never gets another call. -/
theorem event_ingress_sound
    (reached : (eventIngress factory format parser external).Reachable s) :
    (s.instantiations.filterMap Except.toOption).length ≤ 1 ∧
    (∀ activation ∈ s.activations,
      (EventPermits.machine external activation.state).Reachable activation.permits ∧
      activation.permits.available + activation.permits.acquiredCalls +
        activation.permits.liveBodies = activation.state.config.maxConcurrentRequests ∧
      (∀ (index : Nat) (expects : Expects) (phase : EventPhase),
        activation.expects[index]? = some expects →
        activation.permits.calls[index]? = some phase →
        expects.takes phase = true ∧
          (expects = .buffered → phase.permits = phase.acquired)) ∧
      s.lifecycle = some activation.state.config ∧
      ∃ configuration address,
        Ingress.instantiate format parser factory.identities none configuration =
          .ok (address, activation.state.config)) ∧
    ∀ actions t, (eventIngress factory format parser external).run actions s = some t →
      (∀ config, s.lifecycle = some config → t.lifecycle = some config) ∧
      ∀ index < s.activations.length, s.cell ≠ some index →
        t.cell ≠ some index ∧ t.callCount index = s.callCount index := by
  have sound := sound_of_reachable reached
  refine ⟨?_, fun activation member => ?_, fun actions t execution => ?_⟩
  · rw [sound.once]
    cases s.lifecycle with
    | none => exact Nat.zero_le 1
    | some config => exact le_rfl
  · have calls := sound.calls activation member
    have conserved := EventPermits.conserved_of_reachable calls.reached
    have held := (sound.states activation member).1
    refine ⟨calls.reached, ?_, ?_, held, sound.configured _ held⟩
    · have split : ∀ phase ∈ activation.permits.calls,
          phase.permits = phase.acquired + phase.live :=
        fun phase inside => (conserved.held phase inside).permits_eq
      rw [EventPermits.acquiredCalls, EventPermits.liveBodies, Nat.add_assoc, ← census_add split]
      exact conserved.total
    · intro index expects phase expected present
      have taken := calls.taken index expects phase expected present
      refine ⟨taken, ?_⟩
      rintro rfl
      exact permits_of_buffered taken
  · have settled := Settled.run reached execution
    exact ⟨settled.lifecycle, settled.retired⟩

/-- A factory without middleware. -/
def bareFactory : WebIngressEventFactory Unit := ⟨[], [], rfl⟩

/-- An instance is activated twice; `handle` meets a stream on each of its states. -/
def twoActivations : List (EventIngressAction Unit) :=
  let world : World Unit := .start () 0 0
  [.instantiate (.object []), .instantiate (.object []),
    .activate (.ok (streamRoutes oneChunk)) true true,
    .handle .buffered bareRequest false world, .progress 0 (.acquire 0),
    .progress 0 (.resume 0 world), .activate (.ok (streamRoutes oneChunk)) true true,
    .handle .any bareRequest false world, .progress 0 (.dispatched 0 world)]

theorem event_ingress_sound_twoActivations :
    ∃ s, (eventIngress bareFactory loopbackOnly UriParser.pathOnly bareExternal).Reachable s ∧
      s.activations.length = 2 ∧ (s.instantiations.filterMap Except.toOption).length ≤ 1 ∧
      ∀ actions t, (eventIngress bareFactory loopbackOnly UriParser.pathOnly bareExternal).run
        actions s = some t → t.callCount 0 = some 1 := by
  let start : EventIngress Unit := ⟨false, [], none, none, []⟩
  have execution : ((eventIngress bareFactory loopbackOnly UriParser.pathOnly bareExternal).run
      twoActivations start).map (fun s => (s.cell, s.activations.length, s.callCount 0)) =
        some (some 1, 2, some 1) := by decide +kernel
  obtain ⟨s, run, values⟩ := Option.map_eq_some_iff.mp execution
  have reached : (eventIngress bareFactory loopbackOnly UriParser.pathOnly bareExternal).Reachable
      s := ⟨start, twoActivations, rfl, run⟩
  obtain ⟨active, both⟩ := Prod.mk.inj values
  obtain ⟨two, calls⟩ := Prod.mk.inj both
  obtain ⟨once, -, later⟩ := event_ingress_sound reached
  refine ⟨s, reached, two, once, fun actions t execution => ?_⟩
  obtain ⟨-, retired⟩ := later actions t execution
  have replaced : s.cell ≠ some 0 := by
    rw [active]
    decide
  exact (retired 0 (by omega) replaced).2.trans calls

end EventIngress

end Ingress
