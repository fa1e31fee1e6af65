import LensoWeb.Ingress.Replication.HandOff

/-!
# The acceptor and the lanes

The acceptor thread of a coordinator waits for the ready signal, accepts connections and
distributes them. When it cannot go on it leaves its reason in a watch cell and ends. A lane
receives connections through the source that its registration returned: a call of `receive`
looks at the cell first and then waits for a connection or for a change of the cell.

The thread, the sources and the lifetime of the coordinator are put around the machine of
the coordinator. The coordinator is dropped with its last handle, and the acceptor holds one
while it distributes a connection.
-/

namespace Ingress

open Foundation Http

/-- Where the acceptor thread stands. -/
inductive AcceptorThread where
  | starting
  | waiting
  | accepting
  | ended
deriving DecidableEq

/-- What a call of `receive` returned. -/
inductive Received where
  | connection (socket : Socket)
  | failed (detail : String)
  | exhausted
deriving DecidableEq

/-- `ReplicaConnectionSource`, with the results of its calls and whether a call waits. -/
structure ReplicaConnectionSource where
  channel : ChannelId
  held : Bool
  receiving : Bool
  returned : List Received
deriving DecidableEq

namespace ReplicaConnectionSource

/-- The call that waits returns. -/
def returns (source : ReplicaConnectionSource) (result : Received) : ReplicaConnectionSource :=
  { source with receiving := false, returned := source.returned ++ [result] }

/-- The connections that the source has returned. -/
def connections (source : ReplicaConnectionSource) : Nat :=
  source.returned.countP fun result => match result with
    | .connection _ => true
    | _ => false

/-- The connections that the source has returned or could still return from a call that waits. -/
def promised (source : ReplicaConnectionSource) : Nat :=
  source.connections + source.receiving.toNat

end ReplicaConnectionSource

/-- How the accept loop got a socket, or did not. -/
inductive AcceptOutcome where
  | connection
  | acceptFailed (error : String)
  | transferFailed (error : String)
deriving DecidableEq

/-- The coordinator with its acceptor thread, the cell for its failure and the sources. -/
structure SharedListener where
  coordinator : ListenerCoordinator
  alive : Bool
  thread : AcceptorThread
  failure : Option String
  sources : List ReplicaConnectionSource

inductive ListenerAction where
  | coordinate (action : CoordinatorAction)
  | register (slot : Nat) (routes : WebIngressRouteManifest) (middleware : List String)
  | start (outcome : Except String Unit)
  | listen (outcome : Except String Unit)
  | accept (outcome : AcceptOutcome)
  | stop
  | close
  | receive (index : Nat)
  | yields (index : Nat)
  | exhausts (index : Nat)
  | wakes (index : Nat)
  | dropReceive (index : Nat)
  | dropSource (index : Nat)

/-- An action of the coordinator that needs nothing around it. Registrations, accepted
connections and receivers have actions of their own. What calls the coordinator or holds it
needs it alive; permits come back also later. -/
def CoordinatorAction.shared (alive : Bool) : CoordinatorAction → Bool
  | .register _ _ _ => false
  | .accept => false
  | .receive _ => false
  | .dropReceiver _ => false
  | .complete _ => true
  | _ => alive

/-- The senders that a distribution has cloned. -/
def Acceptor.waiting : Acceptor → List ChannelId
  | .trying scan => scan.waiting
  | .reserving scan _ => scan.waiting
  | _ => []

/-- The acceptor is between two connections. -/
def Acceptor.isIdle : Acceptor → Bool
  | .idle => true
  | _ => false

theorem Acceptor.isIdle_iff {acceptor : Acceptor} : acceptor.isIdle = true ↔ acceptor = .idle := by
  cases acceptor <;> simp [isIdle]

namespace SharedListener

/-- No sender of a channel is left. -/
def Superseded (s : SharedListener) (id : ChannelId) : Prop :=
  s.alive = false ∨ some id ∉ s.coordinator.state.senders ∧ id ∉ s.coordinator.acceptor.waiting

instance (s : SharedListener) (id : ChannelId) : Decidable (s.Superseded id) :=
  inferInstanceAs (Decidable (_ ∨ _))

/-- `report_acceptor_failure`, and the thread returns. -/
def report (s : SharedListener) (detail : String) : SharedListener :=
  { s with thread := .ended, failure := if s.alive then some detail else s.failure }

/-- A call on a source that is held. -/
def onSource (s : SharedListener) (index : Nat)
    (call : ReplicaConnectionSource → Option SharedListener) : Option SharedListener := do
  let source ← s.sources[index]?
  if source.held then call source else none

/-- Replace a source. -/
def setSource (s : SharedListener) (index : Nat) (source : ReplicaConnectionSource) :
    SharedListener :=
  { s with sources := s.sources.set index source }

/-- The accept loop with what the listener gave it. -/
def accept (s : SharedListener) : AcceptOutcome → SharedListener
  | .connection => if s.alive then { s with coordinator := s.coordinator.accept } else s
  | .acceptFailed error => s.report ("Web Ingress accept failed: " ++ error)
  | .transferFailed error => s.report ("Web Ingress accepted socket transfer failed: " ++ error)

def step (config : WebIngressConfig) (s : SharedListener) :
    ListenerAction → Option SharedListener
  | .coordinate action =>
      if action.shared s.alive then
        (s.coordinator.step config action).map fun coordinator => { s with coordinator }
      else none
  | .register slot routes middleware => do
      if s.alive then
        let coordinator ← s.coordinator.step config (.register slot routes middleware)
        match (s.coordinator.register config slot routes middleware).1 with
        | .ok channel =>
            some { s with coordinator, sources := s.sources ++ [⟨channel, true, false, []⟩] }
        | .error _ => some { s with coordinator }
      else none
  | .start outcome =>
      match s.thread, outcome with
      | .starting, .ok () => some { s with thread := .waiting }
      | .starting, .error error =>
          some (s.report ("Web Ingress acceptor runtime failed: " ++ error))
      | _, _ => none
  | .listen outcome =>
      match s.thread, s.coordinator.ready, outcome with
      | .waiting, true, .ok () => some { s with thread := .accepting }
      | .waiting, true, .error error =>
          some (s.report ("Web Ingress acceptor listener transfer failed: " ++ error))
      | _, _, _ => none
  | .accept outcome =>
      if s.thread = .accepting ∧ s.coordinator.acceptor.isIdle = true then some (s.accept outcome)
      else none
  | .stop =>
      if s.alive = false ∧ s.coordinator.acceptor.isIdle = true then
        some { s with thread := .ended }
      else none
  | .close =>
      if s.alive = true ∧ s.coordinator.acceptor.isIdle = true ∧
          s.coordinator.allocating = [] ∧ s.coordinator.publishing = 0 then
        some { s with alive := false }
      else none
  | .receive index => s.onSource index fun source =>
      if source.receiving then none
      else match s.failure with
        | some detail => some (s.setSource index (source.returns (.failed detail)))
        | none => some (s.setSource index { source with receiving := true })
  | .yields index => s.onSource index fun source =>
      if source.receiving then do
        let channel ← s.coordinator.channels[source.channel]?
        let (socket, _) ← channel.recv
        let coordinator ← s.coordinator.step config (.receive source.channel)
        some ({ s with coordinator }.setSource index (source.returns (.connection socket)))
      else none
  | .exhausts index => s.onSource index fun source =>
      if source.receiving then do
        let channel ← s.coordinator.channels[source.channel]?
        if channel.queue = [] ∧ s.Superseded source.channel then
          some (s.setSource index (source.returns .exhausted))
        else none
      else none
  | .wakes index => s.onSource index fun source =>
      if source.receiving then
        match s.failure with
        | some detail => some (s.setSource index (source.returns (.failed detail)))
        | none =>
            if s.alive then none else some (s.setSource index (source.returns .exhausted))
      else none
  | .dropReceive index => s.onSource index fun source =>
      if source.receiving then some (s.setSource index { source with receiving := false })
      else none
  | .dropSource index => s.onSource index fun source => do
      let coordinator ← s.coordinator.step config (.dropReceiver source.channel)
      some ({ s with coordinator }.setSource index
        { source with held := false, receiving := false })

end SharedListener

/-- All interleavings of one acceptor thread with the lanes that share its listener. -/
def sharedListener (parser : UriParser) (config : WebIngressConfig) (replicaCount : Nat) :
    Machine SharedListener ListenerAction where
  initial s := ListenerCoordinator.bind parser config replicaCount = .ok s.coordinator ∧
    s.alive = true ∧ s.thread = .starting ∧ s.failure = none ∧ s.sources = []
  step := SharedListener.step config

namespace SharedListener

variable {parser : UriParser} {config : WebIngressConfig} {replicaCount : Nat}
  {s t : SharedListener} {action : ListenerAction}

/-! ### The transitions -/

/-- What one action can do. -/
inductive ListenerStep (config : WebIngressConfig) (s : SharedListener) :
    ListenerAction → SharedListener → Prop
  | coordinate {action : CoordinatorAction} {coordinator : ListenerCoordinator}
      (shared : action.shared s.alive = true)
      (taken : s.coordinator.step config action = some coordinator) :
      ListenerStep config s (.coordinate action) { s with coordinator }
  | registered {slot : Nat} {routes : WebIngressRouteManifest} {middleware : List String}
      {coordinator : ListenerCoordinator} {channel : ChannelId} (alive : s.alive = true)
      (taken : s.coordinator.step config (.register slot routes middleware) = some coordinator) :
      ListenerStep config s (.register slot routes middleware)
        { s with coordinator, sources := s.sources ++ [⟨channel, true, false, []⟩] }
  | unregistered {slot : Nat} {routes : WebIngressRouteManifest} {middleware : List String}
      {coordinator : ListenerCoordinator} (alive : s.alive = true)
      (taken : s.coordinator.step config (.register slot routes middleware) = some coordinator) :
      ListenerStep config s (.register slot routes middleware) { s with coordinator }
  | started (starting : s.thread = .starting) :
      ListenerStep config s (.start (.ok ())) { s with thread := .waiting }
  | listening (waiting : s.thread = .waiting) (ready : s.coordinator.ready = true) :
      ListenerStep config s (.listen (.ok ())) { s with thread := .accepting }
  | accepted (accepting : s.thread = .accepting) (idle : s.coordinator.acceptor = .idle)
      (alive : s.alive = true) :
      ListenerStep config s (.accept .connection) { s with coordinator := s.coordinator.accept }
  | discarded (accepting : s.thread = .accepting) (dead : s.alive = false) :
      ListenerStep config s (.accept .connection) s
  | fails {action : ListenerAction} (running : s.thread ≠ .ended)
      (idle : s.thread = .accepting → s.coordinator.acceptor = .idle) (detail : String) :
      ListenerStep config s action (s.report detail)
  | stops (dead : s.alive = false) (idle : s.coordinator.acceptor = .idle) :
      ListenerStep config s .stop { s with thread := .ended }
  | closes (alive : s.alive = true) (idle : s.coordinator.acceptor = .idle) :
      ListenerStep config s .close { s with alive := false }
  | waits {index : Nat} {source : ReplicaConnectionSource}
      (present : s.sources[index]? = some source) (calm : s.failure = none) :
      ListenerStep config s (.receive index)
        (s.setSource index { source with receiving := true })
  | learns {action : ListenerAction} {index : Nat} {source : ReplicaConnectionSource}
      {detail : String} (present : s.sources[index]? = some source)
      (failed : s.failure = some detail) :
      ListenerStep config s action (s.setSource index (source.returns (.failed detail)))
  | yields {index : Nat} {source : ReplicaConnectionSource} {coordinator : ListenerCoordinator}
      {socket : Socket} (present : s.sources[index]? = some source)
      (waits : source.receiving = true)
      (taken : s.coordinator.step config (.receive source.channel) = some coordinator) :
      ListenerStep config s (.yields index)
        ({ s with coordinator }.setSource index (source.returns (.connection socket)))
  | exhausts {action : ListenerAction} {index : Nat} {source : ReplicaConnectionSource}
      (present : s.sources[index]? = some source) (over' : s.Superseded source.channel) :
      ListenerStep config s action (s.setSource index (source.returns .exhausted))
  | dropsReceive {index : Nat} {source : ReplicaConnectionSource}
      (present : s.sources[index]? = some source) :
      ListenerStep config s (.dropReceive index)
        (s.setSource index { source with receiving := false })
  | dropsSource {index : Nat} {source : ReplicaConnectionSource}
      {coordinator : ListenerCoordinator} (present : s.sources[index]? = some source)
      (taken : s.coordinator.step config (.dropReceiver source.channel) = some coordinator) :
      ListenerStep config s (.dropSource index)
        ({ s with coordinator }.setSource index { source with held := false, receiving := false })

theorem of_onSource {index : Nat} {call : ReplicaConnectionSource → Option SharedListener}
    (taken : s.onSource index call = some t) :
    ∃ source, s.sources[index]? = some source ∧ call source = some t := by
  obtain ⟨source, present, taken⟩ := Option.bind_eq_some_iff.mp taken
  split at taken
  · exact ⟨source, present, taken⟩
  · cases taken

theorem ListenerStep.of_step (transition : s.step config action = some t) :
    ListenerStep config s action t := by
  cases action with
  | coordinate action =>
      simp only [step] at transition
      split at transition
      · next shared =>
        obtain ⟨coordinator, taken, rfl⟩ := Option.map_eq_some_iff.mp transition
        exact .coordinate shared taken
      · cases transition
  | register slot routes middleware =>
      simp only [step] at transition
      split at transition
      · next alive =>
        obtain ⟨coordinator, taken, transition⟩ := Option.bind_eq_some_iff.mp transition
        split at transition
        · cases transition
          exact .registered alive taken
        · cases transition
          exact .unregistered alive taken
      · cases transition
  | start outcome =>
      simp only [step] at transition
      split at transition
      · next starting =>
        cases transition
        exact .started starting
      · next starting =>
        cases transition
        exact .fails (by rw [starting]; decide) (by rw [starting]; nofun) _
      · cases transition
  | listen outcome =>
      simp only [step] at transition
      split at transition
      · next waiting ready =>
        cases transition
        exact .listening waiting ready
      · next waiting ready =>
        cases transition
        exact .fails (by rw [waiting]; decide) (by rw [waiting]; nofun) _
      · cases transition
  | accept outcome =>
      simp only [step] at transition
      split at transition
      · next both =>
        have idle := Acceptor.isIdle_iff.mp both.2
        have running : s.thread ≠ .ended := by rw [both.1]; decide
        cases transition
        cases outcome with
        | connection =>
            rw [accept]
            split
            · next alive => exact .accepted both.1 idle alive
            · next dead => exact .discarded both.1 (Bool.eq_false_iff.mpr dead)
        | acceptFailed error => exact .fails running (fun _ => idle) _
        | transferFailed error => exact .fails running (fun _ => idle) _
      · cases transition
  | stop =>
      simp only [step] at transition
      split at transition
      · next both =>
        cases transition
        exact .stops both.1 (Acceptor.isIdle_iff.mp both.2)
      · cases transition
  | close =>
      simp only [step] at transition
      split at transition
      · next all =>
        cases transition
        exact .closes all.1 (Acceptor.isIdle_iff.mp all.2.1)
      · cases transition
  | receive index =>
      simp only [step] at transition
      obtain ⟨source, present, taken⟩ := of_onSource transition
      split at taken
      · cases taken
      split at taken
      · next failed =>
        cases taken
        exact .learns present failed
      · next calm =>
        cases taken
        exact .waits present calm
  | yields index =>
      simp only [step] at transition
      obtain ⟨source, present, taken⟩ := of_onSource transition
      split at taken
      · next waits =>
        obtain ⟨channel, -, taken⟩ := Option.bind_eq_some_iff.mp taken
        obtain ⟨⟨socket, rest⟩, -, taken⟩ := Option.bind_eq_some_iff.mp taken
        obtain ⟨coordinator, received, taken⟩ := Option.bind_eq_some_iff.mp taken
        cases taken
        exact .yields present waits received
      · cases taken
  | exhausts index =>
      simp only [step] at transition
      obtain ⟨source, present, taken⟩ := of_onSource transition
      split at taken
      · obtain ⟨channel, -, taken⟩ := Option.bind_eq_some_iff.mp taken
        split at taken
        · next both =>
          cases taken
          exact .exhausts present both.2
        · cases taken
      · cases taken
  | wakes index =>
      simp only [step] at transition
      obtain ⟨source, present, taken⟩ := of_onSource transition
      split at taken
      · split at taken
        · next failed =>
          cases taken
          exact .learns present failed
        · split at taken
          · cases taken
          · next dead =>
            cases taken
            exact .exhausts present (.inl (Bool.eq_false_iff.mpr dead))
      · cases taken
  | dropReceive index =>
      simp only [step] at transition
      obtain ⟨source, present, taken⟩ := of_onSource transition
      split at taken
      · cases taken
        exact .dropsReceive present
      · cases taken
  | dropSource index =>
      simp only [step] at transition
      obtain ⟨source, present, taken⟩ := of_onSource transition
      obtain ⟨coordinator, dropped, taken⟩ := Option.bind_eq_some_iff.mp taken
      cases taken
      exact .dropsSource present dropped

end SharedListener

namespace ListenerCoordinator

variable {parser : UriParser} {config : WebIngressConfig} {replicaCount : Nat}
  {s t : ListenerCoordinator} {action : CoordinatorAction}

/-- Only an accepted connection is counted. -/
theorem CoordinatorStep.accepted_eq (taken : CoordinatorStep config s action t)
    (other : action ≠ .accept) : t.accepted = s.accepted := by
  cases taken with
  | allocateDrawn drawn free =>
      obtain ⟨state, replicas, same⟩ := s.allocateReplicaAt_frame _
      rw [same]
  | allocateReplicaAt free =>
      obtain ⟨state, replicas, same⟩ := s.allocateReplicaAt_frame _
      rw [same]
  | register handle free =>
      obtain ⟨state, channels, publishing, same⟩ := s.register_frame config _ _ _
      rw [same]
  | refuse idle exhausted => exact absurd rfl other
  | grantPermit idle available => exact absurd rfl other
  | _ => rfl

/-- An acceptor that rests is woken by an accepted connection only. -/
theorem CoordinatorStep.idle_of_idle (taken : CoordinatorStep config s action t)
    (other : action ≠ .accept) (idle : s.acceptor = .idle) :
    t.acceptor = .idle ∧ t.history = s.history := by
  cases taken with
  | allocateDrawn drawn free =>
      obtain ⟨state, replicas, same⟩ := s.allocateReplicaAt_frame _
      rw [same]
      exact ⟨idle, rfl⟩
  | allocateReplicaAt free =>
      obtain ⟨state, replicas, same⟩ := s.allocateReplicaAt_frame _
      rw [same]
      exact ⟨idle, rfl⟩
  | register handle free =>
      obtain ⟨state, channels, publishing, same⟩ := s.register_frame config _ _ _
      rw [same]
      exact ⟨idle, rfl⟩
  | refuse resting exhausted => exact absurd rfl other
  | grantPermit resting available => exact absurd rfl other
  | lock admitted => cases idle.symm.trans admitted
  | skipAbsent trying remaining absent => cases idle.symm.trans trying
  | skipFull trying remaining found isOpen full => cases idle.symm.trans trying
  | skipClosed trying remaining found closed => cases idle.symm.trans trying
  | place trying remaining found room => cases idle.symm.trans trying
  | unlock trying exhausted => cases idle.symm.trans trying
  | reserve reserving awaited present room => cases idle.symm.trans reserving
  | reservationFails reserving awaited present closed => cases idle.symm.trans reserving
  | abandon reserving none => cases idle.symm.trans reserving
  | _ => exact ⟨idle, rfl⟩

/-- One action does not take the ready signal back. -/
theorem ready_of_step (taken : (coordinator parser config replicaCount).step s action = some t)
    (ready : s.ready = true) : t.ready = true := by
  have execution : (coordinator parser config replicaCount).run [action] s = some t :=
    Machine.run_cons_iff.mpr ⟨t, taken, rfl⟩
  exact ready_of_run execution ready

/-- Before the first connection nothing is held by anyone. -/
theorem held_eq_zero (reached : (coordinator parser config replicaCount).Reachable s)
    (fresh : s.accepted = 0) : s.held = 0 := by
  have located := (custody_of_reachable reached).located
  rw [fresh, Multiset.range_zero, add_eq_zero, add_eq_zero] at located
  exact located.1.1

/-- A received connection was accepted before. -/
theorem accepted_of_receive {id : ChannelId}
    (reached : (coordinator parser config replicaCount).Reachable s)
    (taken : s.step config (.receive id) = some t) : 0 < t.accepted := by
  have transition : (coordinator parser config replicaCount).step s (.receive id) = some t := taken
  by_contra fresh
  have empty := held_eq_zero (reached.step transition) (by omega)
  cases CoordinatorStep.of_step taken with
  | receive present received =>
      rw [held, add_eq_zero] at empty
      have served : s.serving ++ [_] = [] := Multiset.coe_eq_zero _ |>.mp empty.2
      exact List.append_ne_nil_of_right_ne_nil _ (List.cons_ne_nil _ _) served

/-- Behind the Ready Gate all slots hold one manifest. -/
theorem manifests_of_ready (reached : (coordinator parser config replicaCount).Reachable s)
    (ready : s.ready = true) :
    ∃ manifest, s.state.manifests = List.replicate replicaCount (some manifest) := by
  have agreed := agreement_of_reachable reached
  have complete := agreed.complete (.inl ready)
  have length : s.state.manifests.length = replicaCount := by
    rw [CoordinatorState.manifests, List.length_map, agreed.slotCount]
  have positive := (positive_of_reachable reached).2
  obtain ⟨first, member⟩ : ∃ first, first ∈ s.state.manifests := by
    apply List.exists_mem_of_length_pos
    omega
  cases first with
  | none => exact absurd member complete
  | some manifest =>
      refine ⟨manifest, List.eq_replicate_iff.mpr ⟨length, fun entry among => ?_⟩⟩
      cases entry with
      | none => exact absurd among complete
      | some other =>
          have fixed := agreed.canonical manifest member
          rw [agreed.canonical other among] at fixed
          exact fixed

end ListenerCoordinator

namespace SharedListener

variable {parser : UriParser} {config : WebIngressConfig} {replicaCount : Nat}
  {s t : SharedListener} {action : ListenerAction}

/-! ### The invariant -/

/-- What all interleavings keep. -/
structure Sound (parser : UriParser) (config : WebIngressConfig) (replicaCount : Nat)
    (s : SharedListener) : Prop where
  coordinated : (Ingress.coordinator parser config replicaCount).Reachable s.coordinator
  gated : s.thread = .accepting ∨ 0 < s.coordinator.accepted → s.coordinator.ready = true
  resting : s.thread ≠ .accepting → s.coordinator.acceptor = .idle
  over' : s.failure ≠ none → s.thread = .ended
  told : ∀ source ∈ s.sources, ∀ detail, Received.failed detail ∈ source.returned →
    s.failure = some detail
  served : ∀ source ∈ s.sources, ∀ socket, Received.connection socket ∈ source.returned →
    0 < s.coordinator.accepted

namespace Sound

/-- Sources may change when what they returned is accounted for. -/
theorem withSources (prior : Sound parser config replicaCount s)
    {sources : List ReplicaConnectionSource}
    (told : ∀ source ∈ sources, ∀ detail, Received.failed detail ∈ source.returned →
      s.failure = some detail)
    (served : ∀ source ∈ sources, ∀ socket, Received.connection socket ∈ source.returned →
      0 < s.coordinator.accepted) :
    Sound parser config replicaCount { s with sources } where
  coordinated := prior.coordinated
  gated := prior.gated
  resting := prior.resting
  over' := prior.over'
  told := told
  served := served

/-- A source that returned nothing new. -/
theorem setSource (prior : Sound parser config replicaCount s) {index : Nat}
    {source replaced : ReplicaConnectionSource} (present : s.sources[index]? = some source)
    (same : replaced.returned = source.returned) :
    Sound parser config replicaCount (s.setSource index replaced) := by
  have held := List.mem_of_getElem? present
  refine prior.withSources (fun other member => ?_) (fun other member => ?_)
  · obtain old | rfl := List.mem_or_eq_of_mem_set member
    · exact prior.told other old
    · rw [same]
      exact prior.told source held
  · obtain old | rfl := List.mem_or_eq_of_mem_set member
    · exact prior.served other old
    · rw [same]
      exact prior.served source held

/-- A source that returned one more result. -/
theorem returns (prior : Sound parser config replicaCount s) {index : Nat}
    {source : ReplicaConnectionSource} (present : s.sources[index]? = some source)
    {result : Received} (told : ∀ detail, result = .failed detail → s.failure = some detail)
    (served : ∀ socket, result = .connection socket → 0 < s.coordinator.accepted) :
    Sound parser config replicaCount (s.setSource index (source.returns result)) := by
  have held := List.mem_of_getElem? present
  refine prior.withSources (fun other member detail failed => ?_)
    (fun other member socket given => ?_)
  · obtain old | rfl := List.mem_or_eq_of_mem_set member
    · exact prior.told other old detail failed
    · obtain earlier | new := List.mem_append.mp failed
      · exact prior.told source held detail earlier
      · exact told detail (List.mem_singleton.mp new).symm
  · obtain old | rfl := List.mem_or_eq_of_mem_set member
    · exact prior.served other old socket given
    · obtain earlier | new := List.mem_append.mp given
      · exact prior.served source held socket earlier
      · exact served socket (List.mem_singleton.mp new).symm

/-- The coordinator moves, but accepts nothing. -/
theorem coordinate (prior : Sound parser config replicaCount s) {action : CoordinatorAction}
    {coordinator : ListenerCoordinator} (taken : s.coordinator.step config action = some coordinator)
    (other : action ≠ .accept) :
    Sound parser config replicaCount { s with coordinator } := by
  have moved : (Ingress.coordinator parser config replicaCount).step s.coordinator action =
      some coordinator := taken
  have transition := ListenerCoordinator.CoordinatorStep.of_step taken
  have counted := transition.accepted_eq other
  refine ⟨prior.coordinated.step moved, ?_, ?_, prior.over', prior.told, ?_⟩
  · intro started
    apply ListenerCoordinator.ready_of_step moved
    apply prior.gated
    rwa [counted] at started
  · intro paused
    exact (transition.idle_of_idle other (prior.resting paused)).1
  · show ∀ source ∈ s.sources, ∀ socket, _ → 0 < coordinator.accepted
    rw [counted]
    exact prior.served

theorem initial (start : (sharedListener parser config replicaCount).initial s) :
    Sound parser config replicaCount s := by
  obtain ⟨bound, alive, starting, calm, none⟩ := start
  refine ⟨.of_initial bound, ?_, ?_, ?_, ?_, ?_⟩
  · obtain ⟨-, -, fresh⟩ := ListenerCoordinator.of_bind bound
    rintro (accepting | accepted)
    · cases starting.symm.trans accepting
    · rw [fresh] at accepted
      cases accepted
  · intro paused
    rw [(ListenerCoordinator.of_bind bound).2.2]
    rfl
  · intro failed
    exact absurd calm failed
  · rw [none]
    nofun
  · rw [none]
    nofun

/-- The thread moves on and nothing has failed. -/
theorem proceed (prior : Sound parser config replicaCount s) {thread : AcceptorThread}
    (running : s.thread ≠ .ended)
    (gated : thread = .accepting → s.coordinator.ready = true)
    (resting : s.coordinator.acceptor = .idle) :
    Sound parser config replicaCount { s with thread } where
  coordinated := prior.coordinated
  gated := fun started => started.elim gated fun accepted => prior.gated (.inr accepted)
  resting := fun _ => resting
  over' := fun failed => absurd (prior.over' failed) running
  told := prior.told
  served := prior.served

/-- The thread ends with a report. -/
theorem report (prior : Sound parser config replicaCount s) (running : s.thread ≠ .ended)
    (idle : s.thread = .accepting → s.coordinator.acceptor = .idle) (detail : String) :
    Sound parser config replicaCount (s.report detail) := by
  refine ⟨prior.coordinated, ?_, ?_, fun _ => rfl, ?_, prior.served⟩
  · rintro (accepting | accepted)
    · cases accepting
    · exact prior.gated (.inr accepted)
  · intro paused
    by_cases accepting : s.thread = .accepting
    · exact idle accepting
    · exact prior.resting accepting
  · -- nobody can have heard of an earlier failure: there was none while the thread was running
    intro source member other failed
    have earlier := prior.told source member other failed
    exact absurd (prior.over' (by rw [earlier]; nofun)) running

theorem step (prior : Sound parser config replicaCount s)
    (taken : ListenerStep config s action t) : Sound parser config replicaCount t := by
  cases taken with
  | coordinate shared taken =>
      apply prior.coordinate taken
      rintro rfl
      cases shared
  | registered alive taken =>
      have moved := prior.coordinate taken (by rintro ⟨⟩)
      refine moved.withSources (fun source member => ?_) (fun source member => ?_)
      · obtain old | new := List.mem_append.mp member
        · exact prior.told source old
        · cases List.mem_singleton.mp new
          rintro _ ⟨⟩
      · obtain old | new := List.mem_append.mp member
        · exact moved.served source old
        · cases List.mem_singleton.mp new
          rintro _ ⟨⟩
  | unregistered alive taken => exact prior.coordinate taken (by rintro ⟨⟩)
  | started starting =>
      apply prior.proceed
      · rw [starting]
        decide
      · rintro ⟨⟩
      · exact prior.resting (by rw [starting]; decide)
  | listening waiting ready =>
      apply prior.proceed
      · rw [waiting]
        decide
      · exact fun _ => ready
      · exact prior.resting (by rw [waiting]; decide)
  | accepted accepting idle alive =>
      have taken : (Ingress.coordinator parser config replicaCount).step s.coordinator .accept =
          some s.coordinator.accept := by
        simp only [Ingress.coordinator, ListenerCoordinator.step, idle]
      refine ⟨prior.coordinated.step taken, ?_, ?_, prior.over', prior.told, ?_⟩
      · intro started
        exact ListenerCoordinator.ready_of_step taken (prior.gated (.inl accepting))
      · intro paused
        exact absurd accepting paused
      · intro source member socket given
        show 0 < s.coordinator.accept.accepted
        unfold ListenerCoordinator.accept
        split <;> exact Nat.succ_pos _
  | discarded accepting dead => exact prior
  | fails running idle detail => exact prior.report running idle detail
  | stops dead idle =>
      refine ⟨prior.coordinated, ?_, fun _ => idle, fun _ => rfl, prior.told, prior.served⟩
      rintro (accepting | accepted)
      · cases accepting
      · exact prior.gated (.inr accepted)
  | closes alive idle =>
      exact ⟨prior.coordinated, prior.gated, prior.resting, prior.over', prior.told, prior.served⟩
  | waits present calm => exact prior.setSource present rfl
  | learns present failed =>
      apply prior.returns present
      · intro other same
        cases same
        exact failed
      · rintro _ ⟨⟩
  | yields present waits taken =>
      have moved := prior.coordinate taken (by rintro ⟨⟩)
      apply moved.returns present
      · rintro _ ⟨⟩
      · intro socket same
        exact ListenerCoordinator.accepted_of_receive prior.coordinated taken
  | exhausts present superseded =>
      apply prior.returns present
      · rintro _ ⟨⟩
      · rintro _ ⟨⟩
  | dropsReceive present => exact prior.setSource present rfl
  | dropsSource present taken =>
      exact (prior.coordinate taken (by rintro ⟨⟩)).setSource present rfl

end Sound

theorem sound_of_reachable (reached : (sharedListener parser config replicaCount).Reachable s) :
    Sound parser config replicaCount s :=
  reached.invariant (P := Sound parser config replicaCount) (fun _ start => .initial start)
    (fun _ _ _ _ prior transition => prior.step (.of_step transition))

/-! ### After a failure -/

/-- The connections that the source at an index has returned or could still return. -/
def promised (s : SharedListener) (index : Nat) : Nat :=
  (s.sources[index]?.map ReplicaConnectionSource.promised).getD 0

/-- Replacing one source by one that promises no more. -/
theorem promised_setSource {index : Nat} {source replaced : ReplicaConnectionSource}
    (present : s.sources[index]? = some source) (fewer : replaced.promised ≤ source.promised)
    (other : Nat) : (s.setSource index replaced).promised other ≤ s.promised other := by
  unfold promised setSource
  rw [List.getElem?_set]
  by_cases same : index = other
  · cases same
    have inRange := (List.getElem?_eq_some_iff.mp present).1
    rw [if_pos rfl, if_pos inRange, present]
    exact fewer
  · rw [if_neg same]

/-- A result that is no connection. -/
theorem promised_returns {source : ReplicaConnectionSource} {result : Received}
    (other : ∀ socket, result ≠ .connection socket) :
    (source.returns result).promised ≤ source.promised := by
  have counted : (source.returns result).connections = source.connections := by
    unfold ReplicaConnectionSource.connections ReplicaConnectionSource.returns
    rw [List.countP_append]
    cases result with
    | connection socket => exact absurd rfl (other socket)
    | failed detail => rfl
    | exhausted => rfl
  unfold ReplicaConnectionSource.promised
  rw [counted]
  exact Nat.le_add_right _ _

/-- A call that waits has promised the connection it returns. -/
theorem promised_yields {source : ReplicaConnectionSource} {socket : Socket}
    (waits : source.receiving = true) :
    (source.returns (.connection socket)).promised = source.promised := by
  unfold ReplicaConnectionSource.promised ReplicaConnectionSource.connections
    ReplicaConnectionSource.returns
  rw [List.countP_append, waits]
  rfl

/-- What the failure freezes, seen from the state in which it is already there. -/
structure Frozen (detail : String) (origin s : SharedListener) : Prop where
  failed : s.failure = some detail
  accepted : s.coordinator.accepted = origin.coordinator.accepted
  history : s.coordinator.history = origin.coordinator.history
  promised : ∀ index, s.promised index ≤ origin.promised index

namespace Frozen

variable {detail : String} {origin : SharedListener}

theorem refl (failed : s.failure = some detail) : Frozen detail s s :=
  ⟨failed, rfl, rfl, fun _ => le_rfl⟩

/-- The coordinator moves and a source is replaced by one that promises no more. -/
theorem coordinate (prior : Frozen detail origin s) (sound : Sound parser config replicaCount s)
    {action : CoordinatorAction} {coordinator : ListenerCoordinator}
    (taken : s.coordinator.step config action = some coordinator) (other : action ≠ .accept) :
    Frozen detail origin { s with coordinator } := by
  have ended := sound.over' (by rw [prior.failed]; nofun)
  have idle := sound.resting (by rw [ended]; decide)
  have transition := ListenerCoordinator.CoordinatorStep.of_step taken
  exact ⟨prior.failed, (transition.accepted_eq other).trans prior.accepted,
    (transition.idle_of_idle other idle).2.trans prior.history, prior.promised⟩

theorem setSource (prior : Frozen detail origin s) {index : Nat}
    {source replaced : ReplicaConnectionSource} (present : s.sources[index]? = some source)
    (fewer : replaced.promised ≤ source.promised) :
    Frozen detail origin (s.setSource index replaced) :=
  ⟨prior.failed, prior.accepted, prior.history,
    fun other => (promised_setSource present fewer other).trans (prior.promised other)⟩

theorem step (prior : Frozen detail origin s) (sound : Sound parser config replicaCount s)
    (taken : ListenerStep config s action t) : Frozen detail origin t := by
  have ended := sound.over' (by rw [prior.failed]; nofun)
  cases taken with
  | coordinate shared taken =>
      apply prior.coordinate sound taken
      rintro rfl
      cases shared
  | registered alive taken =>
      have moved := prior.coordinate sound taken (by nofun)
      refine ⟨moved.failed, moved.accepted, moved.history, fun index => ?_⟩
      refine le_trans ?_ (prior.promised index)
      unfold SharedListener.promised
      rw [List.getElem?_append]
      split
      · exact le_rfl
      · -- the new source has returned nothing and no call of it waits
        rw [List.getElem?_singleton]
        split <;> exact Nat.zero_le _
  | unregistered alive taken => exact prior.coordinate sound taken (by nofun)
  | started starting => cases ended.symm.trans starting
  | listening waiting ready => cases ended.symm.trans waiting
  | accepted accepting idle alive => cases ended.symm.trans accepting
  | discarded accepting dead => exact prior
  | fails running idle detail => exact absurd ended running
  | stops dead idle => exact ⟨prior.failed, prior.accepted, prior.history, prior.promised⟩
  | closes alive idle => exact ⟨prior.failed, prior.accepted, prior.history, prior.promised⟩
  | waits present calm => cases calm.symm.trans prior.failed
  | learns present failed => exact prior.setSource present (promised_returns (by nofun))
  | yields present waits taken =>
      exact (prior.coordinate sound taken (by nofun)).setSource present
        (promised_yields waits).le
  | exhausts present superseded => exact prior.setSource present (promised_returns (by nofun))
  | dropsReceive present => exact prior.setSource present (Nat.le_add_right _ _)
  | dropsSource present taken =>
      exact (prior.coordinate sound taken (by nofun)).setSource present (Nat.le_add_right _ _)

theorem run {actions : List ListenerAction} (failed : s.failure = some detail)
    (reached : (sharedListener parser config replicaCount).Reachable s)
    (execution : (sharedListener parser config replicaCount).run actions s = some t) :
    Frozen detail s t := by
  have both : (sharedListener parser config replicaCount).Reachable t ∧ Frozen detail s t := by
    refine Machine.run_preserves (P := fun u =>
      (sharedListener parser config replicaCount).Reachable u ∧ Frozen detail s u) ?_
      ⟨reached, .refl failed⟩ execution
    intro u action v prior transition
    exact ⟨prior.1.step transition, prior.2.step (sound_of_reachable prior.1) (.of_step transition)⟩
  exact both.2

end Frozen

/-- A lane that holds its source learns of the failure, from its next call or the one that
waits. -/
theorem step_of_failure {detail : String} (failed : s.failure = some detail) {index : Nat}
    {source : ReplicaConnectionSource} (present : s.sources[index]? = some source)
    (held : source.held = true) :
    s.step config (if source.receiving then .wakes index else .receive index) =
      some (s.setSource index (source.returns (.failed detail))) := by
  by_cases waits : source.receiving = true
  · rw [if_pos waits]
    simp only [step, onSource, present, Option.bind_eq_bind, Option.bind_some, held, waits, failed,
      if_true]
  · rw [if_neg waits]
    simp only [step, onSource, present, Option.bind_eq_bind, Option.bind_some, held, waits, failed,
      if_true, Bool.false_eq_true, if_false]

/-- The acceptor and its lanes. The coordinator behaves as one in every state of them. Nothing
is accepted, and no lane gets a connection, before all slots hold one manifest. A lane is told
of no failure but the one that was reported, and once one was reported every lane learns of it
with its next call, while in every continuation nothing more is accepted or distributed and no
source returns more connections than the one that its waiting call may still take. -/
theorem listener_fails_closed (reached : (sharedListener parser config replicaCount).Reachable s) :
    (Ingress.coordinator parser config replicaCount).Reachable s.coordinator ∧
    (s.thread = .accepting ∨ 0 < s.coordinator.accepted ∨
        (∃ source ∈ s.sources, ∃ socket, Received.connection socket ∈ source.returned) →
      ∃ manifest, s.coordinator.state.manifests = List.replicate replicaCount (some manifest)) ∧
    (∀ source ∈ s.sources, ∀ detail, Received.failed detail ∈ source.returned →
      s.failure = some detail) ∧
    ∀ detail, s.failure = some detail →
      (∀ index source, s.sources[index]? = some source → source.held = true →
        s.step config (if source.receiving then .wakes index else .receive index) =
          some (s.setSource index (source.returns (.failed detail)))) ∧
      ∀ actions t, (sharedListener parser config replicaCount).run actions s = some t →
        t.failure = some detail ∧ t.coordinator.accepted = s.coordinator.accepted ∧
        t.coordinator.history = s.coordinator.history ∧
        ∀ index, t.promised index ≤ s.promised index := by
  have sound := sound_of_reachable reached
  refine ⟨sound.coordinated, ?_, sound.told, fun detail failed => ⟨?_, ?_⟩⟩
  · intro started
    apply ListenerCoordinator.manifests_of_ready sound.coordinated
    apply sound.gated
    obtain accepting | accepted | ⟨source, member, socket, given⟩ := started
    · exact .inl accepting
    · exact .inr accepted
    · exact .inr (sound.served source member socket given)
  · intro index source present held
    exact step_of_failure failed present held
  · intro actions t execution
    have frozen := Frozen.run failed reached execution
    exact ⟨frozen.failed, frozen.accepted, frozen.history, frozen.promised⟩

theorem sorted_orders :
    [(⟨ascii "GET", ascii "/orders", ascii "orders.list"⟩ : WebIngressRoute)].Pairwise (· ≤ ·) :=
  List.pairwise_singleton _ _

/-- Two lanes share a listener that accepts one connection and then fails. -/
def failingListener : List ListenerAction :=
  let routes : WebIngressRouteManifest :=
    ⟨[⟨ascii "GET", ascii "/orders", ascii "orders.list"⟩], sorted_orders⟩
  [.start (.ok ()), .coordinate .drawSlot, .coordinate .drawSlot, .coordinate (.allocateDrawn 0),
    .coordinate (.allocateDrawn 1), .register 0 routes ["trace:v1"], .receive 0,
    .register 1 routes ["trace:v1"], .coordinate .signalReady, .receive 1, .listen (.ok ()),
    .accept .connection, .coordinate .lock, .coordinate .trySend,
    .accept (.acceptFailed "too many open files")]

theorem listener_fails_closed_twoLanes :
    ∃ s, (sharedListener UriParser.pathOnly .default 2).Reachable s ∧
      s.failure = some "Web Ingress accept failed: too many open files" ∧
      (∃ manifest, s.coordinator.state.manifests = List.replicate 2 (some manifest)) ∧
      ∀ actions t, (sharedListener UriParser.pathOnly .default 2).run actions s = some t →
        t.coordinator.accepted = 1 ∧ ∀ index, t.promised index ≤ s.promised index := by
  have outcome : ∃ s, (sharedListener UriParser.pathOnly .default 2).Reachable s ∧
      s.failure = some "Web Ingress accept failed: too many open files" ∧
      s.coordinator.accepted = 1 :=
    ⟨_, ⟨⟨.unallocated .default 2, true, .starting, none, []⟩, failingListener,
      ⟨rfl, rfl, rfl, rfl, rfl⟩, rfl⟩, rfl, rfl⟩
  obtain ⟨s, reached, failed, accepted⟩ := outcome
  obtain ⟨-, gated, -, closed⟩ := listener_fails_closed reached
  refine ⟨s, reached, failed, gated (.inr (.inl (by omega))), fun actions t execution => ?_⟩
  obtain ⟨-, same, -, fewer⟩ := (closed _ failed).2 actions t execution
  exact ⟨same.trans accepted, fewer⟩

end SharedListener

end Ingress
