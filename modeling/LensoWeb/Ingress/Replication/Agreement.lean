import LensoWeb.Ingress.Replication.Transition

/-!
# Replica agreement at the Ready Gate

The first registration fixes the canonical manifest and later ones must equal
it, so all registered manifests are one. A registration reads readiness while it
holds the lock and raises the signal afterwards; slots never lose a manifest, so
the reading is still true when the signal is raised.
-/

namespace Ingress

open Foundation Http

namespace CoordinatorState

variable {state : CoordinatorState} {slot : Nat} {manifest : WebIngressReplicaManifest}
  {connections : ChannelId}

/-- The manifests of all slots, in slot order. -/
def manifests (state : CoordinatorState) : List (Option WebIngressReplicaManifest) :=
  state.slots.map (·.manifest)

theorem ready_iff : state.ready = true ↔ none ∉ state.manifests := by
  rw [ready, List.all_eq_true, manifests, List.mem_map]
  constructor
  · rintro complete ⟨replica, member, missing⟩
    have present := complete replica member
    rw [missing] at present
    cases present
  · intro complete replica member
    cases present : replica.manifest with
    | none => exact absurd ⟨replica, member, present⟩ complete
    | some manifest => rfl

/-- Writing one field of one slot is a write into the list of that field. -/
theorem map_modify_slot {β : Type*} (field : ReplicaSlot → β) (write : ReplicaSlot → ReplicaSlot)
    (value : β) (written : ∀ replica, field (write replica) = value)
    (slots : List ReplicaSlot) (slot : Nat) :
    (slots.modify slot write).map field = (slots.map field).set slot value := by
  induction slots generalizing slot with
  | nil => cases slot <;> rfl
  | cons replica rest ih =>
      cases slot with
      | zero => simp [written]
      | succ slot => simp [ih]

/-- The state after an accepted registration. -/
def registered (state : CoordinatorState) (slot : Nat) (manifest : WebIngressReplicaManifest)
    (connections : ChannelId) : CoordinatorState :=
  ({ state with canonicalManifest := some manifest }.publish slot manifest connections).2

@[simp] theorem registered_manifests :
    (state.registered slot manifest connections).manifests =
      state.manifests.set slot (some manifest) :=
  map_modify_slot (·.manifest) (fun replica =>
    { replica with manifest := some manifest, connections := some connections })
    (some manifest) (fun _ => rfl) state.slots slot

@[simp] theorem registered_senders :
    (state.registered slot manifest connections).senders =
      state.senders.set slot (some connections) :=
  map_modify_slot (·.connections) (fun replica =>
    { replica with manifest := some manifest, connections := some connections })
    (some connections) (fun _ => rfl) state.slots slot

@[simp] theorem registered_length :
    (state.registered slot manifest connections).slots.length = state.slots.length :=
  List.length_modify _ _ _

/-- A registration is refused without a trace, or it writes one slot. -/
theorem register_cases (state : CoordinatorState) (slot : Nat)
    (manifest : WebIngressReplicaManifest) (connections : ChannelId) :
    (∃ canonical message, state.canonicalManifest = some canonical ∧ canonical ≠ manifest ∧
      state.register slot manifest connections = (.error message, state)) ∨
    ((state.canonicalManifest = none ∨ state.canonicalManifest = some manifest) ∧
      state.register slot manifest connections =
        (.ok (state.registered slot manifest connections).ready,
          state.registered slot manifest connections)) := by
  obtain ⟨slots, canonicalManifest⟩ := state
  cases canonicalManifest with
  | none => exact .inr ⟨.inl rfl, rfl⟩
  | some canonical =>
      by_cases same : canonical = manifest
      · subst same
        exact .inr ⟨.inr rfl, if_neg fun different => different rfl⟩
      · exact .inl ⟨canonical, _, rfl, same, if_pos same⟩

/-- Allocation changes neither manifests nor senders. -/
theorem allocateReplicaAt_cases (state : CoordinatorState) (slot : Nat) :
    (∃ message, state.allocateReplicaAt slot = (.error message, state)) ∨
    (∃ after, state.allocateReplicaAt slot = (.ok (), after) ∧ slot < state.slots.length ∧
      after.slots.length = state.slots.length ∧ after.manifests = state.manifests ∧
      after.senders = state.senders ∧ after.canonicalManifest = state.canonicalManifest) := by
  cases found : state.slots[slot]? with
  | none =>
      rw [allocateReplicaAt, found]
      exact .inl ⟨_, rfl⟩
  | some replica =>
      obtain ⟨inRange, rfl⟩ := List.getElem?_eq_some_iff.mp found
      rw [allocateReplicaAt, found]
      by_cases taken : (state.slots[slot]).allocated = true
      · exact .inl ⟨_, if_pos taken⟩
      · refine .inr ⟨_, if_neg taken, inRange, List.length_set, ?_, ?_, rfl⟩
        all_goals
          simp only [manifests, senders, List.map_set]
          refine List.ext_getElem? fun index => ?_
          rw [List.getElem?_set]
          split
          · next same =>
            subst same
            simp [inRange]
          · rfl

end CoordinatorState

namespace ListenerCoordinator

variable {parser : UriParser} {config : WebIngressConfig} {replicaCount : Nat}
  {s t : ListenerCoordinator} {action : CoordinatorAction}

/-- The registration of a replica, by the outcome of its locked part. -/
theorem register_cases (config : WebIngressConfig) (s : ListenerCoordinator) (slot : Nat)
    (routes : WebIngressRouteManifest) (middleware : List String) :
    (∃ canonical message, s.state.canonicalManifest = some canonical ∧
      canonical ≠ ⟨middleware, routes⟩ ∧
      s.register config slot routes middleware = (.error message, s)) ∨
    ((s.state.canonicalManifest = none ∨
        s.state.canonicalManifest = some ⟨middleware, routes⟩) ∧
      s.register config slot routes middleware =
        (.ok s.channels.length,
          { s with
            state := s.state.registered slot ⟨middleware, routes⟩ s.channels.length
            channels :=
              s.channels ++ [Channel.create (queueCapacity config s.state.slots.length)]
            publishing := s.publishing + cond
              (s.state.registered slot ⟨middleware, routes⟩ s.channels.length).ready 1 0 })) := by
  rcases s.state.register_cases slot ⟨middleware, routes⟩ s.channels.length with
    ⟨canonical, message, fixed, different, refused⟩ | ⟨compatible, accepted⟩
  · refine .inl ⟨canonical, message, fixed, different, ?_⟩
    simp only [register, refused]
  · refine .inr ⟨compatible, ?_⟩
    simp only [register, accepted]

theorem allocateReplicaAt_cases (s : ListenerCoordinator) (slot : Nat) :
    (∃ message, s.allocateReplicaAt slot = (.error message, s)) ∨
    (∃ state, s.allocateReplicaAt slot =
        (.ok slot, { s with state, replicas := s.replicas ++ [slot] }) ∧
      slot < s.state.slots.length ∧ state.slots.length = s.state.slots.length ∧
      state.manifests = s.state.manifests ∧ state.senders = s.state.senders ∧
      state.canonicalManifest = s.state.canonicalManifest) := by
  obtain ⟨message, refused⟩ | ⟨after, taken, facts⟩ := s.state.allocateReplicaAt_cases slot
  · refine .inl ⟨message, ?_⟩
    simp only [allocateReplicaAt, refused]
  · refine .inr ⟨after, ?_, facts⟩
    simp only [allocateReplicaAt, taken]

/-- What an allocation may change. -/
theorem allocateReplicaAt_frame (s : ListenerCoordinator) (slot : Nat) :
    ∃ state replicas, (s.allocateReplicaAt slot).2 = { s with state, replicas } := by
  obtain ⟨_, refused⟩ | ⟨state, allocated, _⟩ := s.allocateReplicaAt_cases slot
  · exact ⟨s.state, s.replicas, by rw [refused]⟩
  · exact ⟨state, s.replicas ++ [slot], by rw [allocated]⟩

/-- What a registration may change before it raises the signal. -/
theorem register_frame (config : WebIngressConfig) (s : ListenerCoordinator) (slot : Nat)
    (routes : WebIngressRouteManifest) (middleware : List String) :
    ∃ state channels publishing,
      (s.register config slot routes middleware).2 = { s with state, channels, publishing } := by
  rcases s.register_cases config slot routes middleware with
    ⟨_, _, _, _, refused⟩ | ⟨_, accepted⟩
  · exact ⟨s.state, s.channels, s.publishing, by rw [refused]⟩
  · exact ⟨_, _, _, by rw [accepted]⟩

/-- What all interleavings of allocations and registrations keep. -/
structure Agreement (replicaCount : Nat) (s : ListenerCoordinator) : Prop where
  slotCount : s.state.slots.length = replicaCount
  canonical : ∀ manifest, some manifest ∈ s.state.manifests →
    s.state.canonicalManifest = some manifest
  complete : s.ready = true ∨ s.publishing ≠ 0 → none ∉ s.state.manifests
  handles : ∀ slot ∈ s.replicas, slot < replicaCount

namespace Agreement

/-- Only the lock-protected state, the signal and the handles matter. -/
theorem transfer (prior : Agreement replicaCount s)
    (slots : t.state.slots.length = s.state.slots.length)
    (manifests : t.state.manifests = s.state.manifests)
    (fixed : t.state.canonicalManifest = s.state.canonicalManifest)
    (ready : t.ready = s.ready) (publishing : t.publishing = s.publishing)
    (handles : t.replicas = s.replicas) : Agreement replicaCount t where
  slotCount := slots.trans prior.slotCount
  canonical := by
    rw [manifests, fixed]
    exact prior.canonical
  complete := by
    rw [ready, publishing, manifests]
    exact prior.complete
  handles := by
    rw [handles]
    exact prior.handles

theorem allocateReplicaAt (prior : Agreement replicaCount s) (slot : Nat) :
    Agreement replicaCount (s.allocateReplicaAt slot).2 := by
  rcases s.allocateReplicaAt_cases slot with
    ⟨message, refused⟩ | ⟨state, taken, inRange, slots, manifests, -, fixed⟩
  · rw [refused]
    exact prior
  · rw [taken]
    refine ⟨slots.trans prior.slotCount, ?_, ?_, ?_⟩
    · rw [manifests, fixed]
      exact prior.canonical
    · rw [manifests]
      exact prior.complete
    · intro handle member
      obtain old | new := List.mem_append.mp member
      · exact prior.handles handle old
      · rw [List.mem_singleton.mp new]
        exact prior.slotCount ▸ inRange

theorem register (prior : Agreement replicaCount s) (slot : Nat)
    (routes : WebIngressRouteManifest) (middleware : List String) :
    Agreement replicaCount (s.register config slot routes middleware).2 := by
  rcases s.register_cases config slot routes middleware with
    ⟨_, _, _, _, refused⟩ | ⟨compatible, accepted⟩
  · rw [refused]
    exact prior
  · rw [accepted]
    refine ⟨CoordinatorState.registered_length.trans prior.slotCount, ?_, ?_, prior.handles⟩
    · intro manifest member
      rw [CoordinatorState.registered_manifests] at member
      obtain old | new := List.mem_or_eq_of_mem_set member
      · obtain unset | same := compatible
        · rw [prior.canonical manifest old] at unset
          cases unset
        · exact same.symm.trans (prior.canonical manifest old)
      · exact new.symm
    · -- a registration that finds all slots filled is the only one that adds to `publishing`
      rintro signalled
      by_cases ready : (s.state.registered slot ⟨middleware, routes⟩ s.channels.length).ready = true
      · exact CoordinatorState.ready_iff.mp ready
      · have before : s.ready = true ∨ s.publishing ≠ 0 := by
          rw [Bool.not_eq_true] at ready
          simpa only [ready, cond_false, Nat.add_zero] using signalled
        rw [CoordinatorState.registered_manifests]
        intro missing
        obtain old | new := List.mem_or_eq_of_mem_set missing
        · exact prior.complete before old
        · cases new

theorem step (prior : Agreement replicaCount s) (taken : CoordinatorStep config s action t) :
    Agreement replicaCount t := by
  cases taken with
  | allocateDrawn drawn free =>
      exact (prior.allocateReplicaAt _).transfer rfl rfl rfl rfl rfl rfl
  | allocateReplicaAt free => exact prior.allocateReplicaAt _
  | register handle free => exact prior.register _ _ _
  | signalReady pending =>
      exact ⟨prior.slotCount, prior.canonical, fun _ => prior.complete (.inr pending),
        prior.handles⟩
  | _ => exact prior.transfer rfl rfl rfl rfl rfl rfl

theorem bind (bound : ListenerCoordinator.bind parser config replicaCount = .ok s) :
    Agreement replicaCount s := by
  obtain ⟨-, -, rfl⟩ := of_bind bound
  refine ⟨List.length_replicate, ?_, ?_, ?_⟩
  · intro manifest member
    simp [unallocated, CoordinatorState.manifests] at member
  · rintro (ready | publishing)
    · cases ready
    · exact absurd rfl publishing
  · intro slot member
    cases member

end Agreement

/-- Agreement in every reachable state. -/
theorem agreement_of_reachable (reached : (coordinator parser config replicaCount).Reachable s) :
    Agreement replicaCount s :=
  reached.invariant (P := Agreement replicaCount) (fun _ bound => .bind bound)
    (fun _ _ _ _ prior transition => prior.step (.of_step transition))

/-- The ready signal is never taken back. -/
theorem ready_of_run {actions : List CoordinatorAction}
    (execution : (coordinator parser config replicaCount).run actions s = some t)
    (ready : s.ready = true) : t.ready = true := by
  refine Machine.run_preserves (P := fun s => s.ready = true) ?_ ready execution
  intro u action v signalled transition
  cases CoordinatorStep.of_step transition with
  | allocateDrawn drawn free =>
      obtain ⟨state, replicas, same⟩ := u.allocateReplicaAt_frame _
      rw [same]
      exact signalled
  | allocateReplicaAt free =>
      obtain ⟨state, replicas, same⟩ := u.allocateReplicaAt_frame _
      rw [same]
      exact signalled
  | register handle free =>
      obtain ⟨state, channels, publishing, same⟩ := u.register_frame config _ _ _
      rw [same]
      exact signalled
  | signalReady pending => rfl
  | _ => exact signalled

/-- A handle's registration writes its own slot. -/
theorem Agreement.registered_slot (agreed : Agreement replicaCount s) {slot : Nat}
    (handle : slot ∈ s.replicas) {routes : WebIngressRouteManifest} {middleware : List String}
    {source : ChannelId}
    (accepted : (s.register config slot routes middleware).1 = .ok source) :
    (s.register config slot routes middleware).2.state.manifests[slot]? =
      some (some ⟨middleware, routes⟩) := by
  rcases s.register_cases config slot routes middleware with
    ⟨_, _, _, _, refused⟩ | ⟨_, written⟩
  · rw [refused] at accepted
    cases accepted
  · rw [written, CoordinatorState.registered_manifests, List.getElem?_set_self]
    rw [CoordinatorState.manifests, List.length_map, agreed.slotCount]
    exact agreed.handles slot handle

/-- Registration compares routes as multisets and middleware as a list. -/
theorem register_isOk_iff (config : WebIngressConfig) (s : ListenerCoordinator) (slot : Nat)
    (declared : List WebIngressRoute) (middleware : List String) :
    (∃ source, (s.register config slot (.new declared) middleware).1 = .ok source) ↔
      s.state.canonicalManifest = none ∨
      ∃ canonical, s.state.canonicalManifest = some canonical ∧
        declared.Perm canonical.routes.routes ∧ middleware = canonical.middleware := by
  rcases s.register_cases config slot (.new declared) middleware with
    ⟨canonical, message, fixed, different, refused⟩ | ⟨compatible, accepted⟩
  · rw [refused]
    constructor
    · rintro ⟨source, same⟩
      cases same
    · rintro (unset | ⟨canonical', fixed', permuted, rfl⟩)
      · rw [fixed] at unset
        cases unset
      · cases fixed.symm.trans fixed'
        have routes := WebIngressRouteManifest.new_eq_new_iff.mpr permuted
        rw [WebIngressRouteManifest.new_routes] at routes
        exact absurd (by rw [routes]) different
  · rw [accepted]
    constructor
    · rintro -
      obtain unset | same := compatible
      · exact .inl unset
      · exact .inr ⟨_, same, (WebIngressRouteManifest.routes_new_perm declared).symm, rfl⟩
    · rintro -
      exact ⟨_, rfl⟩

/-- A refused registration changes nothing. -/
theorem register_of_error {slot : Nat} {routes : WebIngressRouteManifest}
    {middleware : List String} {message : String}
    (refused : (s.register config slot routes middleware).1 = .error message) :
    (s.register config slot routes middleware).2 = s := by
  obtain ⟨_, _, _, _, same⟩ | ⟨_, accepted⟩ := s.register_cases config slot routes middleware
  · rw [same]
  · rw [accepted] at refused
    cases refused

/-- The Ready Gate. In every reachable state registered manifests are the
canonical one, the signal means that all slots hold it and stays raised, and a
registration succeeds exactly for an equivalent replica, or changes nothing. -/
theorem replicas_agree (reached : (coordinator parser config replicaCount).Reachable s) :
    (∀ replica ∈ s.state.slots, ∀ manifest, replica.manifest = some manifest →
      s.state.canonicalManifest = some manifest) ∧
    (s.ready = true → s.state.slots.length = replicaCount ∧
      ∃ manifest, ∀ replica ∈ s.state.slots, replica.manifest = some manifest) ∧
    (∀ actions t, (coordinator parser config replicaCount).run actions s = some t →
      s.ready = true → t.ready = true) ∧
    (∀ slot ∈ s.replicas, ∀ declared middleware,
      ((∃ source, (s.register config slot (.new declared) middleware).1 = .ok source) ↔
        s.state.canonicalManifest = none ∨
        ∃ canonical, s.state.canonicalManifest = some canonical ∧
          declared.Perm canonical.routes.routes ∧ middleware = canonical.middleware) ∧
      (∀ source, (s.register config slot (.new declared) middleware).1 = .ok source →
        (s.register config slot (.new declared) middleware).2.state.manifests[slot]? =
          some (some ⟨middleware, .new declared⟩)) ∧
      (∀ message, (s.register config slot (.new declared) middleware).1 = .error message →
        (s.register config slot (.new declared) middleware).2 = s)) := by
  have agreed := agreement_of_reachable reached
  refine ⟨?_, ?_, fun _ _ execution => ready_of_run execution, ?_⟩
  · intro replica member manifest registered
    exact agreed.canonical manifest (List.mem_map.mpr ⟨replica, member, registered⟩)
  · intro ready
    refine ⟨agreed.slotCount, ?_⟩
    have complete := agreed.complete (.inl ready)
    have held : ∀ replica ∈ s.state.slots, ∃ manifest, replica.manifest = some manifest := by
      intro replica member
      refine Option.ne_none_iff_exists'.mp fun missing => complete ?_
      exact List.mem_map.mpr ⟨replica, member, missing⟩
    cases fixed : s.state.canonicalManifest with
    | none =>
        -- without a canonical manifest no slot can hold one, so there are no slots at all
        refine ⟨⟨[], .new []⟩, fun replica member => ?_⟩
        obtain ⟨manifest, registered⟩ := held replica member
        have canonical := agreed.canonical manifest
          (List.mem_map.mpr ⟨replica, member, registered⟩)
        rw [fixed] at canonical
        cases canonical
    | some canonical =>
        refine ⟨canonical, fun replica member => ?_⟩
        obtain ⟨manifest, registered⟩ := held replica member
        rw [registered, ← fixed]
        exact (agreed.canonical manifest
          (List.mem_map.mpr ⟨replica, member, registered⟩)).symm
  · intro slot handle declared middleware
    exact ⟨register_isOk_iff config s slot declared middleware,
      fun _ accepted => agreed.registered_slot handle accepted,
      fun _ refused => register_of_error refused⟩

/-- Two lanes that register the same route, one of them twice. -/
def twoLanes : List CoordinatorAction :=
  let routes : WebIngressRouteManifest :=
    ⟨[⟨ascii "GET", ascii "/orders", ascii "orders.list"⟩], List.pairwise_singleton _ _⟩
  [.drawSlot, .allocateReplicaAt 1, .allocateDrawn 0, .register 1 routes ["trace:v1"],
    .register 0 routes ["trace:v1"], .register 0 routes ["trace:v1"], .signalReady]

theorem replicas_agree_twoLanes :
    ∃ s, (coordinator UriParser.pathOnly .default 2).Reachable s ∧ s.ready = true ∧
      ∃ manifest, ∀ replica ∈ s.state.slots, replica.manifest = some manifest := by
  have outcome : ∃ s, (coordinator UriParser.pathOnly .default 2).Reachable s ∧ s.ready = true :=
    ⟨_, ⟨_, twoLanes, rfl, rfl⟩, rfl⟩
  obtain ⟨s, reached, ready⟩ := outcome
  exact ⟨s, reached, ready, ((replicas_agree reached).2.1 ready).2⟩

end ListenerCoordinator

end Ingress
