import LensoWeb.Host.Plan
import LensoWeb.Ingress.Replication.Allocation

/-!
# Starting a replicated Web Host

`start_replicated` resolves the plan once to learn its Execution Lanes, gives every lane but
the main one an Ingress instance of its own, resolves the plan again, and binds one listener
with a slot for every lane. The runner then builds each lane on its own thread; the builder
of a lane asks the listener for the slot of its position in the second plan.

The guards, both resolutions, the listener and the lane builder are modelled up to the
runner, which is not part of the repository. The results of the serializer, of the operating
system and of the builders that the Host's author supplies are given to the model.
-/

namespace Host

open Foundation Kernel Http Ingress

/-- The errors of `WebHostError` that a replicated start ends with before the runner starts. -/
inductive ReplicatedStartError where
  | host (error : WebHostError)
  | bind (detail : String)
  | replicationUnsupported (detail : String)
deriving DecidableEq

/-- What the start uses of the plan library, the registry of linked plugins and the
serializer. A resolved plan has the lanes of the catalog it was resolved from. -/
structure PlanLibrary (roots : PluginRoots) where
  Plan : Type
  Address : Type
  linked : Except RuntimeFailure (List HostPluginRelease)
  toValue : Address → WebIngressConfig → Except String Json
  resolvePluginRoot : HostCatalog → roots.PluginRootSnapshot → Except String Plan
  executionLanes : Plan → List Str
  debugFailure : RuntimeFailure → String
  executionLanes_resolved : ∀ catalog root plan,
    resolvePluginRoot catalog root = .ok plan → executionLanes plan = catalog.executionLanes

/-- What `start_replicated` reads of `NativeWebHost`. The listener address of the Ingress
configuration is kept beside it, middleware is known by its identity. -/
structure ReplicatedHost (roots : PluginRoots) (library : PlanLibrary roots)
    extends NativeWebHost roots where
  bindAddress : Option library.Address
  ingressConfig : WebIngressConfig
  ingressAddress : library.Address
  extraDefaults : List HostDefaultPlugin
  extraBindings : List HostBinding
  extraReleases : List HostPluginRelease
  middleware : List String
  diagnostics : Bool
  extraAdapters : List String
  replicatedLane : Str → Except String Unit

/-- The lane that every plan has. -/
def mainLane : Str := lit "main"

/-- The Ingress instance of a lane. -/
def replicaId (lane : Str) : PluginInstanceId := ⟨ingressPackageId, lit "replica-" ++ lane⟩

/-- What is pushed for a lane. -/
def replicaPush (configuration : Json) (lane : Str) : Push :=
  ⟨replicaId lane, configuration, some lane⟩

/-- The loop over the lanes of the initial plan. -/
def replicaPushes (configuration : Json) (lanes : List Str) : List Push :=
  (lanes.filter (· ≠ mainLane)).map (replicaPush configuration)

/-- The positions of the lanes in the plan. -/
def laneIndexes (lanes : List Str) : List (Str × Nat) := Assoc.insertAll [] lanes.zipIdx

namespace ReplicatedHost

variable {roots : PluginRoots} {library : PlanLibrary roots}

/-- The address to listen on. Only one that the Host names is checked here, with the rest of
the configuration. -/
def address (host : ReplicatedHost roots library) (parser : UriParser) :
    Except ReplicatedStartError library.Address :=
  match host.bindAddress with
  | some address => do
      (host.ingressConfig.validate parser).mapError .bind
      return address
  | none => .ok host.ingressAddress

/-- `resolve_replicated_plan`. -/
def resolveReplicatedPlan (host : ReplicatedHost roots library) (parser : UriParser) :
    Except ReplicatedStartError library.Plan := do
  let address ← host.address parser
  let extraReleases := host.factoryInstallers.map (fun installer =>
    HostPluginRelease.mk installer.descriptor) ++ host.extraReleases
  (resolveWebPlan roots library.resolvePluginRoot library.linked (library.toValue address)
    host.ingressConfig host.root host.extraDefaults host.extraBindings extraReleases
    true).mapError .host

/-- `push_instance` for every lane but the main one. -/
def withReplicas (host : ReplicatedHost roots library) (configuration : Json)
    (lanes : List Str) : ReplicatedHost roots library :=
  { host with
    root := (replicaPushes configuration lanes).foldl roots.pushInstance host.root }

end ReplicatedHost

/-- What the runner is given: the plan, and what the lane builder has captured. -/
structure ReplicatedStart (roots : PluginRoots) (library : PlanLibrary roots) where
  root : roots.PluginRootSnapshot
  plan : library.Plan
  laneIndexes : List (Str × Nat)
  coordinator : ListenerCoordinator
  replicatedLane : Str → Except String Unit

variable {roots : PluginRoots} {library : PlanLibrary roots}

/-- `NativeWebHost::start_replicated` up to the runner. `listening` is what the operating
system makes of the listener. -/
def ReplicatedHost.startReplicated (host : ReplicatedHost roots library) (parser : UriParser)
    (listening : Except String Unit) :
    Except ReplicatedStartError (ReplicatedStart roots library) := do
  if !host.factoryInstallers.isEmpty then
    .error (.replicationUnsupported
      "hand-written factories from factory() are single-lane; install one per lane with with_replicated_lane")
  else if !host.middleware.isEmpty || host.diagnostics then
    .error (.replicationUnsupported
      "Ingress middleware and diagnostics require with_replicated_ingress")
  else if !host.extraAdapters.isEmpty then
    .error (.replicationUnsupported "Execution Adapters require with_replicated_lane")
  else
    let initialPlan ← host.resolveReplicatedPlan parser
    let address ← host.address parser
    let configuration ← (library.toValue address host.ingressConfig).mapError fun error =>
      ReplicatedStartError.host (.plan error)
    let host := host.withReplicas configuration (library.executionLanes initialPlan)
    let plan ← host.resolveReplicatedPlan parser
    let laneIndexes := laneIndexes (library.executionLanes plan)
    let coordinator ← (ListenerCoordinator.bind parser host.ingressConfig
      laneIndexes.length).mapError fun message =>
        ReplicatedStartError.host (.runtime (pluginFailure message))
    listening.mapError fun message => ReplicatedStartError.host (.runtime (pluginFailure message))
    return ⟨host.root, plan, laneIndexes, coordinator, host.replicatedLane⟩

/-- The lane builder. The slot that it was given stays taken when the author's builder then
refuses the lane. -/
def ReplicatedStart.buildLane (start : ReplicatedStart roots library) (lane : Str)
    (s : ListenerCoordinator) : Except String Nat × ListenerCoordinator :=
  match Assoc.find lane start.laneIndexes with
  | none =>
      (.error ("replicated Web Host received an undeclared Execution Lane `" ++
        String.ofList lane ++ "`"), s)
  | some replicaIndex =>
      match s.allocateReplicaAt replicaIndex with
      | (.error message, after) =>
          (.error ("could not allocate Web Ingress replica: " ++
            library.debugFailure (pluginFailure message)), after)
      | (.ok slot, after) => ((start.replicatedLane lane).map fun () => slot, after)

/-! ### The lanes of a root -/

/-- The lanes are the main one and what the instances name, each once. -/
theorem executionLanes_eq (root : roots.PluginRootSnapshot) :
    executionLanes roots root = (Assoc.insertAll [(mainLane, ())]
      (((roots.instances root).filterMap roots.executionLane).map fun lane => (lane, ()))).map
        Prod.fst := by
  rw [executionLanes, Assoc.insertAll, Assoc.setAll, List.foldl_map]
  rfl

theorem sorted_executionLanes (root : roots.PluginRootSnapshot) :
    (executionLanes roots root).Pairwise (· < ·) := by
  have single : Assoc.Sorted [(mainLane, ())] := List.pairwise_singleton _ _
  rw [executionLanes_eq]
  exact single.insertAll _

theorem mem_executionLanes {root : roots.PluginRootSnapshot} {lane : Str} :
    lane ∈ executionLanes roots root ↔
      lane = mainLane ∨ ∃ one ∈ roots.instances root, roots.executionLane one = some lane := by
  rw [executionLanes_eq, Assoc.mem_keys_insertAll, List.map_map]
  have same : Prod.fst ∘ (fun lane : Str => (lane, ())) = id := rfl
  rw [same, List.map_id, List.mem_filterMap, List.map_singleton, List.mem_singleton, or_comm]

/-- In a root with unique ids an instance is found by its id. -/
theorem PluginRoots.find_of_mem {all : List roots.PluginRootInstance}
    (unique : (all.map roots.id).Nodup) {one : roots.PluginRootInstance} (member : one ∈ all) :
    roots.find (roots.id one) all = some one := by
  induction all with
  | nil => cases member
  | cons first rest ih =>
      rw [List.map_cons, List.nodup_cons] at unique
      obtain rfl | later := List.mem_cons.mp member
      · exact List.find?_cons_of_pos (by simp)
      · have apart : roots.id first ≠ roots.id one := by
          intro same
          exact unique.1 (same ▸ List.mem_map_of_mem later)
        rw [PluginRoots.find, List.find?_cons_of_neg (by simpa using apart)]
        exact ih unique.2 later

theorem mem_executionLanes_iff_find {root : roots.PluginRootSnapshot}
    (unique : (roots.ids root).Nodup) {lane : Str} :
    lane ∈ executionLanes roots root ↔ lane = mainLane ∨
      ∃ key, (roots.find key (roots.instances root)).bind roots.executionLane = some lane := by
  rw [mem_executionLanes]
  refine or_congr_right ⟨?_, ?_⟩
  · rintro ⟨one, member, named⟩
    refine ⟨roots.id one, ?_⟩
    rw [PluginRoots.find_of_mem unique member, Option.bind_some, named]
  · rintro ⟨key, found⟩
    obtain ⟨one, held, named⟩ := Option.bind_eq_some_iff.mp found
    exact ⟨one, List.mem_of_find?_eq_some held, named⟩

/-! ### The pushed replicas -/

theorem replicaId_injective {lane other : Str} (same : replicaId lane = replicaId other) :
    lane = other := by
  rw [replicaId, replicaId, PluginInstanceId.mk.injEq] at same
  exact List.append_cancel_left same.2

variable {configuration : Json} {lanes : List Str} {lane : Str}

theorem mem_replicaPushes {push : Push} :
    push ∈ replicaPushes configuration lanes ↔
      ∃ lane ∈ lanes, lane ≠ mainLane ∧ push = replicaPush configuration lane := by
  rw [replicaPushes, List.mem_map]
  constructor
  · rintro ⟨lane, member, rfl⟩
    obtain ⟨declared, other⟩ := List.mem_filter.mp member
    exact ⟨lane, declared, by simpa using other, rfl⟩
  · rintro ⟨lane, declared, other, rfl⟩
    exact ⟨lane, List.mem_filter.mpr ⟨declared, by simpa using other⟩, rfl⟩

theorem mem_ids_replicaPushes {key : PluginInstanceId} :
    key ∈ (replicaPushes configuration lanes).map Push.id ↔
      ∃ lane ∈ lanes, lane ≠ mainLane ∧ key = replicaId lane := by
  rw [List.mem_map]
  constructor
  · rintro ⟨push, member, rfl⟩
    obtain ⟨lane, declared, other, rfl⟩ := mem_replicaPushes.mp member
    exact ⟨lane, declared, other, rfl⟩
  · rintro ⟨lane, declared, other, rfl⟩
    exact ⟨_, mem_replicaPushes.mpr ⟨lane, declared, other, rfl⟩, rfl⟩

/-- Every push of a replica's id is the replica's. -/
theorem push_of_id {push : Push} (member : push ∈ replicaPushes configuration lanes)
    (named : push.id = replicaId lane) : push = replicaPush configuration lane := by
  obtain ⟨other, -, -, rfl⟩ := mem_replicaPushes.mp member
  rw [replicaId_injective named]

theorem lastPush_replica (declared : lane ∈ lanes) (other : lane ≠ mainLane) :
    PluginRoots.lastPush (replicaId lane) (replicaPushes configuration lanes) =
      some (replicaPush configuration lane) := by
  cases found : PluginRoots.lastPush (replicaId lane) (replicaPushes configuration lanes) with
  | none =>
      have absent := (PluginRoots.lastPush_eq_none found).1
      exact absurd (mem_ids_replicaPushes.mpr ⟨lane, declared, other, rfl⟩) absent
  | some push =>
      have member := List.mem_filter.mp (List.mem_of_getLast? found)
      rw [push_of_id member.1 (by simpa using member.2)]

/-- A push names the lane of its id. -/
theorem lane_of_lastLane {key : PluginInstanceId}
    (named : PluginRoots.lastLane key (replicaPushes configuration lanes) = some lane) :
    lane ∈ lanes ∧ lane ≠ mainLane ∧ key = replicaId lane := by
  obtain ⟨push, member, named⟩ := List.mem_filterMap.mp (List.mem_of_getLast? named)
  obtain ⟨pushed, same⟩ := List.mem_filter.mp member
  obtain ⟨found, declared, other, rfl⟩ := mem_replicaPushes.mp pushed
  obtain rfl : found = lane := Option.some.inj named
  exact ⟨declared, other, (of_decide_eq_true same).symm⟩

theorem lastLane_replica (declared : lane ∈ lanes) (other : lane ≠ mainLane) :
    PluginRoots.lastLane (replicaId lane) (replicaPushes configuration lanes) = some lane := by
  cases found : PluginRoots.lastLane (replicaId lane) (replicaPushes configuration lanes) with
  | none =>
      -- the replica's own push names a lane
      have pushed : replicaPush configuration lane ∈ replicaPushes configuration lanes :=
        mem_replicaPushes.mpr ⟨lane, declared, other, rfl⟩
      rw [PluginRoots.lastLane, List.getLast?_eq_none_iff, List.filterMap_eq_nil_iff] at found
      have unnamed := found _ (List.mem_filter.mpr ⟨pushed, decide_eq_true rfl⟩)
      cases unnamed
  | some named => rw [replicaId_injective (lane_of_lastLane found).2.2]

/-- The replicas of the lanes of a root name no new lane and leave none without instances. -/
theorem executionLanes_withReplicas {root final : roots.PluginRootSnapshot}
    (unique : (roots.ids root).Nodup)
    (authored : PluginRoots.Authored roots root
      (replicaPushes configuration (executionLanes roots root)) final) :
    executionLanes roots final = executionLanes roots root := by
  have same : ∀ lane, lane ∈ executionLanes roots final ↔ lane ∈ executionLanes roots root := by
    intro lane
    rw [mem_executionLanes_iff_find authored.unique]
    constructor
    · rintro (rfl | ⟨key, found⟩)
      · exact mem_executionLanes.mpr (.inl rfl)
      · rw [authored.lane, Option.or_eq_some_iff] at found
        obtain replica | ⟨-, before⟩ := found
        · exact (lane_of_lastLane replica).1
        · exact (mem_executionLanes_iff_find unique).mpr (.inr ⟨key, before⟩)
    · intro declared
      by_cases main : lane = mainLane
      · exact .inl main
      · refine .inr ⟨replicaId lane, ?_⟩
        rw [authored.lane, lastLane_replica declared main, Option.some_or]
  have perm : (executionLanes roots final).Perm (executionLanes roots root) :=
    (List.perm_ext_iff_of_nodup (sorted_executionLanes final).nodup
      (sorted_executionLanes root).nodup).mpr same
  exact perm.eq_of_pairwise (fun _ _ _ _ below above => absurd below (lt_asymm above))
    (sorted_executionLanes final) (sorted_executionLanes root)

/-! ### Resolution -/

/-- A resolved plan has the lanes of the root. -/
theorem executionLanes_of_resolved {host : ReplicatedHost roots library} {parser : UriParser}
    {plan : library.Plan} (resolved : host.resolveReplicatedPlan parser = .ok plan) :
    library.executionLanes plan = executionLanes roots host.root := by
  obtain ⟨address, -, resolved⟩ := Result.bind_eq_ok.mp resolved
  have planned := Result.mapError_eq_ok.mp resolved
  obtain ⟨catalog, made, planned⟩ := Result.bind_eq_ok.mp planned
  rw [library.executionLanes_resolved catalog host.root plan (Result.mapError_eq_ok.mp planned)]
  unfold webCatalog at made
  obtain ⟨discovered, -, made⟩ := Result.bind_eq_ok.mp made
  obtain ⟨written, -, made⟩ := Result.bind_eq_ok.mp made
  simp only [] at made
  split at made
  · cases made
  · cases made
    rfl

/-! ### Lane indexes -/

theorem find_laneIndexes {lanes : List Str} (distinct : lanes.Nodup) {lane : Str} {index : Nat} :
    Assoc.find lane (laneIndexes lanes) = some index ↔ lanes[index]? = some lane := by
  have keys : lanes.zipIdx.map Prod.fst = lanes := List.zipIdx_map_fst 0 lanes
  rw [laneIndexes, Assoc.find_insertAll (by rw [keys]; exact distinct), Assoc.find_nil,
    Option.or_none]
  constructor
  · intro found
    exact List.mem_zipIdx_iff_getElem?.mp (Assoc.mem_of_find found)
  · intro placed
    exact Assoc.find_of_mem (by rw [keys]; exact distinct)
      (List.mem_zipIdx_iff_getElem?.mpr placed)

theorem length_laneIndexes {lanes : List Str} (distinct : lanes.Nodup) :
    (laneIndexes lanes).length = lanes.length := by
  have sorted : Assoc.Sorted (laneIndexes lanes) := Assoc.sorted_nil.insertAll _
  have keys : ((laneIndexes lanes).map Prod.fst).Perm lanes := by
    refine (List.perm_ext_iff_of_nodup sorted.nodup distinct).mpr fun lane => ?_
    rw [laneIndexes, Assoc.mem_keys_insertAll, List.zipIdx_map_fst]
    simp
  rw [← keys.length_eq, List.length_map]

/-! ### The start -/

/-- How a start lays out the lanes of the root: the plan has them, all but the main one have
an Ingress instance with the configuration of the listener, the root is in every other respect
as the pushes of these instances leave it, and the listener has a slot for each lane. -/
structure LaidOut (host : ReplicatedHost roots library) (parser : UriParser)
    (start : ReplicatedStart roots library) : Prop where
  lanes : library.executionLanes start.plan = executionLanes roots host.root
  indexes : start.laneIndexes = laneIndexes (executionLanes roots host.root)
  replicas : ∃ address configuration, host.address parser = .ok address ∧
    library.toValue address host.ingressConfig = .ok configuration ∧
    (∀ lane ∈ executionLanes roots host.root, lane ≠ mainLane →
      ∃ one, roots.find (replicaId lane) (roots.instances start.root) = some one ∧
        roots.configuration one = configuration ∧ roots.executionLane one = some lane) ∧
    PluginRoots.Authored roots host.root
      (replicaPushes configuration (executionLanes roots host.root)) start.root
  others : ∀ key, (∀ lane ∈ executionLanes roots host.root, lane ≠ mainLane →
      key ≠ replicaId lane) →
    roots.find key (roots.instances start.root) = roots.find key (roots.instances host.root)
  listener : (coordinator parser host.ingressConfig
    (executionLanes roots host.root).length).initial start.coordinator
  builder : start.replicatedLane = host.replicatedLane

theorem startReplicated_laidOut {host : ReplicatedHost roots library} {parser : UriParser}
    {listening : Except String Unit} {start : ReplicatedStart roots library}
    (unique : (roots.ids host.root).Nodup)
    (started : host.startReplicated parser listening = .ok start) : LaidOut host parser start := by
  unfold ReplicatedHost.startReplicated at started
  split at started
  · cases started
  split at started
  · cases started
  split at started
  · cases started
  obtain ⟨initialPlan, first, started⟩ := Result.bind_eq_ok.mp started
  obtain ⟨address, named, started⟩ := Result.bind_eq_ok.mp started
  obtain ⟨configuration, written, started⟩ := Result.bind_eq_ok.mp started
  obtain ⟨plan, second, started⟩ := Result.bind_eq_ok.mp started
  obtain ⟨listener, bound, started⟩ := Result.bind_eq_ok.mp started
  obtain ⟨-, -, started⟩ := Result.bind_eq_ok.mp started
  cases started
  -- both plans have the lanes of the root that the author has written
  have authored := PluginRoots.authored_foldl (PluginRoots.authored_nil unique)
    (replicaPushes configuration (executionLanes roots host.root))
  have before := executionLanes_of_resolved first
  have after : library.executionLanes plan = executionLanes roots host.root := by
    rw [executionLanes_of_resolved second, ReplicatedHost.withReplicas, before]
    exact executionLanes_withReplicas unique authored
  have distinct := (sorted_executionLanes host.root).nodup
  constructor
  · exact after
  · rw [after]
  · rw [ReplicatedHost.withReplicas, before]
    refine ⟨address, configuration, named, Result.mapError_eq_ok.mp written, ?_, authored⟩
    intro lane declared other
    have pushed : PluginRoots.lastPush (replicaId lane)
        (replicaPushes configuration (executionLanes roots host.root)) =
          some (replicaPush configuration lane) := lastPush_replica declared other
    obtain ⟨one, held, same, onLane⟩ := authored.pushed _ _ pushed
    rw [List.nil_append, lastLane_replica declared other, Option.some_or] at onLane
    exact ⟨one, held, same, onLane⟩
  · intro key foreign
    rw [ReplicatedHost.withReplicas, before]
    refine authored.kept key fun pushed => ?_
    obtain ⟨lane, declared, other, same⟩ := mem_ids_replicaPushes.mp pushed
    exact foreign lane declared other same
  · rw [after, length_laneIndexes distinct] at bound
    exact Result.mapError_eq_ok.mp bound
  · rfl

/-! ### Building the lanes -/

/-- What happens on a started Host: the build of a lane is attempted, or a lane that has
been built, the acceptor or a connection goes on. -/
inductive ReplicatedAction where
  | build (lane : Str)
  | serve (action : CoordinatorAction)
deriving DecidableEq

/-- The lane whose build an action attempts. -/
def ReplicatedAction.built : ReplicatedAction → Option Str
  | build lane => some lane
  | serve _ => none

/-- The lanes whose build a run attempts, in order. -/
def builds (actions : List ReplicatedAction) : List Str := actions.filterMap (·.built)

/-- The runner builds lanes in any order, while lanes that are ready already serve. Only the
lane builder allocates. -/
def ReplicatedStart.machine (start : ReplicatedStart roots library) (config : WebIngressConfig) :
    Machine ListenerCoordinator ReplicatedAction where
  initial s := s = start.coordinator
  step s
    | .build lane => if s.acceptor.locked then none else some (start.buildLane lane s).2
    | .serve action => if action.allocates then none else ListenerCoordinator.step config s action

/-- The slots that a run asks for. -/
def ReplicatedStart.claims (start : ReplicatedStart roots library)
    (actions : List ReplicatedAction) : List Nat :=
  (builds actions).filterMap fun lane => Assoc.find lane start.laneIndexes

variable {start : ReplicatedStart roots library} {parser : UriParser} {config : WebIngressConfig}
  {s t : ListenerCoordinator}

theorem buildLane_of_none (absent : Assoc.find lane start.laneIndexes = none) :
    ∃ message, start.buildLane lane s = (.error message, s) := by
  rw [ReplicatedStart.buildLane, absent]
  exact ⟨_, rfl⟩

/-- Building a declared lane asks for its slot, whatever comes of it. -/
theorem buildLane_snd {index : Nat} (declared : Assoc.find lane start.laneIndexes = some index) :
    (start.buildLane lane s).2 = (s.allocateReplicaAt index).2 := by
  rw [ReplicatedStart.buildLane, declared]
  cases asked : s.allocateReplicaAt index with
  | mk outcome after =>
      cases outcome with
      | error message => simp only [asked]
      | ok slot => simp only [asked]

theorem asks_serve {action : CoordinatorAction} (other : action.allocates = false) :
    asks [action] = [] := by
  cases action with
  | drawSlot => cases other
  | allocateDrawn slot => cases other
  | allocateReplicaAt slot => cases other
  | _ => rfl

theorem asks_cons (action : CoordinatorAction) (rest : List CoordinatorAction) :
    asks (action :: rest) = asks [action] ++ asks rest := by
  rw [asks, asks, asks, ← List.filterMap_append, List.singleton_append]

theorem claims_cons (start : ReplicatedStart roots library) (action : ReplicatedAction)
    (rest : List ReplicatedAction) :
    start.claims (action :: rest) = start.claims [action] ++ start.claims rest := by
  rw [ReplicatedStart.claims, ReplicatedStart.claims, ReplicatedStart.claims, builds, builds,
    builds, ← List.filterMap_append, ← List.filterMap_append, List.singleton_append]

theorem claims_build (start : ReplicatedStart roots library) (lane : Str) :
    start.claims [.build lane] = (Assoc.find lane start.laneIndexes).toList := by
  have built : builds [.build lane] = [lane] := rfl
  rw [ReplicatedStart.claims, built]
  cases declared : Assoc.find lane start.laneIndexes <;> simp [declared]

/-- A run of the started Host is a run of the listener that asks for the slots of the lanes
built. -/
theorem exists_coordinator_run (parser : UriParser) (replicaCount : Nat)
    {actions : List ReplicatedAction}
    (execution : (start.machine config).run actions s = some t) :
    ∃ calls, (coordinator parser config replicaCount).run calls s = some t ∧
      asks calls = start.claims actions := by
  induction actions generalizing s with
  | nil => exact ⟨[], execution, rfl⟩
  | cons action rest ih =>
      obtain ⟨u, transition, remaining⟩ := Machine.run_cons_iff.mp execution
      obtain ⟨calls, later, asked⟩ := ih remaining
      rw [claims_cons]
      cases action with
      | build lane =>
          simp only [ReplicatedStart.machine] at transition
          split at transition
          · cases transition
          next free =>
          cases transition
          cases declared : Assoc.find lane start.laneIndexes with
          | none =>
              obtain ⟨message, refused⟩ := buildLane_of_none (s := s) declared
              rw [refused] at later
              refine ⟨calls, later, ?_⟩
              rw [asked, claims_build, declared, Option.toList_none, List.nil_append]
          | some index =>
              rw [buildLane_snd declared] at later
              refine ⟨.allocateReplicaAt index :: calls,
                Machine.run_cons_iff.mpr ⟨_, if_neg free, later⟩, ?_⟩
              rw [asks_cons, asked, claims_build, declared]
              rfl
      | serve action =>
          simp only [ReplicatedStart.machine] at transition
          split at transition
          · cases transition
          next other =>
          refine ⟨action :: calls, Machine.run_cons_iff.mpr ⟨u, transition, later⟩, ?_⟩
          rw [asks_cons, asks_serve (Bool.eq_false_iff.mpr other), asked]
          rfl

/-- A lane is built exactly if it is declared, its slot has not been asked for before and its
author's builder agrees. -/
theorem buildLane_eq_ok {lanes : List Str} {asked : List Nat} {slot : Nat}
    (distinct : lanes.Nodup) (indexes : start.laneIndexes = laneIndexes lanes)
    (ledger : ListenerCoordinator.Ledger lanes.length asked s) :
    (start.buildLane lane s).1 = .ok slot ↔
      lanes[slot]? = some lane ∧ slot ∉ asked ∧ start.replicatedLane lane = .ok () := by
  rw [← find_laneIndexes distinct, ReplicatedStart.buildLane, indexes]
  cases declared : Assoc.find lane (laneIndexes lanes) with
  | none => simp
  | some index =>
      have inRange : index < lanes.length :=
        (List.getElem?_eq_some_iff.mp ((find_laneIndexes distinct).mp declared)).1
      rw [Option.some.injEq]
      obtain ⟨⟨-, fresh⟩, after, given, -⟩ | ⟨taken, message, refused⟩ :=
        ledger.allocateReplicaAt_cases index
      · have unasked : index ∉ asked := fun before =>
          fresh ((ledger.handedOut index).mpr ⟨inRange, before⟩)
        simp only [given]
        rw [Result.map_eq_ok]
        constructor
        · rintro ⟨nothing, agreed, rfl⟩
          exact ⟨rfl, unasked, agreed⟩
        · rintro ⟨rfl, -, agreed⟩
          exact ⟨(), agreed, rfl⟩
      · simp only [refused]
        constructor
        · intro impossible
          cases impossible
        · rintro ⟨rfl, unasked, -⟩
          refine absurd ⟨inRange, fun held => ?_⟩ taken
          exact unasked ((ledger.handedOut index).mp held).2

/-- A replicated start lays out the lanes that its author has declared. From then on, in
every interleaving of the lane builders with the acceptor and the lanes that serve, a lane
can be built exactly if it is declared, no build of it was attempted before and its author's
builder agrees; and the slots handed out are those of the declared lanes whose build was
attempted, each once. A lane that the author's builder refuses keeps its slot. -/
theorem startReplicated_builds {host : ReplicatedHost roots library}
    {listening : Except String Unit} (unique : (roots.ids host.root).Nodup)
    (started : host.startReplicated parser listening = .ok start) :
    LaidOut host parser start ∧
    ∀ actions t, (start.machine host.ingressConfig).run actions start.coordinator = some t →
      (coordinator parser host.ingressConfig
        (executionLanes roots host.root).length).Reachable t ∧
      (∀ lane slot, (start.buildLane lane t).1 = .ok slot ↔
        (executionLanes roots host.root)[slot]? = some lane ∧ lane ∉ builds actions ∧
          host.replicatedLane lane = .ok ()) ∧
      t.replicas.Nodup ∧
      ∀ slot, slot ∈ t.replicas ↔
        ∃ lane ∈ builds actions, (executionLanes roots host.root)[slot]? = some lane := by
  have laid := startReplicated_laidOut unique started
  refine ⟨laid, fun actions t execution => ?_⟩
  have distinct := (sorted_executionLanes host.root).nodup
  obtain ⟨calls, mirrored, asked⟩ := exists_coordinator_run parser
    (executionLanes roots host.root).length execution
  have ledger : ListenerCoordinator.Ledger (executionLanes roots host.root).length
      (start.claims actions) t := by
    have fresh : ListenerCoordinator.Ledger (executionLanes roots host.root).length []
        start.coordinator := by
      rw [(ListenerCoordinator.of_bind laid.listener).2.2]
      exact ListenerCoordinator.ledger_unallocated host.ingressConfig _
    rw [← asked, ← List.nil_append (asks calls)]
    exact fresh.run mirrored
  have claimed : ∀ slot, slot ∈ start.claims actions ↔
      ∃ lane ∈ builds actions, (executionLanes roots host.root)[slot]? = some lane := by
    intro slot
    simp only [ReplicatedStart.claims, List.mem_filterMap, laid.indexes, find_laneIndexes distinct]
  refine ⟨(Machine.Reachable.of_initial laid.listener).run mirrored, ?_, ledger.once, ?_⟩
  · intro lane slot
    rw [buildLane_eq_ok distinct laid.indexes ledger, laid.builder]
    refine and_congr_right fun placed => and_congr_left' ?_
    rw [claimed, not_iff_not]
    constructor
    · rintro ⟨other, built, same⟩
      rw [placed] at same
      rwa [Option.some.inj same]
    · exact fun built => ⟨lane, built, placed⟩
  · intro slot
    rw [ledger.handedOut, claimed]
    constructor
    · exact fun held => held.2
    · rintro ⟨lane, built, placed⟩
      exact ⟨(List.getElem?_eq_some_iff.mp placed).1, lane, built, placed⟩

/-- Plans that are the lanes of their catalog. -/
def lanePlans : PlanLibrary PluginRoots.stored where
  Plan := List Str
  Address := Unit
  linked := .ok [ordersRelease]
  toValue _ _ := .ok .null
  resolvePluginRoot catalog _ := .ok catalog.executionLanes
  executionLanes := id
  debugFailure
    | .pluginFailure detail => detail
    | .deadlineExceeded => "DeadlineExceeded"
    | .other detail => detail
  executionLanes_resolved := by
    intro catalog root plan resolved
    cases resolved
    rfl

/-- The Endpoint runs on a lane of its own. -/
def ordersOnLane : ReplicatedHost PluginRoots.stored lanePlans where
  root := ([], [⟨⟨lit "orders", instanceKey⟩, emptyConfiguration, some (lit "web")⟩], [], none)
  factoryInstallers := []
  bindAddress := some ()
  ingressConfig := .default
  ingressAddress := ()
  extraDefaults := []
  extraBindings := []
  extraReleases := []
  middleware := []
  diagnostics := false
  extraAdapters := []
  replicatedLane _ := .ok ()

/-- The two lanes are built in the order opposite to that of the plan, with one attempt too
many. -/
theorem startReplicated_builds_ordersOnLane :
    ∃ start t, ordersOnLane.startReplicated UriParser.pathOnly (.ok ()) = .ok start ∧
      (start.machine .default).run
        [.build (lit "web"), .serve .accept, .build (lit "web"), .build (lit "main")]
        start.coordinator = some t ∧
      t.replicas = [1, 0] ∧ t.replicas.Nodup ∧
      LaidOut ordersOnLane UriParser.pathOnly start := by
  obtain ⟨start, started⟩ : ∃ start,
      ordersOnLane.startReplicated UriParser.pathOnly (.ok ()) = .ok start := ⟨_, rfl⟩
  have unique : (PluginRoots.stored.ids ordersOnLane.root).Nodup := List.nodup_singleton _
  obtain ⟨laid, runs⟩ := startReplicated_builds unique started
  obtain ⟨t, execution, held⟩ : ∃ t, (start.machine .default).run
      [.build (lit "web"), .serve .accept, .build (lit "web"), .build (lit "main")]
      start.coordinator = some t ∧ t.replicas = [1, 0] := by
    cases started
    exact ⟨_, rfl, by decide +kernel⟩
  exact ⟨start, t, started, execution, held, (runs _ t execution).2.2.1, laid⟩

end Host
