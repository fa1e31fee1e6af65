import LensoWeb.Foundation.Assoc
import LensoWeb.Host.Root
import LensoWeb.Ingress.Config

/-!
# The plan of a Web Host

`resolve_web_plan` collects the admitted releases, the enabled instances and the bindings of
Ingress, and hands them to plan resolution. Enabled instances come from two lists, the Host
defaults and the Plugin Root, which are joined without looking for an instance that is in
both. Such an instance is what the configuration overlay of the builder makes.

Plan resolution, the catalog of linked plugins and the serialization of the configuration are
not part of the repository; the model is given their results.
-/

namespace Host

open Foundation Kernel Ingress

/-- `lenso_web_ingress_plugin::PACKAGE_ID`. -/
def ingressPackageId : Str := lit "lenso.web-ingress"

def httpEndpoint : Str := lit "lenso.http.endpoint@1"
def streamEndpoint : Str := lit "lenso.http.stream-endpoint@1"
def websocketEndpoint : Str := lit "lenso.websocket.endpoint@1"

/-- `WebIngressFactory::plugin_descriptor`, as far as the Host reads it. -/
def ingressDescriptor : PluginDescriptor := ⟨ingressPackageId, lit "http-ingress", []⟩

structure HostPluginRelease where
  descriptor : PluginDescriptor
deriving DecidableEq

structure HostDefaultPlugin where
  id : PluginInstanceId
  configuration : Option Json

inductive HostSlot where
  | one (id : Str)
  | many (id : Str)
deriving DecidableEq

structure RequestAdmissionPlan where
  queueCapacity : Nat
  maxConcurrency : Nat
deriving DecidableEq

/-- What a binding is for: the instances in a slot, or instances by id. -/
inductive BindingTarget where
  | slot (id : Str)
  | instances (ids : List PluginInstanceId)
deriving DecidableEq

structure HostBinding where
  consumer : PluginInstanceId
  capabilityId : Str
  target : BindingTarget
  admission : Option RequestAdmissionPlan
deriving DecidableEq

/-- What plan resolution is given besides the Plugin Root. -/
structure HostCatalog where
  slots : List HostSlot
  releases : List HostPluginRelease
  defaults : List HostDefaultPlugin
  executionLanes : List Str
  bindings : List HostBinding

/-- `WebIngressConfig::endpoint_admission_limits`. -/
def endpointAdmissionLimits (config : WebIngressConfig) : Nat × Nat :=
  (0, config.maxConcurrentRequests)

/-- `provides_capability`. -/
def providesCapability (descriptor : PluginDescriptor) (capabilityId : Str) : Bool :=
  descriptor.providedCapabilities.any (· == capabilityId)

/-- The test of `endpoint_ids_for`. -/
def isEndpoint (releases : List HostPluginRelease) (capabilityId : Str) (id : PluginInstanceId) :
    Bool :=
  releases.any fun release => release.descriptor.pluginId == id.pluginId &&
    providesCapability release.descriptor capabilityId

/-- `endpoint_ids_for`. -/
def endpointIdsFor (enabledIds : List PluginInstanceId) (releases : List HostPluginRelease)
    (capabilityId : Str) : List PluginInstanceId :=
  enabledIds.filter (isEndpoint releases capabilityId)

/-- One round of the loop over the discovered and the extra releases. -/
def admitRelease (releases : List HostPluginRelease) (release : HostPluginRelease) :
    List HostPluginRelease :=
  if release.descriptor.pluginId = ingressPackageId then releases
  else if releases.any (·.descriptor.pluginId == release.descriptor.pluginId) then releases
  else releases ++ [release]

/-- The admitted releases. Ingress comes first. -/
def admittedReleases (discovered extra : List HostPluginRelease) : List HostPluginRelease :=
  (discovered ++ extra).foldl admitRelease [⟨ingressDescriptor⟩]

/-- How many releases there are for each root slot. -/
def slotCounts (releases : List HostPluginRelease) : List (Str × Nat) :=
  releases.foldl (fun counts release =>
    Assoc.insert release.descriptor.rootSlot
      ((Assoc.find release.descriptor.rootSlot counts).getD 0 + 1) counts) []

/-- The slot of a count. -/
def hostSlot (replicated : Bool) (entry : Str × Nat) : HostSlot :=
  if replicated && entry.1 == ingressDescriptor.rootSlot then .many entry.1
  else if entry.2 = 1 then .one entry.1
  else .many entry.1

/-- The ids of the Host defaults, Ingress first. -/
def defaultIds (extraDefaults : List HostDefaultPlugin) : List PluginInstanceId :=
  ⟨ingressPackageId, instanceKey⟩ :: extraDefaults.map HostDefaultPlugin.id

/-- `HostBinding::to_instances(...).with_admission(...)` over the Endpoints of a capability. -/
def endpointBinding (releases : List HostPluginRelease) (enabledIds : List PluginInstanceId)
    (admission : RequestAdmissionPlan) (ingressId : PluginInstanceId) (capabilityId : Str) :
    HostBinding :=
  ⟨ingressId, capabilityId, .instances (endpointIdsFor enabledIds releases capabilityId),
    some admission⟩

/-- The binding for a capability that may have no Endpoints. -/
def optionalBinding (releases : List HostPluginRelease) (enabledIds : List PluginInstanceId)
    (admission : RequestAdmissionPlan) (ingressId : PluginInstanceId) (capabilityId : Str) :
    List HostBinding :=
  if (endpointIdsFor enabledIds releases capabilityId).isEmpty then []
  else [endpointBinding releases enabledIds admission ingressId capabilityId]

/-- The bindings of one Ingress instance. -/
def ingressBindings (releases : List HostPluginRelease) (enabledIds : List PluginInstanceId)
    (admission : RequestAdmissionPlan) (ingressId : PluginInstanceId) : List HostBinding :=
  endpointBinding releases enabledIds admission ingressId httpEndpoint ::
    (optionalBinding releases enabledIds admission ingressId streamEndpoint ++
      optionalBinding releases enabledIds admission ingressId websocketEndpoint)

/-- The loop over the Ingress instances. -/
def automaticBindings (releases : List HostPluginRelease) (enabledIds : List PluginInstanceId)
    (admission : RequestAdmissionPlan) : List HostBinding :=
  (enabledIds.filter (·.pluginId = ingressPackageId)).flatMap
    (ingressBindings releases enabledIds admission)

variable {roots : PluginRoots}

/-- The execution lanes: the main lane and those that instances of the root name. -/
def executionLanes (roots : PluginRoots) (root : roots.PluginRootSnapshot) : List Str :=
  (((roots.instances root).filterMap roots.executionLane).foldl
    (fun lanes lane => Assoc.insert lane () lanes) [(lit "main", ())]).map Prod.fst

/-- `resolve_web_plan` up to plan resolution. -/
def webCatalog (roots : PluginRoots) (linked : Except RuntimeFailure (List HostPluginRelease))
    (toValue : WebIngressConfig → Except String Json) (config : WebIngressConfig)
    (root : roots.PluginRootSnapshot) (extraDefaults : List HostDefaultPlugin)
    (extraBindings : List HostBinding) (extraReleases : List HostPluginRelease)
    (replicated : Bool) : Except WebHostError HostCatalog := do
  let discovered ← linked.mapError WebHostError.runtime
  let releases := admittedReleases discovered extraReleases
  let configuration ← (toValue config).mapError WebHostError.plan
  let defaults := ⟨⟨ingressPackageId, instanceKey⟩, some configuration⟩ :: extraDefaults
  let enabledIds := defaults.map HostDefaultPlugin.id ++ roots.ids root
  if (endpointIdsFor enabledIds releases httpEndpoint).isEmpty then .error .missingEndpoint
  else
    let (queueCapacity, maxConcurrency) := endpointAdmissionLimits config
    let admission : RequestAdmissionPlan := ⟨queueCapacity, maxConcurrency⟩
    return {
      slots := (slotCounts releases).map (hostSlot replicated)
      releases
      defaults
      executionLanes := executionLanes roots root
      bindings := automaticBindings releases enabledIds admission ++ extraBindings }

/-- `resolve_web_plan`. -/
def resolveWebPlan {Plan : Type} (roots : PluginRoots)
    (resolvePluginRoot : HostCatalog → roots.PluginRootSnapshot → Except String Plan)
    (linked : Except RuntimeFailure (List HostPluginRelease))
    (toValue : WebIngressConfig → Except String Json) (config : WebIngressConfig)
    (root : roots.PluginRootSnapshot) (extraDefaults : List HostDefaultPlugin)
    (extraBindings : List HostBinding) (extraReleases : List HostPluginRelease)
    (replicated : Bool) : Except WebHostError Plan := do
  let host ← webCatalog roots linked toValue config root extraDefaults extraBindings
    extraReleases replicated
  (resolvePluginRoot host root).mapError .plan

/-! ### The automatic bindings -/

/-- A binding of an instance for a capability. -/
def HostBinding.serves (binding : HostBinding) (consumer : PluginInstanceId)
    (capabilityId : Str) : Bool :=
  binding.consumer == consumer && binding.capabilityId == capabilityId

/-- One binding for HTTP and at most one for each other capability of an Endpoint, and every
provider once in each. -/
structure DuplicateFree (releases : List HostPluginRelease) (enabledIds : List PluginInstanceId)
    (automatic : List HostBinding) : Prop where
  http : ∀ id ∈ enabledIds, id.pluginId = ingressPackageId →
    automatic.countP (·.serves id httpEndpoint) = 1
  others : ∀ id ∈ enabledIds, id.pluginId = ingressPackageId →
    ∀ capability ∈ [streamEndpoint, websocketEndpoint],
      automatic.countP (·.serves id capability) ≤ 1
  providers : ∀ binding ∈ automatic, ∃ ids, binding.target = .instances ids ∧ ids.Nodup ∧
    ∀ id, id ∈ ids ↔ id ∈ enabledIds ∧ isEndpoint releases binding.capabilityId id = true

/-- No Ingress instance and no Endpoint is enabled twice. -/
def EnabledOnce (releases : List HostPluginRelease) (enabledIds : List PluginInstanceId) : Prop :=
  ∀ id ∈ enabledIds, (id.pluginId = ingressPackageId ∨
    ∃ capability ∈ [httpEndpoint, streamEndpoint, websocketEndpoint],
      isEndpoint releases capability id = true) → enabledIds.count id = 1

variable {releases : List HostPluginRelease} {enabledIds : List PluginInstanceId}
  {admission : RequestAdmissionPlan}

/-- Elements that one member alone contributes. -/
theorem countP_flatMap_of_only {α β : Type} [DecidableEq α] {test : β → Bool} {body : α → List β}
    {only : α} (others : ∀ member, member ≠ only → (body member).countP test = 0)
    (members : List α) :
    (members.flatMap body).countP test = members.count only * (body only).countP test := by
  induction members with
  | nil => simp
  | cons member rest ih =>
      rw [List.flatMap_cons, List.countP_append, ih]
      by_cases here : member = only
      · rw [here, List.count_cons_self, Nat.succ_mul, Nat.add_comm]
      · rw [others member here, List.count_cons_of_ne here, Nat.zero_add]

/-- A binding of an instance is for one of three capabilities and lists its Endpoints. -/
theorem mem_ingressBindings {ingressId : PluginInstanceId} {binding : HostBinding} :
    binding ∈ ingressBindings releases enabledIds admission ingressId ↔
      ∃ capability ∈ [httpEndpoint, streamEndpoint, websocketEndpoint],
        (capability = httpEndpoint ∨ endpointIdsFor enabledIds releases capability ≠ []) ∧
        binding = endpointBinding releases enabledIds admission ingressId capability := by
  have optional : ∀ capability,
      binding ∈ optionalBinding releases enabledIds admission ingressId capability ↔
        endpointIdsFor enabledIds releases capability ≠ [] ∧
          binding = endpointBinding releases enabledIds admission ingressId capability := by
    intro capability
    rw [optionalBinding]
    split
    · next none => simp [List.isEmpty_iff.mp none]
    · next some => simp [List.isEmpty_iff.not.mp some]
  have apart : streamEndpoint ≠ httpEndpoint ∧ websocketEndpoint ≠ httpEndpoint := by
    decide +kernel
  rw [ingressBindings, List.mem_cons, List.mem_append, optional, optional]
  simp [apart.1, apart.2]

theorem countP_ingressBindings_of_ne {ingressId id : PluginInstanceId} (capability : Str)
    (other : ingressId ≠ id) :
    (ingressBindings releases enabledIds admission ingressId).countP (·.serves id capability) =
      0 := by
  rw [List.countP_eq_zero]
  intro binding member
  obtain ⟨bound, -, -, rfl⟩ := mem_ingressBindings.mp member
  simp [HostBinding.serves, endpointBinding, other]

theorem countP_optionalBinding (id : PluginInstanceId) (bound capability : Str) :
    (optionalBinding releases enabledIds admission id bound).countP (·.serves id capability) ≤
      if bound = capability then 1 else 0 := by
  rw [optionalBinding]
  split
  · exact Nat.zero_le _
  · rw [List.countP_singleton]
    simp [HostBinding.serves, endpointBinding]

/-- The bindings of one instance for one capability. -/
theorem countP_ingressBindings (releases : List HostPluginRelease)
    (enabledIds : List PluginInstanceId) (admission : RequestAdmissionPlan)
    (id : PluginInstanceId) :
    (ingressBindings releases enabledIds admission id).countP (·.serves id httpEndpoint) = 1 ∧
      ∀ capability ∈ [streamEndpoint, websocketEndpoint],
        (ingressBindings releases enabledIds admission id).countP (·.serves id capability) ≤ 1 := by
  have apart : streamEndpoint ≠ httpEndpoint ∧ websocketEndpoint ≠ httpEndpoint ∧
      streamEndpoint ≠ websocketEndpoint := by decide +kernel
  obtain ⟨first, second, third⟩ := apart
  have stream := @countP_optionalBinding releases enabledIds admission id streamEndpoint
  have websocket := @countP_optionalBinding releases enabledIds admission id websocketEndpoint
  have http : ∀ capability, (endpointBinding releases enabledIds admission id
      httpEndpoint).serves id capability = (httpEndpoint == capability) := by
    intro capability
    simp [HostBinding.serves, endpointBinding]
  have whole : ∀ capability, (ingressBindings releases enabledIds admission id).countP
      (·.serves id capability) ≤ (if httpEndpoint = capability then 1 else 0) +
        (if streamEndpoint = capability then 1 else 0) +
        (if websocketEndpoint = capability then 1 else 0) := by
    intro capability
    have streams := stream capability
    have websockets := websocket capability
    rw [ingressBindings, List.countP_cons, List.countP_append, http]
    simp only [beq_iff_eq]
    omega
  constructor
  · refine Nat.le_antisymm ?_ ?_
    · simpa [first, second] using whole httpEndpoint
    · rw [List.one_le_countP_iff]
      exact ⟨_, List.mem_cons_self, by rw [http]; exact beq_self_eq_true _⟩
  · intro capability member
    obtain rfl | rfl := List.mem_pair.mp member
    · simpa [Ne.symm first, Ne.symm third] using whole streamEndpoint
    · simpa [Ne.symm second, third] using whole websocketEndpoint

/-- The automatic bindings of one Ingress instance, counted over all of its occurrences. -/
theorem countP_automaticBindings {id : PluginInstanceId} (ingress : id.pluginId = ingressPackageId)
    (capability : Str) :
    (automaticBindings releases enabledIds admission).countP (·.serves id capability) =
      enabledIds.count id *
        (ingressBindings releases enabledIds admission id).countP (·.serves id capability) := by
  rw [automaticBindings, countP_flatMap_of_only fun member other =>
    countP_ingressBindings_of_ne capability other]
  rw [List.count_filter (by simpa using ingress)]

/-- Every automatic binding lists the enabled Endpoints of a capability. -/
theorem target_of_mem {binding : HostBinding}
    (member : binding ∈ automaticBindings releases enabledIds admission) :
    binding.capabilityId ∈ [httpEndpoint, streamEndpoint, websocketEndpoint] ∧
      binding.target = .instances (endpointIdsFor enabledIds releases binding.capabilityId) := by
  obtain ⟨id, -, inside⟩ := List.mem_flatMap.mp member
  obtain ⟨capability, known, -, rfl⟩ := mem_ingressBindings.mp inside
  exact ⟨known, rfl⟩

/-- An Ingress instance is bound for every capability that has an Endpoint. -/
theorem mem_automaticBindings {id : PluginInstanceId} (enabled : id ∈ enabledIds)
    (ingress : id.pluginId = ingressPackageId) {capability : Str}
    (known : capability ∈ [httpEndpoint, streamEndpoint, websocketEndpoint])
    (provided : endpointIdsFor enabledIds releases capability ≠ []) :
    endpointBinding releases enabledIds admission id capability ∈
      automaticBindings releases enabledIds admission := by
  refine List.mem_flatMap.mpr ⟨id, List.mem_filter.mpr ⟨enabled, by simpa using ingress⟩, ?_⟩
  exact mem_ingressBindings.mpr ⟨capability, known, .inr provided, rfl⟩

/-- The automatic bindings are free of duplicates exactly if nothing that they are about is
enabled twice. -/
theorem duplicateFree_iff {main : PluginInstanceId} (enabled : main ∈ enabledIds)
    (ingress : main.pluginId = ingressPackageId) :
    DuplicateFree releases enabledIds (automaticBindings releases enabledIds admission) ↔
      EnabledOnce releases enabledIds := by
  constructor
  · rintro free id member (own | ⟨capability, known, endpoint⟩)
    · have one := free.http id member own
      rw [countP_automaticBindings own,
        (countP_ingressBindings releases enabledIds admission id).1, Nat.mul_one] at one
      exact one
    · have listed : id ∈ endpointIdsFor enabledIds releases capability :=
        List.mem_filter.mpr ⟨member, endpoint⟩
      obtain ⟨ids, target, distinct, -⟩ := free.providers _
        (mem_automaticBindings enabled ingress known (List.ne_nil_of_mem listed))
      cases target
      have counted := List.count_eq_one_of_mem distinct listed
      rwa [endpointIdsFor, List.count_filter endpoint] at counted
  · intro once
    refine ⟨?_, ?_, ?_⟩
    · intro id member own
      rw [countP_automaticBindings own,
        (countP_ingressBindings releases enabledIds admission id).1, Nat.mul_one]
      exact once id member (.inl own)
    · intro id member own capability known
      rw [countP_automaticBindings own, once id member (.inl own), Nat.one_mul]
      exact (countP_ingressBindings releases enabledIds admission id).2 capability known
    · intro binding member
      obtain ⟨known, target⟩ := target_of_mem member
      refine ⟨_, target, ?_, fun id => List.mem_filter⟩
      rw [List.nodup_iff_count_eq_one]
      intro id listed
      obtain ⟨inside, endpoint⟩ := List.mem_filter.mp listed
      rw [endpointIdsFor, List.count_filter endpoint]
      exact once id inside (.inr ⟨_, known, endpoint⟩)

/-- What reaches plan resolution. -/
theorem webCatalog_eq_ok {linked : Except RuntimeFailure (List HostPluginRelease)}
    {toValue : WebIngressConfig → Except String Json} {config : WebIngressConfig}
    {root : roots.PluginRootSnapshot} {extraDefaults : List HostDefaultPlugin}
    {extraBindings : List HostBinding} {extraReleases : List HostPluginRelease}
    {replicated : Bool} {host : HostCatalog}
    (reached : webCatalog roots linked toValue config root extraDefaults extraBindings
      extraReleases replicated = .ok host) :
    ∃ discovered admission, linked = .ok discovered ∧
      host.releases = admittedReleases discovered extraReleases ∧
      host.bindings = automaticBindings host.releases
        (defaultIds extraDefaults ++ roots.ids root) admission ++ extraBindings := by
  unfold webCatalog at reached
  obtain ⟨discovered, found, reached⟩ := Result.bind_eq_ok.mp reached
  obtain ⟨configuration, written, reached⟩ := Result.bind_eq_ok.mp reached
  simp only [] at reached
  split at reached
  · cases reached
  · cases reached
    exact ⟨discovered, _, Result.mapError_eq_ok.mp found, rfl, rfl⟩

/-- Whenever plan resolution is reached, the automatic bindings are free of duplicates exactly
if no Ingress instance and no Endpoint instance is enabled twice, as a Host default and by the
Plugin Root or as two Host defaults. -/
theorem automatic_bindings_iff {linked : Except RuntimeFailure (List HostPluginRelease)}
    {toValue : WebIngressConfig → Except String Json} {config : WebIngressConfig}
    {root : roots.PluginRootSnapshot} {extraDefaults : List HostDefaultPlugin}
    {extraBindings : List HostBinding} {extraReleases : List HostPluginRelease}
    {replicated : Bool} {host : HostCatalog}
    (reached : webCatalog roots linked toValue config root extraDefaults extraBindings
      extraReleases replicated = .ok host) :
    ∃ discovered automatic, linked = .ok discovered ∧
      host.bindings = automatic ++ extraBindings ∧
      (DuplicateFree (admittedReleases discovered extraReleases)
          (defaultIds extraDefaults ++ roots.ids root) automatic ↔
        EnabledOnce (admittedReleases discovered extraReleases)
          (defaultIds extraDefaults ++ roots.ids root)) := by
  obtain ⟨discovered, admission, found, releases, bindings⟩ := webCatalog_eq_ok reached
  refine ⟨discovered, _, found, bindings, ?_⟩
  rw [releases]
  have enabled : (⟨ingressPackageId, instanceKey⟩ : PluginInstanceId) ∈
      defaultIds extraDefaults ++ roots.ids root :=
    List.mem_append_left _ List.mem_cons_self
  exact duplicateFree_iff enabled rfl

/-- A release that provides HTTP. -/
def ordersRelease : HostPluginRelease :=
  ⟨⟨lit "orders", lit "http-endpoints", [httpEndpoint]⟩⟩

/-- A root that enables the Endpoint. -/
def ordersRoot : PluginRoots.stored.PluginRootSnapshot :=
  ([], [⟨⟨lit "orders", instanceKey⟩, emptyConfiguration, none⟩], [], none)

/-- A root that configures Ingress, too. -/
def overlaidRoot : PluginRoots.stored.PluginRootSnapshot :=
  ([], [⟨⟨lit "orders", instanceKey⟩, emptyConfiguration, none⟩,
    ⟨⟨ingressPackageId, instanceKey⟩, emptyConfiguration, none⟩], [], none)

theorem automatic_bindings_orders :
    ∃ host automatic, webCatalog PluginRoots.stored (.ok [ordersRelease]) (fun _ => .ok .null) .default
        ordersRoot [] [] [] false = .ok host ∧ host.bindings = automatic ++ [] ∧
      DuplicateFree (admittedReleases [ordersRelease] [])
        (defaultIds [] ++ PluginRoots.stored.ids ordersRoot) automatic := by
  have outcome : ∃ host, webCatalog PluginRoots.stored (.ok [ordersRelease]) (fun _ => .ok .null)
      .default ordersRoot [] [] [] false = .ok host := ⟨_, rfl⟩
  obtain ⟨host, reached⟩ := outcome
  obtain ⟨discovered, automatic, found, bindings, free⟩ := automatic_bindings_iff reached
  cases found
  refine ⟨host, automatic, reached, bindings, free.mpr ?_⟩
  rw [EnabledOnce]
  decide +kernel

/-- Ingress is configured in the Plugin Root: it is bound twice for HTTP. -/
theorem overlay_binds_twice :
    ∃ host, webCatalog PluginRoots.stored (.ok [ordersRelease]) (fun _ => .ok .null) .default
        overlaidRoot [] [] [] false = .ok host ∧ (PluginRoots.stored.ids overlaidRoot).Nodup ∧
      host.bindings.countP (·.serves ⟨ingressPackageId, instanceKey⟩ httpEndpoint) = 2 ∧
      ¬ DuplicateFree (admittedReleases [ordersRelease] [])
        (defaultIds [] ++ PluginRoots.stored.ids overlaidRoot) host.bindings := by
  refine ⟨_, rfl, ?_, ?_, fun free => ?_⟩
  · decide +kernel
  · decide +kernel
  · have one := free.http ⟨ingressPackageId, instanceKey⟩ (by decide +kernel) rfl
    revert one
    decide +kernel

end Host
