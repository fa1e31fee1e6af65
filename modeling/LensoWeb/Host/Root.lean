import LensoWeb.Foundation.Json
import LensoWeb.Foundation.Result
import LensoWeb.Kernel

/-!
# Plugin Root authoring

The builder calls of `NativeWebHost` write instances into the Plugin Root. A snapshot of it
is immutable, so every call reads the parts of the old snapshot and builds a new one.

Snapshots and their instances belong to the plan library. `PluginRoots` is what the builder
uses of it: constructors that store what they are given, and the reading functions.
-/

namespace Host

open Foundation Kernel

/-- `PluginInstanceId`. -/
structure PluginInstanceId where
  pluginId : Str
  instanceKey : Str
deriving DecidableEq

/-- What the Host reads of a `PluginDescriptor`; a capability is known by its id. -/
structure PluginDescriptor where
  pluginId : Str
  rootSlot : Str
  providedCapabilities : List Str
deriving DecidableEq

/-- The errors of `WebHostError` that authoring and planning end with. -/
inductive WebHostError where
  | plan (detail : String)
  | missingEndpoint
  | runtime (failure : RuntimeFailure)
deriving DecidableEq

/-- `INSTANCE_KEY`. -/
def instanceKey : Str := lit "default"

/-- `empty_configuration`. -/
def emptyConfiguration : Json := .object []

/-- `json_configuration`, of what serialization made of the value. -/
def jsonConfiguration (serialized : Except String Json) : Except WebHostError Json :=
  serialized.mapError .plan

/-- The Plugin Root types of the plan library. -/
structure PluginRoots where
  PluginRootInstance : Type
  PluginRootSnapshot : Type
  Release : Type
  Disabled : Type
  Choice : Type
  newInstance : Str → Str → PluginRootInstance
  withConfiguration : PluginRootInstance → Json → PluginRootInstance
  withExecutionLane : PluginRootInstance → Str → PluginRootInstance
  id : PluginRootInstance → PluginInstanceId
  configuration : PluginRootInstance → Json
  executionLane : PluginRootInstance → Option Str
  new : List Release → List PluginRootInstance → List Disabled → PluginRootSnapshot
  withDependencyChoices : PluginRootSnapshot → List Choice → PluginRootSnapshot
  releases : PluginRootSnapshot → List Release
  instances : PluginRootSnapshot → List PluginRootInstance
  disabled : PluginRootSnapshot → List Disabled
  dependencySelectionAdopted : PluginRootSnapshot → Bool
  dependencyChoices : PluginRootSnapshot → List Choice
  id_new : ∀ plugin key, id (newInstance plugin key) = ⟨plugin, key⟩
  executionLane_new : ∀ plugin key, executionLane (newInstance plugin key) = none
  id_withConfiguration : ∀ one json, id (withConfiguration one json) = id one
  configuration_withConfiguration : ∀ one json, configuration (withConfiguration one json) = json
  executionLane_withConfiguration : ∀ one json,
    executionLane (withConfiguration one json) = executionLane one
  id_withExecutionLane : ∀ one lane, id (withExecutionLane one lane) = id one
  configuration_withExecutionLane : ∀ one lane,
    configuration (withExecutionLane one lane) = configuration one
  executionLane_withExecutionLane : ∀ one lane,
    executionLane (withExecutionLane one lane) = some lane
  releases_new : ∀ held all off, releases (new held all off) = held
  instances_new : ∀ held all off, instances (new held all off) = all
  disabled_new : ∀ held all off, disabled (new held all off) = off
  adopted_new : ∀ held all off, dependencySelectionAdopted (new held all off) = false
  releases_choices : ∀ root choices, releases (withDependencyChoices root choices) = releases root
  instances_choices : ∀ root choices,
    instances (withDependencyChoices root choices) = instances root
  disabled_choices : ∀ root choices, disabled (withDependencyChoices root choices) = disabled root
  adopted_choices : ∀ root choices,
    dependencySelectionAdopted (withDependencyChoices root choices) = true
  choices_choices : ∀ root choices,
    dependencyChoices (withDependencyChoices root choices) = choices
  choices_of_unadopted : ∀ root, dependencySelectionAdopted root = false →
    dependencyChoices root = []

/-- What a builder call hands to `push_instance`. -/
structure Push where
  id : PluginInstanceId
  configuration : Json
  executionLane : Option Str

namespace PluginRoots

variable (roots : PluginRoots)

/-- A new instance on a lane, if there is one. -/
def onLane (replacement : roots.PluginRootInstance) : Option Str → roots.PluginRootInstance
  | some lane => roots.withExecutionLane replacement lane
  | none => replacement

/-- The search for an existing instance: it is replaced where it stands and keeps its lane
unless a lane is named, or the new instance comes last. -/
def place (push : Push) (replacement : roots.PluginRootInstance) :
    List roots.PluginRootInstance → List roots.PluginRootInstance
  | [] => [roots.onLane replacement push.executionLane]
  | existing :: rest =>
      if roots.id existing = push.id then
        roots.onLane replacement (push.executionLane.or (roots.executionLane existing)) :: rest
      else existing :: place push replacement rest

/-- `NativeWebHost::push_instance`. -/
def pushInstance (root : roots.PluginRootSnapshot) (push : Push) : roots.PluginRootSnapshot :=
  let adopted := roots.dependencySelectionAdopted root
  let choices := roots.dependencyChoices root
  let replacement := roots.withConfiguration
    (roots.newInstance push.id.pluginId push.id.instanceKey) push.configuration
  let instances := roots.place push replacement (roots.instances root)
  let next := roots.new (roots.releases root) instances (roots.disabled root)
  if adopted then roots.withDependencyChoices next choices else next

end PluginRoots

/-- The builder calls that enable an instance. A plugin type is known by its package id, a
configuration by what serialization makes of it. -/
inductive BuilderCall where
  | plugin (packageId : Str)
  | pluginOnLane (packageId executionLane : Str)
  | pluginWith (packageId : Str) (configuration : Except String Json)
  | pluginWithOnLane (packageId executionLane : Str) (configuration : Except String Json)
  | namedInstance (packageId instanceKey : Str) (configuration : Except String Json)
  | instanceOnLane (packageId instanceKey executionLane : Str)
      (configuration : Except String Json)
  | factory (packageId : Str) (descriptor : PluginDescriptor)
  | enable (pluginId : Str)

/-- What the call pushes. -/
def BuilderCall.push : BuilderCall → Except WebHostError Push
  | plugin packageId => .ok ⟨⟨packageId, instanceKey⟩, emptyConfiguration, none⟩
  | pluginOnLane packageId lane =>
      .ok ⟨⟨packageId, instanceKey⟩, emptyConfiguration, some lane⟩
  | pluginWith packageId configuration => do
      return ⟨⟨packageId, instanceKey⟩, ← jsonConfiguration configuration, none⟩
  | pluginWithOnLane packageId lane configuration => do
      return ⟨⟨packageId, instanceKey⟩, ← jsonConfiguration configuration, some lane⟩
  | namedInstance packageId key configuration => do
      return ⟨⟨packageId, key⟩, ← jsonConfiguration configuration, none⟩
  | instanceOnLane packageId key lane configuration => do
      return ⟨⟨packageId, key⟩, ← jsonConfiguration configuration, some lane⟩
  | factory packageId _ => .ok ⟨⟨packageId, instanceKey⟩, emptyConfiguration, none⟩
  | enable pluginId => .ok ⟨⟨pluginId, instanceKey⟩, emptyConfiguration, none⟩

/-- `FactoryInstaller`, without the installation itself. -/
structure FactoryInstaller where
  packageId : Str
  descriptor : PluginDescriptor
deriving DecidableEq

/-- The part of `NativeWebHost` that the calls write. -/
structure NativeWebHost (roots : PluginRoots) where
  root : roots.PluginRootSnapshot
  factoryInstallers : List FactoryInstaller

/-- One builder call. -/
def NativeWebHost.apply {roots : PluginRoots} (host : NativeWebHost roots) (call : BuilderCall) :
    Except WebHostError (NativeWebHost roots) := do
  let push ← call.push
  let installers := match call with
    | .factory packageId descriptor => host.factoryInstallers ++ [⟨packageId, descriptor⟩]
    | _ => host.factoryInstallers
  return ⟨roots.pushInstance host.root push, installers⟩

namespace PluginRoots

variable {roots : PluginRoots}

/-- Snapshots as records of what they are given. -/
def stored : PluginRoots where
  PluginRootInstance := Push
  PluginRootSnapshot := List Str × List Push × List Str × Option (List Str)
  Release := Str
  Disabled := Str
  Choice := Str
  newInstance plugin key := ⟨⟨plugin, key⟩, .null, none⟩
  withConfiguration one json := { one with configuration := json }
  withExecutionLane one lane := { one with executionLane := some lane }
  id := Push.id
  configuration := Push.configuration
  executionLane := Push.executionLane
  new held all off := (held, all, off, none)
  withDependencyChoices := fun (held, all, off, _) choices => (held, all, off, some choices)
  releases root := root.1
  instances root := root.2.1
  disabled root := root.2.2.1
  dependencySelectionAdopted root := root.2.2.2.isSome
  dependencyChoices root := root.2.2.2.getD []
  id_new _ _ := rfl
  executionLane_new _ _ := rfl
  id_withConfiguration _ _ := rfl
  configuration_withConfiguration _ _ := rfl
  executionLane_withConfiguration _ _ := rfl
  id_withExecutionLane _ _ := rfl
  configuration_withExecutionLane _ _ := rfl
  executionLane_withExecutionLane _ _ := rfl
  releases_new _ _ _ := rfl
  instances_new _ _ _ := rfl
  disabled_new _ _ _ := rfl
  adopted_new _ _ _ := rfl
  releases_choices _ _ := rfl
  instances_choices _ _ := rfl
  disabled_choices _ _ := rfl
  adopted_choices _ _ := rfl
  choices_choices _ _ := rfl
  choices_of_unadopted := by
    rintro ⟨held, all, off, choices⟩ unadopted
    cases choices with
    | none => rfl
    | some choices => cases unadopted

/-! ### One push -/

/-- The instance of an id. -/
def find (roots : PluginRoots) (key : PluginInstanceId) (all : List roots.PluginRootInstance) :
    Option roots.PluginRootInstance :=
  all.find? fun one => roots.id one = key

/-- The ids of a snapshot, in order. -/
def ids (roots : PluginRoots) (root : roots.PluginRootSnapshot) : List PluginInstanceId :=
  (roots.instances root).map roots.id

@[simp] theorem id_onLane (replacement : roots.PluginRootInstance) (lane : Option Str) :
    roots.id (roots.onLane replacement lane) = roots.id replacement := by
  cases lane with
  | none => rfl
  | some lane => exact roots.id_withExecutionLane replacement lane

@[simp] theorem configuration_onLane (replacement : roots.PluginRootInstance)
    (lane : Option Str) :
    roots.configuration (roots.onLane replacement lane) = roots.configuration replacement := by
  cases lane with
  | none => rfl
  | some lane => exact roots.configuration_withExecutionLane replacement lane

theorem executionLane_onLane (replacement : roots.PluginRootInstance) (lane : Option Str)
    (bare : roots.executionLane replacement = none) :
    roots.executionLane (roots.onLane replacement lane) = lane := by
  cases lane with
  | none => exact bare
  | some lane => exact roots.executionLane_withExecutionLane replacement lane

variable {push : Push} {replacement : roots.PluginRootInstance}

/-- A push adds an id only if it is new. -/
theorem map_id_place (named : roots.id replacement = push.id)
    (all : List roots.PluginRootInstance) :
    (roots.place push replacement all).map roots.id =
      if push.id ∈ all.map roots.id then all.map roots.id else all.map roots.id ++ [push.id] := by
  induction all with
  | nil => simp [place, named]
  | cons existing rest ih =>
      rw [place]
      by_cases here : roots.id existing = push.id
      · simp [here, named]
      · rw [if_neg here, List.map_cons, List.map_cons, ih]
        by_cases later : push.id ∈ rest.map roots.id
        · rw [if_pos later, if_pos (List.mem_cons_of_mem _ later)]
        · have absent : push.id ∉ roots.id existing :: rest.map roots.id := by
            rw [List.mem_cons, not_or]
            exact ⟨Ne.symm here, later⟩
          rw [if_neg later, if_neg absent]
          rfl

/-- A push is a write at one id: the new instance takes over the lane of the old one unless
it names its own. -/
theorem find_place (named : roots.id replacement = push.id) (key : PluginInstanceId)
    (all : List roots.PluginRootInstance) :
    roots.find key (roots.place push replacement all) =
      if key = push.id then some (roots.onLane replacement
        (push.executionLane.or ((roots.find push.id all).bind roots.executionLane)))
      else roots.find key all := by
  induction all with
  | nil =>
      by_cases same : key = push.id
      · simp [place, find, named, same]
      · simp [place, find, named, same, Ne.symm same]
  | cons existing rest ih =>
      rw [place]
      by_cases here : roots.id existing = push.id
      · rw [if_pos here]
        by_cases same : key = push.id
        · simp [find, here, named, same]
        · simp [find, here, named, same, Ne.symm same]
      · rw [if_neg here]
        have skipped : roots.find push.id (existing :: rest) = roots.find push.id rest := by
          rw [find, List.find?_cons_of_neg (by simpa using here), find]
        by_cases first : roots.id existing = key
        · have other : key ≠ push.id := by
            rw [← first]
            exact here
          simp [find, first, other]
        · have passed : ∀ list, roots.find key (existing :: list) = roots.find key list := by
            intro list
            rw [find, List.find?_cons_of_neg (by simpa using first), find]
          rw [passed, passed, skipped, ih]

/-- The parts of the snapshot after a push. -/
structure Pushed (roots : PluginRoots) (push : Push) (root next : roots.PluginRootSnapshot) :
    Prop where
  ids : roots.ids next =
    if push.id ∈ roots.ids root then roots.ids root else roots.ids root ++ [push.id]
  written : ∃ one, roots.find push.id (roots.instances next) = some one ∧
    roots.configuration one = push.configuration ∧ roots.executionLane one =
      push.executionLane.or
        ((roots.find push.id (roots.instances root)).bind roots.executionLane)
  others : ∀ key, key ≠ push.id →
    roots.find key (roots.instances next) = roots.find key (roots.instances root)
  releases : roots.releases next = roots.releases root
  disabled : roots.disabled next = roots.disabled root
  adopted : roots.dependencySelectionAdopted next = roots.dependencySelectionAdopted root
  choices : roots.dependencyChoices next = roots.dependencyChoices root

theorem pushInstance_pushed (root : roots.PluginRootSnapshot) (push : Push) :
    Pushed roots push root (roots.pushInstance root push) := by
  -- the snapshot is rebuilt, and marked as adopted again if it was
  have parts : ∃ next, roots.pushInstance root push = next ∧
      roots.instances next = roots.place push (roots.withConfiguration
        (roots.newInstance push.id.pluginId push.id.instanceKey) push.configuration)
        (roots.instances root) ∧
      roots.releases next = roots.releases root ∧ roots.disabled next = roots.disabled root ∧
      roots.dependencySelectionAdopted next = roots.dependencySelectionAdopted root ∧
      roots.dependencyChoices next = roots.dependencyChoices root := by
    refine ⟨_, rfl, ?_⟩
    rw [pushInstance]
    cases adopted : roots.dependencySelectionAdopted root with
    | true =>
        rw [if_pos rfl, roots.instances_choices, roots.releases_choices, roots.disabled_choices,
          roots.adopted_choices, roots.choices_choices, roots.instances_new, roots.releases_new,
          roots.disabled_new]
        exact ⟨rfl, rfl, rfl, rfl, rfl⟩
    | false =>
        rw [if_neg Bool.false_ne_true, roots.instances_new, roots.releases_new,
          roots.disabled_new, roots.adopted_new, roots.choices_of_unadopted root adopted,
          roots.choices_of_unadopted _ (roots.adopted_new _ _ _)]
        exact ⟨rfl, rfl, rfl, rfl, rfl⟩
  obtain ⟨next, made, instances, releases, disabled, adopted, choices⟩ := parts
  have named : roots.id (roots.withConfiguration
      (roots.newInstance push.id.pluginId push.id.instanceKey) push.configuration) = push.id := by
    rw [roots.id_withConfiguration, roots.id_new]
  have bare : roots.executionLane (roots.withConfiguration
      (roots.newInstance push.id.pluginId push.id.instanceKey) push.configuration) = none := by
    rw [roots.executionLane_withConfiguration, roots.executionLane_new]
  rw [made]
  refine ⟨?_, ?_, ?_, releases, disabled, adopted, choices⟩
  · rw [ids, instances, map_id_place named]
    rfl
  · rw [instances, find_place named, if_pos rfl]
    refine ⟨_, rfl, ?_, executionLane_onLane _ _ bare⟩
    rw [configuration_onLane, roots.configuration_withConfiguration]
  · intro key other
    rw [instances, find_place named, if_neg other]

/-! ### A sequence of calls -/

/-- The last push of an id. -/
def lastPush (key : PluginInstanceId) (pushes : List Push) : Option Push :=
  (pushes.filter fun push => push.id = key).getLast?

/-- The lane of the last push of an id that named one. -/
def lastLane (key : PluginInstanceId) (pushes : List Push) : Option Str :=
  ((pushes.filter fun push => push.id = key).filterMap Push.executionLane).getLast?

theorem lastPush_append (key : PluginInstanceId) (pushes : List Push) (push : Push) :
    lastPush key (pushes ++ [push]) = if push.id = key then some push else lastPush key pushes := by
  rw [lastPush, List.filter_append]
  by_cases here : push.id = key
  · simp [here]
  · simp [here, lastPush]

theorem lastLane_append (key : PluginInstanceId) (pushes : List Push) (push : Push) :
    lastLane key (pushes ++ [push]) =
      if push.id = key then push.executionLane.or (lastLane key pushes)
      else lastLane key pushes := by
  rw [lastLane, List.filter_append, List.filterMap_append]
  by_cases here : push.id = key
  · cases named : push.executionLane <;> simp [here, named, lastLane]
  · simp [here, lastLane]

/-- A snapshot after some pushes on an initial one. -/
structure Authored (roots : PluginRoots) (initial : roots.PluginRootSnapshot)
    (pushes : List Push) (final : roots.PluginRootSnapshot) : Prop where
  unique : (roots.ids final).Nodup
  order : roots.ids final =
    roots.ids initial ++ ((pushes.map Push.id).removeAll (roots.ids initial)).eraseDups
  pushed : ∀ key push, lastPush key pushes = some push →
    ∃ one, roots.find key (roots.instances final) = some one ∧
      roots.configuration one = push.configuration ∧ roots.executionLane one =
        (lastLane key pushes).or
          ((roots.find key (roots.instances initial)).bind roots.executionLane)
  kept : ∀ key, key ∉ pushes.map Push.id →
    roots.find key (roots.instances final) = roots.find key (roots.instances initial)
  releases : roots.releases final = roots.releases initial
  disabled : roots.disabled final = roots.disabled initial
  adopted : roots.dependencySelectionAdopted final = roots.dependencySelectionAdopted initial
  choices : roots.dependencyChoices final = roots.dependencyChoices initial

theorem authored_nil {initial : roots.PluginRootSnapshot} (unique : (roots.ids initial).Nodup) :
    Authored roots initial [] initial where
  unique := unique
  order := (List.append_nil _).symm
  pushed := nofun
  kept _ _ := rfl
  releases := rfl
  disabled := rfl
  adopted := rfl
  choices := rfl

/-- What is new is added once. -/
theorem eraseDups_removeAll (known pushed : List PluginInstanceId) (key : PluginInstanceId) :
    ((pushed ++ [key]).removeAll known).eraseDups =
      if key ∈ known ++ (pushed.removeAll known).eraseDups then (pushed.removeAll known).eraseDups
      else (pushed.removeAll known).eraseDups ++ [key] := by
  have split : (pushed ++ [key]).removeAll known = pushed.removeAll known ++
      [key].removeAll known := by
    simp only [List.removeAll, List.filter_append]
  rw [split, List.eraseDups_append]
  by_cases here : key ∈ known
  · simp [here, List.removeAll]
  · by_cases before : key ∈ pushed
    · simp [here, before, List.removeAll, List.mem_eraseDups]
    · simp [here, before, List.removeAll, List.mem_eraseDups, List.eraseDups_cons]

theorem lastPush_eq_none {key : PluginInstanceId} {pushes : List Push}
    (none : lastPush key pushes = none) :
    key ∉ pushes.map Push.id ∧ lastLane key pushes = Option.none := by
  rw [lastPush, List.getLast?_eq_none_iff] at none
  constructor
  · intro member
    obtain ⟨push, inside, same⟩ := List.mem_map.mp member
    exact List.filter_eq_nil_iff.mp none push inside (by simpa using same)
  · rw [lastLane, none]
    rfl

/-- The lane of an id after some pushes, pushed or not. -/
theorem Authored.lane {initial root : roots.PluginRootSnapshot} {pushes : List Push}
    (authored : Authored roots initial pushes root) (key : PluginInstanceId) :
    (roots.find key (roots.instances root)).bind roots.executionLane =
      (lastLane key pushes).or
        ((roots.find key (roots.instances initial)).bind roots.executionLane) := by
  cases last : lastPush key pushes with
  | none =>
      obtain ⟨absent, unnamed⟩ := lastPush_eq_none last
      rw [authored.kept key absent, unnamed, Option.none_or]
  | some push =>
      obtain ⟨one, held, -, lane⟩ := authored.pushed key push last
      rw [held, Option.bind_some, lane]

theorem Authored.append {initial root next : roots.PluginRootSnapshot} {pushes : List Push}
    {push : Push} (authored : Authored roots initial pushes root)
    (pushed : Pushed roots push root next) : Authored roots initial (pushes ++ [push]) next where
  unique := by
    rw [pushed.ids]
    split
    · exact authored.unique
    · next fresh =>
      refine List.nodup_append.mpr ⟨authored.unique, List.nodup_singleton _, ?_⟩
      rintro held member other single rfl
      exact fresh (List.mem_singleton.mp single ▸ member)
  order := by
    rw [pushed.ids, authored.order, List.map_append, List.map_singleton, eraseDups_removeAll]
    split
    · rfl
    · rw [List.append_assoc]
  pushed := by
    intro key last found
    rw [lastPush_append] at found
    rw [lastLane_append]
    by_cases here : push.id = key
    · rw [if_pos here] at found
      cases found
      subst here
      obtain ⟨one, held, configuration, lane⟩ := pushed.written
      refine ⟨one, held, configuration, ?_⟩
      rw [lane, if_pos rfl, Option.or_assoc, authored.lane]
    · rw [if_neg here] at found ⊢
      rw [pushed.others key (Ne.symm here)]
      exact authored.pushed key last found
  kept := by
    intro key absent
    rw [List.map_append, List.mem_append, not_or, List.map_singleton, List.mem_singleton] at absent
    rw [pushed.others key absent.2, authored.kept key absent.1]
  releases := pushed.releases.trans authored.releases
  disabled := pushed.disabled.trans authored.disabled
  adopted := pushed.adopted.trans authored.adopted
  choices := pushed.choices.trans authored.choices

theorem authored_foldl {initial root : roots.PluginRootSnapshot} {before : List Push}
    (authored : Authored roots initial before root) (pushes : List Push) :
    Authored roots initial (before ++ pushes) (pushes.foldl roots.pushInstance root) := by
  induction pushes generalizing before root with
  | nil => rwa [List.append_nil]
  | cons push rest ih =>
      have next := ih (authored.append (pushInstance_pushed root push))
      rwa [List.append_assoc, List.singleton_append] at next

end PluginRoots

namespace NativeWebHost

variable {roots : PluginRoots}

/-- A call that succeeds is one push. -/
theorem apply_eq_ok {host next : NativeWebHost roots} {call : BuilderCall}
    (applied : host.apply call = .ok next) :
    ∃ push, call.push = .ok push ∧ next.root = roots.pushInstance host.root push := by
  unfold apply at applied
  obtain ⟨push, made, rest⟩ := Result.bind_eq_ok.mp applied
  cases rest
  exact ⟨push, made, rfl⟩

/-- The pushes of a sequence of calls. -/
theorem foldlM_apply {host final : NativeWebHost roots} {calls : List BuilderCall}
    (built : calls.foldlM apply host = .ok final) :
    ∃ pushes, calls.mapM BuilderCall.push = .ok pushes ∧
      final.root = pushes.foldl roots.pushInstance host.root := by
  induction calls generalizing host with
  | nil =>
      cases built
      exact ⟨[], rfl, rfl⟩
  | cons call rest ih =>
      rw [List.foldlM_cons] at built
      obtain ⟨next, applied, remaining⟩ := Result.bind_eq_ok.mp built
      obtain ⟨push, made, root⟩ := apply_eq_ok applied
      obtain ⟨pushes, all, reached⟩ := ih remaining
      refine ⟨push :: pushes, ?_, ?_⟩
      · rw [List.mapM_cons]
        exact Result.bind_eq_ok.mpr ⟨push, made, Result.bind_eq_ok.mpr ⟨pushes, all, rfl⟩⟩
      · rw [reached, root, List.foldl_cons]

/-- Any sequence of builder calls on a Plugin Root with unique ids. -/
theorem builders_author_root {host final : NativeWebHost roots} {calls : List BuilderCall}
    (unique : (roots.ids host.root).Nodup) (built : calls.foldlM apply host = .ok final) :
    ∃ pushes, calls.mapM BuilderCall.push = .ok pushes ∧
      PluginRoots.Authored roots host.root pushes final.root := by
  obtain ⟨pushes, made, root⟩ := foldlM_apply built
  refine ⟨pushes, made, ?_⟩
  rw [root]
  exact PluginRoots.authored_foldl (PluginRoots.authored_nil unique) pushes

/-- A root with one instance on a lane and an adopted selection without choices. -/
def stagedHost : NativeWebHost PluginRoots.stored :=
  ⟨([], [⟨⟨lit "orders", instanceKey⟩, emptyConfiguration, some (lit "web")⟩], [lit "old"],
    some []), []⟩

/-- The instance is configured anew and another one is enabled twice. -/
theorem builders_author_root_staged :
    ∃ final pushes, [BuilderCall.pluginWith (lit "orders") (.ok (.bool true)),
        .enable (lit "search"), .pluginOnLane (lit "search") (lit "batch")].foldlM apply
          stagedHost = .ok final ∧
      PluginRoots.Authored PluginRoots.stored stagedHost.root pushes final.root ∧
      PluginRoots.stored.ids final.root =
        [⟨lit "orders", instanceKey⟩, ⟨lit "search", instanceKey⟩] := by
  obtain ⟨final, built, ids⟩ : ∃ final,
      [BuilderCall.pluginWith (lit "orders") (.ok (.bool true)), .enable (lit "search"),
        .pluginOnLane (lit "search") (lit "batch")].foldlM apply stagedHost = .ok final ∧
      PluginRoots.stored.ids final.root =
        [⟨lit "orders", instanceKey⟩, ⟨lit "search", instanceKey⟩] := ⟨_, rfl, by decide +kernel⟩
  have unique : (PluginRoots.stored.ids stagedHost.root).Nodup := List.nodup_singleton _
  obtain ⟨pushes, -, authored⟩ := builders_author_root unique built
  exact ⟨final, pushes, built, authored, ids⟩

end NativeWebHost

end Host
