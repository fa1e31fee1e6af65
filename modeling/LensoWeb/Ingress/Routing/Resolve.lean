import LensoWeb.Foundation.Json
import LensoWeb.Ingress.Manifest
import LensoWeb.Ingress.Routing.Matchit

/-!
# Resolving the route table

Three loops over the bound providers register every described route in one table.
Buffered and streaming providers share a loop body; WebSocket routes are registered
under `GET`. A provider is known by its client and by what its description returned.

The routers of the table are the values of a hash map, so a table is made for any
order in which the map may be visited.
-/

namespace Ingress

open Foundation Http Kernel

/-- The bytes of a `String`. -/
def utf8 (text : Str) : Bytes := text.flatMap String.utf8EncodeChar

/-- `DescribeResponseRoutesItem`, without the documentation it carries. -/
structure DescribedRoute where
  method : Str
  path : Str
  routeId : Str
deriving DecidableEq

/-- `DescribeWebsocketResponseRoutesItem`. -/
structure DescribedWebsocketRoute where
  path : Str
  routeId : Str
deriving DecidableEq

/-- A bound provider and the result of its description. A domain error is known by the
text that `Debug` writes. -/
structure Binding (κ ρ : Type) where
  client : κ
  description : Except (InvocationError String) (List ρ)

/-- What `RouteTable::resolve` is given. -/
structure Bindings (η : Type) where
  invocationContext : η → Except RuntimeFailure Unit
  diagnostics : WebIngressDiagnostics η
  providers : List (Binding (EndpointClient η) DescribedRoute)
  streamProviders : List (Binding (StreamEndpointClient η) DescribedRoute)
  websocketProviders : List (Binding (WebsocketEndpointClient η) DescribedWebsocketRoute)
  websocketPolicy : Option WebSocketConfig

/-- The routers and the manifest entries that the loops have collected. -/
structure Registry (matchit : Matchit) where
  methods : List (Method × matchit.Router)
  manifest : List WebIngressRoute
  distinct : (methods.map Prod.fst).Nodup

variable {matchit : Matchit} {η : Type}

namespace Registry

def empty : Registry matchit := ⟨[], [], List.nodup_nil⟩

/-- The router that `methods.entry(method).or_default()` stands for. -/
def router (registry : Registry matchit) (method : Method) : matchit.Router :=
  (Assoc.find method registry.methods).getD matchit.new

/-- Push the manifest entry and insert the route. -/
def register (registry : Registry matchit) (method : Method) (path routeId : Bytes)
    (provider : RouteProvider) : Except String (Registry matchit) :=
  match matchit.insert (registry.router method) path ⟨routeId, provider⟩ with
  | .error error => .error error
  | .ok router => .ok {
      methods := (method, router) :: Assoc.erase method registry.methods
      manifest := registry.manifest ++ [⟨method.token, path, routeId⟩]
      distinct := by
        have others := registry.distinct
        rw [List.map_cons, List.nodup_cons]
        refine ⟨?_, others.sublist (List.filter_sublist.map Prod.fst)⟩
        intro again
        obtain ⟨entry, member, same⟩ := List.mem_map.mp again
        simp [Assoc.erase, same] at member }

end Registry

/-- The check of a route that the three loops share. -/
def isRoute (routeId path : Str) : Bool :=
  !(Str.trim routeId).isEmpty && path.head? == some '/' && !path.any (lit "?#").contains

/-- One round over the routes of a buffered or streaming provider. -/
def addRoute (label : String) (provider : RouteProvider) (registry : Registry matchit)
    (route : DescribedRoute) : Except RuntimeFailure (Registry matchit) :=
  let method := Str.uppercase (Str.trim route.method)
  let invalid := pluginFailure (label ++ " provider " ++ toString provider.index ++
    " declared an invalid route")
  match Method.fromBytes (utf8 method) with
  | none => .error invalid
  | some token =>
      if !isRoute route.routeId route.path then .error invalid
      else (registry.register token (utf8 route.path) (utf8 route.routeId) provider).mapError
        fun error => pluginFailure ("HTTP route collision for " ++ String.ofList method ++ " " ++
          String.ofList route.path ++ ": " ++ error)

/-- One round over the buffered or the streaming providers. -/
def addProvider {κ : Type} (label : String) (kind : Nat → RouteProvider)
    (registry : Registry matchit) (provider : Binding κ DescribedRoute × Nat) :
    Except RuntimeFailure (Registry matchit) :=
  match provider.1.description with
  | .error (.domain error) => .error (pluginFailure (label ++ " provider " ++
      toString provider.2 ++ " rejected its description: " ++ error))
  | .error (.runtime failure) => .error failure
  | .ok routes => routes.foldlM (addRoute label (kind provider.2)) registry

/-- One round over the routes of a WebSocket provider. -/
def addWebsocketRoute (provider : RouteProvider) (registry : Registry matchit)
    (route : DescribedWebsocketRoute) : Except RuntimeFailure (Registry matchit) :=
  if !isRoute route.routeId route.path then .error (pluginFailure "invalid WebSocket route")
  else (registry.register .get (utf8 route.path) (utf8 route.routeId) provider).mapError
    fun _ => pluginFailure "conflicting WebSocket route"

/-- One round over the WebSocket providers. -/
def addWebsocketProvider {κ : Type} (policy : Option WebSocketConfig)
    (registry : Registry matchit) (provider : Binding κ DescribedWebsocketRoute × Nat) :
    Except RuntimeFailure (Registry matchit) :=
  if policy.isNone then
    .error (pluginFailure "WebSocket routes require explicit transport policy")
  else
    match provider.1.description with
    | .error _ => .error (pluginFailure "WebSocket route description failed")
    | .ok routes => routes.foldlM (addWebsocketRoute (.webSocket provider.2)) registry

/-- The last loop of `resolve`, behind the check that there is an HTTP route. -/
def addWebsockets (bindings : Bindings η) (registry : Registry matchit) :
    Except RuntimeFailure (Registry matchit) :=
  if registry.methods.isEmpty then
    .error (pluginFailure "Web Ingress requires at least one bound HTTP Endpoint route")
  else bindings.websocketProviders.zipIdx.foldlM (addWebsocketProvider bindings.websocketPolicy)
    registry

/-- What `resolve` makes of the bindings: the routers and the manifest. -/
structure Resolution (matchit : Matchit) where
  methods : List (Method × matchit.Router)
  distinct : (methods.map Prod.fst).Nodup
  manifest : WebIngressRouteManifest

/-- `RouteTable::resolve`. -/
def resolve (matchit : Matchit) (bindings : Bindings η) :
    Except RuntimeFailure (Resolution matchit) := do
  let buffered ← bindings.providers.zipIdx.foldlM (addProvider "HTTP Endpoint" .buffered)
    Registry.empty
  let streaming ← bindings.streamProviders.zipIdx.foldlM
    (addProvider "streaming HTTP Endpoint" .streaming) buffered
  let registry ← addWebsockets bindings streaming
  return ⟨registry.methods, registry.distinct, .new registry.manifest⟩

/-- The resolved table, whose hash map is visited in the given order. -/
def Resolution.table (resolution : Resolution matchit) (bindings : Bindings η)
    (visited : List (Method × matchit.Router)) (order : visited.Perm resolution.methods) :
    RouteTable η where
  invocationContext := bindings.invocationContext
  diagnostics := bindings.diagnostics
  providers := bindings.providers.map Binding.client
  streamProviders := bindings.streamProviders.map Binding.client
  websocketProviders := bindings.websocketProviders.map Binding.client
  websocketPolicy := bindings.websocketPolicy
  methods := visited.map fun entry => (entry.1, matchit.find entry.2)
  distinct := by
    rw [List.map_map]
    exact ((order.map Prod.fst).nodup_iff).mpr resolution.distinct

/-! ### What the loops register -/

/-- A route with the provider that declares it. -/
structure Declaration where
  method : Bytes
  path : Bytes
  routeId : Bytes
  provider : RouteProvider
deriving DecidableEq

namespace Declaration

/-- The manifest entry of a declared route. -/
def entry (declaration : Declaration) : WebIngressRoute :=
  ⟨declaration.method, declaration.path, declaration.routeId⟩

/-- What a router keeps of a declared route. -/
def stored (declaration : Declaration) : Bytes × RouteTarget :=
  (declaration.path, ⟨declaration.routeId, declaration.provider⟩)

end Declaration

/-- The routes that a described provider declares. -/
def Binding.routes {κ ρ : Type} (binding : Binding κ ρ) : List ρ :=
  binding.description.toOption.getD []

/-- The declarations of a buffered or streaming provider. -/
def httpDeclarations {κ : Type} (kind : Nat → RouteProvider)
    (provider : Binding κ DescribedRoute × Nat) : List Declaration :=
  provider.1.routes.map fun route => ⟨utf8 (Str.uppercase (Str.trim route.method)),
    utf8 route.path, utf8 route.routeId, kind provider.2⟩

/-- The declarations of a WebSocket provider. -/
def websocketDeclarations {κ : Type} (provider : Binding κ DescribedWebsocketRoute × Nat) :
    List Declaration :=
  provider.1.routes.map fun route =>
    ⟨ascii "GET", utf8 route.path, utf8 route.routeId, .webSocket provider.2⟩

/-- All declared routes. -/
def Bindings.declarations (bindings : Bindings η) : List Declaration :=
  bindings.providers.zipIdx.flatMap (httpDeclarations .buffered) ++
    bindings.streamProviders.zipIdx.flatMap (httpDeclarations .streaming) ++
    bindings.websocketProviders.zipIdx.flatMap websocketDeclarations

/-- The registry holds exactly these declarations. -/
structure Registers (registry : Registry matchit) (declared : List Declaration) : Prop where
  manifest : registry.manifest = declared.map Declaration.entry
  stored : ∀ method, matchit.stored (registry.router method) =
    (declared.filter (·.method = method.token)).map Declaration.stored
  methods : ∀ declaration ∈ declared, ∃ router, ∃ method : Method,
    method.token = declaration.method ∧ (method, router) ∈ registry.methods

theorem registers_empty : Registers (Registry.empty : Registry matchit) [] where
  manifest := rfl
  stored _ := matchit.stored_new
  methods _ member := absurd member List.not_mem_nil

namespace Registry

/-- A router of the table is the one that its method finds. -/
theorem router_of_mem {registry : Registry matchit} {method : Method} {router : matchit.Router}
    (member : (method, router) ∈ registry.methods) : registry.router method = router := by
  rw [Registry.router, Assoc.find_of_mem registry.distinct member, Option.getD_some]

variable {registry next : Registry matchit} {method : Method} {path routeId : Bytes}
  {provider : RouteProvider}

theorem register_ok (registered : registry.register method path routeId provider = .ok next) :
    ∃ router, matchit.insert (registry.router method) path ⟨routeId, provider⟩ = .ok router ∧
      next.methods = (method, router) :: Assoc.erase method registry.methods ∧
      next.manifest = registry.manifest ++ [⟨method.token, path, routeId⟩] := by
  rw [register] at registered
  split at registered
  · cases registered
  · next router inserted =>
    cases registered
    exact ⟨router, inserted, rfl, rfl⟩

end Registry

section Loops

variable {κ : Type} {registry next : Registry matchit} {declared : List Declaration}

/-- Registering a route adds it to its method and leaves the other methods alone. -/
theorem Registers.register {method : Method} {path routeId : Bytes} {provider : RouteProvider}
    (registers : Registers registry declared)
    (registered : registry.register method path routeId provider = .ok next) :
    Registers next (declared ++ [⟨method.token, path, routeId, provider⟩]) := by
  obtain ⟨router, inserted, methods, manifest⟩ := Registry.register_ok registered
  have routed : ∀ name, next.router name =
      if method = name then router else registry.router name := by
    intro name
    rw [Registry.router, methods, Assoc.find_cons, Assoc.find_erase]
    by_cases here : method = name
    · rw [if_pos here, if_pos here, Option.getD_some]
    · rw [if_neg here, if_neg here, if_neg (Ne.symm here), Registry.router]
  refine ⟨?_, fun name => ?_, fun declaration member => ?_⟩
  · rw [manifest, registers.manifest, List.map_append]
    rfl
  · rw [routed, List.filter_append, List.map_append, ← registers.stored name]
    by_cases here : method = name
    · subst here
      rw [if_pos rfl, matchit.stored_insert inserted,
        List.filter_cons_of_pos (by simp), List.filter_nil]
      rfl
    · rw [if_neg here, List.filter_cons_of_neg, List.filter_nil, List.map_nil, List.append_nil]
      rw [decide_eq_true_iff]
      exact fun same => here (Method.ext_token same)
  · rw [methods]
    obtain earlier | rfl := List.mem_append.mp member |>.imp_right List.mem_singleton.mp
    · obtain ⟨old, name, token, inside⟩ := registers.methods declaration earlier
      by_cases here : name = method
      · exact ⟨router, method, here ▸ token, List.mem_cons_self⟩
      · refine ⟨old, name, token, List.mem_cons_of_mem _ ?_⟩
        exact List.mem_filter.mpr ⟨inside, decide_eq_true here⟩
    · exact ⟨router, method, rfl, List.mem_cons_self⟩

theorem token_of_fromBytes {source : Bytes} {method : Method}
    (parsed : Method.fromBytes source = some method) : method.token = source := by
  rw [Method.fromBytes] at parsed
  split at parsed
  · cases parsed
    rfl
  · cases parsed

theorem Registers.addRoute {label : String} {provider : RouteProvider} {route : DescribedRoute}
    (registers : Registers registry declared)
    (added : addRoute label provider registry route = .ok next) :
    Registers next (declared ++ [⟨utf8 (Str.uppercase (Str.trim route.method)), utf8 route.path,
      utf8 route.routeId, provider⟩]) := by
  simp only [Ingress.addRoute] at added
  split at added
  · cases added
  · next method parsed =>
    split at added
    · cases added
    · rw [← token_of_fromBytes parsed]
      exact registers.register (Result.mapError_eq_ok.mp added)

theorem Registers.addProvider {label : String} {kind : Nat → RouteProvider}
    {provider : Binding κ DescribedRoute × Nat} (registers : Registers registry declared)
    (added : addProvider label kind registry provider = .ok next) :
    Registers next (declared ++ httpDeclarations kind provider) := by
  rw [Ingress.addProvider] at added
  split at added
  · cases added
  · cases added
  · next routes described =>
    have collected := Result.foldlM_collects (fun step held => held.addRoute step) added registers
    rw [← List.map_eq_flatMap] at collected
    rwa [httpDeclarations, Binding.routes, described]

theorem Registers.addWebsocketRoute {provider : RouteProvider} {route : DescribedWebsocketRoute}
    (registers : Registers registry declared)
    (added : addWebsocketRoute provider registry route = .ok next) :
    Registers next (declared ++
      [⟨ascii "GET", utf8 route.path, utf8 route.routeId, provider⟩]) := by
  rw [Ingress.addWebsocketRoute] at added
  split at added
  · cases added
  · exact registers.register (Result.mapError_eq_ok.mp added)

theorem Registers.addWebsocketProvider {policy : Option WebSocketConfig}
    {provider : Binding κ DescribedWebsocketRoute × Nat} (registers : Registers registry declared)
    (added : addWebsocketProvider policy registry provider = .ok next) :
    Registers next (declared ++ websocketDeclarations provider) := by
  rw [Ingress.addWebsocketProvider] at added
  split at added
  · cases added
  · split at added
    · cases added
    · next routes described =>
      have collected :=
        Result.foldlM_collects (fun step held => held.addWebsocketRoute step) added registers
      rw [← List.map_eq_flatMap] at collected
      rwa [websocketDeclarations, Binding.routes, described]

end Loops

/-- A resolution comes from a registry that holds all declared routes. -/
theorem resolve_registers {bindings : Bindings η} {resolution : Resolution matchit}
    (resolved : resolve matchit bindings = .ok resolution) :
    ∃ registry : Registry matchit, Registers registry bindings.declarations ∧
      resolution.methods = registry.methods ∧ resolution.manifest = .new registry.manifest := by
  obtain ⟨buffered, first, resolved⟩ := Result.bind_eq_ok.mp resolved
  obtain ⟨streaming, second, resolved⟩ := Result.bind_eq_ok.mp resolved
  obtain ⟨registry, third, resolved⟩ := Result.bind_eq_ok.mp resolved
  cases resolved
  have afterBuffered := Result.foldlM_collects (fun step held => held.addProvider step) first
    registers_empty
  have afterStreaming := Result.foldlM_collects (fun step held => held.addProvider step) second
    afterBuffered
  rw [addWebsockets] at third
  split at third
  · cases third
  · have whole := Result.foldlM_collects (fun step held => held.addWebsocketProvider step) third
      afterStreaming
    exact ⟨registry, whole, rfl, rfl⟩

/-- The provider is one of those that the bindings hold for its kind. -/
def Bindings.HasProvider (bindings : Bindings η) : RouteProvider → Prop
  | .buffered index => index < bindings.providers.length
  | .streaming index => index < bindings.streamProviders.length
  | .webSocket index => index < bindings.websocketProviders.length

/-- Only bound providers declare routes. -/
theorem Bindings.hasProvider_of_mem {bindings : Bindings η} {declaration : Declaration}
    (member : declaration ∈ bindings.declarations) :
    bindings.HasProvider declaration.provider := by
  simp only [Bindings.declarations, List.mem_append, List.mem_flatMap, httpDeclarations,
    websocketDeclarations, List.mem_map] at member
  obtain (⟨bound, inside, route, -, rfl⟩ | ⟨bound, inside, route, -, rfl⟩) |
    ⟨bound, inside, route, -, rfl⟩ := member
  · exact List.snd_lt_of_mem_zipIdx inside
  · exact List.snd_lt_of_mem_zipIdx inside
  · exact List.snd_lt_of_mem_zipIdx inside

end Ingress
