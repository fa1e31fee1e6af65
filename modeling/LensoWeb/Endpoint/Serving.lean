import LensoWeb.Endpoint.Describe
import LensoWeb.Endpoint.Dispatch
import LensoWeb.Ingress.Routing.Exact

/-!
# Serving authored endpoints

An Ingress knows an authored endpoint by its description, and the endpoint knows its
handlers by the id of a route. Between the two stands a router that has merged the routes
of all providers. A request still reaches the handler that is declared with its method and
with a template of its path, and every declared route can be reached.
-/

namespace Endpoint

open Foundation Http Kernel Ingress

/-- What a client makes of a result. -/
def invocationResult :
    EndpointResult → Except (InvocationError HandleError) Ingress.HandleResponse
  | .ok (.ok response) => .ok response
  | .ok (.error error) => .error (.domain error)
  | .error failure => .error (.runtime failure)

/-- The client of an authored endpoint; the runtime opens a context for every invocation. -/
def Expansion.client {η κ ν : Type} (expansion : Expansion) (provider : Provider η κ ν)
    (enter : η → κ) : EndpointClient η := fun request host =>
  (invocationResult <$> expansion.dispatch provider (enter host) request) host

/-- What an Ingress reads of a description. -/
def described (route : OpenApi.Route) : DescribedRoute := ⟨route.method, route.path, route.routeId⟩

section Described

variable [FieldOrder] {library : MacroLibrary} {Value : Ty → Type}
  {types : (ty : Ty) → DataType (Value ty)}

theorem described_of_intoDescription {route : AuthoredRoute} {published : OpenApi.Route}
    (known : route.intoDescription library types = .ok published) :
    described published = route.route.intoDescription := by
  obtain ⟨_, -, known⟩ := Result.bind_eq_ok.mp known
  obtain ⟨_, -, known⟩ := Result.bind_eq_ok.mp known
  cases known
  rfl

/-- The routes of a description are those of the table, in its order. -/
theorem described_of_describe {expansion : Expansion} {response : OpenApi.DescribeResponse}
    (known : expansion.describe library types = .ok response) :
    response.routes.map described =
      expansion.routes.map fun route => route.route.intoDescription := by
  obtain ⟨routes, mapped, known⟩ := Result.bind_eq_ok.mp known
  cases known
  exact Result.map_eq_of_forall₂ (fun _ _ each => described_of_intoDescription each)
    (Result.mapM_eq_ok.mp mapped)

end Described

/-- A declaration of a bound endpoint is one of its routes. -/
theorem mem_declarations_buffered {η : Type} {bindings : Bindings η} {declaration : Declaration}
    {index : Nat} {client : EndpointClient η} {routes : List DescribedRoute}
    (bound : bindings.providers[index]? = some ⟨client, .ok routes⟩)
    (buffered : declaration.provider = .buffered index) :
    declaration ∈ bindings.declarations ↔
      ∃ route ∈ routes, declaration = ⟨utf8 (Str.uppercase (Str.trim route.method)),
        utf8 route.path, utf8 route.routeId, .buffered index⟩ := by
  simp only [Bindings.declarations, List.mem_append, List.mem_flatMap, httpDeclarations,
    websocketDeclarations, List.mem_map]
  constructor
  · rintro ((⟨⟨provider, place⟩, inside, route, member, rfl⟩ | ⟨_, -, _, -, rfl⟩) | ⟨_, -, _, -, rfl⟩)
    · obtain rfl : place = index := RouteProvider.buffered.inj buffered
      have held := List.mem_zipIdx_iff_getElem?.mp inside
      cases held.symm.trans bound
      exact ⟨route, member, rfl⟩
    · cases buffered
    · cases buffered
  · rintro ⟨route, member, rfl⟩
    exact .inl (.inl ⟨(⟨client, .ok routes⟩, index), List.mem_zipIdx_iff_getElem?.mpr bound, route,
      member, rfl⟩)

section Serving

variable [FieldOrder] {η κ ν : Type} {library : MacroLibrary} {Value : Ty → Type}
  {types : (ty : Ty) → DataType (Value ty)} {matchit : Matchit}

/-- A handler is declared for a request with the parameters of a match. -/
structure DeclaredFor (matchit : Matchit) (handler : Handler) (request : InboundRequest)
    (matched : RouteMatch) : Prop where
  method : utf8 handler.route.method = request.method.token
  path : Fills (matchit.pieces (utf8 handler.route.path)) request.path matched.parameters
  routeId : utf8 handler.route.routeId = matched.target.routeId

/-- Every request that the router hands to an authored endpoint is performed by the handler
that is declared for it, and every declared route is served. -/
theorem requests_reach_declared_handler {implementation : ItemImpl} {registers : Bool}
    {expansion : Expansion} {response : OpenApi.DescribeResponse} {provider : Provider η κ ν}
    {enter : η → κ} {bindings : Bindings η} {resolution : Resolution matchit} {index : Nat}
    (expanded : expandEndpoint library implementation registers = .ok expansion)
    (checked : validateEndpointRoutes (expansion.routes.map AuthoredRoute.route) = .ok ())
    (published : expansion.describe library types = .ok response)
    (bound : bindings.providers[index]? =
      some ⟨expansion.client provider enter, .ok (response.routes.map described)⟩)
    (resolved : resolve matchit bindings = .ok resolution) :
    ∃ handlers stripped, readHandlers library implementation = .ok (handlers, stripped) ∧
      (∀ visited (order : visited.Perm resolution.methods) request matched,
        (resolution.table bindings visited order).select request = .ok matched →
        matched.target.provider = .buffered index →
        ∃ handler ∈ handlers, DeclaredFor matchit handler request matched ∧
          (∀ other ∈ handlers, DeclaredFor matchit other request matched → other = handler) ∧
          ∀ host, expansion.client provider enter (RouteTable.handleRequest request matched) host =
            (invocationResult <$> Early.result (handler.perform provider (enter host)
              (RouteTable.handleRequest request matched))) host) ∧
      ∀ handler ∈ handlers, ∀ method path parameters, method.token = utf8 handler.route.method →
        Fills (matchit.pieces (utf8 handler.route.path)) path parameters →
        resolution.Matches method path := by
  obtain ⟨handlers, stripped, read, routes, performs, -⟩ := dispatch_performs provider expanded checked
  have valid := validateEndpointRoutes_iff.mp checked
  rw [routes, List.map_map] at valid
  have canonical : ∀ handler ∈ handlers,
      Str.uppercase (Str.trim handler.route.method) = handler.route.method := fun handler member =>
    canonical_of_validMethod (valid.valid _ (List.mem_map_of_mem member)).method.2
  have declared := holdsDeclared_of_resolve resolved
  have listed := described_of_describe published
  rw [routes, List.map_map] at listed
  refine ⟨handlers, stripped, read, ?_, ?_⟩
  · intro visited order request matched selected buffered
    obtain ⟨_, member, found⟩ := RouteTable.select_ok_iff.mp selected
    obtain ⟨⟨method, router⟩, inside, same⟩ := List.mem_map.mp member
    cases same
    obtain ⟨template, stored, fills⟩ := matchit.find_sound found
    obtain ⟨declaration, among, token, same⟩ :=
      declared.declared _ _ _ (order.mem_iff.mp inside) stored
    obtain ⟨rfl, target⟩ := Prod.mk.inj same
    have kind : declaration.provider = .buffered index := by
      rw [← buffered, ← target]
    obtain ⟨route, here, rfl⟩ := (mem_declarations_buffered bound kind).mp among
    rw [listed] at here
    obtain ⟨handler, held, rfl⟩ := List.mem_map.mp here
    have named : utf8 handler.route.routeId = matched.target.routeId := by
      rw [← target]
      rfl
    refine ⟨handler, held, ⟨?_, fills, named⟩, fun other inside declaredFor => ?_, fun host => ?_⟩
    · rw [← token]
      exact congrArg utf8 (canonical handler held).symm
    · have same := utf8_injective (declaredFor.routeId.trans named.symm)
      have distinct : (handlers.map fun handler => handler.route.routeId).Nodup := by
        have ids := valid.distinctIds
        rw [List.map_map] at ids
        exact ids
      exact List.inj_on_of_nodup_map distinct inside held same
    · rw [Expansion.client, performs handler held _ _ named]
  · intro handler held method path parameters token fills
    have route : handler.route.intoDescription ∈ response.routes.map described := by
      rw [listed]
      exact List.mem_map_of_mem held
    have among := (@mem_declarations_buffered _ _ ⟨_, _, _, .buffered index⟩ _ _ _ bound rfl).mpr
      ⟨_, route, rfl⟩
    obtain ⟨name, router, inside, named, stored⟩ := declared.stored _ among
    have same : name = method := by
      refine Method.ext_token (named.trans ?_)
      rw [token]
      exact congrArg utf8 (canonical handler held)
    subst same
    exact ⟨router, inside, matchit.find_isSome_iff.mpr ⟨_, stored, parameters, fills⟩⟩

end Serving

/-- An Ingress with the one endpoint. -/
def orders (client : EndpointClient (List Str)) : Bindings (List Str) where
  invocationContext _ := .ok ()
  diagnostics _ host := some host
  providers := [⟨client, .ok [⟨lit "GET", lit "/orders/\x7bid\x7d", lit "orders.read"⟩]⟩]
  streamProviders := []
  websocketProviders := []
  websocketPolicy := none

/-- A method with a route attribute and nothing else. -/
def bareOrder : ImplItem :=
  .method ⟨[⟨some (lit "get"), .list [.literal (.str (lit "orders.read")), .punct ',',
    .literal (.str (lit "/orders/\x7bid\x7d"))]⟩], lit "read", [.receiver], none⟩

attribute [local instance] FieldOrder.byInsertion

/-- The declared route of an endpoint is served. -/
theorem requests_reach_declared_handler_bareOrder :
    ∃ client resolution, resolve Matchit.scan (orders client) = .ok resolution ∧
      resolution.Matches .get (ascii "/orders/7") := by
  have expanded : ∃ expansion response,
      expandEndpoint plainLibrary ⟨false, false, [], [bareOrder]⟩ true = .ok expansion ∧
        validateEndpointRoutes (expansion.routes.map AuthoredRoute.route) = .ok () ∧
        expansion.describe plainLibrary orderTypes = .ok response ∧
        expansion.routes.map AuthoredRoute.route =
          [⟨lit "orders.read", lit "GET", lit "/orders/\x7bid\x7d"⟩] ∧
        response.routes.map described =
          [⟨lit "GET", lit "/orders/\x7bid\x7d", lit "orders.read"⟩] :=
    ⟨_, _, rfl, by decide, rfl, rfl, rfl⟩
  obtain ⟨expansion, response, expanded, checked, published, routes, listed⟩ := expanded
  let client := expansion.client countingProvider fun _ => 0
  have resolved : ∃ resolution, resolve Matchit.scan (orders client) = .ok resolution := ⟨_, rfl⟩
  obtain ⟨resolution, resolved⟩ := resolved
  have bound : (orders client).providers[0]? =
      some ⟨client, .ok (response.routes.map described)⟩ := by
    rw [listed]
    rfl
  obtain ⟨handlers, stripped, read, -, served⟩ :=
    requests_reach_declared_handler expanded checked published bound resolved
  refine ⟨client, resolution, resolved, ?_⟩
  obtain ⟨⟨_, _⟩, again, written⟩ := Result.bind_eq_ok.mp expanded
  cases read.symm.trans again
  cases written
  rw [List.map_map] at routes
  have member : (⟨lit "orders.read", lit "GET", lit "/orders/\x7bid\x7d"⟩ : EndpointRoute) ∈
      handlers.map (AuthoredRoute.route ∘ endpointRoute) := by
    rw [routes]
    exact List.mem_singleton_self _
  obtain ⟨handler, held, route⟩ := List.mem_map.mp member
  have declared : handler.route = ⟨lit "orders.read", lit "GET", lit "/orders/\x7bid\x7d"⟩ := route
  have filled : Matchit.fill (Matchit.scan.pieces (utf8 handler.route.path)) (ascii "/orders/7") =
      some [⟨ascii "id", ascii "7"⟩] := by
    rw [declared]
    decide +kernel
  exact served handler held .get _ _ (by rw [declared]; rfl) (Matchit.fills_of_fill filled)

end Endpoint
