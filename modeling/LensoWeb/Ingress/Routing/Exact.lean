import LensoWeb.Ingress.Routing.Invariant
import LensoWeb.Ingress.Routing.Resolve

/-!
# Exact routing

A resolved table holds every declared route under its method, and a request is either
refused by the table as a whole or handed to the provider of the route it matches. What
a dispatch invokes is read off a table whose clients write down every call.
-/

namespace Ingress

open Foundation Http Kernel

variable {η : Type}

namespace RouteTable

/-! ### Selecting a route -/

/-- The router of the method matches the path. -/
def Serves (routes : RouteTable η) (method : Method) (path : Bytes) : Prop :=
  ∃ router, (method, router) ∈ routes.methods ∧ (router path).isSome = true

section Select

variable {routes : RouteTable η} {request : InboundRequest} {path : Bytes}

theorem mem_allowedMethods {method : Method} :
    method ∈ routes.allowedMethods path ↔ routes.Serves method path := by
  rw [allowedMethods, List.mem_mergeSort, List.mem_map]
  constructor
  · rintro ⟨⟨name, router⟩, member, rfl⟩
    obtain ⟨inside, serves⟩ := List.mem_filter.mp member
    exact ⟨router, inside, serves⟩
  · rintro ⟨router, inside, serves⟩
    exact ⟨(method, router), List.mem_filter.mpr ⟨inside, serves⟩, rfl⟩

/-- Distinct methods have distinct names, so no two of the sorted names are equal. -/
theorem allowedMethods_sorted : (routes.allowedMethods path).Pairwise
    fun left right => Text.codes left.token < Text.codes right.token := by
  have sorted : (routes.allowedMethods path).Pairwise
      fun left right => decide (Text.codes left.token ≤ Text.codes right.token) = true := by
    refine List.pairwise_mergeSort (fun first second third below above => ?_)
      (fun first second => ?_) _
    · rw [decide_eq_true_iff] at below above ⊢
      exact below.trans above
    · rw [Bool.or_eq_true, decide_eq_true_iff, decide_eq_true_iff]
      exact le_total _ _
  have distinct : (routes.allowedMethods path).Nodup := by
    rw [allowedMethods, (List.mergeSort_perm _ _).nodup_iff]
    exact routes.distinct.sublist (List.filter_sublist.map Prod.fst)
  refine (sorted.and distinct).imp fun {left right} ordered => ?_
  refine lt_of_le_of_ne (of_decide_eq_true ordered.1) fun same => ?_
  exact ordered.2 (Method.ext_token (Text.codes_injective same))

theorem lookup_iff {method : Method} {router : Router} :
    routes.methods.lookup method = some router ↔ (method, router) ∈ routes.methods := by
  have same : ∀ methods : List (Method × Router),
      methods.lookup method = Assoc.find method methods := by
    intro methods
    induction methods with
    | nil => rfl
    | cons entry rest ih =>
        rw [List.lookup_cons, Assoc.find_cons, ih]
        by_cases here : entry.1 = method
        · simp [here]
        · rw [beq_eq_false_iff_ne.mpr (Ne.symm here), if_neg here]
  rw [same]
  exact ⟨Assoc.mem_of_find, Assoc.find_of_mem routes.distinct⟩

theorem select_of_serves {router : Router} {matched : RouteMatch}
    (member : (request.method, router) ∈ routes.methods)
    (found : router request.path = some matched) : routes.select request = .ok matched := by
  rw [select, lookup_iff.mpr member]
  simp only [found]

theorem select_of_not_serves (unserved : ¬ routes.Serves request.method request.path) :
    routes.select request = .error (routes.unmatched request.path) := by
  rw [select]
  rcases looked : routes.methods.lookup request.method with _ | router
  · rfl
  · rcases found : router request.path with _ | matched
    · simp only [found]
    · have served : (router request.path).isSome = true := by rw [found, Option.isSome_some]
      exact absurd ⟨router, lookup_iff.mp looked, served⟩ unserved

/-- A match is found exactly by the router of the request's method. -/
theorem select_ok_iff {matched : RouteMatch} : routes.select request = .ok matched ↔
    ∃ router, (request.method, router) ∈ routes.methods ∧
      router request.path = some matched := by
  constructor
  · intro selected
    by_cases served : routes.Serves request.method request.path
    · obtain ⟨router, member, matches_⟩ := served
      obtain ⟨other, found⟩ := Option.isSome_iff_exists.mp matches_
      rw [select_of_serves member found] at selected
      cases selected
      exact ⟨router, member, found⟩
    · rw [select_of_not_serves served] at selected
      cases selected
  · rintro ⟨router, member, found⟩
    exact select_of_serves member found

theorem unmatched_eq_notFound_iff : routes.unmatched path = .notFound ↔
    ∀ method, ¬ routes.Serves method path := by
  simp only [unmatched, ← mem_allowedMethods]
  rcases routes.allowedMethods path with _ | ⟨first, rest⟩
  · simp
  · simp only [List.isEmpty_cons, Bool.false_eq_true, if_false, reduceCtorEq, false_iff,
      not_forall, not_not]
    exact ⟨first, List.mem_cons_self⟩

theorem unmatched_eq_methodNotAllowed_iff {allowed : List Method} :
    routes.unmatched path = .methodNotAllowed allowed ↔
      allowed = routes.allowedMethods path ∧ ∃ method, routes.Serves method path := by
  simp only [unmatched, ← mem_allowedMethods]
  rcases routes.allowedMethods path with _ | ⟨first, rest⟩
  · simp
  · simp only [List.isEmpty_cons, Bool.false_eq_true, if_false, DispatchError.methodNotAllowed.injEq]
    constructor
    · rintro rfl
      exact ⟨rfl, first, List.mem_cons_self⟩
    · rintro ⟨rfl, -⟩
      rfl

theorem select_error_iff {error : DispatchError} : routes.select request = .error error ↔
    ¬ routes.Serves request.method request.path ∧ routes.unmatched request.path = error := by
  constructor
  · intro refused
    have unserved : ¬ routes.Serves request.method request.path := by
      rintro ⟨router, member, served⟩
      obtain ⟨matched, found⟩ := Option.isSome_iff_exists.mp served
      rw [select_of_serves member found] at refused
      cases refused
    rw [select_of_not_serves unserved] at refused
    cases refused
    exact ⟨unserved, rfl⟩
  · rintro ⟨unserved, rfl⟩
    exact select_of_not_serves unserved

end Select

/-! ### What a dispatch reports -/

/-- Any error is one that the table as a whole does not report. -/
def Routed {α : Type} (result : Except DispatchError α) : Prop :=
  ∀ error, result = .error error → error ≠ .notFound ∧ ∀ allowed, error ≠ .methodNotAllowed allowed

theorem routed_ok {α : Type} (value : α) : Routed (.ok value) := nofun

section Reports

variable (routes : RouteTable η) (request : InboundRequest) (matched : RouteMatch)

/-- An error that the provider calls report. -/
theorem routed_error {α : Type} {error : DispatchError} (other : error ≠ .notFound)
    (allows : ∀ allowed, error ≠ .methodNotAllowed allowed) :
    Routed (.error error : Except DispatchError α) := by
  rintro _ ⟨⟩
  exact ⟨other, allows⟩

theorem runtimeDispatchError_routed {α : Type} (event : WebIngressEndpointFailure) :
    (do return .error (← routes.runtimeDispatchError event) :
      Task (World η) (Except DispatchError α)).Yields Routed := by
  simp only [runtimeDispatchError, bind_assoc, pure_bind]
  refine .bind fun _ => .pure ?_
  split
  · exact routed_error nofun nofun
  · exact routed_error nofun nofun

theorem refused_routed {α : Type} (stream : StreamId) :
    (do World.cancel stream; return .error .rejected :
      Task (World η) (Except DispatchError α)).Yields Routed :=
  .bind fun _ => .pure (routed_error nofun nofun)

theorem invokeBuffered_routed (index : Nat) :
    (routes.invokeBuffered request matched index).Yields Routed := by
  refine .bind fun provider => .bind fun invoked => ?_
  obtain (error | failure) | response := invoked
  · exact .pure (routed_error nofun nofun)
  · exact routes.runtimeDispatchError_routed _
  · exact .pure (routed_ok _)

theorem receiveHead_routed (stream : StreamId) (events : List ResponseEvent) :
    (routes.receiveHead request matched stream events).Yields Routed := by
  induction events with
  | nil => exact .never
  | cons event rest ih =>
      obtain failure | frame | _ | result := event
      · exact routes.runtimeDispatchError_routed _
      · rw [receiveHead]
        split
        · exact .pure (routed_ok _)
        · exact refused_routed stream
      · exact ih
      · exact refused_routed stream

theorem invokeStreaming_routed (index : Nat) :
    (routes.invokeStreaming request matched index).Yields Routed := by
  refine .bind fun provider => .bind fun invoked => ?_
  obtain (error | failure) | events := invoked
  · exact .pure (routed_error nofun nofun)
  · exact routes.runtimeDispatchError_routed _
  · refine .bind fun stream => ?_
    refine .bind_of (routes.receiveHead_routed request matched stream events) ?_
    intro received routed
    obtain error | ⟨head, rest⟩ := received
    · refine .pure ?_
      obtain ⟨other, allows⟩ := routed error rfl
      exact routed_error other allows
    · dsimp only
      split
      · exact .pure (routed_ok _)
      · exact refused_routed stream

theorem connectError_routed (error : ConnectWebsocketError) :
    Routed (.error (connectError error) : Except DispatchError DispatchResponse) := by
  cases error <;> exact routed_error nofun nofun

theorem invokeWebSocket_routed (index : Nat) (handshake : Option Handshake) :
    (routes.invokeWebSocket request matched index handshake).Yields Routed := by
  cases handshake with
  | none => exact .pure (routed_error nofun nofun)
  | some handshake =>
      rw [invokeWebSocket]
      split
      · exact .pure (routed_error nofun nofun)
      · refine .bind fun provider => .bind fun invoked => ?_
        obtain (error | failure) | events := invoked
        · exact .pure (connectError_routed error)
        · exact routes.runtimeDispatchError_routed _
        · refine .bind fun stream => ?_
          cases routes.websocketPolicy with
          | none => exact .pure (routed_error nofun nofun)
          | some policy =>
              refine .bind fun session => .pure ?_
              cases session with
              | error failure => exact routed_error nofun nofun
              | ok session => exact routed_ok _

/-- A request that selects a route is not reported as one that matches none. -/
theorem dispatch_routed (handshake : Option Handshake)
    (selected : routes.select request = .ok matched) :
    (routes.dispatch request handshake).Yields Routed := by
  rw [dispatch, selected]
  refine .bind fun context => ?_
  cases context with
  | error failure => exact .bind fun _ => .pure (routed_error nofun nofun)
  | ok _ =>
      dsimp only
      split
      · exact routes.invokeWebSocket_routed request matched _ handshake
      · exact routes.invokeBuffered_routed request matched _
      · exact routes.invokeStreaming_routed request matched _

/-- The errors of the table as a whole are reported exactly where no route is selected. -/
theorem dispatch_error_iff {handshake : Option Handshake} {error : DispatchError}
    (whole : error = .notFound ∨ ∃ allowed, error = .methodNotAllowed allowed)
    (world : World η) :
    (routes.dispatch request handshake world).1 = .ready (.error error) ↔
      routes.select request = .error error := by
  rcases selected : routes.select request with refused | matched
  · have ended : routes.dispatch request handshake = pure (.error refused) := by
      rw [dispatch, selected]
    rw [ended, Task.pure_apply]
    simp
  · refine iff_of_false (fun reported => ?_) nofun
    have routed := routes.dispatch_routed request matched handshake selected world _ _
      (Prod.ext reported rfl)
    obtain ⟨other, allows⟩ := routed error rfl
    obtain rfl | ⟨allowed, rfl⟩ := whole
    · exact other rfl
    · exact allows allowed rfl

end Reports

/-! ### What a dispatch invokes -/

/-- One call of a provider. -/
inductive Invocation where
  | buffered (index : Nat) (request : HandleRequest)
  | streaming (index : Nat) (request : HandleRequest)
  | webSocket (index : Nat) (request : ConnectWebsocketRequest)
deriving DecidableEq

/-- The client writes its call down and makes it. -/
def record {ρ α : Type} (client : ρ → Task η α) (invocation : ρ → Invocation) :
    ρ → Task (η × List Invocation) α := fun request host =>
  ((client request host.1).1, ((client request host.1).2, host.2 ++ [invocation request]))

/-- The same table, with clients that write their calls down. -/
def recorded (routes : RouteTable η) : RouteTable (η × List Invocation) where
  invocationContext host := routes.invocationContext host.1
  diagnostics event host := (routes.diagnostics event host.1).map (·, host.2)
  providers := routes.providers.mapIdx fun index client => record client (.buffered index)
  streamProviders := routes.streamProviders.mapIdx fun index client =>
    record client (.streaming index)
  websocketProviders := routes.websocketProviders.mapIdx fun index client =>
    record client (.webSocket index)
  websocketPolicy := routes.websocketPolicy
  methods := routes.methods
  distinct := routes.distinct

/-- The calls for a matched request: one, unless a WebSocket route is requested without
a handshake or with a body. -/
def invocations (request : InboundRequest) (handshake : Option Handshake) (matched : RouteMatch) :
    List Invocation :=
  match matched.target.provider with
  | .buffered index => [.buffered index (handleRequest request matched)]
  | .streaming index => [.streaming index (handleRequest request matched)]
  | .webSocket index =>
      match handshake with
      | none => []
      | some handshake =>
          if request.body = [] then
            [.webSocket index (connectWebsocketRequest request matched handshake.protocols)]
          else []

/-- The provider is one of those that the table holds for its kind. -/
def HasProvider (routes : RouteTable η) : RouteProvider → Prop
  | .buffered index => index < routes.providers.length
  | .streaming index => index < routes.streamProviders.length
  | .webSocket index => index < routes.websocketProviders.length

/-- The calls written down so far. -/
def Noted (log : List Invocation) (world : World (η × List Invocation)) : Prop :=
  world.host.2 = log

section Records

variable {routes : RouteTable η} {log : List Invocation}

theorem observeFailure_notes (event : WebIngressEndpointFailure) :
    (routes.recorded.observeFailure event).Keeps (Noted log) := by
  intro world noted
  have host : (routes.recorded.endpointRuntimeFailure event world.host).2.2 = world.host.2 := by
    simp only [endpointRuntimeFailure, recorded]
    rcases routes.diagnostics event world.host.1 with _ | host
    · rfl
    · rfl
  exact host.trans noted

theorem preserves_noted (routes : RouteTable η) : routes.recorded.Preserves (Noted log) where
  observeFailure := observeFailure_notes
  cancel _ _ noted := noted
  openStream _ noted := noted

/-- A call of the host that notes something, followed by steps that note nothing. -/
theorem noted_onHost_bind {α β : Type} {call : Task (η × List Invocation) α}
    {rest : α → Task (World (η × List Invocation)) β} {world : World (η × List Invocation)}
    (called : (call world.host).2.2 = log) (quiet : ∀ value, (rest value).Keeps (Noted log)) :
    Noted log ((World.onHost call >>= rest) world).2 := by
  rw [Task.bind_apply, World.onHost_apply]
  rcases ended : call world.host with ⟨_ | _ | _, host⟩
  · apply quiet _ _
    rw [ended] at called
    exact called
  · rw [ended] at called
    exact called
  · rw [ended] at called
    exact called

variable {request : InboundRequest} {matched : RouteMatch} {world : World (η × List Invocation)}

theorem invokeBuffered_notes {index : Nat} (bound : index < routes.providers.length) :
    Noted (world.host.2 ++ [.buffered index (handleRequest request matched)])
      (routes.recorded.invokeBuffered request matched index world).2 := by
  have client : routes.recorded.providers[index]? =
      some (record routes.providers[index] (.buffered index)) := by
    simp [recorded, bound]
  rw [invokeBuffered, client]
  refine noted_onHost_bind rfl fun invoked => ?_
  obtain (error | failure) | response := invoked
  · exact .pure _
  · exact .bind ((preserves_noted routes).runtimeDispatchError _) fun _ => .pure _
  · exact .pure _

theorem invokeStreaming_notes {index : Nat} (bound : index < routes.streamProviders.length) :
    Noted (world.host.2 ++ [.streaming index (handleRequest request matched)])
      (routes.recorded.invokeStreaming request matched index world).2 := by
  have client : routes.recorded.streamProviders[index]? =
      some (record routes.streamProviders[index] (.streaming index)) := by
    simp [recorded, bound]
  rw [invokeStreaming, client]
  refine noted_onHost_bind rfl fun invoked => ?_
  obtain (error | failure) | events := invoked
  · exact .pure _
  · exact .bind ((preserves_noted routes).runtimeDispatchError _) fun _ => .pure _
  · exact .bind (preserves_noted routes).openStream fun stream =>
      (preserves_noted routes).awaitHead request matched stream events

theorem invokeWebSocket_notes {index : Nat} {handshake : Handshake} (empty : request.body = [])
    (bound : index < routes.websocketProviders.length) :
    Noted (world.host.2 ++
        [.webSocket index (connectWebsocketRequest request matched handshake.protocols)])
      (routes.recorded.invokeWebSocket request matched index (some handshake) world).2 := by
  have client : routes.recorded.websocketProviders[index]? =
      some (record routes.websocketProviders[index] (.webSocket index)) := by
    simp [recorded, bound]
  simp only [invokeWebSocket, empty, List.isEmpty_nil, Bool.not_true, Bool.false_eq_true, if_false,
    client]
  refine noted_onHost_bind rfl fun invoked => ?_
  obtain (error | failure) | events := invoked
  · exact .pure _
  · exact .bind ((preserves_noted routes).runtimeDispatchError _) fun _ => .pure _
  · refine .bind (preserves_noted routes).openStream fun stream => ?_
    split
    · exact .pure _
    · exact .bind ((preserves_noted routes).acceptSession stream _ _ events) fun _ => .pure _

/-- A dispatch makes exactly the calls for the matched request. -/
theorem dispatch_notes (handshake : Option Handshake)
    (selected : routes.select request = .ok matched)
    (context : routes.invocationContext world.host.1 = .ok ())
    (bound : routes.HasProvider matched.target.provider) :
    Noted (world.host.2 ++ invocations request handshake matched)
      (routes.recorded.dispatch request handshake world).2 := by
  have opened : World.onHost routes.recorded.invocationContextAfter world =
      (.ready (.ok ()), world) := by
    rw [World.onHost_apply, invocationContextAfter]
    simp only [recorded, context]
  have same : routes.recorded.select request = .ok matched := selected
  simp only [dispatch, same]
  rw [Task.bind_of_ready opened, invocations]
  rcases kind : matched.target.provider with index | index | index
  · rw [kind] at bound
    exact invokeBuffered_notes bound
  · rw [kind] at bound
    exact invokeStreaming_notes bound
  · rw [kind] at bound
    rcases handshake with _ | handshake
    · exact (List.append_nil _).symm
    · by_cases empty : request.body = []
      · simp only [if_pos empty]
        exact invokeWebSocket_notes empty bound
      · have refused : (!request.body.isEmpty) = true := by
          rw [Bool.not_eq_true', List.isEmpty_eq_false_iff]
          exact empty
        simp only [invokeWebSocket, if_neg empty, if_pos refused]
        exact (List.append_nil _).symm

/-- Without an invocation context no provider is called. -/
theorem dispatch_notes_nothing (handshake : Option Handshake) {failure : RuntimeFailure}
    (context : routes.invocationContext world.host.1 = .error failure) :
    Noted world.host.2 (routes.recorded.dispatch request handshake world).2 := by
  rcases selected : routes.recorded.select request with refused | matched
  · simp only [dispatch, selected]
    rfl
  · have closed : World.onHost routes.recorded.invocationContextAfter world =
        (.ready (.error failure), world) := by
      rw [World.onHost_apply, invocationContextAfter]
      simp only [recorded, context]
    simp only [dispatch, selected]
    rw [Task.bind_of_ready closed]
    exact Task.Keeps.bind (observeFailure_notes _) (fun _ => .pure _) world rfl

end Records

end RouteTable

/-! ### Resolved tables -/

open RouteTable

variable {matchit : Matchit}

/-- The router of the method matches the path. -/
def Resolution.Matches (resolution : Resolution matchit) (method : Method) (path : Bytes) : Prop :=
  ∃ router, (method, router) ∈ resolution.methods ∧ (matchit.find router path).isSome = true

/-- The resolution holds the declared routes and no others. -/
structure HoldsDeclared (bindings : Bindings η) (resolution : Resolution matchit) : Prop where
  sorted : resolution.manifest.routes.Pairwise (· ≤ ·)
  manifest : resolution.manifest.routes.Perm (bindings.declarations.map Declaration.entry)
  bound : ∀ method router entry, (method, router) ∈ resolution.methods →
    entry ∈ matchit.stored router → bindings.HasProvider entry.2.provider
  stored : ∀ declaration ∈ bindings.declarations, ∃ method router,
    (method, router) ∈ resolution.methods ∧ method.token = declaration.method ∧
      declaration.stored ∈ matchit.stored router
  declared : ∀ method router entry, (method, router) ∈ resolution.methods →
    entry ∈ matchit.stored router → ∃ declaration ∈ bindings.declarations,
      declaration.method = method.token ∧ declaration.stored = entry

theorem holdsDeclared_of_resolve {bindings : Bindings η} {resolution : Resolution matchit}
    (resolved : resolve matchit bindings = .ok resolution) :
    HoldsDeclared bindings resolution := by
  obtain ⟨registry, registers, methods, manifest⟩ := resolve_registers resolved
  have declared : ∀ method router entry, (method, router) ∈ resolution.methods →
      entry ∈ matchit.stored router → ∃ declaration ∈ bindings.declarations,
        declaration.method = method.token ∧ declaration.stored = entry := by
    intro method router entry member inside
    rw [methods] at member
    rw [← Registry.router_of_mem member, registers.stored] at inside
    obtain ⟨declaration, chosen, rfl⟩ := List.mem_map.mp inside
    obtain ⟨among, token⟩ := List.mem_filter.mp chosen
    exact ⟨declaration, among, of_decide_eq_true token, rfl⟩
  refine ⟨resolution.manifest.sorted, ?_, ?_, ?_, declared⟩
  · rw [manifest, ← registers.manifest]
    exact WebIngressRouteManifest.routes_new_perm _
  · intro method router entry member inside
    obtain ⟨declaration, among, -, rfl⟩ := declared method router entry member inside
    exact Bindings.hasProvider_of_mem among
  · intro declaration among
    obtain ⟨router, method, token, member⟩ := registers.methods declaration among
    refine ⟨method, router, methods ▸ member, token, ?_⟩
    rw [← Registry.router_of_mem member, registers.stored]
    refine List.mem_map.mpr ⟨declaration, List.mem_filter.mpr ⟨among, ?_⟩, rfl⟩
    exact decide_eq_true token.symm

section Table

variable {bindings : Bindings η} {resolution : Resolution matchit}
  {visited : List (Method × matchit.Router)} {order : visited.Perm resolution.methods}

theorem table_serves_iff {method : Method} {path : Bytes} :
    (resolution.table bindings visited order).Serves method path ↔
      resolution.Matches method path := by
  constructor
  · rintro ⟨router, member, served⟩
    obtain ⟨⟨name, inner⟩, inside, same⟩ := List.mem_map.mp member
    cases same
    exact ⟨inner, order.mem_iff.mp inside, served⟩
  · rintro ⟨router, member, found⟩
    exact ⟨matchit.find router, List.mem_map.mpr ⟨_, order.mem_iff.mpr member, rfl⟩, found⟩

theorem table_select_of_find {request : InboundRequest} {router : matchit.Router}
    {matched : RouteMatch} (member : (request.method, router) ∈ resolution.methods)
    (found : matchit.find router request.path = some matched) :
    (resolution.table bindings visited order).select request = .ok matched :=
  select_of_serves (List.mem_map.mpr ⟨_, order.mem_iff.mpr member, rfl⟩) found

theorem table_hasProvider_iff {provider : RouteProvider} :
    (resolution.table bindings visited order).HasProvider provider ↔
      bindings.HasProvider provider := by
  cases provider <;> simp [RouteTable.HasProvider, Bindings.HasProvider, Resolution.table]

/-- Waiting for the head frame reads nothing of the table but its observer. -/
theorem receiveHead_congr {routes other : RouteTable η}
    (same : routes.diagnostics = other.diagnostics) : routes.receiveHead = other.receiveHead := by
  have observed : routes.endpointRuntimeFailure = other.endpointRuntimeFailure := by
    funext event host
    simp only [endpointRuntimeFailure, same]
  have error : routes.runtimeDispatchError = other.runtimeDispatchError := by
    funext event
    simp only [runtimeDispatchError, observeFailure, observed]
  funext request matched stream events
  induction events with
  | nil => rfl
  | cons event rest ih =>
      obtain failure | frame | _ | result := event
      · simp only [receiveHead, error]
      · rfl
      · exact ih
      · rfl

/-- Two strictly sorted lists of the same methods are equal. -/
theorem eq_of_sorted {left right : List Method}
    (leftSorted : left.Pairwise fun first second =>
      Text.codes first.token < Text.codes second.token)
    (rightSorted : right.Pairwise fun first second =>
      Text.codes first.token < Text.codes second.token)
    (same : ∀ method, method ∈ left ↔ method ∈ right) : left = right := by
  have apart : ∀ first second : Method, Text.codes first.token < Text.codes second.token →
      first ≠ second := by
    rintro first second below rfl
    exact lt_irrefl _ below
  have perm : left.Perm right := (List.perm_ext_iff_of_nodup
    (leftSorted.imp fun {a b} => apart a b) (rightSorted.imp fun {a b} => apart a b)).mpr same
  exact perm.eq_of_pairwise (fun first second _ _ below above =>
    absurd (below.trans above) (lt_irrefl _)) leftSorted rightSorted

theorem table_mem_allowedMethods {method : Method} {path : Bytes} :
    method ∈ (resolution.table bindings visited order).allowedMethods path ↔
      resolution.Matches method path := by
  rw [mem_allowedMethods, table_serves_iff]

/-- The order in which the hash map is visited does not show. -/
theorem table_dispatch_eq {other : List (Method × matchit.Router)}
    {reorder : other.Perm resolution.methods} :
    (resolution.table bindings visited order).dispatch =
      (resolution.table bindings other reorder).dispatch := by
  have allowed : ∀ path, (resolution.table bindings visited order).allowedMethods path =
      (resolution.table bindings other reorder).allowedMethods path := by
    intro path
    refine eq_of_sorted allowedMethods_sorted allowedMethods_sorted fun method => ?_
    rw [table_mem_allowedMethods, table_mem_allowedMethods]
  funext request handshake
  have selected : (resolution.table bindings visited order).select request =
      (resolution.table bindings other reorder).select request := by
    by_cases served : resolution.Matches request.method request.path
    · obtain ⟨router, member, found⟩ := served
      obtain ⟨matched, found⟩ := Option.isSome_iff_exists.mp found
      rw [table_select_of_find member found, table_select_of_find member found]
    · rw [select_of_not_serves (mt table_serves_iff.mp served),
        select_of_not_serves (mt table_serves_iff.mp served), unmatched, unmatched, allowed]
  have head : (resolution.table bindings visited order).receiveHead =
      (resolution.table bindings other reorder).receiveHead := receiveHead_congr rfl
  have streaming : (resolution.table bindings visited order).invokeStreaming =
      (resolution.table bindings other reorder).invokeStreaming := by
    funext request matched index
    simp only [invokeStreaming, awaitHead, head]
    rfl
  rw [dispatch, dispatch, selected, streaming]
  rfl

end Table

/-- Dispatch through a resolved table. The table's clients write down their calls, and
`visited` is the order in which its hash map happens to be visited. -/
structure DispatchesExactly (bindings : Bindings η) (resolution : Resolution matchit)
    (visited : List (Method × matchit.Router)) (order : visited.Perm resolution.methods)
    (request : InboundRequest) (handshake : Option Handshake)
    (world : World (η × List Invocation)) : Prop where
  notFound : ((resolution.table bindings visited order).recorded.dispatch
      request handshake world).1 = .ready (.error .notFound) ↔
    ∀ method, ¬ resolution.Matches method request.path
  methodNotAllowed : ∀ allowed, ((resolution.table bindings visited order).recorded.dispatch
      request handshake world).1 = .ready (.error (.methodNotAllowed allowed)) ↔
    ¬ resolution.Matches request.method request.path ∧
      (∃ method, resolution.Matches method request.path) ∧
      (allowed.Pairwise fun left right => Text.codes left.token < Text.codes right.token) ∧
      ∀ method, method ∈ allowed ↔ resolution.Matches method request.path
  alternatives : ∀ allowed, ((resolution.table bindings visited order).recorded.dispatch
      request handshake world).1 = .ready (.error (.methodNotAllowed allowed)) →
    allowed ≠ [] ∧ request.method ∉ allowed
  matched : ∀ router matched, (request.method, router) ∈ resolution.methods →
    matchit.find router request.path = some matched →
    (∃ template, (template, matched.target) ∈ matchit.stored router ∧
      Fills (matchit.pieces template) request.path matched.parameters) ∧
    ((resolution.table bindings visited order).recorded.dispatch request handshake world).2.host.2 =
      world.host.2 ++ if (bindings.invocationContext world.host.1).isOk
        then invocations request handshake matched else []
  order_irrelevant : ∀ other (reorder : other.Perm resolution.methods),
    (resolution.table bindings visited order).dispatch request handshake =
      (resolution.table bindings other reorder).dispatch request handshake

/-- Every declared route is registered, and every request is answered by the table as a
whole or handed to the provider of the route it matches. -/
theorem resolve_routes_exactly {bindings : Bindings η} {resolution : Resolution matchit}
    (resolved : resolve matchit bindings = .ok resolution) :
    HoldsDeclared bindings resolution ∧
      ∀ visited (order : visited.Perm resolution.methods) request handshake world,
        DispatchesExactly bindings resolution visited order request handshake world := by
  have holds := holdsDeclared_of_resolve resolved
  refine ⟨holds, fun visited order request handshake world => ?_⟩
  have refused : ∀ allowed, ((resolution.table bindings visited order).recorded.dispatch
      request handshake world).1 = .ready (.error (.methodNotAllowed allowed)) ↔
        ¬ resolution.Matches request.method request.path ∧
        (∃ method, resolution.Matches method request.path) ∧
        (allowed.Pairwise fun left right => Text.codes left.token < Text.codes right.token) ∧
        ∀ method, method ∈ allowed ↔ resolution.Matches method request.path := by
    intro allowed
    rw [dispatch_error_iff _ request (.inr ⟨allowed, rfl⟩)]
    show (resolution.table bindings visited order).select request = _ ↔ _
    simp only [select_error_iff, unmatched_eq_methodNotAllowed_iff, table_serves_iff]
    constructor
    · rintro ⟨unserved, rfl, somewhere⟩
      exact ⟨unserved, somewhere, allowedMethods_sorted, fun _ => table_mem_allowedMethods⟩
    · rintro ⟨unserved, somewhere, sorted, exactly⟩
      refine ⟨unserved, eq_of_sorted sorted allowedMethods_sorted fun method => ?_, somewhere⟩
      rw [exactly, table_mem_allowedMethods]
  refine ⟨?_, refused, ?_, ?_, ?_⟩
  · rw [dispatch_error_iff _ request (.inl rfl)]
    show (resolution.table bindings visited order).select request = _ ↔ _
    simp only [select_error_iff, unmatched_eq_notFound_iff, table_serves_iff]
    exact ⟨And.right, fun nowhere => ⟨nowhere request.method, nowhere⟩⟩
  · intro allowed reported
    obtain ⟨unserved, ⟨method, serves⟩, -, exactly⟩ := (refused allowed).mp reported
    refine ⟨?_, fun inside => unserved ((exactly _).mp inside)⟩
    rintro rfl
    exact absurd ((exactly method).mpr serves) List.not_mem_nil
  · intro router matched member found
    obtain ⟨template, stored, fills⟩ := matchit.find_sound found
    refine ⟨⟨template, stored, fills⟩, ?_⟩
    rcases context : bindings.invocationContext world.host.1 with failure | ⟨⟩
    · rw [if_neg (by simp [Except.isOk, Except.toBool]), List.append_nil]
      exact dispatch_notes_nothing handshake context
    · have opened : (Except.ok () : Except RuntimeFailure Unit).isOk = true := rfl
      rw [if_pos opened]
      have bound := holds.bound _ _ _ member stored
      exact dispatch_notes handshake (table_select_of_find member found) context
        (table_hasProvider_iff.mpr bound)
  · intro other reorder
    rw [table_dispatch_eq]

/-- A provider with an HTTP route, and one with a WebSocket route. -/
def shop : Bindings Unit where
  invocationContext _ := .ok ()
  diagnostics _ host := some host
  providers := [⟨fun _ => pure (.ok ⟨[], [], 200⟩),
    .ok [⟨lit " get ", lit "/items/\x7bid\x7d", lit "item"⟩]⟩]
  streamProviders := []
  websocketProviders := [⟨fun _ => pure (.ok []), .ok [⟨lit "/chat", lit "chat"⟩]⟩]
  websocketPolicy := some ⟨[], 1, 1⟩

/-- What `resolve` makes of it. -/
def shopResolution : Resolution Matchit.scan where
  methods := [(.get, [(ascii "/items/\x7bid\x7d", ⟨ascii "item", .buffered 0⟩),
    (ascii "/chat", ⟨ascii "chat", .webSocket 0⟩)])]
  distinct := by decide
  manifest := .new [⟨ascii "GET", ascii "/items/\x7bid\x7d", ascii "item"⟩,
    ⟨ascii "GET", ascii "/chat", ascii "chat"⟩]

theorem shop_resolves : resolve Matchit.scan shop = .ok shopResolution := by rfl

/-- A plain request without a body. -/
def visit (path : Bytes) : InboundRequest :=
  ⟨[], none, none, [], .get, path, none, ascii "req-1"⟩

theorem shop_routes_exactly :
    shopResolution.Matches .get (ascii "/items/7") ∧ HoldsDeclared shop shopResolution ∧
      DispatchesExactly shop shopResolution shopResolution.methods (.refl _)
        (visit (ascii "/items/7")) none (World.start ((), []) 0 0) := by
  obtain ⟨holds, dispatches⟩ := resolve_routes_exactly shop_resolves
  exact ⟨⟨_, List.mem_cons_self, by decide +kernel⟩, holds, dispatches _ _ _ _ _⟩

/-- The path matches the WebSocket route, but the request is not an upgrade. -/
theorem chat_without_upgrade :
    resolve Matchit.scan shop = .ok shopResolution ∧
      (shopResolution.table shop shopResolution.methods (.refl _)).select
        (visit (ascii "/chat")) = .ok ⟨⟨ascii "chat", .webSocket 0⟩, []⟩ ∧
      ((shopResolution.table shop shopResolution.methods (.refl _)).recorded.dispatch
        (visit (ascii "/chat")) none (World.start ((), []) 0 0)).1 =
          .ready (.error .upgradeRequired) ∧
      ((shopResolution.table shop shopResolution.methods (.refl _)).recorded.dispatch
        (visit (ascii "/chat")) none (World.start ((), []) 0 0)).2.host.2 = [] :=
  ⟨shop_resolves, by decide +kernel, by rfl, by rfl⟩

end Ingress
