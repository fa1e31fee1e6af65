import LensoWeb.Endpoint.Expand
import LensoWeb.Ingress.Endpoint

/-!
# Generated dispatch

A dispatch arm binds what it extracts to names and calls the handler with names. What a
handler declares has no names in it: its middleware and its extractors run in order, the
first that does not continue ends the dispatch, and the handler gets the values themselves
and the context that the last extractor left.

A provider is known by its calls. They run on a state of their own, and a context is
whatever the runtime hands to them.
-/

namespace Endpoint

open Foundation Kernel

open Ingress (HandleError InvocationError utf8)

/-- `Result<Result<HandleResponse, HandleError>, RuntimeFailure>`. -/
abbrev EndpointResult := Except RuntimeFailure (Except HandleError Ingress.HandleResponse)

/-- A call inside a dispatch arm, which may return from the arm. -/
abbrev Early (η : Type) := ExceptT EndpointResult (Task η)

/-- `MiddlewareOutcome`: a next step or a response. -/
structure MiddlewareOutcome (κ : Type) where
  next : Option (κ × Ingress.HandleRequest)
  response : Option Ingress.HandleResponse
  exclusive : next.isSome = !response.isSome

namespace MiddlewareOutcome

variable {κ : Type}

/-- `MiddlewareOutcome::next`. -/
def ofNext (context : κ) (request : Ingress.HandleRequest) : MiddlewareOutcome κ :=
  ⟨some (context, request), none, rfl⟩

/-- `MiddlewareOutcome::response`. -/
def ofResponse (response : Ingress.HandleResponse) : MiddlewareOutcome κ :=
  ⟨none, some response, rfl⟩

/-- `MiddlewareOutcome::into_result`. -/
def intoResult : MiddlewareOutcome κ → Except Ingress.HandleResponse (κ × Ingress.HandleRequest)
  | ⟨some next, _, _⟩ => .ok next
  | ⟨none, some response, _⟩ => .error response
  | ⟨none, none, exclusive⟩ => nomatch exclusive

end MiddlewareOutcome

/-- `ExtractorRejection`, with whole responses. -/
inductive Rejection where
  | response (response : Ingress.HandleResponse)
  | invocation (error : InvocationError HandleError)

/-- What a call that failed makes of the dispatch. -/
def settle : InvocationError HandleError → EndpointResult
  | .domain error => .ok (.error error)
  | .runtime failure => .error failure

def Rejection.settle : Rejection → EndpointResult
  | .response answer => .ok (.ok answer)
  | .invocation error => Endpoint.settle error

/-- An argument that a handler is called with. -/
inductive Argument (κ ν : Type) where
  | context (context : κ)
  | request (request : Ingress.HandleRequest)
  | extracted (value : ν)

/-- The methods of a provider. Extraction updates the context in place; the result of a
handler is lowered by `into_endpoint_result`. -/
structure Provider (η κ ν : Type) where
  middleware : Str → κ → Ingress.HandleRequest →
    Task η (Except (InvocationError HandleError) (MiddlewareOutcome κ))
  fromRequest : Ty → κ → Ingress.HandleRequest → Task η (Except Rejection ν × κ)
  handler : Str → List (Argument κ ν) → Task η EndpointResult

variable {η κ ν : Type} (provider : Provider η κ ν)

/-- `provider.#middleware(context, request).await`, which continues or returns. -/
def Provider.runMiddleware (method : Str) (context : κ) (request : Ingress.HandleRequest) :
    Early η (κ × Ingress.HandleRequest) := do
  match ← ExceptT.lift (provider.middleware method context request) with
  | .ok outcome =>
      match outcome.intoResult with
      | .ok next => return next
      | .error response => throw (.ok (.ok response))
  | .error error => throw (settle error)

/-- `<#ty as FromRequest<Self>>::from_request(..).await`, which continues or returns. -/
def Provider.runExtractor (ty : Ty) (context : κ) (request : Ingress.HandleRequest) :
    Early η (ν × κ) := do
  let (result, context) ← ExceptT.lift (provider.fromRequest ty context request)
  match result with
  | .ok value => return (value, context)
  | .error rejection => throw rejection.settle

/-! ### Generated code -/

/-- The names that are bound in an arm, the last one first. -/
structure Scope (κ ν : Type) where
  context : κ
  request : Ingress.HandleRequest
  bindings : List (Str × ν)

/-- A statement of an arm. -/
def Statement.run (scope : Scope κ ν) : Statement → Early η (Scope κ ν)
  | .middleware method => do
      let (context, request) ← provider.runMiddleware method scope.context scope.request
      return { scope with context, request }
  | .extract binding ty => do
      let (value, context) ← provider.runExtractor ty scope.context scope.request
      return { scope with context, bindings := (binding, value) :: scope.bindings }

/-- The value of an argument; a name that is not bound has none. -/
def Expression.value (scope : Scope κ ν) : Expression → Option (Argument κ ν)
  | .context => some (.context scope.context)
  | .request => some (.request scope.request)
  | .binding name => (Assoc.find name scope.bindings).map .extracted

/-- An arm, behind its pattern. An arm that uses a name it does not bind has no run. -/
def Arm.run (arm : Arm) (scope : Scope κ ν) : Early η Ingress.HandleResponse := do
  let scope ← arm.statements.foldlM (Statement.run provider) scope
  let arguments ← ExceptT.lift (Task.expect (arm.arguments.mapM (Expression.value scope)))
  throw (← ExceptT.lift (provider.handler arm.handler arguments))

/-- The result that an arm returns; no arm runs to its end. -/
def Early.result (call : Early η Ingress.HandleResponse) : Task η EndpointResult := do
  match ← call.run with
  | .ok response => return .ok (.ok response)
  | .error result => return result

/-- `HttpEndpoint::dispatch`. -/
def Expansion.dispatch (expansion : Expansion) (context : κ) (request : Ingress.HandleRequest) :
    Task η EndpointResult :=
  match expansion.arms.find? fun arm => utf8 arm.routeId == request.routeId with
  | some arm => Early.result (arm.run provider ⟨context, request, []⟩)
  | none => return .ok (.error .rejected)

/-! ### Declared handlers -/

/-- An argument of a handler before the last context is known. -/
inductive Slot (ν : Type) where
  | context
  | request
  | extracted (value : ν)

/-- The argument that a slot is filled with. -/
def Slot.fill (context : κ) (request : Ingress.HandleRequest) : Slot ν → Argument κ ν
  | .context => .context context
  | .request => .request request
  | .extracted value => .extracted value

/-- Run the middleware in order. -/
def throughMiddlewares : List Str → κ → Ingress.HandleRequest → Early η (κ × Ingress.HandleRequest)
  | [], context, request => return (context, request)
  | method :: rest, context, request => do
      let (context, request) ← provider.runMiddleware method context request
      throughMiddlewares rest context request

/-- Extract the arguments in order. -/
def extractArguments (request : Ingress.HandleRequest) :
    List HandlerArgument → κ → Early η (List (Slot ν) × κ)
  | [], context => return ([], context)
  | ⟨_, .context⟩ :: rest, context => do
      let (slots, context) ← extractArguments request rest context
      return (.context :: slots, context)
  | ⟨_, .request⟩ :: rest, context => do
      let (slots, context) ← extractArguments request rest context
      return (.request :: slots, context)
  | ⟨ty, .extractor _⟩ :: rest, context => do
      let (value, context) ← provider.runExtractor ty context request
      let (slots, context) ← extractArguments request rest context
      return (.extracted value :: slots, context)

/-- What a handler declares. -/
def Handler.perform (handler : Handler) (context : κ) (request : Ingress.HandleRequest) :
    Early η Ingress.HandleResponse := do
  let (context, request) ← throughMiddlewares provider handler.middlewares context request
  let (slots, context) ← extractArguments provider request handler.arguments context
  throw (← ExceptT.lift (provider.handler handler.method (slots.map (Slot.fill context request))))

/-! ### Names -/

/-- The name that an argument is bound to. -/
def HandlerArgument.binding? (argument : HandlerArgument) : Option Str :=
  match argument.kind with
  | .extractor binding => some binding
  | _ => none

/-- A slot of the kind of an argument. -/
inductive Fits : HandlerArgument → Slot ν → Prop where
  | context {ty : Ty} : Fits ⟨ty, .context⟩ .context
  | request {ty : Ty} : Fits ⟨ty, .request⟩ .request
  | extracted {ty : Ty} {binding : Str} {value : ν} :
      Fits ⟨ty, .extractor binding⟩ (.extracted value)

/-- Bind the slots to the names of the arguments, one after another. -/
def bindAll : List HandlerArgument → List (Slot ν) → List (Str × ν) → List (Str × ν)
  | ⟨_, .extractor binding⟩ :: arguments, .extracted value :: slots, bindings =>
      bindAll arguments slots ((binding, value) :: bindings)
  | _ :: arguments, _ :: slots, bindings => bindAll arguments slots bindings
  | _, _, bindings => bindings

theorem bindAll_context {ty : Ty} (arguments : List HandlerArgument) (slots : List (Slot ν))
    (bindings : List (Str × ν)) : bindAll (⟨ty, .context⟩ :: arguments) (.context :: slots) bindings =
      bindAll arguments slots bindings := rfl

theorem bindAll_request {ty : Ty} (arguments : List HandlerArgument) (slots : List (Slot ν))
    (bindings : List (Str × ν)) : bindAll (⟨ty, .request⟩ :: arguments) (.request :: slots) bindings =
      bindAll arguments slots bindings := rfl

/-- Other names stay bound to what they were. -/
theorem find_bindAll {arguments : List HandlerArgument} {slots : List (Slot ν)} {name : Str}
    (fits : List.Forall₂ Fits arguments slots)
    (other : name ∉ arguments.filterMap HandlerArgument.binding?) (bindings : List (Str × ν)) :
    Assoc.find name (bindAll arguments slots bindings) = Assoc.find name bindings := by
  induction fits generalizing bindings with
  | nil => rfl
  | @cons _ _ rest _ first _ ih =>
      cases first with
      | context => exact ih other bindings
      | request => exact ih other bindings
      | @extracted ty binding value =>
          obtain ⟨apart, others⟩ := List.ne_and_not_mem_of_not_mem_cons other
          rw [bindAll, ih others, Assoc.find_cons, if_neg (Ne.symm apart)]

/-- Every argument is the value of its slot. -/
theorem values_bindAll {arguments : List HandlerArgument} {slots : List (Slot ν)}
    (fits : List.Forall₂ Fits arguments slots)
    (distinct : (arguments.filterMap HandlerArgument.binding?).Nodup) (context : κ)
    (request : Ingress.HandleRequest) (bindings : List (Str × ν)) :
    (arguments.map HandlerArgument.expression).mapM
        (Expression.value ⟨context, request, bindAll arguments slots bindings⟩) =
      some (slots.map (Slot.fill context request)) := by
  induction fits generalizing bindings with
  | nil => rfl
  | @cons _ _ rest _ first others ih =>
      rw [List.map_cons, List.mapM_cons, List.map_cons]
      cases first with
      | context =>
          rw [bindAll_context, ih distinct]
          rfl
      | request =>
          rw [bindAll_request, ih distinct]
          rfl
      | @extracted ty binding value =>
          obtain ⟨apart, distinct⟩ := List.nodup_cons.mp distinct
          rw [bindAll, ih distinct, HandlerArgument.expression, Expression.value,
            find_bindAll others apart, Assoc.find_cons, if_pos rfl]
          rfl

/-- The middleware statements hand on what the middleware hands on. -/
theorem foldlM_middlewares {β : Type} (methods : List Str) (scope : Scope κ ν)
    (next : Scope κ ν → Early η β) :
    (methods.map Statement.middleware).foldlM (Statement.run provider) scope >>= next =
      throughMiddlewares provider methods scope.context scope.request >>= fun handed =>
        next { scope with context := handed.1, request := handed.2 } := by
  induction methods generalizing scope with
  | nil => rfl
  | cons method rest ih =>
      rw [List.map_cons, List.foldlM_cons, throughMiddlewares, Statement.run]
      simp only [bind_assoc, pure_bind]
      exact congrArg _ (funext fun handed => ih _)

/-- The extractor statements bind what the extractors return. -/
theorem foldlM_extractors {β : Type} (arguments : List HandlerArgument) (scope : Scope κ ν)
    (next : Scope κ ν → Early η β) (handOn : List (Slot ν) × κ → Early η β)
    (same : ∀ slots context, List.Forall₂ Fits arguments slots →
      next { scope with context, bindings := bindAll arguments slots scope.bindings } =
        handOn (slots, context)) :
    (arguments.filterMap HandlerArgument.statement?).foldlM (Statement.run provider) scope >>= next =
      extractArguments provider scope.request arguments scope.context >>= handOn := by
  induction arguments generalizing scope handOn with
  | nil => exact same [] scope.context .nil
  | cons argument rest ih =>
      obtain ⟨ty, kind⟩ := argument
      cases kind with
      | context =>
          rw [List.filterMap_cons_none rfl, extractArguments, bind_assoc]
          exact ih scope _ fun slots context fits => same _ context (.cons .context fits)
      | request =>
          rw [List.filterMap_cons_none rfl, extractArguments, bind_assoc]
          exact ih scope _ fun slots context fits => same _ context (.cons .request fits)
      | extractor binding =>
          have written : List.filterMap HandlerArgument.statement? (⟨ty, .extractor binding⟩ :: rest) =
              .extract binding ty :: rest.filterMap HandlerArgument.statement? := rfl
          rw [written, List.foldlM_cons, extractArguments, Statement.run]
          simp only [bind_assoc, pure_bind]
          refine congrArg _ (funext fun extracted => ?_)
          exact ih _ _ fun slots context fits => same _ context (.cons .extracted fits)

/-- An arm does what its handler declares. -/
theorem dispatchArm_run {handler : Handler}
    (distinct : (handler.arguments.filterMap HandlerArgument.binding?).Nodup) (context : κ)
    (request : Ingress.HandleRequest) :
    (dispatchArm handler).run provider ⟨context, request, []⟩ =
      handler.perform provider context request := by
  rw [Arm.run, dispatchArm, List.foldlM_append, bind_assoc, foldlM_middlewares, Handler.perform]
  refine congrArg _ (funext fun handed => ?_)
  refine foldlM_extractors provider _ _ _ _ fun slots context fits => ?_
  rw [values_bindAll fits distinct]
  rfl

/-! ### Expansions -/

theorem extractedName_injective : Function.Injective extractedName := by
  intro left right same
  have digits := List.append_cancel_left same
  rw [← @Nat.ofDigitChars_ten_toDigits left, digits, Nat.ofDigitChars_ten_toDigits]

/-- The names that a handler extracts to are distinct. -/
theorem handlerArguments_distinct {inputs : List FnArg} {arguments : List HandlerArgument}
    (read : handlerArguments inputs = .ok arguments) :
    (arguments.filterMap HandlerArgument.binding?).Nodup := by
  unfold handlerArguments at read
  dsimp only at read
  split at read
  · cases read
  · cases read
    have named : ∀ entry : FnArg × Nat, ∀ name ∈ (handlerArgument entry).bind HandlerArgument.binding?,
        name = extractedName entry.2 := by
      rintro ⟨input, index⟩ name member
      unfold handlerArgument at member
      split at member
      · cases member
      split at member
      · cases member
      split at member
      · cases member
      · cases member
        rfl
    rw [List.filterMap_filterMap]
    have indices : (inputs.zipIdx.map Prod.snd).Nodup := by
      rw [List.zipIdx_map_snd]
      exact List.nodup_range' 
    generalize inputs.zipIdx = entries at indices
    induction entries with
    | nil => exact List.nodup_nil
    | cons entry rest ih =>
        obtain ⟨fresh, indices⟩ := List.nodup_cons.mp indices
        rw [List.filterMap_cons]
        split
        · exact ih indices
        · next name found =>
          refine List.nodup_cons.mpr ⟨fun member => ?_, ih indices⟩
          obtain ⟨other, inside, again⟩ := List.mem_filterMap.mp member
          have index := extractedName_injective
            ((named entry name found).symm.trans (named other name again))
          rw [index] at fresh
          exact fresh (List.mem_map_of_mem inside)

/-- The handler with the id of a route is found. -/
theorem find_handler {handlers : List Handler} {handler : Handler}
    (valid : WellFormed (handlers.map Handler.route)) (member : handler ∈ handlers) :
    handlers.find? (fun other => utf8 other.route.routeId == utf8 handler.route.routeId) =
      some handler := by
  have distinct : (handlers.map fun other => other.route.routeId).Nodup := by
    have ids := valid.distinctIds
    rw [List.map_map] at ids
    exact ids
  cases found : handlers.find? fun other => utf8 other.route.routeId == utf8 handler.route.routeId with
  | none => exact absurd (beq_self_eq_true _) (List.find?_eq_none.mp found handler member)
  | some other =>
      have equal : (utf8 other.route.routeId == utf8 handler.route.routeId) = true :=
        @List.find?_some _ (fun other : Handler =>
          utf8 other.route.routeId == utf8 handler.route.routeId) _ _ found
      have same := utf8_injective (beq_iff_eq.mp equal)
      rw [List.inj_on_of_nodup_map distinct (List.mem_of_find?_eq_some found) member same]

/-- The arm that is taken is that of the handler with the id. -/
theorem find_arm (handlers : List Handler) (routeId : Bytes) :
    (handlers.map dispatchArm).find? (fun arm => utf8 arm.routeId == routeId) =
      (handlers.find? fun handler => utf8 handler.route.routeId == routeId).map dispatchArm := by
  rw [List.find?_map]
  rfl

section Expanded

variable [FieldOrder]

/-- The handlers of an expansion extract to distinct names. -/
theorem readHandlers_distinct {library : MacroLibrary} {implementation : ItemImpl}
    {read : List Handler × ItemImpl} (known : readHandlers library implementation = .ok read) :
    ∀ handler ∈ read.1, (handler.arguments.filterMap HandlerArgument.binding?).Nodup := by
  unfold readHandlers at known
  split at known
  · cases known
  split at known
  · cases known
  obtain ⟨⟨middlewares, retained⟩, -, known⟩ := Result.bind_eq_ok.mp known
  obtain ⟨outputs, mapped, known⟩ := Result.bind_eq_ok.mp known
  dsimp only at known
  split at known
  · cases known
  · cases known
    intro handler member
    obtain ⟨output, inside, found⟩ := List.mem_filterMap.mp member
    obtain ⟨item, -, expanded⟩ := Result.exists_of_mem_mapM mapped inside
    cases item with
    | other =>
        cases expanded
        cases found
    | method method =>
        obtain ⟨⟨metadata, retained⟩, -, expanded⟩ := Result.bind_eq_ok.mp expanded
        obtain ⟨written, built, expanded⟩ := Result.bind_eq_ok.mp expanded
        cases expanded
        obtain rfl : written = some handler := found
        unfold expandHandler at built
        split at built
        · split at built
          · cases built
          · obtain ⟨contract, -, built⟩ := Result.bind_eq_ok.mp built
            obtain ⟨arguments, listed, built⟩ := Result.bind_eq_ok.mp built
            cases built
            exact handlerArguments_distinct (Result.mapError_eq_ok.mp listed)
        · split at built <;> cases built

/-- The generated dispatch does what the handler with the id of the request declares, and
rejects a request with any other id without a call. -/
theorem dispatch_performs {library : MacroLibrary} {implementation : ItemImpl} {registers : Bool}
    {expansion : Expansion}
    (expanded : expandEndpoint library implementation registers = .ok expansion)
    (checked : validateEndpointRoutes (expansion.routes.map AuthoredRoute.route) = .ok ()) :
    ∃ handlers stripped, readHandlers library implementation = .ok (handlers, stripped) ∧
      expansion.routes = handlers.map endpointRoute ∧
      (∀ handler ∈ handlers, ∀ (context : κ) (request : Ingress.HandleRequest),
        utf8 handler.route.routeId = request.routeId →
        expansion.dispatch provider context request =
          Early.result (handler.perform provider context request)) ∧
      ∀ (context : κ) (request : Ingress.HandleRequest),
        (∀ route ∈ expansion.routes, utf8 route.route.routeId ≠ request.routeId) →
        expansion.dispatch provider context request = pure (.ok (.error .rejected)) := by
  obtain ⟨⟨handlers, stripped⟩, read, written⟩ := Result.bind_eq_ok.mp expanded
  cases written
  have valid := validateEndpointRoutes_iff.mp checked
  rw [List.map_map] at valid
  refine ⟨handlers, stripped, read, rfl, ?_, ?_⟩
  · intro handler member context request named
    rw [Expansion.dispatch, ← named, find_arm, find_handler valid member]
    exact congrArg Early.result
      (dispatchArm_run provider (readHandlers_distinct read handler member) context request)
  · intro context request other
    have missing : handlers.find? (fun handler => utf8 handler.route.routeId == request.routeId) =
        none := by
      refine List.find?_eq_none.mpr fun handler member => ?_
      rw [beq_iff_eq]
      exact other _ (List.mem_map_of_mem member)
    rw [Expansion.dispatch, find_arm, missing]
    rfl

end Expanded

/-- A provider that records its calls. Each one counts up the context that it hands on, and the
handler answers with the count. -/
def countingProvider : Provider (List Str) Nat Str where
  middleware method context request := do
    Task.update (· ++ [method])
    return .ok (.ofNext (context + 1) request)
  fromRequest ty context _ := do
    Task.update (· ++ [(finalTypeIdent ty).getD []])
    return (.ok (lit "7"), context + 1)
  handler method arguments := do
    Task.update (· ++ [method])
    match arguments with
    | [.extracted _, .context context] => return .ok (.ok ⟨[], [], 200 + context⟩)
    | _ => return .ok (.ok ⟨[], [], 200⟩)

/-- `#[put("orders.update", "/orders/{id}")] #[middleware(audit)]
async fn update(&self, path: Path<Order>, context: InvocationContext)`. -/
def changeOrder : ImplItem :=
  .method {
    attributes := [⟨some (lit "put"), .list [.literal (.str (lit "orders.update")), .punct ',',
      .literal (.str (lit "/orders/\x7bid\x7d"))]⟩,
      ⟨some (lit "middleware"), .list [.ident (lit "audit")]⟩]
    ident := lit "update"
    inputs := [.receiver, .typed (.path (lit "Path") (some [.path (lit "Order") none])),
      .typed (.path (lit "InvocationContext") none)]
    output := none }

/-- `#[middleware(authenticate)]`, with two handlers. -/
def orderItems : ItemImpl :=
  ⟨false, false, [⟨some (lit "middleware"), .list [.ident (lit "authenticate")]⟩],
    [readOrder false, changeOrder]⟩

/-- A request for the second handler. -/
def changeRequest : Ingress.HandleRequest :=
  ⟨[], none, [], ascii "PUT", ascii "/orders/7", [], none, ascii "req-1", ascii "orders.update"⟩

attribute [local instance] FieldOrder.byInsertion

/-- The second handler runs the middleware of the provider and its own, and then its extractor,
whose context it is called with. -/
theorem dispatch_performs_changeOrder :
    ∃ expansion handlers stripped handler,
      expandEndpoint plainLibrary orderItems true = .ok expansion ∧
      readHandlers plainLibrary orderItems = .ok (handlers, stripped) ∧ handler ∈ handlers ∧
      handlers.length = 2 ∧
      expansion.dispatch countingProvider 0 changeRequest =
        Early.result (handler.perform countingProvider 0 changeRequest) ∧
      expansion.dispatch countingProvider 0 changeRequest [] =
        (.ready (.ok (.ok ⟨[], [], 203⟩)),
          [lit "authenticate", lit "audit", lit "Path", lit "update"]) := by
  have expanded : ∃ expansion, expandEndpoint plainLibrary orderItems true = .ok expansion ∧
      validateEndpointRoutes (expansion.routes.map AuthoredRoute.route) = .ok () ∧
      expansion.routes.length = 2 ∧
      ∃ route ∈ expansion.routes, utf8 route.route.routeId = changeRequest.routeId :=
    ⟨_, rfl, by decide, rfl, _, List.mem_cons_of_mem _ (List.mem_singleton_self _), by decide⟩
  obtain ⟨expansion, expanded, checked, count, route, member, named⟩ := expanded
  obtain ⟨handlers, stripped, read, routes, performs, -⟩ :=
    dispatch_performs countingProvider expanded checked
  rw [routes] at member
  obtain ⟨handler, inside, rfl⟩ := List.mem_map.mp member
  have performed := performs handler inside 0 changeRequest named
  refine ⟨expansion, handlers, stripped, handler, expanded, read, inside, ?_, performed, ?_⟩
  · rw [← count, routes, List.length_map]
  · cases expanded
    rfl

end Endpoint
