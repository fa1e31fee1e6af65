import LensoWeb.Endpoint.Attribute

/-!
# Expansion of endpoint implementations

`#[endpoint]` reads an inherent implementation block and writes a route table and one
dispatch arm for every handler. The generated code is kept as it is written: statements that
bind names, and a call whose arguments are names.
-/

namespace Endpoint

open Foundation OpenApi

/-- A type in the result of a handler: `Ty`, and tuples. -/
inductive OutputTy where
  | path (ident : Str) (arguments : Option (List OutputTy))
  | tuple (elements : List OutputTy)
  | other

mutual

/-- The type as an argument type, which no tuple is. -/
def OutputTy.toTy : OutputTy → Ty
  | .path ident none => .path ident none
  | .path ident (some arguments) => .path ident (some (OutputTy.toTys arguments))
  | .tuple _ => .other
  | .other => .other

def OutputTy.toTys : List OutputTy → List Ty
  | [] => []
  | ty :: rest => ty.toTy :: OutputTy.toTys rest

end

/-- `syn::ImplItemFn`; the output is `none` without an arrow. -/
structure ImplItemFn where
  attributes : List Attribute
  ident : Str
  inputs : List FnArg
  output : Option OutputTy

/-- `syn::ImplItem`. -/
inductive ImplItem where
  | method (method : ImplItemFn)
  | other

/-- `syn::ItemImpl`: whether it implements a trait, and whether it has type parameters. -/
structure ItemImpl where
  ofTrait : Bool
  generic : Bool
  attributes : List Attribute
  items : List ImplItem

/-! ### Strict contracts -/

/-- `EndpointContract`. -/
structure EndpointContract where
  shape : RequestContractShape
  success : Ty
  successStatus : Nat
  problems : List ContractProblem

/-- `endpoint_result_types`. -/
def endpointResultTypes (method : ImplItemFn) : Except Str (OutputTy × OutputTy) :=
  match method.output with
  | some (.path ident (some [success, error])) =>
      if ident = lit "Result" then .ok (success, error)
      else .error (lit "a strict OpenAPI handler must return Result<Success, Error>")
  | _ => .error (lit "a strict OpenAPI handler must return Result<Success, Error>")

section Contracts

variable (base10Parse : Str → Option Nat)

/-- `base10_parse::<u16>`, in the words of the token library. -/
def parseStatus (status : Str) : Except Str Nat :=
  match base10Parse status with
  | some value => if value < 2 ^ 16 then .ok value else .error (lit "number too large")
  | none => .error (lit "invalid digit")

/-- `parse_success_status`. -/
def parseSuccessStatus (status : Str) : Except Str Nat := do
  let parsed ← parseStatus base10Parse status
  if 200 ≤ parsed && parsed ≤ 299 then return parsed
  else .error (lit "strict OpenAPI success status must be between 200 and 299")

/-- `strict_success_type`. -/
def strictSuccessType (success : OutputTy) (declared : Option Str) : Except Str (Ty × Nat) :=
  if finalTypeIdent success.toTy = some (lit "Json") then do
    let status ← (declared.mapM (parseSuccessStatus base10Parse))
    let status := status.getD 200
    if status ≠ 200 then
      .error (lit "Json<T> always returns status 200; use (StatusCode, Json<T>) for another " ++
        lit "success status")
    else return (← extractorTypeArgument success.toTy (lit "Json"), status)
  else
    match success with
    | .tuple [status, response] =>
        if finalTypeIdent status.toTy ≠ some (lit "StatusCode") ∨
            finalTypeIdent response.toTy ≠ some (lit "Json") then
          .error (lit "strict OpenAPI contracts support (StatusCode, Json<T>) success values")
        else
          match declared with
          | none => .error (lit "(StatusCode, Json<T>) needs openapi_contract(success = status)")
          | some declared => do
              let inner ← extractorTypeArgument response.toTy (lit "Json")
              return (inner, ← parseSuccessStatus base10Parse declared)
    | .tuple _ =>
        .error (lit "strict OpenAPI contracts support (StatusCode, Json<T>) success values")
    | _ =>
        .error (lit "strict OpenAPI contracts support Json<T> or (StatusCode, Json<T>) success " ++
          lit "values")

/-- One round over the errors of the attribute in `extend_problem_contract`. -/
def declareWritten (problems : List ContractProblem) (error : Str × Str) :
    Except Str (List ContractProblem) := do
  let status ← parseStatus base10Parse error.1
  declareError problems ⟨status, error.2⟩

/-- `extend_problem_contract`, for errors as they are written. -/
def extendWrittenProblems (error : Ty) (errors : List (Str × Str))
    (problems : List ContractProblem) : Except Str (List ContractProblem) :=
  if finalTypeIdent error = some (lit "Problem") ∧ errors ≠ [] then
    errors.foldlM (declareWritten base10Parse) problems
  else extendProblemContract error (errors.map fun error => ⟨0, error.2⟩) problems

/-- `derive_endpoint_contract`. -/
def deriveEndpointContract (method : ImplItemFn) (metadata : OpenApiContractMetadata) :
    Except Str EndpointContract := do
  let shape ← deriveStrictRequestShape method.inputs
  let (success, error) ← endpointResultTypes method
  let (success, successStatus) ← strictSuccessType base10Parse success metadata.success
  let problems ← extendWrittenProblems base10Parse error.toTy metadata.errors shape.problems
  return ⟨shape, success, successStatus, problems⟩

/-- The errors that the attribute writes are those that the contract declares. -/
theorem extendProblemContract_of_written {error : Ty} {errors : List (Str × Str)}
    {problems extended : List ContractProblem}
    (declared : extendWrittenProblems base10Parse error errors problems = .ok extended) :
    ∃ parsed, extendProblemContract error parsed problems = .ok extended := by
  unfold extendWrittenProblems at declared
  split at declared
  · next enumerated =>
    have folded : ∀ {problems}, errors.foldlM (declareWritten base10Parse) problems = .ok extended →
        ∃ parsed : List ContractProblem, parsed.length = errors.length ∧
          parsed.foldlM declareError problems = .ok extended := by
      generalize errors = entries
      induction entries with
      | nil =>
          intro problems declared
          exact ⟨[], rfl, declared⟩
      | cons entry rest ih =>
          intro problems declared
          rw [List.foldlM_cons] at declared
          obtain ⟨next, first, declared⟩ := Result.bind_eq_ok.mp declared
          obtain ⟨status, -, first⟩ := Result.bind_eq_ok.mp first
          obtain ⟨parsed, length, later⟩ := ih declared
          refine ⟨⟨status, entry.2⟩ :: parsed, by rw [List.length_cons, length, List.length_cons],
            ?_⟩
          rw [List.foldlM_cons, first]
          exact later
    obtain ⟨parsed, length, declared⟩ := folded declared
    refine ⟨parsed, ?_⟩
    have nonempty : parsed.isEmpty = false := by
      rw [List.isEmpty_eq_false_iff, ← List.length_pos_iff, length, List.length_pos_iff]
      exact enumerated.2
    rw [extendProblemContract, if_pos enumerated.1, nonempty]
    exact declared
  · exact ⟨_, declared⟩

end Contracts

/-! ### Handlers -/

/-- `ArgumentKind`. -/
inductive ArgumentKind where
  | context
  | request
  | extractor (binding : Str)
deriving DecidableEq

/-- `HandlerArgument`. -/
structure HandlerArgument where
  ty : Ty
  kind : ArgumentKind

/-- The name that an extracted argument is bound to. -/
def extractedName (index : Nat) : Str := lit "__lenso_extracted_" ++ Nat.toDigits 10 index

/-- The argument of one input, with its place among the inputs. -/
def handlerArgument (entry : FnArg × Nat) : Option HandlerArgument :=
  match entry.1 with
  | .receiver => none
  | .typed ty =>
      if finalTypeIdent ty = some (lit "InvocationContext") then some ⟨ty, .context⟩
      else if finalTypeIdent ty = some (lit "HandleRequest") then some ⟨ty, .request⟩
      else some ⟨ty, .extractor (extractedName entry.2)⟩

/-- `handler_arguments`. -/
def handlerArguments (inputs : List FnArg) : Except Str (List HandlerArgument) :=
  let arguments := inputs.zipIdx.filterMap handlerArgument
  if 1 < arguments.countP (·.kind = .context) ∨ 1 < arguments.countP (·.kind = .request) then
    .error (lit "an endpoint handler accepts at most one InvocationContext and one HandleRequest")
  else .ok arguments

/-- `Handler`. -/
structure Handler where
  route : EndpointRoute
  openapi : Option Str
  middlewares : List Str
  method : Str
  arguments : List HandlerArgument
  contract : Option EndpointContract

/-! ### Generated code -/

/-- A statement of a dispatch arm. Each one returns from the arm where its call does not
continue. -/
inductive Statement where
  | middleware (method : Str)
  | extract (binding : Str) (ty : Ty)

/-- An argument in the call of the handler. -/
inductive Expression where
  | context
  | request
  | binding (name : Str)
deriving DecidableEq

/-- A dispatch arm. -/
structure Arm where
  routeId : Str
  statements : List Statement
  handler : Str
  arguments : List Expression

/-- The statement that extracts an argument. -/
def HandlerArgument.statement? (argument : HandlerArgument) : Option Statement :=
  match argument.kind with
  | .extractor binding => some (.extract binding argument.ty)
  | _ => none

/-- The name of an argument. -/
def HandlerArgument.expression (argument : HandlerArgument) : Expression :=
  match argument.kind with
  | .context => .context
  | .request => .request
  | .extractor binding => .binding binding

/-- `dispatch_arm`. -/
def dispatchArm (handler : Handler) : Arm where
  routeId := handler.route.routeId
  statements := handler.middlewares.map .middleware ++
    handler.arguments.filterMap HandlerArgument.statement?
  handler := handler.method
  arguments := handler.arguments.map HandlerArgument.expression

/-- A route as it is written into the table, with the contract its factory builds. -/
structure AuthoredRoute where
  route : EndpointRoute
  openapi : Option Str
  contract : Option EndpointContract

/-- `endpoint_route`. -/
def endpointRoute (handler : Handler) : AuthoredRoute :=
  ⟨handler.route, handler.openapi, handler.contract⟩

/-- What the macro writes. -/
structure Expansion where
  implementation : ItemImpl
  routes : List AuthoredRoute
  arms : List Arm
  registers : Bool

section Expanding

variable [FieldOrder] (library : MacroLibrary)

/-- `syn::Error` from a message. -/
def reported {α : Type} (result : Except Str α) : Except ParseError α :=
  result.mapError .message

/-- The part of the loop body for the metadata of a method. -/
def expandHandler (providerMiddlewares : List Str) (method : ImplItemFn)
    (metadata : HandlerMetadata) : Except ParseError (Option Handler) :=
  match metadata.route with
  | some route =>
      if metadata.contract.isSome && metadata.openapi.isNone then
        .error (.message (lit "openapi_contract requires an OpenAPI Operation Object on the same " ++
          lit "handler"))
      else do
        let contract ← metadata.contract.mapM fun contract =>
          reported (deriveEndpointContract library.base10Parse method contract)
        let arguments ← reported (handlerArguments method.inputs)
        return some
          { route
            openapi := metadata.openapi
            middlewares := providerMiddlewares ++ metadata.middlewares
            method := method.ident
            arguments
            contract }
  | none =>
      if !metadata.middlewares.isEmpty || metadata.openapi.isSome || metadata.contract.isSome then
        .error (.message (lit "endpoint metadata can only be attached to an HTTP handler"))
      else .ok none

/-- One round of the loop over the items: the handler, and the item without its metadata. -/
def expandItem (providerMiddlewares : List Str) (item : ImplItem) :
    Except ParseError (Option Handler × ImplItem) :=
  match item with
  | .other => .ok (none, .other)
  | .method method => do
      let (metadata, retained) ← takeHandlerMetadata library method.attributes
      let handler ← expandHandler library providerMiddlewares method metadata
      return (handler, .method { method with attributes := retained })

/-- `expand_endpoint_with_registration`, from an implementation to its handlers. -/
def readHandlers (implementation : ItemImpl) :
    Except ParseError (List Handler × ItemImpl) := do
  if implementation.ofTrait then
    .error (.message (lit "endpoint can only be applied to an inherent impl block"))
  else if implementation.generic then
    .error (.message (lit "endpoint does not support generic impl blocks"))
  else
    let (middlewares, retained) ← takeProviderMiddlewares library implementation.attributes
    let expanded ← implementation.items.mapM (expandItem library middlewares)
    let handlers := expanded.filterMap Prod.fst
    if handlers.isEmpty then
      .error (.message (lit "endpoint impl must declare at least one HTTP handler attribute"))
    else
      return (handlers,
        { implementation with attributes := retained, items := expanded.map Prod.snd })

/-- `expand_endpoint_with_registration`. -/
def expandEndpoint (implementation : ItemImpl) (registers : Bool) :
    Except ParseError Expansion := do
  let (handlers, implementation) ← readHandlers library implementation
  return {
    implementation
    routes := handlers.map endpointRoute
    arms := handlers.map dispatchArm
    registers }

end Expanding

/-! ### Attributes in another order -/

/-- The items differ in the order of their attributes only. -/
inductive ImplItem.Rearranges : ImplItem → ImplItem → Prop where
  | other : ImplItem.Rearranges .other .other
  | method {method : ImplItemFn} {attributes : List Attribute}
      (rearranged : Rearranged method.attributes attributes) :
      ImplItem.Rearranges (.method method) (.method { method with attributes })

/-- The item without the attributes of the macro. -/
def ImplItem.stripped : ImplItem → ImplItem
  | .other => .other
  | .method authored =>
      .method { authored with attributes := authored.attributes.filter fun attr =>
        !attr.isOwn }

/-- The implementation without the attributes of the macro. -/
def ItemImpl.stripped (implementation : ItemImpl) : ItemImpl :=
  { implementation with
    attributes := implementation.attributes.filter fun attr =>
      attr.path != some (lit "middleware")
    items := implementation.items.map ImplItem.stripped }

theorem takeProviderMiddlewares_retained {library : MacroLibrary} {attributes : List Attribute}
    {taken : List Str × List Attribute}
    (took : takeProviderMiddlewares library attributes = .ok taken) :
    taken.2 = attributes.filter fun attr => attr.path != some (lit "middleware") := by
  have round : ∀ {taken attr next retained},
      takeProviderMiddleware library taken attr = .ok next → taken.2 = retained →
        next.2 = retained ++ [attr].filter fun attr =>
          attr.path != some (lit "middleware") := by
    rintro taken attr next retained placed rfl
    unfold takeProviderMiddleware at placed
    split at placed
    · next own =>
      obtain ⟨_, -, returned⟩ := Result.bind_eq_ok.mp placed
      cases returned
      simp [own]
    · next foreign =>
      cases placed
      simp [foreign]
  have collected := @Result.foldlM_collects _ _ _ _ (takeProviderMiddleware library)
    (fun taken retained => taken.2 = retained)
    (fun attr => [attr].filter fun attr =>
      attr.path != some (lit "middleware")) round _ _ _ _ took rfl
  rw [collected, List.nil_append, ← List.filter_flatMap]
  simp

section Rearranging

variable [FieldOrder] (library : MacroLibrary)

theorem expandItem_rearranged {middlewares : List Str} {item moved : ImplItem}
    (rearranges : item.Rearranges moved) {expanded : Option Handler × ImplItem} :
    expandItem library middlewares item = .ok expanded ↔
      expandItem library middlewares moved = .ok expanded := by
  cases rearranges with
  | other => exact Iff.rfl
  | @method method attributes rearranged =>
      constructor
      · intro read
        obtain ⟨taken, took, built⟩ := Result.bind_eq_ok.mp read
        exact Result.bind_eq_ok.mpr
          ⟨taken, (takeHandlerMetadata_rearranged library rearranged).mp took, built⟩
      · intro read
        obtain ⟨taken, took, built⟩ := Result.bind_eq_ok.mp read
        exact Result.bind_eq_ok.mpr
          ⟨taken, (takeHandlerMetadata_rearranged library rearranged).mpr took, built⟩

theorem readHandlers_rearranged {implementation : ItemImpl} {items : List ImplItem}
    (rearranges : List.Forall₂ ImplItem.Rearranges implementation.items items)
    {read : List Handler × ItemImpl} :
    readHandlers library implementation = .ok read ↔
      readHandlers library { implementation with items } = .ok read := by
  have expanded : ∀ {middlewares : List Str} {outputs : List (Option Handler × ImplItem)},
      implementation.items.mapM (expandItem library middlewares) = .ok outputs ↔
        items.mapM (expandItem library middlewares) = .ok outputs := by
    intro middlewares
    generalize implementation.items = before at rearranges
    induction rearranges with
    | nil => exact Iff.rfl
    | cons first _ ih =>
        intro outputs
        rw [List.mapM_cons, List.mapM_cons]
        constructor
        · intro mapped
          obtain ⟨output, known, mapped⟩ := Result.bind_eq_ok.mp mapped
          obtain ⟨rest, others, mapped⟩ := Result.bind_eq_ok.mp mapped
          exact Result.bind_eq_ok.mpr ⟨output, (expandItem_rearranged library first).mp known,
            Result.bind_eq_ok.mpr ⟨rest, ih.mp others, mapped⟩⟩
        · intro mapped
          obtain ⟨output, known, mapped⟩ := Result.bind_eq_ok.mp mapped
          obtain ⟨rest, others, mapped⟩ := Result.bind_eq_ok.mp mapped
          exact Result.bind_eq_ok.mpr ⟨output, (expandItem_rearranged library first).mpr known,
            Result.bind_eq_ok.mpr ⟨rest, ih.mpr others, mapped⟩⟩
  unfold readHandlers
  dsimp only
  split
  · exact Iff.rfl
  split
  · exact Iff.rfl
  constructor
  · intro read
    obtain ⟨provider, took, read⟩ := Result.bind_eq_ok.mp read
    obtain ⟨outputs, mapped, read⟩ := Result.bind_eq_ok.mp read
    exact Result.bind_eq_ok.mpr ⟨provider, took,
      Result.bind_eq_ok.mpr ⟨outputs, expanded.mp mapped, read⟩⟩
  · intro read
    obtain ⟨provider, took, read⟩ := Result.bind_eq_ok.mp read
    obtain ⟨outputs, mapped, read⟩ := Result.bind_eq_ok.mp read
    exact Result.bind_eq_ok.mpr ⟨provider, took,
      Result.bind_eq_ok.mpr ⟨outputs, expanded.mpr mapped, read⟩⟩

theorem expandItem_stripped {middlewares : List Str} {item : ImplItem}
    {expanded : Option Handler × ImplItem}
    (read : expandItem library middlewares item = .ok expanded) : expanded.2 = item.stripped := by
  cases item with
  | other =>
      cases read
      rfl
  | method method =>
      obtain ⟨⟨metadata, retained⟩, took, read⟩ := Result.bind_eq_ok.mp read
      obtain ⟨handler, -, read⟩ := Result.bind_eq_ok.mp read
      cases read
      have collects := (takeAttributes_eq_ok_iff library).mp took
      obtain rfl := collects.retained
      rfl

theorem readHandlers_stripped {implementation : ItemImpl} {read : List Handler × ItemImpl}
    (known : readHandlers library implementation = .ok read) : read.2 = implementation.stripped := by
  unfold readHandlers at known
  split at known
  · cases known
  split at known
  · cases known
  obtain ⟨⟨middlewares, retained⟩, took, known⟩ := Result.bind_eq_ok.mp known
  obtain ⟨outputs, mapped, known⟩ := Result.bind_eq_ok.mp known
  dsimp only at known
  split at known
  · cases known
  · cases known
    have items := Result.map_eq_of_forall₂
      (fun _ _ expanded => expandItem_stripped library expanded) (Result.mapM_eq_ok.mp mapped)
    obtain rfl := takeProviderMiddlewares_retained took
    rw [ItemImpl.stripped]
    dsimp only
    rw [items]

/-- The macro writes the same code in whatever order the attributes of a method stand. It takes
off its own attributes and no others, which it leaves in their order. -/
theorem expandEndpoint_rearranged {implementation : ItemImpl} {items : List ImplItem}
    (rearranges : List.Forall₂ ImplItem.Rearranges implementation.items items)
    {registers : Bool} {expansion : Expansion} :
    (expandEndpoint library implementation registers = .ok expansion ↔
      expandEndpoint library { implementation with items } registers = .ok expansion) ∧
    (expandEndpoint library implementation registers = .ok expansion →
      expansion.implementation = implementation.stripped) := by
  refine ⟨⟨fun expanded => ?_, fun expanded => ?_⟩, fun expanded => ?_⟩
  · obtain ⟨read, known, written⟩ := Result.bind_eq_ok.mp expanded
    exact Result.bind_eq_ok.mpr ⟨read, (readHandlers_rearranged library rearranges).mp known,
      written⟩
  · obtain ⟨read, known, written⟩ := Result.bind_eq_ok.mp expanded
    exact Result.bind_eq_ok.mpr ⟨read, (readHandlers_rearranged library rearranges).mpr known,
      written⟩
  · obtain ⟨read, known, written⟩ := Result.bind_eq_ok.mp expanded
    cases written
    exact readHandlers_stripped library known

end Rearranging

/-- `#[get("orders.read", "/orders/{id}")] #[openapi({ summary: "Read" })] #[inline]`,
the first two in either order. -/
def readOrder (swapped : Bool) : ImplItem :=
  let route : Attribute := ⟨some (lit "get"), .list [.literal (.str (lit "orders.read")),
    .punct ',', .literal (.str (lit "/orders/{id}"))]⟩
  let operation : Attribute := ⟨some (lit "openapi"), .list [.group .brace
    [.ident (lit "summary"), .punct ':', .literal (.str (lit "Read"))]]⟩
  let inline : Attribute := ⟨some (lit "inline"), .path⟩
  .method {
    attributes := if swapped then [operation, route, inline] else [route, operation, inline]
    ident := lit "read"
    inputs := [.receiver]
    output := none }

attribute [local instance] FieldOrder.byInsertion

/-- A route before its Operation Object expands as one behind it. -/
theorem expandEndpoint_rearranged_readOrder :
    ∃ expansion,
      expandEndpoint plainLibrary ⟨false, false, [], [readOrder false]⟩ true = .ok expansion ∧
      expandEndpoint plainLibrary ⟨false, false, [], [readOrder true]⟩ true = .ok expansion ∧
      expansion.implementation = (⟨false, false, [], [readOrder false]⟩ : ItemImpl).stripped := by
  have rearranges : List.Forall₂ ImplItem.Rearranges [readOrder false] [readOrder true] :=
    .cons (.method ⟨.swap _ _ _, rfl, rfl⟩) .nil
  have expanded : ∃ expansion,
      expandEndpoint plainLibrary ⟨false, false, [], [readOrder false]⟩ true = .ok expansion :=
    ⟨_, rfl⟩
  obtain ⟨expansion, expanded⟩ := expanded
  obtain ⟨same, stripped⟩ := @expandEndpoint_rearranged _ plainLibrary
    ⟨false, false, [], [readOrder false]⟩ [readOrder true] rearranges true expansion
  exact ⟨expansion, expanded, same.mp expanded, stripped expanded⟩

end Endpoint
