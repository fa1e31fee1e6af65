import LensoWeb.Endpoint.Operation
import LensoWeb.Endpoint.Strict
import LensoWeb.Foundation.Render

/-!
# Handler attributes

`#[endpoint]` takes its own attributes off an implementation block and its methods and
leaves all others in their order. A method may declare one route, one Operation Object and
one strict contract, and any number of middleware lists, in any order.

Which words are identifiers and how an integer literal is read belong to the token library.
-/

namespace Endpoint

open Foundation

/-- What the macro and the code that it writes use of other libraries. `readJson` is
`serde_json::from_str`. -/
structure MacroLibrary where
  number : NumberReader
  readJson : Str → Option Json
  acceptsIdent : Str → Bool
  base10Parse : Str → Option Nat

/-- `syn::Meta`, without the path. -/
inductive Meta where
  | path
  | list (tokens : List Token)
  | nameValue

/-- `syn::Attribute`. The path is known if it is a single identifier. -/
structure Attribute where
  path : Option Str
  content : Meta

/-- `Attribute::parse_args_with`: only a list has arguments. -/
def Attribute.parseArgs {α : Type} (attr : Attribute)
    (parser : List Token → Except ParseError α) : Except ParseError α :=
  match attr.content with
  | .list tokens => parser tokens
  | _ => .error .syn

/-- `Punctuated::parse_terminated` with commas, for items of one token. -/
def parseTerminated {α : Type} (item : Token → Option α) (tokens : List Token) :
    Except ParseError (List α) :=
  readTerminated
    (fun items tokens =>
      match tokens with
      | token :: rest =>
          match item token with
          | some value => .ok (items ++ [value], rest)
          | none => .error .syn
      | [] => .error .syn)
    (Token.isPunct ',') .syn tokens.length [] tokens

/-- The text of a string literal. -/
def Token.str? : Token → Option Str
  | literal (.str value) => some value
  | _ => none

section Arguments

variable [FieldOrder] (library : MacroLibrary)

/-- An identifier that is not a keyword. -/
def Token.ident? : Token → Option Str
  | ident text => if library.acceptsIdent text then some text else none
  | _ => none

/-- The arguments of a middleware attribute. -/
def Attribute.middlewares (attr : Attribute) : Except ParseError (List Str) := do
  let arguments ← attr.parseArgs (parseTerminated (Token.ident? library))
  if arguments.isEmpty then .error (.message (lit "middleware requires at least one provider method"))
  else return arguments

/-- One round of `take_provider_middlewares`. -/
def takeProviderMiddleware (taken : List Str × List Attribute) (attr : Attribute) :
    Except ParseError (List Str × List Attribute) :=
  if attr.path = some (lit "middleware") then do
    return (taken.1 ++ (← attr.middlewares library), taken.2)
  else .ok (taken.1, taken.2 ++ [attr])

/-- `take_provider_middlewares`: the middleware, and the attributes that are left. -/
def takeProviderMiddlewares (attributes : List Attribute) :
    Except ParseError (List Str × List Attribute) :=
  attributes.foldlM (takeProviderMiddleware library) ([], [])

/-! ### Operation Objects -/

/-- `reject_reserved_openapi_keys`, behind the check for an operation id. -/
def rejectReservedKeys (operation : List (Str × Json)) : Except ParseError Unit :=
  if (Assoc.find (lit "operationId") operation).isSome then
    .error (.message (lit "OpenAPI operationId is generated from the stable route ID"))
  else if (Assoc.find (lit "x-lenso-contract") operation).isSome then
    .error (.message (lit
      "x-lenso-contract is reserved for generated strict OpenAPI contract checks"))
  else .ok ()

/-- `operation_literal`. -/
def operationLiteral (operation : List (Str × Json)) : Except ParseError Str := do
  rejectReservedKeys operation
  return (Json.object operation).render

/-- `validate_openapi_operation`. -/
def validateOpenapiOperation (operation : Str) : Except ParseError Unit :=
  match library.readJson operation with
  | none => .error (.message (lit "OpenAPI Operation Object is not valid JSON"))
  | some (.object fields) => rejectReservedKeys fields
  | some _ => .error (.message (lit "OpenAPI operation metadata must be a JSON object"))

/-- `OpenApiOperation::parse` and `into_literal`: a JSON text, or an object in braces. -/
def parseOpenApiOperation : List Token → Except ParseError Str
  | .literal (.str operation) :: rest =>
      if rest.isEmpty then do
        validateOpenapiOperation library operation
        return operation
      else .error .syn
  | .group .brace content :: rest => do
      let fields ← parseObjectEntries library.number content
      if rest.isEmpty then operationLiteral fields else .error .syn
  | _ => .error .syn

/-! ### Strict contracts -/

/-- `OpenApiContractMetadata`, with the sources of its integers. -/
structure OpenApiContractMetadata where
  success : Option Str
  errors : List (Str × Str)
deriving DecidableEq

/-- `LitInt::parse`. -/
def parseLitInt (tokens : List Token) : Except ParseError (Str × List Token) :=
  match parseLit tokens with
  | .ok (.int source, rest) => .ok (source, rest)
  | _ => .error .syn

/-- `OpenApiContractError::parse`, one round of the list of errors. -/
def parseContractError (errors : List (Str × Str)) :
    List Token → Except ParseError (List (Str × Str) × List Token)
  | .group .parenthesis content :: rest => do
      let (status, behind) ← parseLitInt content
      match behind with
      | .punct mark :: .literal (.str code) :: behind =>
          if mark ≠ ',' then .error .syn
          else if !behind.isEmpty then
            .error (.message (lit "a strict OpenAPI error is `(status, \"code\")`"))
          else .ok (errors ++ [(status, code)], rest)
      | _ => .error .syn
  | _ => .error .syn

/-- One round of `OpenApiContractMetadata::parse`; the flag is `errors_seen`. -/
def parseContractEntry (metadata : OpenApiContractMetadata × Bool) :
    List Token → Except ParseError ((OpenApiContractMetadata × Bool) × List Token)
  | .ident key :: .punct mark :: rest =>
      if !library.acceptsIdent key || mark != '=' then .error .syn
      else if key = lit "success" then
        if metadata.1.success.isSome then
          .error (.message (lit "duplicate openapi_contract success"))
        else do
          let (status, rest) ← parseLitInt rest
          return (({ metadata.1 with success := some status }, metadata.2), rest)
      else if key = lit "errors" then
        if metadata.2 then .error (.message (lit "duplicate openapi_contract errors"))
        else
          match rest with
          | .group .bracket content :: rest => do
              let errors ← readTerminated parseContractError (Token.isPunct ',') .syn
                content.length [] content
              return (({ metadata.1 with errors := errors }, true), rest)
          | _ => .error .syn
      else .error (.message (lit "openapi_contract accepts only `success` and `errors`"))
  | _ => .error .syn

/-- `OpenApiContractMetadata::parse`. -/
def parseContractMetadata (tokens : List Token) : Except ParseError OpenApiContractMetadata := do
  let metadata ← readTerminated (parseContractEntry library) (Token.isPunct ',') .syn
    tokens.length (⟨none, []⟩, false) tokens
  return metadata.1

/-- The metadata of a contract attribute, which may have no arguments. -/
def Attribute.contract (attr : Attribute) : Except ParseError OpenApiContractMetadata :=
  match attr.content with
  | .path => .ok ⟨none, []⟩
  | _ => attr.parseArgs (parseContractMetadata library)

/-! ### Routes -/

/-- `http_method`. -/
def httpMethod (attr : Attribute) : Option Str :=
  [(lit "get", lit "GET"), (lit "post", lit "POST"), (lit "put", lit "PUT"),
    (lit "patch", lit "PATCH"), (lit "delete", lit "DELETE"), (lit "head", lit "HEAD"),
    (lit "options", lit "OPTIONS"), (lit "query", lit "QUERY")].findSome? fun entry =>
      if attr.path = some entry.1 then some entry.2 else none

/-- `RouteArguments::parse`. -/
def parseRouteArguments (tokens : List Token) : Except ParseError (Str × Str) := do
  match ← parseTerminated Token.str? tokens with
  | [routeId, path] => return (routeId, path)
  | _ => .error (.message (lit "HTTP handler attributes require a route ID and path"))

/-- The route of a handler attribute with the method. -/
def Attribute.route (attr : Attribute) (method : Str) : Except ParseError EndpointRoute := do
  let (routeId, path) ← attr.parseArgs parseRouteArguments
  return ⟨routeId, method, path⟩

/-- `HandlerMetadata`. -/
structure HandlerMetadata where
  route : Option EndpointRoute
  middlewares : List Str
  openapi : Option Str
  contract : Option OpenApiContractMetadata

/-- One round of `take_handler_metadata`: what was taken, and the attributes that are left. -/
def takeAttribute (taken : HandlerMetadata × List Attribute) (attr : Attribute) :
    Except ParseError (HandlerMetadata × List Attribute) :=
  let (metadata, retained) := taken
  if attr.path = some (lit "middleware") then do
    let arguments ← attr.middlewares library
    return ({ metadata with middlewares := metadata.middlewares ++ arguments }, retained)
  else if attr.path = some (lit "openapi") then
    if metadata.openapi.isSome then
      .error (.message (lit "an endpoint handler may declare only one OpenAPI Operation Object"))
    else do
      let operation ← attr.parseArgs (parseOpenApiOperation library)
      return ({ metadata with openapi := some operation }, retained)
  else if attr.path = some (lit "openapi_contract") then
    if metadata.contract.isSome then
      .error (.message (lit "an endpoint handler may declare only one strict OpenAPI contract"))
    else do
      let contract ← attr.contract library
      return ({ metadata with contract := some contract }, retained)
  else
    match httpMethod attr with
    | none => .ok (metadata, retained ++ [attr])
    | some method =>
        if metadata.route.isSome then
          .error (.message (lit "an endpoint handler may declare only one HTTP method"))
        else do
          let route ← attr.route method
          return ({ metadata with route := some route }, retained)

/-- `take_handler_metadata`. -/
def takeHandlerMetadata (attributes : List Attribute) :
    Except ParseError (HandlerMetadata × List Attribute) :=
  attributes.foldlM (takeAttribute library) (⟨none, [], none, none⟩, [])

/-! ### What is taken -/

/-- What one attribute contributes to the metadata of its method. -/
inductive Piece where
  | middlewares (methods : List Str)
  | openapi (operation : Str)
  | contract (metadata : OpenApiContractMetadata)
  | route (route : EndpointRoute)
  | foreign

namespace Piece

def middlewares? : Piece → List Str
  | .middlewares methods => methods
  | _ => []

def openapi? : Piece → Option Str
  | .openapi operation => some operation
  | _ => none

def contract? : Piece → Option OpenApiContractMetadata
  | .contract metadata => some metadata
  | _ => none

def route? : Piece → Option EndpointRoute
  | .route declared => some declared
  | _ => none

end Piece

/-- What an attribute contributes on its own. -/
def Attribute.piece (attr : Attribute) : Except ParseError Piece :=
  if attr.path = some (lit "middleware") then
    (attr.middlewares library).map .middlewares
  else if attr.path = some (lit "openapi") then
    (attr.parseArgs (parseOpenApiOperation library)).map .openapi
  else if attr.path = some (lit "openapi_contract") then
    (attr.contract library).map .contract
  else
    match httpMethod attr with
    | none => .ok .foreign
    | some method => (attr.route method).map .route

/-- An attribute that the macro takes off. -/
def Attribute.isOwn (attr : Attribute) : Bool :=
  attr.path == some (lit "middleware") || attr.path == some (lit "openapi") ||
    attr.path == some (lit "openapi_contract") || (httpMethod attr).isSome

/-- Put a piece to what was taken, if there is room for it. -/
def place (taken : HandlerMetadata × List Attribute) (attr : Attribute) :
    Piece → Option (HandlerMetadata × List Attribute)
  | .middlewares methods =>
      some ({ taken.1 with middlewares := taken.1.middlewares ++ methods }, taken.2)
  | .openapi operation =>
      if taken.1.openapi.isSome then none
      else some ({ taken.1 with openapi := some operation }, taken.2)
  | .contract metadata =>
      if taken.1.contract.isSome then none
      else some ({ taken.1 with contract := some metadata }, taken.2)
  | .route route =>
      if taken.1.route.isSome then none else some ({ taken.1 with route := some route }, taken.2)
  | .foreign => some (taken.1, taken.2 ++ [attr])

end Arguments

/-! ### Filling slots -/

/-- A slot that may be filled once. -/
theorem fill_eq_ok_iff {α β : Type} {full : Bool} {message : Str} {read : Except ParseError α}
    {wrap : α → Piece} {build : α → β} {put : Piece → Option β} {next : β}
    (puts : ∀ value, put (wrap value) = if full then none else some (build value)) :
    (if full then Except.error (.message message)
      else do let value ← read; return build value) = Except.ok next ↔
      ∃ piece, read.map wrap = .ok piece ∧ put piece = some next := by
  cases full with
  | true =>
      constructor
      · rintro ⟨⟩
      · rintro ⟨piece, wrapped, placed⟩
        obtain ⟨value, -, rfl⟩ := Result.map_eq_ok.mp wrapped
        rw [puts] at placed
        cases placed
  | false =>
      constructor
      · intro took
        obtain ⟨value, known, took⟩ := Result.bind_eq_ok.mp took
        cases took
        exact ⟨wrap value, Result.map_eq_ok.mpr ⟨value, known, rfl⟩, puts value⟩
      · rintro ⟨piece, wrapped, placed⟩
        obtain ⟨value, known, rfl⟩ := Result.map_eq_ok.mp wrapped
        rw [puts] at placed
        cases placed
        rw [known]
        rfl

theorem toList_some_iff {α : Type} {value : α} {before after : Option α} :
    after.toList = before.toList ++ [value] ↔ before.isSome = false ∧ after = some value := by
  cases before <;> cases after <;> simp

/-- What was taken grew by a piece. -/
structure Grows (taken next : HandlerMetadata × List Attribute) (attr : Attribute)
    (piece : Piece) : Prop where
  route : next.1.route.toList = taken.1.route.toList ++ piece.route?.toList
  middlewares : next.1.middlewares = taken.1.middlewares ++ piece.middlewares?
  openapi : next.1.openapi.toList = taken.1.openapi.toList ++ piece.openapi?.toList
  contract : next.1.contract.toList = taken.1.contract.toList ++ piece.contract?.toList
  retained : next.2 = taken.2 ++ if attr.isOwn then [] else [attr]

/-- Placing a piece is growing by it. -/
theorem place_eq_some_iff {taken next : HandlerMetadata × List Attribute}
    {attr : Attribute} {piece : Piece} (own : attr.isOwn = false ↔ piece = .foreign) :
    place taken attr piece = some next ↔ Grows taken next attr piece := by
  obtain ⟨⟨route, middlewares, openapi, contract⟩, retained⟩ := taken
  obtain ⟨⟨route', middlewares', openapi', contract'⟩, retained'⟩ := next
  have same : ∀ {α : Type} {before after : Option α}, after.toList = before.toList ↔
      before = after := by
    intro α before after
    cases before <;> cases after <;> simp [eq_comm]
  have grows : Grows ((⟨route, middlewares, openapi, contract⟩ : HandlerMetadata), retained)
      (⟨route', middlewares', openapi', contract'⟩, retained') attr piece ↔
      route'.toList = route.toList ++ piece.route?.toList ∧
      middlewares' = middlewares ++ piece.middlewares? ∧
      openapi'.toList = openapi.toList ++ piece.openapi?.toList ∧
      contract'.toList = contract.toList ++ piece.contract?.toList ∧
      retained' = retained ++ if attr.isOwn then [] else [attr] :=
    ⟨fun grown => ⟨grown.1, grown.2, grown.3, grown.4, grown.5⟩,
      fun grown => ⟨grown.1, grown.2.1, grown.2.2.1, grown.2.2.2.1, grown.2.2.2.2⟩⟩
  have taken : piece ≠ .foreign → attr.isOwn = true := fun contributes =>
    Bool.eq_true_of_not_eq_false fun foreign => contributes (own.mp foreign)
  rw [grows]
  cases piece with
  | foreign =>
      rw [own.mpr rfl]
      simp only [place, Piece.route?, Piece.middlewares?, Piece.openapi?, Piece.contract?,
        Option.toList_none, List.append_nil, same, Option.some.injEq, Prod.mk.injEq,
        HandlerMetadata.mk.injEq, Bool.false_eq_true, if_false]
      grind
  | middlewares methods =>
      rw [taken nofun]
      simp only [place, Piece.route?, Piece.middlewares?, Piece.openapi?, Piece.contract?,
        Option.toList_none, List.append_nil, same, Option.some.injEq, Prod.mk.injEq,
        HandlerMetadata.mk.injEq, if_true]
      grind
  | openapi operation =>
      rw [taken nofun]
      simp only [place, Piece.route?, Piece.middlewares?, Piece.openapi?, Piece.contract?,
        Option.toList_none, List.append_nil, same, Option.toList_some, toList_some_iff,
        Option.ite_none_left_eq_some, Bool.not_eq_true, Option.some.injEq, Prod.mk.injEq,
        HandlerMetadata.mk.injEq, if_true]
      grind
  | contract metadata =>
      rw [taken nofun]
      simp only [place, Piece.route?, Piece.middlewares?, Piece.openapi?, Piece.contract?,
        Option.toList_none, List.append_nil, same, Option.toList_some, toList_some_iff,
        Option.ite_none_left_eq_some, Bool.not_eq_true, Option.some.injEq, Prod.mk.injEq,
        HandlerMetadata.mk.injEq, if_true]
      grind
  | route declared =>
      rw [taken nofun]
      simp only [place, Piece.route?, Piece.middlewares?, Piece.openapi?, Piece.contract?,
        Option.toList_none, List.append_nil, same, Option.toList_some, toList_some_iff,
        Option.ite_none_left_eq_some, Bool.not_eq_true, Option.some.injEq, Prod.mk.injEq,
        HandlerMetadata.mk.injEq, if_true]
      grind

/-- A slot is filled by the first or by one of the others. -/
theorem slot_iff {α : Type} {before first after : Option α} {others : List α} :
    after.toList = before.toList ++ (first.toList ++ others) ↔
      ∃ middle : Option α, middle.toList = before.toList ++ first.toList ∧
        after.toList = middle.toList ++ others := by
  constructor
  · intro filled
    refine ⟨before.or first, ?_, ?_⟩
    · cases before <;> cases first <;> cases after <;> simp_all
    · cases before <;> cases first <;> cases after <;> simp_all
  · rintro ⟨middle, begun, filled⟩
    rw [filled, begun, List.append_assoc]

theorem filterMap_cons_toList {α β : Type} (convert : α → Option β) (first : α) (rest : List α) :
    (first :: rest).filterMap convert = (convert first).toList ++ rest.filterMap convert := by
  rw [List.filterMap_cons]
  cases convert first <;> rfl

theorem flatMap_filter_of_nil {α β : Type} {gives : α → List β} {keep : α → Bool}
    (silent : ∀ value, keep value = false → gives value = []) (values : List α) :
    (values.filter keep).flatMap gives = values.flatMap gives := by
  induction values with
  | nil => rfl
  | cons value rest ih =>
      rw [List.flatMap_cons, List.filter_cons]
      cases kept : keep value with
      | true => rw [if_pos rfl, List.flatMap_cons, ih]
      | false => rw [if_neg (by simp), silent value kept, List.nil_append, ih]

/-- Attributes in another order, with the middleware lists and all that is left in place. -/
structure Rearranged (attributes others : List Attribute) : Prop where
  perm : attributes.Perm others
  middlewares : (attributes.filter fun attr => attr.path == some (lit "middleware")) =
    others.filter fun attr => attr.path == some (lit "middleware")
  retained : (attributes.filter fun attr => !attr.isOwn) =
    others.filter fun attr => !attr.isOwn

theorem Rearranged.symm {attributes others : List Attribute}
    (rearranged : Rearranged attributes others) : Rearranged others attributes :=
  ⟨rearranged.perm.symm, rearranged.middlewares.symm, rearranged.retained.symm⟩

/-! ### Taking all attributes -/

section Taking

variable [FieldOrder] (library : MacroLibrary)

/-- A round takes what the attribute contributes, if there is room for it. -/
theorem takeAttribute_eq_ok_iff {taken next : HandlerMetadata × List Attribute}
    {attr : Attribute} :
    takeAttribute library taken attr = .ok next ↔
      ∃ piece, attr.piece library = .ok piece ∧ place taken attr piece = some next := by
  obtain ⟨metadata, retained⟩ := taken
  unfold takeAttribute Attribute.piece
  dsimp only
  split
  · exact @fill_eq_ok_iff _ _ false [] _ _ _ _ _ fun _ => rfl
  split
  · exact fill_eq_ok_iff fun _ => rfl
  split
  · exact fill_eq_ok_iff fun _ => rfl
  split
  · constructor
    · rintro ⟨⟩
      exact ⟨.foreign, rfl, rfl⟩
    · rintro ⟨piece, ⟨⟩, ⟨⟩⟩
      rfl
  · exact fill_eq_ok_iff fun _ => rfl

/-- The macro leaves exactly the attributes that contribute nothing. -/
theorem isOwn_of_piece {attr : Attribute} {piece : Piece}
    (read : attr.piece library = .ok piece) :
    attr.isOwn = false ↔ piece = .foreign := by
  have own : ∀ {α : Type} {result : Except ParseError α} {wrap : α → Piece},
      result.map wrap = .ok piece → (∀ value, wrap value ≠ .foreign) → attr.isOwn = true →
      (attr.isOwn = false ↔ piece = .foreign) := by
    intro α result wrap mapped apart own
    obtain ⟨value, -, rfl⟩ := Result.map_eq_ok.mp mapped
    rw [own]
    exact iff_of_false nofun (apart value)
  unfold Attribute.piece at read
  by_cases isMiddleware : attr.path = some (lit "middleware")
  · rw [if_pos isMiddleware] at read
    exact own read (fun _ => nofun) (by simp [Attribute.isOwn, isMiddleware])
  rw [if_neg isMiddleware] at read
  by_cases isOpenapi : attr.path = some (lit "openapi")
  · rw [if_pos isOpenapi] at read
    exact own read (fun _ => nofun) (by simp [Attribute.isOwn, isOpenapi])
  rw [if_neg isOpenapi] at read
  by_cases isContract : attr.path = some (lit "openapi_contract")
  · rw [if_pos isContract] at read
    exact own read (fun _ => nofun) (by simp [Attribute.isOwn, isContract])
  rw [if_neg isContract] at read
  split at read
  · next noMethod =>
    cases read
    exact iff_of_true
      (by simp [Attribute.isOwn, isMiddleware, isOpenapi, isContract, noMethod]) rfl
  · next method found => exact own read (fun _ => nofun) (by simp [Attribute.isOwn, found])

/-- What one attribute contributes, if it can be read. -/
def Attribute.piece? (attr : Attribute) : Option Piece := (attr.piece library).toOption

/-- What the attributes of a method contribute together. -/
structure Collects (attributes : List Attribute) (taken next : HandlerMetadata × List Attribute) :
    Prop where
  readable : ∀ attr ∈ attributes, (attr.piece? library).isSome = true
  route : next.1.route.toList = taken.1.route.toList ++
    attributes.filterMap fun attr => (attr.piece? library).bind Piece.route?
  middlewares : next.1.middlewares = taken.1.middlewares ++
    attributes.flatMap fun attr => (attr.piece? library).elim [] Piece.middlewares?
  openapi : next.1.openapi.toList = taken.1.openapi.toList ++
    attributes.filterMap fun attr => (attr.piece? library).bind Piece.openapi?
  contract : next.1.contract.toList = taken.1.contract.toList ++
    attributes.filterMap fun attr => (attr.piece? library).bind Piece.contract?
  retained : next.2 = taken.2 ++ attributes.filter fun attr => !attr.isOwn

theorem piece?_eq_some {attr : Attribute} {piece : Piece} :
    attr.piece? library = some piece ↔ attr.piece library = .ok piece := by
  unfold Attribute.piece?
  cases attr.piece library <;> simp [Except.toOption]

/-- The contributions of a first attribute and of the others. -/
theorem collects_cons_iff {attr : Attribute} {rest : List Attribute}
    {taken next : HandlerMetadata × List Attribute} :
    Collects library (attr :: rest) taken next ↔
      ∃ middle piece, attr.piece library = .ok piece ∧
        Grows taken middle attr piece ∧ Collects library rest middle next := by
  constructor
  · rintro ⟨readable, route, middlewares, openapi, contract, retained⟩
    obtain ⟨piece, known⟩ := Option.isSome_iff_exists.mp (readable _ List.mem_cons_self)
    rw [filterMap_cons_toList, known, Option.bind_some] at route openapi contract
    rw [List.flatMap_cons, known, Option.elim_some] at middlewares
    obtain ⟨firstRoute, begunRoute, route⟩ := slot_iff.mp route
    obtain ⟨firstOpenapi, begunOpenapi, openapi⟩ := slot_iff.mp openapi
    obtain ⟨firstContract, begunContract, contract⟩ := slot_iff.mp contract
    refine ⟨(⟨firstRoute, taken.1.middlewares ++ piece.middlewares?, firstOpenapi, firstContract⟩,
      taken.2 ++ if attr.isOwn then [] else [attr]), piece,
      (piece?_eq_some library).mp known, ⟨begunRoute, rfl, begunOpenapi, begunContract, rfl⟩,
      fun other member => readable other (List.mem_cons_of_mem _ member), route, ?_, openapi,
      contract, ?_⟩
    · rw [middlewares, List.append_assoc]
    · rw [retained, List.filter_cons]
      cases attr.isOwn <;> simp
  · rintro ⟨middle, piece, read, grows, later⟩
    have known := (piece?_eq_some library).mpr read
    refine ⟨?_, ?_, ?_, ?_, ?_, ?_⟩
    · intro other member
      obtain rfl | inside := List.mem_cons.mp member
      · rw [known]
        rfl
      · exact later.readable other inside
    · rw [filterMap_cons_toList, known, Option.bind_some]
      exact slot_iff.mpr ⟨_, grows.route, later.route⟩
    · rw [later.middlewares, grows.middlewares, List.flatMap_cons, known, Option.elim_some,
        List.append_assoc]
    · rw [filterMap_cons_toList, known, Option.bind_some]
      exact slot_iff.mpr ⟨_, grows.openapi, later.openapi⟩
    · rw [filterMap_cons_toList, known, Option.bind_some]
      exact slot_iff.mpr ⟨_, grows.contract, later.contract⟩
    · rw [later.retained, grows.retained, List.filter_cons, List.append_assoc]
      cases attr.isOwn <;> simp

theorem takeAttributes_eq_ok_iff {attributes : List Attribute}
    {taken next : HandlerMetadata × List Attribute} :
    attributes.foldlM (takeAttribute library) taken = .ok next ↔
      Collects library attributes taken next := by
  induction attributes generalizing taken with
  | nil =>
      have same : ∀ {α : Type} {before after : Option α},
          after.toList = before.toList ++ [] → before = after := by
        intro α before after
        cases before <;> cases after <;> simp [eq_comm]
      constructor
      · rintro ⟨⟩
        constructor <;> simp
      · rintro ⟨-, route, middlewares, openapi, contract, retained⟩
        obtain ⟨⟨_, _, _, _⟩, _⟩ := taken
        obtain ⟨⟨_, _, _, _⟩, _⟩ := next
        obtain rfl := same route
        obtain rfl := same openapi
        obtain rfl := same contract
        simp only [List.flatMap_nil, List.filter_nil, List.append_nil] at middlewares retained
        rw [middlewares, retained]
        rfl
  | cons attr rest ih =>
      rw [List.foldlM_cons, collects_cons_iff]
      constructor
      · intro folded
        obtain ⟨middle, took, folded⟩ := Result.bind_eq_ok.mp folded
        obtain ⟨piece, read, placed⟩ := (takeAttribute_eq_ok_iff library).mp took
        exact ⟨middle, piece, read, (place_eq_some_iff (isOwn_of_piece library read)).mp placed,
          ih.mp folded⟩
      · rintro ⟨middle, piece, read, grows, later⟩
        refine Result.bind_eq_ok.mpr ⟨middle, ?_, ih.mpr later⟩
        exact (takeAttribute_eq_ok_iff library).mpr
          ⟨piece, read, (place_eq_some_iff (isOwn_of_piece library read)).mpr grows⟩

/-- Only a middleware list contributes middleware. -/
theorem middlewares_of_piece {attr : Attribute}
    (other : (attr.path == some (lit "middleware")) = false) :
    (attr.piece? library).elim [] Piece.middlewares? = [] := by
  have silent : ∀ {α : Type} {result : Except ParseError α} {wrap : α → Piece},
      (∀ value, (wrap value).middlewares? = []) →
      ((result.map wrap).toOption).elim [] Piece.middlewares? = [] := by
    intro α result wrap empty
    cases result with
    | error _ => rfl
    | ok value => exact empty value
  have path : attr.path ≠ some (lit "middleware") := by
    rintro same
    rw [same] at other
    cases other
  unfold Attribute.piece? Attribute.piece
  rw [if_neg path]
  split
  · exact silent fun _ => rfl
  split
  · exact silent fun _ => rfl
  split
  · rfl
  · exact silent fun _ => rfl

theorem Collects.rearrange {attributes others : List Attribute}
    {taken next : HandlerMetadata × List Attribute} (collects : Collects library attributes taken next)
    (rearranged : Rearranged attributes others) (start : taken = (⟨none, [], none, none⟩, [])) :
    Collects library others taken next := by
  subst start
  have slot : ∀ {α : Type} {after : Option α} {convert : Attribute → Option α},
      after.toList = [] ++ attributes.filterMap convert →
      after.toList = [] ++ others.filterMap convert := by
    intro α after convert filled
    have perm := rearranged.perm.filterMap convert
    rw [List.nil_append] at filled ⊢
    rw [← filled] at perm
    cases after with
    | none => exact perm.nil_eq
    | some value => exact List.singleton_perm.mp perm
  refine ⟨fun attr member => collects.readable _ (rearranged.perm.mem_iff.mpr member),
    slot collects.route, ?_, slot collects.openapi, slot collects.contract, ?_⟩
  · have silent : ∀ attr : Attribute, (attr.path == some (lit "middleware")) = false →
        (attr.piece? library).elim [] Piece.middlewares? = [] :=
      fun attr => middlewares_of_piece library
    rw [collects.middlewares, ← flatMap_filter_of_nil silent attributes, rearranged.middlewares,
      flatMap_filter_of_nil silent others]
  · rw [collects.retained, rearranged.retained]

/-- The order in which a method declares its route, operation and contract does not matter. -/
theorem takeHandlerMetadata_rearranged {attributes others : List Attribute}
    (rearranged : Rearranged attributes others) {taken : HandlerMetadata × List Attribute} :
    takeHandlerMetadata library attributes = .ok taken ↔
      takeHandlerMetadata library others = .ok taken := by
  rw [takeHandlerMetadata, takeHandlerMetadata, takeAttributes_eq_ok_iff, takeAttributes_eq_ok_iff]
  exact ⟨fun collects => collects.rearrange library rearranged rfl,
    fun collects => collects.rearrange library rearranged.symm rfl⟩

end Taking

/-! ### A library -/

/-- The numbers that are written in decimal digits. -/
def decimalReader : NumberReader where
  read source :=
    if digits : source ≠ [] ∧ source.all Char.isDigit = true then
      some ⟨source, digits.1, List.all_eq_true.mpr fun c member => by
        rw [List.all_eq_true.mp digits.2 c member, Bool.true_or]⟩
    else none
  unsigned source := dif_neg fun digits => absurd digits.2 (by simp)

open Classical in
/-- The texts that are written without white space. -/
noncomputable def readCompact (text : Str) : Option Json :=
  if written : ∃ value, Json.render value = text then some written.choose else none

theorem readCompact_render (value : Json) : readCompact value.render = some value := by
  have written : ∃ other, Json.render other = value.render := ⟨value, rfl⟩
  rw [readCompact, dif_pos written, Json.render_injective written.choose_spec]

/-- Every word is an identifier, and integers are written in decimal digits. -/
noncomputable def plainLibrary : MacroLibrary where
  number := decimalReader
  readJson := readCompact
  acceptsIdent _ := true
  base10Parse source := source.foldlM (fun value c =>
    if c.isDigit then some (10 * value + (c.toNat - 48)) else none) 0

end Endpoint
