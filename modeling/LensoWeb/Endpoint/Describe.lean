import LensoWeb.Endpoint.Expand
import LensoWeb.OpenApi.Assemble

/-!
# Descriptions of authored endpoints

An authored route carries its Operation Object as a text and its contract as a factory. A
description reads the text back and runs the factory, and what it publishes is what the
attributes of the methods say. The macro reads a text when it is compiled, but not the text
that it writes for an object in braces; a description fails only where that text is not read
or a factory fails.
-/

namespace Endpoint

open Foundation OpenApi

/-- `DescribeError`, as far as an authored endpoint returns it. -/
inductive DescribeError where
  | invalidConfiguration
deriving DecidableEq

section Publishing

variable [FieldOrder] (library : MacroLibrary) {Value : Ty → Type}
  (types : (ty : Ty) → DataType (Value ty))

/-- The factory that `contract_factory` writes. -/
def contractFactory (route : EndpointRoute) (contract : EndpointContract) : Except Str Json :=
  OpenApiContract.run route.routeId route.method route.path
    (contractCalls types contract.shape contract.success contract.successStatus contract.problems)

/-- `serde_json::from_str` at a map. -/
def readOperation (operation : Str) : Except DescribeError (SortedMap Str Json) :=
  match library.readJson operation with
  | some (.object fields) => .ok ((∅ : SortedMap Str Json).insertAll fields)
  | _ => .error .invalidConfiguration

/-- The part of `into_description` for a contract. -/
def attachContract (route : AuthoredRoute) (openapi : Option (SortedMap Str Json)) :
    Except DescribeError (Option (SortedMap Str Json)) :=
  match route.contract with
  | none => .ok openapi
  | some contract =>
      match contractFactory types route.route contract with
      | .error _ => .error .invalidConfiguration
      | .ok built =>
          let operation := openapi.getD ∅
          if (operation.get contractExtension).isSome then .error .invalidConfiguration
          else .ok (some (operation.insert contractExtension built))

/-- `EndpointRoute::into_description`. -/
def AuthoredRoute.intoDescription (route : AuthoredRoute) : Except DescribeError OpenApi.Route := do
  let openapi ← route.openapi.mapM (readOperation library)
  let openapi ← attachContract types route openapi
  return ⟨route.route.method, openapi, route.route.path, route.route.routeId⟩

/-- `EndpointProvider::describe`. -/
def Expansion.describe (expansion : Expansion) : Except DescribeError DescribeResponse := do
  return ⟨← expansion.routes.mapM (AuthoredRoute.intoDescription library types)⟩

/-! ### What the attributes say -/

/-- The text of an object is read, if at all, as an object with the same keys. The nesting of
what is read has a bound, and a float may come back as a neighbour. -/
def MacroLibrary.KeepsKeys : Prop :=
  ∀ written value, ObjectMap.Arranged written →
    library.readJson (Json.object written).render = some value →
    ∃ fields, value = .object fields ∧ (fields.map Prod.fst).Perm (written.map Prod.fst)

/-- The Operation Object of an attribute in braces. -/
def Attribute.Writes (attr : Attribute) (written : List (Str × Json)) : Prop :=
  ∃ content, attr.content = .list [.group .brace content] ∧
    WritesEntries library.number written content

/-- What is read of the Operation Object of an attribute, which is a text or is written as one. -/
def Attribute.Documents (attr : Attribute) (fields : List (Str × Json)) : Prop :=
  (∃ text, attr.content = .list [.literal (.str text)] ∧
    library.readJson text = some (.object fields)) ∨
  ∃ written, attr.Writes library written ∧
    library.readJson (Json.object written).render = some (.object fields)

/-- An Operation Object in braces that is written as a text which is not read. -/
def Attribute.Unreadable (attr : Attribute) : Prop :=
  attr.path = some (lit "openapi") ∧ ∃ written, attr.Writes library written ∧
    library.readJson (Json.object written).render = none

/-- The strict contract of a method. -/
def StrictContract (method : ImplItemFn) (contract : EndpointContract) : Prop :=
  ∃ attr ∈ method.attributes, attr.path = some (lit "openapi_contract") ∧
    ∃ metadata, attr.contract library = .ok metadata ∧
      deriveEndpointContract library.base10Parse method metadata = .ok contract

/-- A handler as the attributes of its method declare it. -/
structure Authored (middlewares : List Str) (method : ImplItemFn) (handler : Handler) : Prop where
  route : ∃ attr ∈ method.attributes, ∃ verb, httpMethod attr = some verb ∧
    attr.route verb = .ok handler.route
  openapi : ∀ attr ∈ method.attributes, attr.path = some (lit "openapi") →
    ∃ text, attr.parseArgs (parseOpenApiOperation library) = .ok text ∧
      handler.openapi = some text
  undocumented : (∀ attr ∈ method.attributes, attr.path ≠ some (lit "openapi")) →
    handler.openapi = none
  contract : ∀ contract, handler.contract = some contract → StrictContract library method contract
  unchecked : handler.contract = none ↔
    ∀ attr ∈ method.attributes, attr.path ≠ some (lit "openapi_contract")
  complete : handler.contract.isSome = true → handler.openapi.isSome = true
  middlewares : handler.middlewares = middlewares ++
    method.attributes.flatMap fun attr =>
      (attr.piece? library).elim [] Piece.middlewares?
  ident : handler.method = method.ident
  arguments : handlerArguments method.inputs = .ok handler.arguments

/-- The methods that declare a route. -/
def ImplItem.endpoint? : ImplItem → Option ImplItemFn
  | .method authored =>
      if authored.attributes.any fun attr => (httpMethod attr).isSome then some authored
      else none
  | .other => none

/-- A route is published as the attributes of its method say: under its own id, method and
path, with the fields of its Operation Object and the contract that its factory builds. -/
structure Publishes (method : ImplItemFn) (route : OpenApi.Route) : Prop where
  declared : ∃ attr ∈ method.attributes, ∃ verb, httpMethod attr = some verb ∧
    attr.route verb = .ok ⟨route.routeId, route.method, route.path⟩
  undocumented : (∀ attr ∈ method.attributes, attr.path ≠ some (lit "openapi")) →
    route.openapi = none
  documented : ∀ attr ∈ method.attributes, attr.path = some (lit "openapi") →
    ∃ fields, attr.Documents library fields ∧
      Assoc.find (lit "operationId") fields = none ∧ Assoc.find contractExtension fields = none ∧
      ((∀ other ∈ method.attributes, other.path ≠ some (lit "openapi_contract")) →
        route.openapi = some ((∅ : SortedMap Str Json).insertAll fields)) ∧
      ∀ other ∈ method.attributes, other.path = some (lit "openapi_contract") →
        ∃ contract built, StrictContract library method contract ∧
          contractFactory types ⟨route.routeId, route.method, route.path⟩ contract = .ok built ∧
          route.openapi = some
            (((∅ : SortedMap Str Json).insertAll fields).insert contractExtension built)

/-! ### Attributes and pieces -/

/-- Only a route attribute contributes a route. -/
theorem route_of_piece {attr : Attribute} {declared : EndpointRoute}
    (read : attr.piece library = .ok (.route declared)) :
    ∃ verb, httpMethod attr = some verb ∧ attr.route verb = .ok declared := by
  unfold Attribute.piece at read
  split at read
  · obtain ⟨_, -, same⟩ := Result.map_eq_ok.mp read
    cases same
  split at read
  · obtain ⟨_, -, same⟩ := Result.map_eq_ok.mp read
    cases same
  split at read
  · obtain ⟨_, -, same⟩ := Result.map_eq_ok.mp read
    cases same
  split at read
  · cases read
  · next verb found =>
    obtain ⟨_, known, same⟩ := Result.map_eq_ok.mp read
    cases same
    exact ⟨verb, found, known⟩

/-- The pieces of the attributes for operations. -/
theorem piece_openapi_iff {attr : Attribute} {text : Str} :
    attr.piece library = .ok (.openapi text) ↔
      attr.path = some (lit "openapi") ∧
        attr.parseArgs (parseOpenApiOperation library) = .ok text := by
  unfold Attribute.piece
  constructor
  · intro read
    split at read
    · obtain ⟨_, -, same⟩ := Result.map_eq_ok.mp read
      cases same
    split at read
    · next path =>
      obtain ⟨_, known, same⟩ := Result.map_eq_ok.mp read
      cases same
      exact ⟨path, known⟩
    split at read
    · obtain ⟨_, -, same⟩ := Result.map_eq_ok.mp read
      cases same
    split at read
    · cases read
    · obtain ⟨_, -, same⟩ := Result.map_eq_ok.mp read
      cases same
  · rintro ⟨path, known⟩
    rw [path, if_neg (by decide), if_pos rfl, known]
    rfl

/-- The pieces of the attributes for contracts. -/
theorem piece_contract_iff {attr : Attribute} {metadata : OpenApiContractMetadata} :
    attr.piece library = .ok (.contract metadata) ↔
      attr.path = some (lit "openapi_contract") ∧
        attr.contract library = .ok metadata := by
  unfold Attribute.piece
  constructor
  · intro read
    split at read
    · obtain ⟨_, -, same⟩ := Result.map_eq_ok.mp read
      cases same
    split at read
    · obtain ⟨_, -, same⟩ := Result.map_eq_ok.mp read
      cases same
    split at read
    · next path =>
      obtain ⟨_, known, same⟩ := Result.map_eq_ok.mp read
      cases same
      exact ⟨path, known⟩
    split at read
    · cases read
    · obtain ⟨_, -, same⟩ := Result.map_eq_ok.mp read
      cases same
  · rintro ⟨path, known⟩
    rw [path, if_neg (by decide), if_neg (by decide), if_pos rfl, known]
    rfl

/-- A route attribute contributes a route. -/
theorem piece_of_httpMethod {attr : Attribute} {verb : Str}
    (found : httpMethod attr = some verb) :
    attr.piece library = (attr.route verb).map .route := by
  have words : ∃ word, attr.path = some word ∧ word ≠ lit "middleware" ∧
      word ≠ lit "openapi" ∧ word ≠ lit "openapi_contract" := by
    obtain ⟨⟨word, method⟩, member, chosen⟩ := List.exists_of_findSome?_eq_some found
    split at chosen
    · next path =>
      refine ⟨word, path, ?_⟩
      have apart : ∀ entry ∈ [(lit "get", lit "GET"), (lit "post", lit "POST"),
          (lit "put", lit "PUT"), (lit "patch", lit "PATCH"), (lit "delete", lit "DELETE"),
          (lit "head", lit "HEAD"), (lit "options", lit "OPTIONS"), (lit "query", lit "QUERY")],
          entry.1 ≠ lit "middleware" ∧ entry.1 ≠ lit "openapi" ∧
            entry.1 ≠ lit "openapi_contract" := by decide
      exact apart _ member
    · cases chosen
  obtain ⟨word, path, other, another, third⟩ := words
  unfold Attribute.piece
  rw [path, if_neg (by simpa using other), if_neg (by simpa using another),
    if_neg (by simpa using third), found]

variable {library}

/-- A slot holds what one of the attributes contributes. -/
theorem held_iff {α : Type} {attributes : List Attribute} {held : Option α}
    {select : Piece → Option α} {value : α} {wrapped : Piece}
    (slot : held.toList = [] ++ attributes.filterMap fun attr =>
      (attr.piece? library).bind select)
    (wraps : ∀ piece, select piece = some value ↔ piece = wrapped) :
    held = some value ↔ ∃ attr ∈ attributes, attr.piece library = .ok wrapped := by
  rw [List.nil_append] at slot
  rw [← Option.mem_toList, slot, List.mem_filterMap]
  simp only [Option.bind_eq_some_iff, piece?_eq_some, wraps, exists_eq_right]

section Collected

variable {attributes : List Attribute} {metadata : HandlerMetadata} {retained : List Attribute}
  (collects : Collects library attributes (⟨none, [], none, none⟩, []) (metadata, retained))

include collects

theorem Collects.readable_piece {attr : Attribute} (member : attr ∈ attributes) :
    ∃ piece, attr.piece library = .ok piece := by
  obtain ⟨piece, known⟩ := Option.isSome_iff_exists.mp (collects.readable attr member)
  exact ⟨piece, (piece?_eq_some library).mp known⟩

theorem Collects.route_iff {declared : EndpointRoute} :
    metadata.route = some declared ↔
      ∃ attr ∈ attributes, attr.piece library = .ok (.route declared) :=
  held_iff collects.route fun piece => by cases piece <;> simp [Piece.route?]

theorem Collects.openapi_iff {text : Str} :
    metadata.openapi = some text ↔
      ∃ attr ∈ attributes, attr.piece library = .ok (.openapi text) :=
  held_iff collects.openapi fun piece => by cases piece <;> simp [Piece.openapi?]

theorem Collects.contract_iff {contract : OpenApiContractMetadata} :
    metadata.contract = some contract ↔
      ∃ attr ∈ attributes, attr.piece library = .ok (.contract contract) :=
  held_iff collects.contract fun piece => by cases piece <;> simp [Piece.contract?]

/-- An operation attribute fills the slot for the operation. -/
theorem Collects.openapi_of_mem {attr : Attribute} (member : attr ∈ attributes)
    (path : attr.path = some (lit "openapi")) :
    ∃ text, attr.parseArgs (parseOpenApiOperation library) = .ok text ∧
      metadata.openapi = some text := by
  obtain ⟨piece, known⟩ := collects.readable_piece member
  have read := known
  unfold Attribute.piece at read
  rw [path, if_neg (by decide), if_pos rfl] at read
  obtain ⟨text, parsed, rfl⟩ := Result.map_eq_ok.mp read
  exact ⟨text, parsed, collects.openapi_iff.mpr ⟨attr, member, known⟩⟩

/-- A contract attribute fills the slot for the contract. -/
theorem Collects.contract_of_mem {attr : Attribute} (member : attr ∈ attributes)
    (path : attr.path = some (lit "openapi_contract")) :
    ∃ contract, metadata.contract = some contract := by
  obtain ⟨piece, known⟩ := collects.readable_piece member
  have read := known
  unfold Attribute.piece at read
  rw [path, if_neg (by decide), if_neg (by decide), if_pos rfl] at read
  obtain ⟨contract, parsed, rfl⟩ := Result.map_eq_ok.mp read
  exact ⟨contract, collects.contract_iff.mpr ⟨attr, member, known⟩⟩

end Collected

/-- The handler of the collected metadata is the one which the attributes declare. -/
theorem Collects.authored {method : ImplItemFn} {metadata : HandlerMetadata}
    {retained : List Attribute}
    (collects : Collects library method.attributes (⟨none, [], none, none⟩, []) (metadata, retained))
    {route : EndpointRoute} (found : metadata.route = some route)
    (documented : ¬ (metadata.contract.isSome && metadata.openapi.isNone) = true)
    {contract : Option EndpointContract}
    (derived : (metadata.contract.mapM fun contract =>
      reported (deriveEndpointContract library.base10Parse method contract)) = .ok contract)
    {arguments : List HandlerArgument}
    (listed : reported (handlerArguments method.inputs) = .ok arguments) (middlewares : List Str) :
    Authored library middlewares method {
      route
      openapi := metadata.openapi
      middlewares := middlewares ++ metadata.middlewares
      method := method.ident
      arguments
      contract } := by
  have strict : contract.isSome = metadata.contract.isSome ∧ ∀ built, contract = some built →
      ∃ declared, metadata.contract = some declared ∧
        deriveEndpointContract library.base10Parse method declared = .ok built := by
    cases held : metadata.contract with
    | none =>
        rw [held] at derived
        cases derived
        exact ⟨rfl, nofun⟩
    | some declared =>
        rw [held] at derived
        obtain ⟨built, known, same⟩ := Result.bind_eq_ok.mp derived
        cases same
        refine ⟨rfl, ?_⟩
        rintro _ ⟨⟩
        exact ⟨declared, rfl, Result.mapError_eq_ok.mp known⟩
  constructor
  · obtain ⟨attr, member, known⟩ := collects.route_iff.mp found
    exact ⟨attr, member, route_of_piece library known⟩
  · exact fun attr member path => collects.openapi_of_mem member path
  · intro silent
    rw [Option.eq_none_iff_forall_ne_some]
    intro text held
    obtain ⟨attr, member, known⟩ := collects.openapi_iff.mp held
    exact silent attr member ((piece_openapi_iff library).mp known).1
  · intro built same
    obtain ⟨declared, held, known⟩ := strict.2 built same
    obtain ⟨attr, member, read⟩ := collects.contract_iff.mp held
    obtain ⟨path, parsed⟩ := (piece_contract_iff library).mp read
    exact ⟨attr, member, path, declared, parsed, known⟩
  · rw [← Option.not_isSome_iff_eq_none, strict.1]
    constructor
    · intro none attr member path
      obtain ⟨declared, held⟩ := collects.contract_of_mem member path
      rw [held] at none
      exact none rfl
    · intro silent some
      obtain ⟨declared, held⟩ := Option.isSome_iff_exists.mp some
      obtain ⟨attr, member, read⟩ := collects.contract_iff.mp held
      exact silent attr member ((piece_contract_iff library).mp read).1
  · intro checked
    rw [strict.1] at checked
    rw [checked, Bool.true_and, Option.isNone_iff_eq_none, ← Option.not_isSome_iff_eq_none,
      not_not] at documented
    exact documented
  · exact congrArg (middlewares ++ ·) collects.middlewares
  · rfl
  · exact Result.mapError_eq_ok.mp listed

/-- An item gives a handler if its method declares a route, and that handler is the one which
the attributes declare. -/
theorem expandItem_authored {middlewares : List Str} {item stripped : ImplItem}
    {written : Option Handler}
    (read : expandItem library middlewares item = .ok (written, stripped)) :
    (written = none ∧ item.endpoint? = none) ∨
      ∃ method handler, written = some handler ∧ item.endpoint? = some method ∧
        Authored library middlewares method handler := by
  cases item with
  | other =>
      cases read
      exact .inl ⟨rfl, rfl⟩
  | method method =>
      obtain ⟨⟨metadata, retained⟩, took, read⟩ := Result.bind_eq_ok.mp read
      obtain ⟨handler, built, read⟩ := Result.bind_eq_ok.mp read
      cases read
      have collects := (takeAttributes_eq_ok_iff library).mp took
      unfold expandHandler at built
      split at built
      · next route found =>
        obtain ⟨attr, member, known⟩ := collects.route_iff.mp found
        obtain ⟨verb, method?, read⟩ := route_of_piece library known
        split at built
        · cases built
        · next documented =>
          obtain ⟨contract, derived, built⟩ := Result.bind_eq_ok.mp built
          obtain ⟨arguments, listed, built⟩ := Result.bind_eq_ok.mp built
          cases built
          refine .inr ⟨method, _, rfl, ?_, ?_⟩
          · refine if_pos (List.any_eq_true.mpr ⟨attr, member, ?_⟩)
            rw [method?]
            rfl
          · exact collects.authored found documented derived listed middlewares
      · next missing =>
        split at built <;> cases built
        refine .inl ⟨rfl, if_neg fun declares => ?_⟩
        obtain ⟨attr, member, found⟩ := List.any_eq_true.mp declares
        obtain ⟨verb, found⟩ := Option.isSome_iff_exists.mp found
        obtain ⟨piece, known⟩ := collects.readable_piece member
        have read := known
        rw [piece_of_httpMethod library found] at read
        obtain ⟨declared, -, rfl⟩ := Result.map_eq_ok.mp read
        rw [collects.route_iff.mpr ⟨attr, member, known⟩] at missing
        cases missing

end Publishing

/-! ### Checked operations -/

/-- What `reject_reserved_openapi_keys` lets through. -/
theorem rejectReservedKeys_eq_ok_iff {fields : List (Str × Json)} :
    rejectReservedKeys fields = .ok () ↔
      Assoc.find (lit "operationId") fields = none ∧ Assoc.find contractExtension fields = none := by
  unfold rejectReservedKeys
  rw [← Option.not_isSome_iff_eq_none, ← Option.not_isSome_iff_eq_none]
  split
  · next reserved => exact ⟨by rintro ⟨⟩, fun free => absurd reserved free.1⟩
  · next free =>
    split
    · next reserved => exact ⟨by rintro ⟨⟩, fun both => absurd reserved both.2⟩
    · next other => exact ⟨fun _ => ⟨free, other⟩, fun _ => rfl⟩

theorem get_insertAll_eq_none {fields : List (Str × Json)} {key : Str}
    (absent : Assoc.find key fields = none) :
    ((∅ : SortedMap Str Json).insertAll fields).get key = none := by
  rw [← Option.not_isSome_iff_eq_none, SortedMap.get_isSome_iff]
  intro member
  obtain new | old := Assoc.mem_keys_insertAll.mp member
  · rw [← Assoc.find_isSome_iff, absent] at new
    cases new
  · exact absurd old List.not_mem_nil

section Checked

variable [FieldOrder] {library : MacroLibrary} {Value : Ty → Type}
  (types : (ty : Ty) → DataType (Value ty))

/-- An operation attribute has a text that is read as an object without reserved keys, or it
has an object in braces whose text is not read. -/
theorem parsed_operation (keeps : library.KeepsKeys) {attr : Attribute}
    (path : attr.path = some (lit "openapi")) {text : Str}
    (parsed : attr.parseArgs (parseOpenApiOperation library) = .ok text) :
    (∃ fields, attr.Documents library fields ∧ library.readJson text = some (.object fields) ∧
      Assoc.find (lit "operationId") fields = none ∧
      Assoc.find contractExtension fields = none) ∨
    attr.Unreadable library ∧ library.readJson text = none := by
  unfold Attribute.parseArgs at parsed
  split at parsed
  · next tokens content =>
    unfold parseOpenApiOperation at parsed
    split at parsed
    · next operation rest =>
      split at parsed
      · next last =>
        obtain ⟨_, valid, same⟩ := Result.bind_eq_ok.mp parsed
        cases same
        obtain rfl := List.isEmpty_iff.mp last
        unfold validateOpenapiOperation at valid
        split at valid
        · cases valid
        · next fields known =>
          exact .inl ⟨fields, .inl ⟨_, content, known⟩, known,
            rejectReservedKeys_eq_ok_iff.mp valid⟩
        · cases valid
      · cases parsed
    · next inner rest =>
      obtain ⟨written, entries, parsed⟩ := Result.bind_eq_ok.mp parsed
      split at parsed
      · next last =>
        obtain ⟨_, valid, same⟩ := Result.bind_eq_ok.mp parsed
        cases same
        obtain rfl := List.isEmpty_iff.mp last
        have notated := (parseObjectEntries_eq_ok_iff library.number).mp entries
        have writes : attr.Writes library written := ⟨inner, content, notated⟩
        cases known : library.readJson (Json.object written).render with
        | none => exact .inr ⟨⟨path, written, writes, known⟩, rfl⟩
        | some value =>
            obtain ⟨fields, rfl, keys⟩ := keeps _ _ (arranged_of_entries notated) known
            -- The keys that the macro has not found are not read either.
            have free : ∀ key, Assoc.find key written = none → Assoc.find key fields = none := by
              intro key absent
              rw [Assoc.find_eq_none_iff] at absent ⊢
              exact fun member => absent (keys.mem_iff.mp member)
            obtain ⟨noId, noContract⟩ := rejectReservedKeys_eq_ok_iff.mp valid
            exact .inl ⟨fields, .inr ⟨written, writes, known⟩, rfl, free _ noId, free _ noContract⟩
      · cases parsed
    · cases parsed
  · cases parsed

/-- The text of an unreadable operation is not read. -/
theorem Attribute.Unreadable.readJson_eq_none {attr : Attribute}
    (unreadable : attr.Unreadable library) {text : Str}
    (parsed : attr.parseArgs (parseOpenApiOperation library) = .ok text) :
    library.readJson text = none := by
  obtain ⟨-, written, ⟨content, braces, entries⟩, known⟩ := unreadable
  rw [Attribute.parseArgs, braces] at parsed
  obtain ⟨fields, read, parsed⟩ := Result.bind_eq_ok.mp parsed
  cases ((parseObjectEntries_eq_ok_iff library.number).mpr entries).symm.trans read
  obtain ⟨_, -, same⟩ := Result.bind_eq_ok.mp parsed
  cases same
  exact known

/-- What is read of the operation of a method. -/
structure ReadsBack (method : ImplItemFn) (operation : Option (SortedMap Str Json)) : Prop where
  free : (operation.getD ∅).get contractExtension = none
  undocumented : (∀ attr ∈ method.attributes, attr.path ≠ some (lit "openapi")) → operation = none
  documented : ∀ attr ∈ method.attributes, attr.path = some (lit "openapi") →
    ∃ fields, attr.Documents library fields ∧ Assoc.find (lit "operationId") fields = none ∧
      Assoc.find contractExtension fields = none ∧
      operation = some ((∅ : SortedMap Str Json).insertAll fields)

/-- The operation of an authored handler is read back, unless it is unreadable. -/
theorem Authored.read_operation (keeps : library.KeepsKeys) {middlewares : List Str}
    {method : ImplItemFn} {handler : Handler}
    (authored : Authored library middlewares method handler) :
    (∃ operation, handler.openapi.mapM (readOperation library) = .ok operation ∧
      @ReadsBack _ library method operation ∧
      ∀ attr ∈ method.attributes, ¬ attr.Unreadable library) ∨
    handler.openapi.mapM (readOperation library) = .error .invalidConfiguration ∧
      ∃ attr ∈ method.attributes, attr.Unreadable library := by
  by_cases silent : ∀ attr ∈ method.attributes, attr.path ≠ some (lit "openapi")
  · rw [authored.undocumented silent]
    exact .inl ⟨none, rfl, ⟨rfl, fun _ => rfl, fun attr member path =>
      absurd path (silent attr member)⟩, fun attr member unreadable =>
      silent attr member unreadable.1⟩
  push Not at silent
  obtain ⟨attr, member, path⟩ := silent
  obtain ⟨text, parsed, held⟩ := authored.openapi attr member path
  obtain ⟨fields, -, read, -, free⟩ | ⟨unreadable, read⟩ := parsed_operation keeps path parsed
  · have mapped : handler.openapi.mapM (readOperation library) =
        .ok (some ((∅ : SortedMap Str Json).insertAll fields)) := by
      rw [held, Option.mapM_some, readOperation, read]
      rfl
    refine .inl ⟨_, mapped, ⟨get_insertAll_eq_none free, fun silent =>
      absurd path (silent attr member), fun other inside written => ?_⟩, fun other inside
      unreadable => ?_⟩
    · obtain ⟨text', parsed', held'⟩ := authored.openapi other inside written
      cases held.symm.trans held'
      obtain ⟨fields', documents', read', free'⟩ | ⟨-, unread⟩ :=
        parsed_operation keeps written parsed'
      · cases read.symm.trans read'
        exact ⟨fields, documents', free'.1, free'.2, rfl⟩
      · cases read.symm.trans unread
    · obtain ⟨text', parsed', held'⟩ := authored.openapi other inside unreadable.1
      cases held.symm.trans held'
      cases read.symm.trans (unreadable.readJson_eq_none parsed')
  · refine .inr ⟨?_, attr, member, unreadable⟩
    rw [held, Option.mapM_some, readOperation, read]
    rfl

variable {types}

/-- The description of an authored handler publishes what its method says. -/
theorem Authored.publishes (keeps : library.KeepsKeys) {middlewares : List Str}
    {method : ImplItemFn} {handler : Handler}
    (authored : Authored library middlewares method handler) {route : OpenApi.Route}
    (described : (endpointRoute handler).intoDescription library types = .ok route) :
    Publishes library types method route := by
  obtain ⟨operation, read, ⟨free, undocumented, documented⟩, -⟩ | ⟨failed, -⟩ :=
    authored.read_operation keeps
  swap
  · obtain ⟨_, known, -⟩ := Result.bind_eq_ok.mp described
    cases failed.symm.trans known
  obtain ⟨_, known, described⟩ := Result.bind_eq_ok.mp described
  cases read.symm.trans known
  obtain ⟨openapi, attached, described⟩ := Result.bind_eq_ok.mp described
  cases described
  have contracts : (handler.contract = none ∧ openapi = operation) ∨
      ∃ contract built, handler.contract = some contract ∧
        contractFactory types handler.route contract = .ok built ∧
        openapi = some ((operation.getD ∅).insert contractExtension built) := by
    unfold attachContract at attached
    split at attached
    · next unchecked =>
      cases attached
      exact .inl ⟨unchecked, rfl⟩
    · next contract held =>
      split at attached
      · cases attached
      · next built made =>
        dsimp only at attached
        split at attached
        · cases attached
        · cases attached
          exact .inr ⟨contract, built, held, made, rfl⟩
  constructor
  · exact authored.route
  · intro silent
    obtain ⟨-, rfl⟩ | ⟨contract, built, held, -, -⟩ := contracts
    · exact undocumented silent
    · have complete := authored.complete (by rw [held]; rfl)
      rw [authored.undocumented silent] at complete
      cases complete
  · intro attr member path
    obtain ⟨fields, documents, noId, noContract, rfl⟩ := documented attr member path
    refine ⟨fields, documents, noId, noContract, fun silent => ?_, fun other inside checked => ?_⟩
    · obtain ⟨-, rfl⟩ | ⟨contract, built, held, -, -⟩ := contracts
      · rfl
      · rw [authored.unchecked.mpr silent] at held
        cases held
    · obtain ⟨unchecked, -⟩ | ⟨contract, built, held, made, rfl⟩ := contracts
      · exact absurd checked (authored.unchecked.mp unchecked other inside)
      · exact ⟨contract, built, authored.contract contract held, made, rfl⟩

/-- The description of an authored handler fails only where the factory of its contract does, or
where its operation is unreadable. -/
theorem Authored.describe_failed (keeps : library.KeepsKeys) {middlewares : List Str}
    {method : ImplItemFn} {handler : Handler}
    (authored : Authored library middlewares method handler) {error : DescribeError} :
    (endpointRoute handler).intoDescription library types = .error error ↔
      (∃ contract failure, handler.contract = some contract ∧
        contractFactory types handler.route contract = .error failure) ∨
      ∃ attr ∈ method.attributes, attr.Unreadable library := by
  obtain ⟨operation, read, ⟨free, -, -⟩, readable⟩ | ⟨failed, unreadable⟩ :=
    authored.read_operation keeps
  swap
  · rw [AuthoredRoute.intoDescription, endpointRoute, failed]
    cases error
    exact iff_of_true rfl (.inr unreadable)
  have described : (endpointRoute handler).intoDescription library types = (do
      let openapi ← attachContract types (endpointRoute handler) operation
      return ⟨handler.route.method, openapi, handler.route.path, handler.route.routeId⟩) := by
    rw [AuthoredRoute.intoDescription, endpointRoute, read]
    rfl
  have none : ¬ ∃ attr ∈ method.attributes, attr.Unreadable library := by
    rintro ⟨attr, member, unreadable⟩
    exact readable attr member unreadable
  rw [or_iff_left none, described, attachContract, endpointRoute]
  dsimp only
  cases held : handler.contract with
  | none => exact ⟨nofun, by rintro ⟨_, _, ⟨⟩, -⟩⟩
  | some contract =>
      dsimp only
      cases made : contractFactory types handler.route contract with
      | error failure =>
          cases error
          exact ⟨fun _ => ⟨contract, failure, rfl, made⟩, fun _ => rfl⟩
      | ok built =>
          rw [free]
          refine ⟨nofun, ?_⟩
          rintro ⟨_, _, ⟨⟩, failed⟩
          cases made.symm.trans failed

theorem authored_of_expanded {middlewares : List Str} {items : List ImplItem}
    {outputs : List (Option Handler × ImplItem)}
    (expanded : List.Forall₂ (fun item output => expandItem library middlewares item = .ok output)
      items outputs) :
    List.Forall₂ (Authored library middlewares) (items.filterMap ImplItem.endpoint?)
      (outputs.filterMap Prod.fst) := by
  induction expanded with
  | nil => exact .nil
  | @cons item output _ _ first _ ih =>
      obtain ⟨written, stripped⟩ := output
      rw [List.filterMap_cons, List.filterMap_cons]
      obtain ⟨rfl, other⟩ | ⟨method, handler, rfl, declares, authored⟩ := expandItem_authored first
      · rw [other]
        exact ih
      · rw [declares]
        exact .cons authored ih

/-- The handlers are those of the methods with a route attribute. -/
theorem readHandlers_authored {implementation : ItemImpl} {read : List Handler × ItemImpl}
    (known : readHandlers library implementation = .ok read) :
    ∃ middlewares, List.Forall₂ (Authored library middlewares)
      (implementation.items.filterMap ImplItem.endpoint?) read.1 := by
  unfold readHandlers at known
  split at known
  · cases known
  split at known
  · cases known
  obtain ⟨⟨middlewares, retained⟩, -, known⟩ := Result.bind_eq_ok.mp known
  obtain ⟨outputs, mapped, known⟩ := Result.bind_eq_ok.mp known
  dsimp only at known
  split at known
  · cases known
  cases known
  refine ⟨middlewares, ?_⟩
  exact authored_of_expanded (Result.mapM_eq_ok.mp mapped)

/-- A description fails where that of one of its routes does. -/
theorem describe_failed_iff {expansion : Expansion} :
    (∃ error, expansion.describe library types = .error error) ↔
      ∃ route ∈ expansion.routes, ∃ error, route.intoDescription library types = .error error := by
  constructor
  · rintro ⟨error, failed⟩
    obtain failed | ⟨_, -, impossible⟩ := Result.bind_eq_error failed
    · obtain ⟨route, member, failed⟩ := Result.mapM_eq_error failed
      exact ⟨route, member, error, failed⟩
    · cases impossible
  · rintro ⟨route, member, error, failed⟩
    cases described : expansion.describe library types with
    | error error => exact ⟨error, rfl⟩
    | ok response =>
        obtain ⟨routes, mapped, -⟩ := Result.bind_eq_ok.mp described
        obtain ⟨published, -, known⟩ :=
          Result.exists_of_forall₂_left (Result.mapM_eq_ok.mp mapped) member
        cases failed.symm.trans known

/-- An endpoint publishes one route for every method with a route attribute, in their order, and
publishes none only if the factory of a contract fails or an Operation Object is unreadable. -/
theorem describe_publishes (keeps : library.KeepsKeys) {implementation : ItemImpl}
    {registers : Bool} {expansion : Expansion}
    (expanded : expandEndpoint library implementation registers = .ok expansion) :
    (∀ response, expansion.describe library types = .ok response →
      List.Forall₂ (Publishes library types)
        (implementation.items.filterMap ImplItem.endpoint?) response.routes) ∧
    ((∃ error, expansion.describe library types = .error error) ↔
      (∃ route ∈ expansion.routes, ∃ contract failure, route.contract = some contract ∧
        contractFactory types route.route contract = .error failure) ∨
      ∃ method ∈ implementation.items.filterMap ImplItem.endpoint?, ∃ attr ∈ method.attributes,
        attr.Unreadable library) := by
  obtain ⟨⟨handlers, stripped⟩, read, written⟩ := Result.bind_eq_ok.mp expanded
  cases written
  obtain ⟨middlewares, authored⟩ := readHandlers_authored read
  refine ⟨fun response described => ?_, ?_⟩
  · obtain ⟨routes, mapped, described⟩ := Result.bind_eq_ok.mp described
    cases described
    have published := Result.mapM_eq_ok.mp mapped
    rw [List.forall₂_map_left_iff] at published
    refine List.forall₂_iff_get.mpr ⟨authored.length_eq.trans published.length_eq, ?_⟩
    intro index inside outside
    exact ((List.forall₂_iff_get.mp authored).2 index inside
      (authored.length_eq ▸ inside)).publishes keeps
        ((List.forall₂_iff_get.mp published).2 index _ outside)
  rw [describe_failed_iff]
  constructor
  · rintro ⟨route, member, error, failed⟩
    obtain ⟨handler, inside, rfl⟩ := List.mem_map.mp member
    obtain ⟨method, among, declared⟩ := Result.exists_of_forall₂_left authored.flip inside
    obtain failed | unreadable := (declared.describe_failed keeps).mp failed
    · exact .inl ⟨_, member, failed⟩
    · exact .inr ⟨method, among, unreadable⟩
  · rintro (⟨route, member, failed⟩ | ⟨method, among, unreadable⟩)
    · obtain ⟨handler, inside, rfl⟩ := List.mem_map.mp member
      obtain ⟨method, -, declared⟩ := Result.exists_of_forall₂_left authored.flip inside
      exact ⟨_, member, .invalidConfiguration, (declared.describe_failed keeps).mpr (.inl failed)⟩
    · obtain ⟨handler, inside, declared⟩ := Result.exists_of_forall₂_left authored among
      exact ⟨_, List.mem_map_of_mem inside, .invalidConfiguration,
        (declared.describe_failed keeps).mpr (.inr unreadable)⟩

end Checked

attribute [local instance] FieldOrder.byInsertion

theorem keepsKeys_plainLibrary : plainLibrary.KeepsKeys := by
  intro written value _ read
  cases (readCompact_render (.object written)).symm.trans read
  exact ⟨written, rfl, .refl _⟩

/-- The route of a method with an Operation Object is published with it. -/
theorem describe_publishes_readOrder :
    ∃ expansion response,
      expandEndpoint plainLibrary ⟨false, false, [], [readOrder false]⟩ true = .ok expansion ∧
      expansion.describe plainLibrary orderTypes = .ok response ∧
      List.Forall₂ (Publishes plainLibrary orderTypes)
        ([readOrder false].filterMap ImplItem.endpoint?) response.routes := by
  have expanded : ∃ expansion,
      expandEndpoint plainLibrary ⟨false, false, [], [readOrder false]⟩ true = .ok expansion ∧
        ∀ route ∈ expansion.routes, route.contract = none :=
    ⟨_, rfl, fun route member => by rw [List.mem_singleton.mp member]; rfl⟩
  obtain ⟨expansion, expanded, unchecked⟩ := expanded
  obtain ⟨published, failed⟩ :=
    @describe_publishes _ plainLibrary _ orderTypes keepsKeys_plainLibrary _ _ _ expanded
  cases described : expansion.describe plainLibrary orderTypes with
  | error error =>
      obtain ⟨route, member, contract, -, held, -⟩ | ⟨_, _, _, _, -, written, -, unread⟩ :=
        failed.mp ⟨error, described⟩
      · rw [unchecked route member] at held
        cases held
      · cases (readCompact_render (.object written)).symm.trans unread
  | ok response => exact ⟨expansion, response, expanded, described, published response described⟩

end Endpoint
