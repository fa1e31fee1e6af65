import LensoWeb.OpenApi.Assemble

/-!
# The document does not depend on the order of the routes

A route is emitted in a way that depends on the route and the configuration only;
the routes before it can only refuse it. Two rounds of the loop can therefore be
exchanged, and a successful run is the same for every order. The operations of the
document are those of the routes, each at its own place.
-/

namespace OpenApi

open Foundation

/-! ### What is collected -/

/-- An operation and its place in the document. -/
structure PlacedOperation where
  path : Str
  method : Str
  operation : Json
deriving DecidableEq

/-- The operations of a path table, in the order of the document. -/
def placedOperations (paths : SortedMap Str (SortedMap Str Json)) : List PlacedOperation :=
  paths.entries.flatMap fun entry => entry.2.entries.map fun operation =>
    ⟨entry.1, operation.1, operation.2⟩

/-- A path table has one operation at a place. -/
theorem placedOperations_nodup (paths : SortedMap Str (SortedMap Str Json)) :
    ((placedOperations paths).map fun placed => (placed.path, placed.method)).Nodup := by
  rw [placedOperations, List.map_flatMap, List.nodup_flatMap]
  constructor
  · intro entry _
    have places := entry.2.sorted.nodup.map (Prod.mk_right_injective entry.1)
    rw [List.map_map] at places ⊢
    exact places
  · have paths := List.pairwise_map.mp paths.sorted
    refine paths.imp fun {entry other} less place left right => ?_
    obtain ⟨_, inLeft, rfl⟩ := List.mem_map.mp left
    obtain ⟨_, inRight, same⟩ := List.mem_map.mp right
    obtain ⟨first, -, rfl⟩ := List.mem_map.mp inLeft
    obtain ⟨second, -, rfl⟩ := List.mem_map.mp inRight
    exact absurd (congrArg Prod.fst same) (ne_of_gt less)

namespace Assembly

variable {assembly : Assembly} {path method routeId : Str} {operation : Json}

theorem operationAt_add (assembly : Assembly) (path method routeId other name : Str)
    (operation : Json) :
    (assembly.add path method routeId operation).operationAt other name =
      if other = path ∧ name = method then some operation
      else assembly.operationAt other name := by
  rw [operationAt, add, SortedMap.get_insert]
  by_cases here : other = path
  · subst here
    rw [if_pos rfl, Option.bind_some, SortedMap.get_insert, operationAt]
    cases assembly.paths.get other with
    | none => simp
    | some methods => simp
  · rw [if_neg here, if_neg fun both => here both.1]
    rfl

/-- Operations at different places can be added in either order. -/
theorem add_comm {path' method' routeId' : Str} {operation' : Json}
    (apart : ¬ (path' = path ∧ method' = method)) :
    (assembly.add path method routeId operation).add path' method' routeId' operation' =
      (assembly.add path' method' routeId' operation').add path method routeId operation := by
  have ids := Finset.insert_comm routeId' routeId assembly.operationIds
  simp only [add, mk.injEq, ids, and_true]
  by_cases here : path' = path
  · subst here
    have elsewhere : method ≠ method' := fun same => apart ⟨rfl, same.symm⟩
    simp only [SortedMap.get_insert, if_true, Option.getD_some, SortedMap.insert_insert]
    rw [SortedMap.insert_comm _ elsewhere]
  · simp only [SortedMap.get_insert, if_neg here, if_neg (Ne.symm here)]
    rw [SortedMap.insert_comm _ (Ne.symm here)]

/-- An operation that is added stands among the others. -/
theorem placedOperations_add (free : assembly.operationAt path method = none) :
    (placedOperations (assembly.add path method routeId operation).paths).Perm
      (⟨path, method, operation⟩ :: placedOperations assembly.paths) := by
  have methodFree : (((assembly.paths.get path).getD ∅).get method) = none := by
    rw [operationAt] at free
    cases found : assembly.paths.get path with
    | none => rfl
    | some methods => rwa [found] at free
  have inner := SortedMap.entries_insert_perm ((assembly.paths.get path).getD ∅) method operation
  rw [SortedMap.others_of_get_eq_none methodFree] at inner
  -- The methods of the path come first, and then the other paths.
  have before : (placedOperations assembly.paths).Perm
      (((assembly.paths.get path).getD ∅).entries.map (fun entry => ⟨path, entry.1, entry.2⟩) ++
        (assembly.paths.others path).flatMap fun entry =>
          entry.2.entries.map fun operation => ⟨entry.1, operation.1, operation.2⟩) := by
    cases found : assembly.paths.get path with
    | none =>
        rw [SortedMap.others_of_get_eq_none found]
        exact .refl _
    | some methods => exact (SortedMap.entries_perm found).flatMap_right _
  have after := (assembly.paths.entries_insert_perm path
    (((assembly.paths.get path).getD ∅).insert method operation)).flatMap_right fun entry =>
      entry.2.entries.map fun operation => PlacedOperation.mk entry.1 operation.1 operation.2
  refine after.trans (.trans ?_ (before.symm.cons _))
  rw [List.flatMap_cons]
  exact (inner.map fun entry => PlacedOperation.mk path entry.1 entry.2).append_right _

end Assembly

/-! ### One round -/

section Either

variable [FieldOrder]

/-- The operation that a route is emitted as. -/
structure Emits (config : OpenApiConfig) (route : Route) (path : Str)
    (operation : List (Str × Json)) : Prop where
  rendered : ∃ pathParameters, openapiPath route.routeId route.path = .ok (path, pathParameters) ∧
    emittedOperation config route pathParameters = .ok operation
  described : route.documentMethod ∈ methods
  identified : Str.trim route.routeId ≠ []

/-- A round succeeds when the route can be emitted, and its id and place are free. -/
theorem addRoute_ok {config : OpenApiConfig} {assembly next : Assembly} {route : Route} :
    addRoute config assembly route = .ok next ↔
      ∃ path operation, Emits config route path operation ∧
        route.routeId ∉ assembly.operationIds ∧
        assembly.operationAt path route.documentMethod = none ∧
        next = assembly.add path route.documentMethod route.routeId (.object operation) := by
  rw [addRoute, Result.bind_eq_ok]
  constructor
  · rintro ⟨⟨path, names⟩, rendered, added⟩
    simp only at added
    split at added
    · cases added
    · next described =>
      split at added
      · cases added
      · next identified =>
        split at added
        · cases added
        · next fresh =>
          obtain ⟨operation, emitted, added⟩ := Result.bind_eq_ok.mp added
          split at added
          · cases added
          · next free =>
            cases added
            exact ⟨path, operation, ⟨⟨names, rendered, emitted⟩, by simpa using described,
              by simpa using identified⟩, fresh, by simpa using free, rfl⟩
  · rintro ⟨path, operation, ⟨⟨names, rendered, emitted⟩, described, identified⟩, fresh, free, rfl⟩
    refine ⟨_, rendered, ?_⟩
    simp only
    rw [if_neg (by simpa using described), if_neg (by simpa using identified), if_neg fresh]
    refine Result.bind_eq_ok.mpr ⟨operation, emitted, ?_⟩
    rw [free]
    rfl

/-- Two rounds can be exchanged. -/
theorem addRoute_exchange {config : OpenApiConfig} (assembly : Assembly) (first second : Route)
    (next final : Assembly) (made : addRoute config assembly first = .ok next)
    (madeNext : addRoute config next second = .ok final) :
    ∃ other, addRoute config assembly second = .ok other ∧
      addRoute config other first = .ok final := by
  obtain ⟨path, operation, emits, fresh, free, rfl⟩ := addRoute_ok.mp made
  obtain ⟨path', operation', emits', fresh', free', rfl⟩ := addRoute_ok.mp madeNext
  have apart : ¬ (path' = path ∧ second.documentMethod = first.documentMethod) := by
    intro same
    rw [Assembly.operationAt_add, if_pos same] at free'
    cases free'
  rw [Assembly.operationAt_add, if_neg apart] at free'
  have ids : second.routeId ≠ first.routeId ∧ second.routeId ∉ assembly.operationIds := by
    simpa [Assembly.add] using fresh'
  refine ⟨_, addRoute_ok.mpr ⟨path', operation', emits', ids.2, free', rfl⟩, ?_⟩
  refine addRoute_ok.mpr ⟨path, operation, emits, ?_, ?_, Assembly.add_comm apart⟩
  · simpa [Assembly.add, fresh] using ids.1.symm
  · rw [Assembly.operationAt_add, if_neg, free]
    exact fun same => apart ⟨same.1.symm, same.2.symm⟩

/-! ### The emitted operation -/

/-- Apart from the default responses, the authored operation is what the route carries
without its contract. -/
theorem find_authoredOperation {route : Route} {operation : List (Str × Json)}
    (made : authoredOperation route = .ok operation) {key : Str} (other : key ≠ lit "responses") :
    Assoc.find key operation =
      Assoc.find key (ObjectMap.remove contractExtension (route.openapi.getD ∅).entries) := by
  rw [authoredOperation] at made
  split at made
  · cases made
  · split at made
    · cases made
      rfl
    · cases made
    · cases made
      rw [ObjectMap.find_insert, if_neg other]

/-- Completing the parameters leaves every other field alone. -/
theorem find_ensurePathParameters {routeId : Str} {names : List Str}
    {operation completed : List (Str × Json)}
    (made : ensurePathParameters routeId names operation = .ok completed) {key : Str}
    (other : key ≠ lit "parameters") : Assoc.find key completed = Assoc.find key operation := by
  rw [ensurePathParameters] at made
  split at made
  · cases made
    rfl
  · split at made
    · cases made
    · obtain ⟨declared, -, returned⟩ := Result.bind_eq_ok.mp made
      cases returned
      rw [ObjectMap.find_insert, if_neg other]

theorem emittedOperation_ok {config : OpenApiConfig} {route : Route} {names : List Str}
    {operation : List (Str × Json)} :
    emittedOperation config route names = .ok operation ↔
      ∃ authored completed, authoredOperation route = .ok authored ∧
        checkContract config route authored = .ok () ∧
        ensurePathParameters route.routeId names authored = .ok completed ∧
        operation = ObjectMap.insert (lit "operationId") (.string route.routeId) completed := by
  rw [emittedOperation, Result.bind_eq_ok]
  constructor
  · rintro ⟨authored, made, rest⟩
    obtain ⟨_, checked, rest⟩ := Result.bind_eq_ok.mp rest
    obtain ⟨completed, ensured, returned⟩ := Result.bind_eq_ok.mp rest
    cases returned
    exact ⟨authored, completed, made, checked, ensured, rfl⟩
  · rintro ⟨authored, completed, made, checked, ensured, rfl⟩
    refine ⟨authored, made, Result.bind_eq_ok.mpr ⟨(), checked, ?_⟩⟩
    exact Result.bind_eq_ok.mpr ⟨completed, ensured, rfl⟩

/-- An emitted operation is named after its route. -/
theorem find_operationId {config : OpenApiConfig} {route : Route} {names : List Str}
    {operation : List (Str × Json)}
    (emitted : emittedOperation config route names = .ok operation) :
    Assoc.find (lit "operationId") operation = some (.string route.routeId) := by
  obtain ⟨authored, completed, -, -, -, rfl⟩ := emittedOperation_ok.mp emitted
  rw [ObjectMap.find_insert, if_pos rfl]

/-- An emitted operation does not carry the contract. -/
theorem find_contractExtension {config : OpenApiConfig} {route : Route} {names : List Str}
    {operation : List (Str × Json)}
    (emitted : emittedOperation config route names = .ok operation) :
    Assoc.find contractExtension operation = none := by
  obtain ⟨authored, completed, made, -, ensured, rfl⟩ := emittedOperation_ok.mp emitted
  rw [ObjectMap.find_insert, if_neg (by decide), find_ensurePathParameters ensured (by decide),
    find_authoredOperation made (by decide),
    ObjectMap.find_remove (route.openapi.getD ∅).sorted.nodup, if_pos rfl]

/-! ### Whole runs -/

/-- An operation of the document that describes a route. -/
structure Describes (route : Route) (placed : PlacedOperation) : Prop where
  path : ∃ pathParameters, openapiPath route.routeId route.path = .ok (placed.path, pathParameters)
  method : placed.method = Str.lowercase (Str.trim route.method)
  operationId : placed.operation.get (lit "operationId") = some (.string route.routeId)
  extension : placed.operation.get (lit "x-lenso-contract") = none

/-- The operation that a route is emitted as, at its place. -/
def Places (config : OpenApiConfig) (route : Route) (placed : PlacedOperation) : Prop :=
  ∃ operation, Emits config route placed.path operation ∧ placed.method = route.documentMethod ∧
    placed.operation = .object operation

theorem Places.describes {config : OpenApiConfig} {route : Route} {placed : PlacedOperation}
    (places : Places config route placed) : Describes route placed := by
  obtain ⟨path, method, operation⟩ := placed
  obtain ⟨fields, emits, rfl, rfl⟩ := places
  obtain ⟨names, rendered, emitted⟩ := emits.rendered
  exact ⟨⟨names, rendered⟩, rfl, find_operationId emitted, find_contractExtension emitted⟩

/-- A round adds one operation for its route. -/
theorem addRoute_places {config : OpenApiConfig} {assembly next : Assembly} {route : Route}
    (made : addRoute config assembly route = .ok next) :
    ∃ placed, Places config route placed ∧
      (placedOperations next.paths).Perm (placed :: placedOperations assembly.paths) ∧
      route.routeId ∉ assembly.operationIds ∧
      next.operationIds = insert route.routeId assembly.operationIds := by
  obtain ⟨path, operation, emits, fresh, free, rfl⟩ := addRoute_ok.mp made
  refine ⟨⟨path, route.documentMethod, .object operation⟩, ⟨operation, emits, rfl, rfl⟩, ?_, fresh,
    rfl⟩
  exact Assembly.placedOperations_add free

/-- A run adds one operation for each route, and no id comes twice. -/
theorem addRoutes_places {config : OpenApiConfig} {routes : List Route}
    {assembly final : Assembly} (run : routes.foldlM (addRoute config) assembly = .ok final) :
    ∃ placed, List.Forall₂ (Places config) routes placed ∧
      (placedOperations final.paths).Perm (placed ++ placedOperations assembly.paths) ∧
      (routes.map Route.routeId).Nodup ∧
      ∀ route ∈ routes, route.routeId ∉ assembly.operationIds := by
  induction routes generalizing assembly with
  | nil =>
      cases run
      exact ⟨[], .nil, .refl _, List.nodup_nil, by simp⟩
  | cons route rest ih =>
      rw [List.foldlM_cons] at run
      obtain ⟨next, first, later⟩ := Result.bind_eq_ok.mp run
      obtain ⟨one, places, added, fresh, ids⟩ := addRoute_places first
      obtain ⟨placed, all, together, distinct, unseen⟩ := ih later
      refine ⟨one :: placed, .cons places all, ?_, ?_, ?_⟩
      · refine together.trans ((added.append_left placed).trans ?_)
        exact List.perm_middle
      · rw [List.map_cons, List.nodup_cons]
        refine ⟨?_, distinct⟩
        intro again
        obtain ⟨other, member, same⟩ := List.mem_map.mp again
        apply unseen other member
        rw [ids, same]
        exact Finset.mem_insert_self _ _
      · intro other member
        obtain rfl | inside := List.mem_cons.mp member
        · exact fresh
        · have apart := unseen other inside
          rw [ids, Finset.mem_insert, not_or] at apart
          exact apart.2

theorem assembleDocument_ok {config : OpenApiConfig} {descriptions : List DescribeResponse}
    {result : Document} :
    assembleDocument config descriptions = .ok result ↔
      ∃ assembly, (descriptions.flatMap DescribeResponse.routes).foldlM (addRoute config) .empty =
          .ok assembly ∧ assembly.paths.entries ≠ [] ∧ result = document config assembly.paths := by
  rw [assembleDocument, Result.bind_eq_ok]
  constructor
  · rintro ⟨assembly, run, rest⟩
    split at rest
    · cases rest
    · next nonempty =>
      cases rest
      exact ⟨assembly, run, by simpa using nonempty, rfl⟩
  · rintro ⟨assembly, run, nonempty, rfl⟩
    exact ⟨assembly, run, by simp [nonempty]⟩

theorem assemble_ok {toVecPretty : Document → Except Str (List UInt8)} {config : OpenApiConfig}
    {descriptions : List DescribeResponse} {bytes : List UInt8} :
    assemble toVecPretty config descriptions = .ok bytes ↔
      ∃ result written, assembleDocument config descriptions = .ok result ∧
        toVecPretty result = .ok written ∧ bytes = written ++ [10] := by
  rw [assemble, Result.bind_eq_ok]
  constructor
  · rintro ⟨result, assembled, rest⟩
    obtain ⟨written, wrote, returned⟩ := Result.bind_eq_ok.mp rest
    cases returned
    exact ⟨result, written, assembled, Result.mapError_eq_ok.mp wrote, rfl⟩
  · rintro ⟨result, written, assembled, wrote, rfl⟩
    exact ⟨result, assembled, Result.bind_eq_ok.mpr ⟨written, Result.mapError_eq_ok.mpr wrote, rfl⟩⟩

theorem assembleDocument_perm {config : OpenApiConfig} {descriptions others : List DescribeResponse}
    (perm : (descriptions.flatMap DescribeResponse.routes).Perm
      (others.flatMap DescribeResponse.routes)) {result : Document}
    (assembled : assembleDocument config descriptions = .ok result) :
    assembleDocument config others = .ok result := by
  obtain ⟨assembly, run, nonempty, rfl⟩ := assembleDocument_ok.mp assembled
  refine assembleDocument_ok.mpr ⟨assembly, ?_, nonempty, rfl⟩
  exact Result.foldlM_perm addRoute_exchange perm run

/-- The operations of a document are those that its routes are emitted as. -/
theorem assembleDocument_places {config : OpenApiConfig} {descriptions : List DescribeResponse}
    {result : Document} (assembled : assembleDocument config descriptions = .ok result) :
    ∃ placed, List.Forall₂ (Places config) (descriptions.flatMap DescribeResponse.routes) placed ∧
      (placedOperations result.paths).Perm placed ∧
      ((descriptions.flatMap DescribeResponse.routes).map Route.routeId).Nodup := by
  obtain ⟨assembly, run, -, rfl⟩ := assembleDocument_ok.mp assembled
  obtain ⟨placed, all, together, distinct, -⟩ := addRoutes_places run
  have exact : (placedOperations assembly.paths).Perm placed := by
    simpa [Assembly.empty, placedOperations, EmptyCollection.emptyCollection, SortedMap.empty]
      using together
  exact ⟨placed, all, exact, distinct⟩

/-- A document has exactly one operation for each route, at its own place and under its
own id. -/
theorem assembleDocument_describes {config : OpenApiConfig} {descriptions : List DescribeResponse}
    {result : Document} (assembled : assembleDocument config descriptions = .ok result) :
    ∃ placed, List.Forall₂ Describes (descriptions.flatMap DescribeResponse.routes) placed ∧
      (placedOperations result.paths).Perm placed ∧
      (placed.map fun one => (one.path, one.method)).Nodup ∧
      (placed.map fun one => one.operation.get (lit "operationId")).Nodup := by
  obtain ⟨placed, all, exact, distinct⟩ := assembleDocument_places assembled
  have described := all.imp fun _ _ places => places.describes
  refine ⟨placed, described, exact, (exact.map _).nodup_iff.mp (placedOperations_nodup _), ?_⟩
  rw [Result.map_eq_of_forall₂ (f := fun route => some (Json.string route.routeId))
    (fun _ _ describes => describes.operationId) described]
  have ids := distinct.map fun _ _ same => Json.string.inj (Option.some.inj same)
  rwa [List.map_map] at ids

/-- Assembling does not depend on the order of the routes, and the document has exactly
one operation for each of them. -/
theorem assemble_order_independent (toVecPretty : Document → Except Str (List UInt8))
    (config : OpenApiConfig) {descriptions others : List DescribeResponse}
    (perm : (descriptions.flatMap DescribeResponse.routes).Perm
      (others.flatMap DescribeResponse.routes)) :
    (∀ bytes, assemble toVecPretty config descriptions = .ok bytes ↔
      assemble toVecPretty config others = .ok bytes) ∧
    ∀ bytes, assemble toVecPretty config descriptions = .ok bytes →
      ∃ result written placed, assembleDocument config descriptions = .ok result ∧
        toVecPretty result = .ok written ∧ bytes = written ++ [10] ∧
        List.Forall₂ Describes (descriptions.flatMap DescribeResponse.routes) placed ∧
        (placedOperations result.paths).Perm placed ∧
        (placed.map fun one => (one.path, one.method)).Nodup ∧
        (placed.map fun one => one.operation.get (lit "operationId")).Nodup := by
  constructor
  · intro bytes
    rw [assemble_ok, assemble_ok]
    constructor
    · rintro ⟨result, written, assembled, wrote⟩
      exact ⟨result, written, assembleDocument_perm perm assembled, wrote⟩
    · rintro ⟨result, written, assembled, wrote⟩
      exact ⟨result, written, assembleDocument_perm perm.symm assembled, wrote⟩
  · intro bytes made
    obtain ⟨result, written, assembled, wrote, rfl⟩ := assemble_ok.mp made
    obtain ⟨placed, all, exact, places, ids⟩ := assembleDocument_describes assembled
    exact ⟨result, written, placed, assembled, wrote, rfl, all, exact, places, ids⟩

end Either

/-- A route without an operation of its own. -/
def bareRoute (name : String) : Route := ⟨lit "GET", none, lit "/" ++ lit name, lit name⟩

/-- The lines of the document for a bare route. -/
def bareLines (name : String) : List String :=
  ["    \"/" ++ name ++ "\": \x7b", "      \"get\": \x7b", "        \"responses\": \x7b",
    "          \"default\": \x7b", "            \"description\": \"Undocumented response.\"",
    "          \x7d", "        \x7d,", "        \"operationId\": \"" ++ name ++ "\"",
    "      \x7d"]

/-- The document with the bare routes `a` and `b`, as it is written out. -/
def bareDocument : List UInt8 :=
  (List.intercalate (lit "\n") ((["\x7b", "  \"openapi\": \"3.1.0\",",
    "  \"jsonSchemaDialect\": \"https://json-schema.org/draft/2020-12/schema\",",
    "  \"info\": \x7b", "    \"title\": \"Lenso App\",", "    \"version\": \"0.0.0\"", "  \x7d,",
    "  \"paths\": \x7b"] ++ bareLines "a" ++ ["    \x7d,"] ++ bareLines "b" ++
    ["    \x7d", "  \x7d", "\x7d"]).map lit)).map fun c => UInt8.ofNat c.toNat

section

attribute [local instance] FieldOrder.byInsertion

/-- The routes `b` and `a`, from two endpoints, assemble to the same text as `a` and `b`. -/
theorem assemble_bareRoutes :
    assemble (fun _ => .ok bareDocument) .default [⟨[bareRoute "b"]⟩, ⟨[bareRoute "a"]⟩] =
      .ok (bareDocument ++ [10]) := by
  have perm : ([⟨[bareRoute "a", bareRoute "b"]⟩] : List DescribeResponse).flatMap
      DescribeResponse.routes |>.Perm
      (([⟨[bareRoute "b"]⟩, ⟨[bareRoute "a"]⟩] : List DescribeResponse).flatMap
        DescribeResponse.routes) := List.Perm.swap _ _ []
  refine ((assemble_order_independent (fun _ => .ok bareDocument) .default perm).1 _).mp ?_
  decide +kernel

end

end OpenApi
