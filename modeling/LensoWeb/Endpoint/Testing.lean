import LensoWeb.Endpoint.Extract
import LensoWeb.Foundation.Replace.Separate

/-!
# Direct requests of tests

`EndpointTest` builds the request that Ingress would dispatch. The path is the template of
the declared route, in which `send` replaces the pattern of one path parameter after another.

A value is read again by every later replacement, and a catch-all group is written differently
from the pattern that is replaced. So the path is the expanded template for separate values
only.
-/

namespace Endpoint

open Foundation Http Kernel

open Ingress (utf8)

/-! ### Requests -/

/-- `TestRequest`, without the provider. -/
structure TestRequest where
  routeId : Str
  body : Bytes
  headers : List HeaderItem
  pathParameters : List (Str × Str)
  query : Option Str

/-- `EndpointTestError`. -/
inductive EndpointTestError where
  | unknownRoute (routeId : Str)
  | domain (error : Ingress.HandleError)
  | runtime (failure : RuntimeFailure)
deriving DecidableEq

namespace TestRequest

/-- `EndpointTest::request`. -/
def request (routeId : Str) : TestRequest := ⟨routeId, [], [], [], none⟩

/-- `json`; what the value serializes to comes from its type. -/
def json {ε : Type} (test : TestRequest) (serialized : Except ε Bytes) : Except ε TestRequest := do
  let body ← serialized
  let contentType := ⟨lit "content-type", lit "application/json"⟩
  return { test with body, headers := test.headers ++ [contentType] }

/-- `query`. -/
def withQuery {ε : Type} (test : TestRequest) (encoded : Except ε Str) : Except ε TestRequest := do
  let query ← encoded
  return { test with query := some query }

/-- `path_parameter`. -/
def pathParameter (test : TestRequest) (name value : Str) : TestRequest :=
  { test with pathParameters := test.pathParameters ++ [(name, value)] }

/-- `header`. -/
def header (test : TestRequest) (name value : Str) : TestRequest :=
  { test with headers := test.headers ++ [⟨name, value⟩] }

end TestRequest

/-- The fold of `send`. -/
def expandPath (path : Str) (parameters : List (Str × Str)) : Str :=
  parameters.foldl
    (fun path parameter =>
      Replace.replace ('\x7b' :: (parameter.1 ++ ['\x7d'])) parameter.2 path)
    path

namespace TestRequest

/-- The request that `send` builds for a route. -/
def handleRequest (test : TestRequest) (route : EndpointRoute) : Ingress.HandleRequest where
  body := test.body
  credential := none
  headers := test.headers.map fun header => ⟨utf8 header.name, utf8 header.value⟩
  method := utf8 route.method
  path := utf8 (expandPath route.path test.pathParameters)
  pathParameters := test.pathParameters.map fun item => ⟨utf8 item.1, utf8 item.2⟩
  query := test.query.map utf8
  requestId := ascii "endpoint-test-1"
  routeId := utf8 test.routeId

/-- `send` up to the call of the provider. -/
def built (test : TestRequest) (routes : List EndpointRoute) :
    Except EndpointTestError Ingress.HandleRequest :=
  match routes.find? fun route => route.routeId == test.routeId with
  | none => .error (.unknownRoute test.routeId)
  | some route => .ok (test.handleRequest route)

/-- `send`, with what the provider answers to a request. -/
def send (test : TestRequest) (routes : List EndpointRoute)
    (handle : Ingress.HandleRequest →
      Except RuntimeFailure (Except Ingress.HandleError Ingress.HandleResponse)) :
    Except EndpointTestError Ingress.HandleResponse := do
  let request ← test.built routes
  let answer ← (handle request).mapError .runtime
  answer.mapError .domain

end TestRequest

/-! ### Templates -/

/-- The name of a group. An asterisk in front would make the group a catch-all. -/
structure ParameterName where
  text : Str
  noOpen : '\x7b' ∉ text
  noClose : '\x7d' ∉ text
  noStar : text.head? ≠ some '*'
deriving DecidableEq

/-- `{name}`, or `{*name}` if the group is a catch-all. -/
structure PathGroup where
  catchAll : Bool
  name : ParameterName
deriving DecidableEq

namespace PathGroup

/-- What stands between the braces. -/
def label (group : PathGroup) : Str :=
  if group.catchAll then '*' :: group.name.text else group.name.text

theorem noOpen_label (group : PathGroup) : '\x7b' ∉ group.label := by
  rw [label]
  split
  · simp [group.name.noOpen]
  · exact group.name.noOpen

theorem noClose_label (group : PathGroup) : '\x7d' ∉ group.label := by
  rw [label]
  split
  · simp [group.name.noClose]
  · exact group.name.noClose

theorem label_injective : Function.Injective label := by
  rintro ⟨catchAll, name⟩ ⟨catchAll', name'⟩ same
  cases name with
  | mk text noOpen noClose noStar =>
      cases name' with
      | mk text' noOpen' noClose' noStar' =>
          cases catchAll with
          | false =>
              cases catchAll' with
              | false =>
                  obtain rfl : text = text' := same
                  rfl
              | true =>
                  obtain rfl : text = '*' :: text' := same
                  exact absurd rfl noStar
          | true =>
              cases catchAll' with
              | false =>
                  obtain rfl : '*' :: text = text' := same
                  exact absurd rfl noStar'
              | true =>
                  obtain rfl : text = text' := (List.cons.inj same).2
                  rfl

end PathGroup

/-- A label with its closing brace is not the beginning of another. -/
theorem label_apart {left right : Str} (free : '\x7d' ∉ left) (free' : '\x7d' ∉ right)
    (found : left ++ ['\x7d'] <+: right ++ ['\x7d']) : left = right := by
  induction left generalizing right with
  | nil =>
      cases right with
      | nil => rfl
      | cons first rest =>
          have same : '\x7d' = first := (List.cons_prefix_cons.mp found).1
          exact absurd (same ▸ List.mem_cons_self) free'
  | cons first rest ih =>
      cases right with
      | nil =>
          have same : first = '\x7d' := (List.cons_prefix_cons.mp found).1
          exact absurd (same ▸ List.mem_cons_self) free
      | cons first' rest' =>
          obtain ⟨same, later⟩ := List.cons_prefix_cons.mp found
          rw [same, ih (fun member => free (List.mem_cons_of_mem _ member))
            (fun member => free' (List.mem_cons_of_mem _ member)) later]

/-- The groups of a template as holes. -/
def pathHoles : Replace.Holes PathGroup Char where
  mark := '\x7b'
  body group := group.label ++ ['\x7d']
  free group := by
    intro member
    obtain inLabel | closing := List.mem_append.mp member
    · exact group.noOpen_label inLabel
    · exact absurd (List.mem_singleton.mp closing) (by decide)
  apart group other found := PathGroup.label_injective
    (label_apart group.noClose_label other.noClose_label found)

/-- A template, as literal text with groups of distinct names. -/
structure PathTemplate where
  lead : Str
  groups : List (PathGroup × Str)
  leadPlain : '\x7b' ∉ lead
  textPlain : ∀ group ∈ groups, '\x7b' ∉ group.2
  distinct : (groups.map fun group => group.1.name).Nodup

namespace PathTemplate

/-- The template as it is declared. -/
def source (template : PathTemplate) : Str :=
  template.lead ++ Replace.fill pathHoles.hole template.groups

/-- Every group replaced by the value of its name. -/
def filled (template : PathTemplate) (value : ParameterName → Str) : Str :=
  template.lead ++ Replace.fill (fun group => value group.name) template.groups

def names (template : PathTemplate) : List ParameterName :=
  template.groups.map fun group => group.1.name

/-- A call of `path_parameter` for each name. -/
def calls (template : PathTemplate) (value : ParameterName → Str) : List (Str × Str) :=
  template.names.map fun name => (name.text, value name)

end PathTemplate

/-- The group that `send` looks for. -/
def plain (name : ParameterName) : PathGroup := ⟨false, name⟩

/-- What stands in the place of a group in the end, if catch-all groups are left alone. -/
def plainValue (value : ParameterName → Str) (group : PathGroup) : Str :=
  if group.catchAll then pathHoles.hole group else value group.name

/-- Catch-all groups may be left alone, and the pattern of every name stands nowhere but in its
group when all others are filled in, or is itself the value. -/
def PathTemplate.Separate (template : PathTemplate) (value : ParameterName → Str) : Prop :=
  Replace.fill (plainValue value) template.groups =
      Replace.fill (fun group => value group.name) template.groups ∧
    ∀ name ∈ template.names, pathHoles.Separate (plainValue value) template.groups (plain name)

instance (template : PathTemplate) (value : ParameterName → Str) :
    Decidable (template.Separate value) := inferInstanceAs (Decidable (_ ∧ _))

/-- In every order of the calls, `send` builds a request with the expanded path. -/
def Expands (template : PathTemplate) (value : ParameterName → Str) : Prop :=
  ∀ (routes : List EndpointRoute) (test : TestRequest) (route : EndpointRoute)
    (request : Ingress.HandleRequest),
    (routes.find? fun route => route.routeId == test.routeId) = some route →
    route.path = template.source → test.pathParameters.Perm (template.calls value) →
    test.built routes = .ok request → request.path = utf8 (template.filled value)

/-! ### The fold as rounds -/

theorem plain_injective : Function.Injective plain := by
  intro name other same
  exact congrArg PathGroup.name same

theorem expandPath_calls (path : Str) (value : ParameterName → Str) (order : List ParameterName) :
    expandPath path (order.map fun name => (name.text, value name)) =
      pathHoles.rounds (plainValue value) (order.map plain) path := by
  rw [expandPath, Replace.Holes.rounds, List.foldl_map, List.foldl_map]
  rfl

/-- The path depends on the order of the names only. -/
theorem expands_iff_rounds {template : PathTemplate} {value : ParameterName → Str} :
    Expands template value ↔ ∀ order : List ParameterName, order.Perm template.names →
      pathHoles.rounds (plainValue value) (order.map plain)
          (Replace.fill pathHoles.hole template.groups) =
        Replace.fill (fun group => value group.name) template.groups := by
  have path : ∀ order : List ParameterName,
      expandPath template.source (order.map fun name => (name.text, value name)) =
        template.lead ++ pathHoles.rounds (plainValue value) (order.map plain)
          (Replace.fill pathHoles.hole template.groups) := by
    intro order
    rw [expandPath_calls, PathTemplate.source]
    exact Replace.Holes.rounds_append_of_notMem template.leadPlain _ _
  constructor
  · intro expands order perm
    let route : EndpointRoute := ⟨[], [], template.source⟩
    let test : TestRequest := ⟨[], [], [], order.map fun name => (name.text, value name), none⟩
    have built := expands [route] test route (test.handleRequest route) rfl rfl (perm.map _) rfl
    have same : expandPath template.source (order.map fun name => (name.text, value name)) =
        template.filled value := utf8_injective built
    rw [path] at same
    exact List.append_cancel_left same
  · intro rounds routes test route request found declared perm built
    obtain ⟨order, listed, perm⟩ : ∃ order : List ParameterName,
        test.pathParameters = order.map (fun name => (name.text, value name)) ∧
          order.Perm template.names := by
      have related := (congrFun (congrFun (List.eq_map_comp_perm
        fun name : ParameterName => (name.text, value name)) test.pathParameters)
          template.names).mpr perm
      exact related
    rw [TestRequest.built, found] at built
    obtain rfl : test.handleRequest route = request := Except.ok.inj built
    rw [TestRequest.handleRequest, declared, listed, path, rounds order perm, PathTemplate.filled]

/-! ### Separate values -/

section Separate

variable {template : PathTemplate} {value : ParameterName → Str}

theorem PathTemplate.distinct_groups (template : PathTemplate) :
    (template.groups.map Prod.fst).Nodup := by
  apply List.Nodup.of_map PathGroup.name
  rw [List.map_map]
  exact template.distinct

theorem PathTemplate.name_mem {group : PathGroup} (member : group ∈ template.groups.map Prod.fst) :
    group.name ∈ template.names := by
  obtain ⟨item, listed, rfl⟩ := List.mem_map.mp member
  exact List.mem_map.mpr ⟨item, listed, rfl⟩

theorem expands_of_separate (separate : template.Separate value) : Expands template value := by
  refine expands_iff_rounds.mpr fun order perm => ?_
  rw [← separate.1]
  apply Replace.Holes.rounds_eq_fill template.distinct_groups
  · exact (perm.nodup_iff.mpr template.distinct).map plain_injective
  · intro group member
    by_cases catchAll : group.catchAll
    · exact .inr (if_pos catchAll)
    · refine .inl (List.mem_map.mpr ⟨group.name, perm.mem_iff.mpr (template.name_mem member), ?_⟩)
      rw [plain, ← Bool.eq_false_of_not_eq_true catchAll]
  · intro group member
    obtain ⟨name, listed, rfl⟩ := List.mem_map.mp member
    exact separate.2 name (perm.mem_iff.mp listed)

theorem fill_plainValue (named : ∀ group ∈ template.groups.map Prod.fst, group.catchAll = false) :
    Replace.fill (plainValue value) template.groups =
      Replace.fill (fun group => value group.name) template.groups := by
  refine Replace.fill_congr fun group member => ?_
  rw [plainValue, if_neg (by rw [named group member]; exact Bool.false_ne_true)]

/-- Without catch-all groups and opening braces in values, any order of the calls will do. -/
theorem expands_of_notMem
    (named : ∀ group ∈ template.groups.map Prod.fst, group.catchAll = false)
    (free : ∀ name ∈ template.names, '\x7b' ∉ value name) : Expands template value := by
  refine expands_of_separate ⟨fill_plainValue named, fun name member => .inr ?_⟩
  refine Replace.Holes.occurrences_fill_unmarked _ template.textPlain fun other listed => ?_
  by_cases own : other = plain name
  · subst own
    exact .inl (Replace.Holes.leave_self _ _)
  · refine .inr ?_
    rw [Replace.Holes.leave_of_ne own, plainValue,
      if_neg (by rw [named other listed]; exact Bool.false_ne_true)]
    exact free _ (template.name_mem listed)

theorem PathTemplate.plain_mem {group : PathGroup}
    (member : group ∈ template.groups.map Prod.fst) (named : group.catchAll = false) :
    group ∈ template.names.map plain := by
  refine List.mem_map.mpr ⟨group.name, template.name_mem member, ?_⟩
  rw [plain, ← named]

/-- The calls, in an order of the groups that `send` looks for. -/
theorem exists_order_plain {order : List PathGroup}
    (perm : order.Perm (template.names.map plain)) :
    ∃ names : List ParameterName, order = names.map plain ∧ names.Perm template.names :=
  (congrFun (congrFun (List.eq_map_comp_perm plain) order) template.names).mpr perm

/-- A catch-all group stays in the path. -/
theorem not_expands_of_catchAll
    (free : ∀ group ∈ template.groups.map Prod.fst, group.catchAll → '\x7b' ∉ value group.name)
    {group : PathGroup} (member : group ∈ template.groups.map Prod.fst)
    (catchAll : group.catchAll) : ¬ Expands template value := by
  intro expands
  have absent : group ∉ template.names.map plain := by
    intro listed
    obtain ⟨name, -, rfl⟩ := List.mem_map.mp listed
    cases catchAll
  have unfilled : ∃ order : List PathGroup, order.Perm (template.names.map plain) ∧
      pathHoles.rounds (fun group => value group.name) order
          (Replace.fill pathHoles.hole template.groups) ≠
        Replace.fill (fun group => value group.name) template.groups := by
    refine Replace.Holes.exists_order_ne template.distinct_groups template.textPlain
      (template.distinct.map plain_injective) member absent fun other listed outside => ?_
    apply free other listed
    by_contra named
    exact outside (template.plain_mem listed (Bool.eq_false_of_not_eq_true named))
  obtain ⟨order, perm, different⟩ := unfilled
  obtain ⟨names, rfl, reordered⟩ := exists_order_plain perm
  apply different
  rw [← expands_iff_rounds.mp expands names reordered]
  refine Replace.Holes.rounds_congr (fun other listed => ?_) _
  obtain ⟨name, -, rfl⟩ := List.mem_map.mp listed
  rfl

theorem separate_of_expands
    (free : ∀ group ∈ template.groups.map Prod.fst, group.catchAll → '\x7b' ∉ value group.name)
    (expands : Expands template value) : template.Separate value := by
  have named : ∀ group ∈ template.groups.map Prod.fst, group.catchAll = false := by
    intro group member
    apply Bool.eq_false_of_not_eq_true
    exact fun catchAll => not_expands_of_catchAll free member catchAll expands
  have listed : template.names.map plain = template.groups.map Prod.fst := by
    rw [PathTemplate.names, List.map_map]
    refine List.map_congr_left fun group member => ?_
    rw [Function.comp_apply, plain, ← named group.1 (List.mem_map_of_mem member)]
  have confluent : pathHoles.Confluent (plainValue value) template.groups := by
    intro order perm
    rw [← listed] at perm
    obtain ⟨names, rfl, reordered⟩ := exists_order_plain perm
    rw [fill_plainValue named]
    exact expands_iff_rounds.mp expands names reordered
  refine ⟨fill_plainValue named, fun name member => ?_⟩
  apply (Replace.Holes.confluent_iff template.distinct_groups template.textPlain).mp confluent
  rw [← listed]
  exact List.mem_map_of_mem member

end Separate

/-- Separate values are enough for `send` to expand the path, whatever the order of the calls;
and they are needed, unless the value of a catch-all group has an opening brace. -/
theorem expands_separate (template : PathTemplate) (value : ParameterName → Str) :
    (template.Separate value → Expands template value) ∧
      ((∀ group ∈ template.groups.map Prod.fst, group.catchAll → '\x7b' ∉ value group.name) →
        Expands template value → template.Separate value) :=
  ⟨expands_of_separate, separate_of_expands⟩

/-- An order and one of its lines. -/
def orderLine : PathTemplate where
  lead := lit "/orders/"
  groups := [(plain ⟨lit "order", by decide, by decide, by decide⟩, lit "/lines/"),
    (plain ⟨lit "line", by decide, by decide, by decide⟩, [])]
  leadPlain := by decide
  textPlain := by decide
  distinct := by decide

/-- Values with braces that make up no pattern. -/
def orderLineValue (name : ParameterName) : Str :=
  if name.text = lit "order" then lit "\x7b7\x7d" else lit "\x7border"

theorem expands_separate_orderLine :
    Expands orderLine orderLineValue ∧ orderLine.Separate orderLineValue := by
  have separate : orderLine.Separate orderLineValue := by decide +kernel
  have expands := (expands_separate orderLine orderLineValue).1 separate
  exact ⟨expands, (expands_separate orderLine orderLineValue).2 (by decide +kernel) expands⟩

/-- Two groups next to each other. -/
def adjacent : PathTemplate where
  lead := lit "/"
  groups := [(plain ⟨lit "a", by decide, by decide, by decide⟩, lit "/"),
    (plain ⟨lit "b", by decide, by decide, by decide⟩, [])]
  leadPlain := by decide
  textPlain := by decide
  distinct := by decide

/-- The first value is the pattern of the second group. -/
def adjacentValue (name : ParameterName) : Str :=
  if name.text = lit "a" then lit "\x7bb\x7d" else lit "x"

/-- A catch-all group. -/
def files : PathTemplate where
  lead := lit "/files/"
  groups := [(⟨true, ⟨lit "path", by decide, by decide, by decide⟩⟩, [])]
  leadPlain := by decide
  textPlain := by decide
  distinct := by decide

/-- The path of a request built for a template. -/
def builtPath (template : PathTemplate) (calls : List (Str × Str)) :
    Except EndpointTestError Bytes := do
  let test := calls.foldl (fun test call => test.pathParameter call.1 call.2)
    (TestRequest.request (lit "read"))
  let request ← test.built [⟨lit "read", lit "GET", template.source⟩]
  return request.path

/-- The second value is written into the first in one order of the calls, and a catch-all group
is not expanded at all. -/
theorem not_expands_adjacent :
    ¬ Expands adjacent adjacentValue ∧
      adjacent.filled adjacentValue = lit "/\x7bb\x7d/x" ∧
      builtPath adjacent [(lit "a", lit "\x7bb\x7d"), (lit "b", lit "x")] = .ok (ascii "/x/x") ∧
      builtPath adjacent [(lit "b", lit "x"), (lit "a", lit "\x7bb\x7d")] =
        .ok (ascii "/\x7bb\x7d/x") ∧
      files.filled (fun _ => lit "a/b") = lit "/files/a/b" ∧
      builtPath files [(lit "path", lit "a/b")] = .ok (ascii "/files/\x7b*path\x7d") := by
  refine ⟨?_, by decide +kernel, by decide +kernel, by decide +kernel, by decide +kernel,
    by decide +kernel⟩
  intro expands
  have separate := separate_of_expands (by decide +kernel) expands
  exact absurd separate (by decide +kernel)

end Endpoint
