import LensoWeb.Ingress.Routing.Resolve

/-!
# Authored route tables

`http_endpoint!` checks the route table of an Endpoint when it is compiled, with loops
over bytes because that is what constant evaluation allows. When Ingress binds the
Endpoint it checks every route again, with the text functions of the standard library.

OpenAPI fragments are left out: no check of the table reads them.
-/

namespace Endpoint

open Foundation Http Ingress

/-- `EndpointRoute`. -/
structure EndpointRoute where
  routeId : Str
  method : Str
  path : Str
deriving DecidableEq

/-- `valid_route_id`. -/
def validRouteId (value : Str) : Bool :=
  let bytes := utf8 value
  !bytes.isEmpty && bytes.all fun byte => !Text.isAsciiWhitespace byte

/-- A byte of a method: an upper-case letter, a digit or token punctuation. -/
def isMethodByte (byte : UInt8) : Bool :=
  (65 ≤ byte && byte ≤ 90) || (48 ≤ byte && byte ≤ 57) || (ascii "!#$%&'*+-.^_`|~").contains byte

/-- `valid_method`. -/
def validMethod (value : Str) : Bool :=
  let bytes := utf8 value
  !bytes.isEmpty && bytes.all isMethodByte

/-- `valid_path`. -/
def validPath (value : Str) : Bool :=
  let bytes := utf8 value
  bytes.head? == some 47 && bytes.all fun byte => !(byte == 63 || byte == 35)

/-- The loop of `string_eq` over texts of one length. -/
def bytesEq : Bytes → Bytes → Bool
  | left :: lefts, right :: rights => left == right && bytesEq lefts rights
  | _, _ => true

/-- `string_eq`. -/
def stringEq (left right : Str) : Bool :=
  (utf8 left).length == (utf8 right).length && bytesEq (utf8 left) (utf8 right)

/-- One round of the inner loop: a route and a route before it. -/
def checkPair (route candidate : EndpointRoute) : Except String Unit :=
  if stringEq candidate.routeId route.routeId then .error "HTTP route ids must be unique"
  else if stringEq candidate.method route.method && stringEq candidate.path route.path then
    .error "HTTP method and path pairs must be unique"
  else .ok ()

/-- One round of the outer loop: a route, and all routes before it. -/
def checkRoute (previous : List EndpointRoute) (route : EndpointRoute) : Except String Unit :=
  if !validRouteId route.routeId then .error "HTTP route id is invalid"
  else if !validMethod route.method then .error "HTTP route method is invalid"
  else if !validPath route.path then .error "HTTP route path is invalid"
  else previous.forM (checkPair route)

/-- The outer loop. -/
def checkRoutes (previous : List EndpointRoute) : List EndpointRoute → Except String Unit
  | [] => .ok ()
  | route :: rest => do
      checkRoute previous route
      checkRoutes (previous ++ [route]) rest

/-- `validate_endpoint_routes`; an error is the message of the assertion that fails. -/
def validateEndpointRoutes (routes : List EndpointRoute) : Except String Unit :=
  if routes.isEmpty then .error "an HTTP Endpoint needs at least one route"
  else checkRoutes [] routes

/-- `EndpointRoute::into_description`. -/
def EndpointRoute.intoDescription (route : EndpointRoute) : DescribedRoute :=
  ⟨route.method, route.path, route.routeId⟩

/-! ### Encoded text -/

/-- The bytes of one character: the character itself, or bytes above ASCII. -/
theorem utf8EncodeChar_cases (c : Char) :
    (c.toNat < 128 ∧ String.utf8EncodeChar c = [UInt8.ofNat c.toNat]) ∨
      (128 ≤ c.toNat ∧ ∀ byte ∈ String.utf8EncodeChar c, 128 ≤ byte) := by
  have high : ∀ value, 128 ≤ value % 256 → 128 ≤ UInt8.ofNat value := by
    intro value large
    rw [UInt8.le_iff_toNat_le, UInt8.toNat_ofNat']
    exact large
  have code : c.val.toNat = c.toNat := rfl
  fun_cases String.utf8EncodeChar c with
  | case1 v small => exact .inl ⟨by omega, by rfl⟩
  | case2 v large small =>
      refine .inr ⟨by omega, fun byte member => ?_⟩
      obtain rfl | rfl := List.mem_pair.mp member
      all_goals exact high _ (by omega)
  | case3 v large larger small =>
      refine .inr ⟨by omega, fun byte member => ?_⟩
      simp only [List.mem_cons, List.not_mem_nil, or_false] at member
      obtain rfl | rfl | rfl := member
      all_goals exact high _ (by omega)
  | case4 v large larger largest =>
      refine .inr ⟨by omega, fun byte member => ?_⟩
      simp only [List.mem_cons, List.not_mem_nil, or_false] at member
      obtain rfl | rfl | rfl | rfl := member
      all_goals exact high _ (by omega)

/-- A test of bytes is a test of characters, if it does not tell what is above ASCII apart. -/
theorem all_utf8 (test : UInt8 → Bool) (testChar : Char → Bool) (wide : Bool)
    (ascii : ∀ code < 128, test (UInt8.ofNat code) = testChar (Char.ofNat code))
    (wideBytes : ∀ byte, 128 ≤ byte → test byte = wide)
    (wideChars : ∀ c : Char, 128 ≤ c.toNat → testChar c = wide) (text : Str) :
    (utf8 text).all test = text.all testChar := by
  induction text with
  | nil => rfl
  | cons c rest ih =>
      rw [utf8, List.flatMap_cons, List.all_append, List.all_cons, ← ih, utf8]
      congr 1
      obtain ⟨small, single⟩ | ⟨large, high⟩ := utf8EncodeChar_cases c
      · rw [single, List.all_cons, List.all_nil, Bool.and_true, ascii c.toNat small,
          Char.ofNat_toNat]
      · have same : ∀ byte ∈ String.utf8EncodeChar c, test byte = wide :=
          fun byte member => wideBytes byte (high byte member)
        rw [wideChars c large]
        cases encoded : String.utf8EncodeChar c with
        | nil => exact absurd encoded String.utf8EncodeChar_ne_nil
        | cons first others =>
            rw [encoded] at same
            cases wide with
            | true => exact List.all_eq_true.mpr same
            | false => rw [List.all_cons, same first List.mem_cons_self, Bool.false_and]

theorem utf8_injective : Function.Injective utf8 := by
  intro left right same
  have encoded : List.utf8Encode left = List.utf8Encode right := by
    rw [List.utf8Encode, List.utf8Encode]
    exact congrArg List.toByteArray same
  exact String.ofList_injective (String.toByteArray_inj.mp encoded)

theorem utf8_isEmpty (text : Str) : (utf8 text).isEmpty = text.isEmpty := by
  cases text with
  | nil => rfl
  | cons c rest =>
      have written : String.utf8EncodeChar c ≠ [] := String.utf8EncodeChar_ne_nil
      rw [utf8, List.flatMap_cons, List.isEmpty_cons, List.isEmpty_eq_false_iff]
      exact List.append_ne_nil_of_left_ne_nil written _

/-! ### The compile-time checks -/

/-- A character whose byte is ASCII white space. -/
def isAsciiWhitespace (c : Char) : Bool := (lit " \t\n\x0c\r").contains c

/-- A character of a method. -/
def isMethodChar (c : Char) : Bool :=
  c.isUpper || c.isDigit || (lit "!#$%&'*+-.^_`|~").contains c

private theorem wide_of_mem {word : Str} (narrow : ∀ c ∈ word, c.toNat < 128) {c : Char}
    (large : 128 ≤ c.toNat) : word.contains c = false := by
  rw [List.contains_eq_mem, decide_eq_false_iff_not]
  intro member
  have small := narrow c member
  omega

theorem validRouteId_iff {value : Str} : validRouteId value = true ↔
    value ≠ [] ∧ ∀ c ∈ value, isAsciiWhitespace c = false := by
  have tests := all_utf8 (fun byte => !Text.isAsciiWhitespace byte)
    (fun c => !isAsciiWhitespace c) true
    (by decide +kernel)
    (Text.forall_byte (by decide +kernel))
    (fun c large => by rw [isAsciiWhitespace, wide_of_mem (by simp [lit]) large]; rfl) value
  rw [validRouteId, Bool.and_eq_true, tests, utf8_isEmpty, List.all_eq_true]
  simp

theorem isMethodChar_wide (c : Char) (large : 128 ≤ c.toNat) : isMethodChar c = false := by
  have code : c.val.toNat = c.toNat := rfl
  have upper : c.isUpper = false := by
    simp only [Char.isUpper, decide_eq_false_iff_not, ge_iff_le, UInt32.le_iff_toNat_le]
    rintro ⟨-, least⟩
    exact absurd (least.trans (by decide : 'Z'.val.toNat ≤ 127)) (by omega)
  have digit : c.isDigit = false := by
    simp only [Char.isDigit, Bool.and_eq_false_iff, decide_eq_false_iff_not, ge_iff_le,
      UInt32.le_iff_toNat_le]
    exact .inr fun least => absurd (least.trans (by decide : (57 : UInt32).toNat ≤ 127)) (by omega)
  rw [isMethodChar, upper, digit, wide_of_mem (by simp [lit]) large]
  rfl

theorem validMethod_iff {value : Str} : validMethod value = true ↔
    value ≠ [] ∧ ∀ c ∈ value, isMethodChar c = true := by
  have tests := all_utf8 isMethodByte isMethodChar false
    (by decide +kernel)
    (Text.forall_byte (by decide +kernel)) isMethodChar_wide value
  rw [validMethod, Bool.and_eq_true, tests, utf8_isEmpty, List.all_eq_true]
  simp

private theorem head_utf8 (value : Str) :
    (utf8 value).head? = some 47 ↔ value.head? = some '/' := by
  cases value with
  | nil => exact ⟨nofun, nofun⟩
  | cons c rest =>
      rw [utf8, List.flatMap_cons, List.head?_cons, Option.some.injEq]
      obtain ⟨small, single⟩ | ⟨large, high⟩ := utf8EncodeChar_cases c
      · rw [single, List.singleton_append, List.head?_cons, Option.some.injEq]
        constructor
        · intro same
          have code := congrArg UInt8.toNat same
          rw [UInt8.toNat_ofNat', Nat.mod_eq_of_lt (by omega)] at code
          rw [← Char.ofNat_toNat c, code]
          rfl
        · rintro rfl
          rfl
      · cases encoded : String.utf8EncodeChar c with
        | nil => exact absurd encoded String.utf8EncodeChar_ne_nil
        | cons first others =>
            have above := high first (by rw [encoded]; exact List.mem_cons_self)
            rw [List.cons_append, List.head?_cons, Option.some.injEq]
            constructor
            · rintro rfl
              exact absurd above (by decide)
            · rintro rfl
              exact absurd large (by decide)

theorem validPath_iff {value : Str} : validPath value = true ↔
    value.head? = some '/' ∧ '?' ∉ value ∧ '#' ∉ value := by
  have wide : ∀ c : Char, 128 ≤ c.toNat → (!(c == '?' || c == '#')) = true := by
    intro c large
    rw [Bool.not_eq_true', Bool.or_eq_false_iff, beq_eq_false_iff_ne, beq_eq_false_iff_ne]
    constructor <;>
      · rintro rfl
        exact absurd large (by decide)
  have tests := all_utf8 (fun byte => !(byte == 63 || byte == 35))
    (fun c => !(c == '?' || c == '#')) true (by decide +kernel)
    (Text.forall_byte (by decide +kernel)) wide value
  rw [validPath, Bool.and_eq_true, tests, beq_iff_eq, head_utf8, List.all_eq_true]
  simp only [Bool.not_eq_true', Bool.or_eq_false_iff, beq_eq_false_iff_ne]
  refine and_congr_right fun _ => ⟨fun apart => ?_, fun apart c member => ?_⟩
  · exact ⟨fun member => (apart _ member).1 rfl, fun member => (apart _ member).2 rfl⟩
  · constructor
    · rintro rfl
      exact apart.1 member
    · rintro rfl
      exact apart.2 member

private theorem bytesEq_iff {left right : Bytes} (length : left.length = right.length) :
    bytesEq left right = true ↔ left = right := by
  induction left generalizing right with
  | nil =>
      cases right with
      | nil => exact ⟨fun _ => rfl, fun _ => rfl⟩
      | cons byte rest => cases length
  | cons byte lefts ih =>
      cases right with
      | nil => cases length
      | cons other rights =>
          rw [bytesEq, Bool.and_eq_true, beq_iff_eq, ih (Nat.succ.inj length), List.cons.injEq]

theorem stringEq_iff {left right : Str} : stringEq left right = true ↔ left = right := by
  rw [stringEq, Bool.and_eq_true, beq_iff_eq]
  constructor
  · rintro ⟨length, same⟩
    exact utf8_injective ((bytesEq_iff length).mp same)
  · rintro rfl
    exact ⟨rfl, (bytesEq_iff rfl).mpr rfl⟩

/-- Two routes that may stand in one table. -/
def Apart (left right : EndpointRoute) : Prop :=
  left.routeId ≠ right.routeId ∧ (left.method, left.path) ≠ (right.method, right.path)

/-- What every route is checked for. -/
structure Valid (route : EndpointRoute) : Prop where
  routeId : route.routeId ≠ [] ∧ ∀ c ∈ route.routeId, isAsciiWhitespace c = false
  method : route.method ≠ [] ∧ ∀ c ∈ route.method, isMethodChar c = true
  path : route.path.head? = some '/' ∧ '?' ∉ route.path ∧ '#' ∉ route.path

theorem checkPair_eq_ok {route candidate : EndpointRoute} :
    checkPair route candidate = .ok () ↔ Apart candidate route := by
  rw [checkPair, Apart, Ne, Ne, Prod.mk.injEq, ← stringEq_iff, ← stringEq_iff, ← stringEq_iff]
  cases stringEq candidate.routeId route.routeId with
  | true => simp
  | false =>
      cases stringEq candidate.method route.method <;>
        cases stringEq candidate.path route.path <;> simp

private theorem forM_eq_ok {α : Type} {body : α → Except String Unit} {items : List α} :
    forM items body = .ok () ↔ ∀ item ∈ items, body item = .ok () := by
  induction items with
  | nil =>
      constructor
      · intro _ item impossible
        cases impossible
      · exact fun _ => rfl
  | cons item rest ih =>
      rw [List.forM_cons, Result.bind_eq_ok, List.forall_mem_cons, ← ih]
      exact ⟨fun ⟨_, first, later⟩ => ⟨first, later⟩, fun ⟨first, later⟩ => ⟨(), first, later⟩⟩

theorem checkRoute_eq_ok {previous : List EndpointRoute} {route : EndpointRoute} :
    checkRoute previous route = .ok () ↔ Valid route ∧ ∀ earlier ∈ previous, Apart earlier route := by
  have valid : Valid route ↔ validRouteId route.routeId = true ∧
      validMethod route.method = true ∧ validPath route.path = true := by
    rw [validRouteId_iff, validMethod_iff, validPath_iff]
    exact ⟨fun valid => ⟨valid.routeId, valid.method, valid.path⟩,
      fun valid => ⟨valid.1, valid.2.1, valid.2.2⟩⟩
  rw [checkRoute, valid]
  cases validRouteId route.routeId with
  | false => simp
  | true =>
      cases validMethod route.method with
      | false => simp
      | true =>
          cases validPath route.path with
          | false => simp
          | true => simp [forM_eq_ok, checkPair_eq_ok]

/-- The loops compare every route with all routes before it. -/
theorem checkRoutes_eq_ok {previous routes : List EndpointRoute} :
    checkRoutes previous routes = .ok () ↔ (∀ route ∈ routes, Valid route) ∧
      (∀ earlier ∈ previous, ∀ route ∈ routes, Apart earlier route) ∧ routes.Pairwise Apart := by
  induction routes generalizing previous with
  | nil => simp [checkRoutes]
  | cons route rest ih =>
      rw [checkRoutes, Result.bind_eq_ok, List.pairwise_cons, List.forall_mem_cons]
      constructor
      · rintro ⟨_, first, later⟩
        obtain ⟨valid, apart⟩ := checkRoute_eq_ok.mp first
        obtain ⟨others, separate, pairs⟩ := ih.mp later
        refine ⟨⟨valid, others⟩, fun earlier member => ?_, fun other member => ?_, pairs⟩
        · exact List.forall_mem_cons.mpr ⟨apart earlier member,
            separate earlier (List.mem_append_left _ member)⟩
        · exact separate route (List.mem_append_right _ (List.mem_singleton_self _)) other member
      · rintro ⟨⟨valid, others⟩, separate, ahead, pairs⟩
        refine ⟨(), checkRoute_eq_ok.mpr ⟨valid, fun earlier member =>
          separate earlier member route List.mem_cons_self⟩, ih.mpr ⟨others, ?_, pairs⟩⟩
        intro earlier member other inside
        obtain before | here := List.mem_append.mp member
        · exact separate earlier before other (List.mem_cons_of_mem _ inside)
        · obtain rfl := List.mem_singleton.mp here
          exact ahead other inside

/-- A well-formed route table. -/
structure WellFormed (routes : List EndpointRoute) : Prop where
  nonempty : routes ≠ []
  valid : ∀ route ∈ routes, Valid route
  distinctIds : (routes.map EndpointRoute.routeId).Nodup
  distinctPairs : (routes.map fun route => (route.method, route.path)).Nodup

/-- The table is accepted at compile time exactly when it is well formed. -/
theorem validateEndpointRoutes_iff {routes : List EndpointRoute} :
    validateEndpointRoutes routes = .ok () ↔ WellFormed routes := by
  have pairs : routes.Pairwise Apart ↔ (routes.map EndpointRoute.routeId).Nodup ∧
      (routes.map fun route => (route.method, route.path)).Nodup := by
    rw [List.Nodup, List.Nodup, List.pairwise_map, List.pairwise_map, ← List.pairwise_and_iff]
    rfl
  rw [validateEndpointRoutes]
  cases routes with
  | nil => exact ⟨nofun, fun formed => absurd rfl formed.nonempty⟩
  | cons route rest =>
      rw [List.isEmpty_cons, if_neg Bool.false_ne_true, checkRoutes_eq_ok, pairs]
      constructor
      · rintro ⟨valid, -, distinctIds, distinctPairs⟩
        exact ⟨List.cons_ne_nil _ _, valid, distinctIds, distinctPairs⟩
      · rintro ⟨-, valid, distinctIds, distinctPairs⟩
        exact ⟨valid, fun _ impossible => (nomatch impossible), distinctIds, distinctPairs⟩

/-! ### The checks at activation -/

/-- A route that `RouteTable::resolve` takes as it stands: its method parses and is not
changed by trimming and folding, and neither identifier nor path is refused. -/
structure Activates (route : EndpointRoute) : Prop where
  method : (Method.fromBytes (utf8 (Str.uppercase (Str.trim route.method)))).isSome = true
  canonical : Str.uppercase (Str.trim route.method) = route.method
  isRoute : isRoute route.routeId route.path = true

/-- The only thing that can go wrong is a conflict in the router. -/
def OnlyConflicts (route : EndpointRoute) : Prop :=
  ∀ (matchit : Matchit) (label : String) (provider : RouteProvider) (registry : Registry matchit)
    (failure : Kernel.RuntimeFailure),
    addRoute label provider registry route.intoDescription = .error failure →
    ∃ token conflict, Method.fromBytes (utf8 route.method) = some token ∧
      registry.register token (utf8 route.path) (utf8 route.routeId) provider = .error conflict

/-- Text is empty when trimmed if it has nothing but white space. -/
theorem trim_eq_nil_iff {text : Str} :
    Str.trim text = [] ↔ ∀ c ∈ text, Str.isWhitespace c = true := by
  rw [Str.trim, List.rdropWhile_eq_nil_iff]
  constructor
  · intro blank c member
    obtain kept | dropped := Text.mem_dropWhile_or (p := Str.isWhitespace) member
    · exact blank c kept
    · exact dropped
  · intro blank c member
    exact blank c ((List.dropWhile_suffix _).subset member)

theorem trim_eq_self {text : Str} (none : ∀ c ∈ text, Str.isWhitespace c = false) :
    Str.trim text = text := by
  have front : text.dropWhile Str.isWhitespace = text := by
    rw [List.dropWhile_eq_self_iff]
    intro nonempty
    rw [none _ (List.getElem_mem nonempty)]
    exact Bool.false_ne_true
  rw [Str.trim, front, List.rdropWhile_eq_self_iff]
  intro nonempty
  rw [none _ (List.getLast_mem nonempty)]
  exact Bool.false_ne_true

/-- A character of a method is no white space, is not folded, and is written as one
token byte. -/
theorem isMethodChar_cases {c : Char} (method : isMethodChar c = true) :
    Str.isWhitespace c = false ∧ c.toUpper = c ∧
      String.utf8EncodeChar c = [UInt8.ofNat c.toNat] ∧ isTokenByte (UInt8.ofNat c.toNat) = true := by
  have small : c.toNat < 128 := by
    by_contra large
    rw [isMethodChar_wide c (by omega)] at method
    cases method
  have all : ∀ code < 128, isMethodChar (Char.ofNat code) = true →
      Str.isWhitespace (Char.ofNat code) = false ∧
        (Char.ofNat code).toUpper = Char.ofNat code ∧ isTokenByte (UInt8.ofNat code) = true := by
    decide +kernel
  obtain ⟨visible, upper, token⟩ := all c.toNat small (by rw [Char.ofNat_toNat]; exact method)
  rw [Char.ofNat_toNat] at visible upper
  obtain ⟨-, single⟩ | ⟨large, -⟩ := utf8EncodeChar_cases c
  · exact ⟨visible, upper, single, token⟩
  · exact absurd small (by omega)

theorem isRoute_iff {routeId path : Str} : isRoute routeId path = true ↔
    (∃ c ∈ routeId, Str.isWhitespace c = false) ∧
      path.head? = some '/' ∧ '?' ∉ path ∧ '#' ∉ path := by
  have named : (!(Str.trim routeId).isEmpty) = true ↔
      ∃ c ∈ routeId, Str.isWhitespace c = false := by
    rw [Bool.not_eq_true', List.isEmpty_eq_false_iff, Ne, trim_eq_nil_iff]
    simp
  have plain : (!path.any (lit "?#").contains) = true ↔ '?' ∉ path ∧ '#' ∉ path := by
    rw [Bool.not_eq_true', List.any_eq_false]
    constructor
    · exact fun apart => ⟨fun member => apart _ member rfl, fun member => apart _ member rfl⟩
    · intro apart c member inside
      obtain rfl | rfl := List.mem_pair.mp (List.elem_iff.mp inside)
      · exact apart.1 member
      · exact apart.2 member
  rw [isRoute, Bool.and_eq_true, Bool.and_eq_true, named, plain, beq_iff_eq, and_assoc]

/-- A method that is accepted at compile time stands as it is. -/
theorem canonical_of_validMethod {method : Str} (all : ∀ c ∈ method, isMethodChar c = true) :
    Str.uppercase (Str.trim method) = method := by
  rw [trim_eq_self fun c member => (isMethodChar_cases (all c member)).1, Str.uppercase]
  refine (List.map_congr_left fun c member => ?_).trans (List.map_id method)
  exact (isMethodChar_cases (all c member)).2.1

/-- A method that is accepted at compile time is a token. -/
theorem fromBytes_isSome {method : Str} (nonempty : method ≠ [])
    (all : ∀ c ∈ method, isMethodChar c = true) :
    (Method.fromBytes (utf8 method)).isSome = true := by
  have token : (utf8 method).all isTokenByte = true := by
    rw [List.all_eq_true]
    intro byte member
    obtain ⟨c, inside, written⟩ := List.mem_flatMap.mp member
    obtain ⟨-, -, single, token⟩ := isMethodChar_cases (all c inside)
    rw [single] at written
    obtain rfl := List.mem_singleton.mp written
    exact token
  have written : utf8 method ≠ [] := by
    have same := utf8_isEmpty method
    rw [List.isEmpty_eq_false_iff.mpr nonempty, List.isEmpty_eq_false_iff] at same
    exact same
  rw [Method.fromBytes, dif_pos ⟨written, token⟩]
  rfl

/-- What a checked route still needs: a character that trimming leaves. -/
theorem activates_iff {route : EndpointRoute} (valid : Valid route) :
    Activates route ↔ ∃ c ∈ route.routeId, Str.isWhitespace c = false := by
  have canonical := canonical_of_validMethod valid.method.2
  constructor
  · intro activates
    exact (isRoute_iff.mp activates.isRoute).1
  · intro named
    refine ⟨?_, canonical, isRoute_iff.mpr ⟨named, valid.path⟩⟩
    rw [canonical]
    exact fromBytes_isSome valid.method.1 valid.method.2

/-- A route that is taken as it stands can only conflict. -/
theorem Activates.onlyConflicts {route : EndpointRoute} (activates : Activates route) :
    OnlyConflicts route := by
  intro matchit label provider registry failure refused
  obtain ⟨token, parsed⟩ := Option.isSome_iff_exists.mp activates.method
  have accepted := activates.isRoute
  have fits := parsed
  rw [activates.canonical] at fits
  rw [addRoute] at refused
  simp only [EndpointRoute.intoDescription] at refused
  rw [parsed] at refused
  simp only [accepted, Bool.not_true, Bool.false_eq_true, if_false] at refused
  cases registered : registry.register token (utf8 route.path) (utf8 route.routeId) provider with
  | error conflict => exact ⟨token, conflict, fits, registered⟩
  | ok next =>
      rw [registered] at refused
      cases refused

/-- Every table that is accepted at compile time is accepted route by route at activation,
exactly if no route identifier of it is blank. The compile-time check knows the white space
of ASCII only. -/
theorem checks_agree_iff (routes : List EndpointRoute) :
    ((validateEndpointRoutes routes = .ok () ↔ WellFormed routes) ∧
      (validateEndpointRoutes routes = .ok () →
        ∀ route ∈ routes, Activates route ∧ OnlyConflicts route)) ↔
      (WellFormed routes → ∀ route ∈ routes, ∃ c ∈ route.routeId, Str.isWhitespace c = false) := by
  rw [validateEndpointRoutes_iff]
  constructor
  · rintro ⟨-, agree⟩ formed route member
    exact (activates_iff (formed.valid route member)).mp (agree formed route member).1
  · intro named
    refine ⟨Iff.rfl, fun formed route member => ?_⟩
    have activates := (activates_iff (formed.valid route member)).mpr (named formed route member)
    exact ⟨activates, activates.onlyConflicts⟩

/-- A route identifier that is one no-break space compiles, and Ingress refuses it. -/
theorem blank_identifier_compiles :
    validateEndpointRoutes [⟨lit "\xa0", lit "GET", lit "/x"⟩] = .ok () ∧
      ¬ Activates ⟨lit "\xa0", lit "GET", lit "/x"⟩ ∧
      (addRoute "HTTP Endpoint" (.buffered 0) (Registry.empty : Registry Matchit.scan)
        (EndpointRoute.intoDescription ⟨lit "\xa0", lit "GET", lit "/x"⟩)).isOk = false := by
  refine ⟨by decide +kernel, fun activates => ?_, by decide +kernel⟩
  have accepted := activates.isRoute
  revert accepted
  decide +kernel

end Endpoint
