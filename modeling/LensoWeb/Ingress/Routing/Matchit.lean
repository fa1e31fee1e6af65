import LensoWeb.Ingress.Routing

/-!
# Route templates

The router crate is outside this development. `Matchit` stands for any router that
keeps the routes it has accepted and finds a match exactly where a kept template can
be filled with the path. Which routes it accepts together, and which one it prefers
where several match, is left open.

`Matchit.scan` is such a router: it goes through its routes in order.
-/

namespace Ingress

open Foundation

/-- One piece of a route template. -/
inductive Piece where
  | literal (text : Bytes)
  | parameter (name : Bytes)
  | catchAll (name : Bytes)
deriving DecidableEq

/-- The path fills the pieces with these parameters, in the order of the template. A
parameter takes up part of one segment and a catch-all the rest of the path. -/
inductive Fills : List Piece → Bytes → List PathParameter → Prop
  | nil : Fills [] [] []
  | literal {rest : List Piece} {path : Bytes} {parameters : List PathParameter} (text : Bytes) :
      Fills rest path parameters → Fills (.literal text :: rest) (text ++ path) parameters
  | parameter {rest : List Piece} {path : Bytes} {parameters : List PathParameter}
      (name value : Bytes) (nonempty : value ≠ []) (segment : (47 : UInt8) ∉ value) :
      Fills rest path parameters →
        Fills (.parameter name :: rest) (value ++ path) (⟨name, value⟩ :: parameters)
  | catchAll (name value : Bytes) (nonempty : value ≠ []) :
      Fills [.catchAll name] value [⟨name, value⟩]

/-- `matchit::Router<RouteTarget>`. `stored` is what has been inserted so far, and `pieces`
is how the crate reads a template. -/
structure Matchit where
  Router : Type
  pieces : Bytes → List Piece
  stored : Router → List (Bytes × RouteTarget)
  new : Router
  insert : Router → Bytes → RouteTarget → Except String Router
  find : Router → Bytes → Option RouteMatch
  stored_new : stored new = []
  stored_insert : ∀ {router next : Router} {template : Bytes} {target : RouteTarget},
    insert router template target = .ok next →
      stored next = stored router ++ [(template, target)]
  insert_fresh : ∀ {router next : Router} {template : Bytes} {target : RouteTarget},
    insert router template target = .ok next → template ∉ (stored router).map Prod.fst
  find_sound : ∀ {router : Router} {path : Bytes} {matched : RouteMatch},
    find router path = some matched →
      ∃ template, (template, matched.target) ∈ stored router ∧
        Fills (pieces template) path matched.parameters
  find_complete : ∀ {router : Router} {path : Bytes}, find router path = none →
    ∀ entry ∈ stored router, ∀ parameters, ¬ Fills (pieces entry.1) path parameters

namespace Matchit

/-- A router matches a path exactly where the path fills one of its templates. -/
theorem find_isSome_iff (matchit : Matchit) {router : matchit.Router} {path : Bytes} :
    (matchit.find router path).isSome = true ↔
      ∃ entry ∈ matchit.stored router, ∃ parameters,
        Fills (matchit.pieces entry.1) path parameters := by
  constructor
  · intro found
    obtain ⟨matched, found⟩ := Option.isSome_iff_exists.mp found
    obtain ⟨template, member, fills⟩ := matchit.find_sound found
    exact ⟨_, member, _, fills⟩
  · rintro ⟨entry, member, parameters, fills⟩
    by_contra missing
    rw [Bool.not_eq_true, Option.isSome_eq_false_iff, Option.isNone_iff_eq_none] at missing
    exact matchit.find_complete missing entry member parameters fills

/-! ### A router that scans its routes -/

/-- Read a template; `name` is what has been read of a name in braces. A doubled brace
stands for itself. -/
def readPieces : Option Bytes → Bytes → List Piece
  | _, [] => []
  | none, 123 :: 123 :: rest => .literal [123] :: readPieces none rest
  | none, 125 :: 125 :: rest => .literal [125] :: readPieces none rest
  | none, 123 :: rest => readPieces (some []) rest
  | none, byte :: rest => .literal [byte] :: readPieces none rest
  | some (42 :: name), 125 :: rest => .catchAll name :: readPieces none rest
  | some name, 125 :: rest => .parameter name :: readPieces none rest
  | some name, byte :: rest => readPieces (some (name ++ [byte])) rest

/-- Fill the pieces, the shortest value of a parameter first. -/
def fill : List Piece → Bytes → Option (List PathParameter)
  | [], path => if path = [] then some [] else none
  | .literal text :: rest, path =>
      if text <+: path then fill rest (path.drop text.length) else none
  | .parameter name :: rest, path =>
      (List.range path.length).findSome? fun n =>
        if (47 : UInt8) ∈ path.take (n + 1) then none
        else (fill rest (path.drop (n + 1))).map (⟨name, path.take (n + 1)⟩ :: ·)
  | .catchAll name :: rest, path => if rest = [] ∧ path ≠ [] then some [⟨name, path⟩] else none

theorem fills_of_fill {pieces : List Piece} {path : Bytes} {parameters : List PathParameter}
    (filled : fill pieces path = some parameters) : Fills pieces path parameters := by
  induction pieces generalizing path parameters with
  | nil =>
      simp only [fill, Option.ite_none_right_eq_some, Option.some.injEq] at filled
      obtain ⟨rfl, rfl⟩ := filled
      exact .nil
  | cons piece rest ih =>
      cases piece with
      | literal text =>
          simp only [fill, Option.ite_none_right_eq_some] at filled
          obtain ⟨⟨remainder, rfl⟩, filled⟩ := filled
          rw [List.drop_left] at filled
          exact .literal text (ih filled)
      | parameter name =>
          obtain ⟨n, inside, chosen⟩ := List.exists_of_findSome?_eq_some filled
          simp only [Option.ite_none_left_eq_some, Option.map_eq_some_iff] at chosen
          obtain ⟨segment, parameters, remainder, rfl⟩ := chosen
          have nonempty : path.take (n + 1) ≠ [] := by
            cases path with
            | nil => simp at inside
            | cons byte tail => simp
          have fills := Fills.parameter name _ nonempty segment (ih remainder)
          rwa [List.take_append_drop] at fills
      | catchAll name =>
          simp only [fill, Option.ite_none_right_eq_some, Option.some.injEq] at filled
          obtain ⟨⟨rfl, nonempty⟩, rfl⟩ := filled
          exact .catchAll name path nonempty

theorem fill_isSome_of_fills {pieces : List Piece} {path : Bytes}
    {parameters : List PathParameter} (fills : Fills pieces path parameters) :
    (fill pieces path).isSome = true := by
  induction fills with
  | nil => rfl
  | literal text _ ih => simpa [fill] using ih
  | @parameter rest path parameters name value nonempty segment _ ih =>
      rw [fill, List.findSome?_isSome_iff]
      have positive : 0 < value.length := List.length_pos_iff.mpr nonempty
      refine ⟨value.length - 1, by simp; omega, ?_⟩
      have whole : value.length - 1 + 1 = value.length := by omega
      rw [whole, List.take_left, List.drop_left, if_neg segment, Option.isSome_map]
      exact ih
  | catchAll name value nonempty => simp [fill, nonempty]

/-- The match of a single route. -/
def fillEntry (path : Bytes) (entry : Bytes × RouteTarget) : Option RouteMatch :=
  (fill (readPieces none entry.1) path).map (⟨entry.2, ·⟩)

/-- A router that accepts every new template and takes the first match. -/
def scan : Matchit where
  Router := List (Bytes × RouteTarget)
  pieces := readPieces none
  stored router := router
  new := []
  insert router template target :=
    if template ∈ router.map Prod.fst then .error "insertion failed due to conflict"
    else .ok (router ++ [(template, target)])
  find router path := router.findSome? (fillEntry path)
  stored_new := rfl
  stored_insert := by
    intro router next template target inserted
    split at inserted
    · cases inserted
    · cases inserted
      rfl
  insert_fresh := by
    intro router next template target inserted
    split at inserted
    · cases inserted
    · next fresh => exact fresh
  find_sound := by
    intro router path matched found
    obtain ⟨entry, member, here⟩ := List.exists_of_findSome?_eq_some found
    obtain ⟨parameters, filled, rfl⟩ := Option.map_eq_some_iff.mp here
    exact ⟨entry.1, member, fills_of_fill filled⟩
  find_complete := by
    intro router path missing entry member parameters fills
    have here := List.findSome?_eq_none_iff.mp missing entry member
    rw [fillEntry, Option.map_eq_none_iff] at here
    have filled := fill_isSome_of_fills fills
    rw [here] at filled
    cases filled

end Matchit

end Ingress
