import LensoWeb.OpenApi.Cycle

/-!
# Grounded schemas

A schema is grounded in a root when every reference in it is local to the root, leads
to an object, and the objects that are reached in this way are grounded again. The
derivation is finite, so there is no cycle. A schema that is grounded in itself has
a canonical form under every configuration.
-/

namespace OpenApi

open Foundation

/-- A reference stands somewhere in a value. -/
inductive Mentions : Json → Str → Prop where
  | here {fields : List (Str × Json)} {reference : Str}
      (refers : referenceOf fields = some reference) : Mentions (.object fields) reference
  | field {fields : List (Str × Json)} {field : Str × Json} {reference : Str}
      (member : field ∈ fields) (inside : Mentions field.2 reference) :
      Mentions (.object fields) reference
  | item {items : List Json} {item : Json} {reference : Str} (member : item ∈ items)
      (inside : Mentions item reference) : Mentions (.array items) reference

section Mentions

variable {reference : Str}

theorem mentions_object {fields : List (Str × Json)} :
    Mentions (.object fields) reference ↔
      referenceOf fields = some reference ∨ ∃ field ∈ fields, Mentions field.2 reference := by
  constructor
  · intro mentioned
    cases mentioned with
    | here refers => exact .inl refers
    | field member inside => exact .inr ⟨_, member, inside⟩
  · rintro (refers | ⟨field, member, inside⟩)
    · exact .here refers
    · exact .field member inside

theorem mentions_array {items : List Json} :
    Mentions (.array items) reference ↔ ∃ item ∈ items, Mentions item reference := by
  constructor
  · intro mentioned
    cases mentioned with
    | item member inside => exact ⟨_, member, inside⟩
  · rintro ⟨item, member, inside⟩
    exact .item member inside

theorem not_mentions_scalar {value : Json} (scalar : value.isScalar = true) :
    ¬ Mentions value reference := by
  intro mentioned
  cases mentioned <;> cases scalar

theorem not_mentions_object {fields : List (Str × Json)}
    (plain : referenceOf fields = none)
    (each : ∀ field ∈ fields, ¬ Mentions field.2 reference) :
    ¬ Mentions (.object fields) reference := by
  rw [mentions_object, plain]
  rintro (refers | ⟨field, member, inside⟩)
  · cases refers
  · exact each field member inside

end Mentions

/-- All references in a value are local, and lead to objects for which the same holds. -/
inductive Grounded (root : Json) : Json → Prop where
  | intro {schema : Json}
      (resolves : ∀ reference, Mentions schema reference →
        ∃ name target, reference = lit "#/$defs/" ++ name ∧
          definition root name = some (.object target))
      (below : ∀ name target, Mentions schema (lit "#/$defs/" ++ name) →
        definition root name = some target → Grounded root target) : Grounded root schema

variable {config : OpenApiConfig} {routeId : Str}

theorem Inner.mentions {schema part : Json} {reference : Str} (inner : Inner schema part)
    (inside : Mentions part reference) : Mentions schema reference := by
  cases inner with
  | item member => exact .item member inside
  | field plain member kept => exact .field member inside
  | sibling refers member kept => exact .field member inside

namespace Grounded

variable {root schema : Json}

/-- A value without references is grounded in anything. -/
theorem of_not_mentions {value : Json}
    (none : ∀ reference, ¬ Mentions value reference) : Grounded root value :=
  .intro (fun reference mentioned => absurd mentioned (none reference))
    fun _ _ mentioned => absurd mentioned (none _)

theorem resolves (grounded : Grounded root schema) {reference : Str}
    (mentioned : Mentions schema reference) : ∃ name target, reference = lit "#/$defs/" ++ name ∧
      definition root name = some (.object target) := by
  cases grounded with
  | intro resolves below => exact resolves reference mentioned

theorem target (grounded : Grounded root schema) {name : Str} {target : Json}
    (mentioned : Mentions schema (lit "#/$defs/" ++ name))
    (defined : definition root name = some target) : Grounded root target := by
  cases grounded with
  | intro resolves below => exact below name target mentioned defined

/-- What mentions fewer references is grounded too. -/
theorem mono (grounded : Grounded root schema) {part : Json}
    (fewer : ∀ reference, Mentions part reference → Mentions schema reference) :
    Grounded root part :=
  .intro (fun reference mentioned => grounded.resolves (fewer reference mentioned))
    fun _ _ mentioned defined => grounded.target (fewer _ mentioned) defined

/-- Groundedness depends on the definitions of the root only. -/
theorem congr (grounded : Grounded root schema) {other : Json}
    (same : SameDefinitions root other) : Grounded other schema := by
  induction grounded with
  | intro resolves _ ih =>
      refine .intro ?_ ?_
      · intro reference mentioned
        obtain ⟨name, target, rfl, defined⟩ := resolves reference mentioned
        exact ⟨name, target, rfl, (same name).symm.trans defined⟩
      · intro name target mentioned defined
        exact ih name target mentioned ((same name).trans defined)

/-- What a reference in a grounded schema resolves to. -/
theorem resolved (grounded : Grounded root schema) {reference : Str} {resolved : Resolved}
    (mentioned : Mentions schema reference)
    (found : resolveSchemaReference config reference root routeId = .ok resolved) :
    resolved.root = root ∧ Grounded root resolved.target := by
  obtain ⟨name, target, rfl, -⟩ := grounded.resolves mentioned
  obtain ⟨name', same, defined, atRoot, -⟩ | ⟨name', same, -⟩ := resolveSchemaReference_ok.mp found
  · obtain rfl := List.append_cancel_left same
    exact ⟨atRoot, grounded.target mentioned defined⟩
  · exact absurd same (local_ne_component name name')

/-- The unfolding of a grounded schema is finite. By induction on the derivation, and
within one schema on its size. -/
theorem acc (grounded : Grounded root schema) :
    Acc (fun next site => Unfolds config routeId site next) ⟨root, schema⟩ := by
  induction grounded with
  | @intro schema resolves below ih =>
  have inside : ∀ part, (∀ reference, Mentions part reference → Mentions schema reference) →
      Acc (fun next site => Unfolds config routeId site next) ⟨root, part⟩ := by
    intro part fewer
    generalize weighs : sizeOf part = weight
    induction weight using Nat.strong_induction_on generalizing part with
    | _ weight ihSize =>
    constructor
    rintro next (inner | ⟨refers, found⟩)
    · exact ihSize _ (weighs ▸ inner.sizeOf_lt) _
        (fun reference mentioned => fewer reference (inner.mentions mentioned)) rfl
    · have mentioned := fewer _ (.here refers)
      obtain ⟨name, target, rfl, -⟩ := resolves _ mentioned
      obtain ⟨name', same, defined, atRoot, -⟩ | ⟨name', same, -⟩ :=
        resolveSchemaReference_ok.mp found
      · obtain rfl := List.append_cancel_left same
        rw [Resolved.site, atRoot]
        exact ih name _ mentioned defined
      · exact absurd same (local_ne_component name name')
  exact inside schema fun _ mentioned => mentioned

/-- Walks stay at the root, and at grounded schemas. -/
theorem walk {start final : Site} {path : List Resolved}
    (walk : Walk config routeId start path final) (grounded : Grounded start.root start.schema) :
    final.root = start.root ∧ Grounded start.root final.schema ∧
      ∀ resolved ∈ path, resolved.root = start.root := by
  induction walk with
  | here site => exact ⟨rfl, grounded, by simp⟩
  | inner inner _ ih => exact ih (grounded.mono fun _ mentioned => inner.mentions mentioned)
  | follow refers found _ ih =>
      obtain ⟨atRoot, next⟩ := grounded.resolved (.here refers) found
      rw [Resolved.site, atRoot] at ih
      obtain ⟨same, later, path⟩ := ih next
      exact ⟨same, later, List.forall_mem_cons.mpr ⟨atRoot, path⟩⟩

theorem complete (grounded : Grounded root schema) : Complete config routeId ⟨root, schema⟩ := by
  intro path root' fields reference walk refers
  obtain ⟨rfl, later, -⟩ := grounded.walk walk
  obtain ⟨name, target, rfl, defined⟩ := later.resolves (.here refers)
  exact ⟨⟨.object target, root', _⟩, target,
    resolveSchemaReference_ok.mpr (.inl ⟨name, rfl, defined, rfl, rfl⟩), rfl⟩

/-- A schema that is grounded in itself has a canonical form. -/
theorem canonicalSchema_isOk [FieldOrder] (grounded : Grounded schema schema)
    (config : OpenApiConfig) (routeId : Str) :
    ∃ form, canonicalSchema config schema routeId = .ok form := by
  have form := @fullForm_eq_canonicalSchema _ config routeId schema
  cases outcome : canonicalSchema config schema routeId with
  | ok form => exact ⟨form, rfl⟩
  | error message =>
      rw [outcome] at form
      obtain ⟨-, path, final, walk, repeated⟩ := exists_walk_of_error grounded.complete form
      have twice : RepeatsKey config routeId ⟨schema, schema⟩ :=
        ⟨path, final, walk, fun distinct => repeated ⟨distinct, by simp⟩⟩
      obtain revisits | ⟨path, final, walk, first, inFirst, second, inSecond, -, roots⟩ :=
        repeatsKey_iff.mp twice
      · exact absurd grounded.acc (revisits_iff_infinite.mp revisits)
      · have atRoot := (grounded.walk walk).2.2
        exact absurd ((atRoot first inFirst).trans (atRoot second inSecond).symm) roots

end Grounded

end OpenApi
