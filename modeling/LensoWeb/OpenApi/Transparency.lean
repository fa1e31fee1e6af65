import LensoWeb.Foundation.Render
import LensoWeb.OpenApi.Grounded

/-!
# Reference transparency

A reference stands for the schema it leads to, and the arrays under `required` and `enum`
are sets. A schema may therefore be rewritten: an object that is nothing but a reference
may give way to its target, read under the root it was resolved in, and the items of
these arrays may change places. `Rewrites` is every combination of such changes.

The loop over what stands beside a reference neither drops a definition table nor sorts
an array, as the loop over a plain object does, and the keys of the references being
followed do not tell the roots of local references apart. Where neither matters,
canonical forms are invariant under rewriting, and are their own canonical forms.
-/

namespace OpenApi

open Foundation

/-! ### Rewriting -/

/-- A reference with annotations, and perhaps a definition table, and nothing else. -/
def IsReference (fields : List (Str × Json)) : Prop :=
  ∀ field ∈ fields, dropsSibling field.1 = true ∨ field.1 = lit "$defs"

instance (fields : List (Str × Json)) : Decidable (IsReference fields) :=
  inferInstanceAs (Decidable (∀ field ∈ fields, _ ∨ _))

section Rewriting

variable (config : OpenApiConfig) (routeId : Str)

mutual

/-- A schema under a root becomes a schema under a new root. What is left out of every
canonical form may change freely; a reference that is kept must lead under the new root
to a rewriting of what it leads to under the old one. -/
inductive Rewrites : Json → Json → Json → Json → Prop where
  | same (root schema : Json) : Rewrites root root schema schema
  | scalar {root newRoot schema : Json} (scalar : schema.isScalar = true) :
      Rewrites root newRoot schema schema
  | array {root newRoot : Json} {items newItems : List Json}
      (each : RewritesItems root newRoot items newItems) :
      Rewrites root newRoot (.array items) (.array newItems)
  | plain {root newRoot : Json} {fields newFields : List (Str × Json)}
      (plain : referenceOf fields = none) (newPlain : referenceOf newFields = none)
      (each : RewritesFields root newRoot (fields.filter (!dropsField ·.1))
        (newFields.filter (!dropsField ·.1))) :
      Rewrites root newRoot (.object fields) (.object newFields)
  | reference {root newRoot : Json} {fields newFields : List (Str × Json)} {reference : Str}
      {resolved newResolved : Resolved} (refers : referenceOf fields = some reference)
      (newRefers : referenceOf newFields = some reference)
      (found : resolveSchemaReference config reference root routeId = .ok resolved)
      (newFound : resolveSchemaReference config reference newRoot routeId = .ok newResolved)
      (target : Rewrites resolved.root newResolved.root resolved.target newResolved.target)
      (each : RewritesFields root newRoot (fields.filter (!dropsSibling ·.1))
        (newFields.filter (!dropsSibling ·.1))) :
      Rewrites root newRoot (.object fields) (.object newFields)
  | target {root newRoot new : Json} {fields : List (Str × Json)} {reference : Str}
      {resolved : Resolved} (refers : referenceOf fields = some reference)
      (pure : IsReference fields)
      (found : resolveSchemaReference config reference root routeId = .ok resolved)
      (target : Rewrites resolved.root newRoot resolved.target new) :
      Rewrites root newRoot (.object fields) new

/-- Item by item. -/
inductive RewritesItems : Json → Json → List Json → List Json → Prop where
  | nil {root newRoot : Json} : RewritesItems root newRoot [] []
  | cons {root newRoot item newItem : Json} {rest newRest : List Json}
      (head : Rewrites root newRoot item newItem) (tail : RewritesItems root newRoot rest newRest) :
      RewritesItems root newRoot (item :: rest) (newItem :: newRest)

/-- Field by field; the items of a `required` or `enum` array may change places. -/
inductive RewritesFields : Json → Json → List (Str × Json) → List (Str × Json) → Prop where
  | nil {root newRoot : Json} : RewritesFields root newRoot [] []
  | value {root newRoot value newValue : Json} {key : Str} {rest newRest : List (Str × Json)}
      (head : Rewrites root newRoot value newValue)
      (tail : RewritesFields root newRoot rest newRest) :
      RewritesFields root newRoot ((key, value) :: rest) ((key, newValue) :: newRest)
  | reordered {root newRoot : Json} {key : Str} {items middle newItems : List Json}
      {rest newRest : List (Str × Json)} (unordered : isUnordered key = true)
      (each : RewritesItems root newRoot items middle) (moved : newItems.Perm middle)
      (tail : RewritesFields root newRoot rest newRest) :
      RewritesFields root newRoot ((key, .array items) :: rest) ((key, .array newItems) :: newRest)

end

/-- Nothing that canonicalisation meets beside a reference is a definition table, or a
`required` or `enum` array with two different items. -/
def Tidy (start : Site) : Prop :=
  ∀ path root fields reference, Walk config routeId start path ⟨root, .object fields⟩ →
    referenceOf fields = some reference → ∀ field ∈ fields, field.1 ≠ lit "$defs" ∧
      (isUnordered field.1 = true → ∀ items, field.2 = .array items →
        ∀ left ∈ items, ∀ right ∈ items, left = right)

/-- Every object that canonicalisation meets has each key once. -/
def Maps (start : Site) : Prop :=
  ∀ path root fields, Walk config routeId start path ⟨root, .object fields⟩ →
    (fields.map Prod.fst).Nodup

/-- What the canonical form of a schema should not depend on, and that it is a form. -/
structure Transparent [FieldOrder] (schema : Json) : Prop where
  rewritten : ∀ new, Rewrites config routeId schema new schema new →
    canonicalSchema config new routeId = canonicalSchema config schema routeId
  replaced : ∀ path root fields reference resolved,
    Walk config routeId ⟨schema, schema⟩ path ⟨root, .object fields⟩ →
    referenceOf fields = some reference → IsReference fields →
    resolveSchemaReference config reference root routeId = .ok resolved →
    canonicalSchemaIn config root (.object fields) routeId =
      canonicalSchemaIn config resolved.root resolved.target routeId
  stable : ∀ value, canonicalSchema config schema routeId = .ok value →
    canonicalSchema config value routeId = .ok value

end Rewriting

variable {config : OpenApiConfig} {routeId : Str}

/-! ### Sorting -/

/-- The order of `sort_json_array`. -/
def RenderLE (left right : Json) : Prop := left.render ≤ right.render

instance : DecidableRel RenderLE := fun left right =>
  inferInstanceAs (Decidable (left.render ≤ right.render))

instance : Std.Total RenderLE := ⟨fun left right => le_total left.render right.render⟩

instance : IsTrans Json RenderLE := ⟨fun _ _ _ below above => le_trans below above⟩

instance : Std.Antisymm RenderLE :=
  ⟨fun _ _ below above => Json.render_injective (le_antisymm below above)⟩

theorem sortJsonArray_array (items : List Json) :
    sortJsonArray (.array items) = .array (items.insertionSort RenderLE) := rfl

/-- Sorting forgets the order. -/
theorem sortJsonArray_perm {items newItems : List Json} (moved : newItems.Perm items) :
    sortJsonArray (.array newItems) = sortJsonArray (.array items) := by
  rw [sortJsonArray_array, sortJsonArray_array]
  congr 1
  refine List.Perm.eq_of_pairwise' (List.pairwise_insertionSort RenderLE newItems)
    (List.pairwise_insertionSort RenderLE items) ?_
  exact (List.perm_insertionSort RenderLE newItems).trans
    (moved.trans (List.perm_insertionSort RenderLE items).symm)

theorem sortJsonArray_sortJsonArray (value : Json) :
    sortJsonArray (sortJsonArray value) = sortJsonArray value := by
  cases value with
  | array items =>
      exact sortJsonArray_perm (List.perm_insertionSort RenderLE items)
  | null => rfl
  | bool value => rfl
  | number value => rfl
  | string text => rfl
  | object fields => rfl

theorem arrange_arrange (key : Str) (value : Json) :
    arrange key (arrange key value) = arrange key value := by
  rw [arrange, arrange]
  split
  · exact sortJsonArray_sortJsonArray value
  · rfl

/-! ### Walks from within -/

theorem Tidy.of_walk {start middle : Site} {path : List Resolved}
    (tidy : Tidy config routeId start) (walk : Walk config routeId start path middle) :
    Tidy config routeId middle :=
  fun _ root fields reference later => tidy _ root fields reference (walk.trans later)

theorem Maps.of_walk {start middle : Site} {path : List Resolved}
    (maps : Maps config routeId start) (walk : Walk config routeId start path middle) :
    Maps config routeId middle := fun _ root fields later => maps _ root fields (walk.trans later)

theorem Tidy.inner {root schema part : Json} (tidy : Tidy config routeId ⟨root, schema⟩)
    (inner : Inner schema part) : Tidy config routeId ⟨root, part⟩ :=
  tidy.of_walk (.inner inner (.here _))

theorem Maps.inner {root schema part : Json} (maps : Maps config routeId ⟨root, schema⟩)
    (inner : Inner schema part) : Maps config routeId ⟨root, part⟩ :=
  maps.of_walk (.inner inner (.here _))

/-! ### Rewriting keeps canonical forms -/

section Lists

variable {root newRoot : Json} {form newForm : Json → Except SchemaError Json}

theorem RewritesItems.forms {items newItems forms : List Json}
    (each : RewritesItems config routeId root newRoot items newItems)
    (parts : ∀ item ∈ items, ∀ newItem value, Rewrites config routeId root newRoot item newItem →
      form item = .ok value → newForm newItem = .ok value)
    (formed : List.Forall₂ (fun item value => form item = .ok value) items forms) :
    List.Forall₂ (fun item value => newForm item = .ok value) newItems forms := by
  induction items generalizing newItems forms with
  | nil =>
      cases each
      cases formed
      exact .nil
  | cons item rest ih =>
      cases each with
      | cons head tail =>
          cases formed with
          | cons first others =>
              refine .cons (parts item List.mem_cons_self _ _ head first) (ih tail ?_ others)
              exact fun other member => parts other (List.mem_cons_of_mem _ member)

theorem RewritesFields.entries {finish : Str → Json → Json}
    {fields newFields entries : List (Str × Json)}
    (each : RewritesFields config routeId root newRoot fields newFields)
    (parts : ∀ field ∈ fields, ∀ newValue value,
      Rewrites config routeId root newRoot field.2 newValue → form field.2 = .ok value →
      newForm newValue = .ok value)
    (arrays : ∀ key items middle newItems value, (key, Json.array items) ∈ fields →
      isUnordered key = true → RewritesItems config routeId root newRoot items middle →
      newItems.Perm middle → form (.array items) = .ok value →
      ∃ newValue, newForm (.array newItems) = .ok newValue ∧
        finish key value = finish key newValue)
    (formed : List.Forall₂ (BecomesEntry finish form) fields entries) :
    List.Forall₂ (BecomesEntry finish newForm) newFields entries := by
  induction fields generalizing newFields entries with
  | nil =>
      cases each
      cases formed
      exact .nil
  | cons field rest ih =>
      have later : ∀ newRest others, RewritesFields config routeId root newRoot rest newRest →
          List.Forall₂ (BecomesEntry finish form) rest others →
          List.Forall₂ (BecomesEntry finish newForm) newRest others := by
        intro newRest others tail formed
        refine ih tail ?_ ?_ formed
        · exact fun other member => parts other (List.mem_cons_of_mem _ member)
        · exact fun key items middle newItems value member =>
            arrays key items middle newItems value (List.mem_cons_of_mem _ member)
      cases formed with
      | cons first others =>
          obtain ⟨value, made, rfl⟩ := first
          cases each with
          | value head tail =>
              exact .cons ⟨value, parts _ List.mem_cons_self _ _ head made, rfl⟩
                (later _ _ tail others)
          | reordered unordered items moved tail =>
              obtain ⟨newValue, newMade, same⟩ :=
                arrays _ _ _ _ value List.mem_cons_self unordered items moved made
              exact .cons ⟨newValue, newMade, Prod.ext rfl same⟩ (later _ _ tail others)

end Lists

/-- A list of equal items is the only order of its items. -/
theorem eq_of_perm_of_const {α : Type} {items newItems : List α}
    (const : ∀ left ∈ items, ∀ right ∈ items, left = right) (moved : newItems.Perm items) :
    newItems = items := by
  cases items with
  | nil => exact moved.eq_nil
  | cons item rest =>
      have whole : item :: rest = List.replicate (rest.length + 1) item :=
        List.eq_replicate_iff.mpr ⟨rfl, fun other member => const other member item
          List.mem_cons_self⟩
      rw [whole] at moved ⊢
      exact List.perm_replicate.mp moved

/-- Equal items have equal forms. -/
theorem const_of_forms {form : Json → Except SchemaError Json} {items forms : List Json}
    (const : ∀ left ∈ items, ∀ right ∈ items, left = right)
    (all : List.Forall₂ (fun item value => form item = .ok value) items forms) :
    ∀ left ∈ forms, ∀ right ∈ forms, left = right := by
  intro left inLeft right inRight
  obtain ⟨item, inItems, formLeft⟩ := Result.exists_of_forall₂_left all.flip inLeft
  obtain ⟨other, inItems', formRight⟩ := Result.exists_of_forall₂_left all.flip inRight
  have formed : form item = .ok left := formLeft
  have formed' : form other = .ok right := formRight
  rw [const item inItems other inItems', formed'] at formed
  exact (Except.ok.inj formed).symm

/-- The key of a reference is its text, with the kind of the reference. -/
theorem key_eq_of_resolved {reference : Str} {root newRoot : Json} {resolved newResolved : Resolved}
    (found : resolveSchemaReference config reference root routeId = .ok resolved)
    (newFound : resolveSchemaReference config reference newRoot routeId = .ok newResolved) :
    newResolved.key = resolved.key := by
  obtain ⟨name, same, -, -, key⟩ | ⟨name, same, -, -, -, -, key⟩ :=
    resolveSchemaReference_ok.mp found
  · obtain ⟨_, _, -, -, newKey⟩ | ⟨newName, newSame, -⟩ := resolveSchemaReference_ok.mp newFound
    · exact newKey.trans key.symm
    · exact absurd (same.symm.trans newSame) (local_ne_component name newName)
  · obtain ⟨newName, newSame, -⟩ | ⟨_, _, -, -, -, -, newKey⟩ :=
      resolveSchemaReference_ok.mp newFound
    · exact absurd (newSame.symm.trans same) (local_ne_component newName name)
    · exact newKey.trans key.symm

section Forms

variable [FieldOrder]

/-- An array whose items change places has the same forms in some order. -/
theorem RewritesItems.reordered {depth : Nat} {root newRoot form : Json}
    {references fewer : Finset Str} {items middle newItems : List Json}
    (each : RewritesItems config routeId root newRoot items middle) (moved : newItems.Perm middle)
    (parts : ∀ item ∈ items, ∀ newItem value, Rewrites config routeId root newRoot item newItem →
      canonicalForm config routeId depth root references item = .ok value →
      canonicalForm config routeId depth newRoot fewer newItem = .ok value)
    (formed : canonicalForm config routeId depth root references (.array items) = .ok form) :
    ∃ forms newForms, form = .array forms ∧
      List.Forall₂ (fun item form => canonicalForm config routeId depth root references item =
        .ok form) items forms ∧
      canonicalForm config routeId depth newRoot fewer (.array newItems) = .ok (.array newForms) ∧
        newForms.Perm forms := by
  obtain ⟨forms, all, rfl⟩ := canonicalForm_array_ok.mp formed
  obtain ⟨newForms, newAll, same⟩ := List.perm_comp_forall₂ moved (each.forms parts all)
  exact ⟨forms, newForms, rfl, all, canonicalForm_array_ok.mpr ⟨newForms, newAll, rfl⟩, same⟩

omit [FieldOrder] in
/-- In a tidy schema nothing of what stands beside a mere reference is kept. -/
theorem IsReference.alone {root : Json} {fields : List (Str × Json)} {reference : Str}
    (pure : IsReference fields) (tidy : Tidy config routeId ⟨root, .object fields⟩)
    (refers : referenceOf fields = some reference) : fields.filter (!dropsSibling ·.1) = [] := by
  refine List.filter_eq_nil_iff.mpr fun field member kept => ?_
  obtain dropped | table := pure field member
  · rw [dropped] at kept
    cases kept
  · exact (tidy [] root fields reference (.here _) refers field member).1 table

/-- Rewriting within one schema, given that it keeps what references lead to. -/
theorem Rewrites.step {depth : Nat}
    (follows : ∀ {resolved newResolved : Resolved} {references fewer : Finset Str} {value : Json},
      Rewrites config routeId resolved.root newResolved.root resolved.target newResolved.target →
      Tidy config routeId resolved.site → fewer ⊆ references →
      followAt config routeId depth resolved references = .ok value →
      followAt config routeId depth newResolved fewer = .ok value)
    (unfolds : ∀ {resolved : Resolved} {newRoot new : Json} {references fewer : Finset Str}
      {value : Json}, Rewrites config routeId resolved.root newRoot resolved.target new →
      Tidy config routeId resolved.site → fewer ⊆ references →
      followAt config routeId depth resolved references = .ok value →
      canonicalForm config routeId depth newRoot fewer new = .ok value)
    {root newRoot schema new value : Json} {references fewer : Finset Str}
    (rewrites : Rewrites config routeId root newRoot schema new)
    (tidy : Tidy config routeId ⟨root, schema⟩) (subset : fewer ⊆ references)
    (formed : canonicalForm config routeId depth root references schema = .ok value) :
    canonicalForm config routeId depth newRoot fewer new = .ok value := by
  generalize weighs : sizeOf schema = weight
  induction weight using Nat.strong_induction_on generalizing schema new value with
  | _ weight ih =>
  have part : ∀ {part newPart form : Json}, Inner schema part →
      Rewrites config routeId root newRoot part newPart →
      canonicalForm config routeId depth root references part = .ok form →
      canonicalForm config routeId depth newRoot fewer newPart = .ok form :=
    fun inner rewrites formed =>
      ih _ (weighs ▸ inner.sizeOf_lt) rewrites (tidy.inner inner) formed rfl
  have items : ∀ {items : List Json}, Inner schema (.array items) → ∀ item ∈ items,
      ∀ newItem value, Rewrites config routeId root newRoot item newItem →
      canonicalForm config routeId depth root references item = .ok value →
      canonicalForm config routeId depth newRoot fewer newItem = .ok value := by
    intro items inner item member newItem value rewrites formed
    have smaller := (Inner.item member).sizeOf_lt.trans inner.sizeOf_lt
    exact ih _ (weighs ▸ smaller) rewrites ((tidy.inner inner).inner (.item member)) formed rfl
  cases rewrites with
  | same => exact (canonicalForm_fewer subset schema).ok formed
  | scalar scalar =>
      rw [canonicalForm_scalar _ _ _ scalar] at formed ⊢
      exact formed
  | array each =>
      obtain ⟨forms, all, rfl⟩ := canonicalForm_array_ok.mp formed
      refine canonicalForm_array_ok.mpr ⟨forms, ?_, rfl⟩
      exact each.forms (fun item member _ _ rewrites formed =>
        part (.item member) rewrites formed) all
  | @plain _ _ fields newFields plain newPlain each =>
      obtain ⟨entries, all, rfl⟩ := (canonicalForm_plain_ok plain).mp formed
      refine (canonicalForm_plain_ok newPlain).mpr ⟨entries, ?_, rfl⟩
      have inner : ∀ {field}, field ∈ fields.filter (!dropsField ·.1) →
          Inner (.object fields) field.2 := by
        intro field member
        rw [List.mem_filter, Bool.not_eq_true'] at member
        exact .field plain member.1 member.2
      refine each.entries (fun field member _ _ rewrites formed =>
        part (inner member) rewrites formed) ?_ all
      intro key _ middle newItems value member unordered each moved formed
      obtain ⟨forms, newForms, rfl, -, newFormed, same⟩ :=
        each.reordered moved (items (inner member)) formed
      refine ⟨_, newFormed, ?_⟩
      rw [arrange, arrange, if_pos unordered, if_pos unordered]
      exact (sortJsonArray_perm same).symm
  | @reference _ _ fields newFields reference resolved newResolved refers newRefers found newFound
      target each =>
      obtain ⟨_, entered, entries, found', fresh, followed, all, rfl⟩ :=
        (canonicalForm_reference_ok refers).mp formed
      cases found.symm.trans found'
      have keys := key_eq_of_resolved found newFound
      refine (canonicalForm_reference_ok newRefers).mpr
        ⟨newResolved, entered, entries, newFound, ?_, ?_, ?_, rfl⟩
      · rw [keys]
        exact fun before => fresh (subset before)
      · rw [keys]
        exact follows target (tidy.of_walk (.follow refers found (.here _)))
          (Finset.insert_subset_insert _ subset) followed
      · have inner : ∀ {field}, field ∈ fields.filter (!dropsSibling ·.1) →
            Inner (.object fields) field.2 := by
          intro field member
          rw [List.mem_filter, Bool.not_eq_true'] at member
          exact .sibling refers member.1 member.2
        refine each.entries (fun field member _ _ rewrites formed =>
          part (inner member) rewrites formed) ?_ all
        intro key listed middle newItems value member unordered each moved formed
        obtain ⟨forms, newForms, rfl, all, newFormed, same⟩ :=
          each.reordered moved (items (inner member)) formed
        refine ⟨_, newFormed, ?_⟩
        -- Nothing is sorted here, but all items are equal.
        have equal := (tidy [] root fields reference (.here _) refers _
          (List.mem_filter.mp member).1).2 unordered listed rfl
        exact congrArg Json.array (eq_of_perm_of_const (const_of_forms equal all) same).symm
  | @target _ _ _ fields reference resolved refers pure found target =>
      obtain ⟨_, entered, entries, found', fresh, followed, all, rfl⟩ :=
        (canonicalForm_reference_ok refers).mp formed
      cases found.symm.trans found'
      rw [pure.alone tidy refers] at all
      cases all
      exact unfolds target (tidy.of_walk (.follow refers found (.here _)))
        (subset.trans (Finset.subset_insert _ _)) followed

/-- Rewriting keeps the canonical form, under at most the same references. -/
theorem Rewrites.canonicalForm_ok {depth : Nat} {root newRoot schema new value : Json}
    {references fewer : Finset Str} (rewrites : Rewrites config routeId root newRoot schema new)
    (tidy : Tidy config routeId ⟨root, schema⟩) (subset : fewer ⊆ references)
    (formed : canonicalForm config routeId depth root references schema = .ok value) :
    canonicalForm config routeId depth newRoot fewer new = .ok value := by
  induction depth generalizing root newRoot schema new value references fewer with
  | zero =>
      refine Rewrites.step ?_ ?_ rewrites tidy subset formed
      · intro _ _ _ _ _ _ _ _ followed
        cases followed
      · intro _ _ _ _ _ _ _ _ _ followed
        cases followed
  | succ depth ih =>
      refine Rewrites.step ?_ ?_ rewrites tidy subset formed
      · intro resolved newResolved references fewer value rewrites tidy subset followed
        rw [followAt_succ] at followed ⊢
        exact ih rewrites tidy subset followed
      · intro resolved newRoot new references fewer value rewrites tidy subset followed
        rw [followAt_succ] at followed
        exact (canonicalForm_deeper (Nat.le_succ depth) new).ok
          (ih rewrites tidy subset followed)

/-! ### Canonical forms of canonical forms -/

/-- A value in canonical form: nothing is left to follow, to drop or to sort. -/
inductive Settled : Json → Prop where
  | scalar {value : Json} (scalar : value.isScalar = true) : Settled value
  | array {items : List Json} (each : ∀ item ∈ items, Settled item) : Settled (.array items)
  | object {fields : List (Str × Json)} (arranged : ObjectMap.Arranged fields)
      (plain : referenceOf fields = none) (kept : ∀ field ∈ fields, dropsField field.1 = false)
      (settled : ∀ field ∈ fields, arrange field.1 field.2 = field.2)
      (each : ∀ field ∈ fields, Settled field.2) : Settled (.object fields)

namespace Settled

theorem canonicalForm {value : Json} (settled : Settled value) (depth : Nat) (root : Json)
    (references : Finset Str) :
    canonicalForm config routeId depth root references value = .ok value := by
  induction settled with
  | scalar scalar => exact canonicalForm_scalar _ _ _ scalar
  | array _ ih =>
      refine canonicalForm_array_ok.mpr ⟨_, ?_, rfl⟩
      exact List.forall₂_same.mpr ih
  | @object fields arranged plain kept settled _ ih =>
      have all : fields.filter (!dropsField ·.1) = fields := by
        refine List.filter_eq_self.mpr fun field member => ?_
        rw [kept field member]
        rfl
      refine (canonicalForm_plain_ok plain).mpr ⟨fields, ?_, ?_⟩
      · rw [all]
        refine List.forall₂_same.mpr fun field member => ⟨field.2, ih field member, ?_⟩
        exact Prod.ext rfl (settled field member).symm
      · exact congrArg Json.object arranged.ofList.symm

theorem sortJsonArray {value : Json} (settled : Settled value) : Settled (sortJsonArray value) := by
  cases value with
  | array items =>
      cases settled with
      | scalar scalar => cases scalar
      | array each =>
          refine .array fun item member => each item ?_
          exact (List.mem_insertionSort RenderLE).mp member
  | null => exact settled
  | bool value => exact settled
  | number value => exact settled
  | string text => exact settled
  | object fields => exact settled

theorem arrange {value : Json} (settled : Settled value) (key : Str) :
    Settled (arrange key value) := by
  rw [OpenApi.arrange]
  split
  · exact settled.sortJsonArray
  · exact settled

theorem fields {fields : List (Str × Json)} (settled : Settled (.object fields)) :
    ObjectMap.Arranged fields ∧ (∀ field ∈ fields, dropsField field.1 = false) ∧
      (∀ field ∈ fields, OpenApi.arrange field.1 field.2 = field.2) ∧
      ∀ field ∈ fields, Settled field.2 := by
  cases settled with
  | scalar scalar => cases scalar
  | object arranged plain kept settled each => exact ⟨arranged, kept, settled, each⟩

end Settled

/-- The form of a value is a value of the same kind. -/
theorem form_kind {depth : Nat} {root schema form : Json} {references : Finset Str}
    (formed : canonicalForm config routeId depth root references schema = .ok form) :
    (∃ fields forms, schema = .object fields ∧ form = .object forms) ∨
      (∃ items forms, schema = .array items ∧ form = .array forms) ∨
        form.isScalar = true ∧ schema = form := by
  induction schema using Json.containerInduction with
  | scalar schema scalar =>
      rw [canonicalForm_scalar _ _ _ scalar] at formed
      cases formed
      exact .inr (.inr ⟨scalar, rfl⟩)
  | array items _ =>
      obtain ⟨forms, -, rfl⟩ := canonicalForm_array_ok.mp formed
      exact .inr (.inl ⟨items, forms, rfl, rfl⟩)
  | object fields _ =>
      cases refers : referenceOf fields with
      | none =>
          obtain ⟨_, -, rfl⟩ := (canonicalForm_plain_ok refers).mp formed
          exact .inl ⟨fields, _, rfl, rfl⟩
      | some reference =>
          obtain ⟨_, _, _, -, -, -, -, rfl⟩ := (canonicalForm_reference_ok refers).mp formed
          exact .inl ⟨fields, _, rfl, rfl⟩

theorem eq_string_of_form {depth : Nat} {root schema : Json} {references : Finset Str} {text : Str}
    (formed : canonicalForm config routeId depth root references schema = .ok (.string text)) :
    schema = .string text := by
  obtain ⟨_, _, -, impossible⟩ | ⟨_, _, -, impossible⟩ | ⟨-, same⟩ := form_kind formed
  · cases impossible
  · cases impossible
  · exact same

theorem exists_array_of_form {depth : Nat} {root schema : Json} {references : Finset Str}
    {forms : List Json}
    (formed : canonicalForm config routeId depth root references schema = .ok (.array forms)) :
    ∃ items, schema = .array items := by
  obtain ⟨_, _, -, impossible⟩ | ⟨items, _, whole, -⟩ | ⟨impossible, -⟩ := form_kind formed
  · cases impossible
  · exact ⟨items, whole⟩
  · cases impossible

omit [FieldOrder] in
theorem referenceOf_eq_none_of_forall {fields : List (Str × Json)}
    (absent : ∀ text, (lit "$ref", Json.string text) ∉ fields) : referenceOf fields = none := by
  rw [referenceOf]
  cases found : Assoc.find (lit "$ref") fields with
  | none => rfl
  | some value =>
      cases value with
      | string text => exact absurd (Assoc.mem_of_find found) (absent text)
      | null => rfl
      | bool value => rfl
      | number value => rfl
      | array items => rfl
      | object fields => rfl

/-- Where objects have distinct keys, there is no reference in a form. -/
theorem no_reference_in_form {depth : Nat} {root schema : Json} {references : Finset Str}
    {forms : List (Str × Json)} (maps : Maps config routeId ⟨root, schema⟩)
    (formed : canonicalForm config routeId depth root references schema = .ok (.object forms))
    (text : Str) : (lit "$ref", Json.string text) ∉ forms := by
  induction depth using Nat.strong_induction_on generalizing root schema references forms with
  | _ depth ih =>
  intro member
  obtain ⟨fields, _, rfl, -⟩ | ⟨_, _, -, impossible⟩ | ⟨impossible, -⟩ := form_kind formed
  · cases refers : referenceOf fields with
    | none =>
        obtain ⟨entries, all, same⟩ := (canonicalForm_plain_ok refers).mp formed
        cases same
        obtain impossible | inside := ObjectMap.mem_of_mem_insertAll member
        · cases impossible
        · obtain ⟨⟨key, value⟩, inFields, -, form, formed, same⟩ := exists_field_of_entry all inside
          obtain ⟨rfl, same⟩ := Prod.mk.inj same
          have unsorted : arrange (lit "$ref") form = form := if_neg (by decide)
          rw [unsorted] at same
          subst same
          obtain rfl := eq_string_of_form formed
          rw [referenceOf, Assoc.find_of_mem (maps [] root fields (.here _)) inFields] at refers
          cases refers
    | some reference =>
        obtain ⟨resolved, target, entries, found, -, followed, all, same⟩ :=
          (canonicalForm_reference_ok refers).mp formed
        cases same
        obtain inTarget | inside := ObjectMap.mem_of_mem_insertAll member
        · cases depth with
          | zero => cases followed
          | succ depth =>
              rw [followAt_succ] at followed
              have walk : Walk config routeId ⟨root, .object fields⟩ [resolved] resolved.site :=
                .follow refers found (.here _)
              exact ih depth (Nat.lt_succ_self depth) (maps.of_walk walk) followed inTarget
        · obtain ⟨field, -, kept, form, -, same⟩ := exists_field_of_entry all inside
          rw [← (Prod.mk.inj same).1] at kept
          exact absurd kept (by decide)
  · cases impossible
  · cases impossible

/-- What stands beside a reference in a tidy schema does not have to be dropped or sorted. -/
theorem Tidy.sibling {root : Json} {fields : List (Str × Json)} {reference : Str}
    (tidy : Tidy config routeId ⟨root, .object fields⟩) (refers : referenceOf fields = some reference)
    {field : Str × Json} (member : field ∈ fields) (kept : dropsSibling field.1 = false)
    {depth : Nat} {references : Finset Str} {form : Json}
    (formed : canonicalForm config routeId depth root references field.2 = .ok form) :
    dropsField field.1 = false ∧ arrange field.1 form = form := by
  obtain ⟨noTable, equal⟩ := tidy [] root fields reference (.here _) refers field member
  constructor
  · rw [dropsSibling, Bool.or_eq_false_iff] at kept
    rw [dropsField, kept.2, Bool.false_or, beq_eq_false_iff_ne]
    exact noTable
  · rw [arrange]
    split
    · next unordered =>
      cases form with
      | array forms =>
          obtain ⟨items, whole⟩ : ∃ items, field.2 = .array items := exists_array_of_form formed
          rw [whole] at formed
          obtain ⟨_, all, same⟩ := canonicalForm_array_ok.mp formed
          cases same
          refine congrArg Json.array (eq_of_perm_of_const ?_ (List.perm_insertionSort RenderLE forms))
          exact const_of_forms (equal unordered items whole) all
      | null => rfl
      | bool value => rfl
      | number value => rfl
      | string text => rfl
      | object fields => rfl
    · rfl

/-- The canonical form of a tidy schema is settled. -/
theorem settled_of_canonicalForm {depth : Nat} {root schema value : Json} {references : Finset Str}
    (tidy : Tidy config routeId ⟨root, schema⟩) (maps : Maps config routeId ⟨root, schema⟩)
    (formed : canonicalForm config routeId depth root references schema = .ok value) :
    Settled value := by
  induction depth using Nat.strong_induction_on generalizing root schema value references with
  | _ depth ihDepth =>
  generalize weighs : sizeOf schema = weight
  induction weight using Nat.strong_induction_on generalizing schema value with
  | _ weight ih =>
  have part : ∀ {part form : Json}, Inner schema part →
      canonicalForm config routeId depth root references part = .ok form → Settled form :=
    fun inner formed =>
      ih _ (weighs ▸ inner.sizeOf_lt) (tidy.inner inner) (maps.inner inner) formed rfl
  cases schema with
  | array items =>
      obtain ⟨forms, all, rfl⟩ := canonicalForm_array_ok.mp formed
      refine .array fun form member => ?_
      obtain ⟨item, inItems, formed⟩ := Result.exists_of_forall₂_left all.flip member
      exact part (.item inItems) formed
  | object fields =>
      cases refers : referenceOf fields with
      | none =>
          obtain ⟨entries, all, rfl⟩ := (canonicalForm_plain_ok refers).mp formed
          have comes : ∀ entry ∈ ObjectMap.insertAll [] entries, ∃ field ∈ fields,
              dropsField field.1 = false ∧ BecomesEntry arrange
                (canonicalForm config routeId depth root references) field entry := by
            intro entry member
            obtain impossible | inside := ObjectMap.mem_of_mem_insertAll member
            · cases impossible
            · exact exists_field_of_entry all inside
          refine .object (ObjectMap.arranged_nil.insertAll entries)
            (referenceOf_eq_none_of_forall (no_reference_in_form maps formed)) ?_ ?_ ?_
          · intro entry member
            obtain ⟨field, -, kept, form, -, rfl⟩ := comes entry member
            exact kept
          · intro entry member
            obtain ⟨field, -, -, form, -, rfl⟩ := comes entry member
            exact arrange_arrange field.1 form
          · intro entry member
            obtain ⟨field, inFields, kept, form, formed, rfl⟩ := comes entry member
            exact (part (.field refers inFields kept) formed).arrange field.1
      | some reference =>
          obtain ⟨resolved, target, entries, found, -, followed, all, rfl⟩ :=
            (canonicalForm_reference_ok refers).mp formed
          have entered : Settled (.object target) := by
            cases depth with
            | zero => cases followed
            | succ depth =>
                rw [followAt_succ] at followed
                have walk : Walk config routeId ⟨root, .object fields⟩ [resolved] resolved.site :=
                  .follow refers found (.here _)
                exact ihDepth depth (Nat.lt_succ_self depth) (tidy.of_walk walk)
                  (maps.of_walk walk) followed
          obtain ⟨arranged, keptTarget, settled, each⟩ := entered.fields
          refine .object (arranged.insertAll entries)
            (referenceOf_eq_none_of_forall (no_reference_in_form maps formed)) ?_ ?_ ?_
          · intro entry member
            obtain inTarget | inside := ObjectMap.mem_of_mem_insertAll member
            · exact keptTarget entry inTarget
            · obtain ⟨field, inFields, kept, form, formed, rfl⟩ := exists_field_of_entry all inside
              exact (tidy.sibling refers inFields kept formed).1
          · intro entry member
            obtain inTarget | inside := ObjectMap.mem_of_mem_insertAll member
            · exact settled entry inTarget
            · obtain ⟨field, inFields, kept, form, formed, rfl⟩ := exists_field_of_entry all inside
              exact (tidy.sibling refers inFields kept formed).2
          · intro entry member
            obtain inTarget | inside := ObjectMap.mem_of_mem_insertAll member
            · exact each entry inTarget
            · obtain ⟨field, inFields, kept, form, formed, rfl⟩ := exists_field_of_entry all inside
              exact part (.sibling refers inFields kept) formed
  | null =>
      rw [canonicalForm_scalar _ _ _ rfl] at formed
      cases formed
      exact .scalar rfl
  | bool value =>
      rw [canonicalForm_scalar _ _ _ rfl] at formed
      cases formed
      exact .scalar rfl
  | number value =>
      rw [canonicalForm_scalar _ _ _ rfl] at formed
      cases formed
      exact .scalar rfl
  | string text =>
      rw [canonicalForm_scalar _ _ _ rfl] at formed
      cases formed
      exact .scalar rfl

/-! ### Transparency -/

omit [FieldOrder] in
theorem RepeatsKey.of_walk {start middle : Site} {path : List Resolved}
    (repeats : RepeatsKey config routeId middle) (walk : Walk config routeId start path middle) :
    RepeatsKey config routeId start := by
  obtain ⟨later, final, rest, repeated⟩ := repeats
  refine ⟨path ++ later, final, walk.trans rest, fun distinct => repeated ?_⟩
  rw [List.map_append] at distinct
  exact (List.nodup_append'.mp distinct).2.1

/-- Where no walk meets a key twice, there is a canonical form. -/
theorem exists_canonicalSchemaIn {root schema : Json}
    (complete : Complete config routeId ⟨root, schema⟩)
    (once : ¬ RepeatsKey config routeId ⟨root, schema⟩) :
    ∃ value, canonicalSchemaIn config root schema routeId = .ok value := by
  cases formed : fullForm config routeId root ∅ schema with
  | ok value => exact ⟨value, canonicalSchemaIn_ok.mpr ⟨_, formed⟩⟩
  | error failure =>
      obtain ⟨-, path, final, walk, repeated⟩ := exists_walk_of_error complete formed
      refine absurd ⟨path, final, walk, fun distinct => repeated ⟨distinct, ?_⟩⟩ once
      exact fun resolved _ => Finset.notMem_empty _

/-- Rewriting keeps what the source computes. -/
theorem Rewrites.canonicalSchemaIn {root newRoot schema new value : Json}
    (rewrites : Rewrites config routeId root newRoot schema new)
    (tidy : Tidy config routeId ⟨root, schema⟩)
    (formed : canonicalSchemaIn config root schema routeId = .ok value) :
    canonicalSchemaIn config newRoot new routeId = .ok value := by
  obtain ⟨depth, formed⟩ := canonicalSchemaIn_ok.mp formed
  exact canonicalSchemaIn_ok.mpr
    ⟨depth, rewrites.canonicalForm_ok tidy (Finset.Subset.refl ∅) formed⟩

theorem transparent_of_tidy {schema : Json} (complete : Complete config routeId ⟨schema, schema⟩)
    (once : ¬ RepeatsKey config routeId ⟨schema, schema⟩)
    (maps : Maps config routeId ⟨schema, schema⟩) (tidy : Tidy config routeId ⟨schema, schema⟩) :
    Transparent config routeId schema := by
  constructor
  · intro new rewrites
    obtain ⟨value, formed⟩ := exists_canonicalSchemaIn complete once
    exact (rewrites.canonicalSchemaIn tidy formed).trans formed.symm
  · intro path root fields reference resolved walk refers pure found
    have within : ¬ RepeatsKey config routeId ⟨root, .object fields⟩ :=
      fun repeats => once (repeats.of_walk walk)
    obtain ⟨value, formed⟩ := exists_canonicalSchemaIn (complete.of_walk walk) within
    have unfolded : Rewrites config routeId root resolved.root (.object fields) resolved.target :=
      .target refers pure found (.same _ _)
    exact formed.trans (unfolded.canonicalSchemaIn (tidy.of_walk walk) formed).symm
  · intro value formed
    obtain ⟨depth, formed⟩ := canonicalSchema_ok.mp formed
    have settled := settled_of_canonicalForm tidy maps formed
    exact canonicalSchema_ok.mpr ⟨0, settled.canonicalForm 0 value ∅⟩

/-- The definition table beside the reference of a whole schema stays in its form, and
goes when the form is brought into canonical form again. -/
theorem not_transparent_of_table {fields : List (Str × Json)} {reference : Str}
    (complete : Complete config routeId ⟨.object fields, .object fields⟩)
    (once : ¬ RepeatsKey config routeId ⟨.object fields, .object fields⟩)
    (maps : Maps config routeId ⟨.object fields, .object fields⟩)
    (refers : referenceOf fields = some reference) (table : lit "$defs" ∈ fields.map Prod.fst) :
    ¬ Transparent config routeId (.object fields) := by
  intro transparent
  obtain ⟨value, whole⟩ := exists_canonicalSchemaIn complete once
  obtain ⟨depth, formed⟩ := canonicalSchemaIn_ok.mp whole
  obtain ⟨resolved, target, entries, -, -, -, all, rfl⟩ :=
    (canonicalForm_reference_ok refers).mp formed
  have kept : lit "$defs" ∈ (ObjectMap.insertAll target entries).map Prod.fst := by
    refine ObjectMap.mem_keys_insertAll.mpr (.inl ?_)
    obtain ⟨⟨key, definitions⟩, member, rfl⟩ := List.mem_map.mp table
    have stays : (!dropsSibling (lit "$defs")) = true := by decide
    obtain ⟨entry, inside, form, -, rfl⟩ := Result.exists_of_forall₂_left all
      (List.mem_filter.mpr ⟨member, stays⟩)
    exact List.mem_map.mpr ⟨_, inside, rfl⟩
  obtain ⟨again, formedAgain⟩ := canonicalSchema_ok.mp (transparent.stable _ whole)
  have plain : referenceOf (ObjectMap.insertAll target entries) = none :=
    referenceOf_eq_none_of_forall (no_reference_in_form maps formed)
  obtain ⟨others, allAgain, same⟩ := (canonicalForm_plain_ok plain).mp formedAgain
  rw [Json.object.inj same, ObjectMap.mem_keys_insertAll] at kept
  obtain inside | impossible := kept
  · obtain ⟨entry, member, named⟩ := List.mem_map.mp inside
    obtain ⟨field, -, dropped, form, -, rfl⟩ := exists_field_of_entry allAgain member
    rw [named] at dropped
    exact absurd dropped (by decide)
  · cases impossible

/-- All references of a schema resolve, without a cycle, to objects; and objects are maps. -/
structure Acyclic (config : OpenApiConfig) (routeId : Str) (schema : Json) : Prop where
  complete : Complete config routeId ⟨schema, schema⟩
  acyclic : ¬ Revisits config routeId ⟨schema, schema⟩
  maps : Maps config routeId ⟨schema, schema⟩

/-- Canonicalisation is transparent where no key stands for two roots and nothing beside a
reference has to be dropped or sorted; a reference with a definition table breaks it. -/
theorem transparency {config : OpenApiConfig} {routeId : Str} {schema : Json}
    (acyclic : Acyclic config routeId schema) (clear : ¬ Clashes config routeId ⟨schema, schema⟩) :
    (Tidy config routeId ⟨schema, schema⟩ →
      (∃ value, canonicalSchema config schema routeId = .ok value) ∧
        Transparent config routeId schema) ∧
    ∀ fields reference, schema = .object fields → referenceOf fields = some reference →
      lit "$defs" ∈ fields.map Prod.fst → ¬ Transparent config routeId schema := by
  have once : ¬ RepeatsKey config routeId ⟨schema, schema⟩ := by
    rw [repeatsKey_iff]
    exact not_or.mpr ⟨acyclic.acyclic, clear⟩
  constructor
  · intro tidy
    exact ⟨exists_canonicalSchemaIn acyclic.complete once,
      transparent_of_tidy acyclic.complete once acyclic.maps tidy⟩
  · rintro fields reference rfl refers table
    exact not_transparent_of_table acyclic.complete once acyclic.maps refers table

end Forms

/-! ### A definition, inline and by reference -/

/-- What the checks below ask of one walk. -/
def WalkFine (config : OpenApiConfig) (routeId : Str) (walk : List Resolved × Site) : Prop :=
  ((walk.2.schema.asObject.bind referenceOf).isSome = true →
    ((referred config routeId walk.2).bind fun resolved => resolved.target.asObject).isSome = true) ∧
  (walk.1.map Resolved.site).Nodup ∧
  (((walk.2.schema.asObject.getD []).map Prod.fst).Nodup) ∧
  ∀ first ∈ walk.1, ∀ second ∈ walk.1, first.key = second.key → first.root = second.root

instance (config : OpenApiConfig) (routeId : Str) (walk : List Resolved × Site) :
    Decidable (WalkFine config routeId walk) := inferInstanceAs (Decidable (_ ∧ _ ∧ _ ∧ _))

theorem acyclic_of_explore {schema : Json} {fuel : Nat} {walks : List (List Resolved × Site)}
    (explored : explore config routeId fuel ⟨schema, schema⟩ = some walks)
    (fine : ∀ walk ∈ walks, WalkFine config routeId walk) :
    Acyclic config routeId schema ∧ ¬ Clashes config routeId ⟨schema, schema⟩ := by
  refine ⟨⟨?_, ?_, ?_⟩, ?_⟩
  · exact complete_of_explore explored fun walk member => (fine walk member).1
  · exact not_revisits_of_explore explored fun walk member => (fine walk member).2.1
  · exact fun path root fields walk => (fine _ (walk.mem_explore explored)).2.2.1
  · rintro ⟨path, final, walk, first, inFirst, second, inSecond, keys, roots⟩
    exact roots ((fine _ (walk.mem_explore explored)).2.2.2 first inFirst second inSecond keys)

attribute [local instance] FieldOrder.byInsertion

/-- A text. -/
def textSchema : Json := .object [(lit "type", .string (lit "string"))]

theorem rewrites_textSchema (root newRoot : Json) :
    Rewrites config routeId root newRoot textSchema textSchema :=
  .plain (by decide) (by decide) (.value (.scalar rfl) .nil)

/-- A reference to the definition `Id`, with an annotation. -/
def idReference : List (Str × Json) :=
  [(lit "$ref", .string (lit "#/$defs/Id")), (lit "title", .string (lit "Id"))]

/-- An order with the definition `Id`, a schema for its id, and the names it requires. -/
def orderSchema (id : Json) (required : List Json) : Json := .object
  [(lit "$defs", .object [(lit "Id", textSchema)]), (lit "properties", .object [(lit "id", id)]),
    (lit "required", .array required)]

/-- An order whose id is a reference. -/
def referringOrder : Json :=
  orderSchema (.object idReference) [.string (lit "id"), .string (lit "at")]

/-- An order whose id is a text, with the required names the other way round. -/
def inlineOrder : Json := orderSchema textSchema [.string (lit "at"), .string (lit "id")]

theorem rewrites_order :
    Rewrites .default (lit "orders") referringOrder inlineOrder referringOrder inlineOrder := by
  have found : resolveSchemaReference .default (lit "#/$defs/Id") referringOrder (lit "orders") =
      .ok ⟨textSchema, referringOrder, lit "local:#/$defs/Id"⟩ := by decide +kernel
  have id : Rewrites .default (lit "orders") referringOrder inlineOrder (.object idReference)
      textSchema :=
    .target (by decide) (by decide +kernel) found (rewrites_textSchema _ _)
  have properties : Rewrites .default (lit "orders") referringOrder inlineOrder
      (.object [(lit "id", .object idReference)]) (.object [(lit "id", textSchema)]) :=
    .plain (by decide) (by decide) (.value id .nil)
  refine .plain (by decide) (by decide) (.value properties (.reordered (by decide)
    (.cons (.scalar rfl) (.cons (.scalar rfl) .nil)) ?_ .nil))
  exact .swap _ _ _

/-- A property may be given by reference or inline, and `required` in any order. -/
theorem transparency_order :
    Transparent .default (lit "orders") referringOrder ∧
      canonicalSchema .default inlineOrder (lit "orders") =
        canonicalSchema .default referringOrder (lit "orders") := by
  obtain ⟨walks, explored⟩ : ∃ walks, explore .default (lit "orders") 8
      ⟨referringOrder, referringOrder⟩ = some walks :=
    Option.isSome_iff_exists.mp (by decide +kernel)
  have checked : ∀ walk ∈ (explore .default (lit "orders") 8
      ⟨referringOrder, referringOrder⟩).getD [], WalkFine .default (lit "orders") walk ∧
        ((walk.2.schema.asObject.bind referenceOf).isSome = true →
          walk.2.schema = .object idReference) := by decide +kernel
  rw [explored, Option.getD_some] at checked
  obtain ⟨acyclic, clear⟩ := acyclic_of_explore explored fun walk member => (checked walk member).1
  have tidy : Tidy .default (lit "orders") ⟨referringOrder, referringOrder⟩ := by
    intro path root fields reference walk refers
    have same := (checked _ (walk.mem_explore explored)).2 (by simp [Json.asObject, refers])
    obtain rfl := Json.object.inj same
    have bare : ∀ field ∈ idReference, field.1 ≠ lit "$defs" ∧ isUnordered field.1 = false := by
      decide +kernel
    intro field member
    obtain ⟨noTable, ordered⟩ := bare field member
    refine ⟨noTable, fun unordered => ?_⟩
    rw [ordered] at unordered
    cases unordered
  have transparent := ((transparency acyclic clear).1 tidy).2
  exact ⟨transparent, transparent.rewritten _ rewrites_order⟩

/-- The schema that `add_parameters` derives for a parameter of a named type. -/
def namedParameter : Json := .object
  [(lit "$ref", .string (lit "#/$defs/Id")), (lit "$defs", .object [(lit "Id", textSchema)])]

/-- A parameter of a named type is not what that type is inline. -/
theorem named_parameter_differs :
    Acyclic .default (lit "orders") namedParameter ∧
      Rewrites .default (lit "orders") namedParameter textSchema namedParameter textSchema ∧
      canonicalSchema .default namedParameter (lit "orders") =
        .ok (.object [(lit "type", .string (lit "string")),
          (lit "$defs", .object [(lit "Id", textSchema)])]) ∧
      canonicalSchema .default textSchema (lit "orders") = .ok textSchema ∧
      ¬ Transparent .default (lit "orders") namedParameter := by
  obtain ⟨walks, explored⟩ : ∃ walks, explore .default (lit "orders") 8
      ⟨namedParameter, namedParameter⟩ = some walks :=
    Option.isSome_iff_exists.mp (by decide +kernel)
  have checked : ∀ walk ∈ (explore .default (lit "orders") 8
      ⟨namedParameter, namedParameter⟩).getD [], WalkFine .default (lit "orders") walk := by
    decide +kernel
  rw [explored, Option.getD_some] at checked
  have found : resolveSchemaReference .default (lit "#/$defs/Id") namedParameter (lit "orders") =
      .ok ⟨textSchema, namedParameter, lit "local:#/$defs/Id"⟩ := by decide +kernel
  have rewrites : Rewrites .default (lit "orders") namedParameter textSchema namedParameter
      textSchema :=
    .target (by decide) (by decide +kernel) found (rewrites_textSchema _ _)
  have formed : canonicalSchema .default namedParameter (lit "orders") =
      .ok (.object [(lit "type", .string (lit "string")),
        (lit "$defs", .object [(lit "Id", textSchema)])]) := by decide +kernel
  have inline : canonicalSchema .default textSchema (lit "orders") = .ok textSchema := by
    decide +kernel
  refine ⟨(acyclic_of_explore explored checked).1, rewrites, formed, inline, fun transparent => ?_⟩
  have same := transparent.rewritten _ rewrites
  rw [formed, inline] at same
  cases same

end OpenApi
