import LensoWeb.OpenApi.Recursion

/-!
# Cyclic references

A walk follows the recursion of canonicalisation without its set of references. The
recursion reports a cycle when a walk meets a key twice. A key names a target
together with its root only where all roots agree on it: the text of a local
reference means different targets under different roots. The report is therefore
exact where no walk meets one local name under two roots.
-/

namespace OpenApi

open Foundation

/-- A schema and the root it is read against. -/
structure Site where
  root : Json
  schema : Json
deriving DecidableEq

namespace Resolved

/-- Where a reference leads to. -/
def site (resolved : Resolved) : Site := ⟨resolved.root, resolved.target⟩

end Resolved

section Walks

variable (config : OpenApiConfig) (routeId : Str)

/-- A walk from a site to a site, with the references that it follows. -/
inductive Walk : Site → List Resolved → Site → Prop where
  | here (site : Site) : Walk site [] site
  | inner {root schema part : Json} {path : List Resolved} {final : Site}
      (inner : Inner schema part) (rest : Walk ⟨root, part⟩ path final) :
      Walk ⟨root, schema⟩ path final
  | follow {root : Json} {fields : List (Str × Json)} {reference : Str} {resolved : Resolved}
      {path : List Resolved} {final : Site} (refers : referenceOf fields = some reference)
      (found : resolveSchemaReference config reference root routeId = .ok resolved)
      (rest : Walk resolved.site path final) :
      Walk ⟨root, .object fields⟩ (resolved :: path) final

/-- Every reference that a walk meets exists and leads to an object. -/
def Complete (start : Site) : Prop :=
  ∀ path root fields reference, Walk config routeId start path ⟨root, .object fields⟩ →
    referenceOf fields = some reference →
    ∃ resolved target, resolveSchemaReference config reference root routeId = .ok resolved ∧
      resolved.target = .object target

/-- Some walk comes to one target twice, under the same root. -/
def Revisits (start : Site) : Prop :=
  ∃ path final, Walk config routeId start path final ∧ ¬ (path.map Resolved.site).Nodup

/-- Some walk meets one key under two roots. -/
def Clashes (start : Site) : Prop :=
  ∃ path final, Walk config routeId start path final ∧
    ∃ first ∈ path, ∃ second ∈ path, first.key = second.key ∧ first.root ≠ second.root

/-- One step of the unfolding of a schema. -/
inductive Unfolds : Site → Site → Prop where
  | inner {root schema part : Json} (inner : Inner schema part) :
      Unfolds ⟨root, schema⟩ ⟨root, part⟩
  | follow {root : Json} {fields : List (Str × Json)} {reference : Str} {resolved : Resolved}
      (refers : referenceOf fields = some reference)
      (found : resolveSchemaReference config reference root routeId = .ok resolved) :
      Unfolds ⟨root, .object fields⟩ resolved.site

/-- The unfolding has an infinite branch. -/
def Infinite (start : Site) : Prop := ¬ Acc (fun next site => Unfolds config routeId site next) start

end Walks

variable {config : OpenApiConfig} {routeId : Str}

/-! ### Walks -/

namespace Walk

theorem trans {start middle final : Site} {path later : List Resolved}
    (first : Walk config routeId start path middle)
    (second : Walk config routeId middle later final) :
    Walk config routeId start (path ++ later) final := by
  induction first with
  | here site => exact second
  | inner inner _ ih => exact .inner inner (ih second)
  | follow refers found _ ih => exact .follow refers found (ih second)

/-- A walk that follows a reference comes to its target. -/
theorem split {start final : Site} {before after : List Resolved} {resolved : Resolved}
    (walk : Walk config routeId start (before ++ resolved :: after) final) :
    Walk config routeId start (before ++ [resolved]) resolved.site ∧
      Walk config routeId resolved.site after final := by
  generalize whole : before ++ resolved :: after = path at walk
  induction walk generalizing before with
  | here site => exact absurd whole (by simp)
  | inner inner _ ih =>
      obtain ⟨first, second⟩ := ih whole
      exact ⟨.inner inner first, second⟩
  | follow refers found rest ih =>
      cases before with
      | nil =>
          cases whole
          exact ⟨.follow refers found (.here _), rest⟩
      | cons head before =>
          cases whole
          obtain ⟨first, second⟩ := ih rfl
          exact ⟨.follow refers found first, second⟩

/-- What a walk follows was resolved under some root. -/
theorem resolved_of_mem {start final : Site} {path : List Resolved}
    (walk : Walk config routeId start path final) {resolved : Resolved} (member : resolved ∈ path) :
    ∃ root reference, resolveSchemaReference config reference root routeId = .ok resolved := by
  induction walk with
  | here site => cases member
  | inner _ _ ih => exact ih member
  | follow refers found _ ih =>
      obtain rfl | inside := List.mem_cons.mp member
      · exact ⟨_, _, found⟩
      · exact ih inside

end Walk

/-- Under one root a key has one target. -/
theorem resolved_eq_of_key {root root' : Json} {reference reference' : Str}
    {first second : Resolved}
    (found : resolveSchemaReference config reference root routeId = .ok first)
    (found' : resolveSchemaReference config reference' root' routeId = .ok second)
    (keys : first.key = second.key) (roots : first.root = second.root) : first = second := by
  obtain ⟨target, atRoot, key⟩ := first
  obtain ⟨target', atRoot', key'⟩ := second
  obtain rfl : key = key' := keys
  obtain rfl : atRoot = atRoot' := roots
  have apart : ∀ left right : Str, lit "local:" ++ left ≠ lit "component:" ++ right := by
    intro left right same
    have head : some 'l' = some 'c' := congrArg List.head? same
    exact absurd head (by decide)
  obtain ⟨name, rfl, defined, rfl, atKey⟩ | ⟨name, rfl, -, -, defined, -, atKey⟩ :=
    resolveSchemaReference_ok.mp found
  · obtain ⟨name', rfl, defined', rfl, atKey'⟩ | ⟨name', rfl, -, -, defined', -, atKey'⟩ :=
      resolveSchemaReference_ok.mp found'
    · have names : name = name' :=
        List.append_cancel_left (List.append_cancel_left (atKey.symm.trans atKey'))
      subst names
      cases defined.symm.trans defined'
      rfl
    · exact absurd (atKey.symm.trans atKey') (apart _ _)
  · obtain ⟨name', rfl, defined', -, atKey'⟩ | ⟨name', rfl, -, -, defined', -, atKey'⟩ :=
      resolveSchemaReference_ok.mp found'
    · exact absurd (atKey'.symm.trans atKey) (apart _ _)
    · have names : name = name' :=
        List.append_cancel_left (List.append_cancel_left (atKey.symm.trans atKey'))
      subst names
      cases defined.symm.trans defined'
      rfl

/-! ### A key that comes twice -/

/-- Some walk meets a key twice. -/
def RepeatsKey (config : OpenApiConfig) (routeId : Str) (start : Site) : Prop :=
  ∃ path final, Walk config routeId start path final ∧ ¬ (path.map Resolved.key).Nodup

private theorem exists_repeated {α β : Type} {f : α → β} {path : List α}
    (repeated : ¬ (path.map f).Nodup) :
    ∃ before first between second after,
      path = before ++ first :: (between ++ second :: after) ∧ f first = f second := by
  induction path with
  | nil => exact absurd List.nodup_nil repeated
  | cons head rest ih =>
      rw [List.map_cons, List.nodup_cons, not_and_or, not_not] at repeated
      obtain again | later := repeated
      · obtain ⟨second, member, same⟩ := List.mem_map.mp again
        obtain ⟨between, after, rfl⟩ := List.append_of_mem member
        exact ⟨[], head, between, second, after, rfl, same.symm⟩
      · obtain ⟨before, first, between, second, after, rfl, same⟩ := ih later
        exact ⟨head :: before, first, between, second, after, rfl, same⟩

/-- A key comes twice where a target is revisited, or where roots disagree on it. -/
theorem repeatsKey_iff {start : Site} :
    RepeatsKey config routeId start ↔
      Revisits config routeId start ∨ Clashes config routeId start := by
  constructor
  · rintro ⟨path, final, walk, repeated⟩
    obtain ⟨before, first, between, second, after, rfl, keys⟩ := exists_repeated repeated
    have firstMember : first ∈ before ++ first :: (between ++ second :: after) := by simp
    have secondMember : second ∈ before ++ first :: (between ++ second :: after) := by simp
    by_cases roots : first.root = second.root
    · obtain ⟨_, _, found⟩ := walk.resolved_of_mem firstMember
      obtain ⟨_, _, found'⟩ := walk.resolved_of_mem secondMember
      obtain rfl := resolved_eq_of_key found found' keys roots
      refine .inl ⟨_, final, walk, ?_⟩
      intro distinct
      rw [List.map_append, List.nodup_append', List.map_cons, List.nodup_cons] at distinct
      exact distinct.2.1.1 (by simp)
    · exact .inr ⟨_, final, walk, first, firstMember, second, secondMember, keys, roots⟩
  · rintro (⟨path, final, walk, repeated⟩ | ⟨path, final, walk, first, firstMember, second,
      secondMember, keys, roots⟩)
    · -- The way from the first visit to the second can be walked once more.
      obtain ⟨before, first, between, second, after, rfl, sites⟩ := exists_repeated repeated
      obtain ⟨toFirst, rest⟩ := walk.split
      obtain ⟨toSecond, -⟩ := rest.split
      have again := toSecond
      rw [sites] at again
      refine ⟨_, _, toFirst.trans (toSecond.trans again), ?_⟩
      intro distinct
      rw [List.map_append, List.nodup_append'] at distinct
      have loop := distinct.2.1
      rw [List.map_append, List.nodup_append'] at loop
      exact @loop.2.2 second.key (by simp) (by simp)
    · refine ⟨path, final, walk, ?_⟩
      intro distinct
      exact roots (congrArg Resolved.root
        (List.inj_on_of_nodup_map distinct firstMember secondMember keys))

/-! ### Successful recursion -/

/-- The calls of a successful call succeed. -/
theorem fullForm_inner [FieldOrder] {root schema part form : Json} {references : Finset Str}
    (formed : fullForm config routeId root references schema = .ok form)
    (inner : Inner schema part) :
    ∃ form, fullForm config routeId root references part = .ok form := by
  have kept : ∀ {drops : Str → Bool} {finish : Str → Json → Json}
      {fields entries : List (Str × Json)} {field : Str × Json},
      List.Forall₂ (BecomesEntry finish (fullForm config routeId root references))
        (fields.filter (!drops ·.1)) entries →
      field ∈ fields → drops field.1 = false →
      ∃ form, fullForm config routeId root references field.2 = .ok form := by
    intro drops finish fields entries field all member kept
    have listed : field ∈ fields.filter (!drops ·.1) := List.mem_filter.mpr ⟨member, by simp [kept]⟩
    obtain ⟨entry, -, value, made, -⟩ := Result.exists_of_forall₂_left all listed
    exact ⟨value, made⟩
  cases inner with
  | item member =>
      obtain ⟨forms, all, rfl⟩ := canonicalForm_array_ok.mp formed
      obtain ⟨value, -, made⟩ := Result.exists_of_forall₂_left all member
      exact ⟨value, made⟩
  | field plain member isKept =>
      obtain ⟨entries, all, rfl⟩ := (canonicalForm_plain_ok plain).mp formed
      exact kept all member isKept
  | sibling refers member isKept =>
      obtain ⟨resolved, target, entries, -, -, -, all, rfl⟩ :=
        (canonicalForm_reference_ok refers).mp formed
      exact kept all member isKept

theorem fullForm_follow [FieldOrder] {root form : Json} {fields : List (Str × Json)}
    {references : Finset Str} {reference : Str} {resolved : Resolved}
    (formed : fullForm config routeId root references (.object fields) = .ok form)
    (refers : referenceOf fields = some reference)
    (found : resolveSchemaReference config reference root routeId = .ok resolved) :
    resolved.key ∉ references ∧ ∃ form, fullForm config routeId resolved.root
      (insert resolved.key references) resolved.target = .ok form := by
  obtain ⟨resolved', target, entries, found', fresh, followed, -, rfl⟩ :=
    (canonicalForm_reference_ok refers).mp formed
  cases found.symm.trans found'
  rw [followAt_eq_fullForm found] at followed
  exact ⟨fresh, _, followed⟩

/-- On a walk through a successful recursion no key comes twice. -/
theorem Walk.nodup_of_ok [FieldOrder] {start final : Site} {path : List Resolved}
    (walk : Walk config routeId start path final) {references : Finset Str} {form : Json}
    (formed : fullForm config routeId start.root references start.schema = .ok form) :
    (path.map Resolved.key).Nodup ∧ ∀ resolved ∈ path, resolved.key ∉ references := by
  induction walk generalizing references form with
  | here site => exact ⟨List.nodup_nil, by simp⟩
  | inner inner _ ih =>
      obtain ⟨form, made⟩ := fullForm_inner formed inner
      exact ih made
  | follow refers found _ ih =>
      obtain ⟨fresh, form, followed⟩ := fullForm_follow formed refers found
      obtain ⟨distinct, apart⟩ := ih followed
      refine ⟨List.nodup_cons.mpr ⟨?_, distinct⟩, List.forall_mem_cons.mpr ⟨fresh, ?_⟩⟩
      · intro again
        obtain ⟨other, member, same⟩ := List.mem_map.mp again
        exact apart other member (same ▸ Finset.mem_insert_self _ _)
      · exact fun other member before => apart other member (Finset.mem_insert_of_mem before)

/-! ### Failed recursion -/

/-- The message about a cycle. -/
def cyclicMessage (routeId reference : Str) : Str :=
  lit "route " ++ routeId ++ lit " has a cyclic OpenAPI schema reference " ++ reference

theorem Complete.of_walk {start middle : Site} {path : List Resolved}
    (complete : Complete config routeId start) (walk : Walk config routeId start path middle) :
    Complete config routeId middle :=
  fun later root fields reference rest refers =>
    complete (path ++ later) root fields reference (walk.trans rest) refers

theorem fullForm_object [FieldOrder] {root form : Json} {references : Finset Str}
    {fields : List (Str × Json)}
    (formed : fullForm config routeId root references (.object fields) = .ok form) :
    ∃ entries, form = .object entries := by
  cases refers : referenceOf fields with
  | none =>
      obtain ⟨entries, -, rfl⟩ := (canonicalForm_plain_ok refers).mp formed
      exact ⟨_, rfl⟩
  | some reference =>
      obtain ⟨resolved, target, entries, -, -, -, -, rfl⟩ :=
        (canonicalForm_reference_ok refers).mp formed
      exact ⟨_, rfl⟩

/-- How following a reference fails. -/
theorem expandReference_error {follow : Resolved → Finset Str → Except SchemaError Json}
    {root : Json} {references : Finset Str} {reference : Str} {resolved : Resolved}
    {failure : SchemaError}
    (found : resolveSchemaReference config reference root routeId = .ok resolved)
    (failed : expandReference config routeId follow root references reference = .error failure) :
    resolved.key ∈ references ∧ failure = .invalid (cyclicMessage routeId reference) ∨
      resolved.key ∉ references ∧
        (follow resolved (insert resolved.key references) = .error failure ∨
          ∃ value, follow resolved (insert resolved.key references) = .ok value ∧
            ∀ fields, value ≠ .object fields) := by
  rw [expandReference, found] at failed
  simp only [bind, Except.bind] at failed
  split at failed
  · next cyclic =>
    cases failed
    exact .inl ⟨cyclic, rfl⟩
  · next fresh =>
    refine .inr ⟨fresh, ?_⟩
    cases followed : follow resolved (insert resolved.key references) with
    | error other =>
        rw [followed] at failed
        cases failed
        exact .inl rfl
    | ok value =>
        refine .inr ⟨value, rfl, ?_⟩
        rintro fields rfl
        rw [followed] at failed
        cases failed

theorem mergeField_error [FieldOrder] {drops : Str → Bool} {finish : Str → Json → Json}
    {form : Json → Except SchemaError Json} {fields normalized : List (Str × Json)}
    {failure : SchemaError}
    (failed : fields.foldlM (mergeField drops finish form) normalized = .error failure) :
    ∃ field ∈ fields, drops field.1 = false ∧ form field.2 = .error failure := by
  obtain ⟨field, member, state, reason⟩ := Result.foldlM_eq_error failed
  rw [mergeField] at reason
  split at reason
  · cases reason
  · next kept =>
    exact ⟨field, member, Bool.eq_false_iff.mpr kept, Result.map_eq_error reason⟩

/-- Where all references lead to objects, the recursion fails only at a key that comes
twice on a walk, or was there before. By induction on the recursive calls. -/
theorem exists_walk_of_error [FieldOrder] {root schema : Json} {references : Finset Str}
    {failure : SchemaError} (complete : Complete config routeId ⟨root, schema⟩)
    (failed : fullForm config routeId root references schema = .error failure) :
    (∃ reference, failure = .invalid (cyclicMessage routeId reference)) ∧
      ∃ path final, Walk config routeId ⟨root, schema⟩ path final ∧
        ¬ ((path.map Resolved.key).Nodup ∧ ∀ resolved ∈ path, resolved.key ∉ references) := by
  generalize called : Call.mk root schema references = call
  induction call using (@calls_wellFounded config routeId).induction
    generalizing root schema references with
  | _ call ih =>
  subst called
  -- An error in a part is an error of a recursive call.
  have ofInner : ∀ part, Inner schema part →
      fullForm config routeId root references part = .error failure →
      (∃ reference, failure = .invalid (cyclicMessage routeId reference)) ∧
        ∃ path final, Walk config routeId ⟨root, schema⟩ path final ∧
          ¬ ((path.map Resolved.key).Nodup ∧ ∀ resolved ∈ path, resolved.key ∉ references) := by
    intro part inner failed
    obtain ⟨cyclic, path, final, walk, repeated⟩ := ih ⟨root, part, references⟩ (.inner inner)
      (complete.of_walk (.inner inner (.here _))) failed rfl
    exact ⟨cyclic, path, final, .inner inner walk, repeated⟩
  rw [fullForm_eq] at failed
  cases schema with
  | object fields =>
      rw [canonicalStep] at failed
      cases refers : referenceOf fields with
      | none =>
          simp only [refers] at failed
          obtain ⟨field, member, kept, reason⟩ := mergeField_error (Result.map_eq_error failed)
          exact ofInner _ (.field refers member kept) reason
      | some reference =>
          simp only [refers] at failed
          obtain ⟨resolved, target, found, isObject⟩ :=
            complete [] root fields reference (.here _) refers
          obtain failed | ⟨expanded, -, failed⟩ := Result.bind_eq_error failed
          · obtain ⟨cyclic, rfl⟩ | ⟨fresh, failed | ⟨value, formed, notObject⟩⟩ :=
              expandReference_error found failed
            · refine ⟨⟨reference, rfl⟩, [resolved], _, .follow refers found (.here _), ?_⟩
              intro fine
              exact fine.2 resolved List.mem_cons_self cyclic
            · obtain ⟨cyclic, path, final, walk, repeated⟩ := ih _ (.follow refers found fresh)
                (complete.of_walk (.follow refers found (.here _))) failed rfl
              refine ⟨cyclic, resolved :: path, final, .follow refers found walk, ?_⟩
              rintro ⟨distinct, apart⟩
              rw [List.map_cons, List.nodup_cons] at distinct
              rw [List.forall_mem_cons] at apart
              refine repeated ⟨distinct.2, fun other member before => ?_⟩
              obtain same | earlier := Finset.mem_insert.mp before
              · exact distinct.1 (List.mem_map.mpr ⟨other, member, same⟩)
              · exact apart.2 other member earlier
            · rw [isObject] at formed
              obtain ⟨entries, rfl⟩ := fullForm_object formed
              exact absurd rfl (notObject entries)
          · obtain ⟨field, member, kept, reason⟩ := mergeField_error (Result.map_eq_error failed)
            exact ofInner _ (.sibling refers member kept) reason
  | array items =>
      rw [canonicalStep] at failed
      obtain ⟨item, member, reason⟩ := Result.mapM_eq_error (Result.map_eq_error failed)
      exact ofInner item (.item member) reason
  | null => cases failed
  | bool value => cases failed
  | number value => cases failed
  | string text => cases failed

/-- Canonicalisation reports a cycle exactly when a walk meets a key twice. -/
theorem cyclic_iff_repeatsKey [FieldOrder] {schema : Json}
    (complete : Complete config routeId ⟨schema, schema⟩) :
    (∃ reference, canonicalSchema config schema routeId =
        .error (cyclicMessage routeId reference)) ↔
      RepeatsKey config routeId ⟨schema, schema⟩ := by
  have unfolded : ∀ outcome, canonicalSchema config schema routeId = outcome →
      fullForm config routeId schema ∅ schema = outcome.mapError SchemaError.invalid := by
    rintro _ rfl
    exact fullForm_eq_canonicalSchema schema
  constructor
  · rintro ⟨reference, reported⟩
    obtain ⟨-, path, final, walk, repeated⟩ := exists_walk_of_error complete (unfolded _ reported)
    exact ⟨path, final, walk, fun distinct => repeated ⟨distinct, by simp⟩⟩
  · rintro ⟨path, final, walk, repeated⟩
    cases outcome : canonicalSchema config schema routeId with
    | ok form => exact absurd (walk.nodup_of_ok (unfolded _ outcome)).1 repeated
    | error message =>
        obtain ⟨⟨reference, same⟩, -⟩ := exists_walk_of_error complete (unfolded _ outcome)
        cases same
        exact ⟨reference, rfl⟩

/-! ### Infinite unfoldings -/

theorem Walk.unfolds {start final : Site} {path : List Resolved}
    (walk : Walk config routeId start path final) :
    Relation.ReflTransGen (Unfolds config routeId) start final := by
  induction walk with
  | here site => exact .refl
  | inner inner _ ih => exact .head (.inner inner) ih
  | follow refers found _ ih => exact .head (.follow refers found) ih

theorem Walk.unfolds_of_ne_nil {start final : Site} {path : List Resolved}
    (walk : Walk config routeId start path final) (nonempty : path ≠ []) :
    Relation.TransGen (Unfolds config routeId) start final := by
  induction walk with
  | here site => exact absurd rfl nonempty
  | inner inner _ ih => exact .head (.inner inner) (ih nonempty)
  | follow refers found rest _ => exact .head' (.follow refers found) rest.unfolds

private theorem not_loop_of_acc {α : Type} {step : α → α → Prop} {start : α}
    (finite : Acc (fun next site => step site next) start) : ¬ Relation.TransGen step start start := by
  induction finite with
  | intro site _ ih =>
      intro loop
      obtain ⟨next, first, rest⟩ := Relation.TransGen.head'_iff.mp loop
      exact ih next first (.tail' rest first)

private theorem acc_of_unfolds {start final : Site}
    (finite : Acc (fun next site => Unfolds config routeId site next) start)
    (reached : Relation.ReflTransGen (Unfolds config routeId) start final) :
    Acc (fun next site => Unfolds config routeId site next) final := by
  induction reached with
  | refl => exact finite
  | tail _ step ih => exact ih.inv step

/-- The sites that the definitions of a root lead to. -/
def definitionSites (root : Json) : List Site :=
  (((root.get (lit "$defs")).bind Json.asObject).getD []).map fun entry => ⟨root, entry.2⟩

/-- The sites that references lead to, from a root on. -/
def availableSites (config : OpenApiConfig) (root : Json) : List Site :=
  definitionSites root ++ (componentSchemas config).flatMap fun entry =>
    ⟨entry.2, entry.2⟩ :: definitionSites entry.2

/-- Following a reference stays within the sites of the root. -/
theorem availableSites_resolved {reference : Str} {root : Json} {resolved : Resolved}
    (found : resolveSchemaReference config reference root routeId = .ok resolved) :
    resolved.site ∈ availableSites config root ∧
      availableSites config resolved.root ⊆ availableSites config root := by
  obtain ⟨name, -, defined, atRoot, -⟩ | ⟨name, -, -, -, defined, atRoot, -⟩ :=
    resolveSchemaReference_ok.mp found
  · rw [definition, Option.bind_eq_some_iff] at defined
    obtain ⟨table, there, entry⟩ := defined
    rw [Resolved.site, atRoot]
    refine ⟨List.mem_append_left _ ?_, List.Subset.refl _⟩
    rw [definitionSites, there]
    exact List.mem_map.mpr ⟨_, Assoc.mem_of_find entry, rfl⟩
  · rw [OpenApiConfig.component, Option.bind_eq_some_iff] at defined
    obtain ⟨table, there, entry⟩ := defined
    have listed : (name, resolved.target) ∈ componentSchemas config := by
      rw [componentSchemas, there]
      exact Assoc.mem_of_find entry
    have shared : ∀ site ∈ Site.mk resolved.target resolved.target ::
        definitionSites resolved.target, site ∈ availableSites config root :=
      fun site member => List.mem_append_right _ (List.mem_flatMap.mpr ⟨_, listed, member⟩)
    rw [Resolved.site, atRoot]
    refine ⟨shared _ List.mem_cons_self, List.append_subset.mpr ⟨?_, ?_⟩⟩
    · exact fun site member => shared site (List.mem_cons_of_mem _ member)
    · exact fun site member => List.mem_append_right _ member

theorem Walk.sites_subset {start final : Site} {path : List Resolved}
    (walk : Walk config routeId start path final) :
    path.map Resolved.site ⊆ availableSites config start.root := by
  induction walk with
  | here site => exact List.nil_subset _
  | inner _ _ ih => exact ih
  | follow refers found _ ih =>
      obtain ⟨here, subset⟩ := availableSites_resolved found
      exact List.cons_subset.mpr ⟨here, fun site member => subset (ih member)⟩

/-- Without a revisit every branch ends: each reference takes one of the sites that are
left. -/
private theorem acc_of_not_revisits {start : Site} (fine : ¬ Revisits config routeId start)
    {site : Site} {path : List Resolved} (walk : Walk config routeId start path site) :
    Acc (fun next site => Unfolds config routeId site next) site := by
  generalize size : ((availableSites config start.root).toFinset \
    (path.map Resolved.site).toFinset).card = left
  induction left using Nat.strong_induction_on generalizing path site with
  | _ left ihLeft =>
  obtain ⟨root, schema⟩ := site
  generalize weighs : sizeOf schema = weight
  induction weight using Nat.strong_induction_on generalizing schema with
  | _ weight ihSize =>
  constructor
  rintro next (inner | ⟨refers, found⟩)
  · exact ihSize _ (weighs ▸ inner.sizeOf_lt) _ (by simpa using walk.trans (.inner inner (.here _)))
      rfl
  · next resolved =>
    have longer := walk.trans (.follow refers found (.here _))
    have distinct : ((path ++ [resolved]).map Resolved.site).Nodup := by
      by_contra again
      exact fine ⟨_, _, longer, again⟩
    have known := longer.sites_subset
    refine ihLeft _ ?_ longer rfl
    rw [← size]
    refine Finset.card_lt_card (Finset.ssubset_iff_subset_ne.mpr ⟨?_, ?_⟩)
    · intro site member
      simp only [List.map_append, List.toFinset_append, Finset.mem_sdiff, Finset.mem_union,
        not_or] at member ⊢
      exact ⟨member.1, member.2.1⟩
    · intro same
      have before : resolved.site ∈ (availableSites config start.root).toFinset \
          (path.map Resolved.site).toFinset := by
        rw [List.map_append, List.nodup_append'] at distinct
        rw [Finset.mem_sdiff, List.mem_toFinset, List.mem_toFinset]
        exact ⟨known (by simp), fun member => distinct.2.2 member (by simp)⟩
      rw [← same] at before
      simp at before

theorem revisits_iff_infinite {start : Site} :
    Revisits config routeId start ↔ Infinite config routeId start := by
  constructor
  · rintro ⟨path, final, walk, repeated⟩ finite
    obtain ⟨before, first, between, second, after, rfl, sites⟩ := exists_repeated repeated
    obtain ⟨toFirst, rest⟩ := walk.split
    obtain ⟨toSecond, -⟩ := rest.split
    have loop := toSecond.unfolds_of_ne_nil (by simp)
    rw [← sites] at loop
    exact not_loop_of_acc (acc_of_unfolds finite toFirst.unfolds) loop
  · intro infinite
    by_contra fine
    exact infinite (acc_of_not_revisits fine (.here start))

/-! ### Exactness -/

/-- Where all references lead to objects, the report of a cycle is exact if the unfolding
is infinite, or no walk meets one local name under two roots, and not otherwise. -/
theorem cyclic_exact_iff [FieldOrder] {config : OpenApiConfig} {routeId : Str} {schema : Json}
    (complete : Complete config routeId ⟨schema, schema⟩) :
    (Revisits config routeId ⟨schema, schema⟩ ↔ Infinite config routeId ⟨schema, schema⟩) ∧
    (((∃ reference, canonicalSchema config schema routeId =
          .error (cyclicMessage routeId reference)) ↔ Revisits config routeId ⟨schema, schema⟩) ↔
      Revisits config routeId ⟨schema, schema⟩ ∨ ¬ Clashes config routeId ⟨schema, schema⟩) := by
  refine ⟨revisits_iff_infinite, ?_⟩
  rw [cyclic_iff_repeatsKey complete, repeatsKey_iff]
  tauto

/-! ### Finding all walks -/

/-- The parts that the recursion goes into. -/
def parts : Json → List Json
  | .array items => items
  | .object fields =>
      if (referenceOf fields).isNone then (fields.filter (!dropsField ·.1)).map Prod.snd
      else (fields.filter (!dropsSibling ·.1)).map Prod.snd
  | _ => []

theorem Inner.mem_parts {schema part : Json} (inner : Inner schema part) : part ∈ parts schema := by
  cases inner with
  | item member => exact member
  | field plain member kept =>
      rw [parts, plain]
      exact List.mem_map.mpr ⟨_, List.mem_filter.mpr ⟨member, by simp [kept]⟩, rfl⟩
  | sibling refers member kept =>
      rw [parts, refers]
      exact List.mem_map.mpr ⟨_, List.mem_filter.mpr ⟨member, by simp [kept]⟩, rfl⟩

section Explore

variable (config : OpenApiConfig) (routeId : Str)

/-- What a site refers to. -/
def referred (site : Site) : Option Resolved :=
  (site.schema.asObject.bind referenceOf).bind fun reference =>
    (resolveSchemaReference config reference site.root routeId).toOption

/-- All walks from a site, if they are no longer than the fuel. -/
def explore : Nat → Site → Option (List (List Resolved × Site))
  | 0, _ => none
  | fuel + 1, site =>
      ((parts site.schema).mapM fun part => explore fuel ⟨site.root, part⟩).bind fun inner =>
        ((referred config routeId site).elim (some []) fun resolved =>
          (explore fuel resolved.site).map (List.map fun walk => (resolved :: walk.1, walk.2))).map
            fun followed => ([], site) :: (inner.flatten ++ followed)

end Explore

private theorem mem_flatten_of_mapM {α β : Type} {body : α → Option (List β)} {inputs : List α}
    {outputs : List (List β)} (looped : inputs.mapM body = some outputs) {input : α}
    (member : input ∈ inputs) : ∃ output ∈ outputs, body input = some output := by
  induction inputs generalizing outputs with
  | nil => cases member
  | cons head rest ih =>
      rw [List.mapM_cons] at looped
      obtain ⟨first, made, looped⟩ := Option.bind_eq_some_iff.mp looped
      obtain ⟨others, later, same⟩ := Option.bind_eq_some_iff.mp looped
      cases same
      obtain rfl | inside := List.mem_cons.mp member
      · exact ⟨first, List.mem_cons_self, made⟩
      · obtain ⟨output, found, returned⟩ := ih later inside
        exact ⟨output, List.mem_cons_of_mem _ found, returned⟩

/-- Exploration that ends finds every walk. -/
theorem Walk.mem_explore {start final : Site} {path : List Resolved}
    (walk : Walk config routeId start path final) {fuel : Nat}
    {walks : List (List Resolved × Site)}
    (explored : explore config routeId fuel start = some walks) : (path, final) ∈ walks := by
  induction walk generalizing fuel walks with
  | here site =>
      cases fuel with
      | zero => cases explored
      | succ fuel =>
          obtain ⟨inner, -, explored⟩ := Option.bind_eq_some_iff.mp explored
          obtain ⟨followed, -, rfl⟩ := Option.map_eq_some_iff.mp explored
          exact List.mem_cons_self
  | inner inner _ ih =>
      cases fuel with
      | zero => cases explored
      | succ fuel =>
          obtain ⟨found, looped, explored⟩ := Option.bind_eq_some_iff.mp explored
          obtain ⟨followed, -, rfl⟩ := Option.map_eq_some_iff.mp explored
          obtain ⟨output, member, made⟩ := mem_flatten_of_mapM looped inner.mem_parts
          refine List.mem_cons_of_mem _ (List.mem_append_left _ ?_)
          exact List.mem_flatten.mpr ⟨output, member, ih made⟩
  | @follow root fields reference resolved path final refers found _ ih =>
      cases fuel with
      | zero => cases explored
      | succ fuel =>
          obtain ⟨inner, -, explored⟩ := Option.bind_eq_some_iff.mp explored
          obtain ⟨followed, continued, rfl⟩ := Option.map_eq_some_iff.mp explored
          have leads : referred config routeId ⟨root, .object fields⟩ = some resolved := by
            simp [referred, Json.asObject, refers, found, Except.toOption]
          rw [leads, Option.elim_some] at continued
          obtain ⟨walks, made, rfl⟩ := Option.map_eq_some_iff.mp continued
          refine List.mem_cons_of_mem _ (List.mem_append_right _ ?_)
          exact List.mem_map.mpr ⟨_, ih made, rfl⟩

section Checks

variable {start : Site} {fuel : Nat} {walks : List (List Resolved × Site)}

/-- All references lead to objects if they do at the end of every walk. -/
theorem complete_of_explore (explored : explore config routeId fuel start = some walks)
    (checked : ∀ walk ∈ walks, (walk.2.schema.asObject.bind referenceOf).isSome = true →
      ((referred config routeId walk.2).bind fun resolved =>
        resolved.target.asObject).isSome = true) : Complete config routeId start := by
  intro path root fields reference walk refers
  have here := checked _ (walk.mem_explore explored) (by simp [Json.asObject, refers])
  obtain ⟨target, leads⟩ := Option.isSome_iff_exists.mp here
  obtain ⟨resolved, refersTo, isObject⟩ := Option.bind_eq_some_iff.mp leads
  refine ⟨resolved, target, ?_, Json.asObject_eq_some.mp isObject⟩
  simp only [referred, Json.asObject, Option.bind_some, refers] at refersTo
  cases found : resolveSchemaReference config reference root routeId with
  | ok other =>
      rw [found] at refersTo
      cases refersTo
      rfl
  | error failure =>
      rw [found] at refersTo
      cases refersTo

theorem not_revisits_of_explore (explored : explore config routeId fuel start = some walks)
    (checked : ∀ walk ∈ walks, (walk.1.map Resolved.site).Nodup) :
    ¬ Revisits config routeId start := by
  rintro ⟨path, final, walk, repeated⟩
  exact repeated (checked _ (walk.mem_explore explored))

end Checks

attribute [local instance] FieldOrder.byInsertion

/-- A schema whose references lead to themselves. -/
def loopSchema : Json := .object [(lit "$ref", .string (lit "#/components/schemas/Node"))]

/-- A component that refers to itself is reported, and rightly so. -/
theorem cyclic_exact_loop :
    Complete loopConfig (lit "nodes") ⟨loopSchema, loopSchema⟩ ∧
      ((∃ reference, canonicalSchema loopConfig loopSchema (lit "nodes") =
          .error (cyclicMessage (lit "nodes") reference)) ↔
        Revisits loopConfig (lit "nodes") ⟨loopSchema, loopSchema⟩) := by
  have resolves : resolveSchemaReference loopConfig (lit "#/components/schemas/Node") loopSchema
      (lit "nodes") = .ok ⟨loopSchema, loopSchema,
        lit "component:#/components/schemas/Node"⟩ := by decide +kernel
  have refers : referenceOf [(lit "$ref", Json.string (lit "#/components/schemas/Node"))] =
      some (lit "#/components/schemas/Node") := by decide +kernel
  -- Every walk stays at the one site.
  have stays : ∀ start path final, Walk loopConfig (lit "nodes") start path final →
      start = ⟨loopSchema, loopSchema⟩ → final = ⟨loopSchema, loopSchema⟩ := by
    intro start path final walk
    induction walk with
    | here site => exact id
    | inner inner _ _ =>
        intro same
        cases same
        have part := inner.mem_parts
        rw [show parts loopSchema = [] by decide +kernel] at part
        cases part
    | follow refers' found _ ih =>
        intro same
        cases same
        cases refers.symm.trans refers'
        cases resolves.symm.trans found
        exact ih rfl
  have complete : Complete loopConfig (lit "nodes") ⟨loopSchema, loopSchema⟩ := by
    intro path root fields reference walk refers'
    cases stays _ _ _ walk rfl
    cases refers.symm.trans refers'
    exact ⟨_, _, resolves, rfl⟩
  refine ⟨complete, (cyclic_exact_iff complete).2.mpr (.inl ?_)⟩
  have step : Walk loopConfig (lit "nodes") ⟨loopSchema, loopSchema⟩
      [⟨loopSchema, loopSchema, lit "component:#/components/schemas/Node"⟩]
      ⟨loopSchema, loopSchema⟩ := .follow refers resolves (.here _)
  exact ⟨_, _, step.trans step, by decide +kernel⟩

/-- A component with a local definition `Id`. -/
def localConfig : OpenApiConfig :=
  { OpenApiConfig.default with components := some [(lit "schemas", .object [(lit "Order", .object
    [(lit "$defs", .object [(lit "Id", .object [(lit "type", .string (lit "string"))])]),
      (lit "properties", .object [(lit "id", .object
        [(lit "$ref", .string (lit "#/$defs/Id"))])])])])] }

/-- A schema with a definition of the same name, which refers to the component. -/
def localSchema : Json := .object
  [(lit "$defs", .object [(lit "Id", .object
      [(lit "$ref", .string (lit "#/components/schemas/Order"))])]),
    (lit "properties", .object [(lit "order", .object
      [(lit "$ref", .string (lit "#/$defs/Id"))])])]

/-- Two roots that both define `Id` are reported as a cycle, although every reference
leads to an object and the unfolding is finite. -/
theorem clash_reported_as_cycle :
    canonicalSchema localConfig localSchema (lit "orders") =
        .error (cyclicMessage (lit "orders") (lit "#/$defs/Id")) ∧
      Complete localConfig (lit "orders") ⟨localSchema, localSchema⟩ ∧
      ¬ Revisits localConfig (lit "orders") ⟨localSchema, localSchema⟩ ∧
      ¬ Infinite localConfig (lit "orders") ⟨localSchema, localSchema⟩ := by
  obtain ⟨walks, explored⟩ : ∃ walks, explore localConfig (lit "orders") 12
      ⟨localSchema, localSchema⟩ = some walks :=
    Option.isSome_iff_exists.mp (by decide +kernel)
  have checked : ∀ walk ∈ (explore localConfig (lit "orders") 12
      ⟨localSchema, localSchema⟩).getD [],
      ((walk.2.schema.asObject.bind referenceOf).isSome = true →
        ((referred localConfig (lit "orders") walk.2).bind fun resolved =>
          resolved.target.asObject).isSome = true) ∧
      (walk.1.map Resolved.site).Nodup := by decide +kernel
  rw [explored, Option.getD_some] at checked
  have complete : Complete localConfig (lit "orders") ⟨localSchema, localSchema⟩ :=
    complete_of_explore explored fun walk member => (checked walk member).1
  have straight : ¬ Revisits localConfig (lit "orders") ⟨localSchema, localSchema⟩ :=
    not_revisits_of_explore explored fun walk member => (checked walk member).2
  exact ⟨by decide +kernel, complete, straight, fun infinite =>
    straight (revisits_iff_infinite.mpr infinite)⟩

end OpenApi
