import LensoWeb.Ingress.SessionCookie.Selection

/-!
# Folded header fields

A host may deliver several fields of one name as a single field, or reorder cookies.
The tokenizer sees the same pairs then, and since a name that occurs twice is refused
in any case, the order of the pairs does not matter. Repeated `Authorization` fields
are refused whether they arrive apart or folded.
-/

namespace Ingress

open Foundation Http

/-! ### Pairs of a folded field -/

theorem trim_space_cons (text : Bytes) : Text.trim (32 :: text) = Text.trim text := by
  rw [Text.trim, Text.trim, List.dropWhile_cons_of_pos (by decide)]

/-- A field that was joined from two holds the pairs of both. -/
theorem cookiePairs_append (first second : Bytes) :
    cookiePairs (first ++ ascii "; " ++ second) = cookiePairs first ++ cookiePairs second := by
  have joined : first ++ ascii "; " ++ second = first ++ 59 :: 32 :: second := by
    rw [List.append_assoc]
    rfl
  have later : ((32 :: second).splitOn 59).map Text.trim = (second.splitOn 59).map Text.trim := by
    rw [List.splitOn_cons_eq_if_modifyHead, if_neg (by decide)]
    rcases second.splitOn 59 with _ | ⟨piece, rest⟩
    · rfl
    · rw [List.modifyHead_cons, List.map_cons, List.map_cons, trim_space_cons]
  rw [joined, cookiePairs, Text.split, List.splitOn_append_cons_self, List.map_append, later,
    List.filter_append]
  rfl

/-- A field that was joined from several holds the pairs of all. -/
theorem cookiePairs_intercalate {texts : List Bytes} (several : texts ≠ []) :
    cookiePairs ((ascii "; ").intercalate texts) = texts.flatMap cookiePairs := by
  induction texts with
  | nil => exact absurd rfl several
  | cons text rest ih =>
      rcases rest with _ | ⟨next, rest⟩
      · simp
      · rw [List.intercalate_cons_cons, cookiePairs_append, ih (List.cons_ne_nil _ _)]
        rfl

/-! ### Visible fields -/

/-- Only the pairs of a field can hold what is not text. -/
theorem visible_iff_pairs (field : HeaderValue) :
    field.bytes.all isVisibleAscii = true ↔
      ∀ pair ∈ cookiePairs field.bytes, pair.all isVisibleAscii = true := by
  rw [field.visible_iff_pieces (by decide : isVisibleAscii 59 = true)]
  constructor
  · intro visible pair member
    obtain ⟨member, -⟩ := List.mem_filter.mp member
    obtain ⟨piece, split, rfl⟩ := List.mem_map.mp member
    exact visible piece split
  · intro visible piece split
    rcases trimmed : Text.trim piece with _ | ⟨byte, rest⟩
    · rfl
    · rw [← trimmed]
      refine visible _ (List.mem_filter.mpr ⟨List.mem_map_of_mem split, ?_⟩)
      rw [trimmed]
      rfl

/-! ### The order of the pairs -/

/-- The mentions of a name may be collected in any order. -/
theorem collect_none_perm {mentions others : List (Option Bytes)} (perm : mentions.Perm others) :
    collect none mentions = collect none others := by
  rcases mentions with _ | ⟨first, _ | ⟨second, rest⟩⟩
  · rw [List.nil_perm.mp perm]
  · rw [List.singleton_perm.mp perm]
  · have refused : ∀ list : List (Option Bytes), 2 ≤ list.length →
        collect none list = .error .badRequest := by
      intro list long
      obtain ⟨rfl, -⟩ | ⟨raw, value, rfl, -⟩ | ⟨-, -, refused⟩ := collect_none_cases list
      · cases long
      · exact absurd long (by simp)
      · exact refused
    have length := perm.length_eq
    rw [refused _ (by simp), refused others (by rw [← length]; simp)]

/-- Cookies are selected by their pairs, in any order. -/
theorem selectedCookies_perm {policy : SessionCookiePolicy}
    (distinct : policy.name ≠ policy.csrfCookieName) {headers folded : HeaderMap}
    (perm : (allPairs headers).Perm (allPairs folded)) :
    selectedCookies folded policy = selectedCookies headers policy := by
  have visible : CookiesVisible folded ↔ CookiesVisible headers := by
    have pairwise : ∀ map : HeaderMap, CookiesVisible map ↔
        ∀ pair ∈ allPairs map, pair.all isVisibleAscii = true := by
      intro map
      simp only [CookiesVisible, visible_iff_pairs, allPairs, List.mem_flatMap]
      constructor
      · rintro all pair ⟨field, member, inside⟩
        exact all field member pair inside
      · exact fun all field member pair inside => all pair ⟨field, member, inside⟩
    rw [pairwise, pairwise]
    exact forall_congr' fun pair => by rw [perm.mem_iff]
  have mentions : ∀ name, collect none (occurrences name (allPairs folded)) =
      collect none (occurrences name (allPairs headers)) :=
    fun name => (collect_none_perm (perm.filterMap (occurrence name))).symm
  rw [selectedCookies_eq distinct, selectedCookies_eq distinct, if_congr visible rfl rfl, mentions,
    mentions]

/-! ### Folding -/

/-- The fields hold the pairs that were laid out in other fields before: fields were
joined, a field was split, or the pairs were put in another order. -/
inductive Refolded : List HeaderValue → List HeaderValue → Prop
  | joined (front fields back : List HeaderValue) (whole : HeaderValue) (several : fields ≠ [])
      (bytes : whole.bytes = (ascii "; ").intercalate (fields.map HeaderValue.bytes)) :
      Refolded (front ++ fields ++ back) (front ++ [whole] ++ back)
  | split (front back : List HeaderValue) (whole first second : HeaderValue)
      (bytes : whole.bytes = first.bytes ++ ascii "; " ++ second.bytes) :
      Refolded (front ++ [whole] ++ back) (front ++ [first, second] ++ back)
  | permuted (fields reordered : List HeaderValue)
      (perm : (fields.flatMap fun field => cookiePairs field.bytes).Perm
        (reordered.flatMap fun field => cookiePairs field.bytes)) : Refolded fields reordered

theorem Refolded.perm {fields folded : List HeaderValue} (refolded : Refolded fields folded) :
    (fields.flatMap fun field => cookiePairs field.bytes).Perm
      (folded.flatMap fun field => cookiePairs field.bytes) := by
  cases refolded with
  | joined front fields back whole several bytes =>
      have pairs : cookiePairs whole.bytes =
          fields.flatMap fun field => cookiePairs field.bytes := by
        rw [bytes, cookiePairs_intercalate (by simpa using several), List.flatMap_map]
      simp only [List.flatMap_append, List.flatMap_singleton, pairs]
      exact .refl _
  | split front back whole first second bytes =>
      have pairs : cookiePairs whole.bytes = cookiePairs first.bytes ++ cookiePairs second.bytes := by
        rw [bytes, cookiePairs_append]
      simp only [List.flatMap_append, List.flatMap_cons, List.flatMap_nil, List.append_nil, pairs]
      exact .refl _
  | permuted fields reordered perm => exact perm

/-- Alone, the field is accepted as a Bearer or Basic credential. -/
def AcceptedAlone (field : HeaderValue) : Prop :=
  ∃ scheme value, authorizationCredential ((∅ : HeaderMap).append .authorization field) =
    .ok (some ⟨scheme, value⟩) ∧ (scheme = ascii "bearer" ∨ scheme = ascii "basic")

/-- The same request with its `Cookie` or `Authorization` fields folded. -/
inductive Folded (headers folded : HeaderMap) : Prop
  | cookies (others : ∀ name, name ≠ .cookie → folded.getAll name = headers.getAll name)
      (refolded : Refolded (headers.getAll .cookie) (folded.getAll .cookie))
  | authorization (others : ∀ name, name ≠ .authorization → folded.getAll name = headers.getAll name)
      (several : 2 ≤ (headers.getAll .authorization).length)
      (accepted : ∀ field ∈ headers.getAll .authorization, AcceptedAlone field)
      (whole : HeaderValue) (single : folded.getAll .authorization = [whole])
      (bytes : whole.bytes =
        (ascii ", ").intercalate ((headers.getAll .authorization).map HeaderValue.bytes))

theorem singleHeader_congr {headers folded : HeaderMap} {name : HeaderName}
    (same : folded.getAll name = headers.getAll name) :
    singleHeader folded name = singleHeader headers name := by
  rw [singleHeader, singleHeader, same]

theorem authorizationCredential_congr {headers folded : HeaderMap}
    (same : folded.getAll .authorization = headers.getAll .authorization) :
    authorizationCredential folded = authorizationCredential headers := by
  rw [authorizationCredential, authorizationCredential, singleHeader_congr same]

/-- The CSRF header of a validated policy is not one that is folded. -/
theorem SessionCookiePolicy.Validated.csrfHeader_ne_cookie {policy : SessionCookiePolicy}
    (validated : policy.Validated) : policy.csrfHeaderName ≠ .cookie := by
  obtain ⟨config, valid, parsed⟩ := validated
  unfold fromConfig at parsed
  obtain ⟨header, named, rfl⟩ := Option.map_eq_some_iff.mp parsed
  unfold SessionCookieConfig.validate at valid
  rw [named] at valid
  rintro rfl
  split at valid
  · cases valid
  · split at valid
    · cases valid
    · simp only at valid
      rw [if_pos (by decide)] at valid
      cases valid

/-- Folding cookies does not show in the selected credential. -/
theorem selectCredential_cookies {method : Method} {headers folded : HeaderMap}
    {policy : SessionCookiePolicy} (validated : policy.Validated)
    (others : ∀ name, name ≠ .cookie → folded.getAll name = headers.getAll name)
    (refolded : Refolded (headers.getAll .cookie) (folded.getAll .cookie)) :
    selectCredential method folded (some policy) = selectCredential method headers (some policy) := by
  have authorization : authorizationCredential folded = authorizationCredential headers :=
    authorizationCredential_congr (others _ (by decide))
  have cookies : selectedCookies folded policy = selectedCookies headers policy :=
    selectedCookies_perm validated.distinct refolded.perm
  have csrf : checkCsrf folded policy = checkCsrf headers policy := by
    funext cookie
    rcases cookie with _ | cookie
    · rfl
    · simp only [checkCsrf, singleHeader_congr (others _ validated.csrfHeader_ne_cookie)]
  simp only [selectCredential, authorization, cookies, csrf]

/-- What a Bearer or Basic field looks like. -/
theorem AcceptedAlone.written {field : HeaderValue} (accepted : AcceptedAlone field) :
    ∃ scheme value, field.bytes = scheme ++ 32 :: value ∧ (32 : UInt8) ∉ scheme ∧
      (Text.eqIgnoreCase scheme (ascii "bearer") || Text.eqIgnoreCase scheme (ascii "basic")) =
        true := by
  obtain ⟨scheme, value, selected, known⟩ := accepted
  obtain ⟨other, written, only, text, bare, -, -, lower⟩ := authorizationCredential_eq_some selected
  have same : ((∅ : HeaderMap).append .authorization field).getAll .authorization = [field] := rfl
  rw [same] at only
  cases only
  refine ⟨written, value, (HeaderValue.toStr_eq_some_iff.mp text).1, bare, ?_⟩
  rw [Bool.or_eq_true, Text.eqIgnoreCase_iff, Text.eqIgnoreCase_iff, lower]
  obtain rfl | rfl := known
  · exact .inl (by decide)
  · exact .inr (by decide)

/-- A folded field that starts with a Bearer or Basic credential is refused. -/
theorem authorizationCredential_folded {headers : HeaderMap} {whole : HeaderValue}
    {scheme value rest : Bytes} (single : headers.getAll .authorization = [whole])
    (bytes : whole.bytes = scheme ++ 32 :: value ++ ascii ", " ++ rest)
    (bare : (32 : UInt8) ∉ scheme)
    (known : (Text.eqIgnoreCase scheme (ascii "bearer") ||
      Text.eqIgnoreCase scheme (ascii "basic")) = true) :
    authorizationCredential headers = .error .badRequest := by
  have comma : (value ++ ascii ", " ++ rest).any
      (fun byte => byte == 44 || Text.isAsciiWhitespace byte) = true := by
    refine List.any_eq_true.mpr ⟨44, ?_, by decide⟩
    exact List.mem_append_left _ (List.mem_append_right _ (by decide))
  have separated : Text.splitOnce 32 whole.bytes = some (scheme, value ++ ascii ", " ++ rest) :=
    Text.splitOnce_eq_some_iff.mpr ⟨by rw [bytes]; simp, bare⟩
  rw [authorizationCredential, singleHeader, single]
  dsimp only
  rcases text : whole.toStr with _ | found
  · rfl
  · obtain ⟨rfl, -⟩ := HeaderValue.toStr_eq_some_iff.mp text
    simp only [bind, Except.bind, separated, known, comma, Bool.and_self, if_true]
    split <;> rfl

theorem exists_of_two_le {α : Type} {list : List α} (long : 2 ≤ list.length) :
    ∃ first second rest, list = first :: second :: rest := by
  rcases list with _ | ⟨first, _ | ⟨second, rest⟩⟩
  · cases long
  · exact absurd long (by simp)
  · exact ⟨first, second, rest, rfl⟩

theorem authorizationCredential_several {headers : HeaderMap}
    (several : 2 ≤ (headers.getAll .authorization).length) :
    authorizationCredential headers = .error .badRequest := by
  obtain ⟨first, second, rest, fields⟩ := exists_of_two_le several
  rw [authorizationCredential, singleHeader, fields]
  rfl

/-- Folding repeated `Authorization` fields leaves them refused. -/
theorem selectCredential_authorization {method : Method} {headers folded : HeaderMap}
    {policy : Option SessionCookiePolicy}
    (several : 2 ≤ (headers.getAll .authorization).length)
    (accepted : ∀ field ∈ headers.getAll .authorization, AcceptedAlone field)
    {whole : HeaderValue} (single : folded.getAll .authorization = [whole])
    (bytes : whole.bytes =
      (ascii ", ").intercalate ((headers.getAll .authorization).map HeaderValue.bytes)) :
    selectCredential method folded policy = selectCredential method headers policy := by
  have refused : authorizationCredential headers = .error .badRequest :=
    authorizationCredential_several several
  have refusedFolded : authorizationCredential folded = .error .badRequest := by
    obtain ⟨first, second, rest, fields⟩ := exists_of_two_le several
    rw [fields] at accepted bytes
    obtain ⟨scheme, value, written, bare, known⟩ := (accepted first List.mem_cons_self).written
    rw [List.map_cons, List.map_cons, List.intercalate_cons_cons, written] at bytes
    exact authorizationCredential_folded single bytes bare known
  rw [selectCredential, selectCredential, refused, refusedFolded]
  rfl

/-- A host that folds header fields changes neither the selected credential nor the kind
of a rejection. -/
theorem selectCredential_folded (method : Method) (headers folded : HeaderMap)
    (policy : Option SessionCookiePolicy) (validated : ∀ policy' ∈ policy, policy'.Validated)
    (change : Folded headers folded) :
    selectCredential method folded policy = selectCredential method headers policy := by
  cases change with
  | cookies others refolded =>
      cases policy with
      | none =>
          rw [selectCredential, selectCredential,
            authorizationCredential_congr (others _ (by decide))]
      | some policy => exact selectCredential_cookies (validated policy rfl) others refolded
  | authorization others several accepted whole single bytes =>
      exact selectCredential_authorization several accepted single bytes

/-- The double submit with its `Cookie` field split in two. -/
def splitSubmitHeaders : HeaderMap :=
  (((∅ : HeaderMap).append .cookie ⟨ascii "__Host-lenso-session=\"s1\"; theme", by decide⟩).append
      .cookie ⟨ascii "__Host-lenso-csrf=t1", by decide⟩).insert
    documentedPolicy.csrfHeaderName ⟨ascii "t1", rfl⟩

theorem splitSubmit_others (name : HeaderName) (other : name ≠ .cookie) :
    splitSubmitHeaders.getAll name = doubleSubmitHeaders.getAll name := by
  have left : splitSubmitHeaders.entries = [(.cookie,
      [⟨ascii "__Host-lenso-session=\"s1\"; theme", by decide⟩,
        ⟨ascii "__Host-lenso-csrf=t1", by decide⟩]),
      (documentedPolicy.csrfHeaderName, [⟨ascii "t1", by decide⟩])] := rfl
  have right : doubleSubmitHeaders.entries = [(.cookie,
      [⟨ascii "__Host-lenso-session=\"s1\"; theme; __Host-lenso-csrf=t1", by decide⟩]),
      (documentedPolicy.csrfHeaderName, [⟨ascii "t1", by decide⟩])] := rfl
  rw [MultiMap.getAll, MultiMap.getAll, left, right]
  simp only [List.find?_cons_of_neg, decide_eq_true_eq, Ne.symm other, not_false_eq_true]

/-- The split request is accepted like the original one. -/
theorem selectCredential_splitSubmit :
    selectCredential .post splitSubmitHeaders (some documentedPolicy) =
      .ok (some ⟨ascii "session", ascii "s1"⟩) := by
  have split : Refolded (doubleSubmitHeaders.getAll .cookie) (splitSubmitHeaders.getAll .cookie) :=
    .split [] [] ⟨ascii "__Host-lenso-session=\"s1\"; theme; __Host-lenso-csrf=t1", by decide⟩
      ⟨ascii "__Host-lenso-session=\"s1\"; theme", by decide⟩
      ⟨ascii "__Host-lenso-csrf=t1", by decide⟩ rfl
  have validated : ∀ policy ∈ some documentedPolicy, policy.Validated := by
    rintro policy ⟨⟩
    exact documentedPolicy_validated
  rw [selectCredential_folded .post doubleSubmitHeaders splitSubmitHeaders (some documentedPolicy)
    validated (.cookies splitSubmit_others split)]
  decide +kernel

end Ingress
