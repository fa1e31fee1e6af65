import LensoWeb.Ingress.SessionCookie

/-!
# What credential selection selects

The tokenizer keeps two accumulators and stops at the first fault. Because the
two configured names differ, a run over the pairs is the same as collecting the
occurrences of each name on its own; this is `foldlM_selectPair`. The rest reads
both collections and the method, field by field.
-/

namespace Ingress

open Foundation Http

/-! ### One cookie value -/

/-- `raw` is well formed and stands for `value`: trimmed, it is a non-empty string
of cookie octets, bare or between one pair of double quotes. -/
structure CookieValue (raw value : Bytes) : Prop where
  nonempty : value ≠ []
  octets : value.all cookieOctet = true
  written : Text.trim raw = value ∨ Text.trim raw = 34 :: (value ++ [34])

theorem cookieOctet_ne_quote {value : Bytes} (octets : value.all cookieOctet = true) :
    (34 : UInt8) ∉ value := by
  intro quoted
  exact absurd (List.all_eq_true.mp octets 34 quoted) (by decide)

theorem unquotedCookieValue_bare {value : Bytes} (plain : (34 : UInt8) ∉ value) :
    unquotedCookieValue value = some value := by
  have noFirst : value.head? ≠ some 34 := fun first => plain (List.mem_of_mem_head? first)
  have noLast : value.getLast? ≠ some 34 := fun last => plain (List.mem_of_mem_getLast? last)
  simp [unquotedCookieValue, noFirst, noLast]

theorem unquotedCookieValue_quoted (value : Bytes) :
    unquotedCookieValue (34 :: (value ++ [34])) = some value := by
  simp [unquotedCookieValue, stripFirst, stripLast]

/-- Unquoting either changes nothing or takes away one pair of quotes. -/
theorem unquotedCookieValue_cases {value inner : Bytes}
    (unquoted : unquotedCookieValue value = some inner) :
    value = inner ∨ value = 34 :: (inner ++ [34]) := by
  unfold unquotedCookieValue at unquoted
  split at unquoted
  · cases value with
    | nil => simp [stripFirst] at unquoted
    | cons byte rest =>
        simp only [stripFirst] at unquoted
        split at unquoted
        · next first =>
          simp only [Option.bind_some, stripLast] at unquoted
          split at unquoted
          · next last =>
            cases unquoted
            rw [first, List.dropLast_append_getLast? 34 last]
            exact .inr rfl
          · cases unquoted
        · cases unquoted
  · cases unquoted
    exact .inl rfl

theorem insertCookie_some (stored value : Bytes) :
    insertCookie (some stored) value = .error .badRequest := rfl

/-- A first occurrence is accepted exactly when its value is well formed. -/
theorem insertCookie_none_iff {raw value : Bytes} :
    insertCookie none raw = .ok (some value) ↔ CookieValue raw value := by
  constructor
  · intro inserted
    simp only [insertCookie, normalizedCookieValue, Option.isSome_none, Bool.false_eq_true,
      if_false] at inserted
    cases unquoted : unquotedCookieValue (Text.trim raw) with
    | none => simp [unquoted] at inserted
    | some inner =>
        by_cases octets : inner.all cookieOctet = true
        · by_cases empty : inner.isEmpty = true
          · simp [unquoted, octets, empty] at inserted
          · simp only [unquoted, octets, empty, if_true, if_false, Except.ok.injEq,
              Option.some.injEq, Bool.false_eq_true] at inserted
            subst inserted
            exact ⟨by simpa using empty, octets, unquotedCookieValue_cases unquoted⟩
        · simp [unquoted, octets] at inserted
  · rintro ⟨nonempty, octets, written⟩
    have plain := cookieOctet_ne_quote octets
    have unquoted : unquotedCookieValue (Text.trim raw) = some value := by
      obtain bare | quoted := written
      · rw [bare]
        exact unquotedCookieValue_bare plain
      · rw [quoted]
        exact unquotedCookieValue_quoted value
    have filled : value.isEmpty = false := by simpa using nonempty
    simp [insertCookie, normalizedCookieValue, unquoted, octets, filled]

/-- Every other outcome of a first occurrence is the same rejection. -/
theorem insertCookie_none_cases (raw : Bytes) :
    (∃ value, CookieValue raw value ∧ insertCookie none raw = .ok (some value)) ∨
      (∀ value, ¬ CookieValue raw value) ∧ insertCookie none raw = .error .badRequest := by
  have outcome : (∃ value, insertCookie none raw = .ok (some value)) ∨
      insertCookie none raw = .error .badRequest := by
    simp only [insertCookie, normalizedCookieValue, Option.isSome_none, Bool.false_eq_true,
      if_false]
    cases unquotedCookieValue (Text.trim raw) with
    | none => exact .inr rfl
    | some inner =>
        by_cases octets : inner.all cookieOctet = true
        · by_cases empty : inner.isEmpty = true
          · exact .inr (by simp [octets, empty])
          · exact .inl ⟨inner, by simp [octets, empty]⟩
        · exact .inr (by simp [octets])
  obtain ⟨value, accepted⟩ | refused := outcome
  · exact .inl ⟨value, insertCookie_none_iff.mp accepted, accepted⟩
  · refine .inr ⟨?_, refused⟩
    intro value formed
    rw [insertCookie_none_iff.mpr formed] at refused
    cases refused

/-! ### The occurrences of one name -/

/-- How a pair mentions a name: not at all, bare, or with a raw value. -/
def occurrence (name pair : Bytes) : Option (Option Bytes) :=
  match Text.splitOnce 61 pair with
  | none => if pair = name then some none else none
  | some (left, value) => if Text.trim left = name then some (some value) else none

/-- The mentions of a name in a list of pairs, in order. -/
def occurrences (name : Bytes) (pairs : List Bytes) : List (Option Bytes) :=
  pairs.filterMap (occurrence name)

/-- Feed the mentions of one name to its accumulator. -/
def collect : Option Bytes → List (Option Bytes) → Except CredentialRejection (Option Bytes)
  | target, [] => .ok target
  | _, none :: _ => .error .badRequest
  | target, some value :: rest =>
      match insertCookie target value with
      | .ok next => collect next rest
      | .error rejection => .error rejection

/-- The accumulator of a name that is collected already admits no further mention. -/
theorem collect_some (stored : Bytes) (mentions : List (Option Bytes)) :
    collect (some stored) mentions =
      if mentions = [] then .ok (some stored) else .error .badRequest := by
  cases mentions with
  | nil => rfl
  | cons mention rest => cases mention <;> simp [collect, insertCookie_some]

/-- A name is absent, or it occurs once and is well formed, or its occurrences
are rejected. -/
theorem collect_none_cases (mentions : List (Option Bytes)) :
    (mentions = [] ∧ collect none mentions = .ok none) ∨
      (∃ raw value, mentions = [some raw] ∧ CookieValue raw value ∧
        collect none mentions = .ok (some value)) ∨
      (mentions ≠ [] ∧ (∀ raw value, mentions = [some raw] → ¬ CookieValue raw value) ∧
        collect none mentions = .error .badRequest) := by
  match mentions with
  | [] => exact .inl ⟨rfl, rfl⟩
  | none :: rest => exact .inr (.inr ⟨by simp, by simp, rfl⟩)
  | some raw :: rest =>
      right
      obtain ⟨value, formed, accepted⟩ | ⟨malformed, refused⟩ := insertCookie_none_cases raw
      · cases rest with
        | nil => exact .inl ⟨raw, value, rfl, formed, by simp [collect, accepted]⟩
        | cons mention rest =>
            exact .inr ⟨by simp, by simp, by simp [collect, accepted, collect_some]⟩
      · refine .inr ⟨by simp, ?_, by simp [collect, refused]⟩
        intro other value single formed
        simp only [List.cons.injEq, Option.some.injEq] at single
        rw [← single.1] at formed
        exact malformed value formed

theorem insertCookie_error {target : Option Bytes} {value : Bytes} {rejection : CredentialRejection}
    (refused : insertCookie target value = .error rejection) : rejection = .badRequest := by
  cases target with
  | some stored =>
      rw [insertCookie_some] at refused
      cases refused
      rfl
  | none =>
      obtain ⟨inner, _, accepted⟩ | ⟨_, rejected⟩ := insertCookie_none_cases value
      · rw [accepted] at refused
        cases refused
      · rw [rejected] at refused
        cases refused
        rfl

/-! ### Both names together -/

/-- The two collections, which share one kind of fault. -/
def both (session csrf : Except CredentialRejection (Option Bytes)) :
    Except CredentialRejection SelectedCookies :=
  match session, csrf with
  | .ok session, .ok csrf => .ok ⟨session, csrf⟩
  | _, _ => .error .badRequest

@[simp] theorem both_error_left (rejection : CredentialRejection)
    (csrf : Except CredentialRejection (Option Bytes)) :
    both (.error rejection) csrf = .error .badRequest := rfl

@[simp] theorem both_error_right (session : Except CredentialRejection (Option Bytes))
    (rejection : CredentialRejection) : both session (.error rejection) = .error .badRequest := by
  cases session <;> rfl

/-- A pair mentions at most one of two different names. -/
theorem occurrence_exclusive {first second pair : Bytes} {mention : Option Bytes}
    (distinct : first ≠ second) (mentioned : occurrence first pair = some mention) :
    occurrence second pair = none := by
  unfold occurrence at mentioned ⊢
  split at mentioned <;> split at mentioned
  · next same => simp [same, distinct]
  · cases mentioned
  · next same => simp [same, distinct]
  · cases mentioned

/-- What the loop body does depends only on how the pair mentions the two names. -/
theorem selectPair_eq (policy : SessionCookiePolicy) (selected : SelectedCookies) (pair : Bytes) :
    selectPair policy selected pair =
      match occurrence policy.name pair, occurrence policy.csrfCookieName pair with
      | some none, _ => .error .badRequest
      | some (some value), _ =>
          (insertCookie selected.session value).map fun session => { selected with session }
      | none, some none => .error .badRequest
      | none, some (some value) =>
          (insertCookie selected.csrf value).map fun csrf => { selected with csrf }
      | none, none => .ok selected := by
  unfold selectPair occurrence
  cases Text.splitOnce 61 pair with
  | none =>
      by_cases isSession : pair = policy.name
      · simp only [if_pos (Or.inl isSession), if_pos isSession]
      · by_cases isCsrf : pair = policy.csrfCookieName
        · simp only [if_pos (Or.inr isCsrf), if_neg isSession, if_pos isCsrf]
        · simp only [if_neg (not_or.mpr ⟨isSession, isCsrf⟩), if_neg isSession, if_neg isCsrf]
  | some parts =>
      by_cases isSession : Text.trim parts.1 = policy.name
      · simp only [if_pos isSession]
      · by_cases isCsrf : Text.trim parts.1 = policy.csrfCookieName
        · simp only [if_neg isSession, if_pos isCsrf]
        · simp only [if_neg isSession, if_neg isCsrf]

/-- The loop over the pairs collects each of the two names independently. -/
theorem foldlM_selectPair {policy : SessionCookiePolicy}
    (distinct : policy.name ≠ policy.csrfCookieName) (pairs : List Bytes)
    (selected : SelectedCookies) :
    pairs.foldlM (selectPair policy) selected =
      both (collect selected.session (occurrences policy.name pairs))
        (collect selected.csrf (occurrences policy.csrfCookieName pairs)) := by
  induction pairs generalizing selected with
  | nil => rfl
  | cons pair rest ih =>
      rw [List.foldlM_cons, selectPair_eq, occurrences, occurrences]
      cases inSession : occurrence policy.name pair with
      | some mention =>
          have inCsrf := occurrence_exclusive distinct inSession
          rw [inCsrf, List.filterMap_cons_some inSession, List.filterMap_cons_none inCsrf]
          cases mention with
          | none => rfl
          | some value =>
              cases inserted : insertCookie selected.session value with
              | ok next =>
                  simp only [collect, inserted]
                  exact ih { selected with session := next }
              | error rejection =>
                  simp only [collect, inserted, both_error_left]
                  exact congrArg Except.error (insertCookie_error inserted)
      | none =>
          rw [List.filterMap_cons_none inSession]
          cases inCsrf : occurrence policy.csrfCookieName pair with
          | none =>
              rw [List.filterMap_cons_none inCsrf]
              exact ih selected
          | some mention =>
              rw [List.filterMap_cons_some inCsrf]
              cases mention with
              | none => exact (both_error_right _ _).symm
              | some value =>
                  cases inserted : insertCookie selected.csrf value with
                  | ok next =>
                      simp only [collect, inserted]
                      exact ih { selected with csrf := next }
                  | error rejection =>
                      simp only [collect, inserted, both_error_right]
                      exact congrArg Except.error (insertCookie_error inserted)

/-- All pairs of all `Cookie` fields, in order. -/
def allPairs (headers : HeaderMap) : List Bytes :=
  (headers.getAll .cookie).flatMap fun field => cookiePairs field.bytes

/-- Every `Cookie` field is visible ASCII. -/
def CookiesVisible (headers : HeaderMap) : Prop :=
  ∀ field ∈ headers.getAll .cookie, field.bytes.all isVisibleAscii = true

instance (headers : HeaderMap) : Decidable (CookiesVisible headers) :=
  inferInstanceAs (Decidable (∀ field ∈ headers.getAll .cookie,
    field.bytes.all isVisibleAscii = true))

theorem both_error {session csrf : Except CredentialRejection (Option Bytes)}
    {rejection : CredentialRejection} (refused : both session csrf = .error rejection) :
    rejection = .badRequest := by
  cases session <;> cases csrf <;> cases refused <;> rfl

/-- The loop over the fields is the loop over all their pairs, provided that every
field is text; otherwise the request is rejected. -/
theorem foldlM_selectField {policy : SessionCookiePolicy}
    (distinct : policy.name ≠ policy.csrfCookieName) (fields : List HeaderValue)
    (selected : SelectedCookies) :
    fields.foldlM (selectField policy) selected =
      if ∀ field ∈ fields, field.bytes.all isVisibleAscii = true then
        (fields.flatMap fun field => cookiePairs field.bytes).foldlM (selectPair policy) selected
      else .error .badRequest := by
  induction fields generalizing selected with
  | nil => simp
  | cons field rest ih =>
      rw [List.foldlM_cons, List.flatMap_cons, List.foldlM_append]
      by_cases visible : field.bytes.all isVisibleAscii = true
      · have text : field.toStr = some field.bytes :=
          HeaderValue.toStr_eq_some_iff.mpr ⟨rfl, visible⟩
        have here : selectField policy selected field =
            (cookiePairs field.bytes).foldlM (selectPair policy) selected := by
          rw [selectField, text]
        rw [here]
        cases pairs : (cookiePairs field.bytes).foldlM (selectPair policy) selected with
        | ok next =>
            have tail : (∀ other ∈ field :: rest, other.bytes.all isVisibleAscii = true) ↔
                ∀ other ∈ rest, other.bytes.all isVisibleAscii = true :=
              List.forall_mem_cons.trans (and_iff_right visible)
            rw [if_congr tail rfl rfl]
            exact ih next
        | error rejection =>
            rw [foldlM_selectPair distinct] at pairs
            rw [both_error pairs]
            simp [bind, Except.bind]
      · have hidden : field.toStr = none := by
          cases text : field.toStr with
          | none => rfl
          | some found =>
              obtain ⟨rfl, all⟩ := HeaderValue.toStr_eq_some_iff.mp text
              exact absurd all visible
        rw [if_neg (fun all => visible (all field List.mem_cons_self)), selectField, hidden]
        rfl

/-- `selected_cookies` in terms of the occurrences of the two names. -/
theorem selectedCookies_eq {policy : SessionCookiePolicy}
    (distinct : policy.name ≠ policy.csrfCookieName) (headers : HeaderMap) :
    selectedCookies headers policy =
      if CookiesVisible headers then
        both (collect none (occurrences policy.name (allPairs headers)))
          (collect none (occurrences policy.csrfCookieName (allPairs headers)))
      else .error .badRequest := by
  rw [selectedCookies, foldlM_selectField distinct, foldlM_selectPair distinct]
  rfl

/-! ### Authorization and CSRF evidence -/

theorem singleHeader_ok_iff {headers : HeaderMap} {name : HeaderName} {text : Bytes} :
    singleHeader headers name = .ok (some text) ↔
      ∃ field, headers.getAll name = [field] ∧ field.toStr = some text := by
  unfold singleHeader
  match headers.getAll name with
  | [] => simp
  | [field] =>
      cases visible : field.toStr with
      | none => simp [visible]
      | some found => simp [visible]
  | _ :: _ :: _ => simp

theorem singleHeader_none_iff {headers : HeaderMap} {name : HeaderName} :
    singleHeader headers name = .ok none ↔ headers.getAll name = [] := by
  unfold singleHeader
  match headers.getAll name with
  | [] => simp
  | [field] =>
      cases visible : field.toStr with
      | none => simp [visible]
      | some found => simp [visible]
  | _ :: _ :: _ => simp

/-- No credential is read off `Authorization` only when the field is absent. -/
theorem authorizationCredential_none_iff {headers : HeaderMap} :
    authorizationCredential headers = .ok none ↔ headers.getAll .authorization = [] := by
  rw [← singleHeader_none_iff]
  unfold authorizationCredential
  cases singleHeader headers .authorization with
  | error rejection => simp [bind, Except.bind]
  | ok found =>
      cases found with
      | none => simp [bind, Except.bind]
      | some text =>
          simp only [bind, Except.bind, Except.ok.injEq, reduceCtorEq, iff_false]
          cases Text.splitOnce 32 text with
          | none => simp
          | some parts =>
              simp only
              split
              · simp
              · split <;> simp

/-- A single visible `Authorization` field with the scheme `session`, in any
letter case, followed by one space and a non-empty value. -/
structure SessionAuthorization (headers : HeaderMap) (value : Bytes) : Prop where
  nonempty : value ≠ []
  field : ∃ field scheme, headers.getAll .authorization = [field] ∧
    field.toStr = some (scheme ++ 32 :: value) ∧ (32 : UInt8) ∉ scheme ∧
    Text.lowercase scheme = ascii "session"

/-- A credential is read off a single visible field: the scheme before the first space,
in lower case, and the value behind it. -/
theorem authorizationCredential_eq_some {headers : HeaderMap} {scheme value : Bytes}
    (selected : authorizationCredential headers = .ok (some ⟨scheme, value⟩)) :
    ∃ field written, headers.getAll .authorization = [field] ∧
      field.toStr = some (written ++ 32 :: value) ∧ (32 : UInt8) ∉ written ∧ written ≠ [] ∧
      value ≠ [] ∧ Text.lowercase written = scheme := by
  unfold authorizationCredential at selected
  cases single : singleHeader headers .authorization with
  | error rejection =>
      rw [single] at selected
      cases selected
  | ok found =>
      rw [single] at selected
      cases found with
      | none => cases selected
      | some text =>
          obtain ⟨field, only, visible⟩ := singleHeader_ok_iff.mp single
          simp only [bind, Except.bind] at selected
          split at selected
          · cases selected
          · next written rest separated =>
            obtain ⟨rfl, bare⟩ := Text.splitOnce_eq_some_iff.mp separated
            split at selected
            · cases selected
            · next filled =>
              rw [Bool.or_eq_true, List.isEmpty_iff, List.isEmpty_iff, not_or] at filled
              split at selected
              · cases selected
              · simp only [Except.ok.injEq, Option.some.injEq, CredentialEvidence.mk.injEq]
                  at selected
                obtain ⟨lower, rfl⟩ := selected
                exact ⟨field, written, only, visible, bare, filled.1, filled.2, lower⟩

theorem authorizationCredential_session_iff {headers : HeaderMap} {value : Bytes} :
    authorizationCredential headers = .ok (some ⟨ascii "session", value⟩) ↔
      SessionAuthorization headers value := by
  constructor
  · intro selected
    obtain ⟨field, scheme, only, visible, bare, -, nonempty, lower⟩ :=
      authorizationCredential_eq_some selected
    exact ⟨nonempty, field, scheme, only, visible, bare, lower⟩
  · rintro ⟨nonempty, field, scheme, only, visible, bare, lower⟩
    have single := singleHeader_ok_iff.mpr ⟨field, only, visible⟩
    have separated : Text.splitOnce 32 (scheme ++ 32 :: value) = some (scheme, value) :=
      Text.splitOnce_eq_some_iff.mpr ⟨rfl, bare⟩
    have written : scheme ≠ [] := by
      rintro rfl
      exact absurd lower (by decide)
    have notBearer : Text.eqIgnoreCase scheme (ascii "bearer") = false := by
      simp only [Text.eqIgnoreCase, lower]
      decide
    have notBasic : Text.eqIgnoreCase scheme (ascii "basic") = false := by
      simp only [Text.eqIgnoreCase, lower]
      decide
    have filled : (scheme.isEmpty || value.isEmpty) = false := by
      simp [written, nonempty]
    simp only [authorizationCredential, single, bind, Except.bind, separated, filled, notBearer,
      notBasic, Bool.or_self, Bool.false_and, Bool.false_eq_true, if_false, lower]

/-- The accumulated difference is zero exactly when no pair differs. -/
theorem foldl_xor_eq_zero_iff (pairs : List (UInt8 × UInt8)) (difference : UInt8) :
    pairs.foldl (fun difference pair => difference ||| (pair.1 ^^^ pair.2)) difference = 0 ↔
      difference = 0 ∧ ∀ pair ∈ pairs, pair.1 = pair.2 := by
  induction pairs generalizing difference with
  | nil => simp
  | cons pair rest ih =>
      rw [List.foldl_cons, ih, UInt8.or_eq_zero_iff, UInt8.xor_eq_zero_iff, List.forall_mem_cons,
        and_assoc]

theorem tokensMatch_iff {left right : Bytes} : tokensMatch left right = true ↔ left = right := by
  unfold tokensMatch
  split
  · next differ =>
    constructor
    · intro impossible
      cases impossible
    · rintro rfl
      exact absurd rfl differ
  · next sameLength =>
    rw [beq_iff_eq, foldl_xor_eq_zero_iff, ← List.forall₂_eq_eq_eq, List.forall₂_iff_zip]
    constructor
    · rintro ⟨_, equal⟩
      exact ⟨not_not.mp sameLength, fun member => equal _ member⟩
    · rintro ⟨_, equal⟩
      exact ⟨rfl, fun pair member => equal member⟩

theorem cookieOctet_visible (byte : UInt8) :
    cookieOctet byte = true → isVisibleAscii byte = true :=
  Text.forall_byte (P := fun b => cookieOctet b = true → isVisibleAscii b = true)
    (by decide +kernel) byte

/-- Against a well-formed CSRF cookie, the check asks for exactly one header field
with the same bytes. -/
theorem checkCsrf_iff {headers : HeaderMap} {policy : SessionCookiePolicy} {raw token : Bytes}
    (formed : CookieValue raw token) :
    checkCsrf headers policy (some token) = .ok () ↔
      ∃ field, headers.getAll policy.csrfHeaderName = [field] ∧ field.bytes = token := by
  constructor
  · intro passed
    unfold checkCsrf at passed
    cases single : singleHeader headers policy.csrfHeaderName with
    | error rejection =>
        rw [single] at passed
        cases passed
    | ok found =>
        rw [single] at passed
        cases found with
        | none => cases passed
        | some text =>
            obtain ⟨field, only, visible⟩ := singleHeader_ok_iff.mp single
            have bytes := (HeaderValue.toStr_eq_some_iff.mp visible).1
            simp only at passed
            split at passed
            · cases passed
            · next matched =>
              simp only [Bool.or_eq_true, Bool.not_eq_true', not_or, Bool.not_eq_false] at matched
              exact ⟨field, only, bytes.trans (tokensMatch_iff.mp matched.2).symm⟩
  · rintro ⟨field, only, rfl⟩
    have visible : field.toStr = some field.bytes :=
      HeaderValue.toStr_eq_some_iff.mpr
        ⟨rfl, List.all_eq_true.mpr fun byte member =>
          cookieOctet_visible byte (List.all_eq_true.mp formed.octets byte member)⟩
    have single := singleHeader_ok_iff.mpr ⟨field, only, visible⟩
    have filled : field.bytes.isEmpty = false := by simpa using formed.nonempty
    have matched : tokensMatch field.bytes field.bytes = true := tokensMatch_iff.mpr rfl
    simp only [checkCsrf, single, filled, matched, Bool.not_true, Bool.or_self,
      Bool.false_eq_true, if_false]

/-! ### The selected credential -/

/-- The mentions of a name yield nothing, or the value of the only one of them. -/
def MentionsYield (mentions : List (Option Bytes)) : Option Bytes → Prop
  | none => mentions = []
  | some value => ∃ raw, mentions = [some raw] ∧ CookieValue raw value

theorem collect_ok_iff {mentions : List (Option Bytes)} {result : Option Bytes} :
    collect none mentions = .ok result ↔ MentionsYield mentions result := by
  constructor
  · intro collected
    rcases collect_none_cases mentions with
      ⟨absent, outcome⟩ | ⟨raw, value, single, formed, outcome⟩ | ⟨_, _, outcome⟩
    · rw [outcome] at collected
      cases collected
      exact absent
    · rw [outcome] at collected
      cases collected
      exact ⟨raw, single, formed⟩
    · rw [outcome] at collected
      cases collected
  · intro yields
    cases result with
    | none =>
        have absent : mentions = [] := yields
        rw [absent]
        rfl
    | some value =>
        obtain ⟨raw, rfl, formed⟩ := yields
        simp [collect, insertCookie_none_iff.mpr formed]

theorem both_ok_iff {left right : Except CredentialRejection (Option Bytes)}
    {cookies : SelectedCookies} :
    both left right = .ok cookies ↔ left = .ok cookies.session ∧ right = .ok cookies.csrf := by
  cases left <;> cases right <;> simp [both]
  exact ⟨fun same => by cases same; exact ⟨rfl, rfl⟩, fun same => by rw [same.1, same.2]⟩

theorem selectedCookies_ok_iff {policy : SessionCookiePolicy} {headers : HeaderMap}
    {cookies : SelectedCookies} (distinct : policy.name ≠ policy.csrfCookieName) :
    selectedCookies headers policy = .ok cookies ↔
      CookiesVisible headers ∧
        MentionsYield (occurrences policy.name (allPairs headers)) cookies.session ∧
        MentionsYield (occurrences policy.csrfCookieName (allPairs headers)) cookies.csrf := by
  rw [selectedCookies_eq distinct]
  by_cases visible : CookiesVisible headers
  · rw [if_pos visible, both_ok_iff, collect_ok_iff, collect_ok_iff, and_iff_right visible]
  · simp [visible]

/-- The methods that need no CSRF evidence: four of them spelled exactly, and
`QUERY` in any letter case. -/
def IsSafe (method : Method) : Prop :=
  method ∈ [Method.get, .head, .options, .trace] ∨ Text.lowercase method.token = ascii "query"

theorem safeMethod_iff {method : Method} : safeMethod method = true ↔ IsSafe method := by
  have query : Text.lowercase (ascii "QUERY") = ascii "query" := by decide
  simp only [safeMethod, IsSafe, Bool.or_eq_true, beq_iff_eq, Text.eqIgnoreCase_iff, query,
    List.mem_cons, List.not_mem_nil, or_false, or_assoc]

/-- The session cookie of the request is accepted, with value `value`. -/
structure SessionSelected (method : Method) (headers : HeaderMap) (policy : SessionCookiePolicy)
    (value : Bytes) : Prop where
  noAuthorization : headers.getAll .authorization = []
  visible : CookiesVisible headers
  session : MentionsYield (occurrences policy.name (allPairs headers)) (some value)
  csrfFormed : ∃ csrf, MentionsYield (occurrences policy.csrfCookieName (allPairs headers)) csrf
  evidence : IsSafe method ∨ ∃ token field,
    MentionsYield (occurrences policy.csrfCookieName (allPairs headers)) (some token) ∧
      headers.getAll policy.csrfHeaderName = [field] ∧ field.bytes = token

/-- No session cookie occurs, the cookies are otherwise acceptable, and the client
itself names the scheme `session` in its `Authorization` field. -/
structure SessionByAuthorization (headers : HeaderMap) (policy : SessionCookiePolicy)
    (value : Bytes) : Prop where
  authorization : SessionAuthorization headers value
  visible : CookiesVisible headers
  noSession : occurrences policy.name (allPairs headers) = []
  csrfFormed : ∃ csrf, MentionsYield (occurrences policy.csrfCookieName (allPairs headers)) csrf

theorem SessionCookiePolicy.Validated.distinct {policy : SessionCookiePolicy}
    (validated : policy.Validated) : policy.name ≠ policy.csrfCookieName := by
  obtain ⟨config, valid, parsed⟩ := validated
  unfold fromConfig at parsed
  obtain ⟨header, _, rfl⟩ := Option.map_eq_some_iff.mp parsed
  unfold SessionCookieConfig.validate at valid
  split at valid
  · cases valid
  · next checks =>
    simp only [Bool.or_eq_true, beq_iff_eq, not_or] at checks
    exact checks.2

/-- The two ways in which a request under a session policy is accepted. -/
theorem selectCredential_ok_iff {method : Method} {headers : HeaderMap}
    {policy : SessionCookiePolicy} {credential : Option CredentialEvidence} :
    selectCredential method headers (some policy) = .ok credential ↔
      ∃ cookies, selectedCookies headers policy = .ok cookies ∧
        ((cookies.session = none ∧ authorizationCredential headers = .ok credential) ∨
          ∃ session, cookies.session = some session ∧
            authorizationCredential headers = .ok none ∧
            (safeMethod method = true ∨ checkCsrf headers policy cookies.csrf = .ok ()) ∧
            credential = some ⟨ascii "session", session⟩) := by
  simp only [selectCredential, bind, Except.bind]
  cases authorizationCredential headers with
  | error rejection => simp
  | ok authorization =>
      cases selectedCookies headers policy with
      | error rejection => simp
      | ok cookies =>
          cases present : cookies.session with
          | none => simp [present]
          | some session =>
              cases authorization with
              | some evidence => simp [present]
              | none =>
                  cases safe : safeMethod method with
                  | true => simp [present, eq_comm]
                  | false =>
                      cases checked : checkCsrf headers policy cookies.csrf with
                      | error rejection => simp [present, checked]
                      | ok accepted => simp [present, checked, eq_comm]

/-- An accepted session cookie carries all the evidence that its method needs. -/
theorem sessionSelected_of_cookies {method : Method} {headers : HeaderMap}
    {policy : SessionCookiePolicy} {cookies : SelectedCookies} {session : Bytes}
    (distinct : policy.name ≠ policy.csrfCookieName)
    (cookiesRead : selectedCookies headers policy = .ok cookies)
    (present : cookies.session = some session)
    (noAuthorization : authorizationCredential headers = .ok none)
    (checked : safeMethod method = true ∨ checkCsrf headers policy cookies.csrf = .ok ()) :
    SessionSelected method headers policy session := by
  obtain ⟨visible, inSession, inCsrf⟩ := (selectedCookies_ok_iff distinct).mp cookiesRead
  rw [present] at inSession
  refine ⟨authorizationCredential_none_iff.mp noAuthorization, visible, inSession, ⟨_, inCsrf⟩, ?_⟩
  obtain safe | passed := checked
  · exact .inl (safeMethod_iff.mp safe)
  · cases csrf : cookies.csrf with
    | none =>
        rw [csrf] at passed
        cases passed
    | some token =>
        rw [csrf] at passed inCsrf
        obtain ⟨raw, single, formed⟩ := inCsrf
        obtain ⟨field, only, bytes⟩ := (checkCsrf_iff formed).mp passed
        exact .inr ⟨token, field, ⟨raw, single, formed⟩, only, bytes⟩

/-- Conversely, that evidence is enough. -/
theorem SessionSelected.select {method : Method} {headers : HeaderMap}
    {policy : SessionCookiePolicy} {value : Bytes}
    (distinct : policy.name ≠ policy.csrfCookieName)
    (selected : SessionSelected method headers policy value) :
    selectCredential method headers (some policy) = .ok (some ⟨ascii "session", value⟩) := by
  obtain ⟨noAuthorization, visible, inSession, ⟨csrf, inCsrf⟩, evidence⟩ := selected
  obtain safe | ⟨token, field, inToken, only, bytes⟩ := evidence
  · exact selectCredential_ok_iff.mpr ⟨⟨some value, csrf⟩,
      (selectedCookies_ok_iff distinct).mpr ⟨visible, inSession, inCsrf⟩,
      .inr ⟨value, rfl, authorizationCredential_none_iff.mpr noAuthorization,
        .inl (safeMethod_iff.mpr safe), rfl⟩⟩
  · obtain ⟨raw, single, formed⟩ := inToken
    exact selectCredential_ok_iff.mpr ⟨⟨some value, some token⟩,
      (selectedCookies_ok_iff distinct).mpr ⟨visible, inSession, raw, single, formed⟩,
      .inr ⟨value, rfl, authorizationCredential_none_iff.mpr noAuthorization,
        .inr ((checkCsrf_iff formed).mpr ⟨field, only, bytes⟩), rfl⟩⟩

/-- A `session` credential comes from an accepted session cookie, or from a client
that sends no session cookie and spells the scheme out in `Authorization`. Once
the session cookie occurs at all, it is accepted or the request is rejected. -/
theorem selectCredential_session_iff {policy : SessionCookiePolicy}
    (validated : policy.Validated) (method : Method) (headers : HeaderMap) :
    (∀ value, selectCredential method headers (some policy) =
        .ok (some ⟨ascii "session", value⟩) ↔
      SessionSelected method headers policy value ∨ SessionByAuthorization headers policy value) ∧
    (occurrences policy.name (allPairs headers) ≠ [] →
      (∀ value, ¬ SessionSelected method headers policy value) →
        ∃ rejection, selectCredential method headers (some policy) = .error rejection) := by
  have distinct := validated.distinct
  constructor
  · intro value
    constructor
    · intro selected
      obtain ⟨cookies, cookiesRead, source⟩ := selectCredential_ok_iff.mp selected
      obtain ⟨visible, inSession, inCsrf⟩ := (selectedCookies_ok_iff distinct).mp cookiesRead
      obtain ⟨absent, fromClient⟩ | ⟨session, present, noAuthorization, checked, same⟩ := source
      · rw [absent] at inSession
        exact .inr ⟨authorizationCredential_session_iff.mp fromClient, visible, inSession,
          _, inCsrf⟩
      · simp only [Option.some.injEq, CredentialEvidence.mk.injEq, true_and] at same
        subst same
        exact .inl (sessionSelected_of_cookies distinct cookiesRead present noAuthorization checked)
    · rintro (selected | ⟨authorization, visible, noSession, csrf, inCsrf⟩)
      · exact selected.select distinct
      · exact selectCredential_ok_iff.mpr ⟨⟨none, csrf⟩,
          (selectedCookies_ok_iff distinct).mpr ⟨visible, noSession, inCsrf⟩,
          .inl ⟨rfl, authorizationCredential_session_iff.mpr authorization⟩⟩
  · intro occurs never
    cases result : selectCredential method headers (some policy) with
    | error rejection => exact ⟨rejection, rfl⟩
    | ok credential =>
        obtain ⟨cookies, cookiesRead, source⟩ := selectCredential_ok_iff.mp result
        obtain ⟨absent, _⟩ | ⟨session, present, noAuthorization, checked, _⟩ := source
        · have inSession := ((selectedCookies_ok_iff distinct).mp cookiesRead).2.1
          rw [absent] at inSession
          exact absurd inSession occurs
        · exact absurd
            (sessionSelected_of_cookies distinct cookiesRead present noAuthorization checked)
            (never session)

/-- A policy with the names of the documentation. -/
def documentedPolicy : SessionCookiePolicy where
  name := ascii "__Host-lenso-session"
  csrfCookieName := ascii "__Host-lenso-csrf"
  csrfHeaderName := ⟨ascii "x-csrf-token", by decide, by decide, by decide, by decide⟩

theorem documentedPolicy_validated : documentedPolicy.Validated :=
  ⟨⟨ascii "__Host-lenso-session", ascii "__Host-lenso-csrf", ascii "X-CSRF-Token"⟩, rfl, rfl⟩

/-- One `Cookie` field with both cookies, and the matching CSRF header. -/
def doubleSubmitHeaders : HeaderMap :=
  ((∅ : HeaderMap).insert .cookie
      ⟨ascii "__Host-lenso-session=\"s1\"; theme; __Host-lenso-csrf=t1", by decide⟩).insert
    documentedPolicy.csrfHeaderName ⟨ascii "t1", by decide⟩

theorem selectCredential_doubleSubmit :
    documentedPolicy.Validated ∧
      selectCredential .post doubleSubmitHeaders (some documentedPolicy) =
        .ok (some ⟨ascii "session", ascii "s1"⟩) := by
  refine ⟨documentedPolicy_validated, ?_⟩
  refine ((selectCredential_session_iff documentedPolicy_validated .post doubleSubmitHeaders).1
    (ascii "s1")).mpr (.inl ?_)
  refine ⟨by decide, by decide, ⟨ascii "\"s1\"", by decide, by decide, by decide, by decide⟩,
    ⟨some (ascii "t1"), ascii "t1", by decide, by decide, by decide, by decide⟩,
    .inr ⟨ascii "t1", ⟨ascii "t1", by decide⟩, ⟨ascii "t1", by decide, by decide, by decide,
      by decide⟩, by decide, rfl⟩⟩

/-- A client can claim the scheme `session` without any cookie, even on an unsafe
method: the credential of this request comes from its `Authorization` field. -/
theorem session_scheme_without_cookie :
    ¬ ∀ policy : SessionCookiePolicy, policy.Validated → ∀ method headers value,
      selectCredential method headers (some policy) = .ok (some ⟨ascii "session", value⟩) ↔
        SessionSelected method headers policy value := by
  intro exact
  have selected := (exact documentedPolicy documentedPolicy_validated .post
    ((∅ : HeaderMap).insert .authorization ⟨ascii "Session s1", by decide⟩) (ascii "s1")).mp rfl
  exact absurd selected.noAuthorization (by decide)

end Ingress
