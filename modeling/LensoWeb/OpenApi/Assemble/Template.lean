import LensoWeb.OpenApi.Assemble

/-!
# Path templates

A template is literal text with parameter groups in between. The scanner of
`openapi_path` looks for the next opening brace and then for the next closing one,
so that it reads a path in one way only. It checks the text behind the last group for
a closing brace, but not the text before a group.
-/

namespace OpenApi

open Foundation

/-- A parameter group: a name, or an asterisk and a name. -/
structure Group where
  catchAll : Bool
  name : Str
deriving DecidableEq

namespace Group

/-- What stands between the braces. -/
def declared (group : Group) : Str := (if group.catchAll then lit "*" else []) ++ group.name

def source (group : Group) : Str := '\x7b' :: (group.declared ++ ['\x7d'])

/-- The group as the document writes it. -/
def rendered (group : Group) : Str := '\x7b' :: (group.name ++ ['\x7d'])

/-- A name is not empty, and free of braces and whitespace. A leading asterisk always
makes a catch-all. -/
structure Valid (group : Group) : Prop where
  nonempty : group.name ≠ []
  noOpen : '\x7b' ∉ group.name
  noClose : '\x7d' ∉ group.name
  noSpace : group.name.any Str.isWhitespace = false
  plain : group.catchAll = false → group.name.head? ≠ some '*'

end Group

/-- Literal text with groups in between. -/
inductive Template where
  | tail (text : Str)
  | group (text : Str) (group : Group) (rest : Template)

namespace Template

def source : Template → Str
  | tail text => text
  | group text one rest => text ++ one.source ++ rest.source

/-- The template with every catch-all as a plain group. -/
def rendered : Template → Str
  | tail text => text
  | group text one rest => text ++ one.rendered ++ rest.rendered

def texts : Template → List Str
  | tail text => [text]
  | group text _ rest => text :: rest.texts

def groups : Template → List Group
  | tail _ => []
  | group _ one rest => one :: rest.groups

/-- The names of the parameters, in order. -/
def names (template : Template) : List Str := template.groups.map Group.name

/-- Text without braces, valid groups, and no name twice. -/
structure WellFormed (template : Template) : Prop where
  texts : ∀ text ∈ template.texts, '\x7b' ∉ text ∧ '\x7d' ∉ text
  groups : ∀ one ∈ template.groups, one.Valid
  distinct : template.names.Nodup

/-- What the scanner reads: the text before a group may hold a closing brace. -/
def Scans : Template → Prop
  | tail text => '\x7b' ∉ text ∧ '\x7d' ∉ text
  | group text one rest => '\x7b' ∉ text ∧ one.Valid ∧ one.name ∉ rest.names ∧ rest.Scans

/-- No closing brace stands in the text before a group. -/
def Separated : Template → Prop
  | tail _ => True
  | group text _ rest => '\x7d' ∉ text ∧ rest.Separated

@[simp] theorem names_tail (text : Str) : (tail text).names = [] := rfl

@[simp] theorem names_group (text : Str) (one : Group) (rest : Template) :
    (group text one rest).names = one.name :: rest.names := rfl

theorem wellFormed_iff (template : Template) :
    template.WellFormed ↔ template.Scans ∧ template.Separated := by
  induction template with
  | tail text =>
      constructor
      · intro formed
        exact ⟨formed.texts text List.mem_cons_self, trivial⟩
      · rintro ⟨free, -⟩
        exact ⟨by simpa [texts, Scans] using free, by simp [groups], List.nodup_nil⟩
  | group text one rest ih =>
      constructor
      · intro formed
        have here := formed.texts text List.mem_cons_self
        have distinct := List.nodup_cons.mp formed.distinct
        have later : rest.WellFormed :=
          ⟨fun text member => formed.texts text (List.mem_cons_of_mem _ member),
            fun one member => formed.groups one (List.mem_cons_of_mem _ member), distinct.2⟩
        obtain ⟨scans, separated⟩ := ih.mp later
        exact ⟨⟨here.1, formed.groups one List.mem_cons_self, distinct.1, scans⟩, here.2, separated⟩
      · rintro ⟨⟨noOpen, valid, fresh, scans⟩, noClose, separated⟩
        have later := ih.mpr ⟨scans, separated⟩
        refine ⟨?_, ?_, List.nodup_cons.mpr ⟨fresh, later.distinct⟩⟩
        · exact List.forall_mem_cons.mpr ⟨⟨noOpen, noClose⟩, later.texts⟩
        · exact List.forall_mem_cons.mpr ⟨valid, later.groups⟩

theorem Scans.nodup {template : Template} (scans : template.Scans) : template.names.Nodup := by
  induction template with
  | tail text => exact List.nodup_nil
  | group text one rest ih =>
      obtain ⟨-, -, fresh, later⟩ := scans
      exact List.nodup_cons.mpr ⟨fresh, ih later⟩

end Template

/-! ### One round of the scanner -/

section Scanner

variable {routeId rendered : Str} {parameters : List Str}

private theorem dropWhile_of_notMem {c : Char} {text : Str} (free : c ∉ text) :
    text.dropWhile (· != c) = [] := by
  rw [List.dropWhile_eq_nil_iff]
  intro other member
  simpa using fun same : other = c => free (same ▸ member)

private theorem dropWhile_at {c : Char} {text rest : Str} (free : c ∉ text) :
    (text ++ c :: rest).dropWhile (· != c) = c :: rest := by
  rw [List.dropWhile_append, dropWhile_of_notMem free]
  simp

private theorem takeWhile_at {c : Char} {text rest : Str} (free : c ∉ text) :
    (text ++ c :: rest).takeWhile (· != c) = text := by
  rw [List.takeWhile_append_of_pos, List.takeWhile_cons_of_neg (by simp), List.append_nil]
  intro other member
  simpa using fun same : other = c => free (same ▸ member)

/-- Without an opening brace the rest is text. -/
theorem openapiPathLoop_tail {text : Str} (noOpen : '\x7b' ∉ text) :
    openapiPathLoop routeId rendered parameters text =
      if text.contains '\x7d' then
        .error (Contract.about routeId (lit " has an unmatched path parameter terminator"))
      else .ok (rendered ++ text, parameters) := by
  rw [openapiPathLoop]
  split
  · rfl
  · next opened =>
    rw [dropWhile_of_notMem noOpen] at opened
    cases opened

theorem openapiPathLoop_unclosed {text rest : Str} (noOpen : '\x7b' ∉ text)
    (noClose : '\x7d' ∉ rest) :
    openapiPathLoop routeId rendered parameters (text ++ '\x7b' :: rest) =
      .error (Contract.about routeId (lit " has an unclosed path parameter")) := by
  rw [openapiPathLoop]
  split
  · next opened =>
    rw [dropWhile_at noOpen] at opened
    cases opened
  · next opened =>
    rw [dropWhile_at noOpen] at opened
    cases opened
    split
    · rfl
    · next closed =>
      rw [dropWhile_of_notMem noClose] at closed
      cases closed

/-- A group is checked and added. -/
theorem openapiPathLoop_group {text declared next : Str} (noOpen : '\x7b' ∉ text)
    (noClose : '\x7d' ∉ declared) :
    openapiPathLoop routeId rendered parameters (text ++ '\x7b' :: (declared ++ '\x7d' :: next)) =
      let name := (Str.strip (lit "*") declared).getD declared
      if declared.contains '\x7b' then
        .error (Contract.about routeId (lit " has a nested path parameter"))
      else if name.isEmpty || name.any Str.isWhitespace then
        .error (Contract.about routeId (lit " has an invalid path parameter"))
      else if parameters.contains name then
        .error (Contract.about routeId (lit " repeats path parameter " ++ name))
      else
        openapiPathLoop routeId (rendered ++ text ++ lit "\x7b" ++ name ++ lit "\x7d")
          (parameters ++ [name]) next := by
  rw [openapiPathLoop]
  split
  · next opened =>
    rw [dropWhile_at noOpen] at opened
    cases opened
  · next opened =>
    rw [dropWhile_at noOpen] at opened
    cases opened
    split
    · next closed =>
      rw [dropWhile_at noClose] at closed
      cases closed
    · next closed =>
      rw [dropWhile_at noClose] at closed
      cases closed
      rw [takeWhile_at noOpen, takeWhile_at noClose]

end Scanner

/-! ### Groups and what stands between their braces -/

namespace Group

/-- The group that a text between braces denotes. -/
def ofDeclared (text : Str) : Group :=
  match Str.strip (lit "*") text with
  | some name => ⟨true, name⟩
  | none => ⟨false, text⟩

theorem declared_ofDeclared (text : Str) : (ofDeclared text).declared = text := by
  rw [ofDeclared]
  split
  · next name stripped => exact (Str.strip_eq_some_iff.mp stripped).symm
  · rfl

theorem name_ofDeclared (text : Str) :
    (ofDeclared text).name = (Str.strip (lit "*") text).getD text := by
  rw [ofDeclared]
  split
  · next name stripped => rw [stripped, Option.getD_some]
  · next stripped => rw [stripped, Option.getD_none]

theorem Valid.ofDeclared_declared {group : Group} (valid : group.Valid) :
    ofDeclared group.declared = group := by
  obtain ⟨catchAll, name⟩ := group
  cases catchAll with
  | true =>
      have stripped : Str.strip (lit "*") (lit "*" ++ name) = some name :=
        Str.strip_eq_some_iff.mpr rfl
      simp [ofDeclared, declared, stripped]
  | false =>
      have stripped : Str.strip (lit "*") name = none := by
        rw [Option.eq_none_iff_forall_ne_some]
        intro rest found
        have first := congrArg List.head? (Str.strip_eq_some_iff.mp found)
        exact valid.plain rfl first
      simp [ofDeclared, declared, stripped]

/-- What the scanner checks between the braces makes the group valid. -/
theorem valid_ofDeclared {text : Str} (noOpen : '\x7b' ∉ text) (noClose : '\x7d' ∉ text)
    (nonempty : (ofDeclared text).name ≠ [])
    (noSpace : (ofDeclared text).name.any Str.isWhitespace = false) :
    (ofDeclared text).Valid := by
  have inside : ∀ c, c ∈ (ofDeclared text).name → c ∈ text := by
    intro c member
    rw [← declared_ofDeclared text]
    exact List.mem_append_right _ member
  refine ⟨nonempty, fun member => noOpen (inside _ member), fun member => noClose (inside _ member),
    noSpace, ?_⟩
  intro plain starts
  rw [ofDeclared] at plain starts
  split at plain
  · cases plain
  · next stripped =>
    rw [stripped] at starts
    obtain ⟨rest, rfl⟩ : ∃ rest, text = lit "*" ++ rest := by
      cases text with
      | nil => cases starts
      | cons first rest =>
          cases starts
          exact ⟨rest, rfl⟩
    rw [Str.strip_eq_some_iff.mpr rfl] at stripped
    cases stripped

theorem Valid.free {group : Group} (valid : group.Valid) :
    '\x7b' ∉ group.declared ∧ '\x7d' ∉ group.declared := by
  have noOpen := valid.noOpen
  have noClose := valid.noClose
  rw [declared]
  split
  · constructor
    · simpa [lit] using noOpen
    · simpa [lit] using noClose
  · exact ⟨noOpen, noClose⟩

end Group

/-! ### What the scanner accepts -/

section Accepts

variable {routeId : Str}

/-- The scanner accepts exactly the templates it reads, and renders them. -/
theorem openapiPathLoop_ok {rendered : Str} {parameters : List Str} {remainder result : Str}
    {names : List Str} :
    openapiPathLoop routeId rendered parameters remainder = .ok (result, names) ↔
      ∃ template : Template, template.Scans ∧ (∀ name ∈ template.names, name ∉ parameters) ∧
        remainder = template.source ∧ result = rendered ++ template.rendered ∧
        names = parameters ++ template.names := by
  constructor
  · -- By induction on the length: each group shortens what remains.
    intro accepted
    induction length : remainder.length using Nat.strong_induction_on
      generalizing rendered parameters remainder with
    | _ size ih =>
    by_cases opens : '\x7b' ∈ remainder
    · obtain ⟨text, after, rfl, noOpen⟩ := List.eq_append_cons_of_mem opens
      by_cases closes : '\x7d' ∈ after
      · obtain ⟨declared, next, rfl, noClose⟩ := List.eq_append_cons_of_mem closes
        rw [openapiPathLoop_group noOpen noClose] at accepted
        simp only [← Group.name_ofDeclared] at accepted
        split at accepted
        · cases accepted
        · next flat =>
          split at accepted
          · cases accepted
          · next named =>
            split at accepted
            · cases accepted
            · next fresh =>
              have shorter : next.length < size := by
                rw [← length]
                simp
                omega
              obtain ⟨rest, scans, apart, rfl, rfl, rfl⟩ := ih _ shorter accepted rfl
              rw [Bool.not_eq_true, Bool.or_eq_false_iff, List.isEmpty_eq_false_iff] at named
              have valid := Group.valid_ofDeclared
                (fun member => flat (List.contains_iff_mem.mpr member)) noClose named.1 named.2
              refine ⟨.group text (.ofDeclared declared) rest, ⟨noOpen, valid, ?_, scans⟩, ?_, ?_,
                ?_, ?_⟩
              · intro again
                exact apart _ again (List.mem_append_right _ List.mem_cons_self)
              · rw [Template.names_group, List.forall_mem_cons]
                refine ⟨fun member => fresh (List.contains_iff_mem.mpr member), ?_⟩
                exact fun name member known => apart name member (List.mem_append_left _ known)
              · simp [Template.source, Group.source, Group.declared_ofDeclared]
              · simp [Template.rendered, Group.rendered, lit]
              · simp
      · rw [openapiPathLoop_unclosed noOpen closes] at accepted
        cases accepted
    · rw [openapiPathLoop_tail opens] at accepted
      split at accepted
      · cases accepted
      · next noClose =>
        cases accepted
        refine ⟨.tail remainder, ⟨opens, fun member => noClose (List.contains_iff_mem.mpr member)⟩,
          by simp, rfl, rfl, by simp⟩
  · rintro ⟨template, scans, apart, rfl, rfl, rfl⟩
    induction template generalizing rendered parameters with
    | tail text =>
        rw [Template.source, openapiPathLoop_tail scans.1, if_neg]
        · simp [Template.rendered]
        · exact fun member => scans.2 (List.contains_iff_mem.mp member)
    | group text one rest ih =>
        obtain ⟨noOpen, valid, fresh, later⟩ := scans
        obtain ⟨flat, noClose⟩ := valid.free
        rw [Template.names_group, List.forall_mem_cons] at apart
        have split : (Template.group text one rest).source =
            text ++ '\x7b' :: (one.declared ++ '\x7d' :: rest.source) := by
          simp [Template.source, Group.source]
        rw [split, openapiPathLoop_group noOpen noClose]
        simp only [← Group.name_ofDeclared, valid.ofDeclared_declared]
        rw [if_neg fun member => flat (List.contains_iff_mem.mp member), if_neg, if_neg, ih later]
        · simp [Template.rendered, Group.rendered, lit]
        · intro name member known
          obtain known | same := List.mem_append.mp known
          · exact apart.2 name member known
          · obtain rfl := List.mem_singleton.mp same
            exact fresh member
        · exact fun member => apart.1 (List.contains_iff_mem.mp member)
        · rw [Bool.not_eq_true, Bool.or_eq_false_iff, List.isEmpty_eq_false_iff]
          exact ⟨valid.nonempty, valid.noSpace⟩

/-- The source of a path as the first check of `openapi_path` demands it. -/
def Absolute (path : Str) : Prop := path.head? = some '/' ∧ '?' ∉ path ∧ '#' ∉ path

theorem openapiPath_ok {path rendered : Str} {names : List Str} :
    openapiPath routeId path = .ok (rendered, names) ↔
      Absolute path ∧ ∃ template : Template, template.Scans ∧ path = template.source ∧
        rendered = template.rendered ∧ names = template.names := by
  have first : (!(lit "/").isPrefixOf path || path.any (lit "?#").contains) = false ↔
      Absolute path := by
    rw [Bool.or_eq_false_iff, Bool.not_eq_false', Absolute]
    have slash : (lit "/").isPrefixOf path = true ↔ path.head? = some '/' := by
      rw [show lit "/" = ['/'] from rfl]
      cases path with
      | nil => simp
      | cons c rest =>
          rw [List.isPrefixOf_iff_prefix, List.cons_prefix_cons, List.head?_cons, Option.some_inj]
          exact ⟨fun starts => starts.1.symm, fun same => ⟨same.symm, List.nil_prefix⟩⟩
    have marks : path.any (lit "?#").contains = false ↔ '?' ∉ path ∧ '#' ∉ path := by
      rw [show lit "?#" = ['?', '#'] from rfl, List.any_eq_false]
      constructor
      · intro none
        exact ⟨fun member => none _ member (by decide), fun member => none _ member (by decide)⟩
      · rintro ⟨question, hash⟩ c member marked
        obtain rfl | rfl : c = '?' ∨ c = '#' := by simpa using marked
        · exact question member
        · exact hash member
    rw [slash, marks]
  rw [openapiPath]
  by_cases absolute : Absolute path
  · rw [first.mpr absolute, if_neg Bool.false_ne_true, openapiPathLoop_ok]
    constructor
    · rintro ⟨template, scans, -, made, shown, named⟩
      exact ⟨absolute, template, scans, made, by simpa using shown, by simpa using named⟩
    · rintro ⟨-, template, scans, made, rfl, rfl⟩
      exact ⟨template, scans, by simp, made, by simp, by simp⟩
  · rw [if_pos (eq_true_of_ne_false (mt first.mp absolute))]
    constructor
    · intro impossible
      cases impossible
    · rintro ⟨impossible, -⟩
      exact absurd impossible absolute

theorem openapiPath_nodup {path rendered : Str} {names : List Str}
    (accepted : openapiPath routeId path = .ok (rendered, names)) : names.Nodup := by
  obtain ⟨-, template, scans, -, -, rfl⟩ := openapiPath_ok.mp accepted
  exact scans.nodup

end Accepts

/-! ### A path is read in one way -/

private theorem append_cons_inj {c : Char} {left right leftRest rightRest : Str}
    (freeLeft : c ∉ left) (freeRight : c ∉ right)
    (same : left ++ c :: leftRest = right ++ c :: rightRest) :
    left = right ∧ leftRest = rightRest := by
  have texts : left = right := by
    rw [← takeWhile_at freeLeft, ← takeWhile_at freeRight, same]
  subst texts
  exact ⟨rfl, (List.cons.inj (List.append_cancel_left same)).2⟩

theorem Template.Scans.source_inj {left right : Template} (scansLeft : left.Scans)
    (scansRight : right.Scans) (same : left.source = right.source) : left = right := by
  have opens : ∀ text one (rest : Template), (Template.group text one rest).source =
      text ++ '\x7b' :: (one.declared ++ '\x7d' :: rest.source) := by
    intro text one rest
    simp [Template.source, Group.source]
  induction left generalizing right with
  | tail text =>
      cases right with
      | tail other => rw [show text = other from same]
      | group other one rest =>
          rw [opens] at same
          have member : '\x7b' ∈ (Template.tail text).source := by simp [same]
          exact absurd member scansLeft.1
  | group text one rest ih =>
      obtain ⟨noOpen, valid, -, later⟩ := scansLeft
      rw [opens] at same
      cases right with
      | tail other =>
          have member : '\x7b' ∈ (Template.tail other).source := by simp [← same]
          exact absurd member scansRight.1
      | group other one' rest' =>
          obtain ⟨noOpen', valid', -, later'⟩ := scansRight
          rw [opens] at same
          obtain ⟨rfl, inner⟩ := append_cons_inj noOpen noOpen' same
          obtain ⟨declared, sources⟩ := append_cons_inj valid.free.2 valid'.free.2 inner
          have groups : one = one' := by
            rw [← valid.ofDeclared_declared, ← valid'.ofDeclared_declared, declared]
          rw [groups, ih later later' sources]

/-! ### Where a name occurs -/

/-- At how many places a text occurs in another. -/
def occurrences (pattern text : Str) : Nat := text.tails.countP pattern.isPrefixOf

section Occurrences

variable {name : Str}

private theorem occurrences_text {text rest : Str} (noOpen : '\x7b' ∉ text) :
    occurrences ('\x7b' :: name) (text ++ rest) = occurrences ('\x7b' :: name) rest := by
  induction text with
  | nil => rfl
  | cons c text ih =>
      rw [List.mem_cons, not_or] at noOpen
      rw [← ih noOpen.2, occurrences, occurrences, List.cons_append, List.tails,
        List.countP_cons_of_neg]
      simp [noOpen.1]

private theorem occurrences_group {group : Group} (valid : group.Valid) (noClose : '\x7d' ∉ name)
    (rest : Str) :
    occurrences ('\x7b' :: (name ++ ['\x7d'])) (group.rendered ++ rest) =
      (if group.name = name then 1 else 0) +
        occurrences ('\x7b' :: (name ++ ['\x7d'])) rest := by
  have starts : ('\x7b' :: (name ++ ['\x7d'])).isPrefixOf (group.rendered ++ rest) = true ↔
      group.name = name := by
    rw [List.isPrefixOf_iff_prefix, Group.rendered, List.cons_append, List.cons_prefix_cons]
    constructor
    · rintro ⟨-, tail, same⟩
      have aligned : name ++ '\x7d' :: tail = group.name ++ '\x7d' :: rest := by simpa using same
      exact (append_cons_inj noClose valid.noClose aligned).1.symm
    · rintro rfl
      exact ⟨rfl, rest, by simp⟩
  have later : occurrences ('\x7b' :: (name ++ ['\x7d'])) (group.name ++ ['\x7d'] ++ rest) =
      occurrences ('\x7b' :: (name ++ ['\x7d'])) rest := by
    apply occurrences_text
    simpa using valid.noOpen
  rw [← later, Nat.add_comm, occurrences, occurrences]
  have shape : group.rendered ++ rest = '\x7b' :: (group.name ++ ['\x7d'] ++ rest) := rfl
  rw [shape] at starts ⊢
  rw [List.tails, List.countP_cons]
  simp only [starts]

/-- A name occurs in braces as often as it is a parameter. -/
theorem Template.Scans.occurrences_eq {template : Template} (scans : template.Scans)
    (noClose : '\x7d' ∉ name) :
    occurrences ('\x7b' :: (name ++ ['\x7d'])) template.rendered = template.names.count name := by
  induction template with
  | tail text =>
      have text := @occurrences_text (name ++ ['\x7d']) text [] scans.1
      rw [List.append_nil] at text
      exact text
  | group text one rest ih =>
      obtain ⟨noOpen, valid, -, later⟩ := scans
      rw [Template.rendered, List.append_assoc, occurrences_text noOpen,
        occurrences_group valid noClose, ih later, Template.names_group, List.count_cons,
        Nat.add_comm]
      simp

theorem Template.Scans.occurrences_name {template : Template} (scans : template.Scans)
    (member : name ∈ template.names) :
    occurrences ('\x7b' :: (name ++ ['\x7d'])) template.rendered = 1 := by
  have noClose : '\x7d' ∉ name := by
    induction template with
    | tail text => cases member
    | group text one rest ih =>
        obtain ⟨-, valid, -, later⟩ := scans
        obtain rfl | inside := List.mem_cons.mp member
        · exact valid.noClose
        · exact ih later inside
  rw [scans.occurrences_eq noClose, List.count_eq_one_of_mem scans.nodup member]

end Occurrences

/-! ### Exactness -/

/-- `openapi_path` accepts a path exactly when it is a well-formed template, and renders
it with its names in order, each occurring once. -/
def ExactPath (routeId path : Str) : Prop :=
  ((∃ output, openapiPath routeId path = .ok output) ↔
    Absolute path ∧ ∃ template : Template, template.WellFormed ∧ path = template.source) ∧
  ∀ rendered names, openapiPath routeId path = .ok (rendered, names) →
    ∃ template : Template, template.WellFormed ∧ path = template.source ∧
      rendered = template.rendered ∧ names = template.names ∧
      ∀ name ∈ names, occurrences ('\x7b' :: (name ++ ['\x7d'])) rendered = 1

/-- A closing brace before a group is all that is wrong with a path. -/
def StrayTerminator (path : Str) : Prop :=
  Absolute path ∧ ∃ template : Template, template.Scans ∧ path = template.source ∧
    ¬ template.Separated

/-- The scanner is exact on a path unless a closing brace before a group is all that is
wrong with it. -/
theorem exactPath_iff (routeId path : Str) :
    ExactPath routeId path ↔ ¬ StrayTerminator path := by
  constructor
  · rintro ⟨accepts, -⟩ ⟨absolute, template, scans, rfl, stray⟩
    have accepted : openapiPath routeId template.source = .ok (template.rendered, template.names) :=
      openapiPath_ok.mpr ⟨absolute, template, scans, rfl, rfl, rfl⟩
    obtain ⟨-, other, formed, same⟩ := accepts.mp ⟨_, accepted⟩
    obtain ⟨scansOther, separated⟩ := other.wellFormed_iff.mp formed
    rw [scans.source_inj scansOther same] at stray
    exact stray separated
  · intro clean
    have formed : ∀ template : Template, Absolute path → template.Scans →
        path = template.source → template.WellFormed := by
      intro template absolute scans made
      refine template.wellFormed_iff.mpr ⟨scans, ?_⟩
      by_contra stray
      exact clean ⟨absolute, template, scans, made, stray⟩
    refine ⟨⟨?_, ?_⟩, ?_⟩
    · rintro ⟨⟨rendered, names⟩, accepted⟩
      obtain ⟨absolute, template, scans, made, -⟩ := openapiPath_ok.mp accepted
      exact ⟨absolute, template, formed template absolute scans made, made⟩
    · rintro ⟨absolute, template, wellFormed, made⟩
      have scans := (template.wellFormed_iff.mp wellFormed).1
      exact ⟨_, openapiPath_ok.mpr ⟨absolute, template, scans, made, rfl, rfl⟩⟩
    · intro rendered names accepted
      obtain ⟨absolute, template, scans, made, rfl, rfl⟩ := openapiPath_ok.mp accepted
      exact ⟨template, formed template absolute scans made, made, rfl, rfl,
        fun name member => scans.occurrences_name member⟩

/-- A closing brace before the group `id` is taken as text. -/
theorem stray_terminator_accepted :
    openapiPath (lit "orders") (lit "/a\x7d/\x7bid\x7d") =
      .ok (lit "/a\x7d/\x7bid\x7d", [lit "id"]) ∧
    ¬ ∃ template : Template, template.WellFormed ∧
      lit "/a\x7d/\x7bid\x7d" = template.source := by
  refine ⟨by decide +kernel, ?_⟩
  rintro ⟨template, formed, same⟩
  have valid : (Group.mk false (lit "id")).Valid :=
    ⟨by decide, by decide, by decide, by decide, by decide⟩
  have scans : (Template.group (lit "/a\x7d/") ⟨false, lit "id"⟩ (.tail [])).Scans :=
    ⟨by decide, valid, List.not_mem_nil, List.not_mem_nil, List.not_mem_nil⟩
  obtain ⟨scansOther, separated⟩ := template.wellFormed_iff.mp formed
  rw [← scans.source_inj scansOther same] at separated
  exact absurd separated.1 (by decide)

end OpenApi
