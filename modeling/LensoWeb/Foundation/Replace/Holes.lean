import LensoWeb.Foundation.Replace

/-!
# Templates with holes

A template is a text with named holes. Its holes can be filled all at once, or one after
another by replacing the pattern of each name. A value that is filled in is read again by
every later replacement, so the two agree only as long as no value, with what stands around
it, makes up the pattern of a hole that is still to be filled.
-/

namespace Foundation.Replace

/-- The patterns that stand for names. None is the beginning of another. -/
structure Holes (ν α : Type*) where
  mark : α
  body : ν → List α
  free : ∀ name, mark ∉ body name
  apart : ∀ name other, body name <+: body other → name = other

section Fill

variable {ν α : Type*}

/-- Texts in the place of holes, each with the text behind the hole. -/
def fill (value : ν → List α) (items : List (ν × List α)) : List α :=
  items.flatMap fun item => value item.1 ++ item.2

@[simp] theorem fill_nil (value : ν → List α) : fill value [] = [] := rfl

@[simp] theorem fill_cons (value : ν → List α) (name : ν) (text : List α)
    (rest : List (ν × List α)) :
    fill value ((name, text) :: rest) = value name ++ (text ++ fill value rest) := by
  rw [fill, List.flatMap_cons, List.append_assoc]
  rfl

@[simp] theorem fill_append (value : ν → List α) (front back : List (ν × List α)) :
    fill value (front ++ back) = fill value front ++ fill value back :=
  List.flatMap_append

theorem fill_congr {value other : ν → List α} {items : List (ν × List α)}
    (same : ∀ name ∈ items.map Prod.fst, value name = other name) :
    fill value items = fill other items := by
  refine List.flatMap_congr fun item member => ?_
  rw [same item.1 (List.mem_map_of_mem member)]

theorem fill_update_of_notMem [DecidableEq ν] {value : ν → List α}
    {items : List (ν × List α)} {name : ν} (text : List α) (absent : name ∉ items.map Prod.fst) :
    fill (Function.update value name text) items = fill value items := by
  refine fill_congr fun other member => ?_
  apply Function.update_of_ne
  rintro rfl
  exact absent member

/-- In a list without duplicates, a name is not among those in front of it. -/
theorem notMem_of_nodup {done later : List ν} {name : ν} (once : (done ++ name :: later).Nodup) :
    name ∉ done :=
  fun early => List.disjoint_of_nodup_append once early List.mem_cons_self

/-- The items around a name that occurs once. -/
theorem exists_split {items : List (ν × List α)} {name : ν}
    (distinct : (items.map Prod.fst).Nodup) (member : name ∈ items.map Prod.fst) :
    ∃ front text back, items = front ++ (name, text) :: back ∧
      name ∉ front.map Prod.fst ∧ name ∉ back.map Prod.fst := by
  obtain ⟨⟨_, text⟩, inside, rfl⟩ := List.mem_map.mp member
  obtain ⟨front, back, rfl⟩ := List.append_of_mem inside
  rw [List.map_append, List.map_cons] at distinct
  refine ⟨front, text, back, rfl, notMem_of_nodup distinct, ?_⟩
  exact (List.nodup_cons.mp (List.nodup_append.mp distinct).2.1).1

end Fill

namespace Holes

variable {ν α : Type*} [DecidableEq α] (holes : Holes ν α)

/-- The pattern of a name. -/
def hole (name : ν) : List α := holes.mark :: holes.body name

/-- Replace the pattern of one name. -/
def round (value : ν → List α) (text : List α) (name : ν) : List α :=
  replace (holes.hole name) (value name) text

/-- Replace the patterns of the names one after another. -/
def rounds (value : ν → List α) (order : List ν) (text : List α) : List α :=
  order.foldl (holes.round value) text

/-- The values of some names, and the patterns of all others. -/
def partly [DecidableEq ν] (value : ν → List α) (done : List ν) (name : ν) : List α :=
  if name ∈ done then value name else holes.hole name

/-- The values of all names but one, which keeps its pattern. -/
def leave [DecidableEq ν] (value : ν → List α) (name : ν) : ν → List α :=
  Function.update value name (holes.hole name)

/-- The pattern of a name stands nowhere but in its hole, when everything else is filled in;
or its value is the pattern itself. -/
def Separate [DecidableEq ν] (value : ν → List α) (items : List (ν × List α)) (name : ν) : Prop :=
  value name = holes.hole name ∨
    occurrences (holes.hole name) (fill (holes.leave value name) items) ≤
      (items.map Prod.fst).count name

instance [DecidableEq ν] (value : ν → List α) (items : List (ν × List α)) (name : ν) :
    Decidable (holes.Separate value items name) := inferInstanceAs (Decidable (_ ∨ _))

/-! ### One round -/

variable {holes} {value : ν → List α}

omit [DecidableEq α] in
theorem not_prefix_of_ne {name other : ν} (different : name ≠ other) :
    ¬ holes.body name <+: holes.body other :=
  fun found => different (holes.apart name other found)

theorem round_append_of_notMem {front : List α} (free : holes.mark ∉ front) (back : List α)
    (name : ν) : holes.round value (front ++ back) name = front ++ holes.round value back name :=
  replace_append_of_notMem _ free back

theorem round_append_mark (front back : List α) (name : ν) :
    holes.round value (front ++ holes.mark :: back) name =
      holes.round value front name ++ holes.round value (holes.mark :: back) name :=
  replace_append_mark _ (holes.free name) front back

theorem round_append_hole (front back : List α) (name other : ν) :
    holes.round value (front ++ (holes.hole other ++ back)) name =
      holes.round value front name ++ holes.round value (holes.hole other ++ back) name :=
  round_append_mark front _ name

theorem round_hole_append (name : ν) (back : List α) :
    holes.round value (holes.hole name ++ back) name =
      value name ++ holes.round value back name :=
  replace_pattern_append _ _ _ back

theorem round_other_append {name other : ν} (different : name ≠ other) (back : List α) :
    holes.round value (holes.hole other ++ back) name =
      holes.hole other ++ holes.round value back name :=
  replace_other_append _ (holes.free other) (not_prefix_of_ne different)
    (not_prefix_of_ne different.symm) back

theorem round_of_eq_hole {name : ν} (own : value name = holes.hole name) (text : List α) :
    holes.round value text name = text := by
  rw [round, own]
  exact replace_self _ _ text

theorem occurrences_append_mark (front back : List α) (name : ν) :
    occurrences (holes.hole name) (front ++ holes.mark :: back) =
      occurrences (holes.hole name) front + occurrences (holes.hole name) (holes.mark :: back) :=
  Replace.occurrences_append_mark (holes.free name) front back

theorem occurrences_append_hole (front back : List α) (name other : ν) :
    occurrences (holes.hole name) (front ++ (holes.hole other ++ back)) =
      occurrences (holes.hole name) front +
        occurrences (holes.hole name) (holes.hole other ++ back) :=
  occurrences_append_mark front _ name

theorem occurrences_hole_append (name : ν) (back : List α) :
    occurrences (holes.hole name) (holes.hole name ++ back) =
      1 + occurrences (holes.hole name) back :=
  occurrences_pattern_append (holes.free name) back

theorem occurrences_other_append {name other : ν} (different : name ≠ other) (back : List α) :
    occurrences (holes.hole name) (holes.hole other ++ back) =
      occurrences (holes.hole name) back :=
  Replace.occurrences_other_append (holes.free other) (not_prefix_of_ne different)
    (not_prefix_of_ne different.symm) back

/-- Filling in other holes adds occurrences of a pattern and takes none away. -/
theorem occurrences_fill_le {some more : ν → List α} {name : ν}
    (grows : ∀ other, some other = more other ∨ some other = holes.hole other ∧ name ≠ other)
    (front : List α) (items : List (ν × List α)) (back : List α) :
    occurrences (holes.hole name) (front ++ (fill some items ++ back)) ≤
      occurrences (holes.hole name) (front ++ (fill more items ++ back)) := by
  induction items generalizing front with
  | nil => exact Nat.le_refl _
  | cons item rest ih =>
      obtain ⟨other, text⟩ := item
      rw [fill_cons, fill_cons]
      obtain same | ⟨block, different⟩ := grows other
      · have longer := ih (front ++ (some other ++ text))
        rw [← same]
        simpa only [List.append_assoc] using longer
      · have later := ih text
        have inner := occurrences_add_le (holes.hole name) (more other)
          (text ++ (fill more rest ++ back))
        have whole := occurrences_add_le (holes.hole name) front
          (more other ++ (text ++ (fill more rest ++ back)))
        rw [block]
        simp only [List.append_assoc]
        rw [occurrences_append_hole, occurrences_other_append different]
        omega

theorem rounds_append (value : ν → List α) (done later : List ν) (text : List α) :
    holes.rounds value (done ++ later) text =
      holes.rounds value later (holes.rounds value done text) :=
  List.foldl_append

/-- The last round. -/
theorem rounds_snoc (value : ν → List α) (done : List ν) (name : ν) (text : List α) :
    holes.rounds value (done ++ [name]) text =
      holes.round value (holes.rounds value done text) name :=
  List.foldl_append

variable [DecidableEq ν]

/-- A hole that is still open is an occurrence of its pattern. -/
theorem count_le_occurrences {items : List (ν × List α)} {name : ν}
    (own : value name = holes.hole name) :
    (items.map Prod.fst).count name ≤ occurrences (holes.hole name) (fill value items) := by
  induction items with
  | nil => exact Nat.zero_le _
  | cons item rest ih =>
      obtain ⟨other, text⟩ := item
      rw [List.map_cons, fill_cons, List.count_cons]
      have joined := occurrences_add_le (holes.hole name) text (fill value rest)
      have whole := occurrences_add_le (holes.hole name) (value other) (text ++ fill value rest)
      by_cases same : other = name
      · subst same
        rw [own, occurrences_hole_append, if_pos (beq_self_eq_true other)]
        omega
      · rw [if_neg (by simpa using same)]
        omega

/-- A round fills its hole and leaves the rest alone, if the pattern stands nowhere else. -/
theorem round_fill {items : List (ν × List α)} {name : ν} {some : ν → List α}
    (distinct : (items.map Prod.fst).Nodup) (own : some name = holes.hole name) (back : List α)
    (once : occurrences (holes.hole name) (fill some items ++ back) ≤
      (items.map Prod.fst).count name) :
    holes.round value (fill some items ++ back) name =
      fill (Function.update some name (value name)) items ++ back := by
  by_cases member : name ∈ items.map Prod.fst
  · rw [List.count_eq_one_of_mem distinct member] at once
    obtain ⟨before, text, after, rfl, early, late⟩ := exists_split distinct member
    rw [fill_append, fill_cons, own] at once ⊢
    simp only [List.append_assoc] at once ⊢
    rw [occurrences_append_hole, occurrences_hole_append] at once
    rw [round_append_hole, round_hole_append, round, round,
      replace_of_occurrences_eq_zero (by omega), replace_of_occurrences_eq_zero (by omega),
      fill_append, fill_cons, fill_update_of_notMem _ early, fill_update_of_notMem _ late,
      Function.update_self]
    simp only [List.append_assoc]
  · rw [List.count_eq_zero.mpr member] at once
    rw [round, replace_of_occurrences_eq_zero (by omega), fill_update_of_notMem _ member]

/-! ### One hole left -/

section Leave

omit [DecidableEq α]

@[simp] theorem leave_self (value : ν → List α) (name : ν) :
    holes.leave value name name = holes.hole name :=
  Function.update_self name _ value

@[simp] theorem leave_of_ne {name other : ν} (different : other ≠ name) :
    holes.leave value name other = value other :=
  Function.update_of_ne different _ value

theorem update_leave (value : ν → List α) (name : ν) :
    Function.update (holes.leave value name) name (value name) = value := by
  rw [leave, Function.update_idem, Function.update_eq_self]

end Leave

/-- With more holes open there are no more occurrences of a pattern. -/
theorem occurrences_leave_leave_le (value : ν → List α) (name other : ν)
    (items : List (ν × List α)) :
    occurrences (holes.hole name) (fill (holes.leave (holes.leave value other) name) items) ≤
      occurrences (holes.hole name) (fill (holes.leave value name) items) := by
  have grows : ∀ next, holes.leave (holes.leave value other) name next =
      holes.leave value name next ∨
        holes.leave (holes.leave value other) name next = holes.hole next ∧ name ≠ next := by
    intro next
    by_cases own : next = name
    · subst own
      exact .inl (by rw [leave_self, leave_self])
    · rw [leave_of_ne own, leave_of_ne own]
      by_cases same : next = other
      · subst same
        exact .inr ⟨leave_self value next, Ne.symm own⟩
      · exact .inl (leave_of_ne same)
  simpa only [List.nil_append, List.append_nil] using occurrences_fill_le grows [] items []

theorem occurrences_partly_le {done : List ν} {name : ν} (fresh : name ∉ done)
    (items : List (ν × List α)) :
    occurrences (holes.hole name) (fill (holes.partly value done) items) ≤
      occurrences (holes.hole name) (fill (holes.leave value name) items) := by
  have grows : ∀ next, holes.partly value done next = holes.leave value name next ∨
      holes.partly value done next = holes.hole next ∧ name ≠ next := by
    intro next
    by_cases own : next = name
    · subst own
      exact .inl (by rw [partly, if_neg fresh, leave_self])
    · rw [leave_of_ne own, partly]
      split
      · exact .inl rfl
      · exact .inr ⟨rfl, Ne.symm own⟩
  simpa only [List.nil_append, List.append_nil] using occurrences_fill_le grows [] items []

/-! ### All rounds -/

omit [DecidableEq α] in
theorem partly_snoc (value : ν → List α) (done : List ν) (name : ν) :
    holes.partly value (done ++ [name]) =
      Function.update (holes.partly value done) name (value name) := by
  funext other
  by_cases same : other = name
  · subst same
    rw [Function.update_self, partly, if_pos (by simp)]
  · rw [Function.update_of_ne same, partly, partly]
    simp [same]

/-- Rounds that each find their pattern in its hole only. -/
theorem rounds_fill {items : List (ν × List α)} {order : List ν}
    (distinct : (items.map Prod.fst).Nodup) (once : order.Nodup)
    (ready : ∀ done name later, order = done ++ name :: later →
      value name = holes.hole name ∨
        occurrences (holes.hole name) (fill (holes.partly value done) items) ≤
          (items.map Prod.fst).count name) :
    holes.rounds value order (fill holes.hole items) = fill (holes.partly value order) items := by
  induction order using List.reverseRecOn with
  | nil => exact fill_congr fun name _ => (if_neg List.not_mem_nil).symm
  | append_singleton done name ih =>
      have fresh : name ∉ done := notMem_of_nodup once
      have own : holes.partly value done name = holes.hole name := if_neg fresh
      have reached := ih (List.nodup_append.mp once).1 fun before next later whole =>
        ready before next (later ++ [name]) (by rw [whole]; simp)
      rw [rounds_snoc, reached, partly_snoc]
      obtain inert | found := ready done name [] rfl
      · rw [round_of_eq_hole inert, inert, ← own, Function.update_eq_self]
      · rw [← List.append_nil (fill (holes.partly value done) items),
          round_fill distinct own [] (by rwa [List.append_nil]), List.append_nil]

/-- If no value makes up the pattern of another name, even with everything around it filled
in, every order of the rounds fills all holes. -/
theorem rounds_eq_fill {items : List (ν × List α)} {order : List ν}
    (distinct : (items.map Prod.fst).Nodup) (once : order.Nodup)
    (covered : ∀ name ∈ items.map Prod.fst, name ∈ order ∨ value name = holes.hole name)
    (separate : ∀ name ∈ order, holes.Separate value items name) :
    holes.rounds value order (fill holes.hole items) = fill value items := by
  have all : fill (holes.partly value order) items = fill value items := by
    refine fill_congr fun name member => ?_
    rw [partly]
    split
    · rfl
    · next absent => exact ((covered name member).resolve_left absent).symm
  rw [rounds_fill distinct once ?_, all]
  intro done name later whole
  have fresh : name ∉ done := by
    rw [whole] at once
    exact notMem_of_nodup once
  obtain inert | found := separate name (by rw [whole]; simp)
  · exact .inl inert
  · exact .inr (Nat.le_trans (occurrences_partly_le fresh items) found)

end Holes

end Foundation.Replace
