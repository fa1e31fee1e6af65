import LensoWeb.Foundation.Replace.Orders

/-!
# The last round

Here every value has a mark, and every order of the rounds fills all holes. Then no value,
with what stands around it in the filled text, makes up the pattern of another name.

Suppose one did, and take the leftmost place where that happens. Whatever stands in front of
it comes out right in any order. In an order that ends with the name of the value behind that
place and then the name that is made up, the last round meets the place as it is in the
filled text, as far as the next mark, and still has its own hole to fill. So it hits twice,
the marks allow that for a value with a single mark only, and what it writes has to be what
it found.
-/

namespace Foundation.Replace.Holes

variable {ν α : Type*} [DecidableEq α] {holes : Holes ν α} {value : ν → List α}

/-! ### Text at a mark -/

omit [DecidableEq α] in
/-- A text that is empty or begins with a mark. -/
def AtMark (holes : Holes ν α) (text : List α) : Prop :=
  text = [] ∨ ∃ rest, text = holes.mark :: rest

omit [DecidableEq α] in
theorem AtMark.append {front : List α} (start : holes.AtMark front) (filled : front ≠ [])
    (back : List α) : holes.AtMark (front ++ back) := by
  obtain rfl | ⟨rest, rfl⟩ := start
  · exact absurd rfl filled
  · exact .inr ⟨rest ++ back, rfl⟩

omit [DecidableEq α] in
/-- The text in front of the first mark can be read off. -/
theorem AtMark.append_inj {front front' back back' : List α} (start : holes.AtMark back)
    (start' : holes.AtMark back') (free : holes.mark ∉ front) (free' : holes.mark ∉ front')
    (same : front ++ back = front' ++ back') : front = front' ∧ back = back' := by
  induction front generalizing front' with
  | nil =>
      cases front' with
      | nil => exact ⟨rfl, same⟩
      | cons first rest =>
          rw [List.nil_append, List.cons_append] at same
          obtain rfl | ⟨behind, rfl⟩ := start
          · cases same
          · rw [(List.cons.inj same).1] at free'
            exact absurd List.mem_cons_self free'
  | cons first rest ih =>
      cases front' with
      | nil =>
          rw [List.nil_append, List.cons_append] at same
          obtain rfl | ⟨behind, rfl⟩ := start'
          · cases same
          · rw [(List.cons.inj same).1] at free
            exact absurd List.mem_cons_self free
      | cons first' rest' =>
          obtain ⟨rfl, later⟩ := List.cons.inj same
          obtain ⟨rfl, rfl⟩ := ih (fun member => free (List.mem_cons_of_mem _ member))
            (fun member => free' (List.mem_cons_of_mem _ member)) later
          exact ⟨rfl, rfl⟩

omit [DecidableEq α] in
/-- A pattern does not reach across the next mark. -/
theorem AtMark.body_isPrefix {front back : List α} (start : holes.AtMark back) {name : ν}
    (found : holes.body name <+: front ++ back) : holes.body name <+: front := by
  obtain rfl | ⟨rest, rfl⟩ := start
  · rwa [List.append_nil] at found
  · exact (prefix_append_mark_iff (holes.free name)).mp found

/-- A round whose value begins with a mark leaves text at a mark. -/
theorem AtMark.round {text : List α} (start : holes.AtMark text) {name : ν}
    (marked : holes.AtMark (value name)) (filled : value name ≠ []) :
    holes.AtMark (holes.round value text name) := by
  obtain rfl | ⟨rest, rfl⟩ := start
  · exact .inl rfl
  · by_cases found : holes.hole name <+: holes.mark :: rest
    · obtain ⟨behind, whole⟩ := found
      rw [← whole, round_hole_append]
      exact marked.append filled _
    · rw [Holes.round, replace_cons_of_absent found]
      exact .inr ⟨_, rfl⟩

omit [DecidableEq α] in
theorem atMark_hole (name : ν) : holes.AtMark (holes.hole name) := .inr ⟨_, rfl⟩

/-- A place where the pattern stands. -/
theorem exists_of_occurrences_pos {pattern text : List α} (found : 0 < occurrences pattern text) :
    ∃ front back, text = front ++ (pattern ++ back) := by
  induction text with
  | nil => exact absurd found (Nat.lt_irrefl 0)
  | cons first rest ih =>
      by_cases here : pattern <+: first :: rest
      · obtain ⟨back, whole⟩ := here
        exact ⟨[], back, whole.symm⟩
      · rw [occurrences, if_neg here, Nat.zero_add] at found
        obtain ⟨front, back, whole⟩ := ih found
        exact ⟨first :: front, back, by rw [whole, List.cons_append]⟩

/-- Text in which no pattern begins adds no occurrence. -/
theorem occurrences_append_of_absent {pattern front back : List α}
    (none : ∀ before first rest, front = before ++ first :: rest →
      ¬ pattern <+: first :: (rest ++ back)) :
    occurrences pattern (front ++ back) = occurrences pattern back := by
  induction front with
  | nil => rfl
  | cons first rest ih =>
      rw [List.cons_append, occurrences, if_neg (none [] first rest rfl), Nat.zero_add]
      exact ih fun before next later whole => none (first :: before) next later (by rw [whole]; rfl)

/-! ### Two hits -/

/-- A round that has to leave a second occurrence of its pattern standing writes the pattern
itself. -/
theorem eq_hole_of_round {name : ν} {text front r back back' : List α}
    (free : holes.mark ∉ r) (start : holes.AtMark back)
    (start' : holes.AtMark (value name) → holes.AtMark back')
    (marked : holes.mark ∈ value name) (twice : 2 ≤ occurrences (holes.hole name) text)
    (few : (holes.round value text name).count holes.mark + 1 ≤
      text.count holes.mark + (value name).count holes.mark)
    (whole : text = front ++ (holes.hole name ++ (r ++ back)))
    (kept : holes.round value text name =
      holes.round value front name ++ (holes.hole name ++ (r ++ back'))) :
    value name = holes.hole name := by
  have single : (value name).count holes.mark = 1 := by
    have counted : (holes.round value text name).count holes.mark + _ = _ :=
      count_round text name
    obtain ⟨more, several⟩ := Nat.exists_eq_add_of_le (List.one_le_count_iff.mpr marked)
    have spread : 2 * more ≤ occurrences (holes.hole name) text * more :=
      Nat.mul_le_mul_right more twice
    rw [several, Nat.mul_add] at counted
    omega
  obtain ⟨before, after, own, early⟩ := List.eq_append_cons_of_mem marked
  have late : holes.mark ∉ after := by
    rw [own, List.count_append, List.count_cons_self, List.count_eq_zero.mpr early] at single
    apply List.count_eq_zero.mp
    omega
  have written : value name ++ (r ++ holes.round value back name) =
      holes.hole name ++ (r ++ back') := by
    rw [whole, round_append_hole, round_hole_append, round_append_of_notMem free] at kept
    exact List.append_cancel_left kept
  have opening : before = [] := by
    have behind : holes.AtMark (holes.mark :: (after ++ (r ++ holes.round value back name))) :=
      .inr ⟨_, rfl⟩
    have behind' : holes.AtMark (holes.hole name ++ (r ++ back')) :=
      (atMark_hole name).append (List.cons_ne_nil _ _) _
    rw [own, List.append_assoc] at written
    exact (behind.append_inj behind' early List.not_mem_nil written).1
  subst opening
  have first : holes.AtMark (value name) := .inr ⟨after, own⟩
  have later : holes.AtMark (holes.round value back name) :=
    start.round first (by rw [own]; exact List.cons_ne_nil _ _)
  have inside : after ++ r = holes.body name ++ r := by
    rw [own, hole, List.nil_append, List.cons_append, List.cons_append, List.cons.injEq,
      ← List.append_assoc, ← List.append_assoc] at written
    refine (later.append_inj (start' first) ?_ ?_ written.2).1
    · exact fun member => (List.mem_append.mp member).elim late free
    · exact fun member => (List.mem_append.mp member).elim (holes.free name) free
  rw [own, List.append_cancel_right inside]
  rfl

/-! ### All rounds but one -/

variable [DecidableEq ν] {items : List (ν × List α)}

theorem rounds_eq_fill_leave {order : List ν} {name : ν}
    (distinct : (items.map Prod.fst).Nodup) (once : order.Nodup) (absent : name ∉ order)
    (covered : ∀ other ∈ items.map Prod.fst, other ≠ name → other ∈ order)
    (separate : ∀ other ∈ order, holes.Separate value items other) :
    holes.rounds value order (fill holes.hole items) = fill (holes.leave value name) items := by
  have different : ∀ other ∈ order, other ≠ name := by
    rintro other member rfl
    exact absent member
  have same : holes.rounds value order (fill holes.hole items) =
      holes.rounds (holes.leave value name) order (fill holes.hole items) :=
    rounds_congr (fun other member => (leave_of_ne (different other member)).symm) _
  rw [same]
  refine rounds_eq_fill distinct once ?_ ?_
  · intro other member
    by_cases same : other = name
    · subst same
      exact .inr (leave_self value other)
    · exact .inl (covered other member same)
  · intro other member
    rw [Separate, leave_of_ne (different other member)]
    refine (separate other member).imp_right fun found => ?_
    exact Nat.le_trans (occurrences_leave_leave_le value other name items) found

omit [DecidableEq ν] in
theorem notMem_of_snoc_perm {order names : List ν} {name : ν} (distinct : names.Nodup)
    (perm : (order ++ [name]).Perm names) : name ∉ order :=
  notMem_of_nodup (perm.nodup_iff.mpr distinct)

omit [DecidableEq α] in
theorem fill_partly_of_perm {order : List ν} {name : ν} (distinct : (items.map Prod.fst).Nodup)
    (perm : (order ++ [name]).Perm (items.map Prod.fst)) :
    fill (holes.partly value order) items = fill (holes.leave value name) items := by
  refine fill_congr fun other member => ?_
  by_cases same : other = name
  · subst same
    rw [leave_self, partly, if_neg (notMem_of_snoc_perm distinct perm)]
  · have early : other ∈ order := by
      have somewhere := perm.mem_iff.mpr member
      simpa [same] using somewhere
    rw [leave_of_ne same, partly, if_pos early]

theorem count_fill_leave {name : ν} (distinct : (items.map Prod.fst).Nodup)
    (member : name ∈ items.map Prod.fst) :
    (fill value items).count holes.mark + 1 =
      (fill (holes.leave value name) items).count holes.mark +
        (value name).count holes.mark := by
  have own : holes.leave value name name = holes.hole name := leave_self value name
  have grown := count_fill_update distinct member own (value name)
  rwa [update_leave] at grown

/-- The marks before the last round. -/
theorem count_fill_lt {order : List ν} {name : ν} (distinct : (items.map Prod.fst).Nodup)
    (perm : (order ++ [name]).Perm (items.map Prod.fst))
    (marked : ∀ other ∈ items.map Prod.fst, holes.mark ∈ value other) :
    (fill value items).count holes.mark + 1 ≤
      (holes.rounds value order (fill holes.hole items)).count holes.mark +
        (value name).count holes.mark := by
  have once := perm.nodup_iff.mpr distinct
  have member : name ∈ items.map Prod.fst := perm.mem_iff.mp (by simp)
  have grown : (fill value items).count holes.mark + 1 = _ := count_fill_leave distinct member
  have kept : (fill (holes.partly value ([] ++ order)) items).count holes.mark ≤
      (holes.rounds value ([] ++ order) (fill holes.hole items)).count holes.mark :=
    count_le_rounds distinct (List.nodup_append.mp once).1
      (fill_congr fun other _ => (if_neg List.not_mem_nil).symm)
      fun other member => marked other (perm.mem_iff.mp (List.mem_append_left _ member))
  rw [List.nil_append, fill_partly_of_perm distinct perm] at kept
  omega

omit [DecidableEq α] in
theorem erase_snoc_perm {names : List ν} {name : ν} (member : name ∈ names) :
    (names.erase name ++ [name]).Perm names :=
  (List.perm_append_singleton name _).trans (List.perm_cons_erase member).symm

/-- The round of a name that has no hole here finds nothing to do, if it is separate. -/
theorem Separate.round_fill_leave {name other : ν} (separate : holes.Separate value items other)
    (absent : other ∉ items.map Prod.fst) :
    holes.round value (fill (holes.leave value name) items) other =
      fill (holes.leave value name) items := by
  obtain inert | found := separate
  · exact round_of_eq_hole inert _
  · have fewer : occurrences (holes.hole other) _ ≤
        occurrences (holes.hole other) (fill (holes.leave value other) items) :=
      occurrences_leave_leave_le value other name items
    rw [List.count_eq_zero.mpr absent] at found
    rw [leave, fill_update_of_notMem _ absent] at fewer
    apply replace_of_occurrences_eq_zero
    omega

/-- An order that ends with the name behind some text, and then with a given name. The text
comes out right, and so does the value behind it. -/
theorem exists_order {front back : List (ν × List α)} {name : ν}
    (distinct : ((front ++ back).map Prod.fst).Nodup)
    (member : name ∈ (front ++ back).map Prod.fst)
    (clean : ∀ other ∈ (front ++ back).map Prod.fst, other ≠ name →
      holes.Separate value front other) :
    ∃ order text, (order ++ [name]).Perm ((front ++ back).map Prod.fst) ∧
      holes.rounds value order (fill holes.hole (front ++ back)) =
        fill (holes.leave value name) front ++ text ∧
      (back = [] → text = []) ∧
      ∀ next behind more, back = (next, behind) :: more →
        ∃ rest, text = holes.leave value name next ++ rest ∧
          (more.map Prod.fst).count name ≤ occurrences (holes.hole name) rest := by
  generalize listed : (front ++ back).map Prod.fst = names at distinct member clean
  have inFront : ∀ other ∈ front.map Prod.fst, other ∈ names := by
    intro other early
    rw [← listed, List.map_append]
    exact List.mem_append_left _ early
  have frontDistinct : (front.map Prod.fst).Nodup := by
    rw [← listed, List.map_append] at distinct
    exact (List.nodup_append.mp distinct).1
  have lastPerm := erase_snoc_perm member
  have filled : ∀ order : List ν, order.Nodup → name ∉ order → (∀ other ∈ order, other ∈ names) →
      (∀ other ∈ front.map Prod.fst, other ≠ name → other ∈ order) →
      holes.rounds value order (fill holes.hole front) = fill (holes.leave value name) front := by
    intro order once absent listed covered
    refine rounds_eq_fill_leave frontDistinct once absent covered fun other early => ?_
    apply clean other (listed other early)
    rintro rfl
    exact absent early
  have fresh : name ∉ names.erase name := distinct.not_mem_erase
  cases back with
  | nil =>
      refine ⟨names.erase name, [], lastPerm, ?_, fun _ => rfl, by simp⟩
      rw [List.append_nil, List.append_nil]
      refine filled _ (distinct.erase name) fresh (fun other => List.mem_of_mem_erase) ?_
      exact fun other early different => (List.mem_erase_of_ne different).mpr (inFront other early)
  | cons item more =>
      obtain ⟨next, behind⟩ := item
      have later : next ∈ names := by
        rw [← listed]
        simp
      have early : next ∉ front.map Prod.fst := by
        rw [← listed, List.map_append, List.map_cons] at distinct
        exact notMem_of_nodup distinct
      rw [fill_append, fill_cons]
      by_cases same : next = name
      · subst same
        refine ⟨names.erase next, holes.hole next ++
          holes.rounds value (names.erase next) (behind ++ fill holes.hole more), lastPerm, ?_,
          by simp, ?_⟩
        · rw [rounds_append_hole fresh, filled _ (distinct.erase next) fresh
            (fun other => List.mem_of_mem_erase) fun other inside different =>
              (List.mem_erase_of_ne different).mpr (inFront other inside)]
        · rintro _ _ _ ⟨⟩
          exact ⟨_, by rw [leave_self], count_le_occurrences_rounds fresh behind more⟩
      · have member' : next ∈ names.erase name := (List.mem_erase_of_ne same).mpr later
        have perm := erase_snoc_perm member'
        have fresh' : next ∉ (names.erase name).erase next :=
          (distinct.erase name).not_mem_erase
        have absent : name ∉ (names.erase name).erase next :=
          fun inside => fresh (List.mem_of_mem_erase inside)
        refine ⟨(names.erase name).erase next ++ [next], value next ++ holes.rounds value
          ((names.erase name).erase next ++ [next]) (behind ++ fill holes.hole more),
          (perm.append_right [name]).trans lastPerm, ?_, by simp, ?_⟩
        · have intact : holes.round value (fill (holes.leave value name) front) next =
              fill (holes.leave value name) front := (clean next later same).round_fill_leave early
          rw [rounds_snoc, rounds_append_hole fresh', filled _ ((distinct.erase name).erase next)
            absent (fun other inside => List.mem_of_mem_erase (List.mem_of_mem_erase inside)) ?_,
            round_append_hole, intact, round_hole_append, ← rounds_snoc]
          intro other inside different
          refine (List.mem_erase_of_ne ?_).mpr
            ((List.mem_erase_of_ne different).mpr (inFront other inside))
          rintro rfl
          exact early inside
        · rintro _ _ _ ⟨⟩
          refine ⟨_, by rw [leave_of_ne same], count_le_occurrences_rounds ?_ behind more⟩
          intro inside
          obtain inside | inside := List.mem_append.mp inside
          · exact absent inside
          · exact same (List.mem_singleton.mp inside).symm

/-! ### From left to right -/

/-- Every order of the rounds fills all holes. -/
def Confluent (holes : Holes ν α) (value : ν → List α) (items : List (ν × List α)) : Prop :=
  ∀ order : List ν, order.Perm (items.map Prod.fst) →
    holes.rounds value order (fill holes.hole items) = fill value items

/-- In the filled text no pattern begins in the front part, but in its own hole. -/
def CleanUpTo (holes : Holes ν α) (value : ν → List α) (front back : List (ν × List α)) : Prop :=
  ∀ name ∈ (front ++ back).map Prod.fst, value name ≠ holes.hole name →
    occurrences (holes.hole name) (fill (holes.leave value name) (front ++ back)) ≤
      (front.map Prod.fst).count name +
        occurrences (holes.hole name) (fill (holes.leave value name) back)

section Step

variable {front back : List (ν × List α)} {last name : ν} {text inside beyond : List α}

theorem CleanUpTo.count_front (clean : holes.CleanUpTo value front back)
    (member : name ∈ (front ++ back).map Prod.fst) (active : value name ≠ holes.hole name) :
    occurrences (holes.hole name) (fill (holes.leave value name) front) ≤
      (front.map Prod.fst).count name := by
  have whole := clean name member active
  have parts := occurrences_add_le (holes.hole name) (fill (holes.leave value name) front)
    (fill (holes.leave value name) back)
  rw [fill_append] at whole
  omega

theorem CleanUpTo.separate (clean : holes.CleanUpTo value front back) :
    ∀ other ∈ (front ++ back).map Prod.fst, other ≠ name → holes.Separate value front other :=
  fun _ member _ => or_iff_not_imp_left.mpr (clean.count_front member)

/-- What is clean so far reaches up to a mark of the next value. -/
theorem CleanUpTo.count_inside (clean : holes.CleanUpTo value front ((last, text) :: back))
    (member : name ∈ (front ++ (last, text) :: back).map Prod.fst)
    (active : value name ≠ holes.hole name) (different : name ≠ last)
    (own : value last = inside ++ holes.mark :: beyond)
    (quiet : occurrences (holes.hole name) inside = 0) :
    occurrences (holes.hole name) (fill (holes.leave value name) front ++ inside) ≤
      (front.map Prod.fst).count name := by
  have whole := clean name member active
  rw [fill_append, fill_cons, leave_of_ne (Ne.symm different), own, List.append_assoc,
    List.cons_append, occurrences_append_mark inside, quiet, ← List.append_assoc,
    occurrences_append_mark] at whole
  omega

omit [DecidableEq ν] in
/-- The last round of an order that fills all holes. -/
theorem Confluent.last_round {items : List (ν × List α)} {order : List ν}
    (confluent : holes.Confluent value items)
    (perm : (order ++ [name]).Perm (items.map Prod.fst)) :
    holes.round value (holes.rounds value order (fill holes.hole items)) name =
      fill value items := by
  rw [← rounds_snoc]
  exact confluent _ perm

/-- The last round fills the hole of its name in what is clean so far. -/
theorem CleanUpTo.round_inside (clean : holes.CleanUpTo value front ((last, text) :: back))
    (distinct : ((front ++ (last, text) :: back).map Prod.fst).Nodup)
    (member : name ∈ (front ++ (last, text) :: back).map Prod.fst)
    (active : value name ≠ holes.hole name) (different : name ≠ last)
    (own : value last = inside ++ holes.mark :: beyond)
    (quiet : occurrences (holes.hole name) inside = 0) :
    holes.round value (fill (holes.leave value name) front ++ inside) name =
      fill value front ++ inside := by
  rw [List.map_append] at distinct
  rw [round_fill (List.nodup_append.mp distinct).1 (leave_self value name) inside
    (clean.count_inside member active different own quiet), update_leave]

/-- The second hit of the last round. -/
theorem two_le_occurrences {between behind : List α}
    (distinct : ((front ++ (last, text) :: back).map Prod.fst).Nodup)
    (member : name ∈ (front ++ (last, text) :: back).map Prod.fst) (different : name ≠ last)
    (standing : (back.map Prod.fst).count name ≤ occurrences (holes.hole name) behind) :
    2 ≤ occurrences (holes.hole name) (fill (holes.leave value name) front ++ inside ++
      (holes.hole name ++ (between ++ behind))) := by
  have once := List.count_eq_one_of_mem distinct member
  have blank : (front.map Prod.fst).count name ≤
      occurrences (holes.hole name) (fill (holes.leave value name) front) :=
    count_le_occurrences (leave_self value name)
  have early := occurrences_add_le (holes.hole name) (fill (holes.leave value name) front) inside
  have late := occurrences_add_le (holes.hole name) between behind
  rw [List.map_append, List.map_cons, List.count_append,
    List.count_cons_of_ne (Ne.symm different)] at once
  rw [occurrences_append_hole, occurrences_hole_append]
  omega

/-- A pattern inside a value. -/
theorem eq_hole_of_inside {between after : List α}
    (confluent : holes.Confluent value (front ++ (last, text) :: back))
    (distinct : ((front ++ (last, text) :: back).map Prod.fst).Nodup)
    (marked : ∀ other ∈ (front ++ (last, text) :: back).map Prod.fst, holes.mark ∈ value other)
    (clean : holes.CleanUpTo value front ((last, text) :: back))
    (member : name ∈ (front ++ (last, text) :: back).map Prod.fst) (different : name ≠ last)
    (own : value last = inside ++ (holes.hole name ++ (between ++ holes.mark :: after)))
    (free : holes.mark ∉ between) (quiet : occurrences (holes.hole name) inside = 0) :
    value name = holes.hole name := by
  by_contra active
  obtain ⟨order, _, perm, reached, -, continued⟩ := exists_order distinct member clean.separate
  obtain ⟨rest, rfl, standing⟩ := continued last text back rfl
  have few := count_fill_lt distinct perm marked
  have kept := confluent.last_round perm
  have filled := clean.round_inside distinct member active different own quiet
  rw [leave_of_ne (Ne.symm different), own] at reached
  have whole : holes.rounds value order (fill holes.hole (front ++ (last, text) :: back)) =
      fill (holes.leave value name) front ++ inside ++
        (holes.hole name ++ (between ++ holes.mark :: (after ++ rest))) := by
    rw [reached]
    simp only [List.append_assoc, List.cons_append]
  have result : fill value (front ++ (last, text) :: back) =
      fill value front ++ inside ++
        (holes.hole name ++ (between ++ holes.mark :: (after ++ (text ++ fill value back)))) := by
    rw [fill_append, fill_cons, own]
    simp only [List.append_assoc, List.cons_append]
  have twice : 2 ≤ occurrences (holes.hole name)
      (holes.rounds value order (fill holes.hole (front ++ (last, text) :: back))) := by
    rw [whole]
    apply two_le_occurrences distinct member different
    have late := occurrences_add_le (holes.hole name) (holes.mark :: after) rest
    rw [List.cons_append] at late
    omega
  rw [← kept] at few
  rw [result, ← filled] at kept
  exact active (eq_hole_of_round free (.inr ⟨_, rfl⟩) (fun _ => .inr ⟨_, rfl⟩)
    (marked name member) twice few whole kept)

/-- The text as far as the next mark is the same before the last round, with the hole left
open, and in the filled text. -/
theorem exists_next {rest : List α} (distinct : (back.map Prod.fst).Nodup)
    (marked : ∀ other ∈ back.map Prod.fst, holes.mark ∈ value other)
    (ended : back = [] → rest = [])
    (continued : ∀ next behind more, back = (next, behind) :: more →
      ∃ tail, rest = holes.leave value name next ++ tail ∧
        (more.map Prod.fst).count name ≤ occurrences (holes.hole name) tail) :
    ∃ between behind blank filled, holes.mark ∉ between ∧ holes.AtMark behind ∧
      holes.AtMark blank ∧ (holes.AtMark (value name) → holes.AtMark filled) ∧
      rest = between ++ behind ∧ fill (holes.leave value name) back = between ++ blank ∧
      fill value back = between ++ filled ∧
      (back.map Prod.fst).count name ≤ occurrences (holes.hole name) behind := by
  cases back with
  | nil =>
      refine ⟨[], [], [], [], List.not_mem_nil, .inl rfl, .inl rfl, fun _ => .inl rfl, ended rfl,
        rfl, rfl, Nat.zero_le _⟩
  | cons item more =>
      obtain ⟨next, behind⟩ := item
      obtain ⟨tail, rfl, standing⟩ := continued next behind more rfl
      have own : holes.mark ∈ value next := marked next List.mem_cons_self
      by_cases same : next = name
      · subst same
        have filled : value next ≠ [] := List.ne_nil_of_mem own
        have once := List.count_eq_one_of_mem distinct List.mem_cons_self
        have first : ∀ more, holes.AtMark (holes.hole next ++ more) :=
          (atMark_hole next).append (List.cons_ne_nil _ _)
        rw [leave_self, fill_cons, fill_cons, leave_self]
        refine ⟨[], _, _, _, List.not_mem_nil, first tail, first _, ?_, rfl, rfl, rfl, ?_⟩
        · exact fun first => first.append filled _
        · rw [occurrences_hole_append]
          exact Nat.le_trans (le_of_eq once) (Nat.le_add_right 1 _)
      · obtain ⟨before, after, whole, free⟩ := List.eq_append_cons_of_mem own
        rw [leave_of_ne same, fill_cons, fill_cons, leave_of_ne same, whole]
        refine ⟨before, holes.mark :: (after ++ tail), _, _, free, .inr ⟨_, rfl⟩, ?_, ?_,
          List.append_assoc _ _ _, List.append_assoc _ _ _, List.append_assoc _ _ _, ?_⟩
        · exact .inr ⟨_, rfl⟩
        · exact fun _ => .inr ⟨_, rfl⟩
        · have joined := occurrences_add_le (holes.hole name) (holes.mark :: after) tail
          rw [List.map_cons, List.count_cons_of_ne same]
          rw [List.cons_append] at joined
          omega

/-- If the last mark of a value begins the pattern of one name, the value as a whole is clean
for all others. -/
theorem CleanUpTo.separate_end {rest : List α}
    (clean : holes.CleanUpTo value front ((last, text) :: back)) (plain : holes.mark ∉ text)
    (own : value last = inside ++ holes.mark :: beyond) (free : holes.mark ∉ beyond)
    (quiet : ∀ other ∈ (front ++ (last, text) :: back).map Prod.fst,
      value other ≠ holes.hole other → other ≠ last →
        occurrences (holes.hole other) inside = 0)
    (found : holes.body name <+: beyond ++ (text ++ rest)) :
    ∀ other ∈ (front ++ (last, text) :: back).map Prod.fst, other ≠ name →
      holes.Separate value (front ++ [(last, text)]) other := by
  refine fun other listed different => or_iff_not_imp_left.mpr fun active => ?_
  rw [fill_append, fill_cons, fill_nil, List.append_nil, List.map_append, List.count_append]
  by_cases same : other = last
  · subst same
    have early := clean.count_front listed active
    rw [leave_self, occurrences_append_hole, occurrences_hole_append, hole,
      occurrences_of_notMem plain, List.map_singleton, List.count_singleton_self]
    exact Nat.add_le_add_right early 1
  · have early := clean.count_inside listed active same own (quiet other listed active same)
    have absent : ¬ holes.hole other <+: holes.mark :: (beyond ++ text) := by
      intro start
      have shorter : holes.body other <+: beyond ++ (text ++ rest) := by
        rw [← List.append_assoc]
        exact (List.cons_prefix_cons.mp start).2.trans (List.prefix_append _ rest)
      obtain one | other := List.prefix_or_prefix_of_prefix shorter found
      · exact different (holes.apart _ _ one)
      · exact different (holes.apart _ _ other).symm
    have beyondFree : holes.mark ∉ beyond ++ text :=
      fun member => (List.mem_append.mp member).elim free plain
    rw [leave_of_ne (Ne.symm same), own, List.append_assoc, List.cons_append,
      ← List.append_assoc, occurrences_append_mark, occurrences, if_neg absent, hole,
      occurrences_of_notMem beyondFree]
    exact Nat.le_trans early (Nat.le_add_right _ _)

/-- A pattern that begins at the last mark of a value. -/
theorem eq_hole_at_end
    (confluent : holes.Confluent value (front ++ (last, text) :: back))
    (distinct : ((front ++ (last, text) :: back).map Prod.fst).Nodup)
    (marked : ∀ other ∈ (front ++ (last, text) :: back).map Prod.fst, holes.mark ∈ value other)
    (plain : holes.mark ∉ text)
    (clean : holes.CleanUpTo value front ((last, text) :: back))
    (member : name ∈ (front ++ (last, text) :: back).map Prod.fst) (different : name ≠ last)
    (own : value last = inside ++ holes.mark :: beyond) (free : holes.mark ∉ beyond)
    (quiet : ∀ other ∈ (front ++ (last, text) :: back).map Prod.fst,
      value other ≠ holes.hole other → other ≠ last →
        occurrences (holes.hole other) inside = 0)
    (found : holes.body name <+: beyond ++ (text ++ fill (holes.leave value name) back)) :
    value name = holes.hole name := by
  by_contra active
  have separate := clean.separate_end plain own free quiet found
  have regroup : front ++ (last, text) :: back = (front ++ [(last, text)]) ++ back := by simp
  have filled := clean.round_inside distinct member active different own
    (quiet name member active different)
  have second : ∀ between behind, _ → 2 ≤ occurrences (holes.hole name)
      (fill (holes.leave value name) front ++ inside ++ (holes.hole name ++ (between ++ behind))) :=
    fun between behind => two_le_occurrences distinct member different
  rw [regroup] at confluent distinct marked member separate
  obtain ⟨order, rest, perm, reached, ended, continued⟩ := exists_order distinct member separate
  have few := count_fill_lt distinct perm marked
  have kept := confluent.last_round perm
  rw [List.map_append] at distinct marked
  obtain ⟨between, behind, blank, closed, betweenFree, start, startBlank, startClosed, rfl, left,
    result, standing⟩ := exists_next (List.nodup_append.mp distinct).2.1
      (fun other listed => marked other (List.mem_append_right _ listed)) ended continued
  rw [left, ← List.append_assoc, ← List.append_assoc] at found
  obtain ⟨after, whole⟩ := startBlank.body_isPrefix found
  have afterFree : holes.mark ∉ after := by
    intro inAfter
    have inWhole : holes.mark ∈ beyond ++ text ++ between := by
      rw [← whole]
      exact List.mem_append_right _ inAfter
    simp [free, plain, betweenFree] at inWhole
  have place : ∀ some more : List α,
      some ++ (value last ++ text) ++ (between ++ more) =
        some ++ inside ++ (holes.hole name ++ (after ++ more)) := by
    intro some more
    have token : holes.hole name ++ after = holes.mark :: (beyond ++ text ++ between) :=
      congrArg (holes.mark :: ·) whole
    rw [← List.append_assoc (holes.hole name), token, own]
    simp only [List.append_assoc, List.cons_append]
  generalize holes.rounds value order (fill holes.hole (front ++ [(last, text)] ++ back)) =
    before at reached few kept
  rw [fill_append, fill_cons, fill_nil, List.append_nil, leave_of_ne (Ne.symm different),
    place] at reached
  rw [← kept] at few
  rw [fill_append, fill_append, fill_cons, fill_nil, List.append_nil, result, place,
    ← filled] at kept
  have twice : 2 ≤ occurrences (holes.hole name) before := by
    rw [reached]
    exact second after behind standing
  exact active (eq_hole_of_round afterFree start startClosed
    (marked name (by rwa [← List.map_append])) twice few reached kept)

/-- No pattern begins at a mark of the next value. -/
theorem not_prefix_of_clean
    (confluent : holes.Confluent value (front ++ (last, text) :: back))
    (distinct : ((front ++ (last, text) :: back).map Prod.fst).Nodup)
    (marked : ∀ other ∈ (front ++ (last, text) :: back).map Prod.fst, holes.mark ∈ value other)
    (plain : holes.mark ∉ text)
    (clean : holes.CleanUpTo value front ((last, text) :: back))
    (member : name ∈ (front ++ (last, text) :: back).map Prod.fst)
    (active : value name ≠ holes.hole name) (different : name ≠ last)
    (own : value last = inside ++ holes.mark :: beyond) :
    ¬ holes.hole name <+:
      holes.mark :: (beyond ++ (text ++ fill (holes.leave value name) back)) := by
  induction size : inside.length using Nat.strongRecOn generalizing inside beyond name with
  | ind length ih =>
      have quiet : ∀ other ∈ (front ++ (last, text) :: back).map Prod.fst,
          value other ≠ holes.hole other → other ≠ last →
            occurrences (holes.hole other) inside = 0 := by
        intro other listed active different
        by_contra found
        obtain ⟨before, after, whole⟩ := exists_of_occurrences_pos (Nat.pos_of_ne_zero found)
        rw [whole, List.append_assoc, List.append_assoc] at own
        have own' : value last = before ++ holes.mark ::
            (holes.body other ++ (after ++ holes.mark :: beyond)) := own
        refine ih before.length ?_ listed active different own' rfl ?_
        · rw [← size, whole, hole]
          simp
        · rw [List.append_assoc]
          exact List.prefix_append (holes.hole other) _
      intro start
      have found := (List.cons_prefix_cons.mp start).2
      by_cases more : holes.mark ∈ beyond
      · obtain ⟨before, after, rfl, free⟩ := List.eq_append_cons_of_mem more
        rw [List.append_assoc, List.cons_append] at found
        have next : holes.AtMark
            (holes.mark :: (after ++ (text ++ fill (holes.leave value name) back))) := .inr ⟨_, rfl⟩
        obtain ⟨between, rfl⟩ := next.body_isPrefix found
        rw [List.append_assoc] at own
        exact active (eq_hole_of_inside confluent distinct marked clean member different own
          (fun inBetween => free (List.mem_append_right _ inBetween))
          (quiet name member active different))
      · exact active (eq_hole_at_end confluent distinct marked plain clean member different own more
          quiet found)

theorem CleanUpTo.step (clean : holes.CleanUpTo value front ((last, text) :: back))
    (confluent : holes.Confluent value (front ++ (last, text) :: back))
    (distinct : ((front ++ (last, text) :: back).map Prod.fst).Nodup)
    (marked : ∀ other ∈ (front ++ (last, text) :: back).map Prod.fst, holes.mark ∈ value other)
    (plain : holes.mark ∉ text) : holes.CleanUpTo value (front ++ [(last, text)]) back := by
  intro name member active
  have regroup : (front ++ [(last, text)]) ++ back = front ++ (last, text) :: back := by simp
  rw [regroup] at member ⊢
  have whole := clean name member active
  rw [List.map_append, List.count_append, List.map_singleton]
  rw [fill_cons] at whole
  by_cases same : name = last
  · subst same
    rw [leave_self, occurrences_hole_append, hole, occurrences_append_of_notMem plain] at whole
    rw [List.count_singleton_self, hole]
    omega
  · have none : occurrences (holes.hole name)
        (value last ++ (text ++ fill (holes.leave value name) back)) =
          occurrences (holes.hole name) (text ++ fill (holes.leave value name) back) := by
      apply occurrences_append_of_absent
      intro before first rest own start
      obtain rfl : holes.mark = first := (List.cons_prefix_cons.mp start).1
      exact not_prefix_of_clean confluent distinct marked plain clean member active same own start
    rw [leave_of_ne (Ne.symm same), none, hole, occurrences_append_of_notMem plain] at whole
    rw [hole]
    omega

end Step

/-- Where every value has a mark, only separate values have every order fill all holes. -/
theorem Confluent.separate (confluent : holes.Confluent value items)
    (distinct : (items.map Prod.fst).Nodup)
    (marked : ∀ name ∈ items.map Prod.fst, holes.mark ∈ value name)
    (plain : ∀ item ∈ items, holes.mark ∉ item.2) :
    ∀ name ∈ items.map Prod.fst, holes.Separate value items name := by
  have run : ∀ front back, items = front ++ back → holes.CleanUpTo value front back →
      holes.CleanUpTo value items [] := by
    intro front back whole clean
    induction back generalizing front with
    | nil => rwa [whole, List.append_nil]
    | cons item rest ih =>
        obtain ⟨last, text⟩ := item
        rw [whole] at confluent distinct marked plain
        apply ih (front ++ [(last, text)]) (by rw [whole]; simp)
        exact clean.step confluent distinct marked (plain (last, text) (by simp))
  have start : holes.CleanUpTo value [] items := by
    intro name _ _
    rw [List.nil_append]
    exact Nat.le_add_left _ _
  intro name member
  refine or_iff_not_imp_left.mpr fun active => ?_
  have clean := run [] items rfl start name (by rwa [List.append_nil]) active
  rwa [List.append_nil, fill_nil, occurrences, Nat.add_zero] at clean

end Foundation.Replace.Holes
