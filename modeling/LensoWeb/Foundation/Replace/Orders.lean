import LensoWeb.Foundation.Replace.Holes

/-!
# Every order of the rounds

If every order of the rounds fills all holes, then no value makes up the pattern of another
name. A single order may do so by accident: a later round can undo the damage of an earlier
one.

The marks of a text are counted first. A value without a mark takes one away with every
occurrence, and a value with several marks adds some, so that in orders which begin with the
values of the first kind no round of the last kind can hit anything but its own hole. What
remains are values with a single mark. Of all occurrences in the filled text that a round
could hit, the leftmost is hit last in some order, when the text in front of it and behind
it, as far as the next mark, is still intact; the value then has to be the pattern itself.
-/

namespace Foundation.Replace.Holes

variable {ν α : Type*} [DecidableEq α] {holes : Holes ν α} {value : ν → List α}

/-! ### Marks -/

theorem count_hole (name : ν) : (holes.hole name).count holes.mark = 1 := by
  rw [hole, List.count_cons_self, List.count_eq_zero.mpr (holes.free name)]

theorem count_round (text : List α) (name : ν) :
    (holes.round value text name).count holes.mark + occurrences (holes.hole name) text =
      text.count holes.mark +
        occurrences (holes.hole name) text * (value name).count holes.mark :=
  count_replace (value name) text (holes.free name)

omit [DecidableEq α] in
theorem count_fill_le [BEq α] {mark : α} {some more : ν → List α} {items : List (ν × List α)}
    (grows : ∀ name ∈ items.map Prod.fst, (some name).count mark ≤ (more name).count mark) :
    (fill some items).count mark ≤ (fill more items).count mark := by
  induction items with
  | nil => exact Nat.le_refl _
  | cons item rest ih =>
      have first := grows item.1 List.mem_cons_self
      have later := ih fun name member => grows name (List.mem_cons_of_mem _ member)
      rw [fill_cons, fill_cons]
      simp only [List.count_append]
      omega

/-- Rounds of other names leave every occurrence of a pattern standing. -/
theorem occurrences_le_rounds {order : List ν} {name : ν} (absent : name ∉ order)
    (text : List α) : occurrences (holes.hole name) text ≤
      occurrences (holes.hole name) (holes.rounds value order text) := by
  induction order generalizing text with
  | nil => exact Nat.le_refl _
  | cons first rest ih =>
      obtain ⟨other, later⟩ := not_or.mp (mt List.mem_cons.mpr absent)
      refine Nat.le_trans ?_ (ih later (holes.round value text first))
      exact occurrences_le_replace (value first) (holes.free first) (holes.free name)
        (not_prefix_of_ne (Ne.symm other)) (not_prefix_of_ne other) text

theorem rounds_append_hole {order : List ν} {name : ν} (absent : name ∉ order)
    (front back : List α) :
    holes.rounds value order (front ++ (holes.hole name ++ back)) =
      holes.rounds value order front ++
        (holes.hole name ++ holes.rounds value order back) := by
  induction order generalizing front back with
  | nil => rfl
  | cons first rest ih =>
      obtain ⟨other, later⟩ := not_or.mp (mt List.mem_cons.mpr absent)
      rw [rounds, List.foldl_cons, round_append_hole, round_other_append (Ne.symm other)]
      exact ih later _ _

theorem rounds_append_of_notMem {front : List α} (free : holes.mark ∉ front) (order : List ν)
    (back : List α) :
    holes.rounds value order (front ++ back) = front ++ holes.rounds value order back := by
  induction order generalizing back with
  | nil => rfl
  | cons first rest ih =>
      rw [rounds, List.foldl_cons, round_append_of_notMem free]
      exact ih _

theorem rounds_congr {other : ν → List α} {order : List ν}
    (same : ∀ name ∈ order, value name = other name) (text : List α) :
    holes.rounds value order text = holes.rounds other order text := by
  refine List.foldl_ext _ _ text fun text name member => ?_
  rw [round, round, same name member]

variable [DecidableEq ν] {items : List (ν × List α)}

/-- A hole stays open until the round of its name. -/
theorem count_le_occurrences_rounds {order : List ν} {name : ν} (absent : name ∉ order)
    (front : List α) (items : List (ν × List α)) : (items.map Prod.fst).count name ≤
      occurrences (holes.hole name) (holes.rounds value order (front ++ fill holes.hole items)) := by
  have blank : (items.map Prod.fst).count name ≤
      occurrences (holes.hole name) (fill holes.hole items) := count_le_occurrences rfl
  have joined := occurrences_add_le (holes.hole name) front (fill holes.hole items)
  have kept : _ ≤ occurrences (holes.hole name)
      (holes.rounds value order (front ++ fill holes.hole items)) :=
    occurrences_le_rounds absent _
  omega

theorem count_fill_update {some : ν → List α} {name : ν}
    (distinct : (items.map Prod.fst).Nodup) (member : name ∈ items.map Prod.fst)
    (own : some name = holes.hole name) (text : List α) :
    (fill (Function.update some name text) items).count holes.mark + 1 =
      (fill some items).count holes.mark + text.count holes.mark := by
  obtain ⟨front, behind, back, rfl, early, late⟩ := exists_split distinct member
  rw [fill_append, fill_append, fill_cons, fill_cons, fill_update_of_notMem _ early,
    fill_update_of_notMem _ late, Function.update_self, own]
  simp only [List.count_append, count_hole]
  omega

/-- Rounds of values with marks lead to at least as many marks as they should. -/
theorem count_le_rounds {before order : List ν} (distinct : (items.map Prod.fst).Nodup)
    (once : (before ++ order).Nodup)
    (reached : holes.rounds value before (fill holes.hole items) =
      fill (holes.partly value before) items)
    (marked : ∀ name ∈ order, holes.mark ∈ value name) :
    (fill (holes.partly value (before ++ order)) items).count holes.mark ≤
      (holes.rounds value (before ++ order) (fill holes.hole items)).count holes.mark := by
  induction order using List.reverseRecOn with
  | nil => rw [List.append_nil, reached]
  | append_singleton rest name ih =>
      rw [← List.append_assoc] at once ⊢
      have fresh : name ∉ before ++ rest := notMem_of_nodup once
      have own : holes.partly value (before ++ rest) name = holes.hole name := if_neg fresh
      have earlier := ih (List.nodup_append.mp once).1 fun other member =>
        marked other (List.mem_append_left _ member)
      have positive : 1 ≤ (value name).count holes.mark :=
        List.one_le_count_iff.mpr (marked name (by simp))
      generalize text : holes.rounds value (before ++ rest) (fill holes.hole items) = reached
        at earlier
      have counted : (holes.round value reached name).count holes.mark + _ = _ :=
        count_round reached name
      have many := Nat.le_mul_of_pos_right (occurrences (holes.hole name) reached) positive
      rw [rounds_snoc, partly_snoc, text]
      by_cases member : name ∈ items.map Prod.fst
      · have found : 1 ≤ occurrences (holes.hole name) reached := by
          rw [← text, ← List.count_eq_one_of_mem distinct member]
          exact count_le_occurrences_rounds fresh [] items
        have grown := count_fill_update distinct member own (value name)
        obtain ⟨more, enough⟩ := Nat.exists_eq_add_of_le found
        have spread : more ≤ more * (value name).count holes.mark :=
          Nat.le_mul_of_pos_right more positive
        rw [enough, Nat.add_mul] at counted
        omega
      · rw [fill_update_of_notMem _ member]
        omega

end Foundation.Replace.Holes
