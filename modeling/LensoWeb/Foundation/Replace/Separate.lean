import LensoWeb.Foundation.Replace.LastRound

/-!
# Separate values

Every order of the rounds fills all holes exactly if all values are separate. Values without
a mark can be filled in first: nothing makes up a pattern until a value with a mark is there.
They then belong to the text between the holes that remain, and only values with a mark are
left.
-/

namespace Foundation.Replace.Holes

variable {ν α : Type*} [DecidableEq α] {holes : Holes ν α} {value : ν → List α}

/-! ### Values without a mark -/

/-- As long as only values without a mark are filled in, patterns stand in their holes. -/
theorem occurrences_fill_unmarked [DecidableEq ν] {items : List (ν × List α)}
    {some : ν → List α} (name : ν) (plain : ∀ item ∈ items, holes.mark ∉ item.2)
    (unmarked : ∀ other ∈ items.map Prod.fst,
      some other = holes.hole other ∨ holes.mark ∉ some other) :
    occurrences (holes.hole name) (fill some items) ≤ (items.map Prod.fst).count name := by
  induction items with
  | nil => exact Nat.le_refl 0
  | cons item rest ih =>
      obtain ⟨other, text⟩ := item
      have later := ih (fun item member => plain item (List.mem_cons_of_mem _ member))
        fun other member => unmarked other (List.mem_cons_of_mem _ member)
      have passed : occurrences (holes.hole name) (text ++ fill some rest) =
          occurrences (holes.hole name) (fill some rest) :=
        occurrences_append_of_notMem (plain (other, text) List.mem_cons_self) _
      rw [fill_cons, List.map_cons]
      obtain own | free := unmarked other List.mem_cons_self
      · rw [own]
        by_cases same : other = name
        · subst same
          rw [occurrences_hole_append, passed, List.count_cons_self]
          omega
        · rw [occurrences_other_append (Ne.symm same), passed, List.count_cons_of_ne same]
          exact later
      · rw [hole, occurrences_append_of_notMem free, ← hole, passed]
        exact Nat.le_trans later (List.count_le_count_cons ..)

variable {items : List (ν × List α)}

/-- The text in front of the first value with a mark, and the items with such values, each
with the text up to the next. -/
def absorb (holes : Holes ν α) (value : ν → List α) :
    List (ν × List α) → List α × List (ν × List α)
  | [] => ([], [])
  | (name, text) :: rest =>
      let later := absorb holes value rest
      if holes.mark ∈ value name then ([], (name, text ++ later.1) :: later.2)
      else (value name ++ (text ++ later.1), later.2)

theorem absorb_names (value : ν → List α) (items : List (ν × List α)) :
    (holes.absorb value items).2.map Prod.fst =
      (items.map Prod.fst).filter fun name => holes.mark ∈ value name := by
  induction items with
  | nil => rfl
  | cons item rest ih =>
      rw [absorb, List.map_cons, List.filter_cons]
      by_cases marked : holes.mark ∈ value item.1
      · rw [if_pos marked, if_pos (decide_eq_true marked), List.map_cons, ih]
      · rw [if_neg marked, if_neg (by simpa using marked), ih]

theorem absorb_plain (plain : ∀ item ∈ items, holes.mark ∉ item.2) :
    holes.mark ∉ (holes.absorb value items).1 ∧
      ∀ item ∈ (holes.absorb value items).2, holes.mark ∉ item.2 := by
  induction items with
  | nil => exact ⟨List.not_mem_nil, fun item member => absurd member List.not_mem_nil⟩
  | cons item rest ih =>
      obtain ⟨front, items⟩ := ih fun item member => plain item (List.mem_cons_of_mem _ member)
      have text := plain item List.mem_cons_self
      have joined : holes.mark ∉ item.2 ++ (holes.absorb value rest).1 :=
        fun member => (List.mem_append.mp member).elim text front
      rw [absorb]
      by_cases marked : holes.mark ∈ value item.1
      · rw [if_pos marked]
        exact ⟨List.not_mem_nil, List.forall_mem_cons.mpr ⟨joined, items⟩⟩
      · rw [if_neg marked]
        exact ⟨fun member => (List.mem_append.mp member).elim marked joined, items⟩

theorem fill_absorb {some : ν → List α}
    (same : ∀ name ∈ items.map Prod.fst, holes.mark ∉ value name → some name = value name) :
    fill some items = (holes.absorb value items).1 ++ fill some (holes.absorb value items).2 := by
  induction items with
  | nil => rfl
  | cons item rest ih =>
      have later := ih fun name member => same name (List.mem_cons_of_mem _ member)
      rw [fill_cons, later, absorb]
      by_cases marked : holes.mark ∈ value item.1
      · rw [if_pos marked, fill_cons, List.nil_append, List.append_assoc]
      · rw [if_neg marked, same item.1 List.mem_cons_self marked, List.append_assoc,
          List.append_assoc]

variable [DecidableEq ν]

omit [DecidableEq α] in
theorem partly_unmarked {done : List ν} (unmarked : ∀ name ∈ done, holes.mark ∉ value name)
    (other : ν) :
    holes.partly value done other = holes.hole other ∨
      holes.mark ∉ holes.partly value done other := by
  rw [partly]
  split
  · next early => exact .inr (unmarked other early)
  · exact .inl rfl

theorem rounds_unmarked {order : List ν} (distinct : (items.map Prod.fst).Nodup)
    (once : order.Nodup) (plain : ∀ item ∈ items, holes.mark ∉ item.2)
    (unmarked : ∀ name ∈ order, holes.mark ∉ value name) :
    holes.rounds value order (fill holes.hole items) = fill (holes.partly value order) items := by
  refine rounds_fill distinct once fun done name later whole => .inr ?_
  apply occurrences_fill_unmarked name plain
  refine fun other _ => partly_unmarked (fun other early => unmarked other ?_) other
  rw [whole]
  exact List.mem_append_left _ early

/-! ### Every order -/

/-- The names whose value has no mark. -/
def unmarked (holes : Holes ν α) (value : ν → List α) (names : List ν) : List ν :=
  names.filter fun name => !decide (holes.mark ∈ value name)

omit [DecidableEq ν] in
theorem nodup_unmarked {names : List ν} (distinct : names.Nodup) :
    (holes.unmarked value names).Nodup :=
  distinct.filter _

omit [DecidableEq ν] in
theorem mem_unmarked {names : List ν} {name : ν} :
    name ∈ holes.unmarked value names ↔ name ∈ names ∧ holes.mark ∉ value name := by
  simp [unmarked]

omit [DecidableEq ν] in
/-- The names without a mark first, then all others in any order. -/
theorem unmarked_append_perm {names order : List ν}
    (perm : order.Perm (names.filter fun name => holes.mark ∈ value name)) :
    (holes.unmarked value names ++ order).Perm names :=
  List.perm_append_comm.trans ((perm.append_right _).trans (List.filter_append_perm _ _))

variable (distinct : (items.map Prod.fst).Nodup) (plain : ∀ item ∈ items, holes.mark ∉ item.2)

include distinct plain

/-- Values with a mark are separate. -/
theorem Confluent.separate_of_mem (confluent : holes.Confluent value items) {name : ν}
    (member : name ∈ items.map Prod.fst) (marked : holes.mark ∈ value name) :
    holes.Separate value items name := by
  have names : (holes.absorb value items).2.map Prod.fst = _ := absorb_names value items
  obtain ⟨frontPlain, itemsPlain⟩ : holes.mark ∉ (holes.absorb value items).1 ∧ _ :=
    absorb_plain plain
  have inner : holes.Confluent value (holes.absorb value items).2 := by
    intro order perm
    rw [names] at perm
    have first : ∀ name ∈ holes.unmarked value (items.map Prod.fst), holes.mark ∉ value name :=
      fun name member => (mem_unmarked.mp member).2
    have filled : fill value items =
        (holes.absorb value items).1 ++ fill value (holes.absorb value items).2 :=
      fill_absorb fun _ _ _ => rfl
    have begun : fill (holes.partly value (holes.unmarked value (items.map Prod.fst))) items =
        (holes.absorb value items).1 ++ fill holes.hole (holes.absorb value items).2 := by
      refine (fill_absorb fun name member free => ?_).trans (congrArg _ (fill_congr ?_))
      · exact if_pos (mem_unmarked.mpr ⟨member, free⟩)
      · intro name member
        rw [names] at member
        refine if_neg fun early => (mem_unmarked.mp early).2 ?_
        simpa using (List.mem_filter.mp member).2
    have whole := confluent _ (unmarked_append_perm perm)
    rw [rounds_append, rounds_unmarked distinct (nodup_unmarked distinct) plain first, begun,
      filled, rounds_append_of_notMem frontPlain] at whole
    exact List.append_cancel_left whole
  have separate := inner.separate (by rw [names]; exact distinct.filter _) (by simp [names])
    itemsPlain name (by rw [names]; exact List.mem_filter.mpr ⟨member, by simpa using marked⟩)
  refine separate.imp_right fun found => ?_
  rw [fill_absorb fun other _ free => leave_of_ne ?_, hole, occurrences_append_of_notMem frontPlain]
  · rw [names] at found
    exact Nat.le_trans found (List.filter_sublist.count_le _)
  · rintro rfl
    exact free marked

/-- Values without a mark are separate. -/
theorem Confluent.separate_of_notMem (confluent : holes.Confluent value items) {name : ν}
    (member : name ∈ items.map Prod.fst) (free : holes.mark ∉ value name) :
    holes.Separate value items name := by
  generalize listed : (holes.unmarked value (items.map Prod.fst)).erase name = first
  generalize later : (items.map Prod.fst).filter (fun name => holes.mark ∈ value name) = second
  have perm : (first ++ second ++ [name]).Perm (items.map Prod.fst) := by
    have whole : (name :: first).Perm (holes.unmarked value (items.map Prod.fst)) := by
      rw [← listed]
      exact (List.perm_cons_erase (mem_unmarked.mpr ⟨member, free⟩)).symm
    refine (List.perm_append_singleton name _).trans ((whole.append_right second).trans ?_)
    rw [← later]
    exact unmarked_append_perm (List.Perm.refl _)
  have once := perm.nodup_iff.mpr distinct
  have absent := notMem_of_snoc_perm distinct perm
  have unmarkedFirst : ∀ other ∈ first, holes.mark ∉ value other := by
    intro other early
    rw [← listed] at early
    exact (mem_unmarked.mp (List.mem_of_mem_erase early)).2
  have markedSecond : ∀ other ∈ second, holes.mark ∈ value other := by
    intro other late
    rw [← later] at late
    simpa using (List.mem_filter.mp late).2
  have ready : ∀ done next later, first ++ second = done ++ next :: later →
      value next = holes.hole next ∨
        occurrences (holes.hole next) (fill (holes.partly value done) items) ≤
          (items.map Prod.fst).count next := by
    intro done next later whole
    have listed : next ∈ items.map Prod.fst := by
      apply perm.mem_iff.mp
      rw [whole]
      simp
    by_cases marked : holes.mark ∈ value next
    · have fresh : next ∉ done := by
        rw [whole] at once
        exact notMem_of_nodup (List.nodup_append.mp once).1
      refine (confluent.separate_of_mem distinct plain listed marked).imp_right fun found => ?_
      exact Nat.le_trans (occurrences_partly_le fresh items) found
    · refine .inr (occurrences_fill_unmarked next plain fun other _ =>
        partly_unmarked (fun other early => ?_) other)
      obtain ⟨more, rfl, rest⟩ | ⟨more, rfl, rest⟩ := List.append_eq_append_iff.mp whole.symm
      · exact unmarkedFirst other (List.mem_append_left _ early)
      · exact absurd (markedSecond next (by rw [rest]; simp)) marked
  have kept := confluent.last_round perm
  rw [rounds_fill distinct (List.nodup_append.mp once).1 ready,
    fill_partly_of_perm distinct perm] at kept
  have counted : (holes.round value (fill (holes.leave value name) items) name).count holes.mark +
      _ = _ := count_round _ name
  have grown : (fill value items).count holes.mark + 1 = _ := count_fill_leave distinct member
  rw [kept, List.count_eq_zero.mpr free, Nat.mul_zero] at counted
  rw [List.count_eq_zero.mpr free] at grown
  refine .inr ?_
  rw [List.count_eq_one_of_mem distinct member]
  omega

/-- Every order of the rounds fills all holes exactly if all values are separate. -/
theorem confluent_iff : holes.Confluent value items ↔
    ∀ name ∈ items.map Prod.fst, holes.Separate value items name := by
  constructor
  · intro confluent name member
    by_cases marked : holes.mark ∈ value name
    · exact confluent.separate_of_mem distinct plain member marked
    · exact confluent.separate_of_notMem distinct plain member marked
  · intro separate order perm
    exact rounds_eq_fill distinct (perm.nodup_iff.mpr distinct)
      (fun name member => .inl (perm.mem_iff.mpr member))
      fun name member => separate name (perm.mem_iff.mp member)

/-- If the hole of a value without a mark is never filled, some order leaves a mark too many
behind. -/
theorem exists_order_ne {names : List ν} {name : ν} (once : names.Nodup)
    (member : name ∈ items.map Prod.fst) (absent : name ∉ names)
    (free : ∀ other ∈ items.map Prod.fst, other ∉ names → holes.mark ∉ value other) :
    ∃ order : List ν, order.Perm names ∧
      holes.rounds value order (fill holes.hole items) ≠ fill value items := by
  have perm : (holes.unmarked value names ++
      names.filter fun name => holes.mark ∈ value name).Perm names :=
    unmarked_append_perm (List.Perm.refl _)
  refine ⟨_, perm, fun same => ?_⟩
  have free' : ∀ other ∈ holes.unmarked value names, holes.mark ∉ value other :=
    fun other early => (mem_unmarked.mp early).2
  have reached := rounds_unmarked distinct (nodup_unmarked once) plain free'
  have counted := count_le_rounds distinct (perm.nodup_iff.mpr once) reached
    fun other late => by simpa using (List.mem_filter.mp late).2
  have grown : (fill value items).count holes.mark + 1 = _ := count_fill_leave distinct member
  have more : (fill (holes.leave value name) items).count holes.mark ≤
      (fill (holes.partly value (holes.unmarked value names ++
        names.filter fun name => holes.mark ∈ value name)) items).count holes.mark := by
    refine count_fill_le fun other listed => ?_
    rw [partly]
    split
    · next early =>
        rw [leave_of_ne]
        rintro rfl
        exact absent (perm.mem_iff.mp early)
    · next late =>
        by_cases own : other = name
        · rw [own, leave_self]
        · rw [leave_of_ne own, List.count_eq_zero.mpr]
          · exact Nat.zero_le _
          · exact free other listed (mt perm.mem_iff.mpr late)
  rw [List.count_eq_zero.mpr (free name member absent)] at grown
  rw [same] at counted
  omega

end Foundation.Replace.Holes
