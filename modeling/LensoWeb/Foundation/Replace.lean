import Mathlib

/-!
# Textual replacement

`replace` goes over a text from left to right and writes the value in the place of every
occurrence of the pattern that it comes to. What it has written is not read again.

The patterns here begin with a mark that does not recur in them. Their occurrences do not
overlap, a text can be cut in front of any mark, and text without the mark is passed over.
-/

namespace Foundation.Replace

variable {α : Type*} [DecidableEq α]

/-- The loop of `replace`, with so many elements of an occurrence still to be passed over. -/
def replaceFrom (pattern value : List α) : Nat → List α → List α
  | _, [] => []
  | skip + 1, _ :: rest => replaceFrom pattern value skip rest
  | 0, first :: rest =>
      if pattern <+: first :: rest then
        value ++ replaceFrom pattern value (pattern.length - 1) rest
      else first :: replaceFrom pattern value 0 rest

/-- Every occurrence of the pattern, which is not empty, is replaced by the value. -/
def replace (pattern value text : List α) : List α := replaceFrom pattern value 0 text

/-- The number of places where the pattern stands. -/
def occurrences (pattern : List α) : List α → Nat
  | [] => 0
  | first :: rest => (if pattern <+: first :: rest then 1 else 0) + occurrences pattern rest

/-! ### Single steps -/

theorem replaceFrom_eq (pattern value : List α) (skip : Nat) (text : List α) :
    replaceFrom pattern value skip text = replace pattern value (text.drop skip) := by
  induction text generalizing skip with
  | nil => rw [List.drop_nil, replace, replaceFrom, replaceFrom]
  | cons first rest ih =>
      cases skip with
      | zero => rfl
      | succ skip =>
          rw [replaceFrom, List.drop_succ_cons]
          exact ih skip

@[simp] theorem replace_nil (pattern value : List α) : replace pattern value [] = [] := rfl

theorem replace_cons_of_absent {pattern value : List α} {first : α} {rest : List α}
    (other : ¬ pattern <+: first :: rest) :
    replace pattern value (first :: rest) = first :: replace pattern value rest := by
  rw [replace, replaceFrom, if_neg other]
  rfl

theorem replace_pattern_append (mark : α) (body value rest : List α) :
    replace (mark :: body) value (mark :: body ++ rest) =
      value ++ replace (mark :: body) value rest := by
  rw [List.cons_append, replace, replaceFrom, if_pos (by simp), replaceFrom_eq]
  simp

/-- Induction on what `replace` comes to. -/
@[elab_as_elim]
theorem scan {P : List α → Prop} (mark : α) (body : List α) (nil : P [])
    (here : ∀ rest, P rest → P (mark :: body ++ rest))
    (other : ∀ first rest, ¬ mark :: body <+: first :: rest → P rest → P (first :: rest))
    (text : List α) : P text := by
  induction size : text.length using Nat.strongRecOn generalizing text with
  | ind length ih =>
      cases text with
      | nil => exact nil
      | cons first rest =>
          by_cases found : mark :: body <+: first :: rest
          · obtain ⟨after, whole⟩ := found
            rw [← whole]
            refine here after (ih after.length ?_ after rfl)
            rw [← size, ← whole, List.length_append, List.length_cons]
            omega
          · refine other first rest found (ih rest.length ?_ rest rfl)
            rw [← size, List.length_cons]
            omega

theorem replace_self (mark : α) (body text : List α) :
    replace (mark :: body) (mark :: body) text = text := by
  induction text using scan mark body with
  | nil => rfl
  | here rest ih => rw [replace_pattern_append, ih]
  | other first rest absent ih => rw [replace_cons_of_absent absent, ih]

theorem replace_of_occurrences_eq_zero {pattern value text : List α}
    (none : occurrences pattern text = 0) : replace pattern value text = text := by
  induction text with
  | nil => rfl
  | cons first rest ih =>
      rw [occurrences, Nat.add_eq_zero_iff] at none
      have absent : ¬ pattern <+: first :: rest := by
        intro found
        rw [if_pos found] at none
        omega
      rw [replace_cons_of_absent absent, ih none.2]

/-- Two texts put together have the occurrences of both. -/
theorem occurrences_add_le (pattern front back : List α) :
    occurrences pattern front + occurrences pattern back ≤ occurrences pattern (front ++ back) := by
  induction front with
  | nil =>
      rw [List.nil_append, occurrences]
      omega
  | cons first rest ih =>
      rw [List.cons_append, occurrences, occurrences]
      have kept : (if pattern <+: first :: rest then 1 else 0) ≤
          if pattern <+: first :: (rest ++ back) then 1 else 0 := by
        by_cases found : pattern <+: first :: rest
        · have longer : pattern <+: first :: (rest ++ back) :=
            found.trans (List.prefix_append (first :: rest) back)
          rw [if_pos found, if_pos longer]
        · rw [if_neg found]
          exact Nat.zero_le _
      omega

/-! ### Marked patterns -/

section Marked

variable {mark : α} {body : List α} (value : List α)

omit [DecidableEq α] in
theorem not_prefix_of_ne {first : α} (other : first ≠ mark) (rest : List α) :
    ¬ mark :: body <+: first :: rest := by
  intro found
  exact other (List.cons_prefix_cons.mp found).1.symm

/-- Text without the mark is passed over. -/
theorem replace_append_of_notMem {front : List α} (free : mark ∉ front) (back : List α) :
    replace (mark :: body) value (front ++ back) =
      front ++ replace (mark :: body) value back := by
  induction front with
  | nil => rfl
  | cons first rest ih =>
      obtain ⟨other, later⟩ := not_or.mp (mt List.mem_cons.mpr free)
      rw [List.cons_append, replace_cons_of_absent (not_prefix_of_ne (Ne.symm other) _),
        ih later, List.cons_append]

theorem occurrences_append_of_notMem {front : List α} (free : mark ∉ front) (back : List α) :
    occurrences (mark :: body) (front ++ back) = occurrences (mark :: body) back := by
  induction front with
  | nil => rfl
  | cons first rest ih =>
      obtain ⟨other, later⟩ := not_or.mp (mt List.mem_cons.mpr free)
      rw [List.cons_append, occurrences, if_neg (not_prefix_of_ne (Ne.symm other) _), ih later,
        Nat.zero_add]

theorem occurrences_of_notMem {text : List α} (free : mark ∉ text) :
    occurrences (mark :: body) text = 0 := by
  rw [← List.append_nil text, occurrences_append_of_notMem free, occurrences]

/-- Every occurrence brings the marks of the value and takes its own away. -/
theorem count_replace (text : List α) (free : mark ∉ body) :
    (replace (mark :: body) value text).count mark + occurrences (mark :: body) text =
      text.count mark + occurrences (mark :: body) text * value.count mark := by
  have once : (mark :: body).count mark = 1 := by
    rw [List.count_cons_self, List.count_eq_zero.mpr free]
  induction text using scan mark body with
  | nil => simp [occurrences]
  | here rest ih =>
      have found : occurrences (mark :: body) (mark :: body ++ rest) =
          1 + occurrences (mark :: body) rest := by
        rw [List.cons_append, occurrences, if_pos (by simp), occurrences_append_of_notMem free]
      rw [replace_pattern_append, found, List.count_append, List.count_append, once, Nat.add_mul]
      omega
  | other first rest absent ih =>
      rw [replace_cons_of_absent absent, occurrences, if_neg absent, Nat.zero_add,
        List.count_cons, List.count_cons]
      omega

variable (free : mark ∉ body)

include free

omit [DecidableEq α] in
/-- A pattern does not stand across the next mark. -/
theorem prefix_append_mark_iff {front back : List α} :
    body <+: front ++ mark :: back ↔ body <+: front := by
  constructor
  · intro found
    by_cases long : body.length ≤ front.length
    · exact List.prefix_of_prefix_length_le found (List.prefix_append front _) long
    · refine absurd ?_ free
      have beginning : front ++ [mark] <+: front ++ mark :: back := ⟨back, by simp⟩
      have reaches : front ++ [mark] <+: body := by
        apply List.prefix_of_prefix_length_le beginning found
        rw [List.length_append, List.length_singleton]
        omega
      exact reaches.subset (by simp)
  · exact fun found => found.trans (List.prefix_append front _)

theorem occurrences_pattern_append (rest : List α) :
    occurrences (mark :: body) (mark :: body ++ rest) = 1 + occurrences (mark :: body) rest := by
  rw [List.cons_append, occurrences, if_pos (by simp), occurrences_append_of_notMem free]

/-- A text can be cut in front of a mark. -/
theorem replace_append_mark (front back : List α) :
    replace (mark :: body) value (front ++ mark :: back) =
      replace (mark :: body) value front ++ replace (mark :: body) value (mark :: back) := by
  induction front using scan mark body with
  | nil => rfl
  | here rest ih =>
      rw [List.append_assoc, replace_pattern_append, replace_pattern_append, ih,
        List.append_assoc]
  | other first rest absent ih =>
      have still : ¬ mark :: body <+: first :: (rest ++ mark :: back) := by
        intro found
        obtain ⟨same, inside⟩ := List.cons_prefix_cons.mp found
        exact absent (List.cons_prefix_cons.mpr ⟨same, (prefix_append_mark_iff free).mp inside⟩)
      rw [List.cons_append, replace_cons_of_absent still, ih,
        replace_cons_of_absent absent, List.cons_append]

theorem occurrences_append_mark (front back : List α) :
    occurrences (mark :: body) (front ++ mark :: back) =
      occurrences (mark :: body) front + occurrences (mark :: body) (mark :: back) := by
  induction front with
  | nil => rw [List.nil_append, occurrences, Nat.zero_add]
  | cons first rest ih =>
      have same : mark :: body <+: first :: (rest ++ mark :: back) ↔
          mark :: body <+: first :: rest := by
        rw [List.cons_prefix_cons, List.cons_prefix_cons, prefix_append_mark_iff free]
      rw [List.cons_append, occurrences, occurrences, ih, Nat.add_assoc]
      simp only [same]

end Marked

/-! ### Two patterns -/

section Two

variable {mark : α} {body other : List α} (value : List α)

omit [DecidableEq α] in
/-- A different pattern is no prefix of a text that begins with this one. -/
theorem not_prefix_pattern_append (apart : ¬ body <+: other) (apart' : ¬ other <+: body)
    (rest : List α) : ¬ mark :: body <+: mark :: other ++ rest := by
  intro found
  have inside := (List.cons_prefix_cons.mp found).2
  obtain shorter | longer := List.prefix_or_prefix_of_prefix inside (List.prefix_append other rest)
  · exact apart shorter
  · exact apart' longer

/-- A different pattern is passed over. -/
theorem replace_other_append (free : mark ∉ other) (apart : ¬ body <+: other)
    (apart' : ¬ other <+: body) (rest : List α) :
    replace (mark :: body) value (mark :: other ++ rest) =
      mark :: other ++ replace (mark :: body) value rest := by
  have absent : ¬ mark :: body <+: mark :: (other ++ rest) :=
    not_prefix_pattern_append apart apart' rest
  rw [List.cons_append, replace_cons_of_absent absent, replace_append_of_notMem value free,
    List.cons_append]

theorem occurrences_other_append (free : mark ∉ other) (apart : ¬ body <+: other)
    (apart' : ¬ other <+: body) (rest : List α) :
    occurrences (mark :: body) (mark :: other ++ rest) = occurrences (mark :: body) rest := by
  have absent : ¬ mark :: body <+: mark :: (other ++ rest) :=
    not_prefix_pattern_append apart apart' rest
  rw [List.cons_append, occurrences, if_neg absent, occurrences_append_of_notMem free,
    Nat.zero_add]

/-- Replacing one pattern leaves every occurrence of another one standing. -/
theorem occurrences_le_replace (free : mark ∉ body) (freeOther : mark ∉ other)
    (apart : ¬ body <+: other) (apart' : ¬ other <+: body) (text : List α) :
    occurrences (mark :: other) text ≤
      occurrences (mark :: other) (replace (mark :: body) value text) := by
  induction text using scan mark body with
  | nil => exact Nat.le_refl _
  | here rest ih =>
      rw [replace_pattern_append, occurrences_other_append free apart' apart]
      have joined := occurrences_add_le (mark :: other) value (replace (mark :: body) value rest)
      omega
  | other first rest absent ih =>
      rw [replace_cons_of_absent absent, occurrences, occurrences]
      have kept : (if mark :: other <+: first :: rest then 1 else 0) ≤
          if mark :: other <+: first :: replace (mark :: body) value rest then 1 else 0 := by
        by_cases found : mark :: other <+: first :: rest
        · obtain ⟨same, after, whole⟩ := List.cons_prefix_cons.mp found
          have still : mark :: other <+: first :: replace (mark :: body) value rest := by
            rw [← whole, replace_append_of_notMem value freeOther]
            exact List.cons_prefix_cons.mpr ⟨same, List.prefix_append _ _⟩
          rw [if_pos found, if_pos still]
        · rw [if_neg found]
          exact Nat.zero_le _
      omega

end Two

end Foundation.Replace
