import Mathlib

/-!
# Counting over a population

A population is a list in which every party keeps its place. A weight says how
much a party holds of some resource, and the census adds the weights up. Parties
join at the end, and a party that changes is replaced in its place, so a step of
one party moves the census by the difference of two weights.
-/

namespace Foundation

variable {α : Type*} (weight : α → Nat)

/-- What all parties hold together. -/
def census (parties : List α) : Nat := (parties.map weight).sum

@[simp] theorem census_nil : census weight [] = 0 := rfl

@[simp] theorem census_cons (party : α) (rest : List α) :
    census weight (party :: rest) = weight party + census weight rest := by
  rw [census, List.map_cons, List.sum_cons, census]

@[simp] theorem census_append (front back : List α) :
    census weight (front ++ back) = census weight front + census weight back := by
  rw [census, List.map_append, List.sum_append, census, census]

/-- Replacing a party moves the census by the difference of the two weights. -/
theorem census_set {parties : List α} {index : Nat} {old : α} (present : parties[index]? = some old)
    (new : α) :
    census weight (parties.set index new) + weight old = census weight parties + weight new := by
  induction parties generalizing index with
  | nil => simp at present
  | cons party rest ih =>
      cases index with
      | zero =>
          obtain rfl : party = old := by simpa using present
          simp only [List.set_cons_zero, census_cons]
          omega
      | succ index =>
          have remaining := ih (by simpa using present)
          simp only [List.set_cons_succ, census_cons]
          omega

/-- One party holds at most what all hold. -/
theorem weight_le_census {parties : List α} {index : Nat} {party : α}
    (present : parties[index]? = some party) : weight party ≤ census weight parties :=
  List.le_sum_of_mem (List.mem_map_of_mem (List.mem_of_getElem? present))

variable {weight}

/-- Weights that add up for every party add up for the population. -/
theorem census_add {first second : α → Nat} {parties : List α}
    (split : ∀ party ∈ parties, weight party = first party + second party) :
    census weight parties = census first parties + census second parties := by
  induction parties with
  | nil => rfl
  | cons party rest ih =>
      have head := split party List.mem_cons_self
      have tail := ih fun other inside => split other (List.mem_cons_of_mem _ inside)
      simp only [census_cons]
      omega

/-- If the parties hold more by one weight than by another, some party does. -/
theorem exists_of_census_lt {first second : α → Nat} {parties : List α}
    (less : census first parties < census second parties) :
    ∃ (index : Nat) (party : α), parties[index]? = some party ∧ first party < second party := by
  induction parties with
  | nil => simp at less
  | cons party rest ih =>
      by_cases smaller : first party < second party
      · exact ⟨0, party, rfl, smaller⟩
      · rw [census_cons, census_cons] at less
        obtain ⟨index, other, present, smaller⟩ := ih (by omega)
        exact ⟨index + 1, other, present, smaller⟩

/-- A weight that is smaller for every party is smaller for the population. -/
theorem census_le {first second : α → Nat} {parties : List α}
    (smaller : ∀ party ∈ parties, first party ≤ second party) :
    census first parties ≤ census second parties := by
  induction parties with
  | nil => exact le_rfl
  | cons party rest ih =>
      have head := smaller party List.mem_cons_self
      have tail := ih fun other inside => smaller other (List.mem_cons_of_mem _ inside)
      simp only [census_cons]
      omega

/-- Weights that are spread over finitely many classes add up class by class. -/
theorem census_sum {ι : Type*} [Fintype ι] {classes : ι → α → Nat} (parties : List α) :
    census (fun party => ∑ i, classes i party) parties = ∑ i, census (classes i) parties := by
  induction parties with
  | nil => simp
  | cons party rest ih => simp only [census_cons, ih, Finset.sum_add_distrib]

end Foundation
