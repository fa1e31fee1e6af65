import LensoWeb.Foundation.Result

/-!
# Refinement of fallible computations

One computation refines another when it returns the same result, except that it
may still return a result where the other one gave up. What counts as giving up is
a parameter: running out of a bound, or failing at all. Sequencing and the monadic
list loops are monotone.
-/

namespace Foundation

variable {ε α β γ : Type}

/-- The right side returns what the left side returns, unless the left side gives up. -/
def Refines (GivesUp : ε → Prop) (left right : Except ε α) : Prop :=
  left = right ∨ ∃ failure, GivesUp failure ∧ left = .error failure

namespace Refines

variable {GivesUp : ε → Prop}

theorem refl (result : Except ε α) : Refines GivesUp result result := .inl rfl

/-- A result that does not give up is kept. -/
theorem ok {left right : Except ε α} (refines : Refines GivesUp left right) {value : α}
    (returned : left = .ok value) : right = .ok value := by
  obtain same | ⟨failure, -, failed⟩ := refines
  · rw [← same, returned]
  · rw [failed] at returned
    cases returned

theorem bind {left right : Except ε α} {leftRest rightRest : α → Except ε β}
    (first : Refines GivesUp left right)
    (rest : ∀ value, left = .ok value → Refines GivesUp (leftRest value) (rightRest value)) :
    Refines GivesUp (left >>= leftRest) (right >>= rightRest) := by
  obtain rfl | ⟨failure, stops, rfl⟩ := first
  · cases left with
    | error failure => exact refl _
    | ok value => exact rest value rfl
  · exact .inr ⟨failure, stops, rfl⟩

theorem map {left right : Except ε α} (first : Refines GivesUp left right) (convert : α → β) :
    Refines GivesUp (left.map convert) (right.map convert) := by
  obtain rfl | ⟨failure, stops, rfl⟩ := first
  · exact refl _
  · exact .inr ⟨failure, stops, rfl⟩

theorem mapM {left right : α → Except ε β} {inputs : List α}
    (each : ∀ input ∈ inputs, Refines GivesUp (left input) (right input)) :
    Refines GivesUp (inputs.mapM left) (inputs.mapM right) := by
  induction inputs with
  | nil => exact refl _
  | cons input rest ih =>
      rw [List.mapM_cons, List.mapM_cons]
      refine bind (each input List.mem_cons_self) fun _ _ => ?_
      refine bind (ih fun other member => each other (List.mem_cons_of_mem _ member)) ?_
      exact fun _ _ => refl _

end Refines

end Foundation
