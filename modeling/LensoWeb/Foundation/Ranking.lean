import LensoWeb.Foundation.Transition

/-!
# Runs that cannot go on for ever

A rank that some actions lower bounds the runs of these actions. Such a run can
therefore be continued until none of the actions is possible, and what holds of
states where none is possible is what such a run leads to.
-/

namespace Foundation

namespace Machine

variable {σ α : Type*} {machine : Machine σ α}

/-- Every step of these actions lowers the rank. -/
def Lowers (machine : Machine σ α) (actions : α → Prop) (rank : σ → Nat) : Prop :=
  ∀ s a t, actions a → machine.step s a = some t → rank t < rank s

/-- None of these actions is possible. -/
def Settled (machine : Machine σ α) (actions : α → Prop) (s : σ) : Prop :=
  ∀ a, actions a → machine.step s a = none

variable {allowed : α → Prop} {rank : σ → Nat}

theorem Lowers.length_add_rank_le (lowers : machine.Lowers allowed rank) {actions : List α}
    {s t : σ} (chosen : ∀ a ∈ actions, allowed a) (execution : machine.run actions s = some t) :
    actions.length + rank t ≤ rank s := by
  induction actions generalizing s with
  | nil =>
      cases execution
      simp
  | cons a rest ih =>
      obtain ⟨u, transition, remaining⟩ := run_cons_iff.mp execution
      have first := lowers s a u (chosen a List.mem_cons_self) transition
      have more := ih (fun b member => chosen b (List.mem_cons_of_mem _ member)) remaining
      rw [List.length_cons]
      omega

/-- A run of these actions that was broken off can be finished. -/
theorem Lowers.exists_settled (lowers : machine.Lowers allowed rank) (s : σ) :
    ∃ actions t, (∀ a ∈ actions, allowed a) ∧ machine.run actions s = some t ∧
      machine.Settled allowed t := by
  induction bound : rank s using Nat.strong_induction_on generalizing s with
  | _ bound' ih =>
      by_cases settled : machine.Settled allowed s
      · exact ⟨[], s, nofun, rfl, settled⟩
      · unfold Settled at settled
        push Not at settled
        obtain ⟨a, chosen, possible⟩ := settled
        obtain ⟨u, transition⟩ := Option.ne_none_iff_exists'.mp possible
        have lower := lowers s a u chosen transition
        obtain ⟨actions, t, rest, execution, settled⟩ := ih (rank u) (by omega) u rfl
        refine ⟨a :: actions, t, ?_, run_cons_iff.mpr ⟨u, transition, execution⟩, settled⟩
        intro b member
        obtain rfl | member := List.mem_cons.mp member
        · exact chosen
        · exact rest b member

end Machine

end Foundation
