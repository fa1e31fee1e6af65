import Mathlib

/-!
# Executable transition systems

A machine has a set of initial states and a partial step function whose action
argument carries every scheduling choice. One action is one atomic segment of
the modelled program; a refused action is not a transition at all.

Runs are finite lists of actions, so an interleaving of several parties is just
a list in which their actions are mixed. Invariants are proved once per step and
lifted to runs by the rules below; concrete runs are evaluated by `run`.
-/

namespace Foundation

/-- A partial, action-deterministic transition system. -/
structure Machine (σ α : Type*) where
  initial : σ → Prop
  step : σ → α → Option σ

namespace Machine

variable {σ α : Type*} {machine : Machine σ α}

/-- Execute the actions from left to right. `none` means that some action was
refused in the state in which it was attempted. -/
def run (machine : Machine σ α) : List α → σ → Option σ
  | [], s => some s
  | a :: rest, s => (machine.step s a).bind (machine.run rest)

theorem run_cons (a : α) (rest : List α) (s : σ) :
    machine.run (a :: rest) s = (machine.step s a).bind (machine.run rest) := rfl

theorem run_cons_iff {a : α} {rest : List α} {s t : σ} :
    machine.run (a :: rest) s = some t ↔
      ∃ u, machine.step s a = some u ∧ machine.run rest u = some t := by
  rw [run_cons, Option.bind_eq_some_iff]

theorem run_append (front back : List α) (s : σ) :
    machine.run (front ++ back) s = (machine.run front s).bind (machine.run back) := by
  induction front generalizing s with
  | nil => rfl
  | cons a rest ih =>
      rw [List.cons_append, run_cons, run_cons]
      cases machine.step s a with
      | none => rfl
      | some u => exact ih u

/-- A state is reachable when some interleaving leads to it from an initial one. -/
def Reachable (machine : Machine σ α) (t : σ) : Prop :=
  ∃ s actions, machine.initial s ∧ machine.run actions s = some t

theorem Reachable.of_initial {s : σ} (start : machine.initial s) : machine.Reachable s :=
  ⟨s, [], start, rfl⟩

theorem Reachable.run {s t : σ} {actions : List α} (reached : machine.Reachable s)
    (execution : machine.run actions s = some t) : machine.Reachable t := by
  obtain ⟨origin, before, start, prior⟩ := reached
  refine ⟨origin, before ++ actions, start, ?_⟩
  rw [run_append, prior]
  exact execution

theorem Reachable.step {s t : σ} {a : α} (reached : machine.Reachable s)
    (transition : machine.step s a = some t) : machine.Reachable t := by
  have execution : machine.run [a] s = some t := run_cons_iff.mpr ⟨t, transition, rfl⟩
  exact reached.run execution

/-- What one step preserves, a whole run preserves. -/
theorem run_preserves {P : σ → Prop}
    (preserved : ∀ s a t, P s → machine.step s a = some t → P t)
    {actions : List α} {s t : σ} (start : P s)
    (execution : machine.run actions s = some t) : P t := by
  induction actions generalizing s with
  | nil =>
      cases execution
      exact start
  | cons a rest ih =>
      obtain ⟨u, transition, remaining⟩ := run_cons_iff.mp execution
      exact ih (preserved s a u start transition) remaining

/-- A machine whose every step is a run of another one is simulated by it. -/
theorem exists_run_of_steps {τ β : Type*} {other : Machine τ β} {R : σ → τ → Prop}
    (each : ∀ s a t u, R s u → machine.step s a = some t →
      ∃ actions v, other.run actions u = some v ∧ R t v)
    {actions : List α} {s t : σ} {u : τ} (related : R s u)
    (execution : machine.run actions s = some t) :
    ∃ others v, other.run others u = some v ∧ R t v := by
  induction actions generalizing s u with
  | nil =>
      cases execution
      exact ⟨[], u, rfl, related⟩
  | cons a rest ih =>
      obtain ⟨middle, transition, remaining⟩ := run_cons_iff.mp execution
      obtain ⟨front, v, first, between⟩ := each s a middle u related transition
      obtain ⟨back, w, second, after⟩ := ih between remaining
      refine ⟨front ++ back, w, ?_, after⟩
      rw [run_append, first]
      exact second

/-- The invariant rule. The step obligation may use that its source state is
itself reachable, so earlier invariants are available for later ones. -/
theorem Reachable.invariant {P : σ → Prop} (base : ∀ s, machine.initial s → P s)
    (preserved : ∀ s a t, machine.Reachable s → P s → machine.step s a = some t → P t)
    {t : σ} (reached : machine.Reachable t) : P t := by
  obtain ⟨s, actions, start, execution⟩ := reached
  have both : machine.Reachable t ∧ P t :=
    run_preserves (P := fun u => machine.Reachable u ∧ P u)
      (fun u a v prior transition =>
        ⟨prior.1.step transition, preserved u a v prior.1 prior.2 transition⟩)
      ⟨.of_initial start, base s start⟩ execution
  exact both.2

end Machine

end Foundation
