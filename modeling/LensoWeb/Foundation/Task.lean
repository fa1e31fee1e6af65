import Mathlib

/-!
# Asynchronous calls as state-passing functions

A call that is awaited to its end returns a value, stays suspended for ever, or
unwinds. `Task` threads a state through such calls; the state is kept in all
three cases, because what a call did before it unwound has still happened.

Suspension and unwinding skip the rest of a sequence. Only `catchUnwind` turns
an unwinding into a value again.
-/

namespace Foundation

universe u v

/-- How an awaited call ends. -/
inductive Outcome (α : Type v) where
  | ready (value : α)
  | pending
  | panicked
deriving DecidableEq

/-- A call that reads and writes a state of type `σ`. -/
def Task (σ : Type u) (α : Type v) := σ → Outcome α × σ

namespace Task

variable {σ : Type u} {α β : Type v}

/-- Return a value. -/
def ready (value : α) : Task σ α := fun s => (.ready value, s)

/-- Suspend for ever. -/
def never : Task σ α := fun s => (.pending, s)

/-- Unwind. -/
def panic : Task σ α := fun s => (.panicked, s)

/-- Run one call after another. -/
def andThen (first : Task σ α) (rest : α → Task σ β) : Task σ β := fun s =>
  match first s with
  | (.ready value, t) => rest value t
  | (.pending, t) => (.pending, t)
  | (.panicked, t) => (.panicked, t)

instance : Monad (Task σ) where
  pure := ready
  bind := andThen

/-- Update the state. -/
def update (change : σ → σ) : Task σ Unit := fun s => (.ready (), change s)

/-- A call whose end is known and which leaves the state alone. -/
def ofOutcome : Outcome α → Task σ α
  | .ready value => ready value
  | .pending => never
  | .panicked => panic

/-- `Option::expect`: a missing value unwinds. -/
def expect : Option α → Task σ α
  | some value => ready value
  | none => panic

/-- `FutureExt::catch_unwind`: `none` stands for a caught unwinding. -/
def catchUnwind (call : Task σ α) : Task σ (Option α) := fun s =>
  match call s with
  | (.ready value, t) => (.ready (some value), t)
  | (.pending, t) => (.pending, t)
  | (.panicked, t) => (.ready none, t)

/-- A part of a state that can be read and replaced. -/
structure Part (σ : Type u) (τ : Type u) where
  get : σ → τ
  set : τ → σ → σ
  get_set : ∀ t s, get (set t s) = t
  set_get : ∀ s, set (get s) s = s
  set_set : ∀ t t' s, set t' (set t s) = set t' s

/-- Run a call on a part of the state and leave the rest alone. -/
def within {τ : Type u} (part : Part σ τ) (call : Task τ α) : Task σ α := fun s =>
  ((call (part.get s)).1, part.set (call (part.get s)).2 s)

@[simp] theorem pure_apply (value : α) (s : σ) :
    (pure value : Task σ α) s = (.ready value, s) := rfl

theorem bind_apply (first : Task σ α) (rest : α → Task σ β) (s : σ) :
    (first >>= rest) s = match first s with
      | (.ready value, t) => rest value t
      | (.pending, t) => (.pending, t)
      | (.panicked, t) => (.panicked, t) := rfl

theorem bind_of_ready {first : Task σ α} {rest : α → Task σ β} {s t : σ} {value : α}
    (returned : first s = (.ready value, t)) : (first >>= rest) s = rest value t := by
  rw [bind_apply, returned]

/-- A sequence returns only if both parts do. -/
theorem bind_ready_iff {first : Task σ α} {rest : α → Task σ β} {s u : σ} {result : β} :
    (first >>= rest) s = (.ready result, u) ↔
      ∃ value t, first s = (.ready value, t) ∧ rest value t = (.ready result, u) := by
  rw [bind_apply]
  constructor
  · intro returned
    rcases whole : first s with ⟨outcome, t⟩
    rw [whole] at returned
    cases outcome with
    | ready value => exact ⟨value, t, rfl, returned⟩
    | pending => simp at returned
    | panicked => simp at returned
  · rintro ⟨value, t, prior, returned⟩
    rw [prior]
    exact returned

theorem expect_bind_ready_iff {value : Option α} {rest : α → Task σ β} {s u : σ} {result : β} :
    (expect value >>= rest) s = (.ready result, u) ↔
      ∃ found, value = some found ∧ rest found s = (.ready result, u) := by
  cases value with
  | none =>
      constructor
      · intro impossible
        cases impossible
      · rintro ⟨found, impossible, -⟩
        cases impossible
  | some found =>
      constructor
      · exact fun returned => ⟨found, rfl, returned⟩
      · rintro ⟨found', same, returned⟩
        cases same
        exact returned

instance : LawfulMonad (Task σ) := LawfulMonad.mk' (Task σ)
  (fun call => by
    funext s
    show (call >>= fun value => pure value) s = call s
    rw [bind_apply]
    obtain ⟨_ | _ | _, t⟩ := call s <;> rfl)
  (fun _ _ => rfl)
  (fun first second third => by
    funext s
    rw [bind_apply, bind_apply, bind_apply]
    obtain ⟨_ | _ | _, t⟩ := first s <;> rfl)

/-! ### How a call ends -/

/-- The property holds of the outcome and of the state that the call leaves. -/
def Ends (call : Task σ α) (s : σ) (Q : Outcome α → σ → Prop) : Prop := Q (call s).1 (call s).2

/-- The property for a call that is followed by another one. -/
def After (rest : α → Task σ β) (Q : Outcome β → σ → Prop) : Outcome α → σ → Prop
  | .ready value, t => (rest value).Ends t Q
  | .pending, t => Q .pending t
  | .panicked, t => Q .panicked t

namespace Ends

variable {Q : Outcome β → σ → Prop} {s : σ}

theorem bind {first : Task σ α} {rest : α → Task σ β} (front : first.Ends s (After rest Q)) :
    (first >>= rest).Ends s Q := by
  unfold Ends at front ⊢
  rw [bind_apply]
  rcases whole : first s with ⟨_ | _ | _, t⟩ <;>
    · rw [whole] at front
      exact front

theorem expect_bind {value : Option α} {rest : α → Task σ β} (missing : Q .panicked s)
    (present : ∀ found, value = some found → (rest found).Ends s Q) :
    (Task.expect value >>= rest).Ends s Q := by
  cases value with
  | none => exact missing
  | some found => exact present found rfl

end Ends

/-- Whatever the call returns has the property. -/
def Yields (call : Task σ α) (P : α → Prop) : Prop :=
  ∀ s value t, call s = (.ready value, t) → P value

namespace Yields

variable {P : β → Prop}

theorem pure {value : β} (holds : P value) : (Pure.pure value : Task σ β).Yields P := by
  rintro s value t ⟨⟩
  exact holds

theorem panic : (Task.panic : Task σ β).Yields P := by
  rintro s value t ⟨⟩

theorem never : (Task.never : Task σ β).Yields P := by
  rintro s value t ⟨⟩

theorem bind {first : Task σ α} {rest : α → Task σ β} (back : ∀ value, (rest value).Yields P) :
    (first >>= rest).Yields P := by
  intro s result u returned
  obtain ⟨value, t, -, last⟩ := bind_ready_iff.mp returned
  exact back value t result u last

/-- What the first part yields may be used for the second. -/
theorem bind_of {first : Task σ α} {rest : α → Task σ β} {R : α → Prop} (front : first.Yields R)
    (back : ∀ value, R value → (rest value).Yields P) : (first >>= rest).Yields P := by
  intro s result u returned
  obtain ⟨value, t, prior, last⟩ := bind_ready_iff.mp returned
  exact back value (front s value t prior) t result u last

end Yields

/-! ### Calls on a part of the state -/

section Within

variable {τ : Type u} (part : Part σ τ)

end Within

/-! ### State invariants -/

/-- The call keeps a property of the state, however it ends. -/
def Keeps (call : Task σ α) (invariant : σ → Prop) : Prop :=
  ∀ s, invariant s → invariant (call s).2

namespace Keeps

variable {invariant : σ → Prop}

theorem pure (value : α) : (Pure.pure value : Task σ α).Keeps invariant := fun _ holds => holds

theorem never : (Task.never : Task σ α).Keeps invariant := fun _ holds => holds

theorem panic : (Task.panic : Task σ α).Keeps invariant := fun _ holds => holds

theorem bind {first : Task σ α} {rest : α → Task σ β} (front : first.Keeps invariant)
    (back : ∀ value, (rest value).Keeps invariant) : (first >>= rest).Keeps invariant := by
  intro s holds
  have middle := front s holds
  rw [bind_apply]
  rcases whole : first s with ⟨outcome, t⟩
  rw [whole] at middle
  cases outcome with
  | ready value => exact back value t middle
  | pending => exact middle
  | panicked => exact middle

theorem update {change : σ → σ} (kept : ∀ s, invariant s → invariant (change s)) :
    (Task.update change).Keeps invariant := kept

theorem expect (value : Option α) : (Task.expect value : Task σ α).Keeps invariant := by
  cases value <;> exact fun _ holds => holds

theorem within {τ : Type u} (part : Part σ τ) {call : Task τ α}
    (kept : ∀ t s, invariant s → invariant (part.set t s)) :
    (call.within part).Keeps invariant := fun s holds => kept _ s holds

theorem catchUnwind {call : Task σ α} (kept : call.Keeps invariant) :
    call.catchUnwind.Keeps invariant := by
  intro s holds
  have after := kept s holds
  rw [Task.catchUnwind]
  rcases whole : call s with ⟨outcome, t⟩
  rw [whole] at after
  cases outcome <;> exact after

end Keeps

end Task

end Foundation
