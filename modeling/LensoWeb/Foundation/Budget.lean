import Mathlib

/-!
# Byte budgets

A loop that takes items one after another, pays for each of them out of a fixed
budget and stops at the first item it cannot pay for. Whether such a loop ends
well depends on the total only, not on the order of the items, so two loops over
permuted inputs agree.

The words of a machine enter through `checkedAdd` and `saturatingAdd`. Both are
exact as long as the budget fits the word.
-/

namespace Foundation

/-- `usize::checked_add` where a word has the given number of bits. -/
def checkedAdd (bits left right : Nat) : Option Nat :=
  if left + right < 2 ^ bits then some (left + right) else none

/-- `usize::saturating_add`. -/
def saturatingAdd (bits left right : Nat) : Nat := min (left + right) (2 ^ bits - 1)

/-- Saturation is invisible to a comparison with anything below the largest word. -/
theorem lt_saturatingAdd_iff {bits left right limit : Nat} (small : limit + 1 < 2 ^ bits) :
    limit < saturatingAdd bits left right ↔ limit < left + right := by
  rw [saturatingAdd]
  omega

/-- A sum that stays below the largest word is exact. -/
theorem saturatingAdd_eq {bits left right : Nat} (small : left + right < 2 ^ bits) :
    saturatingAdd bits left right = left + right := by
  rw [saturatingAdd]
  omega

namespace Budget

variable {ε α σ : Type}

/-- What the items cost together. -/
def total (cost : α → Nat) (items : List α) : Nat := (items.map cost).sum

@[simp] theorem total_nil (cost : α → Nat) : total cost [] = 0 := rfl

@[simp] theorem total_cons (cost : α → Nat) (item : α) (rest : List α) :
    total cost (item :: rest) = cost item + total cost rest := rfl

theorem total_perm {cost : α → Nat} {left right : List α} (same : left.Perm right) :
    total cost left = total cost right := (same.map cost).sum_eq

theorem total_append (cost : α → Nat) (left right : List α) :
    total cost (left ++ right) = total cost left + total cost right := by
  simp [total]

/-- Dropping items never raises the cost. -/
theorem total_filter_le (cost : α → Nat) (keep : α → Bool) (items : List α) :
    total cost (items.filter keep) ≤ total cost items :=
  (List.filter_sublist.map cost).sum_le_sum fun _ _ => Nat.zero_le _

/-- Items that are skipped cost nothing. -/
theorem total_skip (cost : α → Nat) (keep : α → Bool) (items : List α) :
    total (fun item => if keep item then cost item else 0) items =
      total cost (items.filter keep) := by
  induction items with
  | nil => rfl
  | cons item rest ih =>
      rw [total_cons, ih]
      by_cases kept : keep item = true
      · rw [List.filter_cons_of_pos kept, total_cons, if_pos kept]
      · rw [List.filter_cons_of_neg kept, if_neg kept, Nat.zero_add]

/-- Where every item has a least cost, the total bounds the number of items. -/
theorem mul_length_le_total {cost : α → Nat} {least : Nat} {items : List α}
    (dear : ∀ item ∈ items, least ≤ cost item) : least * items.length ≤ total cost items := by
  induction items with
  | nil => exact Nat.zero_le _
  | cons item rest ih =>
      have first := dear item List.mem_cons_self
      have later := ih fun other member => dear other (List.mem_cons_of_mem _ member)
      rw [List.length_cons, Nat.mul_succ, total_cons]
      omega

theorem forall_split_cons_iff {P : List α → Prop} {first : α} {items : List α} :
    (∀ front item rest, first :: items = front ++ item :: rest → P front) ↔
      P [] ∧ ∀ front item rest, items = front ++ item :: rest → P (first :: front) := by
  constructor
  · intro all
    refine ⟨all [] first items rfl, fun front item rest same => ?_⟩
    exact all (first :: front) item rest (congrArg (first :: ·) same)
  · rintro ⟨empty, others⟩ front item rest same
    cases front with
    | nil => exact empty
    | cons head front =>
        obtain ⟨rfl, remaining⟩ := List.cons.inj same
        exact others front item rest remaining

/-- The rule for a paying loop over a state that may be full. A round succeeds when its
item is acceptable and can be paid for, and the state has room; the loop succeeds when all
items are acceptable, the total can be paid for, and the state has room in every round. -/
theorem foldlM_eq_ok_of_room {body : σ × Nat → α → Except ε (σ × Nat)} {Fine : α → Prop}
    {Room : σ → Prop} {cost : α → Nat} {extend : σ → α → σ} {limit : Nat} {items : List α}
    (round : ∀ item ∈ items, ∀ state next, state.2 ≤ limit → (body state item = .ok next ↔
      Fine item ∧ state.2 + cost item ≤ limit ∧ Room state.1 ∧
        next = (extend state.1 item, state.2 + cost item)))
    {state final : σ × Nat} (solvent : state.2 ≤ limit) :
    items.foldlM body state = .ok final ↔
      (∀ item ∈ items, Fine item) ∧ state.2 + total cost items ≤ limit ∧
        (∀ front item rest, items = front ++ item :: rest → Room (front.foldl extend state.1)) ∧
        final = (items.foldl extend state.1, state.2 + total cost items) := by
  induction items generalizing state with
  | nil =>
      have none : ∀ front item rest, [] = front ++ item :: rest →
          Room (front.foldl extend state.1) := by simp
      simp only [List.foldlM_nil, List.not_mem_nil, total_nil, List.foldl_nil, Nat.add_zero,
        false_imp_iff, implies_true, true_and, solvent, and_iff_right none]
      constructor
      · intro returned
        cases returned
        rfl
      · rintro rfl
        rfl
  | cons item rest ih =>
      have here := round item List.mem_cons_self
      have there := fun other member => round other (List.mem_cons_of_mem item member)
      rw [List.foldlM_cons, List.forall_mem_cons, total_cons, List.foldl_cons,
        forall_split_cons_iff]
      constructor
      · intro looped
        cases first : body state item with
        | error failure =>
            rw [first] at looped
            cases looped
        | ok next =>
            rw [first] at looped
            obtain ⟨fine, paid, room, rfl⟩ := (here state next solvent).mp first
            obtain ⟨others, enough, rooms, rfl⟩ := (ih there paid).mp looped
            refine ⟨⟨fine, others⟩, by simp only at enough; omega, ⟨room, rooms⟩, ?_⟩
            simp only [Nat.add_assoc]
      · rintro ⟨⟨fine, others⟩, enough, ⟨room, rooms⟩, rfl⟩
        have paid : state.2 + cost item ≤ limit := by omega
        rw [(here state _ solvent).mpr ⟨fine, paid, room, rfl⟩]
        refine (ih there paid).mpr ⟨others, by simp only; omega, rooms, ?_⟩
        simp only [Nat.add_assoc]

/-- The rule where the state is never full. -/
theorem foldlM_eq_ok {body : σ × Nat → α → Except ε (σ × Nat)} {Fine : α → Prop}
    {cost : α → Nat} {extend : σ → α → σ} {limit : Nat} {items : List α}
    (round : ∀ item ∈ items, ∀ state next, state.2 ≤ limit → (body state item = .ok next ↔
      Fine item ∧ state.2 + cost item ≤ limit ∧
        next = (extend state.1 item, state.2 + cost item)))
    {state final : σ × Nat} (solvent : state.2 ≤ limit) :
    items.foldlM body state = .ok final ↔
      (∀ item ∈ items, Fine item) ∧ state.2 + total cost items ≤ limit ∧
        final = (items.foldl extend state.1, state.2 + total cost items) := by
  have roomy : ∀ item ∈ items, ∀ state next, state.2 ≤ limit → (body state item = .ok next ↔
      Fine item ∧ state.2 + cost item ≤ limit ∧ True ∧
        next = (extend state.1 item, state.2 + cost item)) := by
    simpa only [true_and] using round
  simpa only [implies_true, true_and] using
    @foldlM_eq_ok_of_room _ _ _ body Fine (fun _ => True) cost extend limit items roomy state
      final solvent

/-- The plainest round: pay for the item and keep it. -/
def push (failure : ε) (cost : α → Nat) (limit : Nat) (state : List α × Nat) (item : α) :
    Except ε (List α × Nat) :=
  if limit < state.2 + cost item then .error failure
  else .ok (state.1 ++ [item], state.2 + cost item)

theorem push_eq_ok {failure : ε} {cost : α → Nat} {limit : Nat} {state next : List α × Nat}
    {item : α} :
    push failure cost limit state item = .ok next ↔
      state.2 + cost item ≤ limit ∧ next = (state.1 ++ [item], state.2 + cost item) := by
  rw [push]
  by_cases paid : state.2 + cost item ≤ limit
  · rw [if_neg (Nat.not_lt.mpr paid), Except.ok.injEq]
    simp only [paid, true_and]
    exact eq_comm
  · rw [if_pos (Nat.lt_of_not_le paid)]
    simp only [paid, false_and, iff_false]
    intro impossible
    cases impossible

/-- A loop that keeps what it pays for keeps everything or fails. -/
theorem foldlM_push_eq_ok {failure : ε} {cost : α → Nat} {limit : Nat} {items : List α}
    {state final : List α × Nat} (solvent : state.2 ≤ limit) :
    items.foldlM (push failure cost limit) state = .ok final ↔
      state.2 + total cost items ≤ limit ∧
        final = (state.1 ++ items, state.2 + total cost items) := by
  have kept : ∀ done : List α, items.foldl List.concat done = done ++ items := by
    induction items with
    | nil => simp
    | cons item rest ih => simp [ih]
  have round : ∀ item ∈ items, ∀ state next : List α × Nat, state.2 ≤ limit →
      (push failure cost limit state item = .ok next ↔ True ∧ state.2 + cost item ≤ limit ∧
        next = (state.1.concat item, state.2 + cost item)) := by
    intro item _ state next _
    rw [push_eq_ok, List.concat_eq_append, true_and]
  rw [foldlM_eq_ok round solvent, kept]
  simp only [implies_true, true_and]

theorem push_eq_error {failure error : ε} {cost : α → Nat} {limit : Nat} {state : List α × Nat}
    {item : α} (failed : push failure cost limit state item = .error error) : error = failure := by
  rw [push] at failed
  split at failed
  · cases failed
    rfl
  · cases failed

/-- Such a loop fails for want of budget only. -/
theorem foldlM_push_eq_error {failure error : ε} {cost : α → Nat} {limit : Nat} {items : List α}
    {state : List α × Nat} (failed : items.foldlM (push failure cost limit) state = .error error) :
    error = failure := by
  induction items generalizing state with
  | nil => cases failed
  | cons item rest ih =>
      rw [List.foldlM_cons] at failed
      cases first : push failure cost limit state item with
      | error cause =>
          rw [first] at failed
          cases failed
          exact push_eq_error first
      | ok next =>
          rw [first] at failed
          exact ih failed

end Budget

end Foundation
