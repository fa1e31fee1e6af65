import Mathlib

/-!
# Bounded channels

A bounded first-in first-out queue with a receiving end that can be dropped.
Sending never waits: it delivers, or says why it cannot. Dropping the receiving
end discards what is queued, so a closed channel is empty.

A system owns many channels. Sums over all of them are read off one channel at a
time by `sum_map_set`, in any commutative monoid: numbers count messages and
multisets say which messages they are.
-/

namespace Foundation

/-- A bounded queue. `isOpen` says whether the receiving end is still held. -/
structure Channel (α : Type*) where
  capacity : Nat
  queue : List α
  isOpen : Bool
  bounded : queue.length ≤ capacity
  drained : isOpen = false → queue = []

/-- Why a value was handed back to the sender. -/
inductive SendRefusal where
  | full
  | closed
deriving DecidableEq

namespace Channel

variable {α : Type*} {channel after : Channel α} {value : α}

/-- A fresh channel. -/
def create (capacity : Nat) : Channel α := ⟨capacity, [], true, Nat.zero_le _, fun _ => rfl⟩

/-- A send would be accepted now. -/
def HasRoom (channel : Channel α) : Prop :=
  channel.isOpen = true ∧ channel.queue.length < channel.capacity

instance (channel : Channel α) : Decidable channel.HasRoom :=
  inferInstanceAs (Decidable (_ ∧ _))

/-- Append a value for which there is room. -/
def push (channel : Channel α) (value : α) (room : channel.HasRoom) : Channel α where
  capacity := channel.capacity
  queue := channel.queue ++ [value]
  isOpen := channel.isOpen
  bounded := by
    rw [List.length_append]
    exact room.2
  drained := fun closed => absurd room.1 (by rw [closed]; exact Bool.false_ne_true)

/-- Send without waiting. A closed channel is reported before a full one. -/
def trySend (channel : Channel α) (value : α) : Except SendRefusal (Channel α) :=
  if room : channel.HasRoom then .ok (channel.push value room)
  else if channel.isOpen then .error .full
  else .error .closed

/-- Take the oldest value. -/
def recv (channel : Channel α) : Option (α × Channel α) :=
  match whole : channel.queue with
  | [] => none
  | value :: rest => some (value,
      { channel with
        queue := rest
        bounded := by
          have bounded := channel.bounded
          rw [whole, List.length_cons] at bounded
          exact Nat.le_of_succ_le bounded
        drained := fun closed => by
          have drained := channel.drained closed
          rw [whole] at drained
          cases drained })

/-- Drop the receiving end. -/
def close (channel : Channel α) : Channel α :=
  { channel with queue := [], isOpen := false, bounded := Nat.zero_le _, drained := fun _ => rfl }

/-- Everything a send can do. -/
theorem trySend_cases (channel : Channel α) (value : α) :
    (∃ room, channel.trySend value = .ok (channel.push value room)) ∨
      (channel.isOpen = true ∧ channel.queue.length = channel.capacity ∧
        channel.trySend value = .error .full) ∨
      (channel.isOpen = false ∧ channel.trySend value = .error .closed) := by
  by_cases room : channel.HasRoom
  · exact .inl ⟨room, dif_pos room⟩
  · cases status : channel.isOpen with
    | true =>
        have full : ¬ channel.queue.length < channel.capacity := fun less => room ⟨status, less⟩
        have bounded := channel.bounded
        refine .inr (.inl ⟨rfl, by omega, ?_⟩)
        rw [trySend, dif_neg room, if_pos status]
    | false =>
        refine .inr (.inr ⟨rfl, ?_⟩)
        rw [trySend, dif_neg room, status]
        rfl

theorem recv_eq_some (received : channel.recv = some (value, after)) :
    channel.queue = value :: after.queue ∧ after.capacity = channel.capacity ∧
      after.isOpen = channel.isOpen := by
  unfold recv at received
  split at received
  · cases received
  · next whole =>
    cases received
    exact ⟨whole, rfl, rfl⟩

theorem not_hasRoom_of_full (full : channel.queue.length = channel.capacity) :
    ¬ channel.HasRoom := fun room => Nat.lt_irrefl _ (full ▸ room.2)

theorem not_hasRoom_of_closed (closed : channel.isOpen = false) : ¬ channel.HasRoom :=
  fun room => Bool.false_ne_true (closed ▸ room.1)

end Channel

/-! ### Sums over a list of cells -/

section Sums

variable {α M : Type*} [AddCommMonoid M]

/-- Replacing one cell changes a total by the share of that cell alone. -/
theorem sum_map_set (share : α → M) {cells : List α} {index : Nat} {old : α} (new : α)
    (present : cells[index]? = some old) :
    ((cells.set index new).map share).sum + share old = (cells.map share).sum + share new := by
  induction cells generalizing index with
  | nil => simp at present
  | cons head rest ih =>
      cases index with
      | zero =>
          cases Option.some.inj (List.getElem?_cons_zero.symm.trans present)
          simp only [List.set_cons_zero, List.map_cons, List.sum_cons]
          ac_rfl
      | succ index =>
          rw [List.getElem?_cons_succ] at present
          simp only [List.set_cons_succ, List.map_cons, List.sum_cons, add_assoc, ih present]

theorem sum_map_concat (share : α → M) (cells : List α) (new : α) :
    ((cells ++ [new]).map share).sum = (cells.map share).sum + share new := by
  simp

/-- A total is the sum over the positions of the list. -/
theorem sum_range_getElem? (share : α → M) (cells : List α) :
    ∑ index ∈ Finset.range cells.length, (cells[index]?.elim 0 share) =
      (cells.map share).sum := by
  induction cells with
  | nil => rfl
  | cons head rest ih =>
      rw [List.length_cons, Finset.sum_range_succ']
      simp only [List.getElem?_cons_succ, ih, List.getElem?_cons_zero, Option.elim_some,
        List.map_cons, List.sum_cons, add_comm]

end Sums

/-- A family of distinct cells never weighs more than all cells together. -/
theorem sum_le_of_injOn {α : Type*} (share : α → Nat) (cells : List α) (count : Nat)
    (cell : Nat → Nat) (distinct : Set.InjOn cell (Set.Iio count))
    (present : ∀ index < count, cell index < cells.length) :
    ∑ index ∈ Finset.range count, (cells[cell index]?.elim 0 share) ≤ (cells.map share).sum := by
  have injective : Set.InjOn cell (Finset.range count : Set Nat) := by
    intro first inFirst second inSecond same
    exact distinct (Finset.mem_range.mp inFirst) (Finset.mem_range.mp inSecond) same
  have within : (Finset.range count).image cell ⊆ Finset.range cells.length := by
    intro index chosen
    obtain ⟨position, inRange, rfl⟩ := Finset.mem_image.mp chosen
    exact Finset.mem_range.mpr (present position (Finset.mem_range.mp inRange))
  calc ∑ index ∈ Finset.range count, (cells[cell index]?.elim 0 share)
      = ∑ index ∈ (Finset.range count).image cell, (cells[index]?.elim 0 share) :=
        (Finset.sum_image (f := fun index => cells[index]?.elim 0 share) injective).symm
    _ ≤ ∑ index ∈ Finset.range cells.length, (cells[index]?.elim 0 share) :=
        Finset.sum_le_sum_of_subset within
    _ = (cells.map share).sum := sum_range_getElem? share cells

end Foundation
