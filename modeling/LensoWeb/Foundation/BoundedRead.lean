import Mathlib

/-!
# Bounded reads

A read that takes items in order until they end, one of them is an error, or the data
read so far no longer fits a limit. `Reads` says which of the three it is in terms of the
whole sequence, `readFrom` reads item by item; a loop is shown to be the latter by
induction on the items, and both agree.
-/

namespace Foundation

/-- How a bounded read ends. -/
inductive ReadEnd (κ β : Type) where
  | whole (contents : List β)
  | tooLarge
  | failed (failure : κ)
deriving DecidableEq

namespace BoundedRead

variable {κ α β : Type}

/-- The end of a read of the items: the first error before the limit is exceeded, the
first item whose data exceeds it, or else all data. -/
inductive Reads (data : α → List β) (limit : Nat) : List (Except κ α) → ReadEnd κ β → Prop where
  | whole (items : List α) (fits : (items.flatMap data).length ≤ limit) :
      Reads data limit (items.map .ok) (.whole (items.flatMap data))
  | failed (items : List α) (fits : (items.flatMap data).length ≤ limit) (failure : κ)
      (rest : List (Except κ α)) :
      Reads data limit (items.map .ok ++ .error failure :: rest) (.failed failure)
  | tooLarge (items : List α) (fits : (items.flatMap data).length ≤ limit) (item : α)
      (exceeds : limit < (items.flatMap data).length + (data item).length)
      (rest : List (Except κ α)) :
      Reads data limit (items.map .ok ++ .ok item :: rest) .tooLarge

/-- Read on, with some data read already. -/
def readFrom (data : α → List β) (limit : Nat) (done : List β) :
    List (Except κ α) → ReadEnd κ β
  | [] => .whole done
  | .error failure :: _ => .failed failure
  | .ok item :: rest =>
      if limit < done.length + (data item).length then .tooLarge
      else readFrom data limit (done ++ data item) rest

variable {data : α → List β} {limit : Nat} {done : List β} {rest : List (Except κ α)}

theorem readFrom_of_lt {item : α} (exceeds : limit < done.length + (data item).length) :
    readFrom data limit done (.ok item :: rest) = .tooLarge := if_pos exceeds

theorem readFrom_of_le {item : α} (fits : done.length + (data item).length ≤ limit) :
    readFrom data limit done (.ok item :: rest) = readFrom data limit (done ++ data item) rest :=
  if_neg (Nat.not_lt.mpr fits)

/-- Items whose data fits are read one after another. -/
theorem readFrom_append {items : List α} (fits : (done ++ items.flatMap data).length ≤ limit) :
    readFrom data limit done (items.map .ok ++ rest) =
      readFrom data limit (done ++ items.flatMap data) rest := by
  induction items generalizing done with
  | nil => rw [List.flatMap_nil, List.append_nil, List.map_nil, List.nil_append]
  | cons item others ih =>
      rw [List.flatMap_cons, ← List.append_assoc] at fits ⊢
      have first : done.length + (data item).length ≤ limit := by
        rw [List.length_append, List.length_append] at fits
        omega
      rw [List.map_cons, List.cons_append, readFrom_of_le first, ih fits]

/-- Without errors, the total decides. -/
theorem readFrom_map_ok {items : List α} (fits : done.length ≤ limit) :
    (readFrom data limit done (items.map .ok) : ReadEnd κ β) =
      if (done ++ items.flatMap data).length ≤ limit then .whole (done ++ items.flatMap data)
      else .tooLarge := by
  induction items generalizing done with
  | nil =>
      rw [List.flatMap_nil, List.append_nil, if_pos fits]
      rfl
  | cons item others ih =>
      rw [List.map_cons, List.flatMap_cons, ← List.append_assoc]
      by_cases room : done.length + (data item).length ≤ limit
      · rw [readFrom_of_le room, ih (by rw [List.length_append]; exact room)]
      · rw [readFrom_of_lt (Nat.lt_of_not_le room), if_neg]
        rw [List.length_append, List.length_append]
        omega

theorem reads_append_readFrom {front : List α} (fits : (front.flatMap data).length ≤ limit) :
    Reads data limit (front.map .ok ++ rest)
      (readFrom data limit (front.flatMap data) rest) := by
  induction rest generalizing front with
  | nil =>
      rw [List.append_nil]
      exact .whole front fits
  | cons item others ih =>
      cases item with
      | error failure => exact .failed front fits failure others
      | ok item =>
          by_cases exceeds : limit < (front.flatMap data).length + (data item).length
          · rw [readFrom_of_lt exceeds]
            exact .tooLarge front fits item exceeds others
          · have room := Nat.not_lt.mp exceeds
            have longer : (front ++ [item]).flatMap data = front.flatMap data ++ data item := by
              rw [List.flatMap_append, List.flatMap_singleton]
            have next := @ih (front ++ [item]) (by rw [longer, List.length_append]; exact room)
            rw [longer, List.map_append, List.append_assoc] at next
            rw [readFrom_of_le room]
            exact next

/-- Reading item by item ends as the whole sequence says. -/
theorem reads_iff {items : List (Except κ α)} {outcome : ReadEnd κ β} :
    Reads data limit items outcome ↔ readFrom data limit [] items = outcome := by
  constructor
  · intro read
    cases read with
    | whole items fits =>
        have all := @readFrom_append κ α β data limit [] [] items fits
        rw [List.append_nil] at all
        rw [all]
        rfl
    | failed items fits failure rest =>
        rw [readFrom_append (by exact fits)]
        rfl
    | tooLarge items fits item exceeds rest =>
        rw [readFrom_append (by exact fits)]
        exact readFrom_of_lt exceeds
  · rintro rfl
    exact @reads_append_readFrom κ α β data limit items [] (Nat.zero_le limit)

/-- Every read has one end. -/
theorem existsUnique_reads (data : α → List β) (limit : Nat) (items : List (Except κ α)) :
    ∃! outcome, Reads data limit items outcome :=
  ⟨_, reads_iff.mpr rfl, fun _ read => (reads_iff.mp read).symm⟩

end BoundedRead

end Foundation
