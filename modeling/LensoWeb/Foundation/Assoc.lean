import LensoWeb.Foundation.Result

/-!
# Sorted association lists

Ordered maps as lists of entries with strictly increasing keys, which is what an
iteration over a `BTreeMap` visits. The operations are stated on plain lists,
because a recursive data type can hold such a list but not the proof that it is
sorted; `SortedMap` adds the proof where the type allows it.

A sorted list is determined by its lookups. Two maps that were filled in different
orders are compared in this way.
-/

namespace Foundation

namespace Assoc

variable {κ ν : Type*}

/-- Entries in strictly increasing order of their keys. -/
def Sorted [LT κ] (entries : List (κ × ν)) : Prop := (entries.map Prod.fst).Pairwise (· < ·)

section Lookup

variable [DecidableEq κ]

/-- The value of a key. -/
def find (key : κ) : List (κ × ν) → Option ν
  | [] => none
  | entry :: rest => if entry.1 = key then some entry.2 else find key rest

@[simp] theorem find_nil (key : κ) : find key ([] : List (κ × ν)) = none := rfl

theorem find_cons (key : κ) (entry : κ × ν) (rest : List (κ × ν)) :
    find key (entry :: rest) = if entry.1 = key then some entry.2 else find key rest := rfl

theorem mem_of_find {key : κ} {value : ν} {entries : List (κ × ν)}
    (found : find key entries = some value) : (key, value) ∈ entries := by
  induction entries with
  | nil => cases found
  | cons entry rest ih =>
      rw [find_cons] at found
      split at found
      · next here =>
        cases found
        rw [← here]
        exact List.mem_cons_self
      · exact List.mem_cons_of_mem _ (ih found)

theorem find_eq_none_iff {key : κ} {entries : List (κ × ν)} :
    find key entries = none ↔ key ∉ entries.map Prod.fst := by
  induction entries with
  | nil => simp
  | cons entry rest ih =>
      rw [find_cons]
      by_cases here : entry.1 = key
      · simp [here]
      · simp [here, ih, Ne.symm here]

theorem find_isSome_iff {key : κ} {entries : List (κ × ν)} :
    (find key entries).isSome = true ↔ key ∈ entries.map Prod.fst := by
  rw [← not_iff_not, ← find_eq_none_iff, Bool.not_eq_true, Option.isSome_eq_false_iff,
    Option.isNone_iff_eq_none]

/-- Where keys are distinct, an entry is what its key finds. -/
theorem find_of_mem {key : κ} {value : ν} {entries : List (κ × ν)}
    (distinct : (entries.map Prod.fst).Nodup) (member : (key, value) ∈ entries) :
    find key entries = some value := by
  induction entries with
  | nil => cases member
  | cons entry rest ih =>
      rw [List.map_cons, List.nodup_cons] at distinct
      rw [find_cons]
      obtain rfl | later := List.mem_cons.mp member
      · rw [if_pos rfl]
      · rw [if_neg, ih distinct.2 later]
        intro here
        apply distinct.1
        rw [here]
        exact List.mem_map.mpr ⟨_, later, rfl⟩

/-- Drop a key. -/
def erase (key : κ) (entries : List (κ × ν)) : List (κ × ν) := entries.filter (·.1 ≠ key)

theorem find_erase (key name : κ) (entries : List (κ × ν)) :
    find name (erase key entries) = if name = key then none else find name entries := by
  induction entries with
  | nil => simp [erase]
  | cons entry rest ih =>
      rw [erase, List.filter_cons] at *
      by_cases dropped : entry.1 = key
      · rw [if_neg (by simp [dropped]), ih, find_cons]
        by_cases same : name = key
        · rw [if_pos same, if_pos same]
        · rw [if_neg same, if_neg same, if_neg (fun here => same (here.symm.trans dropped))]
      · rw [if_pos (by simp [dropped]), find_cons, find_cons, ih]
        by_cases here : entry.1 = name
        · rw [if_pos here, if_pos here, if_neg (fun same => dropped (here.trans same))]
        · rw [if_neg here, if_neg here]

theorem erase_of_find_eq_none {key : κ} {entries : List (κ × ν)}
    (absent : find key entries = none) : erase key entries = entries := by
  rw [find_eq_none_iff] at absent
  refine List.filter_eq_self.mpr fun entry member => decide_eq_true ?_
  rintro rfl
  exact absent (List.mem_map.mpr ⟨entry, member, rfl⟩)

theorem find_perm {entries others : List (κ × ν)} (perm : entries.Perm others)
    (distinct : (entries.map Prod.fst).Nodup) (key : κ) : find key entries = find key others := by
  have again := (perm.map Prod.fst).nodup_iff.mp distinct
  cases found : find key entries with
  | some value => exact (find_of_mem again (perm.mem_iff.mp (mem_of_find found))).symm
  | none =>
      rw [find_eq_none_iff, (perm.map Prod.fst).mem_iff] at found
      exact (find_eq_none_iff.mpr found).symm

end Lookup

/-! ### Setting keys -/

/-- Set the values of several keys, one after another. -/
def setAll (set : κ → ν → List (κ × ν) → List (κ × ν)) (entries added : List (κ × ν)) :
    List (κ × ν) := added.foldl (fun entries entry => set entry.1 entry.2 entries) entries

/-- The function sets the value of a key, wherever it puts a new one. -/
structure Sets [DecidableEq κ] (set : κ → ν → List (κ × ν) → List (κ × ν)) : Prop where
  find : ∀ key name value entries,
    find name (set key value entries) = if name = key then some value else find name entries
  mem : ∀ {key value entries entry},
    entry ∈ set key value entries → entry = (key, value) ∨ entry ∈ entries

namespace Sets

variable [DecidableEq κ] {set : κ → ν → List (κ × ν) → List (κ × ν)} (sets : Sets set)
  {entries added : List (κ × ν)}

include sets

theorem mem_keys {key name : κ} {value : ν} :
    name ∈ (set key value entries).map Prod.fst ↔ name = key ∨ name ∈ entries.map Prod.fst := by
  rw [← find_isSome_iff, sets.find, ← find_isSome_iff]
  by_cases here : name = key
  · simp [here]
  · simp [here]

/-- Where the added keys are distinct, they come first and hide what was there. -/
theorem find_setAll (distinct : (added.map Prod.fst).Nodup) (key : κ) :
    Assoc.find key (setAll set entries added) =
      (Assoc.find key added).or (Assoc.find key entries) := by
  induction added generalizing entries with
  | nil => rfl
  | cons entry rest ih =>
      rw [List.map_cons, List.nodup_cons] at distinct
      have unfold : setAll set entries (entry :: rest) =
          setAll set (set entry.1 entry.2 entries) rest := rfl
      rw [unfold, ih distinct.2, sets.find, find_cons]
      by_cases here : entry.1 = key
      · subst here
        rw [find_eq_none_iff.mpr distinct.1, if_pos rfl, if_pos rfl, Option.none_or, Option.some_or]
      · rw [if_neg (Ne.symm here), if_neg here]

theorem mem_of_mem_setAll {entry : κ × ν} (member : entry ∈ setAll set entries added) :
    entry ∈ entries ∨ entry ∈ added := by
  induction added generalizing entries with
  | nil => exact .inl member
  | cons first rest ih =>
      obtain earlier | later := ih member
      · obtain same | there := sets.mem earlier
        · exact .inr (same ▸ List.mem_cons_self)
        · exact .inl there
      · exact .inr (List.mem_cons_of_mem _ later)

theorem mem_keys_setAll {name : κ} :
    name ∈ (setAll set entries added).map Prod.fst ↔
      name ∈ added.map Prod.fst ∨ name ∈ entries.map Prod.fst := by
  induction added generalizing entries with
  | nil => simp [setAll]
  | cons entry rest ih =>
      have unfold : setAll set entries (entry :: rest) =
          setAll set (set entry.1 entry.2 entries) rest := rfl
      rw [unfold, ih, sets.mem_keys, List.map_cons, List.mem_cons]
      tauto

end Sets

variable [LinearOrder κ]

theorem sorted_nil : Sorted ([] : List (κ × ν)) := List.Pairwise.nil

theorem Sorted.nodup {entries : List (κ × ν)} (sorted : Sorted entries) :
    (entries.map Prod.fst).Nodup := List.Pairwise.imp (fun less => ne_of_lt less) sorted

theorem Sorted.tail {entry : κ × ν} {rest : List (κ × ν)} (sorted : Sorted (entry :: rest)) :
    Sorted rest := (List.pairwise_cons.mp sorted).2

theorem Sorted.head_lt {entry : κ × ν} {rest : List (κ × ν)} (sorted : Sorted (entry :: rest))
    {name : κ} (member : name ∈ rest.map Prod.fst) : entry.1 < name :=
  (List.pairwise_cons.mp sorted).1 name member

/-- A sorted list is determined by its lookups. -/
theorem Sorted.ext [DecidableEq κ] {entries others : List (κ × ν)} (sorted : Sorted entries)
    (othersSorted : Sorted others) (agree : ∀ key, find key entries = find key others) :
    entries = others := by
  induction entries generalizing others with
  | nil =>
      cases others with
      | nil => rfl
      | cons entry rest =>
          have impossible := agree entry.1
          rw [find_cons, if_pos rfl] at impossible
          cases impossible
  | cons first rest ih =>
      cases others with
      | nil =>
          have impossible := agree first.1
          rw [find_cons, if_pos rfl] at impossible
          cases impossible
      | cons second remaining =>
          have afterFirst : ∀ {name}, find name rest ≠ none → first.1 < name := by
            intro name found
            exact sorted.head_lt (not_not.mp (mt find_eq_none_iff.mpr found))
          have afterSecond : ∀ {name}, find name remaining ≠ none → second.1 < name := by
            intro name found
            exact othersSorted.head_lt (not_not.mp (mt find_eq_none_iff.mpr found))
          have keys : first.1 = second.1 := by
            by_contra different
            have atFirst := agree first.1
            have atSecond := agree second.1
            rw [find_cons, if_pos rfl, find_cons, if_neg (Ne.symm different)] at atFirst
            rw [find_cons, if_neg different, find_cons, if_pos rfl] at atSecond
            have below := afterSecond (by rw [← atFirst]; simp : find first.1 remaining ≠ none)
            have above := afterFirst (by rw [atSecond]; simp : find second.1 rest ≠ none)
            exact lt_asymm below above
          have values : first.2 = second.2 := by
            have here := agree first.1
            rw [find_cons, if_pos rfl, find_cons, if_pos keys.symm] at here
            exact Option.some.inj here
          have whole : first = second := Prod.ext keys values
          subst whole
          refine congrArg (first :: ·) (ih sorted.tail othersSorted.tail ?_)
          intro key
          by_cases here : first.1 = key
          · have left : find key rest = none :=
              not_not.mp fun found => absurd here (ne_of_lt (afterFirst found))
            have right : find key remaining = none :=
              not_not.mp fun found => absurd here (ne_of_lt (afterSecond found))
            rw [left, right]
          · have there := agree key
            rwa [find_cons, if_neg here, find_cons, if_neg here] at there

/-- Set the value of a key. -/
def insert (key : κ) (value : ν) : List (κ × ν) → List (κ × ν)
  | [] => [(key, value)]
  | entry :: rest =>
      if key < entry.1 then (key, value) :: entry :: rest
      else if key = entry.1 then (key, value) :: rest
      else entry :: insert key value rest

theorem find_insert [DecidableEq κ] (key name : κ) (value : ν) (entries : List (κ × ν)) :
    find name (insert key value entries) =
      if name = key then some value else find name entries := by
  induction entries with
  | nil => simp [insert, find, eq_comm]
  | cons entry rest ih =>
      rw [insert]
      split
      · rw [find_cons]
        simp only [eq_comm]
      · split
        · next same =>
          rw [find_cons, find_cons, ← same]
          by_cases here : name = key
          · simp [here]
          · simp [here, Ne.symm here]
        · next different =>
          rw [find_cons, find_cons, ih]
          by_cases here : entry.1 = name
          · rw [if_pos here, if_pos here, if_neg (fun same => different (same.symm.trans here.symm))]
          · rw [if_neg here, if_neg here]

theorem mem_of_mem_insert {key : κ} {value : ν} {entries : List (κ × ν)} {entry : κ × ν}
    (member : entry ∈ insert key value entries) : entry = (key, value) ∨ entry ∈ entries := by
  induction entries with
  | nil => exact .inl (List.mem_singleton.mp member)
  | cons first rest ih =>
      rw [insert] at member
      split at member
      · exact List.mem_cons.mp member
      · split at member
        · obtain same | later := List.mem_cons.mp member
          · exact .inl same
          · exact .inr (List.mem_cons_of_mem _ later)
        · obtain same | later := List.mem_cons.mp member
          · exact .inr (same ▸ List.mem_cons_self)
          · exact (ih later).imp id fun inside => List.mem_cons_of_mem _ inside

theorem sets_insert [DecidableEq κ] : Sets (insert : κ → ν → List (κ × ν) → List (κ × ν)) :=
  ⟨find_insert, mem_of_mem_insert⟩

theorem Sorted.insert {entries : List (κ × ν)} (sorted : Sorted entries) (key : κ) (value : ν) :
    Sorted (Assoc.insert key value entries) := by
  induction entries with
  | nil => simp [Assoc.insert, Sorted]
  | cons entry rest ih =>
      rw [Assoc.insert]
      split
      · next less =>
        refine List.pairwise_cons.mpr ⟨?_, sorted⟩
        intro name member
        obtain rfl | later := List.mem_cons.mp member
        · exact less
        · exact less.trans (sorted.head_lt later)
      · split
        · next same =>
          rw [Sorted, List.map_cons, same]
          exact sorted
        · next notLess different =>
          refine List.pairwise_cons.mpr ⟨?_, ih sorted.tail⟩
          intro name member
          obtain rfl | later := sets_insert.mem_keys.mp member
          · exact lt_of_le_of_ne (not_lt.mp notLess) (Ne.symm different)
          · exact sorted.head_lt later

/-- Setting a key puts its entry among the entries of the other keys. -/
theorem Sorted.insert_perm [DecidableEq κ] {entries : List (κ × ν)} (sorted : Sorted entries)
    (key : κ) (value : ν) :
    (Assoc.insert key value entries).Perm ((key, value) :: erase key entries) := by
  induction entries with
  | nil => exact .refl _
  | cons entry rest ih =>
      have absent : ¬ entry.1 < key → find key rest = none := by
        intro notLess
        rw [find_eq_none_iff]
        exact fun member => notLess (sorted.head_lt member)
      rw [Assoc.insert]
      split
      · next less =>
        rw [erase_of_find_eq_none]
        rw [find_cons, if_neg (ne_of_gt less)]
        exact absent (not_lt_of_gt less)
      · split
        · next same =>
          rw [erase, List.filter_cons_of_neg (by simp [same])]
          exact .cons _ (.of_eq (erase_of_find_eq_none
            (absent (same ▸ lt_irrefl _))).symm)
        · next different =>
          rw [erase, List.filter_cons_of_pos (by simpa using Ne.symm different)]
          exact ((ih sorted.tail).cons entry).trans (.swap _ _ _)

/-- Set the values of several keys, one after another. -/
def insertAll (entries added : List (κ × ν)) : List (κ × ν) := setAll insert entries added

theorem Sorted.insertAll {entries : List (κ × ν)} (sorted : Sorted entries)
    (added : List (κ × ν)) : Sorted (Assoc.insertAll entries added) := by
  induction added generalizing entries with
  | nil => exact sorted
  | cons entry rest ih => exact ih (sorted.insert entry.1 entry.2)

theorem find_insertAll [DecidableEq κ] {entries added : List (κ × ν)}
    (distinct : (added.map Prod.fst).Nodup) (key : κ) :
    find key (insertAll entries added) = (find key added).or (find key entries) :=
  sets_insert.find_setAll distinct key

theorem mem_of_mem_insertAll {entries added : List (κ × ν)} {entry : κ × ν}
    (member : entry ∈ insertAll entries added) : entry ∈ entries ∨ entry ∈ added :=
  sets_insert.mem_of_mem_setAll member

theorem mem_keys_insertAll {entries added : List (κ × ν)} {name : κ} :
    name ∈ (insertAll entries added).map Prod.fst ↔
      name ∈ added.map Prod.fst ∨ name ∈ entries.map Prod.fst := sets_insert.mem_keys_setAll

/-- Sorted entries are added to nothing as they are. -/
theorem insertAll_nil {added : List (κ × ν)} (sorted : Sorted added) : insertAll [] added = added := by
  apply (sorted_nil.insertAll added).ext sorted
  intro key
  rw [find_insertAll sorted.nodup, find_nil, Option.or_none]

end Assoc

/-- An ordered map. -/
structure SortedMap (κ ν : Type*) [LT κ] where
  entries : List (κ × ν)
  sorted : Assoc.Sorted entries

namespace SortedMap

variable {κ ν : Type*} [LinearOrder κ]

instance [DecidableEq ν] : DecidableEq (SortedMap κ ν) := fun left right =>
  decidable_of_iff (left.entries = right.entries) (by
    cases left
    cases right
    simp)

/-- The map without entries. -/
def empty : SortedMap κ ν := ⟨[], Assoc.sorted_nil⟩

instance : EmptyCollection (SortedMap κ ν) := ⟨empty⟩

/-- The value of a key. -/
def get (map : SortedMap κ ν) (key : κ) : Option ν := Assoc.find key map.entries

/-- Set the value of a key. -/
def insert (map : SortedMap κ ν) (key : κ) (value : ν) : SortedMap κ ν :=
  ⟨Assoc.insert key value map.entries, map.sorted.insert key value⟩

@[simp] theorem get_empty (key : κ) : (∅ : SortedMap κ ν).get key = none := rfl

theorem get_insert (map : SortedMap κ ν) (key name : κ) (value : ν) :
    (map.insert key value).get name = if name = key then some value else map.get name :=
  Assoc.find_insert key name value map.entries

theorem get_isSome_iff {map : SortedMap κ ν} {key : κ} :
    (map.get key).isSome = true ↔ key ∈ map.entries.map Prod.fst := Assoc.find_isSome_iff

theorem get_of_mem {map : SortedMap κ ν} {key : κ} {value : ν}
    (member : (key, value) ∈ map.entries) : map.get key = some value :=
  Assoc.find_of_mem map.sorted.nodup member

theorem mem_of_get {map : SortedMap κ ν} {key : κ} {value : ν}
    (found : map.get key = some value) : (key, value) ∈ map.entries := Assoc.mem_of_find found

/-- Set the values of several keys, one after another. -/
def insertAll (map : SortedMap κ ν) (added : List (κ × ν)) : SortedMap κ ν :=
  ⟨Assoc.insertAll map.entries added, map.sorted.insertAll added⟩

@[simp] theorem insertAll_nil (map : SortedMap κ ν) : map.insertAll [] = map := rfl

@[simp] theorem insertAll_cons (map : SortedMap κ ν) (entry : κ × ν) (added : List (κ × ν)) :
    map.insertAll (entry :: added) = (map.insert entry.1 entry.2).insertAll added := rfl

/-- Sorted entries make the map that has them. -/
theorem insertAll_empty {entries : List (κ × ν)} (sorted : Assoc.Sorted entries) :
    (∅ : SortedMap κ ν).insertAll entries = ⟨entries, sorted⟩ := by
  rw [insertAll, mk.injEq]
  exact Assoc.insertAll_nil sorted

theorem get_insertAll {map : SortedMap κ ν} {added : List (κ × ν)}
    (distinct : (added.map Prod.fst).Nodup) (key : κ) :
    (map.insertAll added).get key = (Assoc.find key added).or (map.get key) :=
  Assoc.find_insertAll distinct key

theorem get_insertAll_of_mem {map : SortedMap κ ν} {added : List (κ × ν)}
    (distinct : (added.map Prod.fst).Nodup) {key : κ} {value : ν} (member : (key, value) ∈ added) :
    (map.insertAll added).get key = some value := by
  rw [get_insertAll distinct, Assoc.find_of_mem distinct member, Option.some_or]

theorem get_insertAll_of_notMem {map : SortedMap κ ν} {added : List (κ × ν)}
    (distinct : (added.map Prod.fst).Nodup) {key : κ} (absent : key ∉ added.map Prod.fst) :
    (map.insertAll added).get key = map.get key := by
  rw [get_insertAll distinct, Assoc.find_eq_none_iff.mpr absent, Option.none_or]

/-- Maps with the same lookups are equal. -/
theorem ext {left right : SortedMap κ ν} (same : ∀ key, left.get key = right.get key) :
    left = right := by
  have entries := left.sorted.ext right.sorted same
  cases left
  cases right
  cases entries
  rfl

theorem insert_comm (map : SortedMap κ ν) {key other : κ} (apart : key ≠ other) (value value' : ν) :
    (map.insert key value).insert other value' = (map.insert other value').insert key value := by
  apply ext
  intro name
  simp only [get_insert]
  by_cases here : name = other
  · rw [if_pos here, if_neg (here.trans_ne apart.symm), if_pos here]
  · rw [if_neg here, if_neg here]

theorem insert_insert (map : SortedMap κ ν) (key : κ) (value value' : ν) :
    (map.insert key value).insert key value' = map.insert key value' := by
  apply ext
  intro name
  simp only [get_insert]
  split <;> rfl

/-- The entries of the other keys. -/
def others (map : SortedMap κ ν) (key : κ) : List (κ × ν) := Assoc.erase key map.entries

theorem others_of_get_eq_none {map : SortedMap κ ν} {key : κ} (absent : map.get key = none) :
    map.others key = map.entries := Assoc.erase_of_find_eq_none absent

/-- What is set stands among the entries of the other keys. -/
theorem entries_insert_perm (map : SortedMap κ ν) (key : κ) (value : ν) :
    (map.insert key value).entries.Perm ((key, value) :: map.others key) :=
  map.sorted.insert_perm key value

/-- What is there stands among the entries of the other keys. -/
theorem entries_perm {map : SortedMap κ ν} {key : κ} {value : ν}
    (found : map.get key = some value) : map.entries.Perm ((key, value) :: map.others key) := by
  have same : map.insert key value = map := by
    apply ext
    intro name
    rw [get_insert]
    split
    · next here => rw [here, found]
    · rfl
  have entries := map.entries_insert_perm key value
  rwa [same] at entries

/-! ### Loops that refuse a key they have seen -/

/-- The rule for a loop that reads an entry from each input, or nothing, and fails on
a key that is already there. It succeeds when every input can be read and no key
comes twice. -/
theorem foldlM_insertNew {ε α : Type} {κ ν : Type} [LinearOrder κ]
    {body : SortedMap κ ν → α → Except ε (SortedMap κ ν)}
    {read : α → Except ε (Option (κ × ν))} {inputs : List α}
    (round : ∀ input ∈ inputs, ∀ map next, body map input = .ok next ↔
      read input = .ok none ∧ next = map ∨
        ∃ entry, read input = .ok (some entry) ∧ map.get entry.1 = none ∧
          next = map.insert entry.1 entry.2)
    {map final : SortedMap κ ν} :
    inputs.foldlM body map = .ok final ↔
      ∃ outputs, List.Forall₂ (fun input output => read input = .ok output) inputs outputs ∧
        (outputs.reduceOption.map Prod.fst).Nodup ∧
        (∀ key ∈ outputs.reduceOption.map Prod.fst, map.get key = none) ∧
        final = map.insertAll outputs.reduceOption := by
  induction inputs generalizing map with
  | nil =>
      simp only [List.foldlM_nil, List.forall₂_nil_left_iff, exists_eq_left,
        List.reduceOption_nil, List.map_nil, List.nodup_nil, List.not_mem_nil, false_imp_iff,
        implies_true, true_and, insertAll_nil]
      constructor
      · intro returned
        cases returned
        rfl
      · rintro rfl
        rfl
  | cons input rest ih =>
      have here := round input List.mem_cons_self map
      have rounds := fun other member => round other (List.mem_cons_of_mem input member)
      rw [List.foldlM_cons, Result.bind_eq_ok]
      constructor
      · rintro ⟨next, first, later⟩
        obtain ⟨outputs, all, distinct, fresh, rfl⟩ := (ih rounds).mp later
        obtain ⟨skipped, rfl⟩ | ⟨entry, found, absent, rfl⟩ := (here next).mp first
        · refine ⟨none :: outputs, .cons skipped all, ?_⟩
          rw [List.reduceOption_cons_of_none]
          exact ⟨distinct, fresh, rfl⟩
        · refine ⟨some entry :: outputs, .cons found all, ?_⟩
          rw [List.reduceOption_cons_of_some, List.map_cons, List.nodup_cons, List.forall_mem_cons]
          refine ⟨⟨?_, distinct⟩, ⟨absent, ?_⟩, rfl⟩
          · intro again
            have seen := fresh entry.1 again
            rw [get_insert, if_pos rfl] at seen
            cases seen
          · intro key member
            have seen := fresh key member
            rw [get_insert] at seen
            split at seen
            · cases seen
            · exact seen
      · rintro ⟨outputs, all, distinct, fresh, rfl⟩
        obtain ⟨output, others, read, later, rfl⟩ := List.forall₂_cons_left_iff.mp all
        cases output with
        | none =>
            rw [List.reduceOption_cons_of_none] at *
            exact ⟨map, (here map).mpr (.inl ⟨read, rfl⟩),
              (ih rounds).mpr ⟨others, later, distinct, fresh, rfl⟩⟩
        | some entry =>
            rw [List.reduceOption_cons_of_some] at *
            rw [List.map_cons] at distinct fresh
            rw [List.nodup_cons] at distinct
            rw [List.forall_mem_cons] at fresh
            refine ⟨_, (here _).mpr (.inr ⟨entry, read, fresh.1, rfl⟩), ?_⟩
            refine (ih rounds).mpr ⟨others, later, distinct.2, ?_, rfl⟩
            intro key member
            rw [get_insert, if_neg, fresh.2 key member]
            rintro rfl
            exact distinct.1 member

end SortedMap

end Foundation
