import Mathlib

/-!
# Insertion-ordered multimaps

A finite map from keys to non-empty groups of values. Iteration visits the keys
in the order of their first insertion and repeats a key once for each of its
values. Removing a key moves the last entry into the gap it leaves, so removal
is constant-time and does not keep the order of the remaining keys.

The two shape conditions are fields, so every value of the type satisfies them
and no operation has to assume them of its argument.
-/

namespace Foundation

/-- Keys with their groups of values, in insertion order. -/
structure MultiMap (κ ν : Type*) where
  entries : List (κ × List ν)
  distinct : (entries.map Prod.fst).Nodup
  populated : ∀ entry ∈ entries, entry.2 ≠ []
deriving DecidableEq

namespace MultiMap

variable {κ ν : Type*}

/-- The keys, each once. -/
def keys (map : MultiMap κ ν) : List κ := map.entries.map Prod.fst

/-- One pair for each value, the values of a key next to each other. -/
def toList (map : MultiMap κ ν) : List (κ × ν) :=
  map.entries.flatMap fun entry => entry.2.map (entry.1, ·)

/-- The map without entries. -/
def empty : MultiMap κ ν := ⟨[], List.nodup_nil, by simp⟩

instance : EmptyCollection (MultiMap κ ν) := ⟨empty⟩

theorem nodup_keys (map : MultiMap κ ν) : map.keys.Nodup := map.distinct

variable [DecidableEq κ]

/-- Every value of a key, oldest first. -/
def getAll (map : MultiMap κ ν) (key : κ) : List ν :=
  ((map.entries.find? fun entry => entry.1 = key).map Prod.snd).getD []

/-- The first value of a key. -/
def get? (map : MultiMap κ ν) (key : κ) : Option ν := (map.getAll key).head?

/-- Whether the key has a value. -/
def contains (map : MultiMap κ ν) (key : κ) : Bool :=
  map.entries.any fun entry => entry.1 = key

/-- Replace the group of a key, or open one at the end. -/
private def alterEntries (key : κ) (change : List ν → List ν) :
    List (κ × List ν) → List (κ × List ν)
  | [] => [(key, change [])]
  | entry :: rest =>
      if entry.1 = key then (entry.1, change entry.2) :: rest
      else entry :: alterEntries key change rest

private theorem map_fst_alterEntries (key : κ) (change : List ν → List ν)
    (entries : List (κ × List ν)) :
    (alterEntries key change entries).map Prod.fst =
      if key ∈ entries.map Prod.fst then entries.map Prod.fst
      else entries.map Prod.fst ++ [key] := by
  induction entries with
  | nil => simp [alterEntries]
  | cons entry rest ih =>
      by_cases here : entry.1 = key
      · simp [alterEntries, here]
      · rw [alterEntries, if_neg here, List.map_cons, ih]
        by_cases later : key ∈ rest.map Prod.fst
        · rw [if_pos later, if_pos (by simp [later])]
          rfl
        · rw [if_neg later, if_neg (by simpa [Ne.symm here] using later)]
          rfl

private theorem mem_alterEntries {key : κ} {change : List ν → List ν}
    {entries : List (κ × List ν)} {entry : κ × List ν}
    (member : entry ∈ alterEntries key change entries) :
    entry ∈ entries ∨ entry.1 = key ∧ ∃ values, entry.2 = change values := by
  induction entries with
  | nil =>
      simp only [alterEntries, List.mem_singleton] at member
      exact .inr ⟨by rw [member], [], by rw [member]⟩
  | cons first rest ih =>
      by_cases here : first.1 = key
      · rw [alterEntries, if_pos here, List.mem_cons] at member
        obtain rfl | later := member
        · exact .inr ⟨here, first.2, rfl⟩
        · exact .inl (List.mem_cons_of_mem _ later)
      · rw [alterEntries, if_neg here, List.mem_cons] at member
        obtain rfl | later := member
        · exact .inl List.mem_cons_self
        · obtain old | fresh := ih later
          · exact .inl (List.mem_cons_of_mem _ old)
          · exact .inr fresh

private def alter (map : MultiMap κ ν) (key : κ) (change : List ν → List ν)
    (nonempty : ∀ values, change values ≠ []) : MultiMap κ ν where
  entries := alterEntries key change map.entries
  distinct := by
    rw [map_fst_alterEntries]
    split
    · exact map.distinct
    · next absent =>
      rw [List.nodup_append]
      refine ⟨map.distinct, by simp, ?_⟩
      intro name stored other single same
      rw [List.mem_singleton] at single
      exact absent (by rw [← single, ← same]; exact stored)
  populated := by
    intro entry member
    obtain old | ⟨_, values, group⟩ := mem_alterEntries member
    · exact map.populated entry old
    · rw [group]
      exact nonempty values

/-- Replace all values of a key by one, keeping the place of a stored key. -/
def insert (map : MultiMap κ ν) (key : κ) (value : ν) : MultiMap κ ν :=
  map.alter key (fun _ => [value]) (by simp)

/-- Add one more value to a key. -/
def append (map : MultiMap κ ν) (key : κ) (value : ν) : MultiMap κ ν :=
  map.alter key (· ++ [value]) (by simp)

theorem keys_insert (map : MultiMap κ ν) (key : κ) (value : ν) :
    (map.insert key value).keys = if key ∈ map.keys then map.keys else map.keys ++ [key] :=
  map_fst_alterEntries key _ map.entries

theorem length_keys_insert_le (map : MultiMap κ ν) (key : κ) (value : ν) :
    (map.insert key value).keys.length ≤ map.keys.length + 1 := by
  rw [keys_insert]
  split <;> simp

theorem mem_keys_insert {map : MultiMap κ ν} {key name : κ} {value : ν} :
    name ∈ (map.insert key value).keys ↔ name = key ∨ name ∈ map.keys := by
  simp only [keys, insert, alter, map_fst_alterEntries]
  split <;> simp_all [or_comm]

theorem mem_keys_append {map : MultiMap κ ν} {key name : κ} {value : ν} :
    name ∈ (map.append key value).keys ↔ name = key ∨ name ∈ map.keys := by
  simp only [keys, append, alter, map_fst_alterEntries]
  split <;> simp_all [or_comm]

private theorem alterEntries_of_notMem {key : κ} (change : List ν → List ν)
    {front : List (κ × List ν)} (absent : key ∉ front.map Prod.fst) (rest : List (κ × List ν)) :
    alterEntries key change (front ++ rest) = front ++ alterEntries key change rest := by
  induction front with
  | nil => rfl
  | cons entry front ih =>
      rw [List.map_cons, List.mem_cons, not_or] at absent
      rw [List.cons_append, alterEntries, if_neg (Ne.symm absent.1), ih absent.2]
      rfl

/-- A new key is inserted at the end. -/
theorem toList_insert_of_notMem {map : MultiMap κ ν} {key : κ} {value : ν}
    (absent : key ∉ map.keys) : (map.insert key value).toList = map.toList ++ [(key, value)] := by
  have placed := alterEntries_of_notMem (fun _ => [value]) absent []
  rw [List.append_nil] at placed
  simp only [toList, insert, alter, placed, alterEntries, List.flatMap_append]
  simp

/-- Appending the values of a new key one after another opens one group at the end. -/
private theorem entries_foldl_append_group (map : MultiMap κ ν) {key : κ} (absent : key ∉ map.keys)
    {values : List ν} (nonempty : values ≠ []) :
    ((values.map (key, ·)).foldl (fun map pair => map.append pair.1 pair.2) map).entries =
      map.entries ++ [(key, values)] := by
  induction values using List.reverseRecOn with
  | nil => exact absurd rfl nonempty
  | append_singleton front last ih =>
      rw [List.map_append, List.foldl_append, List.map_singleton, List.foldl_cons, List.foldl_nil]
      show alterEntries key (· ++ [last]) _ = _
      by_cases first : front = []
      · subst first
        have placed := alterEntries_of_notMem (· ++ [last]) absent []
        rw [List.append_nil] at placed
        exact placed
      · rw [ih first, alterEntries_of_notMem _ absent, alterEntries, if_pos rfl]

omit [DecidableEq κ] in
private theorem ext_entries {left right : MultiMap κ ν} (same : left.entries = right.entries) :
    left = right := by
  cases left
  cases right
  cases same
  rfl

/-- A map is rebuilt by appending its own pairs. -/
theorem foldl_append_toList (map : MultiMap κ ν) :
    map.toList.foldl (fun map pair => map.append pair.1 pair.2) ∅ = map := by
  apply ext_entries
  obtain ⟨entries, distinct, populated⟩ := map
  simp only [toList]
  induction entries using List.reverseRecOn with
  | nil => rfl
  | append_singleton front last ih =>
      rw [List.map_append, List.nodup_append] at distinct
      have rebuilt := ih distinct.1 fun entry member =>
        populated entry (List.mem_append_left _ member)
      rw [List.flatMap_append, List.foldl_append, List.flatMap_singleton,
        entries_foldl_append_group _ ?_ (populated last (List.mem_append_right _ (by simp))),
        rebuilt]
      rw [keys, rebuilt]
      intro again
      exact distinct.2.2 last.1 again last.1 (by simp) rfl

/-- The keys with a property, and their values. -/
def filterKeys (map : MultiMap κ ν) (keep : κ → Bool) : MultiMap κ ν where
  entries := map.entries.filter fun entry => keep entry.1
  distinct := map.distinct.sublist (List.filter_sublist.map Prod.fst)
  populated := fun entry member => map.populated entry (List.mem_of_mem_filter member)

omit [DecidableEq κ] in
theorem toList_filterKeys (map : MultiMap κ ν) (keep : κ → Bool) :
    (map.filterKeys keep).toList = map.toList.filter fun pair => keep pair.1 := by
  obtain ⟨entries, distinct, populated⟩ := map
  simp only [toList, filterKeys]
  clear distinct populated
  induction entries with
  | nil => rfl
  | cons entry rest ih =>
      have group : (entry.2.map (entry.1, ·)).filter (fun pair => keep pair.1) =
          if keep entry.1 then entry.2.map (entry.1, ·) else [] := by
        rw [List.filter_map]
        by_cases kept : keep entry.1 = true <;> simp [Function.comp_def, kept]
      rw [List.flatMap_cons, List.filter_append, ← ih, List.filter_cons, group]
      split
      · rfl
      · rfl

private theorem flatMap_alterEntries_perm (key : κ) (value : ν) (entries : List (κ × List ν)) :
    ((alterEntries key (· ++ [value]) entries).flatMap
        fun entry => entry.2.map (entry.1, ·)).Perm
      ((key, value) :: entries.flatMap fun entry => entry.2.map (entry.1, ·)) := by
  induction entries with
  | nil => simp [alterEntries]
  | cons entry rest ih =>
      by_cases here : entry.1 = key
      · rw [alterEntries, if_pos here]
        simp only [List.flatMap_cons, List.map_append, List.map_cons, List.map_nil, here,
          List.append_assoc, List.singleton_append]
        exact List.perm_middle
      · rw [alterEntries, if_neg here]
        simp only [List.flatMap_cons]
        exact (ih.append_left _).trans List.perm_middle

/-- Appending adds one pair, at some place. -/
theorem toList_append_perm (map : MultiMap κ ν) (key : κ) (value : ν) :
    (map.append key value).toList.Perm ((key, value) :: map.toList) :=
  flatMap_alterEntries_perm key value map.entries

/-- Appending pairs one after another adds exactly these pairs. -/
theorem toList_foldl_append_perm (map : MultiMap κ ν) (pairs : List (κ × ν)) :
    (pairs.foldl (fun map pair => map.append pair.1 pair.2) map).toList.Perm
      (map.toList ++ pairs) := by
  induction pairs generalizing map with
  | nil => simp
  | cons pair rest ih =>
      rw [List.foldl_cons]
      refine (ih (map.append pair.1 pair.2)).trans ?_
      refine ((toList_append_perm map pair.1 pair.2).append_right rest).trans ?_
      exact List.perm_middle.symm

private theorem find_alterEntries (key name : κ) (change : List ν → List ν)
    (entries : List (κ × List ν)) :
    (((alterEntries key change entries).find? fun entry => entry.1 = name).map Prod.snd).getD [] =
      if name = key then
        change (((entries.find? fun entry => entry.1 = key).map Prod.snd).getD [])
      else ((entries.find? fun entry => entry.1 = name).map Prod.snd).getD [] := by
  induction entries with
  | nil =>
      rw [alterEntries, List.find?_singleton]
      by_cases same : name = key
      · rw [if_pos same, if_pos (by simp [same])]
        rfl
      · rw [if_neg same, if_neg (by simpa using Ne.symm same)]
        rfl
  | cons entry rest ih =>
      rw [alterEntries]
      by_cases here : entry.1 = key
      · rw [if_pos here, List.find?_cons, List.find?_cons, List.find?_cons]
        by_cases same : name = key
        · simp [here, same]
        · have other : ¬ entry.1 = name := fun equal => same (equal.symm.trans here)
          simp [same, other]
      · rw [if_neg here, List.find?_cons, List.find?_cons, List.find?_cons]
        by_cases found : entry.1 = name
        · have other : ¬ name = key := fun equal => here (found.trans equal)
          simp [found, other]
        · simpa [here, found] using ih

/-- A value that is appended comes after the values the key has. -/
theorem getAll_append (map : MultiMap κ ν) (key name : κ) (value : ν) :
    (map.append key value).getAll name =
      if name = key then map.getAll key ++ [value] else map.getAll name :=
  find_alterEntries key name (· ++ [value]) map.entries

/-- A value that is inserted replaces the values the key has. -/
theorem getAll_insert (map : MultiMap κ ν) (key name : κ) (value : ν) :
    (map.insert key value).getAll name = if name = key then [value] else map.getAll name :=
  find_alterEntries key name (fun _ => [value]) map.entries

/-- The values of a key are those it is listed with. -/
theorem mem_getAll_iff {map : MultiMap κ ν} {key : κ} {value : ν} :
    value ∈ map.getAll key ↔ (key, value) ∈ map.toList := by
  obtain ⟨entries, distinct, populated⟩ := map
  simp only [getAll, toList]
  clear populated
  induction entries with
  | nil => simp
  | cons entry rest ih =>
      rw [List.map_cons, List.nodup_cons] at distinct
      rw [List.find?_cons, List.flatMap_cons, List.mem_append]
      by_cases here : entry.1 = key
      · simp only [here, decide_true, Option.map_some, Option.getD_some, List.mem_map,
          Prod.mk.injEq, true_and, exists_eq_right]
        refine ⟨.inl, ?_⟩
        rintro (first | later)
        · exact first
        · obtain ⟨other, inside, paired⟩ := List.mem_flatMap.mp later
          obtain ⟨_, _, same⟩ := List.mem_map.mp paired
          refine absurd ?_ distinct.1
          rw [here, ← (Prod.mk.inj same).1]
          exact List.mem_map_of_mem inside
      · simp only [here, decide_false]
        rw [ih distinct.2]
        refine ⟨.inr, ?_⟩
        rintro (first | later)
        · obtain ⟨_, _, same⟩ := List.mem_map.mp first
          exact absurd (Prod.mk.inj same).1 here
        · exact later

omit [DecidableEq κ] in
theorem mem_keys_of_mem_toList {map : MultiMap κ ν} {pair : κ × ν} (member : pair ∈ map.toList) :
    pair.1 ∈ map.keys := by
  obtain ⟨entry, inside, paired⟩ := List.mem_flatMap.mp member
  obtain ⟨value, -, rfl⟩ := List.mem_map.mp paired
  exact List.mem_map_of_mem inside

/-- The last entry takes the place of the removed one. -/
private def closeGap (rest : List (κ × List ν)) : List (κ × List ν) :=
  match rest.getLast? with
  | none => []
  | some last => last :: rest.dropLast

omit [DecidableEq κ] in
private theorem closeGap_perm (rest : List (κ × List ν)) : (closeGap rest).Perm rest := by
  induction rest using List.reverseRecOn with
  | nil => exact .nil
  | append_singleton front last _ =>
      simp only [closeGap, List.getLast?_concat, List.dropLast_concat]
      exact (List.perm_append_singleton last front).symm

private def removeEntries (key : κ) : List (κ × List ν) → List (κ × List ν)
  | [] => []
  | entry :: rest => if entry.1 = key then closeGap rest else entry :: removeEntries key rest

private theorem removeEntries_perm (key : κ) (entries : List (κ × List ν)) :
    (removeEntries key entries).Perm (entries.eraseP fun entry => entry.1 = key) := by
  induction entries with
  | nil => exact .nil
  | cons entry rest ih =>
      by_cases here : entry.1 = key
      · simpa [removeEntries, here] using closeGap_perm rest
      · simpa [removeEntries, here] using ih

/-- Drop a key with all its values. -/
def remove (map : MultiMap κ ν) (key : κ) : MultiMap κ ν where
  entries := removeEntries key map.entries
  distinct := by
    have perm := (removeEntries_perm key map.entries).map Prod.fst
    exact perm.nodup_iff.mpr (map.distinct.sublist (List.eraseP_sublist.map Prod.fst))
  populated := fun entry member =>
    map.populated entry (List.mem_of_mem_eraseP
      ((removeEntries_perm key map.entries).mem_iff.mp member))

theorem mem_keys_remove {map : MultiMap κ ν} {key name : κ} :
    name ∈ (map.remove key).keys ↔ name ∈ map.keys ∧ name ≠ key := by
  obtain ⟨entries, distinct, populated⟩ := map
  have perm := (removeEntries_perm key entries).map Prod.fst
  show name ∈ (removeEntries key entries).map Prod.fst ↔ _
  rw [perm.mem_iff]
  have erased : (entries.eraseP fun entry => entry.1 = key).map Prod.fst =
      (entries.map Prod.fst).eraseP (· = key) := by
    rw [List.eraseP_map]
    rfl
  rw [erased]
  simp only [← beq_eq_decide, keys]
  rw [← List.erase_eq_eraseP', distinct.mem_erase_iff, and_comm]

/-- Removing keys one after another leaves the others. -/
theorem mem_keys_foldl_remove {map : MultiMap κ ν} {names : List κ} {name : κ} :
    name ∈ (names.foldl remove map).keys ↔ name ∈ map.keys ∧ name ∉ names := by
  induction names generalizing map with
  | nil => simp
  | cons first rest ih =>
      rw [List.foldl_cons, ih, mem_keys_remove, List.mem_cons, not_or, and_assoc]

/-- A key without a group has no values. -/
theorem getAll_of_notMem {map : MultiMap κ ν} {key : κ} (absent : key ∉ map.keys) :
    map.getAll key = [] := by
  have none : map.entries.find? (fun entry => entry.1 = key) = none := by
    rw [List.find?_eq_none]
    intro entry member same
    apply absent
    rw [← of_decide_eq_true same]
    exact List.mem_map_of_mem member
  rw [getAll, none]
  rfl

end MultiMap

end Foundation
