import LensoWeb.Foundation.Json

/-!
# The fields of an object

The map behind a JSON object visits its fields in the order of their keys, or in the order
in which the keys came. A feature of the library decides, and one crate that asks for it
decides for a whole build. `FieldOrder` is that decision: whatever is proved over it holds of
both maps. Lookups do not depend on the order; the text of an object does.

Values are compared as maps and not as lists of fields.
-/

namespace Foundation

/-- How `serde_json::Map` is iterated over. -/
class inductive FieldOrder where
  /-- As a `BTreeMap`. -/
  | byKey
  /-- As an `IndexMap`, with the feature `preserve_order`. -/
  | byInsertion

namespace ObjectMap

variable {ν : Type*}

/-! ### The order of insertion -/

/-- `IndexMap::insert`: a new key goes to the end. -/
def put (key : Str) (value : ν) : List (Str × ν) → List (Str × ν)
  | [] => [(key, value)]
  | field :: rest => if field.1 = key then (key, value) :: rest else field :: put key value rest

/-- `IndexMap::swap_remove`: the last field takes the place of the one that goes. -/
def swapRemove (key : Str) : List (Str × ν) → List (Str × ν)
  | [] => []
  | field :: rest =>
      if field.1 = key then rest.getLast?.toList ++ rest.dropLast else field :: swapRemove key rest

theorem sets_put : Assoc.Sets (@put ν) where
  find key name value fields := by
    induction fields with
    | nil => simp [put, Assoc.find, eq_comm]
    | cons field rest ih =>
        rw [put]
        split
        · next same =>
          rw [Assoc.find_cons, Assoc.find_cons, same]
          by_cases here : name = key
          · simp [here]
          · simp [here, Ne.symm here]
        · next different =>
          rw [Assoc.find_cons, Assoc.find_cons, ih]
          by_cases here : field.1 = name
          · rw [if_pos here, if_pos here, if_neg (here ▸ different)]
          · rw [if_neg here, if_neg here]
  mem {key value fields entry} member := by
    induction fields with
    | nil => exact .inl (List.mem_singleton.mp member)
    | cons field rest ih =>
        rw [put] at member
        split at member
        · exact (List.mem_cons.mp member).imp id (List.mem_cons_of_mem _)
        · obtain rfl | later := List.mem_cons.mp member
          · exact .inr List.mem_cons_self
          · exact (ih later).imp id (List.mem_cons_of_mem _)

theorem keys_put (key : Str) (value : ν) (fields : List (Str × ν)) :
    (put key value fields).map Prod.fst =
      if key ∈ fields.map Prod.fst then fields.map Prod.fst else fields.map Prod.fst ++ [key] := by
  induction fields with
  | nil => rfl
  | cons field rest ih =>
      rw [put]
      by_cases here : field.1 = key
      · simp [here]
      · rw [if_neg here, List.map_cons, ih, List.map_cons]
        simp only [List.mem_cons, or_iff_right (Ne.symm here)]
        split <;> rfl

theorem nodup_put {fields : List (Str × ν)} (distinct : (fields.map Prod.fst).Nodup) (key : Str)
    (value : ν) : ((put key value fields).map Prod.fst).Nodup := by
  rw [keys_put]
  split
  · exact distinct
  · next absent => exact List.nodup_append_comm.mp (List.nodup_cons.mpr ⟨absent, distinct⟩)

/-- Keys that come one after another stay where they come. -/
theorem put_of_notMem {key : Str} {value : ν} {fields : List (Str × ν)}
    (absent : key ∉ fields.map Prod.fst) : put key value fields = fields ++ [(key, value)] := by
  induction fields with
  | nil => rfl
  | cons field rest ih =>
      rw [List.map_cons, List.mem_cons, not_or] at absent
      rw [put, if_neg (Ne.symm absent.1), ih absent.2, List.cons_append]

theorem swapRemove_perm {fields : List (Str × ν)} (distinct : (fields.map Prod.fst).Nodup)
    (key : Str) : (swapRemove key fields).Perm (Assoc.erase key fields) := by
  induction fields with
  | nil => exact .refl _
  | cons field rest ih =>
      rw [List.map_cons, List.nodup_cons] at distinct
      rw [swapRemove, Assoc.erase, List.filter_cons]
      split
      · next here =>
        rw [if_neg (by simp [here])]
        have others : rest.filter (·.1 ≠ key) = rest := by
          refine List.filter_eq_self.mpr fun other member => decide_eq_true ?_
          rintro same
          exact distinct.1 (List.mem_map.mpr ⟨other, member, same.trans here.symm⟩)
        rw [others]
        cases last : rest.getLast? with
        | none => rw [List.getLast?_eq_none_iff.mp last]; rfl
        | some field =>
            obtain ⟨front, rfl⟩ := List.getLast?_eq_some_iff.mp last
            rw [List.dropLast_concat]
            exact (List.perm_append_singleton _ _).symm
      · next other =>
        rw [if_pos (by simp [other])]
        exact (ih distinct.2).cons field

/-! ### Either order -/

section Either

variable [order : FieldOrder]

/-- `Map::insert`. -/
def insert (key : Str) (value : ν) (fields : List (Str × ν)) : List (Str × ν) :=
  match order with
  | .byKey => Assoc.insert key value fields
  | .byInsertion => put key value fields

/-- `Map::remove`. -/
def remove (key : Str) (fields : List (Str × ν)) : List (Str × ν) :=
  match order with
  | .byKey => Assoc.erase key fields
  | .byInsertion => swapRemove key fields

/-- `Map::extend`. -/
def insertAll (fields added : List (Str × ν)) : List (Str × ν) := Assoc.setAll insert fields added

/-- The fields of a map that is filled in the given order. -/
def ofList (fields : List (Str × ν)) : List (Str × ν) := insertAll [] fields

/-- Fields as a map visits them. -/
def Arranged (fields : List (Str × ν)) : Prop :=
  match order with
  | .byKey => Assoc.Sorted fields
  | .byInsertion => (fields.map Prod.fst).Nodup

theorem sets_insert : Assoc.Sets (@insert ν order) := by
  cases order with
  | byKey => exact Assoc.sets_insert
  | byInsertion => exact sets_put

theorem arranged_nil : Arranged ([] : List (Str × ν)) := by
  cases order with
  | byKey => exact Assoc.sorted_nil
  | byInsertion => exact List.nodup_nil

section Laws

variable {fields added : List (Str × ν)} {field : Str × ν} {key name : Str} {value : ν}

theorem Arranged.nodup (arranged : Arranged fields) : (fields.map Prod.fst).Nodup := by
  cases order with
  | byKey => exact Assoc.Sorted.nodup arranged
  | byInsertion => exact arranged

theorem Arranged.insert (arranged : Arranged fields) (key : Str) (value : ν) :
    Arranged (ObjectMap.insert key value fields) := by
  cases order with
  | byKey => exact Assoc.Sorted.insert arranged key value
  | byInsertion => exact nodup_put arranged key value

theorem Arranged.insertAll (arranged : Arranged fields) (added : List (Str × ν)) :
    Arranged (ObjectMap.insertAll fields added) := by
  induction added generalizing fields with
  | nil => exact arranged
  | cons field rest ih => exact ih (arranged.insert field.1 field.2)

theorem arranged_singleton (field : Str × ν) : Arranged [field] := by
  cases order with
  | byKey => exact List.pairwise_singleton _ _
  | byInsertion => exact List.nodup_singleton _

theorem arranged_ofList (fields : List (Str × ν)) : Arranged (ofList fields) :=
  arranged_nil.insertAll fields

theorem find_insert (key name : Str) (value : ν) (fields : List (Str × ν)) :
    Assoc.find name (insert key value fields) =
      if name = key then some value else Assoc.find name fields :=
  sets_insert.find key name value fields

theorem mem_of_mem_insert (member : field ∈ insert key value fields) :
    field = (key, value) ∨ field ∈ fields := sets_insert.mem member

theorem find_remove (distinct : (fields.map Prod.fst).Nodup) (key name : Str) :
    Assoc.find name (remove key fields) =
      if name = key then none else Assoc.find name fields := by
  rw [← Assoc.find_erase]
  cases order with
  | byKey => rfl
  | byInsertion =>
      have perm := swapRemove_perm distinct key
      refine Assoc.find_perm perm ?_ name
      rw [(perm.map Prod.fst).nodup_iff]
      exact distinct.sublist (List.filter_sublist.map Prod.fst)

/-- Where the added keys are distinct, they come first and hide what was there. -/
theorem find_insertAll (distinct : (added.map Prod.fst).Nodup) (key : Str) :
    Assoc.find key (insertAll fields added) =
      (Assoc.find key added).or (Assoc.find key fields) := sets_insert.find_setAll distinct key

theorem mem_of_mem_insertAll (member : field ∈ insertAll fields added) :
    field ∈ fields ∨ field ∈ added := sets_insert.mem_of_mem_setAll member

theorem mem_keys_insertAll : name ∈ (insertAll fields added).map Prod.fst ↔
    name ∈ added.map Prod.fst ∨ name ∈ fields.map Prod.fst := sets_insert.mem_keys_setAll

/-- What a map has visited fills a map in the same way. -/
theorem Arranged.ofList (arranged : Arranged fields) : ObjectMap.ofList fields = fields := by
  cases order with
  | byKey => exact Assoc.insertAll_nil arranged
  | byInsertion =>
      have fills : ∀ before, ((before ++ fields).map Prod.fst).Nodup →
          @ObjectMap.insertAll _ .byInsertion before fields = before ++ fields := by
        clear arranged
        induction fields with
        | nil => exact fun before _ => (List.append_nil before).symm
        | cons field rest ih =>
            intro before distinct
            rw [List.append_cons] at distinct ⊢
            have absent : field.1 ∉ before.map Prod.fst := by
              rw [List.map_append, List.map_append, List.append_assoc] at distinct
              exact fun member => (List.nodup_append'.mp distinct).2.2 member
                (List.mem_append_left _ (List.mem_singleton_self _))
            have first : put field.1 field.2 before = before ++ [field] := put_of_notMem absent
            have later := ih (before ++ [field]) distinct
            rwa [← first] at later ⊢
      exact fills [] arranged

variable (distinct : (fields.map Prod.fst).Nodup)

include distinct

theorem find_ofList (key : Str) : Assoc.find key (ofList fields) = Assoc.find key fields := by
  rw [ofList, find_insertAll distinct, Assoc.find_nil, Option.or_none]

theorem mem_ofList : field ∈ ofList fields ↔ field ∈ fields := by
  constructor
  · exact fun member => (mem_of_mem_insertAll member).resolve_left List.not_mem_nil
  · intro member
    refine Assoc.mem_of_find ((find_ofList distinct field.1).trans ?_)
    exact Assoc.find_of_mem distinct member

end Laws

end Either

end ObjectMap

namespace Number

/-- A float that is zero, of either sign. -/
def isZero (number : Number) : Bool := number.text == lit "0.0" || number.text == lit "-0.0"

/-- `Number::eq`: other numbers are equal if they are written in the same way. -/
def equal (left right : Number) : Bool := left == right || left.isZero && right.isZero

end Number

namespace Json

/-- `json!` at an object. -/
def ofFields [FieldOrder] (fields : List (Str × Json)) : Json := .object (ObjectMap.ofList fields)

theorem get_ofFields [FieldOrder] {fields : List (Str × Json)}
    (distinct : (fields.map Prod.fst).Nodup) (key : Str) :
    (ofFields fields).get key = Assoc.find key fields := ObjectMap.find_ofList distinct key

mutual

/-- `Value::eq`. -/
def equal : Json → Json → Bool
  | .null, .null => true
  | .bool left, .bool right => left == right
  | .number left, .number right => left.equal right
  | .string left, .string right => left == right
  | .array left, .array right => equalItems left right
  | .object left, .object right => left.length == right.length && equalFields left right
  | _, _ => false

def equalItems : List Json → List Json → Bool
  | [], [] => true
  | left :: lefts, right :: rights => equal left right && equalItems lefts rights
  | _, _ => false

/-- Each field has an equal one among the others. -/
def equalFields : List (Str × Json) → List (Str × Json) → Bool
  | [], _ => true
  | (key, left) :: lefts, rights =>
      (match Assoc.find key rights with
        | some right => equal left right
        | none => false) && equalFields lefts rights

end

/-- The values that a program can hold: all objects are maps. -/
inductive Arranged [FieldOrder] : Json → Prop where
  | scalar {json : Json} (scalar : json.isScalar = true) : Arranged json
  | array {items : List Json} (each : ∀ item ∈ items, Arranged item) : Arranged (.array items)
  | object {fields : List (Str × Json)} (arranged : ObjectMap.Arranged fields)
      (each : ∀ field ∈ fields, Arranged field.2) : Arranged (.object fields)

theorem equalFields_iff {lefts rights : List (Str × Json)} :
    equalFields lefts rights = true ↔ ∀ field ∈ lefts,
      ∃ right, Assoc.find field.1 rights = some right ∧ equal field.2 right = true := by
  induction lefts with
  | nil => simp [equalFields]
  | cons field rest ih =>
      obtain ⟨key, left⟩ := field
      rw [equalFields, Bool.and_eq_true, ih, List.forall_mem_cons]
      cases Assoc.find key rights <;> simp

/-- What is found in an object is equal to what is found in an equal one. -/
theorem equal_of_find {lefts rights : List (Str × Json)} {key : Str} {left right : Json}
    (equal : equal (.object lefts) (.object rights) = true)
    (foundLeft : Assoc.find key lefts = some left)
    (foundRight : Assoc.find key rights = some right) : left.equal right = true := by
  rw [Json.equal, Bool.and_eq_true, equalFields_iff] at equal
  obtain ⟨other, found, same⟩ := equal.2 _ (Assoc.mem_of_find foundLeft)
  cases foundRight.symm.trans found
  exact same

theorem equalItems_self {items : List Json} (each : ∀ item ∈ items, item.equal item = true) :
    equalItems items items = true := by
  induction items with
  | nil => rfl
  | cons item rest ih =>
      rw [equalItems, each item List.mem_cons_self, Bool.true_and]
      exact ih fun other member => each other (List.mem_cons_of_mem _ member)

/-- Values are equal to themselves. -/
theorem Arranged.equal_self [FieldOrder] {json : Json} (arranged : Arranged json) :
    json.equal json = true := by
  induction arranged with
  | @scalar json scalar =>
      cases json with
      | null => rfl
      | bool value => exact beq_self_eq_true value
      | number value => simp [equal, Number.equal]
      | string text => exact beq_self_eq_true text
      | array items => cases scalar
      | object fields => cases scalar
  | @array items _ ih =>
      exact equalItems_self ih
  | @object fields arranged _ ih =>
      rw [equal, beq_self_eq_true, Bool.true_and, equalFields_iff]
      exact fun field member =>
        ⟨field.2, Assoc.find_of_mem arranged.nodup member, ih field member⟩

end Json

end Foundation
