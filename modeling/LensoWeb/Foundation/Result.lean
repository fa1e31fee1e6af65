import Mathlib

/-!
# Results of fallible loops

Inversion of `Except` sequences, and of the monadic list loops that stop at the
first error.
-/

namespace Foundation.Result

universe u

variable {ε α β γ : Type u}

/-- A sequence succeeds exactly when both parts do. -/
theorem bind_eq_ok {first : Except ε α} {rest : α → Except ε β} {result : β} :
    (first >>= rest) = .ok result ↔ ∃ value, first = .ok value ∧ rest value = .ok result := by
  cases first with
  | error failure =>
      constructor
      · intro impossible
        cases impossible
      · rintro ⟨value, impossible, -⟩
        cases impossible
  | ok value =>
      constructor
      · exact fun returned => ⟨value, rfl, returned⟩
      · rintro ⟨value', same, returned⟩
        cases same
        exact returned

theorem mapError_eq_ok {first : Except ε α} {convert : ε → γ} {result : α} :
    first.mapError convert = .ok result ↔ first = .ok result := by
  cases first with
  | error failure =>
      constructor <;>
        · intro impossible
          cases impossible
  | ok value => simp only [Except.mapError, Except.ok.injEq]

/-- Every output of a loop that succeeds comes from one of its rounds. -/
theorem exists_of_mem_mapM {body : α → Except ε β} {inputs : List α} {outputs : List β}
    (looped : inputs.mapM body = .ok outputs) {output : β} (member : output ∈ outputs) :
    ∃ input ∈ inputs, body input = .ok output := by
  induction inputs generalizing outputs with
  | nil =>
      rw [List.mapM_nil] at looped
      cases looped
      cases member
  | cons input rest ih =>
      rw [List.mapM_cons] at looped
      obtain ⟨first, made, remaining⟩ := bind_eq_ok.mp looped
      obtain ⟨others, later, same⟩ := bind_eq_ok.mp remaining
      cases same
      obtain rfl | inside := List.mem_cons.mp member
      · exact ⟨input, List.mem_cons_self, made⟩
      · obtain ⟨source, found, returned⟩ := ih later inside
        exact ⟨source, List.mem_cons_of_mem _ found, returned⟩

/-- What is matched on the left has its partner on the right. -/
theorem exists_of_forall₂_left {R : α → β → Prop} {inputs : List α} {outputs : List β}
    (all : List.Forall₂ R inputs outputs) {input : α} (member : input ∈ inputs) :
    ∃ output ∈ outputs, R input output := by
  induction all with
  | nil => cases member
  | cons first _ ih =>
      obtain rfl | inside := List.mem_cons.mp member
      · exact ⟨_, List.mem_cons_self, first⟩
      · obtain ⟨output, found, related⟩ := ih inside
        exact ⟨output, List.mem_cons_of_mem _ found, related⟩

/-- Where everything has a partner, the list of partners is there. -/
theorem exists_forall₂ {R : α → β → Prop} {inputs : List α}
    (each : ∀ input ∈ inputs, ∃ output, R input output) :
    ∃ outputs, List.Forall₂ R inputs outputs := by
  induction inputs with
  | nil => exact ⟨[], .nil⟩
  | cons input rest ih =>
      obtain ⟨output, first⟩ := each input List.mem_cons_self
      obtain ⟨outputs, later⟩ := ih fun other member => each other (List.mem_cons_of_mem _ member)
      exact ⟨output :: outputs, .cons first later⟩

/-- What every pair agrees on, the lists agree on. -/
theorem map_eq_of_forall₂ {R : α → β → Prop} {inputs : List α} {outputs : List β} {f : α → γ}
    {g : β → γ} (each : ∀ input output, R input output → g output = f input)
    (all : List.Forall₂ R inputs outputs) : outputs.map g = inputs.map f := by
  induction all with
  | nil => rfl
  | cons first _ ih => rw [List.map_cons, List.map_cons, each _ _ first, ih]

/-- A loop over a list succeeds when every round does. -/
theorem mapM_eq_ok {body : α → Except ε β} {inputs : List α} {outputs : List β} :
    inputs.mapM body = .ok outputs ↔
      List.Forall₂ (fun input output => body input = .ok output) inputs outputs := by
  induction inputs generalizing outputs with
  | nil =>
      rw [List.mapM_nil, List.forall₂_nil_left_iff]
      constructor
      · intro returned
        cases returned
        rfl
      · rintro rfl
        rfl
  | cons input rest ih =>
      rw [List.mapM_cons, bind_eq_ok, List.forall₂_cons_left_iff]
      constructor
      · rintro ⟨first, made, remaining⟩
        obtain ⟨others, later, same⟩ := bind_eq_ok.mp remaining
        cases same
        exact ⟨first, others, made, ih.mp later, rfl⟩
      · rintro ⟨first, others, made, later, rfl⟩
        exact ⟨first, made, bind_eq_ok.mpr ⟨others, ih.mpr later, rfl⟩⟩

/-- A loop depends on what its rounds do to its own inputs. -/
theorem mapM_congr {body other : α → Except ε β} {inputs : List α}
    (same : ∀ input ∈ inputs, body input = other input) : inputs.mapM body = inputs.mapM other := by
  induction inputs with
  | nil => rfl
  | cons input rest ih =>
      rw [List.mapM_cons, List.mapM_cons, same input List.mem_cons_self,
        ih fun other member => same other (List.mem_cons_of_mem _ member)]

theorem map_eq_ok {first : Except ε α} {convert : α → β} {result : β} :
    first.map convert = .ok result ↔ ∃ value, first = .ok value ∧ convert value = result := by
  cases first with
  | error failure =>
      constructor
      · intro impossible
        cases impossible
      · rintro ⟨value, impossible, -⟩
        cases impossible
  | ok value =>
      constructor
      · intro returned
        cases returned
        exact ⟨value, rfl, rfl⟩
      · rintro ⟨other, same, rfl⟩
        cases same
        rfl

/-- In a successful accumulating loop every input leaves its mark, if marks are
made by a round and survive later rounds. -/
theorem foldlM_marks {body : β → α → Except ε β} {Mark : α → β → Prop}
    (made : ∀ state input next, body state input = .ok next → Mark input next)
    (kept : ∀ state input next other, body state input = .ok next → Mark other state →
      Mark other next)
    {inputs : List α} {state final : β} (looped : inputs.foldlM body state = .ok final) :
    (∀ input ∈ inputs, Mark input final) ∧ ∀ other, Mark other state → Mark other final := by
  induction inputs generalizing state with
  | nil =>
      rw [List.foldlM_nil] at looped
      cases looped
      exact ⟨fun _ member => absurd member (List.not_mem_nil), fun _ marked => marked⟩
  | cons input rest ih =>
      rw [List.foldlM_cons] at looped
      obtain ⟨next, first, later⟩ := bind_eq_ok.mp looped
      obtain ⟨all, survives⟩ := ih later
      refine ⟨fun other member => ?_, fun other marked =>
        survives other (kept state input next other first marked)⟩
      obtain rfl | inside := List.mem_cons.mp member
      · exact survives other (made state other next first)
      · exact all other inside

/-- A loop that collects into a set succeeds when every round does, and ends with
all that the rounds add. -/
theorem foldlM_union [DecidableEq α] [DecidableEq β]
    {body : Finset β → α → Except ε (Finset β)} {Fine : α → Prop} {adds : α → Finset β}
    (round : ∀ state input next, body state input = .ok next ↔
      Fine input ∧ next = state ∪ adds input)
    {inputs : List α} {state final : Finset β} :
    inputs.foldlM body state = .ok final ↔
      (∀ input ∈ inputs, Fine input) ∧ final = state ∪ inputs.toFinset.biUnion adds := by
  induction inputs generalizing state with
  | nil =>
      simp only [List.foldlM_nil, List.not_mem_nil, false_imp_iff, implies_true, true_and,
        List.toFinset_nil, Finset.biUnion_empty, Finset.union_empty]
      constructor
      · intro returned
        cases returned
        rfl
      · rintro rfl
        rfl
  | cons input rest ih =>
      rw [List.foldlM_cons, bind_eq_ok, List.forall_mem_cons, List.toFinset_cons,
        Finset.biUnion_insert, ← Finset.union_assoc]
      constructor
      · rintro ⟨next, first, later⟩
        obtain ⟨fine, rfl⟩ := (round state input next).mp first
        obtain ⟨others, rfl⟩ := ih.mp later
        exact ⟨⟨fine, others⟩, rfl⟩
      · rintro ⟨⟨fine, others⟩, rfl⟩
        exact ⟨_, (round state input _).mpr ⟨fine, rfl⟩, ih.mpr ⟨others, rfl⟩⟩

/-- An accumulating loop whose rounds never fail does not fail. -/
theorem foldlM_isSome {body : β → α → Option β} {inputs : List α}
    (total : ∀ state, ∀ input ∈ inputs, (body state input).isSome = true) (state : β) :
    (inputs.foldlM body state).isSome = true := by
  induction inputs generalizing state with
  | nil => rfl
  | cons input rest ih =>
      obtain ⟨next, first⟩ := Option.isSome_iff_exists.mp (total state input List.mem_cons_self)
      rw [List.foldlM_cons, first]
      exact ih (fun state other member => total state other (List.mem_cons_of_mem _ member)) next

/-- A loop whose rounds append something appends all of it. -/
theorem foldlM_append_eq {body : List γ → α → Except ε (List γ)} {Fine : α → Prop}
    {gives : α → List γ}
    (round : ∀ state input, Fine input → body state input = .ok (state ++ gives input))
    {inputs : List α} (fine : ∀ input ∈ inputs, Fine input) (state : List γ) :
    inputs.foldlM body state = .ok (state ++ inputs.flatMap gives) := by
  induction inputs generalizing state with
  | nil => exact congrArg Except.ok (List.append_nil state).symm
  | cons input rest ih =>
      have later := ih fun other member => fine other (List.mem_cons_of_mem _ member)
      rw [List.foldlM_cons, round state input (fine input List.mem_cons_self), List.flatMap_cons,
        ← List.append_assoc]
      exact later _

/-- What a loop has collected, if every round adds what its input gives. -/
theorem foldlM_collects {body : β → α → Except ε β} {Holds : β → List γ → Prop}
    {gives : α → List γ}
    (round : ∀ {state input next collected}, body state input = .ok next →
      Holds state collected → Holds next (collected ++ gives input))
    {inputs : List α} {state final : β} {collected : List γ}
    (looped : inputs.foldlM body state = .ok final) (holds : Holds state collected) :
    Holds final (collected ++ inputs.flatMap gives) := by
  induction inputs generalizing state collected with
  | nil =>
      rw [List.foldlM_nil] at looped
      cases looped
      rwa [List.flatMap_nil, List.append_nil]
  | cons input rest ih =>
      rw [List.foldlM_cons] at looped
      obtain ⟨next, first, later⟩ := bind_eq_ok.mp looped
      have continued := ih later (round first holds)
      rwa [List.append_assoc, ← List.flatMap_cons] at continued

/-- A loop whose rounds can be exchanged does not depend on the order of its inputs. -/
theorem foldlM_perm {body : β → α → Except ε β}
    (exchange : ∀ state first second next final, body state first = .ok next →
      body next second = .ok final →
      ∃ other, body state second = .ok other ∧ body other first = .ok final)
    {inputs others : List α} (perm : inputs.Perm others) {state final : β}
    (looped : inputs.foldlM body state = .ok final) : others.foldlM body state = .ok final := by
  induction perm generalizing state with
  | nil => exact looped
  | cons input _ ih =>
      rw [List.foldlM_cons] at looped ⊢
      obtain ⟨next, first, later⟩ := bind_eq_ok.mp looped
      exact bind_eq_ok.mpr ⟨next, first, ih later⟩
  | swap first second rest =>
      simp only [List.foldlM_cons] at looped ⊢
      obtain ⟨next, made, looped⟩ := bind_eq_ok.mp looped
      obtain ⟨after, madeNext, later⟩ := bind_eq_ok.mp looped
      obtain ⟨other, early, late⟩ := exchange _ _ _ _ _ made madeNext
      exact bind_eq_ok.mpr ⟨other, early, bind_eq_ok.mpr ⟨after, late, later⟩⟩
  | trans _ _ ihFirst ihSecond => exact ihSecond (ihFirst looped)

/-! ### Where an error comes from -/

theorem bind_eq_error {first : Except ε α} {rest : α → Except ε β} {failure : ε}
    (failed : (first >>= rest) = .error failure) :
    first = .error failure ∨ ∃ value, first = .ok value ∧ rest value = .error failure := by
  cases first with
  | error other =>
      cases failed
      exact .inl rfl
  | ok value => exact .inr ⟨value, rfl, failed⟩

theorem map_eq_error {first : Except ε α} {convert : α → β} {failure : ε}
    (failed : first.map convert = .error failure) : first = .error failure := by
  cases first with
  | error other =>
      cases failed
      rfl
  | ok value => cases failed

theorem mapM_eq_error {body : α → Except ε β} {inputs : List α} {failure : ε}
    (failed : inputs.mapM body = .error failure) : ∃ input ∈ inputs, body input = .error failure := by
  induction inputs with
  | nil => cases failed
  | cons input rest ih =>
      rw [List.mapM_cons] at failed
      obtain first | ⟨value, -, later⟩ := bind_eq_error failed
      · exact ⟨input, List.mem_cons_self, first⟩
      · obtain remaining | ⟨values, -, impossible⟩ := bind_eq_error later
        · obtain ⟨found, member, reason⟩ := ih remaining
          exact ⟨found, List.mem_cons_of_mem _ member, reason⟩
        · cases impossible

theorem foldlM_eq_error {body : β → α → Except ε β} {inputs : List α} {state : β} {failure : ε}
    (failed : inputs.foldlM body state = .error failure) :
    ∃ input ∈ inputs, ∃ state, body state input = .error failure := by
  induction inputs generalizing state with
  | nil => cases failed
  | cons input rest ih =>
      rw [List.foldlM_cons] at failed
      obtain first | ⟨next, -, later⟩ := bind_eq_error failed
      · exact ⟨input, List.mem_cons_self, state, first⟩
      · obtain ⟨found, member, reason⟩ := ih later
        exact ⟨found, List.mem_cons_of_mem _ member, reason⟩

/-! ### Errors that do not occur -/

theorem bind_ne_error {first : Except ε α} {rest : α → Except ε β} {failure : ε}
    (fine : first ≠ .error failure) (later : ∀ value, first = .ok value → rest value ≠ .error failure) :
    (first >>= rest) ≠ .error failure := by
  cases first with
  | error other =>
      intro same
      cases same
      exact fine rfl
  | ok value => exact later value rfl

theorem map_ne_error {first : Except ε α} {convert : α → β} {failure : ε}
    (fine : first ≠ .error failure) : first.map convert ≠ .error failure := by
  cases first with
  | error other =>
      intro same
      cases same
      exact fine rfl
  | ok value =>
      intro impossible
      cases impossible

theorem mapM_ne_error {body : α → Except ε β} {inputs : List α} {failure : ε}
    (fine : ∀ input ∈ inputs, body input ≠ .error failure) :
    inputs.mapM body ≠ .error failure := by
  induction inputs with
  | nil =>
      intro impossible
      cases impossible
  | cons input rest ih =>
      rw [List.mapM_cons]
      refine bind_ne_error (fine input List.mem_cons_self) fun _ _ => ?_
      refine bind_ne_error (ih fun other member => fine other (List.mem_cons_of_mem _ member)) ?_
      intro _ _ impossible
      cases impossible

theorem foldlM_ne_error {body : β → α → Except ε β} {inputs : List α} {failure : ε}
    (fine : ∀ input ∈ inputs, ∀ state, body state input ≠ .error failure) (state : β) :
    inputs.foldlM body state ≠ .error failure := by
  induction inputs generalizing state with
  | nil =>
      intro impossible
      cases impossible
  | cons input rest ih =>
      rw [List.foldlM_cons]
      refine bind_ne_error (fine input List.mem_cons_self state) fun next _ => ?_
      exact ih (fun other member => fine other (List.mem_cons_of_mem _ member)) next

end Foundation.Result
