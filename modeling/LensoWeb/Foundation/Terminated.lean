import LensoWeb.Foundation.Result

/-!
# Lists with a separator

A reader of the shape that token parsers have: a round takes some tokens off the input and
updates what has been read; between two rounds stands a separator, and one may stand behind
the last. The rounds are an arbitrary function and the grammar an arbitrary relation; if the
two agree on one round, they agree on the whole input.
-/

namespace Foundation

variable {τ σ ε : Type}

/-- Read rounds from the input until it is empty. No round is empty, so the length of the
input is enough fuel. -/
def readTerminated (round : σ → List τ → Except ε (σ × List τ)) (separator : τ → Bool)
    (expected : ε) : Nat → σ → List τ → Except ε σ
  | _, s, [] => .ok s
  | 0, _, _ :: _ => .error expected
  | fuel + 1, s, token :: tokens => do
      let (s, rest) ← round s (token :: tokens)
      match rest with
      | [] => return s
      | next :: rest =>
          if separator next then readTerminated round separator expected fuel s rest
          else .error expected

/-- Rounds with a separator between two of them, and perhaps one behind the last. -/
inductive Terminated (Round : σ → List τ → σ → Prop) (separator : τ → Bool) :
    σ → List τ → σ → Prop where
  | done (s : σ) : Terminated Round separator s [] s
  | last {s t : σ} {word : List τ} (round : Round s word t) : Terminated Round separator s word t
  | more {s t u : σ} {word rest : List τ} {next : τ} (round : Round s word t)
      (separates : separator next = true) (later : Terminated Round separator t rest u) :
      Terminated Round separator s (word ++ next :: rest) u

/-- Rounds may be exchanged for others that hold of the words of the input. -/
theorem Terminated.imp {Round Other : σ → List τ → σ → Prop} {separator : τ → Bool} {s t : σ}
    {tokens : List τ} (holds : Terminated Round separator s tokens t)
    (imp : ∀ s word t, word <:+: tokens → Round s word t → Other s word t) :
    Terminated Other separator s tokens t := by
  induction holds with
  | done s => exact .done s
  | last round => exact .last (imp _ _ _ List.infix_rfl round)
  | @more s t u word rest next round separates later ih =>
      refine .more (imp _ _ _ (List.prefix_append _ _).isInfix round) separates (ih ?_)
      intro s inner t inside round
      refine imp _ _ _ (inside.trans ?_) round
      exact (List.suffix_append (word ++ [next]) rest).isInfix.trans (by
        rw [List.append_assoc]
        exact List.infix_rfl)

/-- What every round keeps is kept. -/
theorem Terminated.preserves (invariant : σ → Prop) {Round : σ → List τ → σ → Prop}
    {separator : τ → Bool} {s t : σ} {tokens : List τ} (holds : Terminated Round separator s tokens t)
    (kept : ∀ s word t, Round s word t → invariant s → invariant t) (start : invariant s) :
    invariant t := by
  induction holds with
  | done s => exact start
  | last round => exact kept _ _ _ round start
  | more round separates later ih => exact ih (kept _ _ _ round start)

/-- A round takes a word of the relation off the input, whatever follows it. -/
structure Reads (round : σ → List τ → Except ε (σ × List τ)) (Round : σ → List τ → σ → Prop) :
    Prop where
  reads : ∀ {s input t rest}, round s input = .ok (t, rest) →
    ∃ word, input = word ++ rest ∧ Round s word t
  read : ∀ {s word t}, Round s word t → ∀ rest, round s (word ++ rest) = .ok (t, rest)
  nonempty : ∀ {s word t}, Round s word t → word ≠ []

namespace Reads

variable {round : σ → List τ → Except ε (σ × List τ)} {Round : σ → List τ → σ → Prop}
  {separator : τ → Bool} {expected : ε}

/-- What is read is in the grammar. -/
theorem terminated_of_read (reads : Reads round Round) {fuel : Nat} {s t : σ} {tokens : List τ}
    (read : readTerminated round separator expected fuel s tokens = .ok t) :
    Terminated Round separator s tokens t := by
  induction fuel generalizing s tokens with
  | zero =>
      cases tokens with
      | nil =>
          cases read
          exact .done _
      | cons token tokens => cases read
  | succ fuel ih =>
      cases tokens with
      | nil =>
          cases read
          exact .done _
      | cons token tokens =>
          obtain ⟨⟨middle, rest⟩, first, read⟩ := Result.bind_eq_ok.mp read
          obtain ⟨word, split, holds⟩ := reads.reads first
          rw [split]
          cases rest with
          | nil =>
              cases read
              rw [List.append_nil]
              exact .last holds
          | cons next rest =>
              dsimp only at read
              split at read
              · next separates => exact .more holds separates (ih read)
              · cases read

/-- What is in the grammar is read, if the fuel is as long as the input. -/
theorem read_of_terminated (reads : Reads round Round) {fuel : Nat} {s t : σ} {tokens : List τ}
    (enough : tokens.length ≤ fuel) (holds : Terminated Round separator s tokens t) :
    readTerminated round separator expected fuel s tokens = .ok t := by
  induction holds generalizing fuel with
  | done s => cases fuel <;> rfl
  | @last s t word holds =>
      have whole := reads.read holds []
      have nonempty := reads.nonempty holds
      rw [List.append_nil] at whole
      cases word with
      | nil => exact absurd rfl nonempty
      | cons token tokens =>
          obtain ⟨fuel, rfl⟩ := Nat.exists_eq_add_one_of_ne_zero
            (Nat.ne_of_gt (Nat.lt_of_lt_of_le (Nat.zero_lt_succ _) enough))
          rw [readTerminated, whole]
          rfl
  | @more s t u word rest next holds separates later ih =>
      have whole := reads.read holds (next :: rest)
      have nonempty := reads.nonempty holds
      cases word with
      | nil => exact absurd rfl nonempty
      | cons token tokens =>
          have bound : (token :: tokens ++ next :: rest).length =
              (tokens.length + 1) + (rest.length + 1) := by
            rw [List.length_append, List.length_cons, List.length_cons]
          obtain ⟨fuel, rfl⟩ := Nat.exists_eq_add_one_of_ne_zero (show fuel ≠ 0 by omega)
          rw [List.cons_append, readTerminated, ← List.cons_append, whole]
          show (if separator next then _ else _) = _
          rw [if_pos separates]
          exact ih (by omega)

/-- The reader accepts exactly the grammar. -/
theorem readTerminated_eq_ok_iff (reads : Reads round Round) {s t : σ} {tokens : List τ} :
    readTerminated round separator expected tokens.length s tokens = .ok t ↔
      Terminated Round separator s tokens t :=
  ⟨reads.terminated_of_read, reads.read_of_terminated (Nat.le_refl _)⟩

end Reads

end Foundation
