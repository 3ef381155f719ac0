/-! # Runs moment by moment

A schedule names the move that is tried next at each moment.  `stateAt` is the state that a run has
reached at a moment: the move `n` leads from the moment `n` to the moment `n + 1`.  Every finite run
is the beginning of a schedule, so that what holds at every moment of every schedule holds after
every finite run.  Facts about the past of a moment come from `exists_began`, which turns what a
move can begin or keep into the move in which it began.
-/

namespace Tollgate

variable {σ μ α : Type}

/-- The state of a run after the first moves of a schedule. -/
def stateAt (advance : σ → μ → σ) (start : σ) (moves : Nat → μ) (n : Nat) : σ :=
  ((List.range n).map moves).foldl advance start

variable {advance : σ → μ → σ} {start : σ} {moves : Nat → μ}

theorem stateAt_succ {n : Nat} :
    stateAt advance start moves (n + 1) = advance (stateAt advance start moves n) (moves n) := by
  unfold stateAt
  rw [List.range_succ, List.map_append, List.foldl_append]
  rfl

/-- What every move keeps holds from any moment at which it holds. -/
theorem stateAt_of_kept {P : σ → Prop} (kept : ∀ s m, P s → P (advance s m)) {b n : Nat}
    (later : b ≤ n) (holds : P (stateAt advance start moves b)) :
    P (stateAt advance start moves n) := by
  induction later with
  | refl => exact holds
  | step _ ih =>
    rw [Nat.succ_eq_add_one, stateAt_succ]
    exact kept _ _ ih

/-- What no move between two moments changes is the same at both. -/
theorem stateAt_eq_of_same {f : σ → α} {b n : Nat} (later : b ≤ n)
    (same : ∀ t, b ≤ t → t < n →
      f (stateAt advance start moves (t + 1)) = f (stateAt advance start moves t)) :
    f (stateAt advance start moves n) = f (stateAt advance start moves b) := by
  induction later with
  | refl => rfl
  | @step n later ih =>
    rw [same n later (Nat.lt_succ_self n)]
    exact ih fun t since before => same t since (Nat.lt_succ_of_lt before)

/-- What holds at a moment, but not at first, began in some move, and what stays the same while it
    lasts has been the same since. -/
theorem exists_began {P began : Nat → Prop} {f : Nat → α} {n : Nat} (absent : ¬P 0)
    (step : ∀ n, P (n + 1) → began n ∨ P n ∧ f (n + 1) = f n) (holds : P n) :
    ∃ b < n, began b ∧ ∀ t, b < t → t ≤ n → f t = f n := by
  induction n with
  | zero => exact absurd holds absent
  | succ n ih =>
    obtain begun | ⟨before, same⟩ := step n holds
    · refine ⟨n, Nat.lt_succ_self n, begun, fun t after until_t => ?_⟩
      rw [Nat.le_antisymm until_t after]
    · obtain ⟨b, earlier, begun, still⟩ := ih before
      refine ⟨b, Nat.lt_succ_of_lt earlier, begun, fun t after until_t => ?_⟩
      obtain sooner | rfl := Nat.le_succ_iff.mp until_t
      · rw [still t after sooner, same]
      · rfl

/-- What cannot rise, and falls again as long as the goal is not reached, leads to the goal. -/
theorem exists_of_falling (left : Nat → Nat) {goal : Nat → Prop}
    (falls : ∀ n, left (n + 1) ≤ left n)
    (driven : ∀ n, ¬goal n → ∃ t, n ≤ t ∧ left (t + 1) < left t) (n : Nat) :
    ∃ t, n ≤ t ∧ goal t := by
  have lower : ∀ {m t}, m ≤ t → left t ≤ left m := by
    intro m t later
    induction later with
    | refl => exact Nat.le_refl _
    | @step t _ ih => exact Nat.le_trans (falls t) ih
  induction few : left n using Nat.strongRecOn generalizing n with
  | _ count ih =>
    by_cases reached : goal n
    · exact ⟨n, Nat.le_refl n, reached⟩
    · obtain ⟨t, later, fell⟩ := driven n reached
      have fewer : left (t + 1) < count := few ▸ Nat.lt_of_lt_of_le fell (lower later)
      obtain ⟨last, after, reached⟩ := ih _ fewer (t + 1) rfl
      exact ⟨last, by omega, reached⟩

end Tollgate
