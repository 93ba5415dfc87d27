import Mathlib.Tactic
import Mathlib.Data.List.Basic

/-!
# Common prefixes

The length of the longest common prefix of two lists, and the largest number of a list of
numbers.  `le_lcp_iff` is the only thing that has to be known of the former, and `lt_largest_iff`
of the latter.
-/

namespace Foundation

variable {α : Type*} [DecidableEq α]

/-- The length of the longest common prefix. -/
def lcp : List α → List α → ℕ
  | x :: xs, y :: ys => if x = y then lcp xs ys + 1 else 0
  | _, _ => 0

/-- The longest common prefix is at least as long as every common prefix. -/
lemma le_lcp_iff {xs ys : List α} {n : ℕ} :
    n ≤ lcp xs ys ↔ n ≤ xs.length ∧ n ≤ ys.length ∧ xs.take n = ys.take n := by
  induction xs generalizing ys n with
  | nil =>
    constructor
    · intro h
      have hn : n = 0 := Nat.le_zero.mp h
      simp [hn]
    · rintro ⟨h, -⟩
      exact h
  | cons x xs ih =>
    cases ys with
    | nil =>
      constructor
      · intro h
        have hn : n = 0 := Nat.le_zero.mp h
        simp [hn]
      · rintro ⟨-, h, -⟩
        exact h
    | cons y ys =>
      cases n with
      | zero => simp
      | succ n =>
        rw [lcp]
        split_ifs with hxy
        · subst hxy
          simp only [Nat.add_le_add_iff_right, ih, List.length_cons, List.take_succ_cons,
            List.cons.injEq, true_and]
        · simp [hxy]

/-- The largest of some numbers, 0 if there are none. -/
def largest (ns : List ℕ) : ℕ :=
  ns.foldr max 0

/-- A number is smaller than the largest one if it is smaller than one of them. -/
lemma lt_largest_iff {ns : List ℕ} {k : ℕ} : k < largest ns ↔ ∃ n ∈ ns, k < n := by
  induction ns with
  | nil => simp [largest]
  | cons n ns ih =>
    have hcons : largest (n :: ns) = max n (largest ns) := rfl
    rw [hcons, lt_max_iff, ih]
    simp

end Foundation
