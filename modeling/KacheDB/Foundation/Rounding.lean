import Mathlib.Tactic
import Mathlib.Algebra.Order.Round
import Mathlib.Algebra.Ring.Int.Parity

/-!
# Rounding half to even

The integer that is next to a number, and the even one of two that are as near.
-/

namespace Foundation

variable {α : Type*} [Field α] [LinearOrder α] [FloorRing α]

/-- The nearest integer; of two, the even one. -/
def roundHalfEven (x : α) : ℤ :=
  if Int.fract x < 1 / 2 ∨ Int.fract x = 1 / 2 ∧ Even ⌊x⌋ then ⌊x⌋ else ⌊x⌋ + 1

lemma floor_le_roundHalfEven (x : α) : ⌊x⌋ ≤ roundHalfEven x := by
  unfold roundHalfEven
  split_ifs <;> omega

lemma roundHalfEven_le_floor_add_one (x : α) : roundHalfEven x ≤ ⌊x⌋ + 1 := by
  unfold roundHalfEven
  split_ifs <;> omega

variable [IsStrictOrderedRing α]

/-- An integer stays. -/
@[simp] lemma roundHalfEven_intCast (n : ℤ) : roundHalfEven (n : α) = n := by
  rw [roundHalfEven, Int.fract_intCast, Int.floor_intCast, if_pos (.inl (by norm_num))]

/-- The distance is one half at most. -/
lemma abs_roundHalfEven_sub_le (x : α) : |(roundHalfEven x : α) - x| ≤ 1 / 2 := by
  have hfloor := Int.floor_add_fract x
  have hnonneg := Int.fract_nonneg x
  have hlt := Int.fract_lt_one x
  unfold roundHalfEven
  rw [abs_le]
  split_ifs with h
  · have hle : Int.fract x ≤ 1 / 2 := h.elim le_of_lt fun heq => heq.1.le
    constructor <;> linarith
  · have hle : 1 / 2 ≤ Int.fract x := not_lt.mp fun hlt => h (.inl hlt)
    push_cast
    constructor <;> linarith

/-- A number that is not smaller is not rounded to a smaller integer. -/
lemma roundHalfEven_mono : Monotone (roundHalfEven : α → ℤ) := by
  intro x y hxy
  rcases (Int.floor_mono hxy).lt_or_eq with hlt | heq
  · -- an integer lies between them
    have hx := roundHalfEven_le_floor_add_one x
    have hy := floor_le_roundHalfEven y
    omega
  · have hfract : Int.fract x ≤ Int.fract y := by
      rw [Int.fract, Int.fract, heq]
      exact sub_le_sub_right hxy _
    by_cases hy : Int.fract y < 1 / 2 ∨ Int.fract y = 1 / 2 ∧ Even ⌊y⌋
    · have hx : Int.fract x < 1 / 2 ∨ Int.fract x = 1 / 2 ∧ Even ⌊x⌋ := by
        rcases hy with hlt | ⟨hhalf, heven⟩
        · exact .inl (hfract.trans_lt hlt)
        · rw [hhalf] at hfract
          rw [heq]
          exact hfract.lt_or_eq.imp_right fun h => ⟨h, heven⟩
      rw [roundHalfEven, roundHalfEven, if_pos hx, if_pos hy, heq]
    · have hround : roundHalfEven y = ⌊y⌋ + 1 := if_neg hy
      have hx := roundHalfEven_le_floor_add_one x
      omega

/-- What lies between two integers is rounded to an integer between them. -/
lemma roundHalfEven_mem_Icc {x : α} {m n : ℤ} (hm : (m : α) ≤ x) (hn : x ≤ n) :
    roundHalfEven x ∈ Set.Icc m n := by
  constructor
  · have h := roundHalfEven_mono hm
    rwa [roundHalfEven_intCast] at h
  · have h := roundHalfEven_mono hn
    rwa [roundHalfEven_intCast] at h

example : roundHalfEven (5 / 2 : ℚ) = 2 ∧ roundHalfEven (7 / 2 : ℚ) = 4 := by
  decide +kernel

end Foundation
