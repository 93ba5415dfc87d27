import Mathlib.Tactic
import Mathlib.Data.Nat.Bitwise
import Mathlib.Data.Int.Bitwise

/-!
# Numbers as sets of bits

A number as the set of the places at which it has a bit: the operations on the bits of numbers are
operations on sets.  An integer has infinitely many bits if it is negative (two's complement), and
its remainder modulo `2 ^ k` has the lowest `k` of them.

`mem_bits_foldl` says which bits a loop collects that sets one bit for each of some elements, and
`and_eq_right_iff` what the test `m & f = f` of a filter says about sets.
-/

namespace Foundation

/-- The bits of a natural number. -/
def bits (n : ℕ) : Set ℕ :=
  {i | n.testBit i = true}

/-- The bits of an integer. -/
def intBits (z : ℤ) : Set ℕ :=
  {i | z.testBit i = true}

variable {i k m n : ℕ}

@[simp] lemma mem_bits : i ∈ bits n ↔ n.testBit i = true := Iff.rfl

@[simp] lemma mem_intBits {z : ℤ} : i ∈ intBits z ↔ z.testBit i = true := Iff.rfl

@[simp] lemma intBits_natCast (n : ℕ) : intBits n = bits n := rfl

/-- A number is determined by its bits. -/
lemma bits_injective : Function.Injective bits := by
  intro m n h
  apply Nat.eq_of_testBit_eq
  intro i
  exact Bool.eq_iff_iff.mpr (Set.ext_iff.mp h i)

/-! ## Operations -/

lemma bits_or (m n : ℕ) : bits (m ||| n) = bits m ∪ bits n := by
  ext i
  rw [mem_bits, Nat.testBit_or, Bool.or_eq_true]
  exact Iff.rfl

lemma bits_and (m n : ℕ) : bits (m &&& n) = bits m ∩ bits n := by
  ext i
  rw [mem_bits, Nat.testBit_and, Bool.and_eq_true]
  exact Iff.rfl

lemma bits_one_shiftLeft (i : ℕ) : bits (1 <<< i) = {i} := by
  ext j
  rw [mem_bits, Nat.one_shiftLeft, Nat.testBit_two_pow, decide_eq_true_eq]
  exact eq_comm

lemma bits_mod_two_pow (n k : ℕ) : bits (n % 2 ^ k) = bits n ∩ Set.Iio k := by
  ext i
  rw [mem_bits, Nat.testBit_mod_two_pow, Bool.and_eq_true, decide_eq_true_eq]
  exact and_comm

/-- The remainder of an integer has its lowest bits. -/
lemma bits_toNat_emod_two_pow (z : ℤ) (k : ℕ) :
    bits (z % 2 ^ k).toNat = intBits z ∩ Set.Iio k := by
  cases z with
  | ofNat n =>
    have hnat : ((n : ℤ) % 2 ^ k).toNat = n % 2 ^ k := by
      rw [← Int.toNat_natCast (n % 2 ^ k)]
      push_cast
      rfl
    rw [Int.ofNat_eq_natCast, hnat, bits_mod_two_pow, intBits_natCast]
  | negSucc n =>
    have hlt : n % 2 ^ k < 2 ^ k := Nat.mod_lt n (Nat.two_pow_pos k)
    have hnat : (Int.negSucc n % 2 ^ k).toNat = 2 ^ k - (n % 2 ^ k + 1) := by
      have hcast : ((2 ^ k : ℕ) : ℤ) = 2 ^ k := by push_cast; rfl
      rw [Int.negSucc_emod n (by positivity), ← hcast]
      omega
    ext i
    rw [mem_bits, hnat, Nat.testBit_two_pow_sub_succ hlt, Nat.testBit_mod_two_pow,
      Set.mem_inter_iff, mem_intBits, Int.testBit, Set.mem_Iio]
    by_cases hi : i < k
    · simp [hi]
    · simp [hi]

/-! ## Comparisons -/

/-- The test of a filter. -/
lemma and_eq_right_iff : m &&& n = n ↔ bits n ⊆ bits m := by
  rw [← bits_injective.eq_iff, bits_and, Set.inter_eq_right]

/-- A number has no bits from `k` on exactly if it is smaller than `2 ^ k`. -/
lemma bits_subset_Iio_iff : bits n ⊆ Set.Iio k ↔ n < 2 ^ k := by
  constructor
  · intro h
    have hmod : n % 2 ^ k = n := by
      apply bits_injective
      rw [bits_mod_two_pow, Set.inter_eq_left.mpr h]
    rw [← hmod]
    exact Nat.mod_lt n (Nat.two_pow_pos k)
  · intro h i hi
    by_contra hge
    have hzero : n.testBit i = false :=
      Nat.testBit_lt_two_pow (h.trans_le (Nat.pow_le_pow_right two_pos (not_lt.mp hge)))
    rw [mem_bits, hzero] at hi
    cases hi

/-! ## Collecting bits -/

/-- A loop that sets one bit for each of the elements with `p`. -/
lemma mem_bits_foldl {α : Type*} (p : α → Prop) [DecidablePred p] (place : α → ℕ) (xs : List α)
    (mask : ℕ) :
    i ∈ bits (xs.foldl (fun mask x => if p x then mask ||| 1 <<< place x else mask) mask) ↔
      i ∈ bits mask ∨ ∃ x ∈ xs, p x ∧ place x = i := by
  induction xs generalizing mask with
  | nil => simp
  | cons x xs ih =>
    rw [List.foldl_cons, ih, List.exists_mem_cons_iff, ← or_assoc]
    apply or_congr_left
    by_cases hp : p x
    · rw [if_pos hp, bits_or, bits_one_shiftLeft, Set.mem_union, Set.mem_singleton_iff,
        and_iff_right hp, eq_comm]
    · rw [if_neg hp, or_iff_left fun h => hp h.1]

end Foundation
