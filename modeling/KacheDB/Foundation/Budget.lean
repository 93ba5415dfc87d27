import Mathlib.Tactic
import Mathlib.Data.List.Infix

/-!
# The last elements within a budget

A loop goes through a list from its end and keeps an element as long as the weights of all that it
keeps stay within a budget.  It stops at the first element that is too heavy.

`isLongestWithin_keepLast` says that it keeps the longest suffix within the budget, and
`IsLongestWithin.iff_forall` turns a statement about what it keeps into one about all suffixes
within the budget.
-/

namespace Foundation

variable {α : Type*} (weight : α → ℕ)

/-- The weight of some elements. -/
def load (xs : List α) : ℕ :=
  (xs.map weight).sum

/-- The longest suffix of a list within a budget. -/
structure IsLongestWithin (budget : ℤ) (xs kept : List α) : Prop where
  suffix : kept <:+ xs
  load_le : (load weight kept : ℤ) ≤ budget
  longest : ∀ ys, ys <:+ xs → (load weight ys : ℤ) ≤ budget → ys <:+ kept

/-- The loop over the reversed list; `load` is the weight of what has been kept. -/
def keepLast (budget : ℤ) (load : ℕ) (kept : List α) : List α → List α
  | [] => kept
  | x :: rest =>
    if (load + weight x : ℤ) > budget then kept
    else keepLast budget (load + weight x) (x :: kept) rest

variable {weight} {budget : ℤ} {xs ys kept : List α}

lemma load_cons (x : α) (xs : List α) : load weight (x :: xs) = weight x + load weight xs := by
  rw [load, List.map_cons, List.sum_cons]
  rfl

lemma load_append (xs ys : List α) :
    load weight (xs ++ ys) = load weight xs + load weight ys := by
  rw [load, List.map_append, List.sum_append]
  rfl

variable (weight) in
/-- A suffix does not weigh more. -/
lemma load_le_of_suffix (h : xs <:+ ys) : load weight xs ≤ load weight ys := by
  obtain ⟨front, rfl⟩ := h
  rw [load_append]
  exact Nat.le_add_left _ _

/-- **The loop keeps the longest suffix within the budget.** -/
theorem isLongestWithin_keepLast (hkept : (load weight kept : ℤ) ≤ budget) (rest : List α) :
    IsLongestWithin weight budget (rest.reverse ++ kept)
      (keepLast weight budget (load weight kept) kept rest) := by
  induction rest generalizing kept with
  | nil => exact ⟨List.suffix_rfl, hkept, fun _ hys _ => hys⟩
  | cons x rest ih =>
    have hsplit : (x :: rest).reverse ++ kept = rest.reverse ++ x :: kept := by
      rw [List.reverse_cons, List.append_assoc, List.singleton_append]
    have hload : load weight (x :: kept) = load weight kept + weight x := by
      rw [load_cons, add_comm]
    rw [hsplit, keepLast]
    split_ifs with hheavy
    · refine ⟨(List.suffix_cons x kept).trans (List.suffix_append _ _), hkept, ?_⟩
      intro ys hys hfits
      rcases Nat.lt_or_ge kept.length ys.length with hlt | hge
      · -- a longer suffix has the heavy element
        have hle := load_le_of_suffix weight
          (List.suffix_of_suffix_length_le (List.suffix_append rest.reverse (x :: kept)) hys hlt)
        omega
      · exact List.suffix_of_suffix_length_le hys
          ((List.suffix_cons x kept).trans (List.suffix_append _ _)) hge
    · rw [← hload]
      apply ih
      omega

/-- A property that a list has if a longer one has it: what is kept has it exactly if every suffix
within the budget does. -/
lemma IsLongestWithin.iff_forall {P : List α → Prop} (hP : ∀ ys zs, ys <:+ zs → P zs → P ys)
    (h : IsLongestWithin weight budget xs kept) :
    P kept ↔ ∀ ys, ys <:+ xs → (load weight ys : ℤ) ≤ budget → P ys := by
  constructor
  · intro hkept ys hys hfits
    exact hP ys kept (h.longest ys hys hfits) hkept
  · intro hall
    exact hall kept h.suffix h.load_le

end Foundation
