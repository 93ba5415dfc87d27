import Mathlib.Algebra.BigOperators.Group.List.Basic
import Mathlib.Tactic

/-!
# Histograms

A loop adds amounts at places of a list.  `getElem?_addAll` says what stands at a place behind it:
what was there, and all amounts that were added at this place.  So the order of the additions does
not matter (`addAll_perm`), and the whole of the list grows by the whole of the amounts
(`sum_addAll`).
-/

namespace Foundation

variable {α : Type*} [AddCommMonoid α]

/-- `v[i] += x`, with an index that is in range. -/
def addAt (v : List α) (i : ℕ) (x : α) : List α :=
  v.modify i (· + x)

/-- Additions, one after the other. -/
def addAll (v : List α) (additions : List (ℕ × α)) : List α :=
  additions.foldl (fun v a => addAt v a.1 a.2) v

/-- What is added at a place. -/
def amountAt (additions : List (ℕ × α)) (i : ℕ) : α :=
  (additions.map fun a => if a.1 = i then a.2 else 0).sum

variable {v : List α} {additions additions' : List (ℕ × α)}

@[simp] lemma length_addAt (v : List α) (i : ℕ) (x : α) : (addAt v i x).length = v.length :=
  List.length_modify _ _ _

@[simp] lemma length_addAll (v : List α) (additions : List (ℕ × α)) :
    (addAll v additions).length = v.length := by
  induction additions generalizing v with
  | nil => rfl
  | cons a additions ih =>
    rw [addAll, List.foldl_cons, ← addAll, ih, length_addAt]

lemma getElem?_addAt (v : List α) (i j : ℕ) (x : α) :
    (addAt v i x)[j]? = v[j]?.map fun y => if i = j then y + x else y :=
  List.getElem?_modify _ _ _ _

lemma addAll_append (v : List α) (additions additions' : List (ℕ × α)) :
    addAll v (additions ++ additions') = addAll (addAll v additions) additions' :=
  List.foldl_append

lemma amountAt_append (additions additions' : List (ℕ × α)) (i : ℕ) :
    amountAt (additions ++ additions') i = amountAt additions i + amountAt additions' i := by
  rw [amountAt, List.map_append, List.sum_append, amountAt, amountAt]

/-- Where no amount is added, nothing is. -/
lemma amountAt_eq_zero {i : ℕ} (h : ∀ a ∈ additions, a.1 ≠ i) : amountAt additions i = 0 := by
  refine List.sum_eq_zero fun x hx => ?_
  obtain ⟨a, ha, rfl⟩ := List.mem_map.mp hx
  exact if_neg (h a ha)

/-- **What stands at a place.** -/
theorem getElem?_addAll (v : List α) (additions : List (ℕ × α)) (i : ℕ) :
    (addAll v additions)[i]? = v[i]?.map (· + amountAt additions i) := by
  induction additions generalizing v with
  | nil => simp [addAll, amountAt]
  | cons a additions ih =>
    rw [addAll, List.foldl_cons, ← addAll, ih, getElem?_addAt, Option.map_map]
    congr 1
    funext x
    simp only [Function.comp_apply, amountAt, List.map_cons, List.sum_cons]
    split_ifs
    · rw [add_assoc]
    · rw [zero_add]

/-- The order of the additions does not matter. -/
theorem addAll_perm (v : List α) (h : additions.Perm additions') :
    addAll v additions = addAll v additions' := by
  apply List.ext_getElem?
  intro i
  rw [getElem?_addAll, getElem?_addAll, amountAt, amountAt, (h.map _).sum_eq]

/-- The whole of the list grows by what is added. -/
lemma sum_addAt {i : ℕ} (hi : i < v.length) (x : α) : (addAt v i x).sum = v.sum + x := by
  induction v generalizing i with
  | nil => cases hi
  | cons y v ih =>
    rcases i with _ | i
    · simp only [addAt, List.modify_zero_cons, List.sum_cons]
      rw [add_right_comm]
    · have hrest := ih (Nat.lt_of_succ_lt_succ hi)
      rw [addAt] at hrest
      rw [addAt, List.modify_succ_cons, List.sum_cons, hrest, List.sum_cons, add_assoc]

/-- **The whole of the list grows by the whole of the amounts.** -/
theorem sum_addAll (h : ∀ a ∈ additions, a.1 < v.length) :
    (addAll v additions).sum = v.sum + (additions.map Prod.snd).sum := by
  induction additions generalizing v with
  | nil => exact (add_zero _).symm
  | cons a additions ih =>
    obtain ⟨ha, hrest⟩ := List.forall_mem_cons.mp h
    rw [addAll, List.foldl_cons, ← addAll, ih (by rwa [length_addAt]), sum_addAt ha, List.map_cons,
      List.sum_cons, add_assoc]

/-- What holds of the numbers in the list, and of the amounts, and of sums, holds behind it. -/
lemma forall_mem_addAll {P : α → Prop} (hadd : ∀ x y, P x → P y → P (x + y))
    (hv : ∀ x ∈ v, P x) (h : ∀ a ∈ additions, P a.2) : ∀ x ∈ addAll v additions, P x := by
  induction additions generalizing v with
  | nil => exact hv
  | cons a additions ih =>
    obtain ⟨ha, hrest⟩ := List.forall_mem_cons.mp h
    refine ih (fun x hx => ?_) hrest
    obtain ⟨i, hi⟩ := List.mem_iff_getElem?.mp hx
    rw [getElem?_addAt, Option.map_eq_some_iff] at hi
    obtain ⟨y, hy, rfl⟩ := hi
    have hPy := hv y (List.mem_of_getElem? hy)
    split_ifs
    · exact hadd y a.2 hPy ha
    · exact hPy

end Foundation
