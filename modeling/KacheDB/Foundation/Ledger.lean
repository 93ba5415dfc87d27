import Mathlib.Algebra.BigOperators.Group.Finset.Piecewise
import Mathlib.Algebra.Order.BigOperators.Group.Finset
import Mathlib.Data.Multiset.Basic
import Mathlib.Data.Fintype.Basic
import Mathlib.Tactic.Abel

/-!
# Ledgers

Things lie in a store or are in the hands of holders.  `holdings` are all of them, with their
multiplicities.  When one holder acts, the store and this holder change; the lemmas say what this
does to the holdings, and to things that are numbered as they are made.
-/

namespace Foundation

open scoped BigOperators

variable {ι α M : Type*} [Fintype ι]

/-- Everything in the store and with the holders. -/
def holdings (store : Multiset α) (held : ι → Multiset α) : Multiset α :=
  store + ∑ i, held i

/-- What is in the store and with one holder is among the holdings. -/
lemma store_add_held_le (store : Multiset α) (held : ι → Multiset α) (i : ι) :
    store + held i ≤ holdings store held := by
  refine add_le_add_right ?_ store
  exact Finset.single_le_sum (fun j _ => zero_le) (Finset.mem_univ i)

/-- If nothing is in two places, then two holders have nothing in common. -/
lemma not_mem_held_of_ne {store : Multiset α} {held : ι → Multiset α}
    (h : (holdings store held).Nodup) {i j : ι} (hij : i ≠ j) {a : α} (hi : a ∈ held i) :
    a ∉ held j := by
  classical
  intro hj
  have hpair : held i + held j ≤ ∑ k, held k := by
    rw [← Finset.sum_pair hij]
    exact Finset.sum_le_sum_of_subset (Finset.subset_univ _)
  have hnodup := Multiset.nodup_of_le (hpair.trans (Multiset.le_add_left _ store)) h
  exact Multiset.disjoint_left.mp (Multiset.nodup_add.mp hnodup).2.2 hi hj

/-- If nothing is in two places, then a holder has nothing of the store. -/
lemma not_mem_store {store : Multiset α} {held : ι → Multiset α}
    (h : (holdings store held).Nodup) {i : ι} {a : α} (hi : a ∈ held i) : a ∉ store := by
  intro ha
  have hnodup := Multiset.nodup_of_le (store_add_held_le store held i) h
  exact Multiset.disjoint_left.mp (Multiset.nodup_add.mp hnodup).2.2 ha hi

variable [DecidableEq ι]

/-- Replacing one summand. -/
lemma sum_update_add [AddCommMonoid M] (f : ι → M) (i : ι) (a : M) :
    ∑ j, Function.update f i a j + f i = ∑ j, f j + a := by
  rw [Finset.sum_update_of_mem (Finset.mem_univ i), ← Finset.sum_sdiff (Finset.subset_univ {i}),
    Finset.sum_singleton]
  abel

/-- What one holder does to the holdings. -/
lemma holdings_update (store' : Multiset α) (held : ι → Multiset α) (i : ι) (m : Multiset α) :
    holdings store' (Function.update held i m) + held i = store' + m + ∑ j, held j := by
  rw [holdings, add_assoc, sum_update_add]
  abel

/-- A holder moves things between the store and its hands, or drops them. -/
lemma holdings_le {store store' : Multiset α} {held : ι → Multiset α} {i : ι} {m : Multiset α}
    (h : store' + m ≤ store + held i) :
    holdings store' (Function.update held i m) ≤ holdings store held := by
  rw [← add_le_add_iff_right (held i), holdings_update]
  refine (add_le_add_left h _).trans (le_of_eq ?_)
  rw [holdings]
  abel

/-- A holder brings something new. -/
lemma holdings_cons {store store' : Multiset α} {held : ι → Multiset α} {i : ι} {m : Multiset α}
    {a : α} (h : store' + m = a ::ₘ (store + held i)) :
    holdings store' (Function.update held i m) = a ::ₘ holdings store held := by
  rw [← add_left_inj (held i), holdings_update, h, holdings, Multiset.cons_add, Multiset.cons_add]
  congr 1
  abel

/-! ## What is in hand -/

/-- Taking a thing out of a list of things in hand. -/
lemma cons_coe_erase [DecidableEq α] {a : α} {as : List α} (h : a ∈ as) :
    (a ::ₘ (as.erase a : List α) : Multiset α) = as := by
  rw [← Multiset.coe_erase]
  exact Multiset.cons_erase h

/-- Dropping a thing in hand. -/
lemma add_le_add_cons (store held : Multiset α) (a : α) : store + held ≤ store + a ::ₘ held :=
  add_le_add_right (Multiset.le_cons_self held a) store

/-! ## Things that are numbered as they are made -/

/-- If everything is older than the next number, and things are dropped or the one with the next
number is added, then nothing is there twice, and everything is older than the number after it. -/
lemma nodup_and_lt_of_numbered {all all' : Multiset ℕ} {next next' : ℕ} (hnodup : all.Nodup)
    (hold : ∀ a ∈ all, a < next)
    (h : (all' ≤ all ∧ next' = next) ∨ (all' = next ::ₘ all ∧ next' = next + 1)) :
    all'.Nodup ∧ ∀ a ∈ all', a < next' := by
  rcases h with ⟨hle, rfl⟩ | ⟨rfl, rfl⟩
  · exact ⟨Multiset.nodup_of_le hle hnodup, fun a ha => hold a (Multiset.mem_of_le hle ha)⟩
  · refine ⟨Multiset.nodup_cons.mpr ⟨fun hmem => lt_irrefl _ (hold _ hmem), hnodup⟩, fun a ha => ?_⟩
    rcases Multiset.mem_cons.mp ha with rfl | ha
    · exact Nat.lt_succ_self _
    · exact (hold a ha).trans (Nat.lt_succ_self _)

end Foundation
