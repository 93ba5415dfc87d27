import Mathlib.Tactic
import Mathlib.Data.List.Infix

/-!
# Walks of choices

A loop that chooses at each place what to take next, if anything, and goes on behind it until
nothing is chosen.  The places may come again, so that the loop may have no end; here it takes a
number of steps.

`run_eq_some` and `run_eq_none` say which walks the loop makes, and `IsWalk.isPrefix_of_run` says
that there are no others: every walk from the place where the loop begins is a first part of it.
-/

namespace Foundation

namespace Greedy

variable {σ α : Type*} (next : σ → Option α) (move : σ → α → σ)

/-- The place behind some elements. -/
def dest (s : σ) (xs : List α) : σ :=
  xs.foldl move s

/-- Each element is what is chosen at its place. -/
def IsWalk : σ → List α → Prop
  | _, [] => True
  | s, x :: xs => next s = some x ∧ IsWalk (move s x) xs

/-- The loop, `none` if it has not ended after so many steps. -/
def run : ℕ → σ → Option (List α)
  | 0, _ => none
  | fuel + 1, s =>
    match next s with
    | none => some []
    | some x => (run fuel (move s x)).map (x :: ·)

variable {next move}

@[simp] lemma isWalk_nil (s : σ) : IsWalk next move s [] := trivial

/-- A first and a second part of a walk. -/
lemma isWalk_append {s : σ} {xs ys : List α} : IsWalk next move s (xs ++ ys) ↔
    IsWalk next move s xs ∧ IsWalk next move (dest move s xs) ys := by
  induction xs generalizing s with
  | nil => exact ⟨fun h => ⟨trivial, h⟩, And.right⟩
  | cons x xs ih =>
    rw [List.cons_append, IsWalk, IsWalk, ih, and_assoc]
    rfl

/-- A walk and one more element. -/
lemma isWalk_concat {s : σ} {xs : List α} {x : α} : IsWalk next move s (xs ++ [x]) ↔
    IsWalk next move s xs ∧ next (dest move s xs) = some x := by
  rw [isWalk_append, IsWalk]
  exact and_congr_right fun _ => and_iff_left trivial

/-- A first part of a walk. -/
lemma IsWalk.of_isPrefix {s : σ} {xs ys : List α} (h : IsWalk next move s ys) (hpre : xs <+: ys) :
    IsWalk next move s xs := by
  obtain ⟨zs, rfl⟩ := hpre
  exact (isWalk_append.mp h).1

/-- What every choice keeps holds along a walk. -/
@[elab_as_elim]
lemma IsWalk.invariant {s : σ} {motive : List α → Prop} {xs : List α}
    (h : IsWalk next move s xs) (hnil : motive [])
    (hstep : ∀ xs x, motive xs → next (dest move s xs) = some x → motive (xs ++ [x])) :
    motive xs := by
  induction xs using List.reverseRecOn with
  | nil => exact hnil
  | append_singleton xs x ih =>
    obtain ⟨hxs, hx⟩ := isWalk_concat.mp h
    exact hstep xs x (ih hxs) hx

/-- The loop ends with a walk, where nothing is chosen. -/
lemma run_eq_some {fuel : ℕ} {s : σ} {xs : List α} (h : run next move fuel s = some xs) :
    IsWalk next move s xs ∧ next (dest move s xs) = none := by
  induction fuel generalizing s xs with
  | zero => cases h
  | succ fuel ih =>
    rw [run] at h
    cases hnext : next s with
    | none =>
      rw [hnext] at h
      obtain rfl := Option.some.inj h
      exact ⟨trivial, hnext⟩
    | some x =>
      rw [hnext] at h
      obtain ⟨rest, hrest, rfl⟩ := Option.map_eq_some_iff.mp h
      exact ⟨⟨hnext, (ih hrest).1⟩, (ih hrest).2⟩

/-- A loop that has not ended has walked as far as it has made steps. -/
lemma run_eq_none {fuel : ℕ} {s : σ} (h : run next move fuel s = none) :
    ∃ xs, xs.length = fuel ∧ IsWalk next move s xs := by
  induction fuel generalizing s with
  | zero => exact ⟨[], rfl, trivial⟩
  | succ fuel ih =>
    rw [run] at h
    cases hnext : next s with
    | none =>
      rw [hnext] at h
      cases h
    | some x =>
      rw [hnext] at h
      obtain ⟨rest, hlen, hrest⟩ := ih (Option.map_eq_none_iff.mp h)
      exact ⟨x :: rest, congrArg Nat.succ hlen, hnext, hrest⟩

/-- The loop ends if no walk is as long as it may make steps. -/
lemma exists_run {fuel : ℕ} {s : σ} (h : ∀ xs, IsWalk next move s xs → xs.length < fuel) :
    ∃ xs, run next move fuel s = some xs := by
  rw [← Option.isSome_iff_exists, ← Option.ne_none_iff_isSome]
  intro hnone
  obtain ⟨xs, hlen, hwalk⟩ := run_eq_none hnone
  exact absurd hlen (h xs hwalk).ne

/-- **There is one walk only.**  Every other one is a first part of it. -/
theorem IsWalk.isPrefix_of_run {s : σ} {xs : List α} (h : IsWalk next move s xs)
    {fuel : ℕ} {ys : List α} (hrun : run next move fuel s = some ys) : xs <+: ys := by
  induction xs generalizing s fuel ys with
  | nil => exact List.nil_prefix
  | cons x xs ih =>
    cases fuel with
    | zero => cases hrun
    | succ fuel =>
      rw [run, h.1] at hrun
      obtain ⟨rest, hrest, rfl⟩ := Option.map_eq_some_iff.mp hrun
      exact (List.prefix_cons_inj x).mpr (ih h.2 hrest)

/-- The number of steps does not matter. -/
lemma run_eq_run {s : σ} {fuel fuel' : ℕ} {xs ys : List α} (h : run next move fuel s = some xs)
    (h' : run next move fuel' s = some ys) : xs = ys := by
  have hxs := (run_eq_some h).1.isPrefix_of_run h'
  have hys := (run_eq_some h').1.isPrefix_of_run h
  exact hxs.eq_of_length_le hys.length_le

/-- Two loops do the same if they choose the same along the walks of the first. -/
lemma run_congr {next' : σ → Option α} {s : σ}
    (h : ∀ xs, IsWalk next move s xs → next (dest move s xs) = next' (dest move s xs))
    (fuel : ℕ) : run next move fuel s = run next' move fuel s := by
  induction fuel generalizing s with
  | zero => rfl
  | succ fuel ih =>
    have hfirst : next s = next' s := h [] trivial
    rw [run, run, ← hfirst]
    cases hnext : next s with
    | none => rfl
    | some x =>
      simp only
      rw [ih fun xs hxs => h (x :: xs) ⟨hnext, hxs⟩]

end Greedy

end Foundation
