import Mathlib.Tactic
import Mathlib.Data.List.Infix

/-!
# Runs of a state machine

A deterministic state machine is a step function `σ → α → σ`; a run is a list of inputs, and
the states of a run are the states after its prefixes.  `Guarded step guard s inputs` says that
every step of the run from `s` meets the condition `guard`, which looks at the state before the
step and at its input.

* `invariant_of_guarded`: what guarded steps preserve holds in every state of a guarded run.
* `guarded_iff_invariant`: if exactly the guarded steps preserve it, then it holds in every
  state of a run exactly when the run is guarded.
* `guarded_iff_of_breaks`: the same of something that the invariant implies and every other step
  breaks.
-/

namespace Foundation

variable {σ α : Type*} (step : σ → α → σ)

/-- Every step of the run meets the condition. -/
def Guarded (guard : σ → α → Prop) : σ → List α → Prop
  | _, [] => True
  | s, a :: as => guard s a ∧ Guarded guard (step s a) as

variable {step} {guard : σ → α → Prop} {Inv : σ → Prop}

/-- The states of a run are its first state and the states of the run after the first step. -/
lemma forall_prefix_cons_iff (s : σ) (a : α) (as : List α) :
    (∀ pre, pre <+: a :: as → Inv (pre.foldl step s)) ↔
      Inv s ∧ ∀ pre, pre <+: as → Inv (pre.foldl step (step s a)) := by
  constructor
  · intro h
    refine ⟨h [] List.nil_prefix, fun pre hpre => ?_⟩
    exact h (a :: pre) ((List.prefix_cons_inj a).mpr hpre)
  · rintro ⟨hs, h⟩ pre hpre
    rcases pre with _ | ⟨b, pre⟩
    · exact hs
    · obtain ⟨rfl, hpre'⟩ := List.cons_prefix_cons.mp hpre
      exact h pre hpre'

/-- What guarded steps preserve holds in every state of a guarded run. -/
theorem invariant_of_guarded (hstep : ∀ s a, Inv s → guard s a → Inv (step s a)) {s : σ}
    (hs : Inv s) {inputs : List α} (h : Guarded step guard s inputs) :
    ∀ pre, pre <+: inputs → Inv (pre.foldl step s) := by
  induction inputs generalizing s with
  | nil =>
    intro pre hpre
    rw [List.prefix_nil.mp hpre]
    exact hs
  | cons a as ih =>
    rw [forall_prefix_cons_iff]
    exact ⟨hs, ih (hstep s a hs h.1) h.2⟩

/-- If exactly the guarded steps preserve the invariant, then it holds in every state of a run
exactly when the run is guarded. -/
theorem guarded_iff_invariant (hstep : ∀ s a, Inv s → (Inv (step s a) ↔ guard s a)) {s : σ}
    (hs : Inv s) (inputs : List α) :
    Guarded step guard s inputs ↔ ∀ pre, pre <+: inputs → Inv (pre.foldl step s) := by
  refine ⟨invariant_of_guarded (fun s a h => (hstep s a h).mpr) hs, ?_⟩
  induction inputs generalizing s with
  | nil => exact fun _ => trivial
  | cons a as ih =>
    intro h
    obtain ⟨-, htail⟩ := (forall_prefix_cons_iff s a as).mp h
    have hnext : Inv (step s a) := htail [] List.nil_prefix
    exact ⟨(hstep s a hs).mp hnext, ih hnext htail⟩

/-- If guarded steps keep the invariant, behind which something holds that every other step from
it breaks, then this holds in every state of a run exactly when the run is guarded. -/
theorem guarded_iff_of_breaks {P : σ → Prop} (hP : ∀ s, Inv s → P s)
    (hkeep : ∀ s a, Inv s → guard s a → Inv (step s a))
    (hbreak : ∀ s a, Inv s → ¬ guard s a → ¬ P (step s a)) {s : σ} (hs : Inv s)
    (inputs : List α) :
    Guarded step guard s inputs ↔ ∀ pre, pre <+: inputs → P (pre.foldl step s) := by
  refine ⟨fun h pre hpre => hP _ (invariant_of_guarded hkeep hs h pre hpre), ?_⟩
  induction inputs generalizing s with
  | nil => exact fun _ => trivial
  | cons a as ih =>
    intro h
    obtain ⟨-, htail⟩ := (forall_prefix_cons_iff s a as).mp h
    have hguard : guard s a := by
      by_contra hnot
      exact hbreak s a hs hnot (htail [] List.nil_prefix)
    exact ⟨hguard, ih (hkeep s a hs hguard) htail⟩

/-- What every step of a run meets is met by the step behind each first part of the run. -/
lemma guarded_iff_forall_step (s : σ) (inputs : List α) :
    Guarded step guard s inputs ↔
      ∀ pre a, pre ++ [a] <+: inputs → guard (pre.foldl step s) a := by
  induction inputs generalizing s with
  | nil => simp [Guarded]
  | cons b as ih =>
    rw [Guarded, ih]
    constructor
    · rintro ⟨hb, hrest⟩ pre a hpre
      rcases pre with _ | ⟨c, pre⟩
      · obtain rfl := (List.cons_prefix_cons.mp hpre).1
        exact hb
      · obtain ⟨rfl, hpre'⟩ := List.cons_prefix_cons.mp hpre
        exact hrest pre a hpre'
    · intro h
      refine ⟨h [] b ((List.prefix_cons_inj b).mpr List.nil_prefix), fun pre a hpre => ?_⟩
      exact h (b :: pre) a ((List.prefix_cons_inj b).mpr hpre)

/-- Two conditions that agree where an invariant holds, which steps that meet them preserve, are
met by the same runs. -/
lemma guarded_congr {guard' : σ → α → Prop} (hiff : ∀ s a, Inv s → (guard s a ↔ guard' s a))
    (hstep : ∀ s a, Inv s → guard s a → Inv (step s a)) {s : σ} (hs : Inv s)
    (inputs : List α) : Guarded step guard s inputs ↔ Guarded step guard' s inputs := by
  induction inputs generalizing s with
  | nil => exact Iff.rfl
  | cons a as ih =>
    rw [Guarded, Guarded, hiff s a hs]
    exact and_congr_right fun hguard => ih (hstep s a hs ((hiff s a hs).mpr hguard))

/-- A condition on the inputs only is one on each of them. -/
lemma guarded_const_iff {p : α → Prop} (s : σ) (inputs : List α) :
    Guarded step (fun _ => p) s inputs ↔ ∀ a ∈ inputs, p a := by
  induction inputs generalizing s with
  | nil => simp [Guarded]
  | cons a as ih => simp [Guarded, ih]

end Foundation
