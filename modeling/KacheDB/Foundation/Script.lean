import Mathlib.Tactic

/-!
# Scripts

A *script* is a program that makes calls and goes on with their outcomes.  `Script C R E α` is
the syntax of such programs: `C` is the type of calls, `R c` the type of the answers to the call
`c`, `E` the type of exceptions and `α` the type of results.  A call may raise instead of giving
an answer, and the script may catch what it raises.

A script is run against a *handler*, which answers one call after the other and has a state of
its own.  `Script.traced` is the handler that also notes the calls; two scripts that behave alike
under it make the same calls.
-/

namespace Foundation

/-- Programs that make calls. -/
inductive Script (C : Type) (R : C → Type) (E α : Type) : Type where
  /-- Return a value. -/
  | pure (a : α)
  /-- Raise an exception. -/
  | raise (e : E)
  /-- Make a call and go on with its outcome. -/
  | call (c : C) (k : Except E (R c) → Script C R E α)

/-- What answers the calls: the outcome of a call and the next state. -/
abbrev Handler (C : Type) (R : C → Type) (E σ : Type) : Type :=
  (c : C) → σ → Except E (R c) × σ

namespace Script

variable {C : Type} {R : C → Type} {E α β σ : Type}

/-- Run `m` and continue with `f` on its value. -/
def bind : Script C R E α → (α → Script C R E β) → Script C R E β
  | .pure a, f => f a
  | .raise e, _ => .raise e
  | .call c k, f => .call c fun r => (k r).bind f

instance : Monad (Script C R E) where
  pure := .pure
  bind := .bind

/-- Make a call; what it raises is raised. -/
def ask (c : C) : Script C R E (R c) :=
  .call c fun
    | .ok r => .pure r
    | .error e => .raise e

/-- A computation without calls. -/
def lift : Except E α → Script C R E α
  | .ok a => .pure a
  | .error e => .raise e

/-- `try: m` and, for an exception, `h`. -/
def tryCatch : Script C R E α → (E → Script C R E α) → Script C R E α
  | .pure a, _ => .pure a
  | .raise e, h => h e
  | .call c k, h => .call c fun r => (k r).tryCatch h

/-- Apply a function to the result. -/
def map (f : α → β) : Script C R E α → Script C R E β
  | .pure a => .pure (f a)
  | .raise e => .raise e
  | .call c k => .call c fun r => (k r).map f

/-- Run a script against a handler. -/
def run (handle : Handler C R E σ) : Script C R E α → σ → Except E α × σ
  | .pure a, s => (.ok a, s)
  | .raise e, s => (.error e, s)
  | .call c k, s => (k (handle c s).1).run handle (handle c s).2

/-- The handler that notes the calls. -/
def traced (handle : Handler C R E σ) : Handler C R E (σ × List C) :=
  fun c s => ((handle c s.1).1, (handle c s.1).2, s.2 ++ [c])

variable {handle : Handler C R E σ} {s s' : σ}

/-- The monad's bind is `Script.bind`. -/
lemma bind_eq (m : Script C R E α) (f : α → Script C R E β) : m >>= f = m.bind f := rfl

/-- The monad's return is `Script.pure`. -/
lemma pure_eq (a : α) : (Pure.pure a : Script C R E α) = .pure a := rfl

@[simp] lemma run_pure (a : α) : (Script.pure a : Script C R E α).run handle s = (.ok a, s) := rfl

@[simp] lemma run_raise (e : E) :
    (Script.raise e : Script C R E α).run handle s = (.error e, s) := rfl

@[simp] lemma run_call (c : C) (k : Except E (R c) → Script C R E α) :
    (Script.call c k).run handle s = (k (handle c s).1).run handle (handle c s).2 := rfl

@[simp] lemma run_lift (r : Except E α) :
    (lift r : Script C R E α).run handle s = (r, s) := by
  cases r <;> rfl

/-- A call on its own has the outcome that the handler gives. -/
@[simp] lemma run_ask (c : C) : (ask c : Script C R E (R c)).run handle s = handle c s := by
  rw [ask, run_call]
  rcases handle c s with ⟨_ | _, _⟩ <;> rfl

/-- Running a sequence is running its first part and, if that returns, the second. -/
lemma run_bind (m : Script C R E α) (f : α → Script C R E β) (s : σ) :
    (m.bind f).run handle s =
      match m.run handle s with
      | (.ok a, s') => (f a).run handle s'
      | (.error e, s') => (.error e, s') := by
  induction m generalizing s with
  | pure a => rfl
  | raise e => rfl
  | call c k ih => exact ih _ _

/-- A sequence whose first part returns goes on with the second part. -/
lemma run_bind_of_ok {m : Script C R E α} {f : α → Script C R E β} {a : α}
    (h : m.run handle s = (.ok a, s')) : (m.bind f).run handle s = (f a).run handle s' := by
  rw [run_bind, h]

/-- What is caught goes on with the handler of the exception. -/
lemma run_tryCatch (m : Script C R E α) (h : E → Script C R E α) (s : σ) :
    (m.tryCatch h).run handle s =
      match m.run handle s with
      | (.ok a, s') => (.ok a, s')
      | (.error e, s') => (h e).run handle s' := by
  induction m generalizing s with
  | pure a => rfl
  | raise e => rfl
  | call c k ih => exact ih _ _

/-- Running a script whose result is changed. -/
lemma run_map (f : α → β) (m : Script C R E α) (s : σ) :
    (m.map f).run handle s = ((m.run handle s).1.map f, (m.run handle s).2) := by
  induction m generalizing s with
  | pure a => rfl
  | raise e => rfl
  | call c k ih => exact ih _ _

/-- Two changes of the result are one. -/
lemma map_map {γ : Type} (f : α → β) (g : β → γ) (m : Script C R E α) :
    (m.map f).map g = m.map fun a => g (f a) := by
  induction m with
  | pure a => rfl
  | raise e => rfl
  | call c k ih =>
    simp only [map]
    congr 1
    funext r
    exact ih r

/-- To note the calls changes neither the result nor the states. -/
lemma run_traced (m : Script C R E α) (s : σ) (calls : List C) :
    (m.run (traced handle) (s, calls)).1 = (m.run handle s).1 ∧
      (m.run (traced handle) (s, calls)).2.1 = (m.run handle s).2 := by
  induction m generalizing s calls with
  | pure a => exact ⟨rfl, rfl⟩
  | raise e => exact ⟨rfl, rfl⟩
  | call c k ih => exact ih _ _ _

/-- A change of the result is a change at the end of a sequence. -/
lemma map_bind (f : β → α) (m : Script C R E σ) (g : σ → Script C R E β) :
    (m.bind g).map f = m.bind fun a => (g a).map f := by
  induction m with
  | pure a => rfl
  | raise e => rfl
  | call c k ih =>
    simp only [bind, map]
    congr 1
    funext r
    exact ih r

/-- A change of the result before the next part. -/
lemma bind_map (f : α → β) (m : Script C R E α) (g : β → Script C R E σ) :
    (m.map f).bind g = m.bind fun a => g (f a) := by
  induction m with
  | pure a => rfl
  | raise e => rfl
  | call c k ih =>
    simp only [bind, map]
    congr 1
    funext r
    exact ih r

/-! ## The calls of a script -/

/-- Every call that the script may make satisfies `P`. -/
def Calls (P : C → Prop) : Script C R E α → Prop
  | .pure _ => True
  | .raise _ => True
  | .call c k => P c ∧ ∀ r, (k r).Calls P

namespace Calls

variable {P : C → Prop}

@[simp] lemma pure (a : α) : (Script.pure a : Script C R E α).Calls P := trivial

@[simp] lemma raise (e : E) : (Script.raise e : Script C R E α).Calls P := trivial

lemma ask {c : C} (h : P c) : (Script.ask c : Script C R E (R c)).Calls P := by
  refine ⟨h, fun r => ?_⟩
  cases r with
  | ok a => exact pure a
  | error e => exact raise e

lemma lift (r : Except E α) : (Script.lift r : Script C R E α).Calls P := by
  cases r with
  | ok a => exact pure a
  | error e => exact raise e

/-- A sequence makes the calls of its parts. -/
lemma bind {m : Script C R E α} {f : α → Script C R E β} (hm : m.Calls P)
    (hf : ∀ a, (f a).Calls P) : (m.bind f).Calls P := by
  induction m with
  | pure a => exact hf a
  | raise e => exact raise e
  | call c k ih => exact ⟨hm.1, fun r => ih r (hm.2 r)⟩

lemma map (f : α → β) {m : Script C R E α} (hm : m.Calls P) : (m.map f).Calls P := by
  induction m with
  | pure a => exact pure (f a)
  | raise e => exact raise e
  | call c k ih => exact ⟨hm.1, fun r => ih r (hm.2 r)⟩

/-- What each of these calls keeps, the script keeps. -/
theorem run_invariant {Inv : σ → Prop} (hstep : ∀ c s, P c → Inv s → Inv (handle c s).2)
    {m : Script C R E α} (hm : m.Calls P) (hs : Inv s) : Inv (m.run handle s).2 := by
  induction m generalizing s with
  | pure a => exact hs
  | raise e => exact hs
  | call c k ih => exact ih _ (hm.2 _) (hstep c s hm.1 hs)

end Calls

end Script

end Foundation
