import KacheDB.Foundation.Script
import Mathlib.Data.Stream.Init

/-!
# Layers of scripts

A handler may be built on another one.  There are two ways to do it, and both are compatible with
running scripts.

* The calls of one layer are scripts over the calls of the layer below: `Script.interpret` puts
  them in, and `Script.run_interpret` says that to run the result is to run the upper script
  against the handler that runs the scripts of its calls.
* The states of one layer stand for those of the other: `Handler.Simulates` says that related
  states answer a call alike and stay related, and `Handler.Simulates.run` carries this to whole
  scripts.  If the layer that is stood for has a choice at every call, `Handler.SimulatesSome.run`
  gives the choices for a whole script.
-/

namespace Foundation

variable {C : Type} {R : C → Type} {D : Type} {Q : D → Type} {E α σ τ : Type}

namespace Script

/-! ## Calls that are scripts -/

/-- Run a script to its end and give its outcome as a value. -/
def attempt : Script C R E α → Script C R E (Except E α)
  | .pure a => .pure (.ok a)
  | .raise e => .pure (.error e)
  | .call c k => .call c fun r => (k r).attempt

/-- Put a script in for every call. -/
def interpret (impl : (c : C) → Script D Q E (R c)) : Script C R E α → Script D Q E α
  | .pure a => .pure a
  | .raise e => .raise e
  | .call c k => (impl c).attempt.bind fun r => (k r).interpret impl

/-- An attempt never raises. -/
lemma run_attempt (handle : Handler C R E σ) (m : Script C R E α) (s : σ) :
    m.attempt.run handle s = (.ok (m.run handle s).1, (m.run handle s).2) := by
  induction m generalizing s with
  | pure a => rfl
  | raise e => rfl
  | call c k ih => exact ih _ _

/-- The handler that runs the scripts of the calls. -/
def implement (impl : (c : C) → Script D Q E (R c)) (handle : Handler D Q E σ) :
    Handler C R E σ :=
  fun c s => (impl c).run handle s

/-- Running a script with its calls put in is running it against the handler of these calls. -/
theorem run_interpret (impl : (c : C) → Script D Q E (R c)) (handle : Handler D Q E σ)
    (m : Script C R E α) (s : σ) :
    (m.interpret impl).run handle s = m.run (implement impl handle) s := by
  induction m generalizing s with
  | pure a => rfl
  | raise e => rfl
  | call c k ih =>
    rw [interpret, run_bind_of_ok (run_attempt handle (impl c) s), run_call]
    exact ih _ _

/-- Every script makes calls of some kind. -/
lemma calls_true (m : Script C R E α) : m.Calls fun _ => True := by
  induction m with
  | pure a => exact .pure a
  | raise e => exact .raise e
  | call c k ih => exact ⟨trivial, ih⟩

/-- Calls of one kind are calls of a wider kind. -/
lemma Calls.mono {P P' : C → Prop} {m : Script C R E α} (hm : m.Calls P)
    (himp : ∀ c, P c → P' c) : m.Calls P' := by
  induction m with
  | pure a => exact .pure a
  | raise e => exact .raise e
  | call c k ih => exact ⟨himp c hm.1, fun r => ih r (hm.2 r)⟩

/-- An attempt makes the same calls. -/
lemma Calls.attempt {P : C → Prop} {m : Script C R E α} (hm : m.Calls P) : m.attempt.Calls P := by
  induction m with
  | pure a => exact .pure _
  | raise e => exact .pure _
  | call c k ih => exact ⟨hm.1, fun r => ih r (hm.2 r)⟩

/-- What is caught makes the calls of the two parts. -/
lemma Calls.tryCatch {P : C → Prop} {m : Script C R E α} {h : E → Script C R E α} (hm : m.Calls P)
    (hh : ∀ e, (h e).Calls P) : (m.tryCatch h).Calls P := by
  induction m with
  | pure a => exact .pure a
  | raise e => exact hh e
  | call c k ih => exact ⟨hm.1, fun r => ih r (hm.2 r)⟩

/-- The calls of a script with its calls put in are those of the scripts put in. -/
lemma Calls.interpret {P : D → Prop} {impl : (c : C) → Script D Q E (R c)}
    (himpl : ∀ c, (impl c).Calls P) (m : Script C R E α) : (m.interpret impl).Calls P := by
  induction m with
  | pure a => exact .pure a
  | raise e => exact .raise e
  | call c k ih => exact (himpl c).attempt.bind ih

end Script

/-! ## Simulation -/

namespace Handler

/-- Related states answer the calls in `P` alike, and are related behind them. -/
def Simulates (P : C → Prop) (Rel : σ → τ → Prop) (handle : Handler C R E σ)
    (handle' : Handler C R E τ) : Prop :=
  ∀ c s t, P c → Rel s t → (handle c s).1 = (handle' c t).1 ∧ Rel (handle c s).2 (handle' c t).2

variable {P : C → Prop} {Rel : σ → τ → Prop} {handle : Handler C R E σ}
  {handle' : Handler C R E τ}

/-- **Simulation of whole scripts.**  A script whose calls are answered alike has the same outcome
against both handlers, and the states behind it are related. -/
theorem Simulates.run (h : Simulates P Rel handle handle') {m : Script C R E α} (hm : m.Calls P)
    {s : σ} {t : τ} (hrel : Rel s t) :
    (m.run handle s).1 = (m.run handle' t).1 ∧ Rel (m.run handle s).2 (m.run handle' t).2 := by
  induction m generalizing s t with
  | pure a => exact ⟨rfl, hrel⟩
  | raise e => exact ⟨rfl, hrel⟩
  | call c k ih =>
    obtain ⟨hres, hnext⟩ := h c s t hm.1 hrel
    rw [Script.run_call, Script.run_call, hres]
    exact ih _ (hm.2 _) hnext

/-! ### Choices -/

variable {X : Type}

/-- The handler that takes its choices, one for each call, from a stream. -/
def chosen (handle : X → Handler C R E τ) : Handler C R E (τ × Stream' X) :=
  fun c t => ((handle t.2.head c t.1).1, (handle t.2.head c t.1).2, t.2.tail)

/-- Related states answer the calls in `P` alike, and are related behind them, under some
choice. -/
def SimulatesSome (P : C → Prop) (Rel : σ → τ → Prop) (handle : Handler C R E σ)
    (handle' : X → Handler C R E τ) : Prop :=
  ∀ c s t, P c → Rel s t →
    ∃ x, (handle c s).1 = (handle' x c t).1 ∧ Rel (handle c s).2 (handle' x c t).2

/-- Handlers that note the calls note the same ones. -/
lemma SimulatesSome.traced {handle' : X → Handler C R E τ}
    (h : SimulatesSome P Rel handle handle') :
    SimulatesSome P (fun s t => Rel s.1 t.1 ∧ s.2 = t.2) (Script.traced handle)
      fun x => Script.traced (handle' x) := by
  rintro c ⟨s, calls⟩ ⟨t, calls'⟩ hc ⟨hrel, hcalls⟩
  obtain rfl : calls = calls' := hcalls
  obtain ⟨x, hres, hnext⟩ := h c s t hc hrel
  exact ⟨x, hres, hnext, rfl⟩

/-- **Simulation of whole scripts under some choices.** -/
theorem SimulatesSome.run [Inhabited X] {handle' : X → Handler C R E τ}
    (h : SimulatesSome P Rel handle handle') {m : Script C R E α} (hm : m.Calls P) {s : σ} {t : τ}
    (hrel : Rel s t) :
    ∃ xs, (m.run handle s).1 = (m.run (chosen handle') (t, xs)).1 ∧
      Rel (m.run handle s).2 (m.run (chosen handle') (t, xs)).2.1 := by
  induction m generalizing s t with
  | pure a => exact ⟨Stream'.const default, rfl, hrel⟩
  | raise e => exact ⟨Stream'.const default, rfl, hrel⟩
  | call c k ih =>
    obtain ⟨x, hres, hnext⟩ := h c s t hm.1 hrel
    obtain ⟨xs, hrest, hlast⟩ := ih (handle c s).1 (hm.2 _) hnext
    refine ⟨Stream'.cons x xs, ?_⟩
    rw [Script.run_call, Script.run_call, chosen, Stream'.head_cons, Stream'.tail_cons, ← hres]
    exact ⟨hrest, hlast⟩

end Handler

end Foundation
