import Mathlib.Tactic
import Mathlib.Data.List.Basic

/-!
# Histories of writes

A *write* gives a key a value, or takes its value away.  `valueAt` is what a map holds after a
history of writes: the value of the last write of exactly this key.

A store that keeps its values under *texts* of the keys holds the value of the last write of a key
with the same text (`storeAfter_text`).  `valueUnder_eq_valueAt_iff` says when this is the value
that the map holds.
-/

namespace Foundation

/-- A key gets a value, or loses the one that it has. -/
structure Write (κ ν : Type*) where
  key : κ
  value : Option ν

variable {κ ν ν' τ : Type*}

/-- The last write of a key with this property. -/
def lastWrite (p : κ → Bool) (ws : List (Write κ ν)) : Option (Write κ ν) :=
  (ws.filter fun w => p w.key).getLast?

section LastWrite

variable {p q : κ → Bool} {ws : List (Write κ ν)} {w : Write κ ν}

@[simp] lemma lastWrite_nil : lastWrite p ([] : List (Write κ ν)) = none := rfl

/-- One more write. -/
lemma lastWrite_concat (p : κ → Bool) (ws : List (Write κ ν)) (w : Write κ ν) :
    lastWrite p (ws ++ [w]) = if p w.key then some w else lastWrite p ws := by
  unfold lastWrite
  rw [List.filter_append]
  cases hp : p w.key <;> simp [hp]

/-- The last write is one of the writes, and its key has the property. -/
lemma mem_of_lastWrite (h : lastWrite p ws = some w) : w ∈ ws ∧ p w.key = true := by
  have hmem := List.mem_of_getLast? h
  rw [List.mem_filter] at hmem
  exact hmem

/-- The last write of a key with a property is the last one also among fewer keys. -/
lemma lastWrite_of_imp (hpq : ∀ k, p k = true → q k = true) (h : lastWrite q ws = some w)
    (hp : p w.key = true) : lastWrite p ws = some w := by
  induction ws using List.reverseRecOn with
  | nil => simp at h
  | append_singleton ws w' ih =>
    rw [lastWrite_concat] at h ⊢
    by_cases hq : q w'.key = true
    · rw [if_pos hq] at h
      obtain rfl := Option.some.inj h
      rw [if_pos hp]
    · rw [if_neg hq] at h
      rw [if_neg fun hp' => hq (hpq _ hp'), ih h]

/-- Without a write of a key with a property there is none among fewer keys. -/
lemma lastWrite_eq_none_of_imp (hpq : ∀ k, p k = true → q k = true)
    (h : lastWrite q ws = none) : lastWrite p ws = none := by
  unfold lastWrite at h ⊢
  rw [List.getLast?_eq_none_iff, List.filter_eq_nil_iff] at h ⊢
  exact fun w hw hp => h w hw (hpq _ hp)

end LastWrite

/-- The same write with another value. -/
def Write.map (f : ν → ν') (w : Write κ ν) : Write κ ν' :=
  ⟨w.key, w.value.map f⟩

/-- The values of writes do not matter for which is the last one. -/
lemma lastWrite_map (p : κ → Bool) (f : ν → ν') (ws : List (Write κ ν)) :
    lastWrite p (ws.map (Write.map f)) = (lastWrite p ws).map (Write.map f) := by
  have hkey : (fun w => p w.key) ∘ Write.map f = fun w : Write κ ν => p w.key := rfl
  unfold lastWrite
  rw [List.filter_map, hkey, List.getLast?_map]

/-! ## Maps and stores -/

section Store

variable [DecidableEq τ]

/-- What a map holds for a key after these writes. -/
def valueAt [DecidableEq κ] (ws : List (Write κ ν)) (k : κ) : Option ν :=
  (lastWrite (fun k' => k' = k) ws).bind Write.value

/-- What the map holds after one more write. -/
lemma valueAt_concat [DecidableEq κ] (ws : List (Write κ ν)) (w : Write κ ν) (k : κ) :
    valueAt (ws ++ [w]) k = if w.key = k then w.value else valueAt ws k := by
  rw [valueAt, lastWrite_concat]
  by_cases hkey : w.key = k
  · simp [hkey]
  · simp only [hkey, decide_false, Bool.false_eq_true, if_false]
    rfl

/-- Writes of other keys do not change what the map holds. -/
lemma valueAt_append_of_ne [DecidableEq κ] (ws : List (Write κ ν)) {ws' : List (Write κ ν)} {k : κ}
    (h : ∀ w ∈ ws', w.key ≠ k) : valueAt (ws ++ ws') k = valueAt ws k := by
  have hnone : (ws'.filter fun w => decide (w.key = k)) = [] := by
    simpa [List.filter_eq_nil_iff] using h
  rw [valueAt, lastWrite, List.filter_append, hnone, List.append_nil]
  rfl

/-- The value of the last write of a key with the same text. -/
def valueUnder (text : κ → τ) (ws : List (Write κ ν)) (k : κ) : Option ν :=
  (lastWrite (fun k' => text k' = text k) ws).bind Write.value

/-- The last write of a key with the same text was made for exactly this key, or it leaves what
the last one for this key leaves. -/
def OwnText [DecidableEq κ] (text : κ → τ) (ws : List (Write κ ν)) (k : κ) : Prop :=
  ∀ w, lastWrite (fun k' => text k' = text k) ws = some w → w.key = k ∨ w.value = valueAt ws k

/-- The store behind the texts holds what the map holds exactly if the key has its text to
itself. -/
theorem valueUnder_eq_valueAt_iff [DecidableEq κ] (text : κ → τ) (ws : List (Write κ ν)) (k : κ) :
    valueUnder text ws k = valueAt ws k ↔ OwnText text ws k := by
  have himp : ∀ k', decide (k' = k) = true → decide (text k' = text k) = true := by
    intro k' h
    rw [of_decide_eq_true h, decide_eq_true_eq]
  unfold OwnText valueUnder
  cases hlast : lastWrite (fun k' => text k' = text k) ws with
  | none =>
    have hnone : valueAt ws k = none := by
      rw [valueAt, lastWrite_eq_none_of_imp himp hlast, Option.bind_none]
    simp [hnone]
  | some w =>
    simp only [Option.some.injEq, forall_eq', Option.bind_some]
    constructor
    · exact .inr
    · rintro (hkey | hvalue)
      · have hown := lastWrite_of_imp himp hlast (decide_eq_true hkey)
        rw [valueAt, hown, Option.bind_some]
      · exact hvalue

lemma valueUnder_map (text : κ → τ) (f : ν → ν') (ws : List (Write κ ν)) (k : κ) :
    valueUnder text (ws.map (Write.map f)) k = (valueUnder text ws k).map f := by
  unfold valueUnder
  rw [lastWrite_map]
  cases lastWrite (fun k' => decide (text k' = text k)) ws <;> rfl

/-- What is held under a text was written. -/
lemma mem_of_valueUnder {text : κ → τ} {ws : List (Write κ ν)} {k : κ} {v : ν}
    (h : valueUnder text ws k = some v) : ∃ w ∈ ws, v ∈ w.value := by
  obtain ⟨w, hw, hvalue⟩ := Option.bind_eq_some_iff.mp h
  exact ⟨w, (mem_of_lastWrite hw).1, hvalue⟩

/-- What a store holds after these writes, if each writes under the text of its key. -/
def storeAfter (text : κ → τ) (s : τ → Option ν) (ws : List (Write κ ν)) : τ → Option ν :=
  ws.foldl (fun s w => Function.update s (text w.key) w.value) s

lemma storeAfter_append (text : κ → τ) (s : τ → Option ν) (ws ws' : List (Write κ ν)) :
    storeAfter text s (ws ++ ws') = storeAfter text (storeAfter text s ws) ws' :=
  List.foldl_append ..

/-- A store that was empty holds under the text of a key the value of the last write of a key with
this text. -/
theorem storeAfter_text (text : κ → τ) (ws : List (Write κ ν)) (k : κ) :
    storeAfter text (fun _ => none) ws (text k) = valueUnder text ws k := by
  unfold valueUnder
  induction ws using List.reverseRecOn with
  | nil => rfl
  | append_singleton ws w ih =>
    rw [storeAfter_append, lastWrite_concat]
    rw [storeAfter, List.foldl_cons, List.foldl_nil]
    by_cases htext : text w.key = text k
    · simp [htext]
    · rw [Function.update_of_ne (Ne.symm htext), if_neg (by simpa using htext), ih]

end Store

end Foundation
