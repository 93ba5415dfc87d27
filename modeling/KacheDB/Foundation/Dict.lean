import Mathlib.Tactic
import Mathlib.Data.List.Nodup

/-!
# Dictionaries

A Python dictionary: items with different keys, in the order in which the keys were first set.
Setting a key that is there replaces its value where it stands.
-/

namespace Foundation

/-- A dictionary. -/
structure Dict (κ α : Type*) where
  /-- The items, oldest key first. -/
  items : List (κ × α)
  nodup : (items.map Prod.fst).Nodup

namespace Dict

variable {κ α : Type*} [DecidableEq κ]

/-- The empty dictionary. -/
def empty : Dict κ α :=
  ⟨[], List.nodup_nil⟩

/-- `d.get(k)`. -/
def get (d : Dict κ α) (k : κ) : Option α :=
  (d.items.find? fun item => item.1 = k).map Prod.snd

/-- The items after `d[k] = v`. -/
def setItems (k : κ) (v : α) : List (κ × α) → List (κ × α)
  | [] => [(k, v)]
  | item :: rest => if item.1 = k then (k, v) :: rest else item :: setItems k v rest

variable {k : κ} {v : α}

/-- Setting a key changes the items with this key only. -/
lemma mem_setItems {items : List (κ × α)} (h : (items.map Prod.fst).Nodup) {item : κ × α} :
    item ∈ setItems k v items ↔ item = (k, v) ∨ item ∈ items ∧ item.1 ≠ k := by
  induction items with
  | nil => simp [setItems]
  | cons first rest ih =>
    rw [List.map_cons, List.nodup_cons] at h
    unfold setItems
    split_ifs with hk
    · have hrest : ∀ item ∈ rest, item.1 ≠ k := by
        rintro item hitem rfl
        exact h.1 (hk ▸ List.mem_map_of_mem hitem)
      simp only [List.mem_cons]
      constructor
      · exact fun hmem => hmem.imp_right fun hr => ⟨.inr hr, hrest item hr⟩
      · rintro (rfl | ⟨rfl | hr, hne⟩)
        · exact .inl rfl
        · exact absurd hk hne
        · exact .inr hr
    · rw [List.mem_cons, ih h.2, List.mem_cons]
      constructor
      · rintro (rfl | rfl | ⟨hr, hne⟩)
        · exact .inr ⟨.inl rfl, hk⟩
        · exact .inl rfl
        · exact .inr ⟨.inr hr, hne⟩
      · rintro (rfl | ⟨rfl | hr, hne⟩)
        · exact .inr (.inl rfl)
        · exact .inl rfl
        · exact .inr (.inr ⟨hr, hne⟩)

/-- At most one item is added. -/
lemma length_setItems_le (k : κ) (v : α) (items : List (κ × α)) :
    (setItems k v items).length ≤ items.length + 1 := by
  induction items with
  | nil => simp [setItems]
  | cons first rest ih =>
    unfold setItems
    split_ifs
    · simp
    · simpa using ih

/-- A key that is there stays where it is. -/
lemma map_fst_setItems_of_mem {items : List (κ × α)} (h : k ∈ items.map Prod.fst) :
    (setItems k v items).map Prod.fst = items.map Prod.fst := by
  induction items with
  | nil => cases h
  | cons first rest ih =>
    unfold setItems
    split_ifs with hk
    · rw [List.map_cons, List.map_cons, hk]
    · rcases List.mem_cons.mp h with rfl | hmem
      · exact absurd rfl hk
      · rw [List.map_cons, ih hmem, List.map_cons]

/-- A new key goes to the end. -/
lemma map_fst_setItems_of_notMem {items : List (κ × α)} (h : k ∉ items.map Prod.fst) :
    (setItems k v items).map Prod.fst = items.map Prod.fst ++ [k] := by
  induction items with
  | nil => rfl
  | cons first rest ih =>
    rw [List.map_cons, List.mem_cons, not_or] at h
    rw [setItems, if_neg (Ne.symm h.1), List.map_cons, ih h.2, List.map_cons, List.cons_append]

/-- The keys stay different. -/
lemma nodup_setItems {items : List (κ × α)} (h : (items.map Prod.fst).Nodup) :
    ((setItems k v items).map Prod.fst).Nodup := by
  induction items with
  | nil => simp [setItems]
  | cons first rest ih =>
    rw [List.map_cons, List.nodup_cons] at h
    unfold setItems
    split_ifs with hk
    · rw [List.map_cons, List.nodup_cons, ← hk]
      exact h
    · rw [List.map_cons, List.nodup_cons]
      refine ⟨fun hmem => ?_, ih h.2⟩
      obtain ⟨item, hitem, heq⟩ := List.mem_map.mp hmem
      rcases (mem_setItems h.2).mp hitem with rfl | ⟨hr, -⟩
      · exact hk heq.symm
      · exact h.1 (heq ▸ List.mem_map_of_mem hr)

/-- `d[k] = v`. -/
def set (d : Dict κ α) (k : κ) (v : α) : Dict κ α :=
  ⟨setItems k v d.items, nodup_setItems d.nodup⟩

/-- A key has the value of its item. -/
lemma get_eq_some_iff {d : Dict κ α} : d.get k = some v ↔ (k, v) ∈ d.items := by
  unfold get
  constructor
  · intro h
    obtain ⟨item, hfind, rfl⟩ := Option.map_eq_some_iff.mp h
    have hkey : item.1 = k := by simpa using List.find?_some hfind
    rw [← hkey]
    exact List.mem_of_find?_eq_some hfind
  · intro h
    cases hfind : d.items.find? fun item => item.1 = k with
    | none =>
      have hnone := List.find?_eq_none.mp hfind (k, v) h
      simp at hnone
    | some item =>
      have hkey : item.1 = k := by simpa using List.find?_some hfind
      have heq := List.inj_on_of_nodup_map d.nodup (List.mem_of_find?_eq_some hfind) h hkey
      rw [heq]
      rfl

@[simp] lemma get_empty (k : κ) : (empty : Dict κ α).get k = none := rfl

/-- What was set is there. -/
@[simp] lemma get_set_self (d : Dict κ α) (k : κ) (v : α) : (d.set k v).get k = some v :=
  get_eq_some_iff.mpr ((mem_setItems d.nodup).mpr (.inl rfl))

/-- The other keys keep their values. -/
lemma get_set_of_ne (d : Dict κ α) {k k' : κ} (h : k' ≠ k) (v : α) :
    (d.set k v).get k' = d.get k' := by
  apply Option.ext
  intro v'
  rw [get_eq_some_iff, get_eq_some_iff, set, mem_setItems d.nodup]
  constructor
  · rintro (heq | hmem)
    · exact absurd (congrArg Prod.fst heq) h
    · exact hmem.1
  · exact fun hmem => .inr ⟨hmem, h⟩

end Dict

end Foundation
