import KacheDB.Foundation.Runs
import KacheDB.Semantic.Server

/-!
# Deleting from a semantic cache

`delete` takes the item of a prompt out of the index and leaves its exact copy where it is.  The
copy is found by the next `get` unless a call of `set` with another prompt has replaced it
already, one that differs in the white space at its ends (`delete_takesEffect_iff`).
-/

namespace KacheDB

open Foundation Backend

variable {F : Type}

/-- A result of `get` was read from what the call `r` of `set` had written: its exact copy, its
item, or its exact copy as the parent of an item. -/
def ReadFrom (c : SemanticCache F) (s : Server) (q : GetArgs F) (result : SearchResult F)
    (r : SetArgs) : Prop :=
  (result.isExact = true ∧ ∃ stored, s.kv (c.docKey (strip q.prompt)) = some stored ∧
      stored.origin = some r) ∨
    (result.isExact = false ∧ ∃ item, s.index c.indexName result.key = some item ∧
      item.origin = some r) ∨
    (result.isExact = false ∧ q.resolveParent = true ∧ ∃ key stored,
      result.parentKey = some key ∧ s.kv key = some stored ∧ stored.origin = some r)

/-- After `delete(p)`, as long as no prompt is set that differs from `p` in white space at most,
no result is read from what a call `set(p, …)` has written. -/
def DeleteTakesEffect (b : Backend F) (floats : Floats F) (c : SemanticCache F) (s : Server)
    (p : String) : Prop :=
  ∀ later : List CacheOp, (∀ r, .set r ∈ later → strip r.prompt ≠ strip p) →
    ∀ (q : GetArgs F) (result : SearchResult F),
      ((c.get floats q).run (b.handle none) (b.runOps c later (b.step c s (.delete p)))).1 =
        .ok (some result) →
      ∀ r, ReadFrom c (b.runOps c later (b.step c s (.delete p))) q result r → r.prompt ≠ p

/-- Nothing on the server was written by a call `set(p, …)`. -/
def FreeOf (c : SemanticCache F) (p : String) (s : Server) : Prop :=
  (∀ key stored r, s.kv key = some stored → stored.origin = some r → r.prompt ≠ p) ∧
    ∀ id item r, s.index c.indexName id = some item → item.origin = some r → r.prompt ≠ p

/-- What a call of `set` has written is under its own keys. -/
def Traceable (c : SemanticCache F) (s : Server) : Prop :=
  (∀ key stored r, s.kv key = some stored → stored.origin = some r →
      key = c.docKey (strip r.prompt)) ∧
    ∀ id item r, s.index c.indexName id = some item → item.origin = some r → id = r.prompt

variable {b : Backend F} {floats : Floats F} {c : SemanticCache F} {p : String}

/-- The values and the items after one call: they were there before, or the call wrote them. -/
lemma step_cases (s : Server) (op : CacheOp) :
    (∀ key stored, (b.step c s op).kv key = some stored → s.kv key = some stored ∨
        ∃ r, op = .set r ∧ key = c.docKey (strip r.prompt) ∧ stored.origin = some r) ∧
      ∀ id item, (b.step c s op).index c.indexName id = some item →
        (s.index c.indexName id = some item ∧ op ≠ .delete id) ∨
          ∃ r, op = .set r ∧ id = r.prompt ∧ item.origin = some r := by
  cases op with
  | delete prompt =>
    rw [step_delete]
    refine ⟨fun key stored hkv => .inl hkv, fun id item hitem => ?_⟩
    rw [Server.index_setItem_self, Function.update_apply] at hitem
    split_ifs at hitem with hid
    exact .inl ⟨hitem, fun h => hid (CacheOp.delete.inj h).symm⟩
  | set r =>
    rw [step_set]
    constructor
    · intro key stored hkv
      rw [kv_withItem] at hkv
      unfold withCopy at hkv
      split_ifs at hkv with hcopy
      · rw [Server.kv_setValue, Function.update_apply] at hkv
        split_ifs at hkv with hkey
        · obtain rfl := Option.some.inj hkv
          exact .inr ⟨r, rfl, hkey, rfl⟩
        · exact .inl hkv
      · exact .inl hkv
    · intro id item hitem
      have hindex : (withCopy c s r).index = s.index := by
        unfold withCopy
        split_ifs <;> rfl
      unfold withItem at hitem
      split at hitem
      · rw [Server.index_setItem_self, Function.update_apply, hindex] at hitem
        split_ifs at hitem with hid
        · obtain rfl := Option.some.inj hitem
          exact .inr ⟨r, rfl, hid, rfl⟩
        · exact .inl ⟨hitem, by simp⟩
      · rw [hindex] at hitem
        exact .inl ⟨hitem, by simp⟩

/-- The step lemma of `Traceable`. -/
lemma Traceable.step {s : Server} (h : Traceable c s) (op : CacheOp) :
    Traceable c (b.step c s op) := by
  obtain ⟨hkv, hindex⟩ := step_cases (b := b) (c := c) s op
  constructor
  · intro key stored r hstored horigin
    rcases hkv key stored hstored with hold | ⟨r', -, hkey, hr'⟩
    · exact h.1 key stored r hold horigin
    · rw [hr'] at horigin
      obtain rfl := Option.some.inj horigin
      exact hkey
  · intro id item r hitem horigin
    rcases hindex id item hitem with ⟨hold, -⟩ | ⟨r', -, hid, hr'⟩
    · exact h.2 id item r hold horigin
    · rw [hr'] at horigin
      obtain rfl := Option.some.inj horigin
      exact hid

/-- The run lemma of `Traceable`. -/
lemma traceable_runOps (foreign : String → Option Bytes) (ops : List CacheOp) :
    Traceable c (b.runOps c ops (.start foreign)) := by
  induction ops using List.reverseRecOn with
  | nil =>
    constructor
    · intro key stored r hstored horigin
      obtain ⟨value, -, rfl⟩ := Option.map_eq_some_iff.mp hstored
      cases horigin
    · intro id item r hitem
      cases hitem
  | append_singleton ops op ih =>
    rw [runOps, List.foldl_concat]
    exact ih.step op

/-- The step lemma of `FreeOf`: another prompt is set, or any prompt is deleted. -/
lemma FreeOf.step {s : Server} (h : FreeOf c p s) {op : CacheOp}
    (hop : ∀ r, op = .set r → strip r.prompt ≠ strip p) : FreeOf c p (b.step c s op) := by
  obtain ⟨hkv, hindex⟩ := step_cases (b := b) (c := c) s op
  have hnew {r r' : SetArgs} (hset : op = .set r') (heq : some r' = some r) : r.prompt ≠ p := by
    obtain rfl := Option.some.inj heq
    exact fun hp => hop r' hset (hp ▸ rfl)
  constructor
  · intro key stored r hstored horigin
    rcases hkv key stored hstored with hold | ⟨r', hset, -, hr'⟩
    · exact h.1 key stored r hold horigin
    · exact hnew hset (hr'.symm.trans horigin)
  · intro id item r hitem horigin
    rcases hindex id item hitem with ⟨hold, -⟩ | ⟨r', hset, -, hr'⟩
    · exact h.2 id item r hold horigin
    · exact hnew hset (hr'.symm.trans horigin)

/-- The run lemma of `FreeOf`. -/
lemma FreeOf.runOps {s : Server} (h : FreeOf c p s) {later : List CacheOp}
    (hlater : ∀ r, .set r ∈ later → strip r.prompt ≠ strip p) :
    FreeOf c p (b.runOps c later s) := by
  induction later using List.reverseRecOn with
  | nil => exact h
  | append_singleton later op ih =>
    rw [Backend.runOps, List.foldl_concat]
    refine (ih fun r hr => hlater r (List.mem_append_left _ hr)).step ?_
    rintro r rfl
    exact hlater r (by simp)

/-- What is read was written by another call. -/
lemma FreeOf.readFrom {s : Server} (h : FreeOf c p s) {q : GetArgs F} {result : SearchResult F}
    {r : SetArgs} (hread : ReadFrom c s q result r) : r.prompt ≠ p := by
  rcases hread with ⟨-, stored, hstored, hr⟩ | ⟨-, item, hitem, hr⟩ |
    ⟨-, -, key, stored, -, hstored, hr⟩
  · exact h.1 _ _ _ hstored hr
  · exact h.2 _ _ _ hitem hr
  · exact h.1 _ _ _ hstored hr

section Deleted

variable {foreign : String → Option Bytes} {ops : List CacheOp}

/-- A copy is made with a workspace only. -/
lemma workspace_of_lastCopy {x : String} {r : SetArgs} (h : lastCopy c ops x = some r) :
    (c.workspace != "") = true := by
  obtain ⟨op, -, hop⟩ := List.mem_filterMap.mp (List.mem_of_getLast? h)
  cases op with
  | delete prompt => cases hop
  | set r' =>
    rw [copyOf, Option.ite_none_right_eq_some] at hop
    exact (Bool.and_eq_true_iff.mp hop.1.1).2

/-- A copy of a prompt is found after the prompt has been deleted. -/
lemma run_get_deleted {r : SetArgs} (hlast : lastCopy c ops (strip r.prompt) = some r) :
    ((c.get floats { prompt := r.prompt }).run (b.handle none)
        (b.step c (b.runOps c ops (.start foreign)) (.delete r.prompt))).1 = .ok (some
          { key := strip r.prompt
            similarity := floats.one
            value := r.response
            isExact := true }) := by
  have hdoc := kv_runOps_docKey (b := b) (c := c) (.start foreign) ops (strip r.prompt)
  rw [hlast] at hdoc
  have htext : (b.step c (b.runOps c ops (.start foreign)) (.delete r.prompt)).text
      (c.docKey (strip r.prompt)) = some r.response := by
    rw [step_delete, Server.text, Server.kv_setItem, hdoc]
    exact decodeUtf8_encodeUtf8 _
  rw [run_get]
  simp only [lookup, exactText, workspace_of_lastCopy hlast, Bool.and_self, if_true, htext]

/-- If no copy written for a prompt is left, then nothing is when the prompt has been deleted. -/
lemma freeOf_deleted (hcopy : ∀ r, lastCopy c ops (strip p) = some r → r.prompt ≠ p) :
    FreeOf c p (b.step c (b.runOps c ops (.start foreign)) (.delete p)) := by
  obtain ⟨hkv, hindex⟩ := step_cases (b := b) (c := c) (b.runOps c ops (.start foreign))
    (.delete p)
  have htrace := traceable_runOps (b := b) (c := c) foreign ops
  constructor
  · rintro key stored r hstored horigin rfl
    rcases hkv key stored hstored with hold | ⟨r', hset, -⟩
    · -- the last copy under the key of the prompt
      obtain rfl := htrace.1 key stored r hold horigin
      rw [kv_runOps_docKey] at hold
      cases hlast : lastCopy c ops (strip r.prompt) with
      | none =>
        rw [hlast] at hold
        obtain ⟨value, -, rfl⟩ := Option.map_eq_some_iff.mp hold
        cases horigin
      | some r' =>
        rw [hlast] at hold
        obtain rfl := Option.some.inj hold
        obtain rfl := Option.some.inj horigin
        exact hcopy r' hlast rfl
    · cases hset
  · rintro id item r hitem horigin rfl
    rcases hindex id item hitem with ⟨hold, hne⟩ | ⟨r', hset, -⟩
    · obtain rfl := htrace.2 id item r hold horigin
      exact hne rfl
    · cases hset

end Deleted

/-- **A deleted prompt is gone exactly if no exact copy of it is left.** -/
theorem delete_takesEffect_iff (b : Backend F) (floats : Floats F) (c : SemanticCache F)
    (foreign : String → Option Bytes) (ops : List CacheOp) (p : String) :
    DeleteTakesEffect b floats c (b.runOps c ops (.start foreign)) p ↔
      ∀ r, lastCopy c ops (strip p) = some r → r.prompt ≠ p := by
  constructor
  · rintro heffect r hlast rfl
    have hdoc := kv_runOps_docKey (b := b) (c := c) (.start foreign) ops (strip r.prompt)
    rw [hlast] at hdoc
    exact heffect [] (by simp) _ _ (run_get_deleted hlast) r (.inl ⟨rfl, _, hdoc, rfl⟩) rfl
  · intro hcopy later hlater q result _ r hread
    apply FreeOf.readFrom _ hread
    exact (freeOf_deleted hcopy).runOps hlater

/-! ## A copy that is left -/

/-- A server whose search finds nothing, for texts that all have the same vector. -/
def emptySearch : Backend ℚ where
  encode _ := .ok [1]
  pack _ := .ok [0, 0, 128, 63]
  decodeResponses := false
  tagEncoding := { sha256 := fun _ => [], lower := id }
  search := { find := fun _ _ _ _ _ => [], lawful := by simp }

/-- The deletion of a prompt that has just been set does not take effect. -/
theorem not_deleteTakesEffect :
    ¬ DeleteTakesEffect emptySearch ratFloats { similarityThreshold := 0, workspace := "w" }
      (emptySearch.runOps { similarityThreshold := 0, workspace := "w" }
        [.set { prompt := "q", response := "a" }] (.start fun _ => none)) "q" := by
  intro heffect
  exact heffect [] (by simp) { prompt := "q" } _ rfl { prompt := "q", response := "a" }
    (.inl ⟨rfl, _, rfl, rfl⟩) rfl

end KacheDB
