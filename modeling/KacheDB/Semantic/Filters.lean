import KacheDB.Semantic.Deletion

/-!
# Filtering by tags

A `get` with a filter is to give only results from entries that have all the bits of the filter.
Two things stand against it.  The exact copy of a prompt is looked up in front of the filtered
search and whatever its tags are.  And `get` passes a filter mask on only if it is positive, while
a negative one has bits as well, the high ones: `filtersHold_iff` says when neither matters.
-/

namespace KacheDB

open Foundation Backend

variable {F : Type}

/-- The mask that a call of `set` stores. -/
def Backend.storedMask (b : Backend F) (r : SetArgs) : ℕ :=
  b.sentMask r.tags (positiveMask r.tagMask)

/-- The mask of a value: that of the call that wrote it, and none for a value from elsewhere. -/
def Backend.maskOf (b : Backend F) (stored : Stored) : ℕ :=
  stored.origin.elim 0 b.storedMask

/-- The combined mask of a `get`. -/
def Backend.filterOf (b : Backend F) (q : GetArgs F) : ℕ :=
  tagsToBitmask b.tagEncoding q.filterTags q.filterMask

/-- The mask that its search sends. -/
def Backend.sentFilter (b : Backend F) (q : GetArgs F) : ℕ :=
  b.sentMask q.filterTags (positiveMask q.filterMask)

/-- A result of `get` comes from an entry with the mask `m`: from the exact copy of the prompt, or
from the item with its key. -/
def ComesFrom (b : Backend F) (c : SemanticCache F) (s : Server) (q : GetArgs F)
    (result : SearchResult F) (m : ℕ) : Prop :=
  (result.isExact = true ∧ ∃ stored, s.kv (c.docKey (strip q.prompt)) = some stored ∧
      m = b.maskOf stored) ∨
    (result.isExact = false ∧ ∃ item, s.index c.indexName result.key = some item ∧ m = item.tags)

/-- Whatever the search finds, as long as it keeps to the filter it is sent, the result of `get`
comes from an entry that has the bits of the filter. -/
def FiltersHold (b : Backend F) (floats : Floats F) (c : SemanticCache F) (s : Server)
    (q : GetArgs F) : Prop :=
  ∀ (search : VectorSearch F) (result : SearchResult F) (m : ℕ),
    ((c.get floats q).run (({ b with search := search } : Backend F).handle none) s).1 =
        .ok (some result) →
      ComesFrom b c s q result m → m &&& b.filterOf q = b.filterOf q

/-- The exact copy that `get` finds, if it finds one, has the bits of the filter. -/
def ExactCopyFits (b : Backend F) (c : SemanticCache F) (s : Server) (q : GetArgs F) : Prop :=
  ∀ text stored, exactText c s q = some text →
    s.kv (c.docKey (strip q.prompt)) = some stored →
      b.maskOf stored &&& b.filterOf q = b.filterOf q

/-- If `get` comes to search for the vector of the prompt and the filter mask is negative, the
items that have the bits of the filter tags have all bits of the filter. -/
def NothingDropped (b : Backend F) (c : SemanticCache F) (s : Server) (q : GetArgs F) : Prop :=
  q.filterMask < 0 → exactText c s q = none → ∀ query, b.embed q.prompt = .ok query →
    ∀ id item, s.index c.indexName id = some item →
      item.tags &&& b.sentFilter q = b.sentFilter q → item.tags &&& b.filterOf q = b.filterOf q

/-- The search that finds one item, if the item has the bits of the filter. -/
def onlyItem (floats : Floats F) (id : String) : VectorSearch F where
  find items _ _ _ filter :=
    match items id with
    | some item => if item.tags &&& filter = filter then [(id, floats.one)] else []
    | none => []
  lawful := by
    intro items query topK threshold filter found hfound
    split at hfound
    · next item hitem =>
      split_ifs at hfound with hfits
      · obtain rfl := List.mem_singleton.mp hfound
        exact ⟨item, hitem, hfits⟩
      · cases hfound
    · cases hfound

/-- It finds the item. -/
lemma find_onlyItem (floats : Floats F) {items : String → Option VectorItem} {id : String}
    {item : VectorItem} (hitem : items id = some item) {filter : ℕ}
    (hfits : item.tags &&& filter = filter) (query : Bytes) (topK : ℕ) (threshold : F) :
    (onlyItem floats id).find items query topK threshold filter = [(id, floats.one)] := by
  simp only [onlyItem, hitem, if_pos hfits]

variable {b : Backend F} {floats : Floats F} {c : SemanticCache F} {s : Server} {q : GetArgs F}

/-- A filter mask that is not negative is passed on as it is. -/
lemma sentFilter_eq (h : 0 ≤ q.filterMask) : b.sentFilter q = b.filterOf q := by
  unfold Backend.sentFilter Backend.sentMask Backend.filterOf positiveMask
  split_ifs with hpos
  · rfl
  · have hzero : q.filterMask = 0 := by omega
    rw [hzero]
    rfl

/-- The vector of a prompt does not depend on the search. -/
lemma embed_search (search : VectorSearch F) (text : String) :
    ({ b with search := search } : Backend F).embed text = b.embed text := rfl

/-- What a search finds is there and has the bits of the filter that was sent. -/
lemma fits_of_found {search : VectorSearch F} {query : Bytes} {id : String} {score : F}
    {rest : List (String × F)}
    (h : ({ b with search := search } : Backend F).found c s q query = (id, score) :: rest) :
    ∃ item, s.index c.indexName id = some item ∧
      item.tags &&& b.sentFilter q = b.sentFilter q := by
  have hfind : search.find (s.index c.indexName) query 1
      (q.threshold.getD c.similarityThreshold) (b.sentFilter q) = (id, score) :: rest := h
  apply search.lawful _ query 1 (q.threshold.getD c.similarityThreshold) _ (id, score)
  rw [hfind]
  exact List.mem_cons_self

/-- What is found has the bits of the filter, if the two conditions are met. -/
lemma filtersHold_of_fits (hexact : ExactCopyFits b c s q) (hvector : NothingDropped b c s q) :
    FiltersHold b floats c s q := by
  intro search result m hget hfrom
  rw [run_get, lookup] at hget
  cases htext : exactText c s q with
  | some text =>
    rw [htext] at hget
    obtain rfl := Option.some.inj (Except.ok.inj hget)
    rcases hfrom with ⟨-, stored, hstored, rfl⟩ | ⟨hfalse, -⟩
    · exact hexact text stored htext hstored
    · cases hfalse
  | none =>
    rw [htext] at hget
    dsimp only at hget
    rw [embed_search] at hget
    cases hquery : b.embed q.prompt with
    | error e =>
      rw [hquery] at hget
      cases hget
    | ok query =>
      rw [hquery] at hget
      dsimp only at hget
      split at hget
      · cases hget
      · next id score rest hfound =>
        obtain ⟨item, hitem, hfits⟩ := fits_of_found hfound
        rw [hitem, Option.map_some] at hget
        obtain rfl := Option.some.inj (Except.ok.inj hget)
        rcases hfrom with ⟨hfalse, -⟩ | ⟨-, item', hitem', rfl⟩
        · cases hfalse
        · obtain rfl := Option.some.inj (hitem.symm.trans hitem')
          by_cases hneg : q.filterMask < 0
          · exact hvector hneg htext query hquery id item hitem hfits
          · rw [← sentFilter_eq (by omega)]
            exact hfits

/-- **The filter holds exactly if the exact copy fits it and no part of it is dropped.** -/
theorem filtersHold_iff (b : Backend F) (floats : Floats F) (c : SemanticCache F)
    (foreign : String → Option Bytes) (ops : List CacheOp) (q : GetArgs F) :
    FiltersHold b floats c (b.runOps c ops (.start foreign)) q ↔
      ExactCopyFits b c (b.runOps c ops (.start foreign)) q ∧
        NothingDropped b c (b.runOps c ops (.start foreign)) q := by
  constructor
  · intro hfilters
    constructor
    · intro text stored htext hstored
      refine hfilters b.search
        { key := strip q.prompt, similarity := floats.one, value := text, isExact := true } _ ?_
        (.inl ⟨rfl, stored, hstored, rfl⟩)
      rw [run_get, lookup, htext]
    · intro _ htext query hquery id item hitem hfits
      refine hfilters (onlyItem floats id)
        (matchResult (b.runOps c ops (.start foreign)) q id floats.one item) _ ?_
        (.inr ⟨rfl, item, hitem, rfl⟩)
      have hfound : ({ b with search := onlyItem floats id } : Backend F).found c
          (b.runOps c ops (.start foreign)) q query = [(id, floats.one)] :=
        find_onlyItem floats hitem hfits _ _ _
      simp only [run_get, lookup, htext, embed_search, hquery, hfound, hitem, Option.map_some]
  · rintro ⟨hexact, hvector⟩
    exact filtersHold_of_fits hexact hvector

/-- The filter does not hold for a prompt that has just been set with another tag. -/
theorem not_filtersHold :
    emptySearch.filterOf { prompt := "q", filterMask := 2 } ≠ 0 ∧
      ¬ FiltersHold emptySearch ratFloats { similarityThreshold := 0, workspace := "w" }
        (emptySearch.runOps { similarityThreshold := 0, workspace := "w" }
          [.set { prompt := "q", response := "a", tagMask := 1 }] (.start fun _ => none))
        { prompt := "q", filterMask := 2 } := by
  constructor
  · decide
  · intro hfilters
    have hfits := hfilters emptySearch.search _ 1 rfl (.inl ⟨rfl, _, rfl, rfl⟩)
    revert hfits
    decide

end KacheDB
