import KacheDB.Foundation.LastWrite
import KacheDB.Integrations.LangChain
import KacheDB.Semantic.Filters

/-!
# The semantic cache of LangChain

`KacheDBSemanticCache` gives a prompt to a semantic cache and reads the generations from what that
finds.  The generations of one model are not to be returned for another one.

What is stored and what is searched for says nothing of the model, so that it depends on the
prompts alone whether models are kept apart: `separatesModels_iff` says for which histories of
updates they are.
-/

namespace KacheDB

open Foundation Backend

variable {F : Type}

/-! ## The cache -/

/-- A semantic cache for generations; its client and its embedder are what answers its calls. -/
structure KacheDBSemanticCache (F : Type) where
  indexName : String := "langchain_semantic_cache"
  similarityThreshold : F
  ttlSeconds : Option ℤ := some 86400

namespace KacheDBSemanticCache

variable (floats : Floats F) (generation : NewGeneration) (cache : KacheDBSemanticCache F)

/-- The semantic cache that it makes. -/
def semanticCache : SemanticCache F where
  indexName := cache.indexName
  similarityThreshold := cache.similarityThreshold
  ttlSeconds := cache.ttlSeconds

/-- Semantic search for cached completions. -/
def lookup (prompt _llmString : String) : CacheScript F (Option (List String)) := do
  match ← cache.semanticCache.get floats { prompt } with
  | none => pure none
  | some found => Script.lift (readGenerations generation found.value)

/-- What `update` gives to the semantic cache. -/
def setArgs (prompt : String) (returnVal : List String) : SetArgs where
  prompt := prompt
  response := writeGenerations returnVal

/-- Store prompt and generation in semantic cache. -/
def update (prompt _llmString : String) (returnVal : List String) : CacheScript F Unit := do
  let _ ← cache.semanticCache.set (setArgs prompt returnVal)
  pure ()

end KacheDBSemanticCache

/-! ## Histories -/

/-- An update of a semantic cache. -/
structure SemanticUpdate where
  prompt : String
  llmString : String
  returnVal : List String
  deriving DecidableEq

/-- The call of `set` of an update. -/
def SemanticUpdate.setArgs (u : SemanticUpdate) : SetArgs :=
  KacheDBSemanticCache.setArgs u.prompt u.returnVal

/-- The updates that store an item, under the ids of the items.  A prompt without a vector is not
stored. -/
def Backend.itemWrites (b : Backend F) (updates : List SemanticUpdate) :
    List (Write String SemanticUpdate) :=
  (updates.filter fun u => (b.embed u.prompt).isOk).map fun u => ⟨u.prompt, some u⟩

/-- The update that stored the item with this id. -/
def Backend.writerOf (b : Backend F) (updates : List SemanticUpdate) (itemId : String) :
    Option SemanticUpdate :=
  valueAt (b.itemWrites updates) itemId

namespace KacheDBSemanticCache

section Histories

variable (b : Backend F) (cache : KacheDBSemanticCache F)

/-- The server after one update, whether it returns or raises. -/
def step (s : Server) (u : SemanticUpdate) : Server :=
  ((cache.update u.prompt u.llmString u.returnVal).run (b.handle (some u.setArgs)) s).2

/-- The server after these updates. -/
def runUpdates (updates : List SemanticUpdate) (s : Server) : Server :=
  updates.foldl (cache.step b) s

variable {b cache}

/-- An update stores its item, if its prompt has a vector. -/
lemma step_eq (s : Server) (u : SemanticUpdate) :
    cache.step b s u = b.withItem cache.semanticCache s u.setArgs := by
  have hset : cache.step b s u = b.step cache.semanticCache s (.set u.setArgs) := by
    rw [step, update, Script.bind_eq, Script.run_bind, Backend.step]
    unfold SemanticUpdate.setArgs
    rcases (cache.semanticCache.set (setArgs u.prompt u.returnVal)).run _ s with ⟨_ | _, s'⟩ <;> rfl
  rw [hset, step_set]
  rfl

/-- **The index holds the items of the updates that stored them.** -/
theorem index_runUpdates (updates : List SemanticUpdate) (foreign : String → Option Bytes)
    (itemId : String) :
    (cache.runUpdates b updates (.start foreign)).index cache.indexName itemId =
      (b.writerOf updates itemId).bind fun u =>
        (b.embed itemId).toOption.map fun vector => b.item u.setArgs vector := by
  induction updates using List.reverseRecOn with
  | nil => rfl
  | append_singleton updates u ih =>
    rw [runUpdates, List.foldl_concat, ← runUpdates, step_eq, withItem]
    have hwrites : b.itemWrites (updates ++ [u]) = b.itemWrites updates ++
        b.itemWrites [u] := by
      rw [itemWrites, List.filter_append, List.map_append]
      rfl
    rw [writerOf, hwrites]
    cases hvector : b.embed u.setArgs.prompt with
    | error e =>
      have hnone : b.itemWrites [u] = [] := by
        have hprompt : b.embed u.prompt = .error e := hvector
        simp [itemWrites, hprompt, Except.toBool]
      rw [hnone, List.append_nil]
      exact ih
    | ok vector =>
      have hprompt : b.embed u.prompt = .ok vector := hvector
      have hone : b.itemWrites [u] = [⟨u.prompt, some u⟩] := by
        simp [itemWrites, hprompt, Except.toBool]
      rw [hone, valueAt_concat]
      dsimp only
      rw [show cache.indexName = cache.semanticCache.indexName from rfl,
        Server.index_setItem_self]
      by_cases hid : u.prompt = itemId
      · subst hid
        rw [if_pos rfl, Option.bind_some, hprompt]
        exact Function.update_self ..
      · rw [if_neg hid]
        exact (Function.update_of_ne (Ne.symm hid) ..).trans ih

end Histories

/-! ## Models -/

section Models

variable (above : Bytes → Bytes → F → Bool)

/-- A search that finds only items above the threshold. -/
def OnlyAbove (search : VectorSearch F) : Prop :=
  ∀ items query topK threshold filter, ∀ found ∈ search.find items query topK threshold filter,
    ∀ item, items found.1 = some item → above query item.vector threshold = true

/-- Whatever is found above the threshold: the generations that `lookup` returns after these
updates were stored, as the item that was found, by an update with the model of the lookup. -/
def SeparatesModels (b : Backend F) (floats : Floats F) (generation : NewGeneration)
    (cache : KacheDBSemanticCache F) (foreign : String → Option Bytes)
    (updates : List SemanticUpdate) (prompt llmString : String) : Prop :=
  ∀ (search : VectorSearch F) (found : SearchResult F) (generations : List String),
    OnlyAbove above search →
    ((cache.semanticCache.get floats { prompt }).run
        (({ b with search := search } : Backend F).handle none)
        (cache.runUpdates b updates (.start foreign))).1 = .ok (some found) →
    ((cache.lookup floats generation prompt llmString).run
        (({ b with search := search } : Backend F).handle none)
        (cache.runUpdates b updates (.start foreign))).1 = .ok (some generations) →
      ∃ u, b.writerOf updates found.key = some u ∧ u.returnVal = generations ∧
        u.llmString = llmString

/-- If the prompt has a vector, the items above the threshold were stored by updates with this
model. -/
def OneModelAbove (b : Backend F) (cache : KacheDBSemanticCache F) (updates : List SemanticUpdate)
    (prompt llmString : String) : Prop :=
  ∀ query, b.embed prompt = .ok query → ∀ itemId u vector, b.writerOf updates itemId = some u →
    b.embed itemId = .ok vector → above query vector cache.similarityThreshold = true →
      u.llmString = llmString

/-- The search that finds one item, if the item is above the threshold. -/
def onlyAbove (floats : Floats F) (itemId : String) : VectorSearch F where
  find items query _ threshold filter :=
    match items itemId with
    | some item =>
      if item.tags &&& filter = filter ∧ above query item.vector threshold = true then
        [(itemId, floats.one)]
      else []
    | none => []
  lawful := by
    intro items query topK threshold filter found hfound
    split at hfound
    · next item hitem =>
      split_ifs at hfound with hfits
      · obtain rfl := List.mem_singleton.mp hfound
        exact ⟨item, hitem, hfits.1⟩
      · cases hfound
    · cases hfound

lemma onlyAbove_onlyAbove (floats : Floats F) (itemId : String) :
    OnlyAbove above (onlyAbove above floats itemId) := by
  intro items query topK threshold filter found hfound item hitem
  simp only [onlyAbove] at hfound
  split at hfound
  · next item' hitem' =>
    split_ifs at hfound with hfits
    · obtain rfl := List.mem_singleton.mp hfound
      obtain rfl := Option.some.inj (hitem'.symm.trans hitem)
      exact hfits.2
    · cases hfound
  · cases hfound

variable {above} {b : Backend F} {floats : Floats F} {generation : NewGeneration}
  {cache : KacheDBSemanticCache F} {foreign : String → Option Bytes}
  {updates : List SemanticUpdate} {prompt llmString : String}

/-- An item of the index, and the update that stored it. -/
lemma item_of_index {itemId : String} {item : VectorItem}
    (h : (cache.runUpdates b updates (.start foreign)).index cache.indexName itemId = some item) :
    ∃ u vector, b.writerOf updates itemId = some u ∧ b.embed itemId = .ok vector ∧
      item = b.item u.setArgs vector := by
  rw [index_runUpdates] at h
  obtain ⟨u, hu, hitem⟩ := Option.bind_eq_some_iff.mp h
  cases hvector : b.embed itemId with
  | error e =>
    rw [hvector] at hitem
    cases hitem
  | ok vector =>
    rw [hvector] at hitem
    exact ⟨u, vector, hu, rfl, (Option.some.inj hitem).symm⟩

/-- The match for an item is the payload of the item, which has no parent. -/
lemma value_matchResult (s : Server) (q : GetArgs F) (itemId : String) (score : F)
    (u : SemanticUpdate) (vector : Bytes) :
    (matchResult s q itemId score (b.item u.setArgs vector)).value =
      writeGenerations u.returnVal := by
  have hnone : parentText s q (b.item u.setArgs vector) = none := by
    unfold parentText
    split_ifs <;> rfl
  rw [matchResult, hnone]
  rfl

/-- What `lookup` reads is what `get` of the semantic cache returns. -/
lemma run_lookup (search : VectorSearch F) (s : Server) :
    ((cache.lookup floats generation prompt llmString).run
        (({ b with search := search } : Backend F).handle none) s).1 =
      (({ b with search := search } : Backend F).lookup floats cache.semanticCache s
          { prompt }).bind fun
        | none => .ok none
        | some found => readGenerations generation found.value := by
  rw [lookup, Script.bind_eq, Script.run_bind, run_get]
  cases ({ b with search := search } : Backend F).lookup floats cache.semanticCache s
      { prompt } with
  | error e => rfl
  | ok result =>
    cases result with
    | none => rfl
    | some found => exact congrArg Prod.fst (Script.run_lift ..)

/-- There is no exact copy without a workspace. -/
lemma exactText_semanticCache (s : Server) (q : GetArgs F) :
    exactText cache.semanticCache s q = none := by
  have hworkspace : (q.exactFirst && cache.semanticCache.workspace != "") = false := by
    cases q.exactFirst <;> rfl
  rw [exactText, hworkspace]
  rfl

/-- What a search above the threshold finds was stored by an update. -/
lemma found_of_lookup (hgen : ∀ text, generation (.str text) = .ok text) {search : VectorSearch F}
    (honly : OnlyAbove above search) {found : SearchResult F}
    (h : ({ b with search := search } : Backend F).lookup floats cache.semanticCache
      (cache.runUpdates b updates (.start foreign)) { prompt } = .ok (some found)) :
    ∃ query u vector, b.embed prompt = .ok query ∧ b.writerOf updates found.key = some u ∧
      b.embed found.key = .ok vector ∧
      above query vector cache.similarityThreshold = true ∧
      readGenerations generation found.value = .ok (some u.returnVal) := by
  rw [Backend.lookup, exactText_semanticCache] at h
  dsimp only at h
  rw [embed_search] at h
  cases hquery : b.embed prompt with
  | error e =>
    rw [hquery] at h
    cases h
  | ok query =>
    rw [hquery] at h
    dsimp only at h
    split at h
    · cases h
    · next itemId score rest hfound =>
      obtain ⟨item, hitem, -⟩ := fits_of_found hfound
      have hfind : search.find
          ((cache.runUpdates b updates (.start foreign)).index cache.semanticCache.indexName) query
          1 cache.similarityThreshold (b.sentFilter { prompt }) = (itemId, score) :: rest := hfound
      have habove := honly _ query 1 _ _ (itemId, score)
        (by rw [hfind]; exact List.mem_cons_self) item hitem
      obtain ⟨u, vector, hu, hvector, rfl⟩ := item_of_index hitem
      rw [hitem, Option.map_some] at h
      obtain rfl := Option.some.inj (Except.ok.inj h)
      refine ⟨query, u, vector, rfl, hu, hvector, habove, ?_⟩
      rw [value_matchResult, readGenerations_writeGenerations hgen]

variable (above floats cache foreign prompt) in
/-- The search that finds one item makes `get` find it. -/
lemma lookup_onlyAbove {query vector : Bytes} {itemId : String} {u : SemanticUpdate}
    (hquery : b.embed prompt = .ok query) (hu : b.writerOf updates itemId = some u)
    (hvector : b.embed itemId = .ok vector)
    (habove : above query vector cache.similarityThreshold = true) :
    ({ b with search := onlyAbove above floats itemId } : Backend F).lookup floats
        cache.semanticCache (cache.runUpdates b updates (.start foreign)) { prompt } =
      .ok (some (matchResult (cache.runUpdates b updates (.start foreign)) { prompt } itemId
        floats.one (b.item u.setArgs vector))) := by
  have hitem : (cache.runUpdates b updates (.start foreign)).index
      cache.semanticCache.indexName itemId = some (b.item u.setArgs vector) := by
    rw [show cache.semanticCache.indexName = cache.indexName from rfl, index_runUpdates, hu,
      Option.bind_some, hvector]
    rfl
  -- no filter is sent
  have hfits : (b.item u.setArgs vector).tags &&& b.sentFilter { prompt } =
      b.sentFilter ({ prompt } : GetArgs F) := by
    have hzero : b.sentFilter ({ prompt } : GetArgs F) = 0 := rfl
    rw [hzero, Nat.and_zero]
  have hfound : ({ b with search := onlyAbove above floats itemId } : Backend F).found
      cache.semanticCache (cache.runUpdates b updates (.start foreign)) { prompt } query =
        [(itemId, floats.one)] := by
    unfold Backend.found onlyAbove
    simp only [hitem]
    exact if_pos ⟨hfits, habove⟩
  rw [Backend.lookup, exactText_semanticCache]
  dsimp only
  rw [embed_search, hquery]
  dsimp only
  rw [hfound]
  dsimp only
  rw [hitem, Option.map_some]

/-- **When models are kept apart.**  Generations that `lookup` returns were stored by an update
with the same model, whatever is found above the threshold, if and only if the items above the
threshold were stored by updates with this model. -/
theorem separatesModels_iff (hgen : ∀ text, generation (.str text) = .ok text) (b : Backend F)
    (floats : Floats F) (cache : KacheDBSemanticCache F) (foreign : String → Option Bytes)
    (updates : List SemanticUpdate) (prompt llmString : String) :
    SeparatesModels above b floats generation cache foreign updates prompt llmString ↔
      OneModelAbove above b cache updates prompt llmString := by
  constructor
  · intro hseparates query hquery itemId u vector hu hvector habove
    have hlookup := lookup_onlyAbove above floats cache foreign prompt hquery hu hvector habove
    obtain ⟨u', hu', -, hllm⟩ := hseparates (onlyAbove above floats itemId) _ u.returnVal
      (onlyAbove_onlyAbove above floats itemId) (by rw [run_get, hlookup])
      (by
        rw [run_lookup, hlookup]
        dsimp only [Except.bind]
        rw [value_matchResult, readGenerations_writeGenerations hgen])
    obtain rfl := Option.some.inj (hu.symm.trans hu')
    exact hllm
  · intro hmodel search found generations honly hget hlookup
    rw [run_get] at hget
    dsimp only at hget
    obtain ⟨query, u, vector, hquery, hu, hvector, habove, hread⟩ :=
      found_of_lookup hgen honly hget
    rw [run_lookup, hget] at hlookup
    dsimp only [Except.bind] at hlookup
    rw [hread] at hlookup
    exact ⟨u, hu, Option.some.inj (Except.ok.inj hlookup),
      hmodel query hquery found.key u vector hu hvector habove⟩

/-- Three prompts of two models, one of them twice. -/
def fourUpdates : List SemanticUpdate :=
  [⟨"q", "m", ["a"]⟩, ⟨"p", "n", ["b", "c"]⟩, ⟨"q", "n", ["d"]⟩, ⟨"r", "m", []⟩]

/-- These updates, and a search for which everything is above the threshold. -/
theorem separatesModels_iff_fourUpdates :
    SeparatesModels (fun _ _ _ => true) emptySearch ratFloats KacheDBCache.textGeneration
        { similarityThreshold := 0 } (fun _ => none) fourUpdates "q" "m" ↔
      OneModelAbove (fun _ _ _ => true) emptySearch { similarityThreshold := 0 } fourUpdates
        "q" "m" :=
  separatesModels_iff (fun _ => rfl) emptySearch ratFloats { similarityThreshold := 0 }
    (fun _ => none) fourUpdates "q" "m"

/-- What was stored for one model is returned for another one. -/
theorem not_separatesModels :
    ¬ SeparatesModels (fun _ _ _ => true) emptySearch ratFloats KacheDBCache.textGeneration
        { similarityThreshold := 0 } (fun _ => none) [⟨"q", "m", ["a"]⟩] "q" "n" := by
  intro hseparates
  have hwriter : emptySearch.writerOf [⟨"q", "m", ["a"]⟩] "q" = some ⟨"q", "m", ["a"]⟩ := by
    decide
  have hlookup := lookup_onlyAbove (fun _ _ _ => true) ratFloats { similarityThreshold := 0 }
    (fun _ => none) "q" rfl hwriter rfl rfl
  obtain ⟨u, hu, -, hllm⟩ := hseparates (onlyAbove (fun _ _ _ => true) ratFloats "q") _ ["a"]
    (onlyAbove_onlyAbove _ ratFloats "q") (by rw [run_get, hlookup])
    (by
      rw [run_lookup, hlookup]
      dsimp only [Except.bind]
      rw [value_matchResult, readGenerations_writeGenerations fun _ => rfl])
  obtain rfl := Option.some.inj (hwriter.symm.trans hu)
  revert hllm
  decide

end Models

end KacheDBSemanticCache

end KacheDB
