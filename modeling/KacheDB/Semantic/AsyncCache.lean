import KacheDB.Semantic.Cache

/-!
# The asynchronous semantic cache

`AsyncSemanticCache` is `SemanticCache` once more, on an asynchronous client.  Its `get` is the
same up to the very last step: where a match has no parent key, `SemanticCache.get` leaves the
chunk of the result out and `AsyncSemanticCache.get` fills it in (`asyncGet_eq_map`).
-/

namespace KacheDB

open Foundation CacheScript

/-- An asynchronous semantic cache; it has the attributes of the synchronous one. -/
abbrev AsyncSemanticCache (F : Type) : Type :=
  SemanticCache F

variable {F : Type}

/-- Store a prompt and response in the semantic cache asynchronously. -/
def AsyncSemanticCache.set (c : AsyncSemanticCache F) (r : SetArgs) : CacheScript F Bool := do
  c.storeCopy r
  let vector ← encode r.prompt
  vadd (c.vaddArgs r vector)

/-- Steps 2 and 3 of `get`, whose last step has a chunk for every match. -/
def AsyncSemanticCache.vectorMatch (floats : Floats F) (c : AsyncSemanticCache F)
    (r : GetArgs F) : CacheScript F (Option (SearchResult F)) := do
  match ← c.search r with
  | [] => pure none
  | best :: _ =>
    let m ← Script.lift (best.fields floats)
    match ← SemanticCache.expandParent m r.resolveParent with
    | some result => pure (some result)
    | none =>
      pure (some
        { key := m.keyStr
          similarity := m.score
          value := m.valStr
          parentKey := m.parentK
          chunk := some m.valStr })

/-- Search the cache asynchronously for semantically equivalent prompts. -/
def AsyncSemanticCache.get (floats : Floats F) (c : AsyncSemanticCache F) (r : GetArgs F) :
    CacheScript F (Option (SearchResult F)) := do
  match ← c.exactMatch floats r.prompt r.exactFirst with
  | some result => pure (some result)
  | none => AsyncSemanticCache.vectorMatch floats c r

/-- The result with the chunk that the asynchronous cache gives it. -/
def SearchResult.fillChunk (result : SearchResult F) : SearchResult F :=
  if result.isExact then result else { result with chunk := some (result.chunk.getD result.value) }

/-! ## The two methods -/

section Agreement

variable (floats : Floats F) (c : SemanticCache F)

/-- A caught exception changes a script only where it gives a result. -/
lemma map_exceptPass (f : Option (SearchResult F) → Option (SearchResult F)) (hnone : f none = none)
    (m : CacheScript F (Option (SearchResult F))) :
    (exceptPass m).map f = exceptPass (m.map f) := by
  induction m with
  | pure a => rfl
  | raise e =>
    simp only [exceptPass, Script.tryCatch, Script.map]
    split_ifs
    · rw [Script.map, hnone]
    · rfl
  | call q k ih =>
    simp only [exceptPass, Script.tryCatch, Script.map, Script.call.injEq, heq_eq_eq, true_and]
    funext r
    exact ih r

/-- The exact step gives a result that is exact. -/
lemma map_exactMatch (prompt : String) (exactFirst : Bool) :
    (c.exactMatch floats prompt exactFirst).map (Option.map SearchResult.fillChunk) =
      c.exactMatch floats prompt exactFirst := by
  unfold SemanticCache.exactMatch
  split_ifs
  · rw [map_exceptPass _ rfl]
    congr 1
    simp only [Script.bind_eq, Script.map_bind]
    congr 1
    funext v
    rcases valueText v with _ | ⟨_ | _⟩ <;> rfl
  · rfl

/-- The expansion gives a result that has its chunk. -/
lemma map_expandParent (m : MatchFields F) (resolveParent : Bool) :
    (SemanticCache.expandParent m resolveParent).map (Option.map SearchResult.fillChunk) =
      SemanticCache.expandParent m resolveParent := by
  unfold SemanticCache.expandParent
  split_ifs
  · rw [map_exceptPass _ rfl]
    congr 1
    simp only [Script.bind_eq, Script.map_bind]
    congr 1
    funext v
    rcases valueText v with _ | ⟨_ | _⟩ <;> rfl
  · rfl

/-- After a first part whose result is filled in already, only the rest matters. -/
lemma map_bind_of_filled {m : CacheScript F (Option (SearchResult F))}
    (hm : m.map (Option.map SearchResult.fillChunk) = m)
    {g h : Option (SearchResult F) → CacheScript F (Option (SearchResult F))}
    (hsome : ∀ result, h (some result.fillChunk) =
      (g (some result)).map (Option.map SearchResult.fillChunk))
    (hnone : h none = (g none).map (Option.map SearchResult.fillChunk)) :
    m.bind h = (m.bind g).map (Option.map SearchResult.fillChunk) := by
  rw [Script.map_bind]
  conv_lhs => rw [← hm, Script.bind_map]
  congr 1
  funext result
  cases result with
  | none => exact hnone
  | some result => exact hsome result

/-- The vector step. -/
lemma asyncVectorMatch_eq_map (r : GetArgs F) :
    AsyncSemanticCache.vectorMatch floats c r =
      (c.vectorMatch floats r).map (Option.map SearchResult.fillChunk) := by
  unfold AsyncSemanticCache.vectorMatch SemanticCache.vectorMatch
  simp only [Script.bind_eq, Script.map_bind]
  congr 1
  funext found
  cases found with
  | nil => rfl
  | cons best rest =>
    simp only [Script.map_bind]
    congr 1
    funext m
    rw [← Script.map_bind]
    apply map_bind_of_filled (map_expandParent m r.resolveParent)
    · intro result
      rfl
    · cases hparent : m.hasParent <;> simp [Script.pure_eq, Script.map, SearchResult.fillChunk]

/-- **The asynchronous method fills in the chunk, and does nothing else in another way.** -/
theorem asyncGet_eq_map (r : GetArgs F) :
    AsyncSemanticCache.get floats c r =
      (c.get floats r).map (Option.map SearchResult.fillChunk) := by
  apply map_bind_of_filled (map_exactMatch floats c r.prompt r.exactFirst)
  · intro result
    rfl
  · exact asyncVectorMatch_eq_map floats c r

end Agreement

/-! ## Where the two methods differ -/

section Runs

variable {σ : Type} (handle : Handler (CacheCall F) CacheCall.Answer Exc σ) (floats : Floats F)
  (c : SemanticCache F) (r : GetArgs F)

/-- What `client.get` has come to is no text, and no exception that is let through. -/
def unusable : Except Exc RespValue → Bool
  | .error e => e.isException
  | .ok v =>
    match valueText v with
    | some (.ok _) => false
    | _ => true

/-- The exact step does not find the prompt, or is not made at all, and leaves the state `s₁`. -/
def ExactMisses (s s₁ : σ) : Prop :=
  if r.exactFirst && c.workspace != "" then
    unusable (handle (.get (c.docKey (strip r.prompt))) s).1 = true ∧
      s₁ = (handle (.get (c.docKey (strip r.prompt))) s).2
  else s₁ = s

/-- The exact step does not find the prompt, and the search gives a best row that can be read
and has no parent key, or an empty one. -/
def MatchWithoutParent (s : σ) : Prop :=
  ∃ s₁ vector s₂ best rest s₃ m,
    ExactMisses handle c r s s₁ ∧
    handle (.encode r.prompt) s₁ = (.ok vector, s₂) ∧
    handle (.vsearch (c.vsearchArgs r vector)) s₂ = (.ok (best :: rest), s₃) ∧
    best.fields floats = .ok m ∧ m.hasParent = false

/-- The outcome has its chunk filled in already. -/
def Filled (outcome : Except Exc (Option (SearchResult F))) : Prop :=
  outcome.map (Option.map SearchResult.fillChunk) = outcome

variable {handle floats c r}

/-- The outcome of a script that has its chunks filled in. -/
lemma filled_run {m : CacheScript F (Option (SearchResult F))}
    (hm : m.map (Option.map SearchResult.fillChunk) = m) (s : σ) :
    Filled (m.run handle s).1 := by
  have hrun : (m.map (Option.map SearchResult.fillChunk)).run handle s =
      ((m.run handle s).1.map (Option.map SearchResult.fillChunk), (m.run handle s).2) :=
    Script.run_map _ m s
  rw [hm] at hrun
  exact (congrArg Prod.fst hrun).symm

/-- The exact step that finds nothing. -/
lemma run_exactMatch_none {s s₁ : σ} :
    (c.exactMatch floats r.prompt r.exactFirst).run handle s = (.ok none, s₁) ↔
      ExactMisses handle c r s s₁ := by
  unfold SemanticCache.exactMatch ExactMisses
  split_ifs with hif
  · simp only [exceptPass, Script.run_tryCatch, Script.bind_eq, Script.run_bind, clientGet,
      Script.run_ask]
    rcases handle (.get (c.docKey (strip r.prompt))) s with ⟨e | v, s'⟩
    · cases he : e.isException <;> simp [he, unusable, eq_comm]
    · rcases hv : valueText v with _ | ⟨e | text⟩
      · simp [hv, unusable, Script.pure_eq, eq_comm]
      · have he : e.isException = true := by
          cases v <;> simp [valueText, decodeText] at hv
          split at hv <;> cases hv
          rfl
        simp [hv, unusable, Script.run_bind, he, eq_comm]
      · simp [hv, unusable, Script.run_bind, Script.pure_eq]
  · simp [Script.pure_eq, eq_comm]

/-- The search. -/
lemma run_search (s : σ) :
    (c.search r).run handle s =
      match handle (.encode r.prompt) s with
      | (.ok vector, s₂) => handle (.vsearch (c.vsearchArgs r vector)) s₂
      | (.error e, s₂) => (.error e, s₂) := by
  simp only [SemanticCache.search, Script.bind_eq, Script.run_bind, encode, Script.run_ask,
    vsearch]
  rcases handle (.encode r.prompt) s with ⟨e | vector, s₂⟩ <;> rfl

/-- The best row is the first one, and its fields are determined. -/
lemma exists_withoutParent_iff {best : Row F} {rest : List (Row F)} {m : MatchFields F} {s₃ : σ}
    (hfields : best.fields floats = .ok m) :
    (∃ best' rest' s' m', ((.ok (best :: rest), s₃) : Except Exc (List (Row F)) × σ) =
      (.ok (best' :: rest'), s') ∧ best'.fields floats = .ok m' ∧ m'.hasParent = false) ↔
        m.hasParent = false := by
  constructor
  · rintro ⟨best', rest', s', m', heq, hm, hp⟩
    simp only [Prod.mk.injEq, Except.ok.injEq, List.cons.injEq] at heq
    rw [← heq.1.1, hfields] at hm
    obtain rfl := Except.ok.inj hm
    exact hp
  · exact fun hp => ⟨best, rest, s₃, m, rfl, hfields, hp⟩

/-- The vector step has its chunk filled in unless its match has no parent key. -/
lemma filled_vectorMatch_iff (s₁ : σ) :
    Filled ((c.vectorMatch floats r).run handle s₁).1 ↔
      ¬ ∃ best rest s₃ m, (c.search r).run handle s₁ = (.ok (best :: rest), s₃) ∧
        best.fields floats = .ok m ∧ m.hasParent = false := by
  unfold SemanticCache.vectorMatch
  rw [Script.bind_eq, Script.run_bind]
  rcases hsearch : (c.search r).run handle s₁ with ⟨e | found, s₃⟩
  · simp [Filled, Except.map]
  cases found with
  | nil => simp [Filled, Script.pure_eq, Except.map]
  | cons best rest =>
    simp only [Script.bind_eq, Script.run_bind, Script.run_lift]
    rcases hfields : best.fields floats with e | m
    · simp only [Filled, Except.map, true_iff, not_exists]
      rintro best' rest' s' m ⟨heq, hm, -⟩
      simp only [Prod.mk.injEq, Except.ok.injEq, List.cons.injEq] at heq
      rw [← heq.1.1, hfields] at hm
      cases hm
    rw [exists_withoutParent_iff hfields]
    dsimp only
    cases hparent : m.hasParent with
    | false =>
      -- the last step of the source, without a chunk
      have hnone : SemanticCache.expandParent m r.resolveParent = .pure none := by
        simp [SemanticCache.expandParent, hparent, Script.pure_eq]
      simp [hnone, Script.pure_eq, Filled, Except.map, SearchResult.fillChunk]
    | true =>
      have hfilled : Filled ((SemanticCache.expandParent m r.resolveParent).run handle s₃).1 :=
        filled_run (map_expandParent m r.resolveParent) s₃
      rcases hexpand : (SemanticCache.expandParent m r.resolveParent).run handle s₃ with
        ⟨e | _ | result, s₄⟩
      · simp [Filled, Except.map]
      · simp [Filled, Script.pure_eq, Except.map, SearchResult.fillChunk]
      · rw [hexpand] at hfilled
        exact iff_of_true hfilled (by simp)

/-- `get` has its chunk filled in unless it comes to a match without a parent key. -/
lemma filled_get_iff (s : σ) :
    Filled ((c.get floats r).run handle s).1 ↔ ¬ MatchWithoutParent handle floats c r s := by
  have hfilled : Filled ((c.exactMatch floats r.prompt r.exactFirst).run handle s).1 :=
    filled_run (map_exactMatch floats c r.prompt r.exactFirst) s
  -- a match without a parent key comes after an exact step that finds nothing
  have hmisses : MatchWithoutParent handle floats c r s ↔
      ∃ s₁, (c.exactMatch floats r.prompt r.exactFirst).run handle s = (.ok none, s₁) ∧
        ∃ best rest s₃ m, (c.search r).run handle s₁ = (.ok (best :: rest), s₃) ∧
          best.fields floats = .ok m ∧ m.hasParent = false := by
    constructor
    · rintro ⟨s₁, vector, s₂, best, rest, s₃, m, hexact, hencode, hsearch, hm⟩
      refine ⟨s₁, run_exactMatch_none.mpr hexact, best, rest, s₃, m, ?_, hm⟩
      rw [run_search, hencode]
      exact hsearch
    · rintro ⟨s₁, hexact, best, rest, s₃, m, hsearch, hm⟩
      rw [run_search] at hsearch
      rcases hencode : handle (.encode r.prompt) s₁ with ⟨e | vector, s₂⟩
      · simp [hencode] at hsearch
      · simp only [hencode] at hsearch
        exact ⟨s₁, vector, s₂, best, rest, s₃, m, run_exactMatch_none.mp hexact, hencode, hsearch,
          hm⟩
  rw [hmisses]
  unfold SemanticCache.get
  rw [Script.bind_eq, Script.run_bind]
  rcases hexact : (c.exactMatch floats r.prompt r.exactFirst).run handle s with ⟨e | _ | result, s₁⟩
  · simp [Filled, Except.map]
  · dsimp only
    rw [filled_vectorMatch_iff]
    simp
  · rw [hexact] at hfilled
    simp only [Script.pure_eq, Script.run_pure, Prod.mk.injEq, Except.ok.injEq, reduceCtorEq,
      false_and, exists_false, not_false_eq_true, iff_true]
    exact hfilled

/-- **The two methods agree exactly on what is no match without a parent key.**  Both are run
with their calls noted. -/
theorem get_agrees_iff (handle : Handler (CacheCall F) CacheCall.Answer Exc σ) (floats : Floats F)
    (c : SemanticCache F) (r : GetArgs F) (s : σ) :
    (AsyncSemanticCache.get floats c r).run (Script.traced handle) (s, []) =
        (c.get floats r).run (Script.traced handle) (s, []) ↔
      ¬ MatchWithoutParent handle floats c r s := by
  -- noting the calls does not change the outcome
  have hnoted : ((c.get floats r).run (Script.traced handle) (s, [])).1 =
      ((c.get floats r).run handle s).1 := (Script.run_traced _ s []).1
  rw [asyncGet_eq_map, Script.run_map, ← filled_get_iff, Filled, ← hnoted]
  constructor
  · intro h
    exact congrArg Prod.fst h
  · intro h
    rw [h]

end Runs

/-! ## A match without a parent key -/

/-- A server with one item, which has no parent. -/
def oneItemServer : Handler (CacheCall ℚ) CacheCall.Answer Exc Unit
  | .encode _, s => (.ok [1], s)
  | .get _, s => (.ok .none, s)
  | .set _ _ _, s => (.ok true, s)
  | .vadd _, s => (.ok true, s)
  | .vsearch _, s => (.ok [.vectorMatch ⟨.str "q", .float 1, .str "a", .none⟩], s)
  | .vdel _ _, s => (.ok true, s)

/-- The methods do not agree: the asynchronous one has a chunk where the synchronous one has
none. -/
theorem get_disagrees :
    ¬ ∀ (σ : Type) (handle : Handler (CacheCall ℚ) CacheCall.Answer Exc σ) (c : SemanticCache ℚ)
        (r : GetArgs ℚ) (s : σ),
      (AsyncSemanticCache.get ratFloats c r).run (Script.traced handle) (s, []) =
        (c.get ratFloats r).run (Script.traced handle) (s, []) := by
  intro h
  have heq := congrArg Prod.fst
    (h Unit oneItemServer { similarityThreshold := 0 } { prompt := "q" } ())
  have hchunk : some "a" = (none : Option String) := by
    injection heq with hresult
    injection hresult with hfields
    exact congrArg SearchResult.chunk hfields
  cases hchunk

end KacheDB
