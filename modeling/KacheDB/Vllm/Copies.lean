import KacheDB.Vllm.Connector

/-!
# The copies of a restore of blocks

`recv_kv_caches_and_hidden_states` with a log of the copies that it makes: into which block of
which layer, and into which half of it, 0 for the keys and 1 for the values.  The log does not
change what is restored (`recvTraced_fst`), and what is not in it stays as it was
(`restoreBlocksTraced_frame`).

`mem_restoreBlocksTraced` says which blocks a successful restore writes: the matched ones, in the
layers for which their entries have offsets.  `restoreBlocksTraced_tells` says what they hold
afterwards.
-/

namespace KacheDB

open Foundation

namespace KacheDBConnector

/-- A copy into half of a block of a layer. -/
structure BlockCopy where
  block : ℕ
  layer : ℕ
  half : ℕ

/-- `restoreBlock` with its copies. -/
def restoreBlockTraced (casts : Casts) (m : KacheDBMemoryManager) (lIdx offset bIdx : ℕ) :
    KVLayer → (Except Exc Unit × KVLayer) × List BlockCopy
  | .tensor t =>
    match t.shape.drop 2 with
    | heads :: size :: dim :: _ =>
      match m.readPagedBlock offset [heads, size, dim] .float16 with
      | .error e => ((.error e, .tensor t), [])
      | .ok (kBlock, vBlock) =>
        let target (i : ℕ) := if t.ndim = 5 then [bIdx, i] else [i, bIdx]
        match t.assign casts (target 0) kBlock with
        | .error e => ((.error e, .tensor t), [])
        | .ok t' =>
          match t'.assign casts (target 1) vBlock with
          | .error e => ((.error e, .tensor t'), [⟨bIdx, lIdx, 0⟩])
          | .ok t'' => ((.ok (), .tensor t''), [⟨bIdx, lIdx, 0⟩, ⟨bIdx, lIdx, 1⟩])
    | _ => ((.error .indexError, .tensor t), [])
  | layerKv => ((.error .attributeError, layerKv), [])

/-- `restoreLayers` with its copies, from layer `lIdx` on. -/
def restoreLayersTraced (casts : Casts) (m : KacheDBMemoryManager) (bIdx : ℕ) :
    ℕ → List ℕ → List KVLayer → (Except Exc Unit × List KVLayer) × List BlockCopy
  | lIdx, offset :: layerOffsets, layerKv :: kvCaches =>
    match restoreBlockTraced casts m lIdx offset bIdx layerKv with
    | ((.error e, layerKv'), copies) => ((.error e, layerKv' :: kvCaches), copies)
    | ((.ok _, layerKv'), copies) =>
      let rest := restoreLayersTraced casts m bIdx (lIdx + 1) layerOffsets kvCaches
      ((rest.1.1, layerKv' :: rest.1.2), copies ++ rest.2)
  | _, _, kvCaches => ((.ok (), kvCaches), [])

/-- `restoreBlocks` with its copies. -/
def restoreBlocksTraced (casts : Casts) (m : KacheDBMemoryManager) :
    ℕ → List BlockEntry → List KVLayer → (Except Exc Unit × List KVLayer) × List BlockCopy
  | _, [], kvCaches => ((.ok (), kvCaches), [])
  | bIdx, entry :: matchedBlocks, kvCaches =>
    match restoreLayersTraced casts m bIdx 0 (entry.metadata.layerOffsets.getD []) kvCaches with
    | ((.error e, kvCaches'), copies) => ((.error e, kvCaches'), copies)
    | ((.ok _, kvCaches'), copies) =>
      let rest := restoreBlocksTraced casts m (bIdx + 1) matchedBlocks kvCaches'
      (rest.1, copies ++ rest.2)

/-- `recvKvCachesAndHiddenStates` with its copies. -/
def recvTraced (blake2b : Bytes → UInt64) (casts : Casts) (c : KacheDBConnector)
    (modelInput : ModelInput) (kvCaches : List KVLayer) :
    (Except Exc Bool × List KVLayer) × List BlockCopy :=
  if modelInput.promptTokens = [] then ((.ok false, kvCaches), [])
  else
    match c.prefixCache.findLongestPrefix blake2b modelInput.promptTokens with
    | .error e => ((.error e, kvCaches), [])
    | .ok (matchedTokens, matchedBlocks) =>
      if matchedTokens = 0 then ((.ok false, kvCaches), [])
      else
        match restoreBlocksTraced casts c.memoryManager 0 matchedBlocks kvCaches with
        | ((.error e, kvCaches'), copies) => ((.error e, kvCaches'), copies)
        | ((.ok _, kvCaches'), copies) => ((.ok true, kvCaches'), copies)

/-! ## The log changes nothing -/

variable {casts : Casts} {m : KacheDBMemoryManager}

lemma restoreBlockTraced_fst (lIdx offset bIdx : ℕ) (layerKv : KVLayer) :
    (restoreBlockTraced casts m lIdx offset bIdx layerKv).1 =
      restoreBlock casts m offset bIdx layerKv := by
  cases layerKv with
  | tensor t =>
    simp only [restoreBlockTraced, restoreBlock]
    rcases t.shape.drop 2 with _ | ⟨heads, _ | ⟨size, _ | ⟨dim, rest⟩⟩⟩
    · rfl
    · rfl
    · rfl
    · simp only
      cases m.readPagedBlock offset [heads, size, dim] .float16 with
      | error e => rfl
      | ok kv =>
        simp only
        cases t.assign casts (if t.ndim = 5 then [bIdx, 0] else [0, bIdx]) kv.1 with
        | error e => rfl
        | ok t' =>
          simp only
          cases t'.assign casts (if t.ndim = 5 then [bIdx, 1] else [1, bIdx]) kv.2 with
          | error e => rfl
          | ok t'' => rfl
  | pair k v => rfl
  | indexed k v => rfl

lemma restoreLayersTraced_fst (bIdx lIdx : ℕ) (offsets : List ℕ) (kvCaches : List KVLayer) :
    (restoreLayersTraced casts m bIdx lIdx offsets kvCaches).1 =
      restoreLayers casts m bIdx offsets kvCaches := by
  induction offsets generalizing lIdx kvCaches with
  | nil => simp [restoreLayersTraced, restoreLayers]
  | cons offset offsets ih =>
    rcases kvCaches with _ | ⟨layerKv, kvCaches⟩
    · simp [restoreLayersTraced, restoreLayers]
    · rw [restoreLayersTraced, restoreLayers, ← restoreBlockTraced_fst lIdx]
      rcases restoreBlockTraced casts m lIdx offset bIdx layerKv with ⟨⟨e | _, layerKv'⟩, copies⟩
      · rfl
      · simp only [← ih (lIdx + 1)]

lemma restoreBlocksTraced_fst (bIdx : ℕ) (entries : List BlockEntry) (kvCaches : List KVLayer) :
    (restoreBlocksTraced casts m bIdx entries kvCaches).1 =
      restoreBlocks casts m bIdx entries kvCaches := by
  induction entries generalizing bIdx kvCaches with
  | nil => rfl
  | cons entry entries ih =>
    rw [restoreBlocksTraced, restoreBlocks, ← restoreLayersTraced_fst bIdx 0]
    rcases restoreLayersTraced casts m bIdx 0 (entry.metadata.layerOffsets.getD []) kvCaches with
      ⟨⟨e | _, kvCaches'⟩, copies⟩
    · rfl
    · exact ih _ _

/-- **The log changes nothing.** -/
theorem recvTraced_fst (blake2b : Bytes → UInt64) (c : KacheDBConnector) (modelInput : ModelInput)
    (kvCaches : List KVLayer) :
    (c.recvTraced blake2b casts modelInput kvCaches).1 =
      c.recvKvCachesAndHiddenStates blake2b casts modelInput kvCaches := by
  unfold recvTraced recvKvCachesAndHiddenStates
  split_ifs
  · rfl
  · cases c.prefixCache.findLongestPrefix blake2b modelInput.promptTokens with
    | error e => rfl
    | ok found =>
      simp only
      split_ifs
      · rfl
      · rw [← restoreBlocksTraced_fst]
        rcases restoreBlocksTraced casts c.memoryManager 0 found.2 kvCaches with
          ⟨⟨e | _, kvCaches'⟩, copies⟩
        · rfl
        · rfl

/-! ## What is written -/

/-- Where half of a block stands in a cache, which its number of dimensions says. -/
def blockPath (t : Tensor) (block half : ℕ) : List ℕ :=
  if t.ndim = 5 then [block, half] else [half, block]

@[simp] lemma length_blockPath (t : Tensor) (block half : ℕ) :
    (blockPath t block half).length = 2 := by
  unfold blockPath
  split_ifs <;> rfl

lemma blockPath_inj {t : Tensor} {b b' i i' : ℕ} :
    blockPath t b i = blockPath t b' i' ↔ b = b' ∧ i = i' := by
  unfold blockPath
  split_ifs
  · simp
  · simp [and_comm]

/-- What the pool holds for a block at this offset has been copied into both of its halves. -/
def BlockRestored (casts : Casts) (m : KacheDBMemoryManager) (offset bIdx : ℕ)
    (t t' : Tensor) : Prop :=
  ∃ kv t₁, m.readPagedBlock offset ((t.shape.drop 2).take 3) .float16 = .ok kv ∧
    t.assign casts (blockPath t bIdx 0) kv.1 = .ok t₁ ∧
    t₁.assign casts (blockPath t bIdx 1) kv.2 = .ok t'

/-- A block that is restored is written in both halves. -/
lemma restoreBlockTraced_ok {lIdx offset bIdx : ℕ} {layerKv layerKv' : KVLayer}
    {copies : List BlockCopy}
    (h : restoreBlockTraced casts m lIdx offset bIdx layerKv = ((.ok (), layerKv'), copies)) :
    copies = [⟨bIdx, lIdx, 0⟩, ⟨bIdx, lIdx, 1⟩] ∧ ∃ t t', layerKv = .tensor t ∧
      layerKv' = .tensor t' ∧ BlockRestored casts m offset bIdx t t' := by
  cases layerKv with
  | tensor t =>
    simp only [restoreBlockTraced] at h
    rcases hdrop : t.shape.drop 2 with _ | ⟨heads, _ | ⟨size, _ | ⟨dim, rest⟩⟩⟩
    · simp [hdrop] at h
    · simp [hdrop] at h
    · simp [hdrop] at h
    · simp only [hdrop] at h
      cases hread : m.readPagedBlock offset [heads, size, dim] .float16 with
      | error e => simp [hread] at h
      | ok kv =>
        simp only [hread] at h
        cases hk : t.assign casts (if t.ndim = 5 then [bIdx, 0] else [0, bIdx]) kv.1 with
        | error e => simp [hk] at h
        | ok t₁ =>
          simp only [hk] at h
          cases hv : t₁.assign casts (if t.ndim = 5 then [bIdx, 1] else [1, bIdx]) kv.2 with
          | error e => simp [hv] at h
          | ok t' =>
            simp only [hv, Prod.mk.injEq, true_and] at h
            obtain ⟨rfl, rfl⟩ := h
            refine ⟨rfl, t, t', rfl, rfl, kv, t₁, ?_, hk, hv⟩
            rw [hdrop]
            exact hread
  | pair k v => simp [restoreBlockTraced] at h
  | indexed k v => simp [restoreBlockTraced] at h

/-- What a successful restore of layers does: nothing if there is no layer, and otherwise it
restores the first one and then the others. -/
lemma restoreLayersTraced_cons_ok {bIdx lIdx offset : ℕ} {offsets : List ℕ}
    {kvCaches kvCaches' : List KVLayer} {copies : List BlockCopy}
    (h : restoreLayersTraced casts m bIdx lIdx (offset :: offsets) kvCaches =
      ((.ok (), kvCaches'), copies)) :
    (kvCaches = [] ∧ kvCaches' = [] ∧ copies = []) ∨
      ∃ layerKv rest layerKv' rest' first more, kvCaches = layerKv :: rest ∧
        kvCaches' = layerKv' :: rest' ∧ copies = first ++ more ∧
        restoreBlockTraced casts m lIdx offset bIdx layerKv = ((.ok (), layerKv'), first) ∧
        restoreLayersTraced casts m bIdx (lIdx + 1) offsets rest = ((.ok (), rest'), more) := by
  rcases kvCaches with _ | ⟨layerKv, rest⟩
  · simp only [restoreLayersTraced, Prod.mk.injEq, true_and] at h
    obtain ⟨rfl, rfl⟩ := h
    exact .inl ⟨rfl, rfl, rfl⟩
  · rw [restoreLayersTraced] at h
    rcases hblock : restoreBlockTraced casts m lIdx offset bIdx layerKv with
      ⟨⟨e | _, layerKv'⟩, first⟩
    · simp [hblock] at h
    · rcases hrest : restoreLayersTraced casts m bIdx (lIdx + 1) offsets rest with
        ⟨⟨res, rest'⟩, more⟩
      simp only [hblock, hrest, Prod.mk.injEq] at h
      obtain ⟨⟨rfl, rfl⟩, rfl⟩ := h
      exact .inr ⟨layerKv, rest, layerKv', rest', first, more, rfl, rfl, rfl, hblock, hrest⟩

/-- A successful restore of blocks restores the layers of the first one and then the others. -/
lemma restoreBlocksTraced_cons_ok {bIdx : ℕ} {entry : BlockEntry} {entries : List BlockEntry}
    {kvCaches kvCaches' : List KVLayer} {copies : List BlockCopy}
    (h : restoreBlocksTraced casts m bIdx (entry :: entries) kvCaches =
      ((.ok (), kvCaches'), copies)) :
    ∃ kvCaches₁ first more,
      restoreLayersTraced casts m bIdx 0 (entry.metadata.layerOffsets.getD []) kvCaches =
        ((.ok (), kvCaches₁), first) ∧
      restoreBlocksTraced casts m (bIdx + 1) entries kvCaches₁ = ((.ok (), kvCaches'), more) ∧
      copies = first ++ more := by
  rw [restoreBlocksTraced] at h
  rcases hlayers : restoreLayersTraced casts m bIdx 0 (entry.metadata.layerOffsets.getD [])
    kvCaches with ⟨⟨e | _, kvCaches₁⟩, first⟩
  · simp [hlayers] at h
  · rcases hrest : restoreBlocksTraced casts m (bIdx + 1) entries kvCaches₁ with ⟨res, more⟩
    simp only [hlayers, hrest, Prod.mk.injEq] at h
    obtain ⟨rfl, rfl⟩ := h
    exact ⟨kvCaches₁, first, more, rfl, hrest, rfl⟩

/-- The layers that have an offset are written. -/
lemma mem_restoreLayersTraced {bIdx lIdx : ℕ} {offsets : List ℕ} {kvCaches kvCaches' : List KVLayer}
    {copies : List BlockCopy}
    (h : restoreLayersTraced casts m bIdx lIdx offsets kvCaches = ((.ok (), kvCaches'), copies)) :
    kvCaches'.length = kvCaches.length ∧ ∀ block layer half,
      (⟨block, layer, half⟩ : BlockCopy) ∈ copies ↔ block = bIdx ∧ half < 2 ∧
        ∃ i, layer = lIdx + i ∧ i < offsets.length ∧ i < kvCaches.length := by
  induction offsets generalizing lIdx kvCaches kvCaches' copies with
  | nil =>
    simp only [restoreLayersTraced, Prod.mk.injEq, true_and] at h
    obtain ⟨rfl, rfl⟩ := h
    simp
  | cons offset offsets ih =>
    rcases restoreLayersTraced_cons_ok h with ⟨rfl, rfl, rfl⟩ |
      ⟨layerKv, rest, layerKv', rest', first, more, rfl, rfl, rfl, hblock, hrest⟩
    · simp
    · obtain ⟨hlen, hmem⟩ := ih hrest
      obtain ⟨rfl, -⟩ := restoreBlockTraced_ok hblock
      refine ⟨by simp [hlen], fun block layer half => ?_⟩
      rw [List.mem_append, hmem]
      simp only [List.mem_cons, List.not_mem_nil, or_false, BlockCopy.mk.injEq, List.length_cons]
      constructor
      · rintro ((⟨rfl, rfl, rfl⟩ | ⟨rfl, rfl, rfl⟩) | ⟨rfl, hhalf, i, rfl, hi, hi'⟩)
        · exact ⟨rfl, by omega, 0, rfl, by omega, by omega⟩
        · exact ⟨rfl, by omega, 0, rfl, by omega, by omega⟩
        · exact ⟨rfl, hhalf, i + 1, by omega, by omega, by omega⟩
      · rintro ⟨rfl, hhalf, i, rfl, hi, hi'⟩
        cases i with
        | zero => exact .inl (by omega)
        | succ i => exact .inr ⟨rfl, hhalf, i, by omega, by omega, by omega⟩

/-- The matched blocks are written, each in the layers for which its entry has an offset. -/
lemma mem_restoreBlocksTraced {bIdx : ℕ} {entries : List BlockEntry}
    {kvCaches kvCaches' : List KVLayer} {copies : List BlockCopy}
    (h : restoreBlocksTraced casts m bIdx entries kvCaches = ((.ok (), kvCaches'), copies))
    (block layer half : ℕ) :
    (⟨block, layer, half⟩ : BlockCopy) ∈ copies ↔ half < 2 ∧ layer < kvCaches.length ∧
      ∃ j entry, block = bIdx + j ∧ entries[j]? = some entry ∧
        layer < (entry.metadata.layerOffsets.getD []).length := by
  induction entries generalizing bIdx kvCaches copies with
  | nil =>
    simp only [restoreBlocksTraced, Prod.mk.injEq, true_and] at h
    obtain ⟨-, rfl⟩ := h
    simp
  | cons entry entries ih =>
    obtain ⟨kvCaches₁, first, more, hlayers, hrest, rfl⟩ := restoreBlocksTraced_cons_ok h
    obtain ⟨hlen, hmem⟩ := mem_restoreLayersTraced hlayers
    rw [List.mem_append, hmem, ih hrest, hlen]
    constructor
    · rintro (⟨rfl, hhalf, i, rfl, hoffset, hi⟩ | ⟨hhalf, hlayer, j, entry', rfl, hentry, hoffset⟩)
      · rw [zero_add]
        exact ⟨hhalf, hi, 0, entry, rfl, rfl, hoffset⟩
      · exact ⟨hhalf, hlayer, j + 1, entry', by omega, hentry, hoffset⟩
    · rintro ⟨hhalf, hlayer, j, entry', rfl, hentry, hoffset⟩
      cases j with
      | zero =>
        obtain rfl := Option.some.inj hentry
        exact .inl ⟨rfl, hhalf, layer, (zero_add _).symm, hoffset, hlayer⟩
      | succ j => exact .inr ⟨hhalf, hlayer, j, entry', by omega, hentry, hoffset⟩

/-! ## What is not written -/

/-- `t'` is `t`, apart from the blocks that have been written. -/
def Kept (copies : List BlockCopy) (l : ℕ) (t t' : Tensor) : Prop :=
  (t'.dtype = t.dtype ∧ t'.shape = t.shape) ∧ ∀ b i, (⟨b, l, i⟩ : BlockCopy) ∉ copies →
    t'.select (blockPath t b i) = t.select (blockPath t b i)

/-- A layer is kept: a tensor apart from the blocks that have been written, another object as it
is. -/
inductive LayerKept (copies : List BlockCopy) (l : ℕ) : KVLayer → KVLayer → Prop
  | tensor {t t' : Tensor} (h : Kept copies l t t') : LayerKept copies l (.tensor t) (.tensor t')
  | refl (layerKv : KVLayer) : LayerKept copies l layerKv layerKv

lemma blockPath_congr {t t' : Tensor} (h : t'.shape = t.shape) (b i : ℕ) :
    blockPath t' b i = blockPath t b i := by
  rw [blockPath, blockPath, Tensor.ndim, Tensor.ndim, h]

lemma Kept.refl (copies : List BlockCopy) (l : ℕ) (t : Tensor) : Kept copies l t t :=
  ⟨⟨rfl, rfl⟩, fun _ _ _ => rfl⟩

/-- First these copies and then more. -/
lemma Kept.trans {copies more : List BlockCopy} {l : ℕ} {t t₁ t' : Tensor}
    (h : Kept copies l t t₁) (h' : Kept more l t₁ t') : Kept (copies ++ more) l t t' := by
  obtain ⟨⟨hdtype, hshape⟩, hparts⟩ := h
  obtain ⟨⟨hdtype', hshape'⟩, hparts'⟩ := h'
  refine ⟨⟨hdtype'.trans hdtype, hshape'.trans hshape⟩, fun b i hnot => ?_⟩
  rw [List.mem_append, not_or] at hnot
  rw [← hparts b i hnot.1, ← blockPath_congr hshape, hparts' b i hnot.2]

/-- A tensor that is kept was a tensor. -/
lemma LayerKept.exists_tensor {copies : List BlockCopy} {l : ℕ} {layerKv : KVLayer} {t' : Tensor}
    (h : LayerKept copies l layerKv (.tensor t')) :
    ∃ t, layerKv = .tensor t ∧ Kept copies l t t' := by
  cases h with
  | tensor h => exact ⟨_, rfl, h⟩
  | refl => exact ⟨t', rfl, .refl _ _ t'⟩

/-- A tensor that is kept is a tensor. -/
lemma LayerKept.of_tensor {copies : List BlockCopy} {l : ℕ} {layerKv' : KVLayer} {t : Tensor}
    (h : LayerKept copies l (.tensor t) layerKv') :
    ∃ t', layerKv' = .tensor t' ∧ Kept copies l t t' := by
  cases h with
  | tensor h => exact ⟨_, rfl, h⟩
  | refl => exact ⟨t, rfl, .refl _ _ t⟩

lemma LayerKept.trans {copies more : List BlockCopy} {l : ℕ} {layerKv layerKv₁ layerKv' : KVLayer}
    (h : LayerKept copies l layerKv layerKv₁) (h' : LayerKept more l layerKv₁ layerKv') :
    LayerKept (copies ++ more) l layerKv layerKv' := by
  cases h' with
  | tensor h' =>
    obtain ⟨t, rfl, hkept⟩ := h.exists_tensor
    exact .tensor (hkept.trans h')
  | refl =>
    cases h with
    | tensor h => exact .tensor (h.trans (.refl _ _ _))
    | refl => exact .refl _

/-- Restoring a block keeps the other blocks. -/
lemma restoreBlockTraced_frame {lIdx offset bIdx : ℕ} {layerKv layerKv' : KVLayer}
    {copies : List BlockCopy}
    (h : restoreBlockTraced casts m lIdx offset bIdx layerKv = ((.ok (), layerKv'), copies)) :
    LayerKept copies lIdx layerKv layerKv' := by
  obtain ⟨rfl, t, t', rfl, rfl, kv, t₁, -, hk, hv⟩ := restoreBlockTraced_ok h
  obtain ⟨hdtypeK, hshapeK⟩ := Tensor.assign_type hk
  obtain ⟨hdtypeV, hshapeV⟩ := Tensor.assign_type hv
  refine .tensor ⟨⟨hdtypeV.trans hdtypeK, hshapeV.trans hshapeK⟩, fun b i hnot => ?_⟩
  simp only [List.mem_cons, List.not_mem_nil, or_false, BlockCopy.mk.injEq, true_and,
    not_or] at hnot
  obtain ⟨hkeys, hvalues⟩ := hnot
  rw [Tensor.select_assign_of_ne hv _ (by simp) fun heq => hvalues (blockPath_inj.mp heq),
    Tensor.select_assign_of_ne hk _ (by simp) fun heq => hkeys (blockPath_inj.mp heq)]

/-- Restoring the layers of a block keeps what is not written. -/
lemma restoreLayersTraced_frame {bIdx lIdx : ℕ} {offsets : List ℕ}
    {kvCaches kvCaches' : List KVLayer} {copies : List BlockCopy}
    (h : restoreLayersTraced casts m bIdx lIdx offsets kvCaches = ((.ok (), kvCaches'), copies))
    {i : ℕ} {layerKv : KVLayer} (hget : kvCaches[i]? = some layerKv) :
    ∃ layerKv', kvCaches'[i]? = some layerKv' ∧ LayerKept copies (lIdx + i) layerKv layerKv' := by
  induction offsets generalizing lIdx kvCaches kvCaches' copies i with
  | nil =>
    simp only [restoreLayersTraced, Prod.mk.injEq, true_and] at h
    obtain ⟨rfl, rfl⟩ := h
    exact ⟨layerKv, hget, .refl layerKv⟩
  | cons offset offsets ih =>
    rcases restoreLayersTraced_cons_ok h with ⟨rfl, rfl, rfl⟩ |
      ⟨layerKv₀, rest, layerKv', rest', first, more, rfl, rfl, rfl, hblock, hrest⟩
    · simp at hget
    · cases i with
      | zero =>
        obtain rfl := Option.some.inj hget
        exact ⟨layerKv', rfl, (restoreBlockTraced_frame hblock).trans (.refl layerKv')⟩
      | succ i =>
        obtain ⟨layerKv', hget', hkept⟩ := ih hrest hget
        rw [add_right_comm] at hkept
        exact ⟨layerKv', hget', (LayerKept.refl layerKv).trans hkept⟩

/-- **What is not written stays as it was.** -/
theorem restoreBlocksTraced_frame {bIdx : ℕ} {entries : List BlockEntry}
    {kvCaches kvCaches' : List KVLayer} {copies : List BlockCopy}
    (h : restoreBlocksTraced casts m bIdx entries kvCaches = ((.ok (), kvCaches'), copies))
    {l : ℕ} {layerKv : KVLayer} (hget : kvCaches[l]? = some layerKv) :
    ∃ layerKv', kvCaches'[l]? = some layerKv' ∧ LayerKept copies l layerKv layerKv' := by
  induction entries generalizing bIdx kvCaches layerKv copies with
  | nil =>
    simp only [restoreBlocksTraced, Prod.mk.injEq, true_and] at h
    obtain ⟨rfl, rfl⟩ := h
    exact ⟨layerKv, hget, .refl layerKv⟩
  | cons entry entries ih =>
    obtain ⟨kvCaches₁, first, more, hlayers, hrest, rfl⟩ := restoreBlocksTraced_cons_ok h
    obtain ⟨layerKv₁, hget₁, hkept⟩ := restoreLayersTraced_frame hlayers hget
    obtain ⟨layerKv', hget', hkept'⟩ := ih hrest hget₁
    rw [zero_add] at hkept
    exact ⟨layerKv', hget', hkept.trans hkept'⟩

/-! ## What the written blocks hold -/

/-- Half of a block of a restored cache holds what the pool has at this offset, as `copy_` puts it
into the cache `t`. -/
def Shows (casts : Casts) (m : KacheDBMemoryManager) (offset : ℕ) (t t' : Tensor)
    (block half : ℕ) : Prop :=
  ∃ kv part, m.readPagedBlock offset ((t.shape.drop 2).take 3) .float16 = .ok kv ∧
    (if half = 0 then kv.1 else kv.2).copied casts t.dtype part.shape = some part ∧
    t'.select (blockPath t block half) = .ok part

/-- Both halves of a restored block show what the pool holds for it. -/
lemma BlockRestored.shows {offset bIdx : ℕ} {t t' : Tensor}
    (h : BlockRestored casts m offset bIdx t t') {half : ℕ} (hhalf : half < 2) :
    Shows casts m offset t t' bIdx half := by
  obtain ⟨kv, t₁, hread, hk, hv⟩ := h
  obtain ⟨hdtype, -⟩ := Tensor.assign_type hk
  interval_cases half
  · obtain ⟨o, part, -, hpart, hcopied⟩ := Tensor.select_assign_copied hk
    refine ⟨kv, part, hread, hcopied, ?_⟩
    rw [Tensor.select_assign_of_ne hv _ (by simp) fun heq => by simpa using blockPath_inj.mp heq]
    exact hpart
  · obtain ⟨o, part, -, hpart, hcopied⟩ := Tensor.select_assign_copied hv
    rw [hdtype] at hcopied
    exact ⟨kv, part, hread, hcopied, hpart⟩

/-- The layers of a block that have been restored. -/
lemma restoreLayersTraced_shows {bIdx lIdx offset : ℕ} {offsets : List ℕ}
    {kvCaches kvCaches' : List KVLayer} {copies : List BlockCopy}
    (h : restoreLayersTraced casts m bIdx lIdx offsets kvCaches = ((.ok (), kvCaches'), copies))
    {i : ℕ} (hoffset : offsets[i]? = some offset) (hi : i < kvCaches.length) :
    ∃ t t', kvCaches[i]? = some (.tensor t) ∧ kvCaches'[i]? = some (.tensor t') ∧
      ∀ half < 2, Shows casts m offset t t' bIdx half := by
  induction offsets generalizing lIdx kvCaches kvCaches' copies i with
  | nil => simp at hoffset
  | cons first offsets ih =>
    rcases restoreLayersTraced_cons_ok h with ⟨rfl, rfl, rfl⟩ |
      ⟨layerKv, rest, layerKv', rest', copies₁, more, rfl, rfl, rfl, hblock, hrest⟩
    · simp at hi
    · cases i with
      | zero =>
        obtain rfl := Option.some.inj hoffset
        obtain ⟨-, t, t', rfl, rfl, hrestored⟩ := restoreBlockTraced_ok hblock
        exact ⟨t, t', rfl, rfl, fun half hhalf => hrestored.shows hhalf⟩
      | succ i => exact ih hrest hoffset (by simpa using hi)

/-- Every half of a block that has been written shows what the pool holds for the block. -/
lemma restoreBlocksTraced_shows {bIdx : ℕ} {entries : List BlockEntry}
    {kvCaches kvCaches' : List KVLayer} {copies : List BlockCopy}
    (h : restoreBlocksTraced casts m bIdx entries kvCaches = ((.ok (), kvCaches'), copies))
    {copy : BlockCopy} (hcopy : copy ∈ copies) :
    ∃ t t' entry offset j, kvCaches[copy.layer]? = some (.tensor t) ∧
      kvCaches'[copy.layer]? = some (.tensor t') ∧ copy.block = bIdx + j ∧
      entries[j]? = some entry ∧
      (entry.metadata.layerOffsets.getD [])[copy.layer]? = some offset ∧
      Shows casts m offset t t' copy.block copy.half := by
  induction entries generalizing bIdx kvCaches copies with
  | nil =>
    simp only [restoreBlocksTraced, Prod.mk.injEq, true_and] at h
    obtain ⟨-, rfl⟩ := h
    cases hcopy
  | cons entry entries ih =>
    obtain ⟨kvCaches₁, first, more, hlayers, hrest, rfl⟩ := restoreBlocksTraced_cons_ok h
    obtain ⟨hlen, hmem⟩ := mem_restoreLayersTraced hlayers
    rcases List.mem_append.mp hcopy with hfirst | hmore
    · -- the first block, which is not written again
      obtain ⟨hblock, hhalf, i, hlayer, hoffset, hi⟩ :=
        (hmem copy.block copy.layer copy.half).mp hfirst
      obtain rfl : i = copy.layer := by omega
      obtain ⟨t, t₁, ht, ht₁, hshows⟩ :=
        restoreLayersTraced_shows hlayers (List.getElem?_eq_getElem hoffset) hi
      obtain ⟨layerKv₁, hget₁, hkept₁⟩ := restoreLayersTraced_frame hlayers ht
      obtain rfl := Option.some.inj (ht₁.symm.trans hget₁)
      obtain ⟨t₁', heq, ⟨-, hshape⟩, -⟩ := hkept₁.of_tensor
      obtain rfl := KVLayer.tensor.inj heq
      obtain ⟨layerKv', ht', hkept⟩ := restoreBlocksTraced_frame hrest ht₁
      obtain ⟨t', rfl, -, hparts⟩ := hkept.of_tensor
      have hnot : copy ∉ more := by
        intro hagain
        obtain ⟨-, -, j, entry', hlater, -, -⟩ :=
          (mem_restoreBlocksTraced hrest copy.block copy.layer copy.half).mp hagain
        omega
      obtain ⟨kv, part, hread, hcopied, hpart⟩ := hshows copy.half hhalf
      rw [← hblock, ← blockPath_congr hshape] at hpart
      refine ⟨t, t', entry, _, 0, ht, ht', hblock, rfl, List.getElem?_eq_getElem hoffset, kv, part,
        hread, hcopied, ?_⟩
      rw [← blockPath_congr hshape, hparts _ _ hnot, hpart]
    · obtain ⟨t₁, t', entry', offset, j, ht₁, ht', hblock, hentry, hoffset, hshows⟩ :=
        ih hrest hmore
      have hlt : copy.layer < kvCaches.length :=
        hlen ▸ (List.getElem?_eq_some_iff.mp ht₁).1
      have hget := List.getElem?_eq_getElem hlt
      obtain ⟨layerKv₁, hget₁, hkept⟩ := restoreLayersTraced_frame hlayers hget
      obtain rfl := Option.some.inj (ht₁.symm.trans hget₁)
      obtain ⟨t, ht, ⟨hdtype, hshape⟩, -⟩ := hkept.exists_tensor
      rw [ht] at hget
      refine ⟨t, t', entry', offset, j + 1, hget, ht', by omega, hentry, hoffset, ?_⟩
      rwa [Shows, hshape, hdtype, blockPath_congr hshape] at hshows

/-- The log tells what has become of the caches: half of a block that has been written holds what
the pool has for the matched block, and everything else is as it was. -/
structure BlockCopiesTell (casts : Casts) (m : KacheDBMemoryManager) (entries : List BlockEntry)
    (copies : List BlockCopy) (kvCaches kvCaches' : List KVLayer) : Prop where
  written : ∀ copy ∈ copies, ∃ t t' entry offset, kvCaches[copy.layer]? = some (.tensor t) ∧
    kvCaches'[copy.layer]? = some (.tensor t') ∧ entries[copy.block]? = some entry ∧
    (entry.metadata.layerOffsets.getD [])[copy.layer]? = some offset ∧
    Shows casts m offset t t' copy.block copy.half
  kept : ∀ l layerKv, kvCaches[l]? = some layerKv →
    ∃ layerKv', kvCaches'[l]? = some layerKv' ∧ LayerKept copies l layerKv layerKv'

/-- **The log of a successful restore tells what has become of the caches.** -/
theorem restoreBlocksTraced_tells {entries : List BlockEntry} {kvCaches kvCaches' : List KVLayer}
    {copies : List BlockCopy}
    (h : restoreBlocksTraced casts m 0 entries kvCaches = ((.ok (), kvCaches'), copies)) :
    BlockCopiesTell casts m entries copies kvCaches kvCaches' := by
  constructor
  · intro copy hcopy
    obtain ⟨t, t', entry, offset, j, ht, ht', hblock, hentry, hoffset, hshows⟩ :=
      restoreBlocksTraced_shows h hcopy
    obtain rfl : copy.block = j := by omega
    exact ⟨t, t', entry, offset, ht, ht', hentry, hoffset, hshows⟩
  · exact fun l layerKv hget => restoreBlocksTraced_frame h hget

end KacheDBConnector

end KacheDB
