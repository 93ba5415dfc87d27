import KacheDB.DmaRuns
import KacheDB.Vllm.Hits
import KacheDB.Vllm.LongestPrefix

/-!
# The layout of a call in the pool

Where `send_kv_caches_and_hidden_states` puts the blocks of a prompt none of which is known, if no
write wraps.  The slots stand one behind the other at the write head, block by block and layer by
layer (`offloadBlocks_new`), so that each of them can be found again (`exists_payload`).

`offloadBlocks_congr` says what the call does not look at: the blocks that are known already.
-/

namespace KacheDB

open Foundation KacheDBPrefixCache KacheDBMemoryManager

/-! ## Slots one behind the other -/

/-- The manager with slots behind its write head. -/
def KacheDBMemoryManager.extend (m : KacheDBMemoryManager) (slots : List Bytes) :
    KacheDBMemoryManager :=
  { m with
    buf := splice m.buf m.writeHead slots.flatten
    writeHead := m.writeHead + slots.flatten.length }

/-- The descriptor of a layer of a block. -/
def layerDescriptor (prefixH : UInt64) (lIdx : ℕ) (kv : Tensor × Tensor) : TensorBlockDescriptor :=
  blockDescriptor (kv.1.shape.getD 0 0) (kv.1.shape.getD 1 0) (kv.1.shape.getD 2 0)
    (TensorCodec.dtypeInfo kv.1.dtype).1 lIdx prefixH (kv.1.data.length + kv.2.data.length)

/-- The slot of a layer of a block. -/
def layerSlot (prefixH : UInt64) (lIdx : ℕ) (kv : Tensor × Tensor) : Bytes :=
  slotBytes (layerDescriptor prefixH lIdx kv) kv.1 kv.2

/-- The slots of the layers of a block, from layer `lIdx` on. -/
def layerSlots (prefixH : UInt64) : ℕ → List (Tensor × Tensor) → List Bytes
  | _, [] => []
  | lIdx, kv :: kvs => layerSlot prefixH lIdx kv :: layerSlots prefixH (lIdx + 1) kvs

/-- The slots of all layers of blocks, from block `bIdx` on. -/
def blockSlots (kvs : ℕ → List (Tensor × Tensor)) : ℕ → List UInt64 → List Bytes
  | _, [] => []
  | bIdx, prefixH :: hashes =>
    layerSlots prefixH 0 (kvs bIdx) ++ blockSlots kvs (bIdx + 1) hashes

@[simp] lemma length_layerSlot (prefixH : UInt64) (lIdx : ℕ) (kv : Tensor × Tensor) :
    (layerSlot prefixH lIdx kv).length = slotSize kv :=
  length_slotBytes _ _ _

@[simp] lemma length_layerSlots (prefixH : UInt64) (lIdx : ℕ) (kvs : List (Tensor × Tensor)) :
    (layerSlots prefixH lIdx kvs).length = kvs.length := by
  induction kvs generalizing lIdx with
  | nil => rfl
  | cons kv kvs ih => rw [layerSlots, List.length_cons, List.length_cons, ih]

@[simp] lemma length_flatten_layerSlots (prefixH : UInt64) (lIdx : ℕ)
    (kvs : List (Tensor × Tensor)) :
    (layerSlots prefixH lIdx kvs).flatten.length = (kvs.map slotSize).sum := by
  induction kvs generalizing lIdx with
  | nil => rfl
  | cons kv kvs ih =>
    rw [layerSlots, List.flatten_cons, List.length_append, length_layerSlot, ih, List.map_cons,
      List.sum_cons]

lemma layerSlots_append (prefixH : UInt64) (lIdx : ℕ) (kvs kvs' : List (Tensor × Tensor)) :
    layerSlots prefixH lIdx (kvs ++ kvs') =
      layerSlots prefixH lIdx kvs ++ layerSlots prefixH (lIdx + kvs.length) kvs' := by
  induction kvs generalizing lIdx with
  | nil => rfl
  | cons kv kvs ih =>
    rw [List.cons_append, layerSlots, ih, layerSlots, List.length_cons, List.cons_append]
    rw [show lIdx + 1 + kvs.length = lIdx + (kvs.length + 1) by omega]

/-- Only the blocks of the prompt matter, from block `bIdx` on. -/
lemma blockSlots_congr {kvs kvs' : ℕ → List (Tensor × Tensor)} {bIdx : ℕ} {hashes : List UInt64}
    (h : ∀ b, bIdx ≤ b → b < bIdx + hashes.length → kvs b = kvs' b) :
    blockSlots kvs bIdx hashes = blockSlots kvs' bIdx hashes := by
  induction hashes generalizing bIdx with
  | nil => rfl
  | cons prefixH hashes ih =>
    rw [List.length_cons] at h
    rw [blockSlots, blockSlots, h bIdx le_rfl (by omega),
      ih fun b hle hlt => h b (by omega) (by omega)]

section Extend

variable {m : KacheDBMemoryManager}

@[simp] lemma extend_nil (m : KacheDBMemoryManager) : m.extend [] = m := by
  simp [extend, splice]

/-- Slots behind slots. -/
lemma extend_extend {slots : List Bytes}
    (h : m.writeHead + slots.flatten.length ≤ m.buf.length) (more : List Bytes) :
    (m.extend slots).extend more = m.extend (slots ++ more) := by
  simp only [extend, List.flatten_append, List.length_append, splice_splice h, add_assoc]

/-- The pool keeps its length. -/
lemma length_buf_extend {slots : List Bytes}
    (h : m.writeHead + slots.flatten.length ≤ m.buf.length) :
    (m.extend slots).buf.length = m.buf.length :=
  length_splice h

/-- A write that does not wrap puts its slot at the write head. -/
lemma writePagedBlock_extend {kv : Tensor × Tensor} (hdims : 3 ≤ kv.1.shape.length)
    (hbuf : m.poolSizeBytes ≤ m.buf.length)
    (hroom : m.writeHead + slotSize kv ≤ m.poolSizeBytes) (lIdx : ℕ) (prefixH : UInt64)
    (bIdx : ℕ) : ∃ size desc, m.writePagedBlock kv.1 kv.2 lIdx prefixH bIdx =
      (.ok (m.writeHead, size, desc), m.extend [layerSlot prefixH lIdx kv]) := by
  rcases hshape : kv.1.shape with _ | ⟨heads, _ | ⟨size, _ | ⟨dim, more⟩⟩⟩
  · simp [hshape] at hdims
  · simp [hshape] at hdims
  · simp [hshape] at hdims
  · have hslot : layerSlot prefixH lIdx kv = slotBytes (blockDescriptor heads size dim
        (TensorCodec.dtypeInfo kv.1.dtype).1 lIdx prefixH
          (kv.1.data.length + kv.2.data.length)) kv.1 kv.2 := by
      rw [layerSlot, layerDescriptor, hshape]
      rfl
    have hplace : m.writeHead = RingBuffer.place m.poolSizeBytes m.writeHead
        (layerSlot prefixH lIdx kv).length := by
      rw [length_layerSlot, RingBuffer.place, if_neg (by omega)]
    rw [hslot] at hplace
    rw [extend, List.flatten_singleton, hslot]
    exact ⟨_, _, m.writePagedBlock_eq hshape lIdx prefixH bIdx hbuf
      ((Nat.le_add_left _ _).trans hroom) rfl hplace⟩

end Extend

/-! ## A call with new blocks -/

/-- The tensors of these blocks have three dimensions or more. -/
def ThreeDims (kvs : List (Tensor × Tensor)) : Prop :=
  ∀ kv ∈ kvs, 3 ≤ kv.1.shape.length

/-- Offloading the layers of one block, if no write wraps. -/
lemma offloadLayers_new {m : KacheDBMemoryManager} {blockSize bIdx : ℕ} {kvCaches : List KVLayer}
    {kvs : List (Tensor × Tensor)}
    (hblocks : kvCaches.map (KVLayer.block blockSize bIdx) = kvs.map Except.ok)
    (hdims : ThreeDims kvs) (hbuf : m.poolSizeBytes ≤ m.buf.length)
    (hroom : m.writeHead + (kvs.map slotSize).sum ≤ m.poolSizeBytes) (prefixH : UInt64)
    (lIdx : ℕ) :
    KacheDBConnector.offloadLayers blockSize bIdx prefixH lIdx kvCaches m =
      (.ok (starts m.writeHead (layerSlots prefixH lIdx kvs)),
        m.extend (layerSlots prefixH lIdx kvs)) := by
  induction kvs generalizing m kvCaches lIdx with
  | nil =>
    rw [List.map_nil, List.map_eq_nil_iff] at hblocks
    rw [hblocks, layerSlots, extend_nil]
    rfl
  | cons kv kvs ih =>
    cases kvCaches with
    | nil => cases hblocks
    | cons layerKv kvCaches =>
      rw [List.map_cons, List.map_cons, List.cons.injEq] at hblocks
      obtain ⟨hfirst, hrest⟩ := List.forall_mem_cons.mp hdims
      rw [List.map_cons, List.sum_cons] at hroom
      obtain ⟨size, desc, hwrite⟩ :=
        writePagedBlock_extend hfirst hbuf (by omega) lIdx prefixH bIdx
      have hlen : [layerSlot prefixH lIdx kv].flatten.length = slotSize kv := by simp
      have hfit : m.writeHead + [layerSlot prefixH lIdx kv].flatten.length ≤ m.buf.length := by
        omega
      have hhead : (m.extend [layerSlot prefixH lIdx kv]).writeHead =
          m.writeHead + slotSize kv := by rw [extend, hlen]
      have hmore := ih (m := m.extend [layerSlot prefixH lIdx kv]) hblocks.2 hrest
        (hbuf.trans (length_buf_extend hfit).ge)
        (by rw [hhead, add_assoc]; exact hroom) (lIdx + 1)
      rw [extend_extend hfit, hhead] at hmore
      rw [KacheDBConnector.offloadLayers, hblocks.1]
      simp only [hwrite, hmore, layerSlots, starts, List.singleton_append, length_layerSlot]

/-- Offloading blocks none of which is known, if no write wraps. -/
lemma offloadBlocks_new {kvCaches : List KVLayer} {kvs : ℕ → List (Tensor × Tensor)} {total : ℕ}
    {hashes : List UInt64} {bIdx : ℕ} {c : KacheDBConnector}
    (hblocks : ∀ b, bIdx ≤ b → b < bIdx + hashes.length →
      kvCaches.map (KVLayer.block c.blockSize b) = (kvs b).map Except.ok)
    (hdims : ∀ b, ThreeDims (kvs b)) (htotal : ∀ b, bIdx ≤ b → b < bIdx + hashes.length →
      ((kvs b).map slotSize).sum = total)
    (hnodup : hashes.Nodup) (hnew : ∀ x ∈ hashes, c.prefixCache.lookupBlock x = none)
    (hbuf : c.memoryManager.poolSizeBytes ≤ c.memoryManager.buf.length)
    (hroom : c.memoryManager.writeHead + hashes.length * total ≤ c.memoryManager.poolSizeBytes) :
    ∃ cache, KacheDBConnector.offloadBlocks kvCaches bIdx hashes c =
        (.ok (), { c with
          prefixCache := cache
          memoryManager := c.memoryManager.extend (blockSlots kvs bIdx hashes) }) ∧
      ∀ j x, hashes[j]? = some x → cache.lookupBlock x = some
        ⟨bIdx + j, c.blockSize,
          ⟨some (starts (c.memoryManager.writeHead + j * total) (layerSlots x 0 (kvs (bIdx + j)))),
            some kvCaches.length⟩⟩ := by
  induction hashes generalizing bIdx c with
  | nil => exact ⟨c.prefixCache, by simp [KacheDBConnector.offloadBlocks, blockSlots], by simp⟩
  | cons first hashes ih =>
    obtain ⟨hfirst, hnodup⟩ := List.nodup_cons.mp hnodup
    obtain ⟨hnone, hnew⟩ := List.forall_mem_cons.mp hnew
    rw [List.length_cons] at hblocks htotal hroom
    have hsum := htotal bIdx le_rfl (by omega)
    rw [add_mul, one_mul] at hroom
    have hlayers := offloadLayers_new (hblocks bIdx le_rfl (by omega)) (hdims bIdx) hbuf
      (by omega) first 0
    have hlen : (layerSlots first 0 (kvs bIdx)).flatten.length = total := by
      rw [length_flatten_layerSlots, hsum]
    have hfit : c.memoryManager.writeHead + (layerSlots first 0 (kvs bIdx)).flatten.length ≤
        c.memoryManager.buf.length := by omega
    -- the connector after the first block
    let c₁ : KacheDBConnector :=
      { c with
        memoryManager := c.memoryManager.extend (layerSlots first 0 (kvs bIdx))
        prefixCache := c.prefixCache.registerBlock first bIdx c.blockSize
          ⟨some (starts c.memoryManager.writeHead (layerSlots first 0 (kvs bIdx))),
            some kvCaches.length⟩ }
    have hnew₁ (x : UInt64) (hx : x ∈ hashes) : c₁.prefixCache.lookupBlock x = none := by
      have hne : x ≠ first := by
        rintro rfl
        exact hfirst hx
      exact (Dict.get_set_of_ne _ hne _).trans (hnew x hx)
    obtain ⟨cache, hrest, hentries⟩ := @ih (bIdx + 1) c₁
      (fun b hle hlt => hblocks b (by omega) (by omega))
      (fun b hle hlt => htotal b (by omega) (by omega)) hnodup hnew₁
      (hbuf.trans (length_buf_extend hfit).ge) (by simp only [c₁, extend, hlen]; omega)
    have hcall : KacheDBConnector.offloadBlocks kvCaches bIdx (first :: hashes) c =
        KacheDBConnector.offloadBlocks kvCaches (bIdx + 1) hashes c₁ := by
      rw [KacheDBConnector.offloadBlocks]
      simp only [hnone, hlayers]
      rfl
    refine ⟨cache, ?_, fun j x hx => ?_⟩
    · rw [hcall, hrest]
      simp only [c₁, extend_extend hfit, blockSlots]
    · cases j with
      | zero =>
        obtain rfl := Option.some.inj hx
        have hkept := (offloadBlocks_index hrest).2.2.1 first _ (Dict.get_set_self _ _ _)
        rw [zero_mul, add_zero, add_zero]
        exact hkept
      | succ j =>
        rw [hentries j x hx]
        simp only [c₁, extend, hlen]
        rw [show bIdx + 1 + j = bIdx + (j + 1) by omega,
          show c.memoryManager.writeHead + total + j * total =
            c.memoryManager.writeHead + (j + 1) * total by ring]

/-! ## Where a block is -/

/-- The offset of a layer among those of its block. -/
lemma getElem?_starts_layerSlots (o : ℕ) (x : UInt64) (before : List (Tensor × Tensor))
    (kv : Tensor × Tensor) (after : List (Tensor × Tensor)) :
    (starts o (layerSlots x 0 (before ++ kv :: after)))[before.length]? =
      some (o + (before.map slotSize).sum) := by
  have hpart := getElem?_starts o (layerSlots x 0 before) (layerSlot x (0 + before.length) kv)
    (layerSlots x (0 + before.length + 1) after)
  rwa [length_layerSlots, length_flatten_layerSlots, ← layerSlots, ← layerSlots_append] at hpart

/-- The payload of a layer of the first block, and what stands in front of it and behind it. -/
lemma flatten_blockSlots_cons {kvs : ℕ → List (Tensor × Tensor)} {bIdx : ℕ}
    {before after : List (Tensor × Tensor)} {kv : Tensor × Tensor}
    (hkvs : kvs bIdx = before ++ kv :: after) (x : UInt64) (hashes : List UInt64) :
    (blockSlots kvs bIdx (x :: hashes)).flatten =
      ((layerSlots x 0 before).flatten ++ (layerDescriptor x before.length kv).toBytes) ++
        ((kv.1.data ++ kv.2.data) ++ ((layerSlots x (before.length + 1) after).flatten ++
          (blockSlots kvs (bIdx + 1) hashes).flatten)) := by
  rw [blockSlots, hkvs, layerSlots_append, layerSlots, zero_add]
  simp only [List.flatten_append, List.flatten_cons, layerSlot, slotBytes, List.append_assoc]

/-- The payload of a layer of any block. -/
lemma exists_payload {kvs : ℕ → List (Tensor × Tensor)} {total : ℕ} {hashes : List UInt64}
    {bIdx : ℕ} (htotal : ∀ b, bIdx ≤ b → b < bIdx + hashes.length →
      ((kvs b).map slotSize).sum = total) {j : ℕ} (hj : j < hashes.length)
    {before after : List (Tensor × Tensor)} {kv : Tensor × Tensor}
    (hkvs : kvs (bIdx + j) = before ++ kv :: after) :
    ∃ front back, (blockSlots kvs bIdx hashes).flatten =
        front ++ ((kv.1.data ++ kv.2.data) ++ back) ∧
      front.length = j * total + (before.map slotSize).sum + TensorBlockDescriptor.sizeof := by
  induction hashes generalizing bIdx j with
  | nil => cases hj
  | cons x hashes ih =>
    cases j with
    | zero =>
      refine ⟨_, _, flatten_blockSlots_cons hkvs x hashes, ?_⟩
      rw [List.length_append, length_flatten_layerSlots, TensorBlockDescriptor.length_toBytes,
        zero_mul, zero_add]
    | succ j =>
      rw [List.length_cons] at htotal hj
      obtain ⟨front, back, hflat, hlen⟩ := @ih (bIdx + 1)
        (fun b hle hlt => htotal b (by omega) (by omega)) j (by omega)
        (by rw [← hkvs]; congr 1; omega)
      refine ⟨(layerSlots x 0 (kvs bIdx)).flatten ++ front, back, ?_, ?_⟩
      · rw [blockSlots, List.flatten_append, hflat]
        simp only [List.append_assoc]
      · rw [List.length_append, length_flatten_layerSlots, htotal bIdx le_rfl (by omega), hlen]
        ring

/-- All slots together. -/
lemma length_flatten_blockSlots {kvs : ℕ → List (Tensor × Tensor)} {total : ℕ}
    {hashes : List UInt64} {bIdx : ℕ} (htotal : ∀ b, bIdx ≤ b → b < bIdx + hashes.length →
      ((kvs b).map slotSize).sum = total) :
    (blockSlots kvs bIdx hashes).flatten.length = hashes.length * total := by
  induction hashes generalizing bIdx with
  | nil => simp [blockSlots]
  | cons x hashes ih =>
    rw [List.length_cons] at htotal ⊢
    rw [blockSlots, List.flatten_append, List.length_append, length_flatten_layerSlots,
      htotal bIdx le_rfl (by omega), @ih (bIdx + 1) fun b hle hlt => htotal b (by omega) (by omega)]
    ring

/-! ## What a call does not look at -/

/-- Layers with the same block are offloaded the same. -/
lemma offloadLayers_congr {blockSize bIdx : ℕ} {kvCaches kvCaches' : List KVLayer}
    (h : kvCaches.map (KVLayer.block blockSize bIdx) = kvCaches'.map (KVLayer.block blockSize bIdx))
    (prefixH : UInt64) (lIdx : ℕ) (m : KacheDBMemoryManager) :
    KacheDBConnector.offloadLayers blockSize bIdx prefixH lIdx kvCaches m =
      KacheDBConnector.offloadLayers blockSize bIdx prefixH lIdx kvCaches' m := by
  induction kvCaches generalizing kvCaches' lIdx m with
  | nil => rw [List.map_eq_nil_iff.mp h.symm]
  | cons layerKv kvCaches ih =>
    cases kvCaches' with
    | nil => cases h
    | cons layerKv' kvCaches' =>
      rw [List.map_cons, List.map_cons, List.cons.injEq] at h
      simp only [KacheDBConnector.offloadLayers, h.1, ih h.2]

/-- Caches that have the same blocks, where these are not known already, are offloaded the same. -/
lemma offloadBlocks_congr {kvCaches kvCaches' : List KVLayer} {hashes : List UInt64} {bIdx : ℕ}
    {c : KacheDBConnector} (hlen : kvCaches.length = kvCaches'.length)
    (h : ∀ j x, hashes[j]? = some x → c.prefixCache.lookupBlock x = none →
      kvCaches.map (KVLayer.block c.blockSize (bIdx + j)) =
        kvCaches'.map (KVLayer.block c.blockSize (bIdx + j))) :
    KacheDBConnector.offloadBlocks kvCaches bIdx hashes c =
      KacheDBConnector.offloadBlocks kvCaches' bIdx hashes c := by
  induction hashes generalizing bIdx c with
  | nil => rfl
  | cons first hashes ih =>
    -- the later blocks, after a call that knows no fewer blocks
    have hlater (c₁ : KacheDBConnector) (hsize : c₁.blockSize = c.blockSize)
        (hknown : ∀ x, c₁.prefixCache.lookupBlock x = none → c.prefixCache.lookupBlock x = none) :
        KacheDBConnector.offloadBlocks kvCaches (bIdx + 1) hashes c₁ =
          KacheDBConnector.offloadBlocks kvCaches' (bIdx + 1) hashes c₁ := by
      refine ih fun j x hx hnone => ?_
      rw [hsize, show bIdx + 1 + j = bIdx + (j + 1) by omega]
      exact h (j + 1) x hx (hknown x hnone)
    rw [KacheDBConnector.offloadBlocks, KacheDBConnector.offloadBlocks]
    cases hlookup : c.prefixCache.lookupBlock first with
    | some entry => exact hlater c rfl fun _ hx => hx
    | none =>
      have hfirst := offloadLayers_congr (h 0 first rfl hlookup) first 0 c.memoryManager
      rw [add_zero] at hfirst
      simp only [hfirst, hlen]
      rcases KacheDBConnector.offloadLayers c.blockSize bIdx first 0 kvCaches' c.memoryManager with
        ⟨e | offsets, m⟩
      · rfl
      · refine hlater _ rfl fun x hx => ?_
        by_cases heq : x = first
        · exact heq ▸ hlookup
        · exact (Dict.get_set_of_ne _ heq _).symm.trans hx

/-- Blocks that are known are not offloaded. -/
lemma offloadBlocks_of_known {kvCaches : List KVLayer} {hashes : List UInt64} {bIdx : ℕ}
    {c : KacheDBConnector} (h : ∀ x ∈ hashes, (c.prefixCache.lookupBlock x).isSome) :
    KacheDBConnector.offloadBlocks kvCaches bIdx hashes c = (.ok (), c) := by
  induction hashes generalizing bIdx with
  | nil => rfl
  | cons first hashes ih =>
    obtain ⟨hfirst, hrest⟩ := List.forall_mem_cons.mp h
    obtain ⟨entry, hentry⟩ := Option.isSome_iff_exists.mp hfirst
    rw [KacheDBConnector.offloadBlocks]
    simp only [hentry]
    exact ih hrest

/-! ## What is registered -/

/-- There is an offset for each layer. -/
lemma length_offloadLayers {blockSize bIdx lIdx : ℕ} {prefixH : UInt64} {kvCaches : List KVLayer}
    {m m' : KacheDBMemoryManager} {offsets : List ℕ}
    (h : KacheDBConnector.offloadLayers blockSize bIdx prefixH lIdx kvCaches m =
      (.ok offsets, m')) : offsets.length = kvCaches.length := by
  induction kvCaches generalizing lIdx m m' offsets with
  | nil =>
    obtain ⟨hok, -⟩ := Prod.mk.inj h
    rw [← Except.ok.inj hok]
    rfl
  | cons layerKv kvCaches ih =>
    rw [KacheDBConnector.offloadLayers] at h
    rcases hblock : layerKv.block blockSize bIdx with e | ⟨k, v⟩
    · simp [hblock] at h
    · rcases hwrite : m.writePagedBlock k v lIdx prefixH bIdx with ⟨e | ⟨offset, size, desc⟩, m₁⟩
      · simp [hblock, hwrite] at h
      · rcases hrest : KacheDBConnector.offloadLayers blockSize bIdx prefixH (lIdx + 1) kvCaches m₁
          with ⟨e | rest, m₂⟩
        · simp [hblock, hwrite, hrest] at h
        · simp only [hblock, hwrite, hrest, Prod.mk.injEq, Except.ok.injEq] at h
          rw [← h.1, List.length_cons, List.length_cons, ih hrest]

/-- A new entry has an offset for each layer. -/
lemma length_layerOffsets_of_new {kvCaches : List KVLayer} {bIdx : ℕ} {hashes : List UInt64}
    {c c' : KacheDBConnector}
    (h : KacheDBConnector.offloadBlocks kvCaches bIdx hashes c = (.ok (), c')) {x : UInt64}
    {entry : BlockEntry} (hnone : c.prefixCache.lookupBlock x = none)
    (hentry : c'.prefixCache.lookupBlock x = some entry) :
    (entry.metadata.layerOffsets.getD []).length = kvCaches.length := by
  induction hashes generalizing bIdx c with
  | nil =>
    obtain rfl := (Prod.mk.inj h).2
    rw [hnone] at hentry
    cases hentry
  | cons first hashes ih =>
    rw [KacheDBConnector.offloadBlocks] at h
    cases hlookup : c.prefixCache.lookupBlock first with
    | some entry₀ =>
      simp only [hlookup] at h
      exact ih h hnone
    | none =>
      simp only [hlookup] at h
      rcases hlayers : KacheDBConnector.offloadLayers c.blockSize bIdx first 0 kvCaches
        c.memoryManager with ⟨e | offsets, m⟩
      · simp [hlayers] at h
      · simp only [hlayers] at h
        by_cases heq : x = first
        · subst heq
          have hkept := (offloadBlocks_index h).2.2.1 x _ (Dict.get_set_self _ _ _)
          rw [hkept] at hentry
          obtain rfl := Option.some.inj hentry
          exact length_offloadLayers hlayers
        · exact ih h ((Dict.get_set_of_ne _ heq _).trans hnone)

/-! ## After any calls -/

/-- What holds of a connector after any calls for these prompts: the pool has its size at least,
and where a prefix of blocks is known, its first block is. -/
structure Sound (blake2b : Bytes → UInt64) (blockSize poolSizeBytes : ℕ)
    (prompts : List (List ℤ)) (c : KacheDBConnector) : Prop where
  sizes : c.blockSize = blockSize ∧ c.prefixCache.blockSize = blockSize
  pool : c.memoryManager.poolSizeBytes = poolSizeBytes ∧
    poolSizeBytes ≤ c.memoryManager.buf.length
  known : ∀ x entry, c.prefixCache.lookupBlock x = some entry → ∃ chunk blocks,
    PrefixOf blockSize prompts (chunk :: blocks) ∧ x = prefixHash blake2b (chunk :: blocks) ∧
      (c.prefixCache.lookupBlock (prefixHash blake2b [chunk])).isSome

/-- Offloading layers keeps the size of the pool. -/
lemma offloadLayers_pool {blockSize bIdx lIdx : ℕ} {prefixH : UInt64} {kvCaches : List KVLayer}
    {m m' : KacheDBMemoryManager} {res : Except Exc (List ℕ)}
    (h : KacheDBConnector.offloadLayers blockSize bIdx prefixH lIdx kvCaches m = (res, m')) :
    m'.poolSizeBytes = m.poolSizeBytes ∧ m.buf.length ≤ m'.buf.length := by
  induction kvCaches generalizing lIdx m m' res with
  | nil =>
    obtain ⟨-, rfl⟩ := Prod.mk.inj h
    exact ⟨rfl, le_rfl⟩
  | cons layerKv kvCaches ih =>
    rw [KacheDBConnector.offloadLayers] at h
    rcases hblock : layerKv.block blockSize bIdx with e | ⟨k, v⟩
    · simp only [hblock, Prod.mk.injEq] at h
      obtain ⟨-, rfl⟩ := h
      exact ⟨rfl, le_rfl⟩
    · have hpool := poolSizeBytes_write m ⟨k, v, lIdx, prefixH, bIdx⟩
      have hlen := le_length_buf_write m ⟨k, v, lIdx, prefixH, bIdx⟩
      simp only [write] at hpool hlen
      rcases hwrite : m.writePagedBlock k v lIdx prefixH bIdx with ⟨e | ⟨offset, size, desc⟩, m₁⟩
      · rw [hwrite] at hpool hlen
        simp only [hblock, hwrite, Prod.mk.injEq] at h
        obtain ⟨-, rfl⟩ := h
        exact ⟨hpool, hlen⟩
      · rw [hwrite] at hpool hlen
        rcases hrest : KacheDBConnector.offloadLayers blockSize bIdx prefixH (lIdx + 1) kvCaches m₁
          with ⟨res', m₂⟩
        obtain ⟨hpool₂, hlen₂⟩ := ih hrest
        have hm : m₂ = m' := by
          rcases res' with e | rest
          · simp only [hblock, hwrite, hrest, Prod.mk.injEq] at h
            exact h.2
          · simp only [hblock, hwrite, hrest, Prod.mk.injEq] at h
            exact h.2
        subst hm
        exact ⟨hpool₂.trans hpool, hlen.trans hlen₂⟩

section Sound

variable {blake2b : Bytes → UInt64} {blockSize poolSizeBytes : ℕ} {prompts : List (List ℤ)}
  {c : KacheDBConnector}

/-- Sending the rest of a prompt, whether it succeeds or not. -/
lemma Sound.offloadBlocks (h : Sound blake2b blockSize poolSizeBytes prompts c)
    (kvCaches : List KVLayer) {sent rest : List (List ℤ)}
    (hrest : PrefixOf blockSize prompts (sent ++ rest))
    (hsent : ∀ chunk ∈ sent.head?,
      (c.prefixCache.lookupBlock (prefixHash blake2b [chunk])).isSome) :
    Sound blake2b blockSize poolSizeBytes prompts
      (KacheDBConnector.offloadBlocks kvCaches sent.length
        (HashChain.hashes blake2b blockBuffer (prefixHash blake2b sent) rest) c).2 := by
  induction rest generalizing sent c with
  | nil => exact h
  | cons chunk rest ih =>
    have hassoc : sent ++ chunk :: rest = (sent ++ [chunk]) ++ rest := by simp
    rw [hassoc] at hrest
    have hblocks : PrefixOf blockSize prompts (sent ++ [chunk]) :=
      hrest.of_isPrefix (List.prefix_append _ _)
    have hlen : sent.length + 1 = (sent ++ [chunk]).length := by simp
    rw [HashChain.hashes, ← prefixHash_concat blake2b, KacheDBConnector.offloadBlocks, hlen]
    cases hlookup : c.prefixCache.lookupBlock (prefixHash blake2b (sent ++ [chunk])) with
    | some entry =>
      refine ih h hrest fun first hfirst => ?_
      rcases sent with _ | ⟨chunk₀, sent⟩
      · obtain rfl := Option.some.inj hfirst
        exact Option.isSome_iff_exists.mpr ⟨entry, hlookup⟩
      · exact hsent first hfirst
    | none =>
      rcases hlayers : KacheDBConnector.offloadLayers c.blockSize sent.length
        (prefixHash blake2b (sent ++ [chunk])) 0 kvCaches c.memoryManager with ⟨e | offsets, m⟩
      · obtain ⟨hpool, hbuf⟩ := offloadLayers_pool hlayers
        exact ⟨h.sizes, ⟨hpool.trans h.pool.1, h.pool.2.trans hbuf⟩, h.known⟩
      · obtain ⟨hpool, hbuf⟩ := offloadLayers_pool hlayers
        -- the first block of this prompt is known after the call
        obtain ⟨first, blocks, hfirst⟩ : ∃ first blocks, sent ++ [chunk] = first :: blocks := by
          cases sent with
          | nil => exact ⟨chunk, [], rfl⟩
          | cons chunk₀ sent => exact ⟨chunk₀, sent ++ [chunk], rfl⟩
        have hset (x : UInt64) (entry : BlockEntry)
            (hx : (c.prefixCache.lookupBlock x).isSome ∨
              x = prefixHash blake2b (sent ++ [chunk])) :
            ((c.prefixCache.index.set (prefixHash blake2b (sent ++ [chunk])) entry).get
              x).isSome := by
          by_cases heq : x = prefixHash blake2b (sent ++ [chunk])
          · rw [heq, Dict.get_set_self]
            rfl
          · rw [Dict.get_set_of_ne _ heq]
            exact hx.resolve_right heq
        have hhead : (c.prefixCache.lookupBlock (prefixHash blake2b [first])).isSome ∨
            prefixHash blake2b [first] = prefixHash blake2b (sent ++ [chunk]) := by
          cases sent with
          | nil =>
            obtain ⟨rfl, -⟩ := List.cons.inj hfirst
            exact .inr rfl
          | cons chunk₀ sent =>
            obtain ⟨rfl, -⟩ := List.cons.inj hfirst
            exact .inl (hsent _ rfl)
        let c₁ : KacheDBConnector :=
          { c with
            memoryManager := m
            prefixCache := c.prefixCache.registerBlock (prefixHash blake2b (sent ++ [chunk]))
              sent.length c.blockSize ⟨some offsets, some kvCaches.length⟩ }
        refine ih (c := c₁) ⟨h.sizes, ⟨hpool.trans h.pool.1, h.pool.2.trans hbuf⟩,
          fun x entry hx => ?_⟩ hrest fun chunk' hchunk' => ?_
        · by_cases heq : x = prefixHash blake2b (sent ++ [chunk])
          · exact ⟨first, blocks, hfirst ▸ hblocks, hfirst ▸ heq, hset _ _ hhead⟩
          · have hold := (Dict.get_set_of_ne _ heq _).symm.trans hx
            obtain ⟨first', blocks', hprefix, hname, hknown⟩ := h.known x entry hold
            exact ⟨first', blocks', hprefix, hname, hset _ _ (.inl hknown)⟩
        · rw [hfirst] at hchunk'
          obtain rfl := Option.some.inj hchunk'
          exact hset _ _ hhead

/-- A call. -/
lemma Sound.step (h : Sound blake2b blockSize poolSizeBytes prompts c) {op : ConnectorOp}
    (hprompt : op.promptTokens ∈ prompts) :
    Sound blake2b blockSize poolSizeBytes prompts (c.step blake2b op) := by
  cases op with
  | recv modelInput kvCaches => exact h
  | send modelInput kvCaches =>
    simp only [KacheDBConnector.step, KacheDBConnector.sendKvCachesAndHiddenStates,
      KacheDBPrefixCache.computeSequenceHashes, h.sizes.2]
    split_ifs
    · exact h
    · exact h
    · by_cases hpack : Packable (chunks blockSize modelInput.promptTokens)
      · rw [chainHashes_of_packable hpack]
        have hprefix : PrefixOf blockSize prompts
            ([] ++ chunks blockSize modelInput.promptTokens) :=
          ⟨modelInput.promptTokens, hprompt, hpack, List.prefix_rfl⟩
        exact h.offloadBlocks kvCaches hprefix fun _ hnil => by cases hnil
      · rw [chainHashes_of_not_packable hpack]
        exact h

/-- Any calls. -/
theorem sound_run (blake2b : Bytes → UInt64) (rank localRank blockSize poolSizeMb : ℕ)
    {prompts : List (List ℤ)} {ops : List ConnectorOp}
    (hprompts : ∀ op ∈ ops, op.promptTokens ∈ prompts) :
    Sound blake2b blockSize (poolSizeMb * 1024 * 1024) prompts
      (runConnector blake2b rank localRank blockSize poolSizeMb ops) := by
  induction ops using List.reverseRecOn with
  | nil =>
    exact ⟨⟨rfl, rfl⟩, ⟨rfl, List.length_replicate.ge⟩, fun x entry hentry => by cases hentry⟩
  | append_singleton ops op ih =>
    rw [runConnector, List.foldl_concat, ← runConnector]
    exact (ih fun op' h => hprompts op' (List.mem_append_left _ h)).step
      (hprompts op (List.mem_append_right _ (List.mem_singleton_self _)))

end Sound

end KacheDB
