import KacheDB.Vllm.Connector

/-!
# What a connector has been sent

`Archive` is the abstract side of the vLLM connector: which token prefixes have been registered,
with the keys and values that were sent for them, and the sizes of all slots that have been
written.  It has no hashes and no memory.

`Represents` links a connector to an archive: the index has an entry for each registered prefix
and for nothing else, and the memory manager has written the slots of its layers where the entry
says.  Every call keeps the link (`Represents.step`), if its blocks can be written and the hash
function tells the prefixes of all prompts apart.
-/

namespace KacheDB

open Foundation KacheDBPrefixCache KacheDBMemoryManager

/-- A registered block: the prefix that it ends, in blocks of tokens; the number of slots that
had been written before it; the keys and values of its layers. -/
structure RegisteredBlock where
  blocks : List (List ℤ)
  start : ℕ
  layers : List (Tensor × Tensor)

/-- The sizes of all slots, oldest first, and the registered blocks. -/
structure Archive where
  sizes : List ℕ
  registered : List RegisteredBlock

namespace Archive

/-- Nothing has been sent. -/
def empty : Archive :=
  ⟨[], []⟩

/-- The registered block at the end of a prefix. -/
def find (a : Archive) (blocks : List (List ℤ)) : Option RegisteredBlock :=
  a.registered.find? fun r => r.blocks = blocks

/-- The keys and values of the layers up to the first layer that does not have this block, and
whether all layers have it. -/
def offered (blockSize bIdx : ℕ) : List KVLayer → List (Tensor × Tensor) × Bool
  | [] => ([], true)
  | layerKv :: kvCaches =>
    match layerKv.block blockSize bIdx with
    | .error _ => ([], false)
    | .ok kv => (kv :: (offered blockSize bIdx kvCaches).1, (offered blockSize bIdx kvCaches).2)

/-- Send the blocks `rest` of a prompt that begins with the blocks `sent`.  A block that is known
is skipped; the first block that some layer does not have ends the call. -/
def sendBlocks (blockSize : ℕ) (kvCaches : List KVLayer) :
    List (List ℤ) → List (List ℤ) → Archive → Archive
  | _, [], a => a
  | sent, chunk :: rest, a =>
    match a.find (sent ++ [chunk]) with
    | some _ => sendBlocks blockSize kvCaches (sent ++ [chunk]) rest a
    | none =>
      let (kvs, complete) := offered blockSize sent.length kvCaches
      let sizes := a.sizes ++ kvs.map slotSize
      if complete then
        sendBlocks blockSize kvCaches (sent ++ [chunk]) rest
          ⟨sizes, a.registered ++ [⟨sent ++ [chunk], a.sizes.length, kvs⟩]⟩
      else ⟨sizes, a.registered⟩

/-- Send a prompt; nothing happens if one of its tokens does not fit into its field. -/
def send (blockSize : ℕ) (a : Archive) (promptTokens : List ℤ) (kvCaches : List KVLayer) :
    Archive :=
  if Packable (chunks blockSize promptTokens) then
    sendBlocks blockSize kvCaches [] (chunks blockSize promptTokens) a
  else a

/-- One call. -/
def step (blockSize : ℕ) (a : Archive) : ConnectorOp → Archive
  | .send modelInput kvCaches => a.send blockSize modelInput.promptTokens kvCaches
  | .recv _ _ => a

/-- What has been sent in a run. -/
def ofRun (blockSize : ℕ) (ops : List ConnectorOp) : Archive :=
  ops.foldl (step blockSize) empty

end Archive

/-- The prompt of a call. -/
def ConnectorOp.promptTokens : ConnectorOp → List ℤ
  | .send modelInput _ => modelInput.promptTokens
  | .recv modelInput _ => modelInput.promptTokens

/-- Every block that the call sends can be written into a pool of this size. -/
def ConnectorOp.Writable (blockSize poolSizeBytes : ℕ) : ConnectorOp → Prop
  | .send _ kvCaches => ∀ layerKv ∈ kvCaches, ∀ bIdx kv, layerKv.block blockSize bIdx = .ok kv →
      KacheDBMemoryManager.Writable poolSizeBytes kv
  | .recv _ _ => True

/-- The connector is linked to the archive through the slots that have been written. -/
structure Linked (blake2b : Bytes → UInt64) (blockSize poolSizeBytes : ℕ)
    (prompts : List (List ℤ)) (c : KacheDBConnector) (a : Archive) (slots : List Bytes) : Prop where
  blockSize_eq : c.blockSize = blockSize
  cacheBlockSize_eq : c.prefixCache.blockSize = blockSize
  pool_eq : c.memoryManager.poolSizeBytes = poolSizeBytes
  wrote : c.memoryManager.Wrote slots
  sizes_eq : slots.map List.length = a.sizes
  prefixes : ∀ r ∈ a.registered, PrefixOf blockSize prompts r.blocks
  stored : ∀ r ∈ a.registered, ∃ entry offsets,
    c.prefixCache.lookupBlock (prefixHash blake2b r.blocks) = some entry ∧
      entry.metadata.layerOffsets = some offsets ∧
      StoredAt poolSizeBytes slots r.start offsets r.layers
  known : ∀ h entry, c.prefixCache.lookupBlock h = some entry →
    ∃ r ∈ a.registered, prefixHash blake2b r.blocks = h

/-- The connector represents the archive. -/
def Represents (blake2b : Bytes → UInt64) (blockSize poolSizeBytes : ℕ)
    (prompts : List (List ℤ)) (c : KacheDBConnector) (a : Archive) : Prop :=
  ∃ slots, Linked blake2b blockSize poolSizeBytes prompts c a slots

variable {blake2b : Bytes → UInt64} {blockSize poolSizeBytes : ℕ} {prompts : List (List ℤ)}
  {c : KacheDBConnector} {a : Archive} {slots : List Bytes}

/-- What offloading the layers of one block writes: the layers that are offered, and if all layers
have the block, their offsets are returned. -/
lemma offloadLayers_spec {m : KacheDBMemoryManager} (hw : m.Wrote slots) {bIdx : ℕ}
    {kvCaches : List KVLayer}
    (hwritable : ∀ layerKv ∈ kvCaches, ∀ kv, layerKv.block blockSize bIdx = .ok kv →
      KacheDBMemoryManager.Writable m.poolSizeBytes kv) (prefixH : UInt64) (lIdx : ℕ) :
    ∃ more m', m'.Wrote (slots ++ more) ∧ m'.poolSizeBytes = m.poolSizeBytes ∧
      more.map List.length = (Archive.offered blockSize bIdx kvCaches).1.map slotSize ∧
      (((Archive.offered blockSize bIdx kvCaches).2 = true ∧ ∃ offsets,
          KacheDBConnector.offloadLayers blockSize bIdx prefixH lIdx kvCaches m =
            (.ok offsets, m') ∧
          StoredAt m.poolSizeBytes (slots ++ more) slots.length offsets
            (Archive.offered blockSize bIdx kvCaches).1) ∨
        ((Archive.offered blockSize bIdx kvCaches).2 = false ∧ ∃ e,
          KacheDBConnector.offloadLayers blockSize bIdx prefixH lIdx kvCaches m =
            (.error e, m'))) := by
  induction kvCaches generalizing m slots lIdx with
  | nil =>
    refine ⟨[], m, by rwa [List.append_nil], rfl, rfl, .inl ⟨rfl, [], rfl, ?_⟩⟩
    exact storedAt_nil _ _ _
  | cons layerKv kvCaches ih =>
    cases hblock : layerKv.block blockSize bIdx with
    | error e =>
      refine ⟨[], m, by rwa [List.append_nil], rfl, ?_, .inr ⟨?_, e, ?_⟩⟩
      · simp [Archive.offered, hblock]
      · simp [Archive.offered, hblock]
      · simp [KacheDBConnector.offloadLayers, hblock]
    | ok kv =>
      obtain ⟨k, v⟩ := kv
      have hkv := hwritable layerKv List.mem_cons_self (k, v) hblock
      obtain ⟨offset, size, desc, m₁, hwrite, hw₁, hpool₁, hspan⟩ :=
        hw.writeLayer hkv lIdx prefixH bIdx
      obtain ⟨more, m', hw', hpool', hsizes, hcase⟩ := ih hw₁
        (fun layerKv' hmem kv' hkv' => by
          rw [hpool₁]
          exact hwritable layerKv' (List.mem_cons_of_mem _ hmem) kv' hkv') (lIdx + 1)
      refine ⟨slotBytes desc k v :: more, m', ?_, hpool'.trans hpool₁, ?_, ?_⟩
      · rwa [List.append_assoc, List.singleton_append] at hw'
      · simp only [Archive.offered, hblock, List.map_cons, hsizes]
        rw [length_slotBytes]
        rfl
      · refine hcase.imp ?_ ?_
        · rintro ⟨hcomplete, offsets, hres, hstored⟩
          refine ⟨by simpa [Archive.offered, hblock] using hcomplete, offset :: offsets, ?_, ?_⟩
          · simp [KacheDBConnector.offloadLayers, hblock, hwrite, hres]
          · simp only [Archive.offered, hblock]
            rw [hpool₁] at hstored
            exact hstored.cons_written hspan
        · rintro ⟨hcomplete, e, hres⟩
          refine ⟨by simpa [Archive.offered, hblock] using hcomplete, e, ?_⟩
          simp [KacheDBConnector.offloadLayers, hblock, hwrite, hres]

namespace Archive

/-- What is found is registered under its prefix. -/
lemma find_eq_some {blocks : List (List ℤ)} {r : RegisteredBlock}
    (h : a.find blocks = some r) : r ∈ a.registered ∧ r.blocks = blocks :=
  ⟨List.mem_of_find?_eq_some h, by simpa using List.find?_some h⟩

/-- What is registered under a prefix is found. -/
lemma find_isSome {r : RegisteredBlock} (h : r ∈ a.registered) : (a.find r.blocks).isSome := by
  rw [find, List.find?_isSome]
  exact ⟨r, h, by simp⟩

end Archive

namespace Linked

/-- A prefix has an entry in the index exactly if it is registered. -/
lemma lookup_isSome_iff (h : Linked blake2b blockSize poolSizeBytes prompts c a slots)
    (hhash : HashesApart blake2b blockSize prompts) {blocks : List (List ℤ)}
    (hblocks : PrefixOf blockSize prompts blocks) :
    (c.prefixCache.lookupBlock (prefixHash blake2b blocks)).isSome ↔ (a.find blocks).isSome := by
  constructor
  · intro hlookup
    obtain ⟨entry, hentry⟩ := Option.isSome_iff_exists.mp hlookup
    obtain ⟨r, hr, heq⟩ := h.known _ entry hentry
    obtain rfl := prefixHash_inj hhash (h.prefixes r hr) hblocks heq
    exact Archive.find_isSome hr
  · intro hfind
    obtain ⟨r, hr⟩ := Option.isSome_iff_exists.mp hfind
    obtain ⟨hmem, rfl⟩ := Archive.find_eq_some hr
    obtain ⟨entry, -, hentry, -⟩ := h.stored r hmem
    rw [hentry]
    rfl

/-- Slots of a block that is not registered. -/
lemma orphans (h : Linked blake2b blockSize poolSizeBytes prompts c a slots)
    {m : KacheDBMemoryManager} {more : List Bytes} (hw : m.Wrote (slots ++ more))
    (hpool : m.poolSizeBytes = poolSizeBytes) :
    Linked blake2b blockSize poolSizeBytes prompts { c with memoryManager := m }
      ⟨a.sizes ++ more.map List.length, a.registered⟩ (slots ++ more) := by
  refine ⟨h.blockSize_eq, h.cacheBlockSize_eq, hpool, hw, ?_, h.prefixes, ?_, h.known⟩
  · rw [List.map_append, h.sizes_eq]
  · intro r hr
    obtain ⟨entry, offsets, hentry, hoffsets, hstored⟩ := h.stored r hr
    exact ⟨entry, offsets, hentry, hoffsets, hstored.append more⟩

/-- A new block is registered. -/
lemma register (h : Linked blake2b blockSize poolSizeBytes prompts c a slots)
    (hhash : HashesApart blake2b blockSize prompts) {blocks : List (List ℤ)}
    (hblocks : PrefixOf blockSize prompts blocks) (hnew : a.find blocks = none) {start : ℕ}
    {offsets : List ℕ} {layers : List (Tensor × Tensor)}
    (hstored : StoredAt poolSizeBytes slots start offsets layers)
    (bIdx numTokens : ℕ) (numLayers : Option ℕ) :
    Linked blake2b blockSize poolSizeBytes prompts
      { c with
        prefixCache := c.prefixCache.registerBlock (prefixHash blake2b blocks) bIdx numTokens
          ⟨some offsets, numLayers⟩ }
      ⟨a.sizes, a.registered ++ [⟨blocks, start, layers⟩]⟩ slots := by
  refine ⟨h.blockSize_eq, h.cacheBlockSize_eq, h.pool_eq, h.wrote, h.sizes_eq, ?_, ?_, ?_⟩
  · intro r hr
    rcases List.mem_append.mp hr with hr | hr
    · exact h.prefixes r hr
    · rw [List.mem_singleton.mp hr]
      exact hblocks
  · intro r hr
    rcases List.mem_append.mp hr with hr | hr
    · obtain ⟨entry, offsets', hentry, hoffsets, hstored'⟩ := h.stored r hr
      refine ⟨entry, offsets', ?_, hoffsets, hstored'⟩
      have hne : prefixHash blake2b r.blocks ≠ prefixHash blake2b blocks := by
        intro heq
        have hsome := Archive.find_isSome hr
        rw [prefixHash_inj hhash (h.prefixes r hr) hblocks heq, hnew] at hsome
        cases hsome
      exact (Dict.get_set_of_ne _ hne _).trans hentry
    · rw [List.mem_singleton.mp hr]
      exact ⟨_, offsets, Dict.get_set_self _ _ _, rfl, hstored⟩
  · intro hsh entry hentry
    by_cases heq : hsh = prefixHash blake2b blocks
    · exact ⟨⟨blocks, start, layers⟩, List.mem_append_right _ (List.mem_singleton_self _), heq.symm⟩
    · rw [KacheDBPrefixCache.lookupBlock, KacheDBPrefixCache.registerBlock,
        Dict.get_set_of_ne _ heq] at hentry
      obtain ⟨r, hr, hrh⟩ := h.known hsh entry hentry
      exact ⟨r, List.mem_append_left _ hr, hrh⟩

end Linked

/-- Sending the rest of a prompt keeps the link. -/
lemma Represents.offloadBlocks (h : Represents blake2b blockSize poolSizeBytes prompts c a)
    (hhash : HashesApart blake2b blockSize prompts) {kvCaches : List KVLayer}
    (hwritable : ∀ layerKv ∈ kvCaches, ∀ bIdx kv, layerKv.block blockSize bIdx = .ok kv →
      KacheDBMemoryManager.Writable poolSizeBytes kv) {sent rest : List (List ℤ)}
    (hrest : PrefixOf blockSize prompts (sent ++ rest)) :
    Represents blake2b blockSize poolSizeBytes prompts
      (KacheDBConnector.offloadBlocks kvCaches sent.length
        (HashChain.hashes blake2b blockBuffer (prefixHash blake2b sent) rest) c).2
      (Archive.sendBlocks blockSize kvCaches sent rest a) := by
  induction rest generalizing sent c a with
  | nil => exact h
  | cons chunk rest ih =>
    obtain ⟨slots, hlink⟩ := h
    have hassoc : sent ++ chunk :: rest = (sent ++ [chunk]) ++ rest := by simp
    rw [hassoc] at hrest
    have hblocks : PrefixOf blockSize prompts (sent ++ [chunk]) :=
      hrest.of_isPrefix (List.prefix_append _ _)
    have hlen : sent.length + 1 = (sent ++ [chunk]).length := by simp
    rw [HashChain.hashes, ← prefixHash_concat blake2b, KacheDBConnector.offloadBlocks,
      Archive.sendBlocks, hlen]
    have hiff := hlink.lookup_isSome_iff hhash hblocks
    cases hfind : a.find (sent ++ [chunk]) with
    | some r =>
      have hsome := hiff.mpr (by rw [hfind]; rfl)
      obtain ⟨entry, hentry⟩ := Option.isSome_iff_exists.mp hsome
      simp only [hentry]
      exact ih ⟨slots, hlink⟩ hrest
    | none =>
      have hmiss : c.prefixCache.lookupBlock (prefixHash blake2b (sent ++ [chunk])) = none := by
        rw [← Option.not_isSome_iff_eq_none, hiff, hfind]
        exact Bool.false_ne_true
      have hwr : ∀ layerKv ∈ kvCaches, ∀ kv, layerKv.block blockSize sent.length = .ok kv →
          KacheDBMemoryManager.Writable c.memoryManager.poolSizeBytes kv := by
        rw [hlink.pool_eq]
        exact fun layerKv hmem kv hkv => hwritable layerKv hmem sent.length kv hkv
      obtain ⟨more, m', hw', hpool', hsizes, hcase⟩ := offloadLayers_spec hlink.wrote hwr
        (prefixHash blake2b (sent ++ [chunk])) 0
      have horphans := hlink.orphans hw' (hpool'.trans hlink.pool_eq)
      rw [hsizes] at horphans
      simp only [hmiss, hlink.blockSize_eq]
      rcases hcase with ⟨hcomplete, offsets, hres, hstored⟩ | ⟨hcomplete, e, hres⟩
      · rw [hres, hcomplete, if_pos rfl]
        rw [hlink.pool_eq] at hstored
        have hstart : slots.length = a.sizes.length := by
          rw [← hlink.sizes_eq, List.length_map]
        rw [hstart] at hstored
        refine ih ⟨slots ++ more, ?_⟩ hrest
        have hreg := horphans.register hhash hblocks hfind hstored sent.length blockSize
          (some kvCaches.length)
        simpa only [hlink.blockSize_eq] using hreg
      · rw [hres, hcomplete, if_neg Bool.false_ne_true]
        refine ⟨slots ++ more, ?_⟩
        simpa only [hlink.blockSize_eq] using horphans

/-- A call keeps the link. -/
theorem Represents.step (h : Represents blake2b blockSize poolSizeBytes prompts c a)
    (hhash : HashesApart blake2b blockSize prompts) {op : ConnectorOp}
    (hprompt : op.promptTokens ∈ prompts) (hwritable : op.Writable blockSize poolSizeBytes) :
    Represents blake2b blockSize poolSizeBytes prompts (c.step blake2b op)
      (a.step blockSize op) := by
  cases op with
  | recv modelInput kvCaches => exact h
  | send modelInput kvCaches =>
    obtain ⟨slots, hlink⟩ := h
    simp only [KacheDBConnector.step, KacheDBConnector.sendKvCachesAndHiddenStates, Archive.step,
      Archive.send, KacheDBPrefixCache.computeSequenceHashes, hlink.cacheBlockSize_eq]
    by_cases hsize : blockSize = 0
    · -- a division by zero, unless there are no tokens
      have hchunks : chunks blockSize modelInput.promptTokens = [] := by simp [chunks, hsize]
      have hpack : Packable [] := by simp [Packable]
      rw [if_pos hsize, hchunks, if_pos hpack]
      split_ifs
      · exact ⟨slots, hlink⟩
      · exact ⟨slots, hlink⟩
    · rw [if_neg hsize]
      by_cases hpack : Packable (chunks blockSize modelInput.promptTokens)
      · rw [if_pos hpack, chainHashes_of_packable hpack]
        by_cases hnil : modelInput.promptTokens = []
        · have hchunks : chunks blockSize [] = [] := by simp [chunks]
          rw [if_pos hnil, hnil, hchunks]
          exact ⟨slots, hlink⟩
        · rw [if_neg hnil]
          have hprefix : PrefixOf blockSize prompts
              ([] ++ chunks blockSize modelInput.promptTokens) :=
            ⟨modelInput.promptTokens, hprompt, hpack, List.prefix_rfl⟩
          exact Represents.offloadBlocks ⟨slots, hlink⟩ hhash hwritable hprefix
      · rw [if_neg hpack, chainHashes_of_not_packable hpack]
        split_ifs
        · exact ⟨slots, hlink⟩
        · exact ⟨slots, hlink⟩

/-- A new connector represents the empty archive. -/
lemma represents_new (blake2b : Bytes → UInt64) (prompts : List (List ℤ))
    (rank localRank blockSize poolSizeMb : ℕ) :
    Represents blake2b blockSize (poolSizeMb * 1024 * 1024) prompts
      (KacheDBConnector.new rank localRank blockSize poolSizeMb) Archive.empty := by
  refine ⟨[], rfl, rfl, rfl, wrote_new localRank poolSizeMb, rfl, ?_, ?_, ?_⟩
  · exact fun r hr => absurd hr List.not_mem_nil
  · exact fun r hr => absurd hr List.not_mem_nil
  · intro h entry hentry
    exact absurd hentry (by simp [KacheDBConnector.new, KacheDBPrefixCache.new, lookupBlock])

/-- The connector represents the archive after every run of calls. -/
theorem represents_run (hhash : HashesApart blake2b blockSize prompts) {ops : List ConnectorOp}
    (hprompts : ∀ op ∈ ops, op.promptTokens ∈ prompts) {poolSizeMb : ℕ}
    (hwritable : ∀ op ∈ ops, op.Writable blockSize (poolSizeMb * 1024 * 1024))
    (rank localRank : ℕ) :
    Represents blake2b blockSize (poolSizeMb * 1024 * 1024) prompts
      (ops.foldl (KacheDBConnector.step blake2b)
        (KacheDBConnector.new rank localRank blockSize poolSizeMb))
      (Archive.ofRun blockSize ops) := by
  induction ops using List.reverseRecOn with
  | nil => exact represents_new blake2b prompts rank localRank blockSize poolSizeMb
  | append_singleton ops op ih =>
    rw [Archive.ofRun, List.foldl_append, List.foldl_append]
    refine Represents.step ?_ hhash (hprompts op (by simp)) (hwritable op (by simp))
    exact ih (fun op' h => hprompts op' (List.mem_append_left _ h))
      (fun op' h => hwritable op' (List.mem_append_left _ h))

end KacheDB
