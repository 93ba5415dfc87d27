import KacheDB.Vllm.Restore

/-!
# Cache hits over whole runs

The main result is `recv_restores`: after any run of calls, whenever a restore reports a hit,
every block that it has matched has in every layer the keys and values that were sent when its
prefix was registered, provided that no slot has been written over theirs since.  `recv_hit` says
when a restore reports a hit.

Without the proviso the first result fails.  In the run of `recv_corrupts` the pool has room for
one slot only; the second prompt is written over the first one, which the index still knows, and
the restore of the first prompt gives back the keys of the second one.
-/

namespace KacheDB

open Foundation KacheDBPrefixCache KacheDBMemoryManager

/-! ## What is registered -/

namespace Archive

/-- Every registered block has all its layers, and they have this shape. -/
def Shaped (layers heads size dim : ℕ) (a : Archive) : Prop :=
  ∀ r ∈ a.registered, r.layers.length = layers ∧
    ∀ kv ∈ r.layers, IsBlock heads size dim kv.1 ∧ IsBlock heads size dim kv.2

/-- No slot has been written over the payload of this block since it was registered. -/
def Fresh (a : Archive) (poolSizeBytes : ℕ) (r : RegisteredBlock) : Prop :=
  ∀ l < r.layers.length,
    RingBuffer.Intact poolSizeBytes TensorBlockDescriptor.sizeof a.sizes (r.start + l)

instance (a : Archive) (poolSizeBytes : ℕ) (r : RegisteredBlock) :
    Decidable (a.Fresh poolSizeBytes r) :=
  inferInstanceAs (Decidable (∀ l < _, _))

variable {blockSize layers heads size dim : ℕ} {a : Archive}

/-- If all layers have a block, it is offered with all layers. -/
lemma offered_shaped {bIdx : ℕ} {kvCaches : List KVLayer}
    (hcaches : ∀ layerKv ∈ kvCaches, layerKv.IsCache heads size dim)
    (hcomplete : (offered blockSize bIdx kvCaches).2 = true) :
    (offered blockSize bIdx kvCaches).1.length = kvCaches.length ∧
      ∀ kv ∈ (offered blockSize bIdx kvCaches).1,
        IsBlock heads size dim kv.1 ∧ IsBlock heads size dim kv.2 := by
  induction kvCaches with
  | nil => exact ⟨rfl, by simp [offered]⟩
  | cons layerKv kvCaches ih =>
    obtain ⟨hfirst, hrest⟩ := List.forall_mem_cons.mp hcaches
    cases hblock : layerKv.block blockSize bIdx with
    | error e => simp [offered, hblock] at hcomplete
    | ok kv =>
      simp only [offered, hblock] at hcomplete ⊢
      obtain ⟨hlen, hshaped⟩ := ih hrest hcomplete
      refine ⟨by rw [List.length_cons, List.length_cons, hlen], ?_⟩
      exact List.forall_mem_cons.mpr ⟨isBlock_of_block hfirst hblock, hshaped⟩

/-- Sending the rest of a prompt. -/
lemma Shaped.sendBlocks (h : a.Shaped layers heads size dim) {kvCaches : List KVLayer}
    (hcaches : AreCaches layers heads size dim kvCaches) (sent rest : List (List ℤ)) :
    (Archive.sendBlocks blockSize kvCaches sent rest a).Shaped layers heads size dim := by
  induction rest generalizing sent a with
  | nil => exact h
  | cons chunk rest ih =>
    rw [Archive.sendBlocks]
    split
    · exact ih h _
    · dsimp only
      split_ifs with hcomplete
      · refine ih (fun r hr => ?_) _
        rcases List.mem_append.mp hr with hr | hr
        · exact h r hr
        · obtain ⟨hlen, hshaped⟩ := offered_shaped hcaches.2 hcomplete
          rw [List.mem_singleton.mp hr]
          exact ⟨hlen.trans hcaches.1, hshaped⟩
      · exact h

/-- Every run. -/
lemma shaped_ofRun {ops : List ConnectorOp} (hops : ∀ op ∈ ops, op.Uniform layers heads size dim) :
    (ofRun blockSize ops).Shaped layers heads size dim := by
  induction ops using List.reverseRecOn with
  | nil => exact fun r hr => absurd hr List.not_mem_nil
  | append_singleton ops op ih =>
    have hold := ih fun op' h => hops op' (List.mem_append_left _ h)
    have hop := hops op (by simp)
    rw [ofRun, List.foldl_append]
    cases op with
    | recv modelInput kvCaches => exact hold
    | send modelInput kvCaches =>
      rw [List.foldl_cons, List.foldl_nil, Archive.step, send]
      split_ifs
      · exact hold.sendBlocks hop [] _
      · exact hold

end Archive

/-! ## What is matched -/

section Matching

variable {blake2b : Bytes → UInt64} {blockSize poolSizeBytes : ℕ} {prompts : List (List ℤ)}
  {c : KacheDBConnector} {a : Archive} {slots : List Bytes} {p : List ℤ}

/-- A search that returns has found the entries of the chained hashes of the prompt. -/
lemma findLongestPrefix_eq_ok {cache : KacheDBPrefixCache} (hsize : cache.blockSize = blockSize)
    {found : ℕ × List BlockEntry} (h : cache.findLongestPrefix blake2b p = .ok found) :
    blockSize ≠ 0 ∧ Packable (chunks blockSize p) ∧
      found = cache.matchHashes (HashChain.hashes blake2b blockBuffer 0 (chunks blockSize p)) := by
  rw [findLongestPrefix, computeSequenceHashes, hsize] at h
  by_cases hzero : blockSize = 0
  · simp [hzero] at h
  · by_cases hpack : Packable (chunks blockSize p)
    · rw [if_neg hzero, chainHashes_of_packable hpack] at h
      exact ⟨hzero, hpack, (Except.ok.inj h).symm⟩
    · rw [if_neg hzero, chainHashes_of_not_packable hpack] at h
      cases h

/-- A matched block is registered under its prefix, and its entry says where its layers are. -/
lemma Linked.matched (h : Linked blake2b blockSize poolSizeBytes prompts c a slots)
    (hhash : HashesApart blake2b blockSize prompts) (hp : p ∈ prompts)
    {found : ℕ × List BlockEntry} (hfind : c.prefixCache.findLongestPrefix blake2b p = .ok found)
    {j : ℕ} {entry : BlockEntry} (hj : found.2[j]? = some entry) :
    ∃ r offsets, a.find ((chunks blockSize p).take (j + 1)) = some r ∧
      entry.metadata.layerOffsets = some offsets ∧
      StoredAt poolSizeBytes slots r.start offsets r.layers := by
  obtain ⟨-, hpack, rfl⟩ := findLongestPrefix_eq_ok h.cacheBlockSize_eq hfind
  obtain ⟨prefixH, hprefix, hlookup⟩ := getElem?_matchHashes hj
  have hlt := (List.getElem?_eq_some_iff.mp hprefix).1
  rw [HashChain.length_hashes] at hlt
  rw [HashChain.getElem?_hashes _ _ _ hlt] at hprefix
  obtain rfl := Option.some.inj hprefix
  have hblocks : PrefixOf blockSize prompts ((chunks blockSize p).take (j + 1)) :=
    ⟨p, hp, hpack, List.take_prefix _ _⟩
  have hsome := (h.lookup_isSome_iff hhash hblocks).mp (by rw [prefixHash, hlookup]; rfl)
  obtain ⟨r, hr⟩ := Option.isSome_iff_exists.mp hsome
  obtain ⟨hmem, hrblocks⟩ := Archive.find_eq_some hr
  obtain ⟨entry', offsets, hentry, hoffsets, hstored⟩ := h.stored r hmem
  rw [hrblocks, prefixHash, hlookup] at hentry
  obtain rfl := Option.some.inj hentry
  exact ⟨r, offsets, hr, hoffsets, hstored⟩

/-- The first blocks of a prompt that are registered are matched. -/
lemma Linked.matches_first (h : Linked blake2b blockSize poolSizeBytes prompts c a slots)
    (hhash : HashesApart blake2b blockSize prompts) (hp : p ∈ prompts)
    (hpack : Packable (chunks blockSize p)) {chunk : List ℤ} {rest : List (List ℤ)}
    (hchunks : chunks blockSize p = chunk :: rest) (hfirst : (a.find [chunk]).isSome) :
    ∃ found, c.prefixCache.findLongestPrefix blake2b p = .ok found ∧ found.1 ≠ 0 := by
  have hzero : blockSize ≠ 0 := by
    rintro rfl
    simp [chunks] at hchunks
  have hprefix : PrefixOf blockSize prompts [chunk] :=
    ⟨p, hp, hpack, by rw [hchunks]; exact ⟨rest, rfl⟩⟩
  have hsome := (h.lookup_isSome_iff hhash hprefix).mpr hfirst
  obtain ⟨entry, hentry⟩ := Option.isSome_iff_exists.mp hsome
  have htip : prefixHash blake2b [chunk] = blake2b (blockBuffer 0 chunk) := rfl
  rw [htip] at hentry
  refine ⟨c.prefixCache.matchHashes
    (HashChain.hashes blake2b blockBuffer 0 (chunks blockSize p)), ?_, ?_⟩
  · rw [findLongestPrefix, computeSequenceHashes, h.cacheBlockSize_eq, if_neg hzero,
      chainHashes_of_packable hpack]
  · rw [matchHashes_tokens, h.cacheBlockSize_eq, hchunks, HashChain.hashes, matchHashes]
    simp only [hentry, List.length_cons]
    positivity

end Matching

/-! ## What is restored -/

section Restoring

variable {blake2b : Bytes → UInt64} {casts : Casts} {layers heads size dim : ℕ}
  {c : KacheDBConnector} {m : KacheDBMemoryManager} {slots : List Bytes}

/-- A hit has restored the matched blocks. -/
lemma recv_eq_hit {modelInput : ModelInput} {kvCaches kvCaches' : List KVLayer}
    (h : c.recvKvCachesAndHiddenStates blake2b casts modelInput kvCaches =
      (.ok true, kvCaches')) :
    ∃ found, c.prefixCache.findLongestPrefix blake2b modelInput.promptTokens = .ok found ∧
      found.1 ≠ 0 ∧ KacheDBConnector.restoreBlocks casts c.memoryManager 0 found.2 kvCaches =
        (.ok (), kvCaches') := by
  unfold KacheDBConnector.recvKvCachesAndHiddenStates at h
  split_ifs at h
  · simp at h
  · split at h
    · simp at h
    · next matchedTokens matchedBlocks hfind =>
      split_ifs at h with hzero
      · simp at h
      · split at h
        · simp at h
        · next kvCaches₁ hblocks =>
          obtain rfl := (Prod.mk.inj h).2
          exact ⟨_, hfind, hzero, hblocks⟩

/-- Restored caches hold what the entries of their blocks give. -/
lemma holds_of_entryGives {entries : List BlockEntry} {kvs : ℕ → List (Tensor × Tensor)}
    (hgives : ∀ j entry, entries[j]? = some entry → EntryGives m heads size dim entry (kvs j))
    {kvCaches kvCaches' : List KVLayer} (hcaches : AreCaches layers heads size dim kvCaches)
    (h : KacheDBConnector.restoreBlocks casts m 0 entries kvCaches = (.ok (), kvCaches'))
    {l : ℕ} (hl : l < layers) :
    ∃ t, kvCaches'[l]? = some (.tensor t) ∧
      ∀ j < entries.length, ∀ k v, (kvs j)[l]? = some (k, v) → HoldsBlock t j k v := by
  have hlt : l < kvCaches.length := hcaches.1 ▸ hl
  obtain ⟨t, n, c, htensor, hdtype, hshape⟩ := hcaches.2 _ (List.getElem_mem hlt)
  have hget : kvCaches[l]? = some (.tensor t) := by
    rw [List.getElem?_eq_getElem hlt, htensor]
  obtain ⟨t', ht', hholds, -⟩ := restoreBlocks_ok
    (fun j entry hj => by rw [zero_add]; exact hgives j entry hj) h hget hdtype hshape
  exact ⟨t', ht', fun j hj k v hkv => by simpa using hholds j hj k v (by simpa using hkv)⟩

/-- An entry whose slots are intact gives what was stored. -/
lemma entryGives_of_intact (hw : m.Wrote slots) {start : ℕ} {offsets : List ℕ}
    {kvs : List (Tensor × Tensor)}
    (hstored : StoredAt m.poolSizeBytes slots start offsets kvs)
    (hshaped : ∀ kv ∈ kvs, IsBlock heads size dim kv.1 ∧ IsBlock heads size dim kv.2)
    (hintact : ∀ l < kvs.length, RingBuffer.Intact m.poolSizeBytes TensorBlockDescriptor.sizeof
      (slots.map List.length) (start + l))
    {entry : BlockEntry} (hoffsets : entry.metadata.layerOffsets = some offsets) :
    EntryGives m heads size dim entry kvs := by
  refine ⟨offsets, hoffsets, fun l k v hl => ?_⟩
  obtain ⟨⟨hkd, hks⟩, hvd, hvs⟩ := hshaped (k, v) (List.mem_of_getElem? hl)
  have hmap : TensorCodec.dtypeMap k.dtype = some (.fp16, 2) := by
    rw [hkd]
    rfl
  obtain ⟨offset, hoffset, hread⟩ := hstored.readPagedBlock hw hl
    (hintact l (List.getElem?_eq_some_iff.mp hl).1) hmap (hvs.trans hks.symm)
    (hvd.trans hkd.symm)
  rw [hks, hkd] at hread
  exact ⟨offset, hoffset, ⟨hkd, hks⟩, ⟨hvd, hvs⟩, hread⟩

end Restoring

/-! ## Prompts of one token -/

section OneToken

/-- A cache with one block of this size all of whose bytes are `b`. -/
def oneBlockCache (dim : ℕ) (b : UInt8) : KVLayer :=
  .tensor (.filled .float16 [1, 2, 1, 1, dim] b)

/-- Send the caches of a prompt of one token. -/
def sendOne (tid : ℤ) (dim : ℕ) (b : UInt8) : ConnectorOp :=
  .send ⟨some [tid], none⟩ [oneBlockCache dim b]

variable {dim : ℕ}

lemma areCaches_oneBlockCache (b : UInt8) : AreCaches 1 1 1 dim [oneBlockCache dim b] :=
  ⟨rfl, fun _ h => List.mem_singleton.mp h ▸ ⟨_, 1, 2, rfl, rfl, rfl⟩⟩

lemma hasRoom_oneBlockCache (b : UInt8) :
    ∀ layerKv ∈ [oneBlockCache dim b], layerKv.HasRoom 1 1 1 dim :=
  fun _ h => List.mem_singleton.mp h ▸ ⟨_, 1, 2, rfl, rfl, rfl, le_rfl, le_rfl⟩

/-- The keys and the values of the block. -/
lemma block_oneBlockCache (b : UInt8) : (oneBlockCache dim b).block 1 0 =
    .ok (.filled .float16 [1, 1, dim] b, .filled .float16 [1, 1, dim] b) := by
  have hselect (i : ℕ) (hi : i < 2) : (Tensor.filled .float16 [1, 2, 1, 1, dim] b).select [0, i] =
      .ok (.filled .float16 [1, 1, dim] b) := by
    refine Tensor.select_filled (o := 0 * [2, 1, 1, dim].prod + (i * [1, 1, dim].prod + 0)) ?_ b
    rw [Tensor.locate, if_pos Nat.one_pos, Tensor.locate, if_pos hi, Tensor.locate]
    rfl
  have hndim : (Tensor.filled .float16 [1, 2, 1, 1, dim] b).ndim = 5 := rfl
  simp only [oneBlockCache, KVLayer.block, if_pos hndim, bothTensors, hselect 0 (by omega),
    hselect 1 (by omega)]

/-- Sending the caches of a new prompt of one token. -/
lemma send_one (a : Archive) (tid : ℤ) (dim : ℕ) (hfits : FitsU32 tid)
    (hnew : a.find [[tid]] = none) (b : UInt8) :
    a.step 1 (sendOne tid dim b) =
      ⟨a.sizes ++ [slotSize (.filled .float16 [1, 1, dim] b, .filled .float16 [1, 1, dim] b)],
        a.registered ++ [⟨[[tid]], a.sizes.length,
          [(.filled .float16 [1, 1, dim] b, .filled .float16 [1, 1, dim] b)]⟩]⟩ := by
  have hchunks : chunks 1 [tid] = [[tid]] := by simp [chunks, window]
  have hpack : Packable [[tid]] := by simpa [Packable] using hfits
  have hoffered : Archive.offered 1 0 [oneBlockCache dim b] =
      ([(.filled .float16 [1, 1, dim] b, .filled .float16 [1, 1, dim] b)], true) := by
    simp only [Archive.offered, block_oneBlockCache]
  have htokens : (ModelInput.mk (some [tid]) none).promptTokens = [tid] := rfl
  simp only [Archive.step, sendOne, htokens, Archive.send, hchunks, if_pos hpack,
    Archive.sendBlocks, List.nil_append, hnew, List.length_nil, hoffered, List.map_cons,
    List.map_nil, if_pos]

end OneToken

/-! ## Runs -/

/-- The first `n` blocks of these caches hold in every layer what the archive has for the first
`n` prefixes of the prompt. -/
def Restored (a : Archive) (layers blockSize : ℕ) (promptTokens : List ℤ) (n : ℕ)
    (kvCaches : List KVLayer) : Prop :=
  ∀ j < n, ∃ r, a.find ((chunks blockSize promptTokens).take (j + 1)) = some r ∧
    ∀ l < layers, ∃ k v t, r.layers[l]? = some (k, v) ∧
      kvCaches[l]? = some (.tensor t) ∧ HoldsBlock t j k v

section Runs

variable {blake2b : Bytes → UInt64} {casts : Casts}
  {rank localRank blockSize poolSizeMb layers heads size dim : ℕ} {ops : List ConnectorOp}
  {modelInput : ModelInput} {kvCaches kvCaches' : List KVLayer}

/-- The connector after a run. -/
def runConnector (blake2b : Bytes → UInt64) (rank localRank blockSize poolSizeMb : ℕ)
    (ops : List ConnectorOp) : KacheDBConnector :=
  ops.foldl (KacheDBConnector.step blake2b)
    (KacheDBConnector.new rank localRank blockSize poolSizeMb)

/-- All prompts of a run and of one more call. -/
def promptsOf (ops : List ConnectorOp) (modelInput : ModelInput) : List (List ℤ) :=
  modelInput.promptTokens :: ops.map ConnectorOp.promptTokens

/-- A run of calls with caches of one shape whose slots fit in the pool keeps the link to the
archive. -/
lemma exists_linked (rank localRank : ℕ)
    (hfit : TensorBlockDescriptor.sizeof + 2 * (heads * size * dim * 2) ≤
      poolSizeMb * 1024 * 1024)
    (hops : ∀ op ∈ ops, op.Uniform layers heads size dim)
    (hhash : HashesApart blake2b blockSize (promptsOf ops modelInput)) :
    ∃ slots, Linked blake2b blockSize (poolSizeMb * 1024 * 1024) (promptsOf ops modelInput)
      (runConnector blake2b rank localRank blockSize poolSizeMb ops)
      (Archive.ofRun blockSize ops) slots :=
  represents_run hhash (fun _ hop => List.mem_cons_of_mem _ (List.mem_map_of_mem hop))
    (fun op hop => (hops op hop).writable hfit) rank localRank

/-- The slots of the matched blocks lie within the pool. -/
lemma Linked.readable {poolSizeBytes : ℕ} {prompts : List (List ℤ)} {c : KacheDBConnector}
    {a : Archive} {slots : List Bytes}
    (h : Linked blake2b blockSize poolSizeBytes prompts c a slots)
    (hshaped : a.Shaped layers heads size dim) (hhash : HashesApart blake2b blockSize prompts)
    {p : List ℤ} (hp : p ∈ prompts) {found : ℕ × List BlockEntry}
    (hfind : c.prefixCache.findLongestPrefix blake2b p = .ok found) :
    ∀ entry ∈ found.2, ∀ offset ∈ entry.metadata.layerOffsets.getD [],
      Readable c.memoryManager heads size dim offset := by
  intro entry hentry offset hoffset
  obtain ⟨j, hj⟩ := List.getElem?_of_mem hentry
  obtain ⟨r, offsets, hr, hoffsets, hstored⟩ := h.matched hhash hp hfind hj
  rw [hoffsets, Option.getD_some] at hoffset
  obtain ⟨l, hl⟩ := List.getElem?_of_mem hoffset
  rw [← h.pool_eq] at hstored
  obtain ⟨kv, hkv, hwithin⟩ := hstored.within h.wrote hl
  obtain ⟨hk, hv⟩ := (hshaped r (Archive.find_eq_some hr).1).2 kv (List.mem_of_getElem? hkv)
  rwa [slotSize_of_isBlock hk hv] at hwithin

/-- **A registered prefix is a hit.**  If the first block of a prompt is registered and the caches
have room for all its blocks, the restore succeeds. -/
theorem recv_hit (casts : Casts) (rank localRank : ℕ) (hpos : 0 < heads * size * dim)
    (hfit : TensorBlockDescriptor.sizeof + 2 * (heads * size * dim * 2) ≤
      poolSizeMb * 1024 * 1024)
    (hops : ∀ op ∈ ops, op.Uniform layers heads size dim)
    (hhash : HashesApart blake2b blockSize (promptsOf ops modelInput))
    (hroom : ∀ layerKv ∈ kvCaches,
      layerKv.HasRoom (chunks blockSize modelInput.promptTokens).length heads size dim)
    (hpack : Packable (chunks blockSize modelInput.promptTokens)) {chunk : List ℤ}
    {rest : List (List ℤ)} (hchunks : chunks blockSize modelInput.promptTokens = chunk :: rest)
    (hfirst : ((Archive.ofRun blockSize ops).find [chunk]).isSome) :
    ∃ kvCaches', (runConnector blake2b rank localRank blockSize poolSizeMb
        ops).recvKvCachesAndHiddenStates blake2b casts modelInput kvCaches =
      (.ok true, kvCaches') := by
  obtain ⟨slots, hlink⟩ := exists_linked rank localRank hfit hops hhash
  have hshaped : (Archive.ofRun blockSize ops).Shaped layers heads size dim :=
    Archive.shaped_ofRun hops
  generalize runConnector blake2b rank localRank blockSize poolSizeMb ops = c at *
  generalize Archive.ofRun blockSize ops = a at *
  have hprompt : modelInput.promptTokens ≠ [] := by
    intro hnil
    simp [hnil, chunks] at hchunks
  obtain ⟨found, hfind, hne⟩ :=
    hlink.matches_first hhash List.mem_cons_self hpack hchunks hfirst
  have hread := hlink.readable hshaped hhash List.mem_cons_self hfind
  have hblocks : 0 + found.2.length ≤ (chunks blockSize modelInput.promptTokens).length := by
    obtain ⟨-, -, rfl⟩ := findLongestPrefix_eq_ok hlink.cacheBlockSize_eq hfind
    rw [zero_add]
    refine (length_matchHashes_le _ _).trans ?_
    rw [HashChain.length_hashes]
  obtain ⟨kvCaches', hrestore⟩ := restoreBlocks_succeeds casts hpos hread hblocks hroom
  refine ⟨kvCaches', ?_⟩
  obtain ⟨matchedTokens, matchedBlocks⟩ := found
  unfold KacheDBConnector.recvKvCachesAndHiddenStates
  simp only [if_neg hprompt, hfind, hrestore]
  exact if_neg hne

/-- **A hit gives back what was sent.**  After any run of calls with caches of one shape, if a
restore reports a hit and no slot has been written over the payload of a registered prefix of the
prompt, then every matched block has in every layer the keys and values that were sent when its
prefix was registered. -/
theorem recv_restores
    (hfit : TensorBlockDescriptor.sizeof + 2 * (heads * size * dim * 2) ≤
      poolSizeMb * 1024 * 1024)
    (hops : ∀ op ∈ ops, op.Uniform layers heads size dim)
    (hcaches : AreCaches layers heads size dim kvCaches)
    (hhash : HashesApart blake2b blockSize (promptsOf ops modelInput))
    (hfresh : ∀ r ∈ (Archive.ofRun blockSize ops).registered,
      r.blocks <+: chunks blockSize modelInput.promptTokens →
        (Archive.ofRun blockSize ops).Fresh (poolSizeMb * 1024 * 1024) r)
    (hrecv : (runConnector blake2b rank localRank blockSize poolSizeMb
        ops).recvKvCachesAndHiddenStates blake2b casts modelInput kvCaches =
      (.ok true, kvCaches')) :
    ∃ found, (runConnector blake2b rank localRank blockSize poolSizeMb
        ops).prefixCache.findLongestPrefix blake2b modelInput.promptTokens = .ok found ∧
      Restored (Archive.ofRun blockSize ops) layers blockSize modelInput.promptTokens
        found.2.length kvCaches' := by
  obtain ⟨slots, hlink⟩ := exists_linked rank localRank hfit hops hhash
  have hshaped : (Archive.ofRun blockSize ops).Shaped layers heads size dim :=
    Archive.shaped_ofRun hops
  generalize runConnector blake2b rank localRank blockSize poolSizeMb ops = c at *
  generalize Archive.ofRun blockSize ops = a at *
  obtain ⟨found, hfind, -, hblocks⟩ := recv_eq_hit hrecv
  refine ⟨found, hfind, ?_⟩
  -- what was sent for the first prefixes of the prompt
  let kvs (j : ℕ) : List (Tensor × Tensor) :=
    ((a.find ((chunks blockSize modelInput.promptTokens).take (j + 1))).map
      RegisteredBlock.layers).getD []
  have hmatched {j : ℕ} {entry : BlockEntry} (hj : found.2[j]? = some entry) :=
    hlink.matched hhash List.mem_cons_self hfind hj
  have hgives (j : ℕ) (entry : BlockEntry) (hj : found.2[j]? = some entry) :
      EntryGives c.memoryManager heads size dim entry (kvs j) := by
    obtain ⟨r, offsets, hr, hoffsets, hstored⟩ := hmatched hj
    obtain ⟨hmem, hrblocks⟩ := Archive.find_eq_some hr
    have hkvs : kvs j = r.layers := by simp [kvs, hr]
    have hintact := hfresh r hmem (hrblocks ▸ List.take_prefix _ _)
    rw [Archive.Fresh, ← hlink.sizes_eq, ← hlink.pool_eq] at hintact
    rw [← hlink.pool_eq] at hstored
    rw [hkvs]
    exact entryGives_of_intact hlink.wrote hstored (hshaped r hmem).2 hintact hoffsets
  have hlayers (j : ℕ) (hj : j < found.2.length) : (kvs j).length = layers := by
    obtain ⟨r, offsets, hr, -, -⟩ := hmatched (List.getElem?_eq_getElem hj)
    have hkvs : kvs j = r.layers := by simp [kvs, hr]
    rw [hkvs]
    exact (hshaped r (Archive.find_eq_some hr).1).1
  intro j hj
  obtain ⟨r, offsets, hr, -, -⟩ := hmatched (List.getElem?_eq_getElem hj)
  have hkvs : kvs j = r.layers := by simp [kvs, hr]
  refine ⟨r, hr, fun l hl => ?_⟩
  have hlt : l < r.layers.length := by rwa [← hkvs, hlayers j hj]
  obtain ⟨t, ht, hholds⟩ := holds_of_entryGives hgives hcaches hblocks hl
  have hget : r.layers[l]? = some (r.layers[l].1, r.layers[l].2) :=
    List.getElem?_eq_getElem hlt
  exact ⟨_, _, t, hget, ht, hholds j hj _ _ (by rwa [hkvs])⟩

/-- Two prompts that have two blocks in common are sent. -/
def sharedRun : List ConnectorOp :=
  [.send ⟨some [1, 2, 3, 4, 5, 6], none⟩ (threeBlockCaches 10),
    .send ⟨some [1, 2, 3, 4, 7, 8], none⟩ (threeBlockCaches 20)]

/-- A prompt that has three blocks in common with the second one. -/
def sharedInput : ModelInput :=
  ⟨some [1, 2, 3, 4, 7, 8, 9], none⟩

lemma areCaches_threeBlockCaches (b : UInt8) : AreCaches 2 1 2 1 (threeBlockCaches b) :=
  ⟨rfl, List.forall_mem_cons.mpr ⟨⟨_, 3, 2, rfl, rfl, rfl⟩,
    List.forall_mem_singleton.mpr ⟨_, 3, 2, rfl, rfl, rfl⟩⟩⟩

lemma uniform_sharedRun : ∀ op ∈ sharedRun, op.Uniform 2 1 2 1 :=
  List.forall_mem_cons.mpr ⟨areCaches_threeBlockCaches 10,
    List.forall_mem_singleton.mpr (areCaches_threeBlockCaches 20)⟩

lemma fits_sharedRun :
    TensorBlockDescriptor.sizeof + 2 * (1 * 2 * 1 * 2) ≤ 1 * 1024 * 1024 := by
  norm_num [TensorBlockDescriptor.sizeof]

lemma hashesApart_sharedRun : HashesApart sharedDigest 2 (promptsOf sharedRun sharedInput) :=
  hashesApart_sharedDigest (by decide +kernel)

/-- The restore of the third prompt is a hit. -/
lemma recv_hit_shared : ∃ kvCaches', (runConnector sharedDigest 0 0 2 1
    sharedRun).recvKvCachesAndHiddenStates sharedDigest .zeros sharedInput (threeBlockCaches 0) =
      (.ok true, kvCaches') := by
  have hchunks : chunks 2 sharedInput.promptTokens = [1, 2] :: [[3, 4], [7, 8]] := by
    decide +kernel
  refine recv_hit .zeros 0 0 Nat.two_pos fits_sharedRun uniform_sharedRun hashesApart_sharedRun ?_
    (by decide +kernel) hchunks (by decide +kernel)
  rw [hchunks]
  exact List.forall_mem_cons.mpr ⟨⟨_, 3, 2, rfl, rfl, rfl, le_rfl, le_rfl⟩,
    List.forall_mem_singleton.mpr ⟨_, 3, 2, rfl, rfl, rfl, le_rfl, le_rfl⟩⟩

/-- The blocks of both prompts are restored for the third one. -/
theorem recv_restores_shared :
    ∃ kvCaches', (runConnector sharedDigest 0 0 2 1
        sharedRun).recvKvCachesAndHiddenStates sharedDigest .zeros sharedInput
          (threeBlockCaches 0) = (.ok true, kvCaches') ∧
      ∃ found, (runConnector sharedDigest 0 0 2 1
          sharedRun).prefixCache.findLongestPrefix sharedDigest sharedInput.promptTokens =
            .ok found ∧
        Restored (Archive.ofRun 2 sharedRun) 2 2 sharedInput.promptTokens found.2.length
          kvCaches' := by
  obtain ⟨kvCaches', hhit⟩ := recv_hit_shared
  have hfresh : ∀ r ∈ (Archive.ofRun 2 sharedRun).registered,
      (Archive.ofRun 2 sharedRun).Fresh (1 * 1024 * 1024) r := by decide +kernel
  exact ⟨kvCaches', hhit, recv_restores fits_sharedRun uniform_sharedRun
    (areCaches_threeBlockCaches 0) hashesApart_sharedRun (fun r hr _ => hfresh r hr) hhit⟩

end Runs

/-! ## A pool with room for one slot -/

/-- Two prompts are sent, and the slot of each takes more than half of the pool. -/
def overwritingRun : List ConnectorOp :=
  [sendOne 1 131072 0, sendOne 2 131072 1]

/-- What has been sent. -/
lemma ofRun_overwritingRun :
    Archive.ofRun 1 overwritingRun = ⟨[524352, 524352],
      [⟨[[1]], 0, [(.filled .float16 [1, 1, 131072] 0, .filled .float16 [1, 1, 131072] 0)]⟩,
        ⟨[[2]], 1, [(.filled .float16 [1, 1, 131072] 1, .filled .float16 [1, 1, 131072] 1)]⟩]⟩ := by
  have hsize (b : UInt8) : slotSize (.filled .float16 [1, 1, 131072] b,
      .filled .float16 [1, 1, 131072] b) = 524352 := by
    have hblock : IsBlock 1 1 131072 (.filled .float16 [1, 1, 131072] b) := ⟨rfl, rfl⟩
    rw [slotSize_of_isBlock hblock hblock]
    norm_num [TensorBlockDescriptor.sizeof]
  rw [Archive.ofRun, overwritingRun, List.foldl_cons, List.foldl_cons, List.foldl_nil,
    send_one Archive.empty 1 131072 (by decide) rfl 0,
    send_one _ 2 131072 (by decide) (by simp [Archive.empty, Archive.find]) 1, hsize, hsize]
  rfl

section Overwriting

variable {prompts : List (List ℤ)} {c : KacheDBConnector} {slots : List Bytes}

/-- Both slots are at 0. -/
lemma Linked.overwriting_offset (h : Linked oneTokenDigest 1 (1 * 1024 * 1024) prompts c
      (Archive.ofRun 1 overwritingRun) slots) {start : ℕ} {offsets : List ℕ}
    {kv : Tensor × Tensor} (hstored : StoredAt (1 * 1024 * 1024) slots start offsets [kv])
    (hstart : start < 2) : ∃ offset, offsets[0]? = some offset ∧ offset = 0 := by
  obtain ⟨offset, desc, size, hoffset, -, hspan⟩ := hstored.stored 0 kv.1 kv.2 rfl
  have hspans : RingBuffer.spans (1 * 1024 * 1024) [524352, 524352] =
      [⟨0, 524352⟩, ⟨0, 524352⟩] := rfl
  rw [h.sizes_eq, ofRun_overwritingRun, hspans, add_zero] at hspan
  refine ⟨offset, hoffset, ?_⟩
  interval_cases start
  · exact (congrArg Span.start (Option.some.inj hspan)).symm
  · exact (congrArg Span.start (Option.some.inj hspan)).symm

/-- A read at 0 gives what was sent for the second prompt. -/
lemma Linked.overwriting_gives (h : Linked oneTokenDigest 1 (1 * 1024 * 1024) prompts c
      (Archive.ofRun 1 overwritingRun) slots) :
    Gives c.memoryManager 1 1 131072 0 (.filled .float16 [1, 1, 131072] 1)
      (.filled .float16 [1, 1, 131072] 1) := by
  have hmem : ⟨[[2]], 1, [(.filled .float16 [1, 1, 131072] 1,
      .filled .float16 [1, 1, 131072] 1)]⟩ ∈ (Archive.ofRun 1 overwritingRun).registered := by
    rw [ofRun_overwritingRun]
    exact List.mem_cons_of_mem _ (List.mem_singleton_self _)
  obtain ⟨entry, offsets, -, hoffsets, hstored⟩ := h.stored _ hmem
  obtain ⟨offset, hoffset, rfl⟩ := h.overwriting_offset hstored Nat.one_lt_two
  rw [← h.pool_eq] at hstored
  have hintact : RingBuffer.Intact c.memoryManager.poolSizeBytes TensorBlockDescriptor.sizeof
      (slots.map List.length) (1 + 0) := by
    rw [h.sizes_eq, ofRun_overwritingRun]
    exact RingBuffer.intact_last _ _ [524352] _
  have hblock : IsBlock 1 1 131072 (.filled .float16 [1, 1, 131072] 1) := ⟨rfl, rfl⟩
  obtain ⟨offsets', hoffsets', hgives⟩ := entryGives_of_intact h.wrote hstored
    (List.forall_mem_singleton.mpr ⟨hblock, hblock⟩) (by simpa using hintact) hoffsets
  obtain rfl := Option.some.inj (hoffsets.symm.trans hoffsets')
  obtain ⟨offset', hoffset', hgive⟩ := hgives 0 _ _ rfl
  obtain rfl := Option.some.inj (hoffset.symm.trans hoffset')
  exact hgive

/-- The archive has the only block of the first prompt. -/
lemma find_overwritingRun {j : ℕ} {r : RegisteredBlock}
    (h : (Archive.ofRun 1 overwritingRun).find ((chunks 1 [1]).take (j + 1)) = some r) :
    r = ⟨[[1]], 0, [(.filled .float16 [1, 1, 131072] 0, .filled .float16 [1, 1, 131072] 0)]⟩ := by
  have htake : (chunks 1 [1]).take (j + 1) = [[1]] := by simp [chunks, window]
  rw [htake, ofRun_overwritingRun] at h
  exact (Option.some.inj h).symm

/-- The entry of the first prompt gives what was sent for the second one. -/
lemma Linked.overwriting_entryGives {found : ℕ × List BlockEntry}
    (h : Linked oneTokenDigest 1 (1 * 1024 * 1024) (promptsOf overwritingRun ⟨some [1], none⟩) c
      (Archive.ofRun 1 overwritingRun) slots)
    (hhash : HashesApart oneTokenDigest 1 (promptsOf overwritingRun ⟨some [1], none⟩))
    (hfind : c.prefixCache.findLongestPrefix oneTokenDigest [1] = .ok found) {j : ℕ}
    {entry : BlockEntry} (hj : found.2[j]? = some entry) :
    EntryGives c.memoryManager 1 1 131072 entry
      [(.filled .float16 [1, 1, 131072] 1, .filled .float16 [1, 1, 131072] 1)] := by
  obtain ⟨r, offsets, hr, hoffsets, hstored⟩ := h.matched hhash List.mem_cons_self hfind hj
  obtain rfl := find_overwritingRun hr
  refine ⟨offsets, hoffsets, fun l k v hl => ?_⟩
  cases l with
  | succ l => cases hl
  | zero =>
    obtain ⟨rfl, rfl⟩ := Prod.mk.inj (Option.some.inj hl)
    obtain ⟨offset, hoffset, hzero⟩ := h.overwriting_offset hstored Nat.zero_lt_two
    exact ⟨0, hzero ▸ hoffset, h.overwriting_gives⟩

end Overwriting

/-- **A hit may give back what was sent for another prompt.**  Both prompts are sent with caches of
one shape, every slot fits in the pool, and the restore of the first prompt reports a hit, but its
block does not hold what was sent for it. -/
theorem recv_corrupts :
    (∀ op ∈ overwritingRun, op.Uniform 1 1 1 131072) ∧
      TensorBlockDescriptor.sizeof + 2 * (1 * 1 * 131072 * 2) ≤ 1 * 1024 * 1024 ∧
      AreCaches 1 1 1 131072 [oneBlockCache 131072 2] ∧
      HashesApart oneTokenDigest 1 (promptsOf overwritingRun ⟨some [1], none⟩) ∧
      ∃ kvCaches' found, (runConnector oneTokenDigest 0 0 1 1
          overwritingRun).recvKvCachesAndHiddenStates oneTokenDigest .zeros ⟨some [1], none⟩
            [oneBlockCache 131072 2] = (.ok true, kvCaches') ∧
        (runConnector oneTokenDigest 0 0 1 1
          overwritingRun).prefixCache.findLongestPrefix oneTokenDigest [1] = .ok found ∧
        ¬ Restored (Archive.ofRun 1 overwritingRun) 1 1 [1] found.2.length kvCaches' := by
  have hops : ∀ op ∈ overwritingRun, op.Uniform 1 1 1 131072 :=
    List.forall_mem_cons.mpr ⟨areCaches_oneBlockCache 0,
      List.forall_mem_singleton.mpr (areCaches_oneBlockCache 1)⟩
  have hfit : TensorBlockDescriptor.sizeof + 2 * (1 * 1 * 131072 * 2) ≤ 1 * 1024 * 1024 := by
    norm_num [TensorBlockDescriptor.sizeof]
  have hhash : HashesApart oneTokenDigest 1 (promptsOf overwritingRun ⟨some [1], none⟩) :=
    hashesApart_oneTokenDigest (by decide)
  have hchunks : chunks 1 [1] = [[1]] := by simp [chunks, window]
  refine ⟨hops, hfit, areCaches_oneBlockCache 2, hhash, ?_⟩
  obtain ⟨kvCaches', hrecv⟩ := recv_hit .zeros 0 0 (by norm_num) hfit hops hhash
    (hasRoom_oneBlockCache 2) (by decide) hchunks (by rw [ofRun_overwritingRun]; rfl)
  obtain ⟨found, hfind, hne, hblocks⟩ := recv_eq_hit hrecv
  refine ⟨kvCaches', found, hrecv, hfind, fun hrestored => ?_⟩
  obtain ⟨slots, hlink⟩ := exists_linked 0 0 hfit hops hhash
  generalize runConnector oneTokenDigest 0 0 1 1 overwritingRun = c at *
  have hlen : 0 < found.2.length := by
    obtain ⟨-, -, rfl⟩ := findLongestPrefix_eq_ok hlink.cacheBlockSize_eq hfind
    rw [matchHashes_tokens] at hne
    exact Nat.pos_of_ne_zero (left_ne_zero_of_mul hne)
  obtain ⟨t, ht, hholds⟩ := holds_of_entryGives
    (fun _ _ hj => hlink.overwriting_entryGives hhash hfind hj) (areCaches_oneBlockCache 2) hblocks
    Nat.one_pos
  obtain ⟨r, hr, hlayers⟩ := hrestored 0 hlen
  obtain rfl := find_overwritingRun hr
  obtain ⟨k, v, t', hkv, ht', hkeys, -⟩ := hlayers 0 Nat.one_pos
  obtain ⟨rfl, rfl⟩ := Prod.mk.inj (Option.some.inj hkv)
  obtain rfl := KVLayer.tensor.inj (Option.some.inj (ht.symm.trans ht'))
  have hkeys' := (hholds 0 hlen _ _ rfl).1
  exact Tensor.filled_ne (by norm_num) (by decide)
    (Except.ok.inj (hkeys'.symm.trans hkeys))

end KacheDB
