import KacheDB.Vllm.FirstCalls

/-!
# Round trips

A prompt makes the round trip if a call sends it and another one, for an extension of it, brings it
back.  This is so for caches in half precision whose blocks are new (`FirstCall.roundTrip`), and for
caches without layers or with empty blocks that are never read.
-/

namespace KacheDB

open Foundation KacheDBPrefixCache KacheDBMemoryManager

namespace KacheDBConnector

/-- After a call of `send_kv_caches_and_hidden_states` that returns, a prompt that extends the one
that has been sent is a hit, and caches of zeros hold what has been sent in every block of the
latter. -/
def RoundTrip (blake2b : Bytes → UInt64) (casts : Casts) (c : KacheDBConnector)
    (modelInput extended : ModelInput) (tensors : List Tensor) : Prop :=
  ∃ (c' : KacheDBConnector) (restored : List Tensor),
    c.sendKvCachesAndHiddenStates blake2b modelInput (tensors.map .tensor) = (.ok (), c') ∧
      c'.recvKvCachesAndHiddenStates blake2b casts extended
          (tensors.map fun t => .tensor (.filled t.dtype t.shape 0)) =
        (.ok true, restored.map .tensor) ∧
      ∀ j < modelInput.promptTokens.length / c.blockSize, ∀ half < 2, ∀ (l : ℕ) (t : Tensor),
        tensors[l]? = some t → ∃ t' block, restored[l]? = some t' ∧
          t.select [j, half] = .ok block ∧ t'.select [j, half] = .ok block

/-- So many blocks of the prompt, at least, match, and they have been sent without layers. -/
def KnowsEmpty (blake2b : Bytes → UInt64) (c : KacheDBConnector) (modelInput : ModelInput)
    (blocks : ℕ) : Prop :=
  ∃ found, c.prefixCache.findLongestPrefix blake2b modelInput.promptTokens = .ok found ∧
    blocks ≤ found.2.length ∧ ∀ entry ∈ found.2, entry.metadata.layerOffsets.getD [] = []

end KacheDBConnector

/-! ## What comes back -/

section Receiving

variable {blake2b : Bytes → UInt64} {casts : Casts} {blockSize poolSizeBytes : ℕ}
  {prompts : List (List ℤ)} {c c' : KacheDBConnector} {modelInput extended : ModelInput}
  {shapes : List CacheShape} {tensors : List Tensor}

/-- After a call that returns, an extension of the prompt matches all of its blocks. -/
lemma Sound.exists_found (h : Sound blake2b blockSize poolSizeBytes prompts c)
    (hfull : 0 < modelInput.promptTokens.length / blockSize)
    (hextends : modelInput.promptTokens <+: extended.promptTokens)
    (hpack : Packable (chunks blockSize extended.promptTokens)) {kvCaches : List KVLayer}
    (hsend : c.sendKvCachesAndHiddenStates blake2b modelInput kvCaches = (.ok (), c')) :
    ∃ found, c'.prefixCache.findLongestPrefix blake2b extended.promptTokens = .ok found ∧
      found.1 ≠ 0 ∧ found = c'.prefixCache.matchHashes (c.blockHashes blake2b extended) ∧
      ∀ (j : ℕ) (x : UInt64), (c.blockHashes blake2b modelInput)[j]? = some x →
        ∃ entry : BlockEntry, found.2[j]? = some entry ∧
          c'.prefixCache.lookupBlock x = some entry := by
  have hpos := blockSize_pos_of_full hfull
  obtain ⟨⟨-, hcache⟩, -, -, hall, -⟩ := @send_index blake2b c c' blockSize hpos h.sizes.1
    h.sizes.2 (modelInput, kvCaches) hsend
  have hknown (y : UInt64) (hy : y ∈ c.blockHashes blake2b modelInput) :
      (c'.prefixCache.lookupBlock y).isSome := by
    obtain ⟨i, hi⟩ := List.getElem?_of_mem hy
    obtain ⟨hlt, rfl⟩ := h.getElem?_blockHashes hi
    exact hall i hlt
  obtain ⟨more, hmore⟩ := @exists_extended_hashes blake2b modelInput extended c
    (h.sizes.1 ▸ hpos) hextends
  have hentries (j : ℕ) (x : UInt64) (hx : (c.blockHashes blake2b modelInput)[j]? = some x) :
      ∃ entry : BlockEntry, (c'.prefixCache.matchHashes (c.blockHashes blake2b extended)).2[j]? =
        some entry ∧ c'.prefixCache.lookupBlock x = some entry := by
    obtain ⟨entry, hentry⟩ := Option.isSome_iff_exists.mp (hknown x (List.mem_of_getElem? hx))
    exact ⟨entry, by rw [hmore, getElem?_matchHashes_append hknown more hx, hentry], hentry⟩
  refine ⟨_, ?_, ?_, rfl, hentries⟩
  · rw [findLongestPrefix, computeSequenceHashes, hcache, if_neg hpos.ne',
      chainHashes_of_packable hpack]
    simp only [KacheDBConnector.blockHashes, h.sizes.1]
  · obtain ⟨entry, hfirst, -⟩ := hentries 0 _
      (List.getElem?_eq_getElem (by rw [h.length_blockHashes]; exact hfull))
    have hlen := (List.getElem?_eq_some_iff.mp hfirst).1
    rw [matchHashes_tokens, hcache]
    exact (Nat.mul_pos hlen hpos).ne'

/-- A hit for an extension of a prompt that has been sent restores the blocks of the prompt. -/
lemma Sound.recv_found (h : Sound blake2b blockSize poolSizeBytes prompts c)
    (hfull : 0 < modelInput.promptTokens.length / blockSize)
    (hextends : modelInput.promptTokens <+: extended.promptTokens) {kvCaches : List KVLayer}
    (hsend : c.sendKvCachesAndHiddenStates blake2b modelInput kvCaches = (.ok (), c'))
    {targets targets' : List KVLayer} (hrecv : c'.recvKvCachesAndHiddenStates blake2b casts extended
      targets = (.ok true, targets')) :
    Packable (chunks blockSize extended.promptTokens) ∧
      ∃ found, c'.prefixCache.findLongestPrefix blake2b extended.promptTokens = .ok found ∧
        KacheDBConnector.restoreBlocks casts c'.memoryManager 0 found.2 targets =
          (.ok (), targets') ∧
        ∀ (j : ℕ) (x : UInt64), (c.blockHashes blake2b modelInput)[j]? = some x →
          ∃ entry : BlockEntry, found.2[j]? = some entry ∧
            c'.prefixCache.lookupBlock x = some entry := by
  have hpos := blockSize_pos_of_full hfull
  obtain ⟨⟨-, hcache⟩, -⟩ := @send_index blake2b c c' blockSize hpos h.sizes.1 h.sizes.2
    (modelInput, kvCaches) hsend
  obtain ⟨found, hfind, -, hblocks⟩ := recv_eq_hit hrecv
  obtain ⟨-, hpack, -⟩ := findLongestPrefix_eq_ok hcache hfind
  obtain ⟨found', hfind', -, -, hentries⟩ := h.exists_found hfull hextends hpack hsend
  obtain rfl := Except.ok.inj (hfind.symm.trans hfind')
  exact ⟨hpack, found, hfind, hblocks, hentries⟩

/-- A block that comes back holds what is read in half precision, in the type of the cache. -/
lemma Sent.readBack (hsent : Sent blake2b c modelInput shapes tensors c')
    (hf : FirstCall blake2b blockSize poolSizeBytes prompts c modelInput extended shapes)
    (hround : c.RoundTrip blake2b casts modelInput extended tensors) {before after : List Tensor}
    {t : Tensor} (hsplit : tensors = before ++ t :: after) {s : CacheShape} (ht : s.Is t)
    {offset : ℕ} (hoffset : offset = c.memoryManager.writeHead +
      ((pairs before 0).map KacheDBMemoryManager.slotSize).sum) :
    ∃ k v, c'.memoryManager.readPagedBlock offset s.block .float16 = .ok (k, v) ∧
      t.select [0, 0] = .ok (k.converted casts s.dtype) ∧
      t.select [0, 1] = .ok (v.converted casts s.dtype) := by
  obtain ⟨c₁, restored, hsend, hrecv, hback⟩ := hround
  obtain rfl : c₁ = c' := (Prod.mk.inj (hsend.symm.trans hsent.send_eq)).2
  obtain ⟨-, found, -, hblocks, hentries⟩ :=
    hf.sound.recv_found hf.full hf.extends_prompt hsend hrecv
  obtain ⟨x, hx⟩ : ∃ x, (c.blockHashes blake2b modelInput)[0]? = some x :=
    ⟨_, List.getElem?_eq_getElem (by rw [hf.sound.length_blockHashes]; exact hf.full)⟩
  obtain ⟨entry, hfound, hlookup⟩ := hentries 0 x hx
  obtain ⟨entry', hlookup', hoffsets⟩ := hsent.entry_eq 0 x hx
  obtain rfl := Option.some.inj (hlookup.symm.trans hlookup')
  have hget : tensors[before.length]? = some t := by
    rw [hsplit, List.getElem?_append_right le_rfl, Nat.sub_self]
    rfl
  have hzeros : (tensors.map fun t => KVLayer.tensor (.filled t.dtype t.shape 0))[before.length]? =
      some (.tensor (.filled t.dtype t.shape 0)) := by
    rw [List.getElem?_map, hget]
    rfl
  have hshape : (Tensor.filled t.dtype t.shape 0).shape =
      [s.blocks, s.sides, s.heads, s.size, s.dim] := ht.2
  obtain ⟨t', ht', hdtype, hreads, -⟩ := restoreBlocks_reads hblocks hzeros hshape
  have hoffset' : (entry.metadata.layerOffsets.getD [])[before.length]? = some offset := by
    have hstart := getElem?_starts_layerSlots c.memoryManager.writeHead x (pairs before 0)
      (t.half 0 0, t.half 0 1) (pairs after 0)
    rw [← pairs_append_cons, ← hsplit, ← hoffset, length_pairs] at hstart
    rw [hoffsets, zero_mul, add_zero]
    exact hstart
  obtain ⟨k, v, hread, hk, hv⟩ := hreads 0 entry hfound offset hoffset'
  have hdtype' : t'.dtype = s.dtype := hdtype.trans ht.1
  rw [hdtype', zero_add] at hk hv
  -- the same half of the restored block
  have hhalf (half : ℕ) (hlt : half < 2) : t.select [0, half] = t'.select [0, half] := by
    obtain ⟨u, block, hu, ht₀, hu₀⟩ :=
      hback 0 (by rw [hf.sound.sizes.1]; exact hf.full) half hlt _ t hget
    rw [List.getElem?_map, hu] at ht'
    obtain rfl := KVLayer.tensor.inj (Option.some.inj ht')
    rw [ht₀, hu₀]
  exact ⟨k, v, hread, (hhalf 0 Nat.two_pos).trans hk, (hhalf 1 Nat.one_lt_two).trans hv⟩

end Receiving

/-! ## What makes the round trip -/

section Sufficient

variable {blake2b : Bytes → UInt64} {casts : Casts} {blockSize poolSizeBytes : ℕ}
  {prompts : List (List ℤ)} {c c' : KacheDBConnector} {modelInput extended : ModelInput}
  {shapes : List CacheShape} {tensors : List Tensor}

/-- A search with a match whose blocks are restored is a hit. -/
lemma recv_of_restoreBlocks {found : ℕ × List BlockEntry}
    (hprompt : extended.promptTokens ≠ [])
    (hfind : c.prefixCache.findLongestPrefix blake2b extended.promptTokens = .ok found)
    (hne : found.1 ≠ 0) {targets targets' : List KVLayer}
    (hblocks : KacheDBConnector.restoreBlocks casts c.memoryManager 0 found.2 targets =
      (.ok (), targets')) :
    c.recvKvCachesAndHiddenStates blake2b casts extended targets = (.ok true, targets') := by
  rw [KacheDBConnector.recvKvCachesAndHiddenStates, if_neg hprompt, hfind]
  simp only [if_neg hne, hblocks]

/-- Without layers there is nothing to restore. -/
lemma restoreBlocks_nil (m : KacheDBMemoryManager) (bIdx : ℕ) (entries : List BlockEntry) :
    KacheDBConnector.restoreBlocks casts m bIdx entries [] = (.ok (), []) := by
  induction entries generalizing bIdx with
  | nil => rfl
  | cons entry entries ih =>
    have hlayers : KacheDBConnector.restoreLayers casts m bIdx
        (entry.metadata.layerOffsets.getD []) [] = (.ok (), []) := by
      cases entry.metadata.layerOffsets.getD [] <;> rfl
    rw [KacheDBConnector.restoreBlocks, hlayers]
    exact ih (bIdx + 1)

/-- Without offsets nothing is restored. -/
lemma restoreBlocks_empty (m : KacheDBMemoryManager) (bIdx : ℕ) {entries : List BlockEntry}
    (h : ∀ entry ∈ entries, entry.metadata.layerOffsets.getD [] = []) (targets : List KVLayer) :
    KacheDBConnector.restoreBlocks casts m bIdx entries targets = (.ok (), targets) := by
  induction entries generalizing bIdx with
  | nil => rfl
  | cons entry entries ih =>
    obtain ⟨hfirst, hrest⟩ := List.forall_mem_cons.mp h
    rw [KacheDBConnector.restoreBlocks, hfirst]
    exact ih (bIdx + 1) hrest

/-- Without layers a call returns. -/
lemma exists_offloadBlocks_nil (bIdx : ℕ) (hashes : List UInt64) (c : KacheDBConnector) :
    ∃ c', KacheDBConnector.offloadBlocks [] bIdx hashes c = (.ok (), c') := by
  induction hashes generalizing bIdx c with
  | nil => exact ⟨c, rfl⟩
  | cons first hashes ih =>
    rw [KacheDBConnector.offloadBlocks]
    cases c.prefixCache.lookupBlock first with
    | some entry => exact ih (bIdx + 1) c
    | none => exact ih (bIdx + 1) _

/-- A prompt without tokens has no full block. -/
lemma promptTokens_ne_nil (hfull : 0 < modelInput.promptTokens.length / blockSize)
    (hextends : modelInput.promptTokens <+: extended.promptTokens) :
    extended.promptTokens ≠ [] := by
  intro hnil
  rw [hnil, List.prefix_nil] at hextends
  simp [hextends] at hfull

/-- Without layers every prompt makes the round trip. -/
lemma Sound.roundTrip_nil (h : Sound blake2b blockSize poolSizeBytes prompts c)
    (hfull : 0 < modelInput.promptTokens.length / blockSize)
    (hextends : modelInput.promptTokens <+: extended.promptTokens)
    (hpack : Packable (chunks blockSize extended.promptTokens)) :
    c.RoundTrip blake2b casts modelInput extended [] := by
  have hchunks := chunks_isPrefix (blockSize_pos_of_full hfull) hextends
  obtain ⟨c', hcall⟩ := exists_offloadBlocks_nil 0 (c.blockHashes blake2b modelInput) c
  have hsend := (h.send_eq hfull (fun chunk hchunk => hpack chunk (hchunks.subset hchunk)) []).trans
    hcall
  obtain ⟨found, hfind, hne, -, -⟩ := h.exists_found hfull hextends hpack hsend
  exact ⟨c', [], hsend, recv_of_restoreBlocks (promptTokens_ne_nil hfull hextends) hfind hne
    (restoreBlocks_nil _ _ _), fun j _ half _ l t ht => by cases ht⟩

/-- Empty blocks of a prompt that has been sent without layers make the round trip. -/
lemma Sound.roundTrip_empty (h : Sound blake2b blockSize poolSizeBytes prompts c)
    (hfull : 0 < modelInput.promptTokens.length / blockSize)
    (hextends : modelInput.promptTokens <+: extended.promptTokens)
    (hpack : Packable (chunks blockSize extended.promptTokens))
    (hholds : ∀ s ∈ shapes, s.Holds (modelInput.promptTokens.length / blockSize))
    (hempty : ∀ s ∈ shapes, s.elements = 0)
    (hknown : c.KnowsEmpty blake2b extended (modelInput.promptTokens.length / blockSize))
    (hs : List.Forall₂ CacheShape.Is shapes tensors) :
    c.RoundTrip blake2b casts modelInput extended tensors := by
  have hpos := blockSize_pos_of_full hfull
  have hchunks := chunks_isPrefix hpos hextends
  obtain ⟨found, hfind, hlen, hoffsets⟩ := hknown
  obtain ⟨-, -, hfound⟩ := findLongestPrefix_eq_ok h.sizes.2 hfind
  have hne : found.1 ≠ 0 := by
    rw [hfound, matchHashes_tokens, ← hfound, h.sizes.2]
    exact (Nat.mul_pos (hfull.trans_le hlen) hpos).ne'
  -- the matched blocks are those of the prompt
  have hall (x : UInt64) (hx : x ∈ c.blockHashes blake2b modelInput) :
      (c.prefixCache.lookupBlock x).isSome := by
    obtain ⟨j, hj⟩ := List.getElem?_of_mem hx
    have hlt := (List.getElem?_eq_some_iff.mp hj).1
    rw [h.length_blockHashes] at hlt
    obtain ⟨more, hmore⟩ := @exists_extended_hashes blake2b modelInput extended c
      (h.sizes.1 ▸ hpos) hextends
    rw [KacheDBConnector.blockHashes, h.sizes.1] at hmore
    obtain ⟨entry, hget⟩ : ∃ entry, found.2[j]? = some entry :=
      ⟨_, List.getElem?_eq_getElem (hlt.trans_le hlen)⟩
    rw [hfound] at hget
    obtain ⟨y, hy, hlookup⟩ := getElem?_matchHashes hget
    rw [hmore, List.getElem?_append_left (by rw [h.length_blockHashes]; exact hlt), hj] at hy
    obtain rfl := Option.some.inj hy
    rw [hlookup]
    rfl
  have hsend := (h.send_eq hfull (fun chunk hchunk => hpack chunk (hchunks.subset hchunk))
    (tensors.map .tensor)).trans (offloadBlocks_of_known hall)
  refine ⟨c, shapes.map CacheShape.zeros, hsend, ?_, fun j hj half hhalf l t ht => ?_⟩
  · rw [map_filled_eq hs]
    exact recv_of_restoreBlocks (promptTokens_ne_nil hfull hextends) hfind hne
      (restoreBlocks_empty _ _ hoffsets _)
  · rw [h.sizes.1] at hj
    obtain ⟨s, hl, his⟩ := exists_shape_of_getElem? hs ht
    have hmem := List.mem_of_getElem? hl
    have hzeros : s.Is s.zeros := ⟨rfl, rfl⟩
    have hnil {u : Tensor} (hu : s.Is u) : (u.half j half).data = [] := by
      rw [← List.length_eq_zero_iff, hu.length_half (hholds s hmem) hj hhalf, hempty s hmem,
        zero_mul]
    obtain ⟨hsel, hdtype, hshape⟩ := his.select_half (hholds s hmem) hj hhalf
    obtain ⟨hsel', hdtype', hshape'⟩ := hzeros.select_half (hholds s hmem) hj hhalf
    have hsame : s.zeros.half j half = t.half j half :=
      Tensor.ext (hdtype'.trans hdtype.symm) (hshape'.trans hshape.symm)
        ((hnil hzeros).trans (hnil his).symm)
    exact ⟨s.zeros, t.half j half, by rw [List.getElem?_map, hl]; rfl, hsel, by rw [hsel', hsame]⟩

/-- After a call for a prompt none of whose blocks was known, exactly these match. -/
lemma Sent.length_found (hsent : Sent blake2b c modelInput shapes tensors c')
    (hf : FirstCall blake2b blockSize poolSizeBytes prompts c modelInput extended shapes) :
    (c'.prefixCache.matchHashes (c.blockHashes blake2b extended)).2.length =
      modelInput.promptTokens.length / blockSize := by
  have hpos := hf.blockSize_pos
  have hchunks := chunks_isPrefix hpos hf.extends_prompt
  obtain ⟨-, -, -, hall, hnew⟩ := @send_index blake2b c c' blockSize hpos hf.sound.sizes.1
    hf.sound.sizes.2 (modelInput, tensors.map .tensor) hsent.send_eq
  dsimp only at hall hnew
  rw [length_chunks] at hall
  have hpart (k : ℕ) : PrefixOf blockSize prompts
      ((chunks blockSize extended.promptTokens).take k) :=
    ⟨_, hf.prompt_mem, hf.packable, List.take_prefix _ _⟩
  have htake {k : ℕ} (hk : k ≤ modelInput.promptTokens.length / blockSize) :
      (chunks blockSize modelInput.promptTokens).take k =
        (chunks blockSize extended.promptTokens).take k := by
    rw [List.prefix_iff_eq_take.mp hchunks, List.take_take, length_chunks, min_eq_left hk]
  apply length_matchHashes
  · rw [hf.sound.length_blockHashes]
    exact Nat.div_le_div_right hf.extends_prompt.length_le
  · intro j x hx
    obtain ⟨hlt, rfl⟩ := hf.sound.getElem?_blockHashes hx
    constructor
    · intro hsome
      obtain ⟨entry, hentry⟩ := Option.isSome_iff_exists.mp hsome
      cases hlookup : c.prefixCache.lookupBlock (prefixHash blake2b
        ((chunks blockSize extended.promptTokens).take (j + 1))) with
      | none =>
        -- the entry is new, and that of a block of the prompt
        obtain ⟨k, hk, hname, -⟩ := hnew _ entry hlookup hentry
        rw [length_chunks] at hk
        rw [htake hk] at hname
        have hlist := congrArg List.length (prefixHash_inj hf.apart (hpart _) (hpart _) hname)
        rw [List.length_take, List.length_take] at hlist
        have hle := hchunks.length_le
        rw [length_chunks] at hle
        omega
      | some entry' =>
        -- then the first block of the prompt would have been known
        obtain ⟨chunk, blocks, hprefix, hname, hfirst⟩ := hf.sound.known _ entry' hlookup
        have hlist := prefixHash_inj hf.apart (hpart _) hprefix hname
        have hone : (chunks blockSize modelInput.promptTokens).take 1 = [chunk] := by
          rw [htake hf.full]
          have htwice : (chunks blockSize extended.promptTokens).take 1 =
              ((chunks blockSize extended.promptTokens).take (j + 1)).take 1 := by
            rw [List.take_take, min_eq_left (by omega)]
          rw [htwice, hlist]
          rfl
        have hnone : c.prefixCache.lookupBlock (prefixHash blake2b [chunk]) = none := by
          obtain ⟨first, hget⟩ : ∃ first, (c.blockHashes blake2b modelInput)[0]? = some first :=
            ⟨_, List.getElem?_eq_getElem (by rw [hf.sound.length_blockHashes]; exact hf.full)⟩
          obtain ⟨-, hzero⟩ := hf.sound.getElem?_blockHashes hget
          rw [zero_add, hone] at hzero
          rw [← hzero]
          exact hf.knowsNone first (List.mem_of_getElem? hget)
        rw [hnone] at hfirst
        cases hfirst
    · intro hj
      rw [← htake hj]
      exact hall j hj

/-- Where a layer of a block is, and what is there. -/
lemma Sent.exists_offset (hsent : Sent blake2b c modelInput shapes tensors c')
    (hf : FirstCall blake2b blockSize poolSizeBytes prompts c modelInput extended shapes)
    (hs : List.Forall₂ CacheShape.Is shapes tensors) {j : ℕ} {x : UInt64}
    (hx : (c.blockHashes blake2b modelInput)[j]? = some x) {entry : BlockEntry}
    (hentry : c'.prefixCache.lookupBlock x = some entry) {l : ℕ} {t : Tensor}
    (ht : tensors[l]? = some t) :
    ∃ offset, (entry.metadata.layerOffsets.getD [])[l]? = some offset ∧
      window c'.memoryManager.buf (offset + TensorBlockDescriptor.sizeof)
          ((t.half j 0).data.length + (t.half j 1).data.length) =
        (t.half j 0).data ++ (t.half j 1).data ∧
      offset + TensorBlockDescriptor.sizeof +
        ((t.half j 0).data.length + (t.half j 1).data.length) ≤ c'.memoryManager.buf.length := by
  have hj : j < modelInput.promptTokens.length / blockSize := by
    rw [← hf.sound.length_blockHashes]
    exact (List.getElem?_eq_some_iff.mp hx).1
  obtain ⟨hlt, hget⟩ := List.getElem?_eq_some_iff.mp ht
  have hsplit : tensors = tensors.take l ++ t :: tensors.drop (l + 1) := by
    rw [← hget, List.getElem_cons_drop, List.take_append_drop]
  have hlen : (tensors.take l).length = l := by
    rw [List.length_take, min_eq_left hlt.le]
  obtain ⟨entry', hentry', hoffsets⟩ := hsent.entry_eq j x hx
  obtain rfl := Option.some.inj (hentry.symm.trans hentry')
  have hstart := getElem?_starts_layerSlots (c.memoryManager.writeHead +
    j * (shapes.map CacheShape.slotSize).sum) x (pairs (tensors.take l) j)
    (t.half j 0, t.half j 1) (pairs (tensors.drop (l + 1)) j)
  rw [← pairs_append_cons, ← hsplit, length_pairs, hlen] at hstart
  rw [hoffsets]
  exact ⟨_, hstart, hsent.window_payload hf hs hj hsplit rfl⟩

/-- **Half precision makes the round trip**, if the blocks are not empty. -/
theorem FirstCall.roundTrip
    (hf : FirstCall blake2b blockSize poolSizeBytes prompts c modelInput extended shapes)
    (hhalf : ∀ s ∈ shapes, s.dtype = .float16 ∧ 0 < s.elements)
    (hs : List.Forall₂ CacheShape.Is shapes tensors) :
    c.RoundTrip blake2b casts modelInput extended tensors := by
  obtain ⟨c', hsent⟩ := hf.exists_sent hs
  obtain ⟨found, hfind, hne, hfound, hentries⟩ :=
    hf.sound.exists_found hf.full hf.extends_prompt hf.packable hsent.send_eq
  have hlen := hsent.length_found hf
  rw [← hfound] at hlen
  -- every matched entry is that of a block of the prompt
  have hmatched {j : ℕ} {entry : BlockEntry} (hj : found.2[j]? = some entry) : ∃ x,
      (c.blockHashes blake2b modelInput)[j]? = some x ∧
        c'.prefixCache.lookupBlock x = some entry := by
    have hlt := (List.getElem?_eq_some_iff.mp hj).1
    rw [hlen, ← hf.sound.length_blockHashes] at hlt
    obtain ⟨x, hx⟩ : ∃ x, (c.blockHashes blake2b modelInput)[j]? = some x :=
      ⟨_, List.getElem?_eq_getElem hlt⟩
    obtain ⟨entry', hj', hlookup⟩ := hentries j x hx
    obtain rfl := Option.some.inj (hj.symm.trans hj')
    exact ⟨x, hx, hlookup⟩
  have htakes (entry : BlockEntry) (hentry : entry ∈ found.2) (l offset : ℕ) (z : Tensor)
      (hoffset : (entry.metadata.layerOffsets.getD [])[l]? = some offset)
      (hz : (shapes.map CacheShape.zeros)[l]? = some z) :
      Takes c'.memoryManager (modelInput.promptTokens.length / blockSize) offset z.shape := by
    obtain ⟨j, hj⟩ := List.getElem?_of_mem hentry
    obtain ⟨x, hx, hlookup⟩ := hmatched hj
    rw [List.getElem?_map] at hz
    obtain ⟨s, hl, rfl⟩ := Option.map_eq_some_iff.mp hz
    have hmem := List.mem_of_getElem? hl
    obtain ⟨t, ht, his⟩ : ∃ t, tensors[l]? = some t ∧ s.Is t := by
      have hlt : l < tensors.length := hs.length_eq ▸ (List.getElem?_eq_some_iff.mp hl).1
      obtain ⟨s', hl', his⟩ := exists_shape_of_getElem? hs (List.getElem?_eq_getElem hlt)
      obtain rfl := Option.some.inj (hl.symm.trans hl')
      exact ⟨_, List.getElem?_eq_getElem hlt, his⟩
    obtain ⟨offset', hoffset', -, hfit⟩ := hsent.exists_offset hf hs hx hlookup ht
    obtain rfl := Option.some.inj (hoffset.symm.trans hoffset')
    have hb : j < modelInput.promptTokens.length / blockSize := by
      rw [← hf.sound.length_blockHashes]
      exact (List.getElem?_eq_some_iff.mp hx).1
    rw [his.length_half (hf.holds s hmem) hb Nat.two_pos,
      his.length_half (hf.holds s hmem) hb Nat.one_lt_two, (hhalf s hmem).1] at hfit
    refine ⟨s.blocks, s.sides, s.heads, s.size, s.dim, rfl, (hf.holds s hmem).1,
      (hf.holds s hmem).2, readPagedBlock_succeeds rfl (hhalf s hmem).2 ?_⟩
    change offset + (TensorBlockDescriptor.sizeof + 2 * (s.elements * DType.float16.itemSize)) ≤ _
    omega
  obtain ⟨restored, hblocks⟩ := restoreBlocks_of_takes casts htakes
    (show 0 + found.2.length ≤ _ by rw [hlen, zero_add])
  refine ⟨c', restored, hsent.send_eq, ?_, fun j hj half hlt l t ht => ?_⟩
  · rw [map_filled_eq hs]
    exact recv_of_restoreBlocks (promptTokens_ne_nil hf.full hf.extends_prompt) hfind hne hblocks
  · rw [hf.sound.sizes.1] at hj
    obtain ⟨s, hl, his⟩ := exists_shape_of_getElem? hs ht
    have hmem := List.mem_of_getElem? hl
    obtain ⟨x, hx⟩ : ∃ x, (c.blockHashes blake2b modelInput)[j]? = some x :=
      ⟨_, List.getElem?_eq_getElem (by rw [hf.sound.length_blockHashes]; exact hj)⟩
    obtain ⟨entry, hentry, hlookup⟩ := hentries j x hx
    obtain ⟨offset, hoffset, hwindow, -⟩ := hsent.exists_offset hf hs hx hlookup ht
    have hzeros : ((shapes.map CacheShape.zeros).map KVLayer.tensor)[l]? =
        some (.tensor s.zeros) := by
      rw [List.getElem?_map, List.getElem?_map, hl]
      rfl
    obtain ⟨t', ht', hdtype, hreads, -⟩ := restoreBlocks_reads (t := s.zeros) (n := s.blocks)
      (c := s.sides) hblocks hzeros rfl
    obtain ⟨k, v, hread, hk, hv⟩ := hreads j entry hentry offset hoffset
    rw [zero_add, hdtype] at hk hv
    -- what is read is what has been sent
    obtain ⟨hsel₀, hd₀, hs₀⟩ := his.select_half (hf.holds s hmem) hj Nat.two_pos
    obtain ⟨hsel₁, hd₁, hs₁⟩ := his.select_half (hf.holds s hmem) hj Nat.one_lt_two
    have hfloat := (hhalf s hmem).1
    have hread' : c'.memoryManager.readPagedBlock offset (t.half j 0).shape (t.half j 0).dtype =
        .ok (k, v) := by
      rw [hs₀, hd₀, hfloat]
      exact hread
    have hmapped : TensorCodec.dtypeMap (t.half j 0).dtype = some (.fp16, 2) := by
      rw [hd₀, hfloat]
      rfl
    obtain ⟨rfl, rfl⟩ := readPagedBlock_of_window hwindow hmapped (hs₁.trans hs₀.symm)
      (hd₁.trans hd₀.symm) hread'
    have hsame {i : ℕ} (hi : (t.half j i).dtype = s.dtype) :
        (t.half j i).converted casts s.zeros.dtype = t.half j i := by
      have hself := Tensor.converted_self casts (t.half j i)
      rwa [hi] at hself
    rw [hsame hd₀] at hk
    rw [hsame hd₁] at hv
    rw [List.getElem?_map] at ht'
    obtain ⟨u, hu, htensor⟩ := Option.map_eq_some_iff.mp ht'
    obtain rfl := KVLayer.tensor.inj htensor
    interval_cases half
    · exact ⟨u, _, hu, hsel₀, hk⟩
    · exact ⟨u, _, hu, hsel₁, hv⟩

end Sufficient

end KacheDB
