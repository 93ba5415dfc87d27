import KacheDB.Vllm.Layout

/-!
# A prompt that is sent first

What the vLLM connector keeps of a prompt none of whose blocks it knows: the blocks stand one behind
the other in the pool, with all their layers, and the entry of each says where.
-/

namespace KacheDB

open Foundation KacheDBPrefixCache KacheDBMemoryManager

/-- The element type and the five dimensions of the cache of a layer. -/
structure CacheShape where
  dtype : DType
  blocks : ℕ
  sides : ℕ
  heads : ℕ
  size : ℕ
  dim : ℕ

namespace CacheShape

/-- The five dimensions. -/
def dims (s : CacheShape) : List ℕ :=
  [s.blocks, s.sides, s.heads, s.size, s.dim]

/-- The dimensions of the keys of a block. -/
def block (s : CacheShape) : List ℕ :=
  [s.heads, s.size, s.dim]

/-- The number of elements of the keys of a block. -/
def elements (s : CacheShape) : ℕ :=
  s.block.prod

/-- The number of bytes of the slot of a block. -/
def slotSize (s : CacheShape) : ℕ :=
  TensorBlockDescriptor.sizeof +
    (s.elements * s.dtype.itemSize + s.elements * s.dtype.itemSize)

/-- There are the keys and the values of so many blocks. -/
def Holds (s : CacheShape) (blocks : ℕ) : Prop :=
  blocks ≤ s.blocks ∧ 2 ≤ s.sides

/-- A tensor of this type and shape. -/
def Is (s : CacheShape) (t : Tensor) : Prop :=
  t.dtype = s.dtype ∧ t.shape = s.dims

/-- The tensor of zeros. -/
def zeros (s : CacheShape) : Tensor :=
  .filled s.dtype s.dims 0

end CacheShape

namespace KacheDBConnector

/-- The names of the blocks of a prompt. -/
def blockHashes (blake2b : Bytes → UInt64) (c : KacheDBConnector) (modelInput : ModelInput) :
    List UInt64 :=
  HashChain.hashes blake2b blockBuffer 0 (chunks c.blockSize modelInput.promptTokens)

/-- No block of the prompt is known. -/
def KnowsNone (blake2b : Bytes → UInt64) (c : KacheDBConnector) (modelInput : ModelInput) : Prop :=
  ∀ x ∈ c.blockHashes blake2b modelInput, c.prefixCache.lookupBlock x = none

end KacheDBConnector

/-! ## The blocks of a cache -/

/-- The keys or the values of a block, and the tensor itself if it has no such block. -/
def Tensor.half (t : Tensor) (b i : ℕ) : Tensor :=
  match t.select [b, i] with
  | .error _ => t
  | .ok block => block

/-- The keys and values of a block in all layers. -/
def pairs (tensors : List Tensor) (b : ℕ) : List (Tensor × Tensor) :=
  tensors.map fun t => (t.half b 0, t.half b 1)

@[simp] lemma length_pairs (tensors : List Tensor) (b : ℕ) :
    (pairs tensors b).length = tensors.length :=
  List.length_map _

lemma pairs_append_cons (before : List Tensor) (t : Tensor) (after : List Tensor) (b : ℕ) :
    pairs (before ++ t :: after) b =
      pairs before b ++ (t.half b 0, t.half b 1) :: pairs after b := by
  rw [pairs, List.map_append, List.map_cons]
  rfl

section Halves

variable {s : CacheShape} {t : Tensor} {blocks b i : ℕ}

/-- Where the half of a block is. -/
lemma CacheShape.locate_half (s : CacheShape) (hb : b < s.blocks) (hi : i < s.sides) :
    ∃ o, Tensor.locate s.dims [b, i] = some (o, s.block) := by
  rw [CacheShape.dims, Tensor.locate, if_pos hb, Tensor.locate, if_pos hi, Tensor.locate]
  exact ⟨_, rfl⟩

lemma CacheShape.Is.ndim_eq (hs : s.Is t) : t.ndim = 5 := by
  rw [Tensor.ndim, hs.2]
  rfl

/-- The half of a block that the cache has. -/
lemma CacheShape.Is.select_half (hs : s.Is t) (hblocks : s.Holds blocks) (hb : b < blocks)
    (hi : i < 2) : t.select [b, i] = .ok (t.half b i) ∧ (t.half b i).dtype = s.dtype ∧
      (t.half b i).shape = s.block := by
  obtain ⟨o, hloc⟩ := s.locate_half (hb.trans_le hblocks.1) (hi.trans_le hblocks.2)
  rw [← hs.2] at hloc
  cases hsel : t.select [b, i] with
  | error e =>
    unfold Tensor.select at hsel
    split at hsel
    · next hnone =>
      rw [hloc] at hnone
      cases hnone
    · cases hsel
  | ok u =>
    have hhalf : t.half b i = u := by rw [Tensor.half, hsel]
    obtain ⟨o', hloc', hdtype, -⟩ := Tensor.select_eq_ok_iff.mp hsel
    rw [hloc] at hloc'
    rw [hhalf]
    exact ⟨rfl, hdtype.trans hs.1, ((Prod.mk.inj (Option.some.inj hloc')).2).symm⟩

/-- The keys and values of a block have three dimensions, or five. -/
lemma CacheShape.Is.three_le (hs : s.Is t) (b i : ℕ) : 3 ≤ (t.half b i).shape.length := by
  rw [Tensor.half]
  split
  · rw [hs.2]
    simp [CacheShape.dims]
  · next u hsel =>
    obtain ⟨o, hloc, -⟩ := Tensor.select_eq_ok_iff.mp hsel
    rw [hs.2, CacheShape.dims] at hloc
    rw [locate_block hloc]
    simp

/-- The block of a layer. -/
lemma CacheShape.Is.block_eq (hs : s.Is t) (hblocks : s.Holds blocks) (hb : b < blocks)
    (blockSize : ℕ) :
    (KVLayer.tensor t).block blockSize b = .ok (t.half b 0, t.half b 1) := by
  rw [KVLayer.block, if_pos hs.ndim_eq, (hs.select_half hblocks hb Nat.two_pos).1,
    (hs.select_half hblocks hb Nat.one_lt_two).1]
  rfl

/-- The half of a block in bytes. -/
lemma CacheShape.Is.length_half (hs : s.Is t) (hblocks : s.Holds blocks) (hb : b < blocks)
    (hi : i < 2) : (t.half b i).data.length = s.elements * s.dtype.itemSize := by
  obtain ⟨-, hdtype, hshape⟩ := hs.select_half hblocks hb hi
  rw [(t.half b i).length_data, hdtype, hshape, CacheShape.elements]

end Halves

section Layers

variable {shapes : List CacheShape} {tensors : List Tensor} {blocks b : ℕ}

/-- All layers have the block. -/
lemma map_block_eq (hs : List.Forall₂ CacheShape.Is shapes tensors)
    (hblocks : ∀ s ∈ shapes, s.Holds blocks) (hb : b < blocks) (blockSize : ℕ) :
    (tensors.map KVLayer.tensor).map (KVLayer.block blockSize b) =
      (pairs tensors b).map Except.ok := by
  induction hs with
  | nil => rfl
  | cons hfirst hrest ih =>
    obtain ⟨hfirst', hrest'⟩ := List.forall_mem_cons.mp hblocks
    rw [List.map_cons, List.map_cons, hfirst.block_eq hfirst' hb, ih hrest']
    rfl

lemma threeDims_pairs (hs : List.Forall₂ CacheShape.Is shapes tensors) (b : ℕ) :
    ThreeDims (pairs tensors b) := by
  induction hs with
  | nil => exact fun _ hnil => absurd hnil List.not_mem_nil
  | cons hfirst hrest ih => exact List.forall_mem_cons.mpr ⟨hfirst.three_le b 0, ih⟩

/-- The slots of a block in all layers. -/
lemma sum_slotSize_pairs (hs : List.Forall₂ CacheShape.Is shapes tensors)
    (hblocks : ∀ s ∈ shapes, s.Holds blocks) (hb : b < blocks) :
    ((pairs tensors b).map KacheDBMemoryManager.slotSize).sum =
      (shapes.map CacheShape.slotSize).sum := by
  induction hs with
  | nil => rfl
  | cons hfirst hrest ih =>
    obtain ⟨hfirst', hrest'⟩ := List.forall_mem_cons.mp hblocks
    have hsize := ih hrest'
    rw [pairs] at hsize ⊢
    rw [List.map_cons, List.map_cons, List.sum_cons, hsize, List.map_cons, List.sum_cons,
      KacheDBMemoryManager.slotSize, hfirst.length_half hfirst' hb Nat.two_pos,
      hfirst.length_half hfirst' hb Nat.one_lt_two, CacheShape.slotSize]

/-- Caches of zeros. -/
lemma map_filled_eq (hs : List.Forall₂ CacheShape.Is shapes tensors) :
    (tensors.map fun t => KVLayer.tensor (.filled t.dtype t.shape 0)) =
      (shapes.map CacheShape.zeros).map .tensor := by
  induction hs with
  | nil => rfl
  | cons hfirst hrest ih =>
    rw [List.map_cons, ih, hfirst.1, hfirst.2]
    rfl

/-- Caches of zeros have these types and shapes. -/
lemma forall₂_zeros (shapes : List CacheShape) :
    List.Forall₂ CacheShape.Is shapes (shapes.map CacheShape.zeros) := by
  induction shapes with
  | nil => exact .nil
  | cons s shapes ih => exact .cons ⟨rfl, rfl⟩ ih

/-- The shape of a layer. -/
lemma exists_shape_of_getElem? (hs : List.Forall₂ CacheShape.Is shapes tensors) {l : ℕ}
    {t : Tensor} (ht : tensors[l]? = some t) : ∃ s, shapes[l]? = some s ∧ s.Is t := by
  induction hs generalizing l with
  | nil => cases ht
  | @cons s u shapes tensors hfirst hrest ih =>
    cases l with
    | zero =>
      obtain rfl := Option.some.inj ht
      exact ⟨s, rfl, hfirst⟩
    | succ l => exact ih ht

end Layers

/-! ## The prompt and its extension -/

section Prompts

variable {blake2b : Bytes → UInt64} {blockSize poolSizeBytes : ℕ} {prompts : List (List ℤ)}
  {c : KacheDBConnector} {modelInput extended : ModelInput}

/-- A call for a prompt with a full block. -/
lemma Sound.send_eq (h : Sound blake2b blockSize poolSizeBytes prompts c)
    (hfull : 0 < modelInput.promptTokens.length / blockSize)
    (hpack : Packable (chunks blockSize modelInput.promptTokens)) (kvCaches : List KVLayer) :
    c.sendKvCachesAndHiddenStates blake2b modelInput kvCaches =
      KacheDBConnector.offloadBlocks kvCaches 0 (c.blockHashes blake2b modelInput) c := by
  have hprompt : modelInput.promptTokens ≠ [] := by
    intro hnil
    simp [hnil] at hfull
  have hsize : blockSize ≠ 0 := by
    rintro rfl
    simp at hfull
  rw [KacheDBConnector.sendKvCachesAndHiddenStates, if_neg hprompt, computeSequenceHashes,
    h.sizes.2, if_neg hsize, chainHashes_of_packable hpack]
  simp only [KacheDBConnector.blockHashes, h.sizes.1]

lemma Sound.length_blockHashes (h : Sound blake2b blockSize poolSizeBytes prompts c)
    (modelInput : ModelInput) : (c.blockHashes blake2b modelInput).length =
      modelInput.promptTokens.length / blockSize := by
  rw [KacheDBConnector.blockHashes, HashChain.length_hashes, length_chunks, h.sizes.1]

/-- The name of a block is that of the prefix that it ends. -/
lemma Sound.getElem?_blockHashes (h : Sound blake2b blockSize poolSizeBytes prompts c) {j : ℕ}
    {x : UInt64} (hx : (c.blockHashes blake2b modelInput)[j]? = some x) :
    j < (chunks blockSize modelInput.promptTokens).length ∧
      x = prefixHash blake2b ((chunks blockSize modelInput.promptTokens).take (j + 1)) := by
  have hlt := (List.getElem?_eq_some_iff.mp hx).1
  rw [h.length_blockHashes, ← length_chunks] at hlt
  rw [KacheDBConnector.blockHashes, h.sizes.1, HashChain.getElem?_hashes _ _ _ hlt] at hx
  exact ⟨hlt, (Option.some.inj hx).symm⟩

/-- The blocks of a prompt have different names. -/
lemma Sound.nodup_blockHashes (h : Sound blake2b blockSize poolSizeBytes prompts c)
    (hhash : HashesApart blake2b blockSize prompts)
    (hprompt : PrefixOf blockSize prompts (chunks blockSize modelInput.promptTokens)) :
    (c.blockHashes blake2b modelInput).Nodup := by
  have hpart (k : ℕ) : PrefixOf blockSize prompts
      ((chunks blockSize modelInput.promptTokens).take k) :=
    hprompt.of_isPrefix (List.take_prefix _ _)
  rw [List.nodup_iff_getElem?_ne_getElem?]
  intro i j hij hj heq
  obtain ⟨hlen, hi⟩ := h.getElem?_blockHashes (heq.trans (List.getElem?_eq_getElem hj))
  obtain ⟨hlen', hj'⟩ := h.getElem?_blockHashes (List.getElem?_eq_getElem hj)
  have hlist := congrArg List.length (prefixHash_inj hhash (hpart _) (hpart _) (hi.symm.trans hj'))
  rw [List.length_take, List.length_take] at hlist
  omega

/-- Blocks have a size, if a prompt has one. -/
lemma blockSize_pos_of_full {n : ℕ} (hfull : 0 < n / blockSize) : 0 < blockSize := by
  rcases Nat.eq_zero_or_pos blockSize with rfl | hpos
  · simp at hfull
  · exact hpos

/-- The names of the blocks of an extension. -/
lemma exists_extended_hashes (c : KacheDBConnector) (hsize : 0 < c.blockSize)
    (hextends : modelInput.promptTokens <+: extended.promptTokens) :
    ∃ more, c.blockHashes blake2b extended = c.blockHashes blake2b modelInput ++ more := by
  obtain ⟨rest, hrest⟩ := chunks_isPrefix hsize hextends
  exact ⟨_, by rw [KacheDBConnector.blockHashes, ← hrest, HashChain.hashes_append]; rfl⟩

end Prompts

/-! ## A prompt none of whose blocks is known -/

section Sending

variable {blake2b : Bytes → UInt64} {blockSize poolSizeBytes : ℕ} {prompts : List (List ℤ)}
  {c c' : KacheDBConnector} {modelInput extended : ModelInput} {shapes : List CacheShape}
  {tensors : List Tensor}

/-- A call for a prompt none of whose blocks is known, with caches that have its blocks, where no
write wraps; and an extension of the prompt. -/
structure FirstCall (blake2b : Bytes → UInt64) (blockSize poolSizeBytes : ℕ)
    (prompts : List (List ℤ)) (c : KacheDBConnector) (modelInput extended : ModelInput)
    (shapes : List CacheShape) : Prop where
  sound : Sound blake2b blockSize poolSizeBytes prompts c
  apart : HashesApart blake2b blockSize prompts
  full : 0 < modelInput.promptTokens.length / blockSize
  extends_prompt : modelInput.promptTokens <+: extended.promptTokens
  prompt_mem : extended.promptTokens ∈ prompts
  packable : Packable (chunks blockSize extended.promptTokens)
  knowsNone : c.KnowsNone blake2b modelInput
  holds : ∀ s ∈ shapes, s.Holds (modelInput.promptTokens.length / blockSize)
  room : c.memoryManager.writeHead + modelInput.promptTokens.length / blockSize *
    (shapes.map CacheShape.slotSize).sum ≤ poolSizeBytes

lemma FirstCall.blockSize_pos (hf : FirstCall blake2b blockSize poolSizeBytes prompts c modelInput
    extended shapes) : 0 < blockSize :=
  blockSize_pos_of_full hf.full

/-- The call has written the blocks of the prompt one behind the other, and their entries say
where. -/
structure Sent (blake2b : Bytes → UInt64) (c : KacheDBConnector) (modelInput : ModelInput)
    (shapes : List CacheShape) (tensors : List Tensor) (c' : KacheDBConnector) : Prop where
  send_eq : c.sendKvCachesAndHiddenStates blake2b modelInput (tensors.map .tensor) = (.ok (), c')
  memory_eq : c'.memoryManager =
    c.memoryManager.extend (blockSlots (pairs tensors) 0 (c.blockHashes blake2b modelInput))
  entry_eq : ∀ j x, (c.blockHashes blake2b modelInput)[j]? = some x →
    ∃ entry, c'.prefixCache.lookupBlock x = some entry ∧ entry.metadata.layerOffsets =
      some (starts (c.memoryManager.writeHead + j * (shapes.map CacheShape.slotSize).sum)
        (layerSlots x 0 (pairs tensors j)))

/-- The call returns. -/
lemma FirstCall.exists_sent
    (hf : FirstCall blake2b blockSize poolSizeBytes prompts c modelInput extended shapes)
    (hs : List.Forall₂ CacheShape.Is shapes tensors) :
    ∃ c', Sent blake2b c modelInput shapes tensors c' := by
  have hchunks := chunks_isPrefix hf.blockSize_pos hf.extends_prompt
  have hprefix : PrefixOf blockSize prompts (chunks blockSize modelInput.promptTokens) :=
    ⟨_, hf.prompt_mem, hf.packable, hchunks⟩
  have hpack : Packable (chunks blockSize modelInput.promptTokens) :=
    fun chunk hchunk => hf.packable chunk (hchunks.subset hchunk)
  have hlen := hf.sound.length_blockHashes modelInput
  obtain ⟨cache, hcall, hentries⟩ := @offloadBlocks_new (tensors.map .tensor) (pairs tensors)
    (shapes.map CacheShape.slotSize).sum (c.blockHashes blake2b modelInput) 0 c
    (fun b _ hb => map_block_eq hs hf.holds (by omega) c.blockSize) (threeDims_pairs hs)
    (fun b _ hb => sum_slotSize_pairs hs hf.holds (by omega))
    (hf.sound.nodup_blockHashes hf.apart hprefix) hf.knowsNone
    (hf.sound.pool.1.trans_le hf.sound.pool.2)
    (by rw [hlen]; exact hf.room.trans_eq hf.sound.pool.1.symm)
  refine ⟨_, (hf.sound.send_eq hf.full hpack _).trans hcall, rfl, fun j x hx => ?_⟩
  have hentry := hentries j x hx
  rw [zero_add] at hentry
  exact ⟨_, hentry, rfl⟩

/-- The payload of a layer of a block after the call. -/
lemma Sent.window_payload (hsent : Sent blake2b c modelInput shapes tensors c')
    (hf : FirstCall blake2b blockSize poolSizeBytes prompts c modelInput extended shapes)
    (hs : List.Forall₂ CacheShape.Is shapes tensors) {j : ℕ}
    (hj : j < modelInput.promptTokens.length / blockSize) {before after : List Tensor} {t : Tensor}
    (hsplit : tensors = before ++ t :: after) {offset : ℕ}
    (hoffset : offset = c.memoryManager.writeHead + j * (shapes.map CacheShape.slotSize).sum +
      ((pairs before j).map KacheDBMemoryManager.slotSize).sum) :
    window c'.memoryManager.buf (offset + TensorBlockDescriptor.sizeof)
        ((t.half j 0).data.length + (t.half j 1).data.length) =
      (t.half j 0).data ++ (t.half j 1).data ∧
      offset + TensorBlockDescriptor.sizeof +
        ((t.half j 0).data.length + (t.half j 1).data.length) ≤ c'.memoryManager.buf.length := by
  have hlen := hf.sound.length_blockHashes modelInput
  have htotal (b : ℕ) (_ : 0 ≤ b) (hb : b < 0 + (c.blockHashes blake2b modelInput).length) :
      ((pairs tensors b).map KacheDBMemoryManager.slotSize).sum =
        (shapes.map CacheShape.slotSize).sum :=
    sum_slotSize_pairs hs hf.holds (by omega)
  have hpairs : pairs tensors (0 + j) =
      pairs before j ++ (t.half j 0, t.half j 1) :: pairs after j := by
    rw [zero_add, hsplit, pairs_append_cons]
  obtain ⟨front, back, hflat, hfront⟩ := exists_payload htotal (hlen ▸ hj) hpairs
  have hall := length_flatten_blockSlots htotal
  have hfit : c.memoryManager.writeHead + (blockSlots (pairs tensors) 0
      (c.blockHashes blake2b modelInput)).flatten.length ≤ c.memoryManager.buf.length := by
    rw [hall, hlen]
    exact hf.room.trans hf.sound.pool.2
  have hstart : offset + TensorBlockDescriptor.sizeof =
      c.memoryManager.writeHead + front.length := by
    rw [hfront, hoffset]
    ring
  have hbuf := length_buf_extend hfit
  rw [← hsent.memory_eq] at hbuf
  have hread : c'.memoryManager.buf = splice c.memoryManager.buf c.memoryManager.writeHead
      (front ++ (((t.half j 0).data ++ (t.half j 1).data) ++ back)) := by
    rw [hsent.memory_eq, extend, hflat]
  rw [hflat] at hfit
  constructor
  · rw [hread, hstart, ← List.length_append]
    exact window_splice_middle hfit
  · rw [hbuf, hstart]
    simp only [List.length_append] at hfit
    omega

end Sending

end KacheDB
