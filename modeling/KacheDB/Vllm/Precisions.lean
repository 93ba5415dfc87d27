import KacheDB.Vllm.RoundTrips

/-!
# Round trips in every precision

Whether the vLLM connector gives back what it has been sent.  The writer takes the type of the
elements from the tensors; the reader takes the default of `read_paged_block`, half precision, and
with it the place of the values behind the keys.  `roundTrip_iff` says for which types and shapes of
the caches, and after which calls, a prompt that is sent comes back bit for bit.
-/

namespace KacheDB

open Foundation KacheDBPrefixCache KacheDBMemoryManager

/-- The number of blocks of the prompt that are not known: those that a call sends. -/
def KacheDBConnector.newBlocks (blake2b : Bytes → UInt64) (c : KacheDBConnector)
    (modelInput : ModelInput) : ℕ :=
  (c.blockHashes blake2b modelInput).countP fun x => (c.prefixCache.lookupBlock x).isNone

/-! ## Caches that differ in one half of a block -/

section Patching

variable {blake2b : Bytes → UInt64} {casts : Casts} {blockSize poolSizeBytes : ℕ}
  {prompts : List (List ℤ)} {c c₁ c₂ : KacheDBConnector} {modelInput extended : ModelInput}
  {shapes : List CacheShape} {before after : List Tensor} {s : CacheShape} {t t₁ t₂ : Tensor}

/-- A cache of zeros with something else in one half of a block. -/
lemma CacheShape.exists_patched (s : CacheShape) {blocks b i : ℕ} (hblocks : s.Holds blocks)
    (hb : b < blocks) (hi : i < 2) {u : Tensor} (hdtype : u.dtype = s.dtype)
    (hshape : u.shape = s.block) : ∃ t, s.Is t ∧ t.select [b, i] = .ok u ∧
      ∀ b' i', (b', i') ≠ (b, i) → t.select [b', i'] = s.zeros.select [b', i'] := by
  obtain ⟨t, ht⟩ := assign_succeeds .zeros (t := s.zeros) (n := s.blocks) (c := s.sides) rfl hshape
    (hb.trans_le hblocks.1) (hi.trans_le hblocks.2)
  refine ⟨t, Tensor.assign_type ht, ?_, fun b' i' hne => ?_⟩
  · refine Tensor.select_assign_self ht hdtype fun o s' hloc => ?_
    rw [locate_block hloc, hshape]
    rfl
  · refine Tensor.select_assign_of_ne ht [b', i'] rfl fun heq => hne ?_
    rw [List.cons.injEq, List.cons.injEq] at heq
    rw [heq.1, heq.2.1]

/-- The pools after sending two caches that differ only in the values of the first block. -/
lemma FirstCall.buf_patched
    (hf : FirstCall blake2b blockSize poolSizeBytes prompts c modelInput extended shapes)
    (hsent₁ : Sent blake2b c modelInput shapes (before ++ t₁ :: after) c₁)
    (hsent₂ : Sent blake2b c modelInput shapes (before ++ t₂ :: after) c₂)
    (hkeys : t₁.half 0 0 = t₂.half 0 0)
    (hlen : (t₁.half 0 1).data.length = (t₂.half 0 1).data.length)
    (hlater : ∀ b, 1 ≤ b → b < modelInput.promptTokens.length / blockSize → ∀ i < 2,
      t₁.half b i = t₂.half b i) {offset : ℕ}
    (hoffset : offset = c.memoryManager.writeHead +
      ((pairs before 0).map KacheDBMemoryManager.slotSize).sum) :
    c₂.memoryManager.buf = splice c₁.memoryManager.buf
      (offset + TensorBlockDescriptor.sizeof + (t₁.half 0 0).data.length) (t₂.half 0 1).data := by
  have hfull := hf.full
  have hroom : c.memoryManager.writeHead ≤ c.memoryManager.buf.length :=
    (Nat.le_add_right _ _).trans (hf.room.trans hf.sound.pool.2)
  have hcount := hf.sound.length_blockHashes modelInput
  rcases hhashes : c.blockHashes blake2b modelInput with _ | ⟨x, hashes⟩
  · rw [hhashes, List.length_nil] at hcount
    omega
  · rw [hhashes, List.length_cons] at hcount
    -- the slots behind those of the first block are the same
    have hrest : blockSlots (pairs (before ++ t₁ :: after)) 1 hashes =
        blockSlots (pairs (before ++ t₂ :: after)) 1 hashes := by
      refine blockSlots_congr fun b hle hlt => ?_
      rw [pairs_append_cons, pairs_append_cons, hlater b hle (by omega) 0 Nat.two_pos,
        hlater b hle (by omega) 1 Nat.one_lt_two]
    have hdesc : layerDescriptor x (pairs before 0).length (t₂.half 0 0, t₂.half 0 1) =
        layerDescriptor x (pairs before 0).length (t₁.half 0 0, t₁.half 0 1) := by
      simp only [layerDescriptor, hkeys, hlen]
    rw [hsent₁.memory_eq, hsent₂.memory_eq, hhashes]
    simp only [extend]
    rw [flatten_blockSlots_cons (pairs_append_cons before t₁ after 0),
      flatten_blockSlots_cons (pairs_append_cons before t₂ after 0), zero_add, hrest, hdesc, hkeys]
    dsimp only
    generalize hfront : (layerSlots x 0 (pairs before 0)).flatten ++
      (layerDescriptor x (pairs before 0).length (t₂.half 0 0, t₁.half 0 1)).toBytes = front
    generalize (layerSlots x ((pairs before 0).length + 1) (pairs after 0)).flatten ++
      (blockSlots (pairs (before ++ t₂ :: after)) 1 hashes).flatten = back
    have hstart : offset + TensorBlockDescriptor.sizeof + (t₂.half 0 0).data.length =
        c.memoryManager.writeHead + (front ++ (t₂.half 0 0).data).length := by
      rw [List.length_append, ← hfront, List.length_append, length_flatten_layerSlots,
        TensorBlockDescriptor.length_toBytes, hoffset]
      ring
    have hassoc (v : Bytes) : front ++ (((t₂.half 0 0).data ++ v) ++ back) =
        (front ++ (t₂.half 0 0).data) ++ (v ++ back) := by
      simp only [List.append_assoc]
    rw [hassoc, hassoc, hstart, splice_middle hroom hlen.symm]

/-- If elements do not have two bytes, the values that come back do not depend on those that have
been sent. -/
lemma FirstCall.values_eq
    (hf : FirstCall blake2b blockSize poolSizeBytes prompts c modelInput extended shapes)
    (hs₁ : List.Forall₂ CacheShape.Is shapes (before ++ t₁ :: after)) (ht₁ : s.Is t₁)
    (hs₂ : List.Forall₂ CacheShape.Is shapes (before ++ t₂ :: after)) (ht₂ : s.Is t₂)
    (hholds : s.Holds (modelInput.promptTokens.length / blockSize))
    (hround₁ : c.RoundTrip blake2b casts modelInput extended (before ++ t₁ :: after))
    (hround₂ : c.RoundTrip blake2b casts modelInput extended (before ++ t₂ :: after))
    (hkeys : t₁.half 0 0 = t₂.half 0 0)
    (hlater : ∀ b, 1 ≤ b → b < modelInput.promptTokens.length / blockSize → ∀ i < 2,
      t₁.half b i = t₂.half b i)
    (hitem : s.dtype.itemSize = 1 ∨ 4 ≤ s.dtype.itemSize) :
    t₁.select [0, 1] = t₂.select [0, 1] := by
  obtain ⟨c₁, hsent₁⟩ := hf.exists_sent hs₁
  obtain ⟨c₂, hsent₂⟩ := hf.exists_sent hs₂
  obtain ⟨offset, hoffset⟩ : ∃ offset, offset = c.memoryManager.writeHead +
    ((pairs before 0).map KacheDBMemoryManager.slotSize).sum := ⟨_, rfl⟩
  obtain ⟨k₁, v₁, hread₁, -, hv₁⟩ := hsent₁.readBack hf hround₁ rfl ht₁ hoffset
  obtain ⟨k₂, v₂, hread₂, -, hv₂⟩ := hsent₂.readBack hf hround₂ rfl ht₂ hoffset
  obtain ⟨-, hdtype₁, hshape₁, hdata₁⟩ := readPagedBlock_eq_ok hread₁
  obtain ⟨-, hdtype₂, hshape₂, hdata₂⟩ := readPagedBlock_eq_ok hread₂
  have hlen₀ := ht₁.length_half hholds hf.full Nat.two_pos
  have hlen₁ := ht₁.length_half hholds hf.full Nat.one_lt_two
  have hlen₂ := ht₂.length_half hholds hf.full Nat.one_lt_two
  have hbuf := hf.buf_patched hsent₁ hsent₂ hkeys (hlen₁.trans hlen₂.symm) hlater hoffset
  obtain ⟨-, hfit⟩ := hsent₁.window_payload hf hs₁ hf.full rfl
    (show offset = _ by rw [hoffset, zero_mul, add_zero])
  rw [hlen₀, hlen₁] at hfit
  rw [hlen₀] at hbuf
  -- the place where the values are read has nothing in common with that where they are
  have hsame : v₁.data = v₂.data := by
    have hitem₂ : (TensorCodec.dtypeInfo .float16).2 = 2 := rfl
    have hprod : s.block.prod = s.elements := rfl
    rw [hdata₁, hdata₂, hbuf, hitem₂, hprod, DType.itemSize]
    refine (window_splice_of_apart (by rw [hlen₂]; omega) ?_).symm
    rw [hlen₂]
    rcases hitem with hone | hfour
    · right
      rw [hone]
      omega
    · left
      have hmul := Nat.mul_le_mul_left s.elements hfour
      omega
  have hv : v₁ = v₂ := Tensor.ext (hdtype₁.trans hdtype₂.symm) (hshape₁.trans hshape₂.symm) hsame
  rw [hv₁, hv₂, hv]

/-- If elements have two bytes, the keys that come back are those that have been sent, taken for
half precision. -/
lemma FirstCall.keys_eq
    (hf : FirstCall blake2b blockSize poolSizeBytes prompts c modelInput extended shapes)
    (hs : List.Forall₂ CacheShape.Is shapes (before ++ t :: after)) (ht : s.Is t)
    (hholds : s.Holds (modelInput.promptTokens.length / blockSize))
    (hround : c.RoundTrip blake2b casts modelInput extended (before ++ t :: after))
    (hitem : s.dtype.itemSize = 2) :
    (t.half 0 0).data = Tensor.convert casts .float16 s.dtype (t.half 0 0).data := by
  obtain ⟨c', hsent⟩ := hf.exists_sent hs
  obtain ⟨offset, hoffset⟩ : ∃ offset, offset = c.memoryManager.writeHead +
    ((pairs before 0).map KacheDBMemoryManager.slotSize).sum := ⟨_, rfl⟩
  obtain ⟨k, v, hread, hk, -⟩ := hsent.readBack hf hround rfl ht hoffset
  obtain ⟨⟨hdtype, -, hdata⟩, -⟩ := readPagedBlock_eq_ok hread
  obtain ⟨hpayload, -⟩ := hsent.window_payload hf hs hf.full rfl
    (show offset = _ by rw [hoffset, zero_mul, add_zero])
  have hlen := ht.length_half hholds hf.full Nat.two_pos
  -- the keys are the first part of the payload
  have hkeys : k.data = (t.half 0 0).data := by
    have hbytes : s.block.prod * DType.float16.itemSize = (t.half 0 0).data.length := by
      rw [hlen, hitem]
      rfl
    rw [hdata, hbytes, ← add_zero (offset + TensorBlockDescriptor.sizeof),
      ← window_window _ (by omega : 0 + (t.half 0 0).data.length ≤
        (t.half 0 0).data.length + (t.half 0 1).data.length), hpayload,
      window_append_left _ (by omega), window_zero_length]
  have hhalf := Except.ok.inj ((ht.select_half hholds hf.full Nat.two_pos).1.symm.trans hk)
  calc (t.half 0 0).data = (k.converted casts s.dtype).data := congrArg Tensor.data hhalf
    _ = Tensor.convert casts k.dtype s.dtype k.data := rfl
    _ = Tensor.convert casts .float16 s.dtype (t.half 0 0).data := by rw [hdtype, hkeys]

end Patching

/-! ## Which caches come back -/

section Necessary

variable {blake2b : Bytes → UInt64} {casts : Casts} {blockSize poolSizeBytes : ℕ}
  {prompts : List (List ℤ)} {c : KacheDBConnector} {modelInput extended : ModelInput}
  {shapes : List CacheShape} {s : CacheShape}

/-- Every cache of these types and shapes makes the round trip. -/
def AllRoundTrip (blake2b : Bytes → UInt64) (casts : Casts) (c : KacheDBConnector)
    (modelInput extended : ModelInput) (shapes : List CacheShape) : Prop :=
  ∀ tensors, List.Forall₂ CacheShape.Is shapes tensors →
    c.RoundTrip blake2b casts modelInput extended tensors

/-- Zeros in all layers but one. -/
lemma forall₂_zeros_cons {before after : List CacheShape} {t : Tensor} (ht : s.Is t) :
    List.Forall₂ CacheShape.Is (before ++ s :: after)
      (before.map CacheShape.zeros ++ t :: after.map CacheShape.zeros) :=
  List.rel_append (forall₂_zeros before) (.cons ht (forall₂_zeros after))

/-- Keys that begin with a one in half precision do not come back as `bfloat16`. -/
lemma FirstCall.dtype_ne_bfloat16
    (hf : FirstCall blake2b blockSize poolSizeBytes prompts c modelInput extended shapes)
    (hcast : casts.cast .float16 .bfloat16 [0x00, 0x3C] = [0x80, 0x3F])
    (hall : AllRoundTrip blake2b casts c modelInput extended shapes) (hs : s ∈ shapes)
    (hpos : 0 < s.elements) : s.dtype ≠ .bfloat16 := by
  intro hdtype
  have hholds := hf.holds s hs
  obtain ⟨before, after, rfl⟩ := List.append_of_mem hs
  have hlen : ([0x00, 0x3C] ++ List.replicate (s.elements * 2 - 2) 0 : Bytes).length =
      s.block.prod * DType.bfloat16.itemSize := by
    rw [List.length_append, List.length_replicate]
    change 2 + (s.elements * 2 - 2) = s.elements * 2
    omega
  let u : Tensor :=
    ⟨.bfloat16, s.block, [0x00, 0x3C] ++ List.replicate (s.elements * 2 - 2) 0, hlen⟩
  obtain ⟨t, ht, hsel, -⟩ := s.exists_patched (u := u) hholds hf.full Nat.two_pos hdtype.symm rfl
  have hkeys := hf.keys_eq (forall₂_zeros_cons ht) ht hholds (hall _ (forall₂_zeros_cons ht))
    (by rw [hdtype]; rfl)
  have hhalf : t.half 0 0 = u := by rw [Tensor.half, hsel]
  rw [hhalf, hdtype] at hkeys
  -- the first element of the keys
  have hfirst : window u.data (0 * 2) 2 = [0x00, 0x3C] := window_append_left _ (by simp)
  have hconverted := @Tensor.window_convert casts .float16 .bfloat16 (by decide) u.data
    s.elements 0 hlen hpos
  rw [← hkeys] at hconverted
  change window u.data (0 * 2) 2 = casts.cast .float16 .bfloat16 (window u.data (0 * 2) 2)
    at hconverted
  rw [hfirst, hcast] at hconverted
  exact absurd hconverted (by decide)

/-- The blocks come back only if they are not empty and in half precision. -/
lemma FirstCall.dtype_of_allRoundTrip
    (hf : FirstCall blake2b blockSize poolSizeBytes prompts c modelInput extended shapes)
    (hcast : casts.cast .float16 .bfloat16 [0x00, 0x3C] = [0x80, 0x3F])
    (hmap : ∀ s ∈ shapes, (TensorCodec.dtypeMap s.dtype).isSome)
    (hall : AllRoundTrip blake2b casts c modelInput extended shapes) (hs : s ∈ shapes) :
    s.dtype = .float16 ∧ 0 < s.elements := by
  have hholds := hf.holds s hs
  have hdtype := hmap s hs
  obtain ⟨before, after, rfl⟩ := List.append_of_mem hs
  have hzeros : s.Is s.zeros := ⟨rfl, rfl⟩
  -- the first block can be read
  have hpos : 0 < s.elements := by
    obtain ⟨c', hsent⟩ := hf.exists_sent (forall₂_zeros_cons hzeros)
    obtain ⟨k, v, hread, -, -⟩ := hsent.readBack hf (hall _ (forall₂_zeros_cons hzeros)) rfl
      hzeros rfl
    exact readPagedBlock_pos hread
  refine ⟨?_, hpos⟩
  -- caches that differ in the values of the first block
  have hvalues (hitem : s.dtype.itemSize = 1 ∨ 4 ≤ s.dtype.itemSize) : False := by
    obtain ⟨t, ht, hsel, hframe⟩ := s.exists_patched hholds hf.full Nat.one_lt_two
      (u := .filled s.dtype s.block 1) rfl rfl
    have hhalf {b i : ℕ} (hb : b < modelInput.promptTokens.length / blockSize) (hi : i < 2)
        (hne : (b, i) ≠ (0, 1)) : s.zeros.half b i = t.half b i := by
      have heq := hframe b i hne
      rw [(ht.select_half hholds hb hi).1, (hzeros.select_half hholds hb hi).1] at heq
      exact (Except.ok.inj heq).symm
    have hsame := hf.values_eq (forall₂_zeros_cons hzeros) hzeros (forall₂_zeros_cons ht) ht hholds
      (hall _ (forall₂_zeros_cons hzeros)) (hall _ (forall₂_zeros_cons ht))
      (hhalf hf.full Nat.two_pos (by simp)) (fun b hle hb i hi => hhalf hb hi (by simp; omega))
      hitem
    obtain ⟨o, hloc⟩ := s.locate_half (hf.full.trans_le hholds.1)
      (Nat.one_lt_two.trans_le hholds.2)
    rw [hsel, CacheShape.zeros, Tensor.select_filled hloc] at hsame
    exact Tensor.filled_ne hpos (by decide) (Except.ok.inj hsame)
  cases hd : s.dtype with
  | float16 => rfl
  | bfloat16 => exact absurd hd (hf.dtype_ne_bfloat16 hcast hall hs hpos)
  | float32 => exact absurd (hvalues (.inr (by rw [hd, DType.itemSize]))) not_false
  | int8 => exact absurd (hvalues (.inl (by rw [hd, DType.itemSize]))) not_false
  | uint8 => exact absurd (hvalues (.inl (by rw [hd, DType.itemSize]))) not_false
  | float64 => simp [hd, TensorCodec.dtypeMap] at hdtype
  | int16 => simp [hd, TensorCodec.dtypeMap] at hdtype
  | int32 => simp [hd, TensorCodec.dtypeMap] at hdtype
  | int64 => simp [hd, TensorCodec.dtypeMap] at hdtype

/-- Caches of zeros have the blocks that come back. -/
lemma holds_of_roundTrip (hfull : 0 < modelInput.promptTokens.length / c.blockSize)
    (hround : c.RoundTrip blake2b casts modelInput extended (shapes.map CacheShape.zeros))
    (hs : s ∈ shapes) : s.Holds (modelInput.promptTokens.length / c.blockSize) := by
  obtain ⟨c', restored, -, -, hback⟩ := hround
  obtain ⟨l, hl⟩ := List.getElem?_of_mem hs
  have hget : (shapes.map CacheShape.zeros)[l]? = some s.zeros := by
    rw [List.getElem?_map, hl]
    rfl
  obtain ⟨t', block, -, hsel, -⟩ := hback (modelInput.promptTokens.length / c.blockSize - 1)
    (by omega) 1 Nat.one_lt_two l s.zeros hget
  obtain ⟨o, hloc, -⟩ := Tensor.select_eq_ok_iff.mp hsel
  simp only [CacheShape.zeros, Tensor.filled, CacheShape.dims, Tensor.locate] at hloc
  split_ifs at hloc with hb hi
  · exact ⟨by omega, hi⟩
  · cases hloc

/-- If a block of the prompt is known, what comes back for it does not depend on what is sent. -/
lemma Sound.elements_eq_zero (h : Sound blake2b blockSize poolSizeBytes prompts c)
    (hfull : 0 < modelInput.promptTokens.length / blockSize)
    (hpack : Packable (chunks blockSize modelInput.promptTokens))
    (hknown : ¬ c.KnowsNone blake2b modelInput)
    (hall : AllRoundTrip blake2b casts c modelInput extended shapes) (hs : s ∈ shapes) :
    s.elements = 0 := by
  by_contra hne
  have hholds := holds_of_roundTrip (by rw [h.sizes.1]; exact hfull)
    (hall _ (forall₂_zeros shapes)) hs
  rw [h.sizes.1] at hholds
  obtain ⟨before, after, rfl⟩ := List.append_of_mem hs
  rw [KacheDBConnector.KnowsNone] at hknown
  push Not at hknown
  obtain ⟨x, hx, hsome⟩ := hknown
  obtain ⟨j, hj⟩ := List.getElem?_of_mem hx
  have hlt : j < modelInput.promptTokens.length / blockSize := by
    rw [← h.length_blockHashes]
    exact (List.getElem?_eq_some_iff.mp hj).1
  -- caches that differ in the keys of this block
  have hzeros : s.Is s.zeros := ⟨rfl, rfl⟩
  obtain ⟨t, ht, hsel, hframe⟩ := s.exists_patched hholds hlt Nat.two_pos
    (u := .filled s.dtype s.block 1) rfl rfl
  have hblock (b : ℕ) (hb : b ≠ j) : (KVLayer.tensor t).block c.blockSize b =
      (KVLayer.tensor s.zeros).block c.blockSize b := by
    rw [KVLayer.block, KVLayer.block, if_pos ht.ndim_eq, if_pos hzeros.ndim_eq,
      hframe b 0 (by simp [hb]), hframe b 1 (by simp [hb])]
  obtain ⟨c₁, restored₁, hsend₁, hrecv₁, hback₁⟩ := hall _ (forall₂_zeros_cons hzeros)
  obtain ⟨c₂, restored₂, hsend₂, hrecv₂, hback₂⟩ := hall _ (forall₂_zeros_cons ht)
  rw [h.send_eq hfull hpack] at hsend₁ hsend₂
  have hcalls := @offloadBlocks_congr ((before.map CacheShape.zeros ++ t ::
      after.map CacheShape.zeros).map .tensor) ((before.map CacheShape.zeros ++ s.zeros ::
      after.map CacheShape.zeros).map .tensor) (c.blockHashes blake2b modelInput) 0 c (by simp)
    fun b y hy hnone => by
      have hb : b ≠ j := by
        rintro rfl
        obtain rfl := Option.some.inj (hj.symm.trans hy)
        exact hsome hnone
      rw [zero_add]
      simp only [List.map_append, List.map_cons, hblock b hb]
  obtain rfl : c₂ = c₁ := (Prod.mk.inj (hsend₂.symm.trans (hcalls.trans hsend₁))).2
  rw [map_filled_eq (forall₂_zeros_cons hzeros)] at hrecv₁
  rw [map_filled_eq (forall₂_zeros_cons ht)] at hrecv₂
  have hrestored := (Prod.mk.inj (hrecv₁.symm.trans hrecv₂)).2
  obtain rfl := List.map_injective_iff.mpr (fun _ _ heq => KVLayer.tensor.inj heq) hrestored
  -- the keys of both
  have hget (u : Tensor) : (before.map CacheShape.zeros ++ u ::
      after.map CacheShape.zeros)[before.length]? = some u := by
    rw [List.getElem?_append_right (by simp)]
    simp
  rw [h.sizes.1] at hback₁ hback₂
  obtain ⟨t₁, block₁, ht₁, hsel₁, hback₁⟩ := hback₁ j hlt 0 Nat.two_pos _ _ (hget s.zeros)
  obtain ⟨t₂, block₂, ht₂, hsel₂, hback₂⟩ := hback₂ j hlt 0 Nat.two_pos _ _ (hget t)
  obtain rfl := Option.some.inj (ht₁.symm.trans ht₂)
  obtain rfl := Except.ok.inj (hback₁.symm.trans hback₂)
  obtain ⟨o, hloc⟩ := s.locate_half (hlt.trans_le hholds.1) (Nat.two_pos.trans_le hholds.2)
  rw [CacheShape.zeros, Tensor.select_filled hloc] at hsel₁
  rw [hsel] at hsel₂
  exact Tensor.filled_ne (Nat.pos_of_ne_zero hne) (by decide)
    (Except.ok.inj (hsel₁.trans hsel₂.symm))

/-- If blocks are empty, they come back only if they are never read. -/
lemma Sound.knowsEmpty (h : Sound blake2b blockSize poolSizeBytes prompts c)
    (hfull : 0 < modelInput.promptTokens.length / blockSize)
    (hextends : modelInput.promptTokens <+: extended.promptTokens)
    (hpack : Packable (chunks blockSize modelInput.promptTokens))
    (hround : c.RoundTrip blake2b casts modelInput extended (shapes.map CacheShape.zeros))
    (hne : shapes ≠ []) (hempty : ∀ s ∈ shapes, s.elements = 0) :
    c.KnowsEmpty blake2b extended (modelInput.promptTokens.length / blockSize) := by
  obtain ⟨c', restored, hsend, hrecv, -⟩ := hround
  obtain ⟨-, found, hfind, hblocks, hentries⟩ := h.recv_found hfull hextends hsend hrecv
  rw [h.send_eq hfull hpack] at hsend
  obtain ⟨s, shapes, rfl⟩ := List.exists_cons_of_ne_nil hne
  -- an offset for the first layer would have been read
  have hoffsets (entry : BlockEntry) (hentry : entry ∈ found.2) :
      entry.metadata.layerOffsets.getD [] = [] := by
    obtain ⟨j, hj⟩ := List.getElem?_of_mem hentry
    obtain ⟨t', -, -, hreads, -⟩ := restoreBlocks_reads (l := 0) (t := .filled s.dtype s.dims 0)
      (n := s.blocks) (c := s.sides) hblocks rfl rfl
    rcases hlist : entry.metadata.layerOffsets.getD [] with _ | ⟨offset, offsets⟩
    · rfl
    · obtain ⟨k, v, hread, -⟩ := hreads j entry hj offset (by rw [hlist]; rfl)
      exact absurd (hempty s List.mem_cons_self) (readPagedBlock_pos hread).ne'
  -- a block that is new has an offset
  have hknown (x : UInt64) (hx : x ∈ c.blockHashes blake2b modelInput) :
      (c.prefixCache.lookupBlock x).isSome := by
    obtain ⟨j, hj⟩ := List.getElem?_of_mem hx
    obtain ⟨entry, hfound, hlookup⟩ := hentries j x hj
    rw [← Option.ne_none_iff_isSome]
    intro hnone
    have hlen := length_layerOffsets_of_new hsend hnone hlookup
    rw [hoffsets entry (List.mem_of_getElem? hfound)] at hlen
    simp at hlen
  rw [offloadBlocks_of_known hknown] at hsend
  obtain rfl := (Prod.mk.inj hsend).2
  refine ⟨found, hfind, ?_, hoffsets⟩
  by_contra hlt
  have hlast : modelInput.promptTokens.length / blockSize - 1 <
      (c.blockHashes blake2b modelInput).length := by
    rw [h.length_blockHashes]
    omega
  obtain ⟨entry, hfound, -⟩ := hentries _ _ (List.getElem?_eq_getElem hlast)
  have hlt' := (List.getElem?_eq_some_iff.mp hfound).1
  omega

end Necessary

/-- What has to hold for caches of these types and shapes to make the round trip: the tokens fit
into their fields; there are no layers, or the caches have the blocks of the prompt, and the blocks
are new, in half precision and not empty.  (Empty blocks come back also if they are never read.) -/
def Survives (blake2b : Bytes → UInt64) (c : KacheDBConnector) (modelInput extended : ModelInput)
    (shapes : List CacheShape) : Prop :=
  Packable (chunks c.blockSize extended.promptTokens) ∧
    (shapes = [] ∨ (∀ s ∈ shapes, s.Holds (modelInput.promptTokens.length / c.blockSize)) ∧
      ((c.KnowsNone blake2b modelInput ∧ ∀ s ∈ shapes, s.dtype = .float16 ∧ 0 < s.elements) ∨
        (∀ s ∈ shapes, s.elements = 0) ∧
          c.KnowsEmpty blake2b extended (modelInput.promptTokens.length / c.blockSize)))

section Main

variable {blake2b : Bytes → UInt64} {casts : Casts} {blockSize poolSizeBytes : ℕ}
  {prompts : List (List ℤ)} {c : KacheDBConnector} {modelInput extended : ModelInput}
  {shapes : List CacheShape}

/-- If none of the blocks of a prompt is known, they are all new. -/
lemma Sound.newBlocks_eq (h : Sound blake2b blockSize poolSizeBytes prompts c)
    (hnone : c.KnowsNone blake2b modelInput) :
    c.newBlocks blake2b modelInput = modelInput.promptTokens.length / blockSize := by
  rw [KacheDBConnector.newBlocks, ← h.length_blockHashes, List.countP_eq_length]
  intro x hx
  rw [hnone x hx]
  rfl

/-- The round trip of a connector after any calls. -/
lemma Sound.allRoundTrip_iff (h : Sound blake2b blockSize poolSizeBytes prompts c)
    (hcast : casts.cast .float16 .bfloat16 [0x00, 0x3C] = [0x80, 0x3F])
    (hhash : HashesApart blake2b blockSize prompts) (hmem : extended.promptTokens ∈ prompts)
    (hfull : 0 < modelInput.promptTokens.length / blockSize)
    (hextends : modelInput.promptTokens <+: extended.promptTokens)
    (hmap : ∀ s ∈ shapes, (TensorCodec.dtypeMap s.dtype).isSome)
    (hroom : c.memoryManager.writeHead + c.newBlocks blake2b modelInput *
      (shapes.map CacheShape.slotSize).sum ≤ poolSizeBytes) :
    AllRoundTrip blake2b casts c modelInput extended shapes ↔
      Survives blake2b c modelInput extended shapes := by
  have hsize := h.sizes.1
  have hchunks := chunks_isPrefix (blockSize_pos_of_full hfull) hextends
  rw [Survives, hsize]
  -- the call for new blocks
  have hfirst (hpack : Packable (chunks blockSize extended.promptTokens))
      (hholds : ∀ s ∈ shapes, s.Holds (modelInput.promptTokens.length / blockSize))
      (hnone : c.KnowsNone blake2b modelInput) :
      FirstCall blake2b blockSize poolSizeBytes prompts c modelInput extended shapes :=
    ⟨h, hhash, hfull, hextends, hmem, hpack, hnone, hholds, by rwa [← h.newBlocks_eq hnone]⟩
  constructor
  · intro hall
    have hzeros := hall _ (forall₂_zeros shapes)
    have hpack : Packable (chunks blockSize extended.promptTokens) := by
      obtain ⟨c', restored, hsend, hrecv, -⟩ := hzeros
      exact (h.recv_found hfull hextends hsend hrecv).1
    refine ⟨hpack, ?_⟩
    rcases shapes.eq_nil_or_concat with rfl | hne
    · exact .inl rfl
    · have hholds (s : CacheShape) (hs : s ∈ shapes) :
          s.Holds (modelInput.promptTokens.length / blockSize) := by
        rw [← hsize] at hfull ⊢
        exact holds_of_roundTrip hfull hzeros hs
      refine .inr ⟨hholds, ?_⟩
      by_cases hnone : c.KnowsNone blake2b modelInput
      · exact .inl ⟨hnone, fun s hs =>
          (hfirst hpack hholds hnone).dtype_of_allRoundTrip hcast hmap hall hs⟩
      · have hpack' : Packable (chunks blockSize modelInput.promptTokens) :=
          fun chunk hchunk => hpack chunk (hchunks.subset hchunk)
        have hempty (s : CacheShape) (hs : s ∈ shapes) : s.elements = 0 :=
          h.elements_eq_zero hfull hpack' hnone hall hs
        have hshapes : shapes ≠ [] := by
          obtain ⟨init, last, rfl⟩ := hne
          simp
        exact .inr ⟨hempty, h.knowsEmpty hfull hextends hpack' hzeros hshapes hempty⟩
  · rintro ⟨hpack, rfl | ⟨hholds, ⟨hnone, hhalf⟩ | ⟨hempty, hknown⟩⟩⟩ tensors hs
    · obtain rfl := List.forall₂_nil_left_iff.mp hs
      exact h.roundTrip_nil hfull hextends hpack
    · exact (hfirst hpack hholds hnone).roundTrip hhalf hs
    · exact h.roundTrip_empty hfull hextends hpack hholds hempty hknown hs

end Main

/-- **The round trip in every precision.**  After any calls of a connector, a prompt that is sent,
with room in the pool for its new blocks, comes back bit for bit into caches of zeros, whatever the
caches of these types and shapes hold, exactly if it survives: if its blocks are new, in half
precision and not empty, or there are no layers. -/
theorem roundTrip_iff (blake2b : Bytes → UInt64) {casts : Casts}
    (hcast : casts.cast .float16 .bfloat16 [0x00, 0x3C] = [0x80, 0x3F])
    (rank localRank blockSize poolSizeMb : ℕ) (ops : List ConnectorOp)
    {modelInput extended : ModelInput} (hfull : 1 ≤ modelInput.promptTokens.length / blockSize)
    (hextends : modelInput.promptTokens <+: extended.promptTokens)
    (hhash : HashesApart blake2b blockSize (promptsOf ops extended)) {shapes : List CacheShape}
    (hmap : ∀ s ∈ shapes, (TensorCodec.dtypeMap s.dtype).isSome)
    (hroom :
      (runConnector blake2b rank localRank blockSize poolSizeMb ops).memoryManager.writeHead +
      (runConnector blake2b rank localRank blockSize poolSizeMb ops).newBlocks blake2b modelInput *
        (shapes.map CacheShape.slotSize).sum ≤ poolSizeMb * 1024 * 1024) :
    (∀ tensors, List.Forall₂ CacheShape.Is shapes tensors →
        (runConnector blake2b rank localRank blockSize poolSizeMb ops).RoundTrip blake2b casts
          modelInput extended tensors) ↔
      Survives blake2b (runConnector blake2b rank localRank blockSize poolSizeMb ops) modelInput
        extended shapes :=
  (sound_run blake2b rank localRank blockSize poolSizeMb (fun _ hop =>
    List.mem_cons_of_mem _ (List.mem_map_of_mem hop))).allRoundTrip_iff hcast hhash
      List.mem_cons_self hfull hextends hmap hroom

/-! ## A prompt of one token -/

/-- The prompt `[1]`. -/
def singleToken : ModelInput :=
  ⟨some [1], none⟩

/-- The cache of one block of one element. -/
def oneElement (dtype : DType) : CacheShape :=
  ⟨dtype, 1, 2, 1, 1, 1⟩

/-- A conversion that is right for one. -/
def Casts.one : Casts where
  cast src dst b :=
    if src = .float16 ∧ dst = .bfloat16 ∧ b = [0x00, 0x3C] then [0x80, 0x3F]
    else List.replicate dst.itemSize 0
  length_cast src dst b _ := by
    split_ifs with h
    · rw [h.2.1]
      rfl
    · exact List.length_replicate

lemma room_oneElement (dtype : DType) :
    0 + 1 * ([oneElement dtype].map CacheShape.slotSize).sum ≤ 1 * 1024 * 1024 := by
  cases dtype <;> decide

/-- Sending it to a new connector. -/
lemma firstCall_oneElement (dtype : DType) :
    FirstCall oneTokenDigest 1 (1 * 1024 * 1024) [[1]] (runConnector oneTokenDigest 0 0 1 1 [])
      singleToken singleToken [oneElement dtype] where
  sound := sound_run oneTokenDigest 0 0 1 1 fun _ hop => absurd hop List.not_mem_nil
  apart := hashesApart_oneTokenDigest (by simp)
  full := by decide
  extends_prompt := List.prefix_rfl
  prompt_mem := List.mem_singleton_self _
  packable := by decide
  knowsNone _ _ := rfl
  holds := List.forall_mem_singleton.mpr ⟨le_rfl, le_rfl⟩
  room := room_oneElement dtype

/-- In half precision the prompt comes back. -/
theorem roundTrip_iff_half :
    (∀ tensors, List.Forall₂ CacheShape.Is [oneElement .float16] tensors →
        (runConnector oneTokenDigest 0 0 1 1 []).RoundTrip oneTokenDigest .one singleToken
          singleToken tensors) ↔
      Survives oneTokenDigest (runConnector oneTokenDigest 0 0 1 1 []) singleToken singleToken
        [oneElement .float16] :=
  roundTrip_iff oneTokenDigest rfl 0 0 1 1 [] (by decide) List.prefix_rfl
    (hashesApart_oneTokenDigest (by simp [promptsOf, singleToken, ModelInput.promptTokens]))
    (List.forall_mem_singleton.mpr rfl) (room_oneElement .float16)

/-- A cache in single precision, with zero as its key. -/
def singleCache : Tensor :=
  ⟨.float32, [1, 2, 1, 1, 1], [0, 0, 0, 0, 1, 1, 1, 1], rfl⟩

/-- The value of the cache does not come back: what is read for it is the second half of the key,
which is zero in every precision. -/
theorem singleCache_not_roundTrip :
    ¬ (runConnector oneTokenDigest 0 0 1 1 []).RoundTrip oneTokenDigest .zeros singleToken
      singleToken [singleCache] := by
  intro hround
  have hf := firstCall_oneElement .float32
  have his : (oneElement .float32).Is singleCache := ⟨rfl, rfl⟩
  obtain ⟨c', hsent⟩ := hf.exists_sent (.cons his .nil)
  obtain ⟨k, v, hread, -, hv⟩ := @Sent.readBack _ _ _ _ _ _ _ _ _ _ _ hsent hf hround [] [] _ rfl
    (oneElement .float32) his _ rfl
  obtain ⟨-, hdtype, hshape, -⟩ := readPagedBlock_eq_ok hread
  have hsent' : singleCache.select [0, 1] = .ok ⟨.float32, [1, 1, 1], [1, 1, 1, 1], rfl⟩ :=
    Tensor.select_eq_ok_iff.mpr ⟨_, rfl, rfl, rfl⟩
  have hdata : [1, 1, 1, 1] = Tensor.convert .zeros v.dtype .float32 v.data :=
    congrArg Tensor.data (Except.ok.inj (hsent'.symm.trans hv))
  have hlen := v.length_data
  rw [hdtype, hshape] at hlen
  rw [hdtype] at hdata
  have hconverted := @Tensor.window_convert .zeros .float16 .float32 (by decide) v.data 1 0 hlen
    Nat.one_pos
  rw [← hdata] at hconverted
  change [1, 1, 1, 1] = List.replicate 4 (0 : UInt8) at hconverted
  exact absurd hconverted (by decide)

end KacheDB
