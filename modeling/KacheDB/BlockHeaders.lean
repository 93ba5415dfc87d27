import KacheDB.DmaRuns
import KacheDB.Sglang.Offloads

/-!
# Headers of stored blocks

Whether the header that is stored in front of a block says what the block is.  The fields of the
descriptor have 16 and 32 bits, and a number that does not fit into its field is cut off.
`tellsTruth_iff` says that the stored header tells the truth exactly if every number fits: no
number is refused.

The blocks of a radix node are as long as the node, which may have any number of tokens;
`exists_writeAll_run` says that what `offload_node` does to the pool is a run of writes.
-/

namespace KacheDB

open Foundation KacheDBMemoryManager

/-- The numbers of a block fit into their fields. -/
def WriteArgs.Representable (w : WriteArgs) (heads blockSize headDim : ℕ) : Prop :=
  w.layerIdx < 2 ^ 16 ∧ heads < 2 ^ 16 ∧ blockSize < 2 ^ 16 ∧ headDim < 2 ^ 16 ∧
    w.keyTensor.data.length + w.valTensor.data.length < 2 ^ 32

/-- The 64 bytes at this offset decode to a descriptor that describes the block, and as many bytes
of keys and values follow it as it says. -/
def HeaderTells (w : WriteArgs) (heads blockSize headDim : ℕ) (buf : Bytes) (offset : ℕ) : Prop :=
  ∃ desc, TensorBlockDescriptor.fromBytes (window buf offset 64) = .ok desc ∧
    desc.isValid = true ∧ desc.layerId.toNat = w.layerIdx ∧ desc.numHeads.toNat = heads ∧
    desc.blockSize.toNat = blockSize ∧ desc.headDim.toNat = headDim ∧
    desc.sequencePrefixHash = w.seqPrefixHash ∧
    desc.payloadBytes.toNat = w.keyTensor.data.length + w.valTensor.data.length ∧
    window buf (offset + 64) desc.payloadBytes.toNat = w.keyTensor.data ++ w.valTensor.data

/-- The call has stored a header that describes the block, or it has refused a block of which
some number does not fit into its field. -/
def TellsTruth (w : WriteArgs) (heads blockSize headDim : ℕ)
    (call : Except Exc (ℕ × ℕ × TensorBlockDescriptor) × KacheDBMemoryManager) : Prop :=
  match call with
  | (.ok (offset, _, _), m) => HeaderTells w heads blockSize headDim m.buf offset
  | (.error _, _) => ¬ w.Representable heads blockSize headDim

section OneCall

variable {m : KacheDBMemoryManager} {w : WriteArgs} {heads blockSize headDim : ℕ}

/-- A field of 16 bits holds a number exactly if it fits. -/
lemma toNat_uint16_eq_iff (n : ℕ) : (UInt16.ofNat n).toNat = n ↔ n < 2 ^ 16 := by
  rw [UInt16.toNat_ofNat', Nat.mod_eq_iff_lt (by norm_num)]

/-- A field of 32 bits holds a number exactly if it fits. -/
lemma toNat_uint32_eq_iff (n : ℕ) : (UInt32.ofNat n).toNat = n ↔ n < 2 ^ 32 := by
  rw [UInt32.toNat_ofNat', Nat.mod_eq_iff_lt (by norm_num)]

/-- A call whose slot fits in the pool tells the truth exactly if every number fits. -/
lemma tellsTruth_write_iff (hbuf : m.poolSizeBytes ≤ m.buf.length)
    (hk : w.keyTensor.shape = [heads, blockSize, headDim]) (hfit : w.slotSize ≤ m.poolSizeBytes) :
    TellsTruth w heads blockSize headDim (m.write w) ↔
      w.Representable heads blockSize headDim := by
  obtain ⟨offset, m', hwrite, -, -, -, -, hslot⟩ := write_spec hk hbuf hfit
  obtain ⟨hheader, hpayload⟩ := window_slot hslot
  rw [hwrite]
  change HeaderTells w heads blockSize headDim m'.buf offset ↔ _
  constructor
  · rintro ⟨desc, hdecode, -, hlayer, hheads, hblock, hdim, -, hbytes, -⟩
    rw [hheader, TensorBlockDescriptor.fromBytes_toBytes] at hdecode
    obtain rfl := Except.ok.inj hdecode
    exact ⟨(toNat_uint16_eq_iff _).mp hlayer, (toNat_uint16_eq_iff _).mp hheads,
      (toNat_uint16_eq_iff _).mp hblock, (toNat_uint16_eq_iff _).mp hdim,
      (toNat_uint32_eq_iff _).mp hbytes⟩
  · rintro ⟨hlayer, hheads, hblock, hdim, hbytes⟩
    have hbytes' := (toNat_uint32_eq_iff _).mpr hbytes
    refine ⟨descriptorOf w heads blockSize headDim, ?_, rfl, (toNat_uint16_eq_iff _).mpr hlayer,
      (toNat_uint16_eq_iff _).mpr hheads, (toNat_uint16_eq_iff _).mpr hblock,
      (toNat_uint16_eq_iff _).mpr hdim, rfl, hbytes', ?_⟩
    · rw [hheader, TensorBlockDescriptor.fromBytes_toBytes]
    · change window m'.buf (offset + 64) (UInt32.ofNat _).toNat = _
      rw [hbytes', hpayload]

end OneCall

/-- **Stored headers tell the truth** exactly if every number fits into its field: after any
earlier writes, whatever their sizes, a call whose slot fits in the pool stores a header that
describes the block, or the block has a number that does not fit. -/
theorem tellsTruth_iff (coreId poolSizeMb : ℕ) (ws : List WriteArgs) {w : WriteArgs}
    {heads blockSize headDim : ℕ} (hk : w.keyTensor.shape = [heads, blockSize, headDim])
    (hfit : w.slotSize ≤ poolSizeMb * 1024 * 1024) :
    TellsTruth w heads blockSize headDim (((new coreId poolSizeMb).writeAll ws).write w) ↔
      w.Representable heads blockSize headDim := by
  obtain ⟨hpool, hbuf⟩ := le_length_buf_writeAll (m := new coreId poolSizeMb)
    (inPool_new coreId poolSizeMb).2.1.ge ws
  rw [← hpool] at hbuf
  exact tellsTruth_write_iff hbuf hk (hpool ▸ hfit)

/-- A block of so many tokens, with one head of one dimension. -/
def longBlock (tokens : ℕ) : WriteArgs :=
  ⟨.filled .float16 [1, tokens, 1] 0, .filled .float16 [1, tokens, 1] 0, 0, 7, 0⟩

lemma slotSize_longBlock (tokens : ℕ) : (longBlock tokens).slotSize = 64 + 4 * tokens := by
  have hlen : (Tensor.filled .float16 [1, tokens, 1] 0).data.length = tokens * 2 := by
    rw [Tensor.length_data]
    simp only [Tensor.filled, DType.itemSize, List.prod_cons, List.prod_nil, one_mul, mul_one]
  simp only [longBlock, WriteArgs.slotSize, slotSize, hlen, TensorBlockDescriptor.sizeof]
  omega

/-- The header of 65535 tokens, behind another block. -/
theorem tellsTruth_iff_longBlock :
    (longBlock 65535).keyTensor.shape = [1, 65535, 1] ∧
      (longBlock 65535).slotSize ≤ 1 * 1024 * 1024 ∧
      (TellsTruth (longBlock 65535) 1 65535 1
          (((new 0 1).writeAll [longBlock 5]).write (longBlock 65535)) ↔
        (longBlock 65535).Representable 1 65535 1) := by
  have hfit : (longBlock 65535).slotSize ≤ 1 * 1024 * 1024 := by
    rw [slotSize_longBlock]
    norm_num
  exact ⟨rfl, hfit, tellsTruth_iff 0 1 [longBlock 5] rfl hfit⟩

/-- The header of 65536 tokens does not tell the truth. -/
theorem not_tellsTruth_longBlock :
    (longBlock 65536).keyTensor.shape = [1, 65536, 1] ∧
      (longBlock 65536).valTensor.shape = [1, 65536, 1] ∧
      (longBlock 65536).slotSize ≤ 1 * 1024 * 1024 ∧
      ¬ TellsTruth (longBlock 65536) 1 65536 1 ((new 0 1).write (longBlock 65536)) := by
  have hfit : (longBlock 65536).slotSize ≤ 1 * 1024 * 1024 := by
    rw [slotSize_longBlock]
    norm_num
  refine ⟨rfl, rfl, hfit, fun htells => ?_⟩
  obtain ⟨-, -, hblock, -⟩ := (tellsTruth_write_iff (inPool_new 0 1).2.1.ge rfl hfit).mp htells
  omega

/-! ## The writes of radix nodes -/

namespace KacheDBSGLangConnector

/-- Offloading layers is a run of writes of their keys and values under the hash of the node. -/
lemma exists_writeAll_offloadLayers (nodeHash : UInt64) (nodeId : ℤ) (lIdx : ℕ)
    (ks vs : List Tensor) (m : KacheDBMemoryManager) :
    ∃ ws, (offloadLayers nodeHash nodeId lIdx ks vs m).2 = m.writeAll ws ∧
      ∀ w ∈ ws, w.seqPrefixHash = nodeHash ∧ ∃ l, w.layerIdx = lIdx + l ∧
        ks[l]? = some w.keyTensor ∧ vs[l]? = some w.valTensor := by
  induction ks generalizing lIdx vs m with
  | nil => exact ⟨[], rfl, by simp⟩
  | cons k ks ih =>
    cases vs with
    | nil => exact ⟨[], rfl, by simp⟩
    | cons v vs =>
      have hfirst : m.writePagedBlock k v lIdx nodeHash nodeId.toNat =
          m.write ⟨k, v, lIdx, nodeHash, nodeId.toNat⟩ := rfl
      rw [offloadLayers, hfirst]
      rcases hwrite : m.write ⟨k, v, lIdx, nodeHash, nodeId.toNat⟩ with ⟨e | ⟨offset, n, desc⟩, m'⟩
      · refine ⟨[⟨k, v, lIdx, nodeHash, nodeId.toNat⟩], ?_, ?_⟩
        · rw [writeAll, List.foldl_cons, hwrite]
          rfl
        · intro w hw
          obtain rfl := List.mem_singleton.mp hw
          exact ⟨rfl, 0, rfl, rfl, rfl⟩
      · obtain ⟨ws, hrun, hws⟩ := ih (lIdx + 1) vs m'
        refine ⟨⟨k, v, lIdx, nodeHash, nodeId.toNat⟩ :: ws, ?_, ?_⟩
        · rw [writeAll, List.foldl_cons, hwrite, ← writeAll, ← hrun]
          simp only
          rcases offloadLayers nodeHash nodeId (lIdx + 1) ks vs m' with ⟨e | offsets, m''⟩
          · rfl
          · rfl
        · intro w hw
          rcases List.mem_cons.mp hw with rfl | hw
          · exact ⟨rfl, 0, rfl, rfl, rfl⟩
          · obtain ⟨hhash, l, hl, hk, hv⟩ := hws w hw
            exact ⟨hhash, l + 1, by omega, hk, hv⟩

/-- What a run of `offload_node` does to the pool is a run of writes. -/
theorem exists_writeAll_run (blake2b : Bytes → UInt64) (rank localRank poolSizeMb : ℕ)
    (ops : List OffloadArgs) :
    ∃ ws, (run blake2b rank localRank poolSizeMb ops).memoryManager =
      (KacheDBMemoryManager.new localRank poolSizeMb).writeAll ws := by
  induction ops using List.reverseRecOn with
  | nil => exact ⟨[], rfl⟩
  | append_singleton ops r ih =>
    obtain ⟨ws, hws⟩ := ih
    rw [run, List.foldl_concat, ← run]
    generalize run blake2b rank localRank poolSizeMb ops = c at *
    unfold offloadNode
    cases hhash : KacheDBRadixAdapter.computeNodeHash blake2b r.tokenIds r.parentHash with
    | error e => exact ⟨ws, hws⟩
    | ok nodeHash =>
      obtain ⟨more, hmore, -⟩ := exists_writeAll_offloadLayers nodeHash r.nodeId 0 r.kTensors
        r.vTensors c.memoryManager
      have hall : (offloadLayers nodeHash r.nodeId 0 r.kTensors r.vTensors c.memoryManager).2 =
          (KacheDBMemoryManager.new localRank poolSizeMb).writeAll (ws ++ more) := by
        rw [hmore, hws, writeAll, writeAll, writeAll, List.foldl_append]
      refine ⟨ws ++ more, ?_⟩
      rw [← hall]
      simp only
      rcases offloadLayers nodeHash r.nodeId 0 r.kTensors r.vTensors c.memoryManager with
        ⟨e | offsets, m⟩
      · rfl
      · rfl

end KacheDBSGLangConnector

end KacheDB
