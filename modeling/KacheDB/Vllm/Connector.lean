import KacheDB.Dma
import KacheDB.Vllm.PrefixCache

/-!
# The vLLM connector

`KacheDBConnector` offloads the blocks of a prompt to the memory manager, registers them in the
prefix index, and restores them for a prompt with the same prefix.

The index and the pool are two stores.  A block stays in the index for good, while its slots are
lost when the ring of the memory manager comes round.  The file defines the connector; what a
whole run gives back is in `KacheDB.Vllm.Restore`.
-/

namespace KacheDB

open Foundation

/-- The KV cache of one layer, by what the connector can ask of it. -/
inductive KVLayer : Type where
  /-- A tensor. -/
  | tensor (t : Tensor)
  /-- A list or tuple of a key and a value tensor. -/
  | pair (k v : Tensor)
  /-- Another object that gives the key and the value tensor for the indices 0 and 1. -/
  | indexed (k v : Tensor)

/-- `model_input`: its attributes `input_tokens` and `seq_data`, as far as it has them. -/
structure ModelInput where
  inputTokens : Option (List ℤ)
  seqData : Option (List ℤ)

/-- The prompt tokens: the attribute `input_tokens`, or the ids of `seq_data` if there are none. -/
def ModelInput.promptTokens (input : ModelInput) : List ℤ :=
  match input.inputTokens.getD [], input.seqData with
  | [], some ids => ids
  | tokens, _ => tokens

/-- The first of two computations and then the second. -/
def bothTensors (k v : Except Exc Tensor) : Except Exc (Tensor × Tensor) :=
  match k with
  | .error e => .error e
  | .ok kBlock =>
    match v with
    | .error e => .error e
    | .ok vBlock => .ok (kBlock, vBlock)

/-- The keys and values of block `bIdx` of a layer. -/
def KVLayer.block (blockSize bIdx : ℕ) : KVLayer → Except Exc (Tensor × Tensor)
  | .tensor t =>
    if t.ndim = 5 then bothTensors (t.select [bIdx, 0]) (t.select [bIdx, 1])
    else bothTensors (t.select [0, bIdx]) (t.select [1, bIdx])
  | .pair k v =>
    if k.ndim = 3 then
      let startPos := bIdx * blockSize
      let endPos := min (k.shape.getD 1 0) ((bIdx + 1) * blockSize)
      bothTensors (k.narrow startPos endPos) (v.narrow startPos endPos)
    else bothTensors (k.select [bIdx]) (v.select [bIdx])
  | .indexed k v => bothTensors (k.select [bIdx]) (v.select [bIdx])

/-- A connector. -/
structure KacheDBConnector where
  rank : ℕ
  localRank : ℕ
  blockSize : ℕ
  prefixCache : KacheDBPrefixCache
  memoryManager : KacheDBMemoryManager

namespace KacheDBConnector

/-- A new connector. -/
def new (rank localRank blockSize poolSizeMb : ℕ) : KacheDBConnector :=
  ⟨rank, localRank, blockSize, .new blockSize, .new localRank poolSizeMb⟩

/-- Offload each layer's block, from layer `lIdx` on, and return the offsets. -/
def offloadLayers (blockSize bIdx : ℕ) (prefixH : UInt64) :
    ℕ → List KVLayer → KacheDBMemoryManager → Except Exc (List ℕ) × KacheDBMemoryManager
  | _, [], m => (.ok [], m)
  | lIdx, layerKv :: kvCaches, m =>
    match layerKv.block blockSize bIdx with
    | .error e => (.error e, m)
    | .ok (kBlock, vBlock) =>
      match m.writePagedBlock kBlock vBlock lIdx prefixH bIdx with
      | (.error e, m') => (.error e, m')
      | (.ok (offset, _, _), m') =>
        match offloadLayers blockSize bIdx prefixH (lIdx + 1) kvCaches m' with
        | (.error e, m'') => (.error e, m'')
        | (.ok layerOffsets, m'') => (.ok (offset :: layerOffsets), m'')

/-- The loop over the blocks of a prompt, from block `bIdx` on: a block that is registered
already is skipped. -/
def offloadBlocks (kvCaches : List KVLayer) :
    ℕ → List UInt64 → KacheDBConnector → Except Exc Unit × KacheDBConnector
  | _, [], c => (.ok (), c)
  | bIdx, prefixH :: hashes, c =>
    match c.prefixCache.lookupBlock prefixH with
    | some _ => offloadBlocks kvCaches (bIdx + 1) hashes c
    | none =>
      match offloadLayers c.blockSize bIdx prefixH 0 kvCaches c.memoryManager with
      | (.error e, m) => (.error e, { c with memoryManager := m })
      | (.ok layerOffsets, m) =>
        offloadBlocks kvCaches (bIdx + 1) hashes
          { c with
            memoryManager := m
            prefixCache := c.prefixCache.registerBlock prefixH bIdx c.blockSize
              ⟨some layerOffsets, some kvCaches.length⟩ }

/-- Offload computed KV-cache blocks into shared memory. -/
def sendKvCachesAndHiddenStates (blake2b : Bytes → UInt64) (c : KacheDBConnector)
    (modelInput : ModelInput) (kvCaches : List KVLayer) : Except Exc Unit × KacheDBConnector :=
  if modelInput.promptTokens = [] then (.ok (), c)
  else
    match c.prefixCache.computeSequenceHashes blake2b modelInput.promptTokens with
    | .error e => (.error e, c)
    | .ok hashes => offloadBlocks kvCaches 0 hashes c

/-- Read one block and copy it into a layer.  The shape of the block is taken from the last three
of five dimensions, and its element type is the default of `read_paged_block`. -/
def restoreBlock (casts : Casts) (m : KacheDBMemoryManager) (offset bIdx : ℕ) :
    KVLayer → Except Exc Unit × KVLayer
  | .tensor t =>
    match t.shape.drop 2 with
    | heads :: size :: dim :: _ =>
      match m.readPagedBlock offset [heads, size, dim] .float16 with
      | .error e => (.error e, .tensor t)
      | .ok (kBlock, vBlock) =>
        let target (i : ℕ) := if t.ndim = 5 then [bIdx, i] else [i, bIdx]
        match t.assign casts (target 0) kBlock with
        | .error e => (.error e, .tensor t)
        | .ok t' =>
          match t'.assign casts (target 1) vBlock with
          | .error e => (.error e, .tensor t')
          | .ok t'' => (.ok (), .tensor t'')
    | _ => (.error .indexError, .tensor t)
  -- a list, a tuple or another object without a shape
  | layerKv => (.error .attributeError, layerKv)

/-- Restore one block in all layers that have an offset. -/
def restoreLayers (casts : Casts) (m : KacheDBMemoryManager) (bIdx : ℕ) :
    List ℕ → List KVLayer → Except Exc Unit × List KVLayer
  | offset :: layerOffsets, layerKv :: kvCaches =>
    match restoreBlock casts m offset bIdx layerKv with
    | (.error e, layerKv') => (.error e, layerKv' :: kvCaches)
    | (.ok _, layerKv') =>
      let (res, kvCaches') := restoreLayers casts m bIdx layerOffsets kvCaches
      (res, layerKv' :: kvCaches')
  | _, kvCaches => (.ok (), kvCaches)

/-- Restore matched blocks, from block `bIdx` on. -/
def restoreBlocks (casts : Casts) (m : KacheDBMemoryManager) :
    ℕ → List BlockEntry → List KVLayer → Except Exc Unit × List KVLayer
  | _, [], kvCaches => (.ok (), kvCaches)
  | bIdx, entry :: matchedBlocks, kvCaches =>
    match restoreLayers casts m bIdx (entry.metadata.layerOffsets.getD []) kvCaches with
    | (.error e, kvCaches') => (.error e, kvCaches')
    | (.ok _, kvCaches') => restoreBlocks casts m (bIdx + 1) matchedBlocks kvCaches'

/-- Restore matching cached prefix blocks.  The first component of the returned pair is always
`None`; the second one, whether it is a cache hit, is the value here. -/
def recvKvCachesAndHiddenStates (blake2b : Bytes → UInt64) (casts : Casts)
    (c : KacheDBConnector) (modelInput : ModelInput) (kvCaches : List KVLayer) :
    Except Exc Bool × List KVLayer :=
  if modelInput.promptTokens = [] then (.ok false, kvCaches)
  else
    match c.prefixCache.findLongestPrefix blake2b modelInput.promptTokens with
    | .error e => (.error e, kvCaches)
    | .ok (matchedTokens, matchedBlocks) =>
      if matchedTokens = 0 then (.ok false, kvCaches)
      else
        match restoreBlocks casts c.memoryManager 0 matchedBlocks kvCaches with
        | (.error e, kvCaches') => (.error e, kvCaches')
        | (.ok _, kvCaches') => (.ok true, kvCaches')

end KacheDBConnector

/-- A call of the connector. -/
inductive ConnectorOp : Type where
  | send (modelInput : ModelInput) (kvCaches : List KVLayer)
  | recv (modelInput : ModelInput) (kvCaches : List KVLayer)

/-- One call; restoring does not change the connector. -/
def KacheDBConnector.step (blake2b : Bytes → UInt64) (c : KacheDBConnector) :
    ConnectorOp → KacheDBConnector
  | .send modelInput kvCaches => (c.sendKvCachesAndHiddenStates blake2b modelInput kvCaches).2
  | .recv _ _ => c

/-- Caches of two layers with three blocks of two positions each, all of whose bytes are `b` in the
first layer and `b + 1` in the second one. -/
def threeBlockCaches (b : UInt8) : List KVLayer :=
  [.tensor (.filled .float16 [3, 2, 1, 2, 1] b),
    .tensor (.filled .float16 [3, 2, 1, 2, 1] (b + 1))]

end KacheDB
