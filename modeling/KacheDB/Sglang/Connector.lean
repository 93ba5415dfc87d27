import KacheDB.Dma
import KacheDB.Sglang.RadixAdapter

/-!
# The SGLang connector

`KacheDBSGLangConnector` offloads the layers of a tree node to the memory manager and registers
the node with their offsets, and restores the nodes on the way down a prompt, one behind the
other, into target buffers.

A node that is offloaded again gets new slots and a new descriptor.  As in the vLLM connector a
descriptor keeps its offsets when the ring of the memory manager comes round.
-/

namespace KacheDB

open Foundation KacheDBRadixAdapter

/-- The arguments of `offload_node`. -/
structure OffloadArgs where
  nodeId : ℤ
  tokenIds : List ℤ
  kTensors : List Tensor
  vTensors : List Tensor
  parentHash : ℤ := 0

/-- A connector. -/
structure KacheDBSGLangConnector where
  rank : ℕ
  localRank : ℕ
  poolSizeMb : ℕ
  radixAdapter : KacheDBRadixAdapter
  memoryManager : KacheDBMemoryManager

namespace KacheDBSGLangConnector

/-- A new connector. -/
def new (rank localRank poolSizeMb : ℕ) : KacheDBSGLangConnector :=
  ⟨rank, localRank, poolSizeMb, .new, .new localRank poolSizeMb⟩

/-- Offload each layer, from layer `lIdx` on, and return the offsets. -/
def offloadLayers (nodeHash : UInt64) (nodeId : ℤ) :
    ℕ → List Tensor → List Tensor → KacheDBMemoryManager →
      Except Exc (List ℕ) × KacheDBMemoryManager
  | _, [], _, m => (.ok [], m)
  | _, _ :: _, [], m => (.error .indexError, m)
  | lIdx, kLayer :: kTensors, vLayer :: vTensors, m =>
    match m.writePagedBlock kLayer vLayer lIdx nodeHash nodeId.toNat with
    | (.error e, m') => (.error e, m')
    | (.ok (offset, _, _), m') =>
      match offloadLayers nodeHash nodeId (lIdx + 1) kTensors vTensors m' with
      | (.error e, m'') => (.error e, m'')
      | (.ok layerOffsets, m'') => (.ok (offset :: layerOffsets), m'')

/-- Offload an evicted tree node to shared memory. -/
def offloadNode (blake2b : Bytes → UInt64) (c : KacheDBSGLangConnector) (r : OffloadArgs) :
    Except Exc RadixNodeDescriptor × KacheDBSGLangConnector :=
  match computeNodeHash blake2b r.tokenIds r.parentHash with
  | .error e => (.error e, c)
  | .ok nodeHash =>
    match offloadLayers nodeHash r.nodeId 0 r.kTensors r.vTensors c.memoryManager with
    | (.error e, m) => (.error e, { c with memoryManager := m })
    | (.ok layerOffsets, m) =>
      let (desc, adapter) :=
        c.radixAdapter.registerNode blake2b r.nodeId r.tokenIds r.parentHash layerOffsets
      (desc, { c with memoryManager := m, radixAdapter := adapter })

/-- Read one layer of a node of `nTokens` tokens and copy it into the targets from position
`tokenOffset` on. -/
def restoreLayer (casts : Casts) (m : KacheDBMemoryManager) (offset tokenOffset nTokens : ℕ)
    (targetK targetV : Tensor) : Except Exc Unit × Tensor × Tensor :=
  match targetK.shape with
  | heads :: _ :: dim :: _ =>
    match m.readPagedBlock offset [heads, nTokens, dim] targetK.dtype with
    | .error e => (.error e, targetK, targetV)
    | .ok (kBlock, vBlock) =>
      match targetK.assignNarrow casts tokenOffset (tokenOffset + nTokens) kBlock with
      | .error e => (.error e, targetK, targetV)
      | .ok targetK' =>
        match targetV.assignNarrow casts tokenOffset (tokenOffset + nTokens) vBlock with
        | .error e => (.error e, targetK', targetV)
        | .ok targetV' => (.ok (), targetK', targetV')
  | _ => (.error .indexError, targetK, targetV)

/-- Restore one node in all target layers for which it has an offset. -/
def restoreLayers (casts : Casts) (m : KacheDBMemoryManager) (tokenOffset nTokens : ℕ) :
    List ℕ → List Tensor → List Tensor → Except Exc Unit × List Tensor × List Tensor
  | _ :: _, targetK :: targetKs, [] => (.error .indexError, targetK :: targetKs, [])
  | offset :: layerOffsets, targetK :: targetKs, targetV :: targetVs =>
    match restoreLayer casts m offset tokenOffset nTokens targetK targetV with
    | (.error e, targetK', targetV') => (.error e, targetK' :: targetKs, targetV' :: targetVs)
    | (.ok _, targetK', targetV') =>
      let (res, targetKs', targetVs') :=
        restoreLayers casts m tokenOffset nTokens layerOffsets targetKs targetVs
      (res, targetK' :: targetKs', targetV' :: targetVs')
  | _, targetKs, targetVs => (.ok (), targetKs, targetVs)

/-- Restore matched nodes, one behind the other, from position `tokenOffset` on. -/
def restoreNodes (casts : Casts) (m : KacheDBMemoryManager) :
    ℕ → List RadixNodeDescriptor → List Tensor → List Tensor →
      Except Exc Unit × List Tensor × List Tensor
  | _, [], targetKs, targetVs => (.ok (), targetKs, targetVs)
  | tokenOffset, desc :: matchedNodes, targetKs, targetVs =>
    match restoreLayers casts m tokenOffset desc.numTokens desc.layerOffsets targetKs targetVs with
    | (.error e, targetKs', targetVs') => (.error e, targetKs', targetVs')
    | (.ok _, targetKs', targetVs') =>
      restoreNodes casts m (tokenOffset + desc.numTokens) matchedNodes targetKs' targetVs'

/-- Look up matching cached nodes and restore their tensors; `none` if the search for the nodes
has not ended after `fuel` steps. -/
def restorePrefix (casts : Casts) (fuel : ℕ) (c : KacheDBSGLangConnector)
    (promptTokens : List ℤ) (targetKs targetVs : List Tensor) :
    Option (Except Exc (ℕ × Bool) × List Tensor × List Tensor) :=
  match c.radixAdapter.findMatchingNodes fuel promptTokens none with
  | none => none
  | some (matchedTokens, matchedNodes) =>
    if matchedTokens = 0 ∨ matchedNodes.isEmpty then some (.ok (0, false), targetKs, targetVs)
    else
      match restoreNodes casts c.memoryManager 0 matchedNodes targetKs targetVs with
      | (.error e, targetKs', targetVs') => some (.error e, targetKs', targetVs')
      | (.ok _, targetKs', targetVs') => some (.ok (matchedTokens, true), targetKs', targetVs')

end KacheDBSGLangConnector

end KacheDB
