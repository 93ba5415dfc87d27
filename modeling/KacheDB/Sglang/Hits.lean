import KacheDB.Sglang.Offloads
import KacheDB.Sglang.Restore

/-!
# Restored prefixes over whole runs

The main result is `restorePrefix_restores`: after any run of `offload_node` calls, whenever
`restore_prefix` reports a hit of so many tokens, each of these positions of the target buffers
holds in every layer the keys and values that were offloaded most recently for the node that covers
it, provided that no slot has been written over theirs since.  `restorePrefix_hit` says when
`restore_prefix` reports a hit.

Without the proviso the first result fails: in the run of `restorePrefix_corrupts` the pool has
room for one slot only, and the second node is written over the first one.
-/

namespace KacheDB

open Foundation KacheDBRadixAdapter KacheDBMemoryManager

/-- The call gives so many layers of keys and values, all of this element type and with the
positions of its tokens. -/
def OffloadArgs.Uniform (dtype : DType) (layers heads dim : ℕ) (r : OffloadArgs) : Prop :=
  (r.kTensors.length = layers ∧ r.vTensors.length = layers) ∧
    (∀ t ∈ r.kTensors, t.IsSlice dtype heads r.tokenIds.length dim) ∧
    ∀ t ∈ r.vTensors, t.IsSlice dtype heads r.tokenIds.length dim

/-- Each slot of such a call fits in a pool of this size. -/
def OffloadArgs.Fits (dtype : DType) (heads dim poolSizeBytes : ℕ) (r : OffloadArgs) : Prop :=
  TensorBlockDescriptor.sizeof + 2 * (heads * r.tokenIds.length * dim * dtype.itemSize) ≤
    poolSizeBytes

section Calls

variable {dtype : DType} {layers heads dim poolSizeBytes : ℕ} {r : OffloadArgs}

/-- The slot of a layer. -/
lemma slotSize_of_isSlice {tokens : ℕ} {k v : Tensor} (hk : k.IsSlice dtype heads tokens dim)
    (hv : v.IsSlice dtype heads tokens dim) :
    slotSize (k, v) =
      TensorBlockDescriptor.sizeof + 2 * (heads * tokens * dim * dtype.itemSize) := by
  have hprod : ([heads, tokens, dim] : List ℕ).prod = heads * tokens * dim := by simp [mul_assoc]
  simp only [slotSize, k.length_data, v.length_data, hk.1, hk.2, hv.1, hv.2, hprod]
  ring

/-- The tensors of a layer. -/
lemma OffloadArgs.Uniform.isSlice (h : r.Uniform dtype layers heads dim) {kv : Tensor × Tensor}
    (hkv : kv ∈ r.layers) : kv.1.IsSlice dtype heads r.tokenIds.length dim ∧
      kv.2.IsSlice dtype heads r.tokenIds.length dim := by
  obtain ⟨hk, hv⟩ := List.of_mem_zip hkv
  exact ⟨h.2.1 _ hk, h.2.2 _ hv⟩

/-- Such a call can be written if its slots fit. -/
lemma OffloadArgs.Uniform.writable (h : r.Uniform dtype layers heads dim)
    (hfits : r.Fits dtype heads dim poolSizeBytes) : r.Writable poolSizeBytes := by
  refine ⟨h.1.1.trans h.1.2.symm, fun kv hkv => ?_⟩
  obtain ⟨hk, hv⟩ := h.isSlice hkv
  refine ⟨by simp [hk.2], ?_⟩
  rw [slotSize_of_isSlice hk hv]
  exact hfits

/-- Each layer of such a call has its keys and values. -/
lemma OffloadArgs.Uniform.getElem?_layers (h : r.Uniform dtype layers heads dim) {l : ℕ}
    (hl : l < layers) : ∃ k v, r.kTensors[l]? = some k ∧ r.vTensors[l]? = some v ∧
      r.layers[l]? = some (k, v) := by
  have hk : l < r.kTensors.length := by rwa [h.1.1]
  have hv : l < r.vTensors.length := by rwa [h.1.2]
  refine ⟨r.kTensors[l], r.vTensors[l], List.getElem?_eq_getElem hk, List.getElem?_eq_getElem hv,
    ?_⟩
  exact List.getElem?_zip_eq_some.mpr
    ⟨List.getElem?_eq_getElem hk, List.getElem?_eq_getElem hv⟩

/-- Such a call has so many layers. -/
lemma OffloadArgs.Uniform.length_layers (h : r.Uniform dtype layers heads dim) :
    r.layers.length = layers := by
  rw [OffloadArgs.layers, List.length_zip, h.1.1, h.1.2, min_self]

end Calls

namespace NodeArchive

/-- No slot has been written over the payload of the layers of this call since. -/
def Fresh (a : NodeArchive) (poolSizeBytes : ℕ) (node : OffloadedNode) : Prop :=
  ∀ l < node.call.layers.length,
    RingBuffer.Intact poolSizeBytes TensorBlockDescriptor.sizeof a.sizes (node.start + l)

instance (a : NodeArchive) (poolSizeBytes : ℕ) (node : OffloadedNode) :
    Decidable (a.Fresh poolSizeBytes node) :=
  inferInstanceAs (Decidable (∀ l < _, _))

/-- The latest call for a node is a call for this node. -/
lemma latest_eq_some {a : NodeArchive} {parentHash : ℤ} {tokenIds : List ℤ} {node : OffloadedNode}
    (h : a.latest parentHash tokenIds = some node) :
    node ∈ a.nodes ∧ node.call.parentHash = parentHash ∧ node.call.tokenIds = tokenIds :=
  ⟨List.mem_of_find?_eq_some h, by simpa using List.find?_some h⟩

/-- The calls of an archive are calls of the run whose nodes can be hashed. -/
lemma mem_ofRun {ops : List OffloadArgs} {node : OffloadedNode} (h : node ∈ (ofRun ops).nodes) :
    node.call ∈ ops ∧ Hashable node.call.parentHash node.call.tokenIds := by
  induction ops using List.reverseRecOn with
  | nil => exact absurd h List.not_mem_nil
  | append_singleton ops r ih =>
    have hold (h : node ∈ (ofRun ops).nodes) : node.call ∈ ops ++ [r] ∧
        Hashable node.call.parentHash node.call.tokenIds :=
      ⟨List.mem_append_left _ (ih h).1, (ih h).2⟩
    rw [ofRun, List.foldl_concat, ← ofRun, step] at h
    split_ifs at h with hfits
    · rcases List.mem_cons.mp h with rfl | h
      · exact ⟨List.mem_append_right _ (List.mem_singleton_self _), hfits⟩
      · exact hold h
    · exact hold h

/-- Every call of the run whose node can be hashed is in the archive. -/
lemma exists_mem_ofRun {ops : List OffloadArgs} {r : OffloadArgs} (hr : r ∈ ops)
    (hfits : Hashable r.parentHash r.tokenIds) : ∃ node ∈ (ofRun ops).nodes, node.call = r := by
  induction ops using List.reverseRecOn with
  | nil => cases hr
  | append_singleton ops r' ih =>
    rw [ofRun, List.foldl_concat, ← ofRun, step]
    rcases List.mem_append.mp hr with hr | hr
    · obtain ⟨node, hnode, hcall⟩ := ih hr
      refine ⟨node, ?_, hcall⟩
      split_ifs
      · exact List.mem_cons_of_mem _ hnode
      · exact hnode
    · obtain rfl := List.mem_singleton.mp hr
      rw [if_pos hfits]
      exact ⟨_, List.mem_cons_self, rfl⟩

end NodeArchive

namespace KacheDBSGLangConnector

variable {blake2b : Bytes → UInt64} {casts : Casts} {B : Set Bytes} {dtype : DType}
  {layers heads dim poolSizeBytes : ℕ} {info : TensorDType × ℕ} {c : KacheDBSGLangConnector}
  {a : NodeArchive} {slots : List Bytes}

/-- Every position below `tokens` of these targets holds in every layer what was offloaded most
recently for the node that covers it. -/
def Restored (a : NodeArchive) (layers heads tokens : ℕ) (nodes : List RadixNodeDescriptor)
    (targetKs targetVs : List Tensor) : Prop :=
  ∀ l < layers, ∃ tk tv, targetKs[l]? = some tk ∧ targetVs[l]? = some tv ∧
    ∀ p < tokens, ∃ desc q node k v, cover nodes p = some (desc, q) ∧
      a.latest desc.parentHash desc.tokenIds = some node ∧
      node.call.kTensors[l]? = some k ∧ node.call.vTensors[l]? = some v ∧
      ∀ i < heads, tk.cell i p = k.cell i q ∧ tv.cell i p = v.cell i q

/-- A hit has restored the matched nodes. -/
lemma restorePrefix_eq_hit {fuel m : ℕ} {promptTokens : List ℤ}
    {tks tvs tks' tvs' : List Tensor}
    (h : c.restorePrefix casts fuel promptTokens tks tvs = some (.ok (m, true), tks', tvs')) :
    ∃ nodes, c.radixAdapter.findMatchingNodes fuel promptTokens none = some (m, nodes) ∧ m ≠ 0 ∧
      restoreNodes casts c.memoryManager 0 nodes tks tvs = (.ok (), tks', tvs') := by
  unfold restorePrefix at h
  split at h
  · cases h
  · next matchedTokens matchedNodes hfind =>
    split_ifs at h with hmiss
    · simp at h
    · split at h
      · simp at h
      · next hnodes =>
        obtain ⟨hm, rfl, rfl⟩ := by simpa using h
        rw [not_or] at hmiss
        exact ⟨matchedNodes, hm ▸ hfind, hm ▸ hmiss.1, hnodes⟩

/-- A descriptor whose slots are intact yields what was offloaded most recently for its node. -/
lemma Linked.yields (h : Linked blake2b B poolSizeBytes c a slots)
    (hmap : TensorCodec.dtypeMap dtype = some info)
    (huniform : ∀ node ∈ a.nodes, node.call.Uniform dtype layers heads dim) {key : UInt64}
    {desc : RadixNodeDescriptor} (hdesc : c.radixAdapter.lookupNode key = some desc)
    (hfresh : ∀ node, a.latest desc.parentHash desc.tokenIds = some node →
      a.Fresh poolSizeBytes node) {l : ℕ} (hl : l < layers) :
    ∃ node offset k v, a.latest desc.parentHash desc.tokenIds = some node ∧
      node.call.kTensors[l]? = some k ∧ node.call.vTensors[l]? = some v ∧
      desc.layerOffsets[l]? = some offset ∧
      Yields c.memoryManager dtype heads desc.numTokens dim offset k v := by
  obtain ⟨node, hnode, hstored⟩ := h.stored key desc hdesc
  obtain ⟨-, hnum, -⟩ := h.indexed key desc hdesc
  obtain ⟨hmem, -, htokens⟩ := NodeArchive.latest_eq_some hnode
  have hcall := huniform node hmem
  obtain ⟨k, v, hk, hv, hkv⟩ := hcall.getElem?_layers hl
  obtain ⟨hks, hvs⟩ := hcall.isSlice (List.mem_of_getElem? hkv)
  have hintact := hfresh node hnode l (by rwa [hcall.length_layers])
  rw [← h.sizes_eq, ← h.pool_eq] at hintact
  rw [← h.pool_eq] at hstored
  obtain ⟨offset, hoffset, hread⟩ := hstored.readPagedBlock h.wrote hkv hintact
    (by rw [hks.1]; exact hmap) (hvs.2.trans hks.2.symm) (hvs.1.trans hks.1.symm)
  rw [hks.1, hks.2] at hread
  rw [htokens, ← hnum] at hks hvs hread
  exact ⟨node, offset, k, v, hnode, hk, hv, hoffset, hks, hvs, hread⟩

/-- **A restored prefix is what was offloaded.**  After any run of calls with layers of one type
and shape, if a restore reports a hit of `m` tokens and no slot has been written over the payload
of the nodes that the search matches, then each of the first `m` positions of the targets has in
every layer the keys and values that were offloaded most recently for its node. -/
theorem restorePrefix_restores {rank localRank poolSizeMb fuel m : ℕ} {ops : List OffloadArgs}
    {promptTokens : List ℤ} {tks tvs tks' tvs' : List Tensor}
    (hmap : TensorCodec.dtypeMap dtype = some info)
    (hops : ∀ r ∈ ops, r.Uniform dtype layers heads dim ∧
      r.Fits dtype heads dim (poolSizeMb * 1024 * 1024))
    (hk : AreTargets dtype layers heads m dim tks) (hv : AreTargets dtype layers heads m dim tvs)
    (hfresh : ∀ tokens nodes, (run blake2b rank localRank poolSizeMb
        ops).radixAdapter.findMatchingNodes fuel promptTokens none = some (tokens, nodes) →
      ∀ desc ∈ nodes, ∀ node,
        (NodeArchive.ofRun ops).latest desc.parentHash desc.tokenIds = some node →
          (NodeArchive.ofRun ops).Fresh (poolSizeMb * 1024 * 1024) node)
    (hrestore : (run blake2b rank localRank poolSizeMb ops).restorePrefix casts fuel promptTokens
      tks tvs = some (.ok (m, true), tks', tvs')) :
    ∃ nodes, (run blake2b rank localRank poolSizeMb
        ops).radixAdapter.findMatchingNodes fuel promptTokens none = some (m, nodes) ∧
      Restored (NodeArchive.ofRun ops) layers heads m nodes tks' tvs' := by
  obtain ⟨slots, hlink⟩ := linked_run blake2b
    (fun r hr => (hops r hr).1.writable (hops r hr).2) rank localRank
  have huniform : ∀ node ∈ (NodeArchive.ofRun ops).nodes,
      node.call.Uniform dtype layers heads dim :=
    fun node hnode => (hops _ (NodeArchive.mem_ofRun hnode).1).1
  generalize run blake2b rank localRank poolSizeMb ops = c at *
  generalize NodeArchive.ofRun ops = a at *
  obtain ⟨nodes, hfind, -, hnodes⟩ := restorePrefix_eq_hit hrestore
  obtain ⟨hsum, hregistered⟩ := matchFrom_spec hfind
  refine ⟨nodes, hfind, fun l hl => ?_⟩
  -- what the descriptors of the matched nodes yield
  have hyields : ∀ desc ∈ nodes, ∃ offset k v, desc.layerOffsets[l]? = some offset ∧
      (∃ node, a.latest desc.parentHash desc.tokenIds = some node ∧
        node.call.kTensors[l]? = some k) ∧
      (∃ node, a.latest desc.parentHash desc.tokenIds = some node ∧
        node.call.vTensors[l]? = some v) ∧
      Yields c.memoryManager dtype heads desc.numTokens dim offset k v := by
    intro desc hdesc
    obtain ⟨key, hkey⟩ := hregistered desc hdesc
    obtain ⟨node, offset, k, v, hnode, hk, hv, hoffset, hyield⟩ :=
      hlink.yields hmap huniform hkey (hfresh m nodes hfind desc hdesc) hl
    exact ⟨offset, k, v, hoffset, ⟨node, hnode, hk⟩, ⟨node, hnode, hv⟩, hyield⟩
  have hlk : l < tks.length := hk.1 ▸ hl
  have hlv : l < tvs.length := hv.1 ▸ hl
  obtain ⟨sizeK, hsizeK, hsliceK⟩ := hk.2 _ (List.getElem_mem hlk)
  obtain ⟨sizeV, hsizeV, hsliceV⟩ := hv.2 _ (List.getElem_mem hlv)
  have hm : m = total nodes := hsum
  obtain ⟨tk', tv', hk', hv', hholdsK, hholdsV⟩ := restoreNodes_ok hyields hnodes
    (List.getElem?_eq_getElem hlk) (List.getElem?_eq_getElem hlv) hsliceK hsliceV
    (by omega) (by omega)
  refine ⟨tk', tv', hk', hv', fun p hp => ?_⟩
  obtain ⟨desc, q, k, hcover, ⟨node, hnode, hkl⟩, hcellK⟩ := hholdsK.2 p (hm ▸ hp)
  obtain ⟨desc', q', v, hcover', ⟨node', hnode', hvl⟩, hcellV⟩ := hholdsV.2 p (hm ▸ hp)
  obtain ⟨rfl, rfl⟩ := Prod.mk.inj (Option.some.inj (hcover.symm.trans hcover'))
  obtain rfl := Option.some.inj (hnode.symm.trans hnode')
  refine ⟨desc, q, node, k, v, hcover, hnode, hkl, hvl, fun i hi => ⟨?_, ?_⟩⟩
  · rw [← hcellK i hi, zero_add]
  · rw [← hcellV i hi, zero_add]

/-- The descriptor of a node that has been offloaded, if the hash function tells the nodes
apart. -/
lemma Linked.lookupNode_of_call (h : Linked blake2b B poolSizeBytes c a slots)
    (hapart : HashesApart blake2b B) {node : OffloadedNode} (hnode : node ∈ a.nodes)
    (hfits : Hashable node.call.parentHash node.call.tokenIds)
    (hB : nodeBuffer node.call.parentHash node.call.tokenIds ∈ B) :
    ∃ key desc, c.radixAdapter.lookupNode key = some desc ∧
      desc.parentHash = node.call.parentHash ∧ desc.tokenIds = node.call.tokenIds := by
  obtain ⟨desc, hdesc⟩ := h.known node hnode
  obtain ⟨-, -, hfits', hdigest, hB'⟩ := h.indexed _ desc hdesc
  have hbuffer := hapart.1 hB hB' hdigest
  obtain ⟨hparent, htokens⟩ := nodeBuffer_inj hfits hfits' hbuffer
  exact ⟨_, desc, hdesc, hparent.symm, htokens.symm⟩

/-- The slots of a descriptor lie within the pool. -/
lemma Linked.readable (h : Linked blake2b B poolSizeBytes c a slots)
    (huniform : ∀ node ∈ a.nodes, node.call.Uniform dtype layers heads dim) {key : UInt64}
    {desc : RadixNodeDescriptor} (hdesc : c.radixAdapter.lookupNode key = some desc) :
    ∀ offset ∈ desc.layerOffsets,
      Readable c.memoryManager dtype heads desc.numTokens dim offset := by
  intro offset hoffset
  obtain ⟨node, hnode, hstored⟩ := h.stored key desc hdesc
  obtain ⟨-, hnum, -⟩ := h.indexed key desc hdesc
  obtain ⟨hmem, -, htokens⟩ := NodeArchive.latest_eq_some hnode
  obtain ⟨l, hl⟩ := List.getElem?_of_mem hoffset
  rw [← h.pool_eq] at hstored
  obtain ⟨kv, hkv, hwithin⟩ := hstored.within h.wrote hl
  obtain ⟨hk, hv⟩ := (huniform node hmem).isSlice (List.mem_of_getElem? hkv)
  rwa [slotSize_of_isSlice hk hv, htokens, ← hnum] at hwithin

/-- If no node is empty, every descriptor has tokens. -/
lemma Linked.numTokens_pos (h : Linked blake2b B poolSizeBytes c a slots)
    (hne : ∀ node ∈ a.nodes, node.call.tokenIds ≠ []) {key : UInt64} {desc : RadixNodeDescriptor}
    (hdesc : c.radixAdapter.lookupNode key = some desc) : 0 < desc.numTokens := by
  obtain ⟨node, hnode, -⟩ := h.stored key desc hdesc
  obtain ⟨-, hnum, -⟩ := h.indexed key desc hdesc
  obtain ⟨hmem, -, heq⟩ := NodeArchive.latest_eq_some hnode
  rw [hnum, ← heq]
  exact List.length_pos_iff.mpr (hne node hmem)

/-- A search in a prompt that begins with a node below the root matches a node first. -/
lemma Linked.matches_first (h : Linked blake2b B poolSizeBytes c a slots)
    (hapart : HashesApart blake2b B) (hne : ∀ node ∈ a.nodes, node.call.tokenIds ≠ [])
    {node : OffloadedNode} (hnode : node ∈ a.nodes) (hroot : node.call.parentHash = 0)
    (hfits : Hashable node.call.parentHash node.call.tokenIds)
    (hB : nodeBuffer node.call.parentHash node.call.tokenIds ∈ B) {promptTokens : List ℤ}
    (hpre : node.call.tokenIds <+: promptTokens) {fuel m : ℕ} {nodes : List RadixNodeDescriptor}
    (hfind : c.radixAdapter.findMatchingNodes fuel promptTokens none = some (m, nodes)) :
    ∃ best rest, nodes = best :: rest ∧ 0 < best.numTokens := by
  obtain ⟨key, desc, hdesc, hparent, heq⟩ := h.lookupNode_of_call hapart hnode hfits hB
  have hnum : desc.numTokens = node.call.tokenIds.length := by
    rw [(h.indexed key desc hdesc).2.1, heq]
  have hwindow : window promptTokens 0 desc.numTokens = desc.tokenIds := by
    rw [hnum, heq, window, List.drop_zero]
    exact (List.prefix_iff_eq_take.mp hpre).symm
  have hwithin : 0 + desc.numTokens ≤ promptTokens.length := by
    rw [hnum, zero_add]
    exact hpre.length_le
  obtain ⟨best, hbest⟩ := bestNode_isSome hdesc (hparent.trans hroot) hwithin hwindow
  have hlimit : ((0 : ℕ) : ℤ) < ((none : Option ℤ).getD promptTokens.length) := by
    have hlt := h.numTokens_pos hne hdesc
    simp only [Option.getD_none]
    omega
  obtain ⟨rest, hrest⟩ := matchFrom_cons hfind hlimit hbest
  obtain ⟨⟨key', hkey'⟩, -⟩ := bestNode_eq_some hbest
  exact ⟨best, rest, hrest, h.numTokens_pos hne hkey'⟩

/-- **A prompt that begins with an offloaded node is a hit**, however many layers the targets have.
The node hangs below the root, no node is empty, the hash function tells the nodes apart, and the
targets have room for the prompt. -/
theorem restorePrefix_hit (casts : Casts) (rank localRank : ℕ) {poolSizeMb fuel : ℕ}
    {ops : List OffloadArgs} {promptTokens : List ℤ} {tks tvs : List Tensor}
    (hpos : 0 < heads * dim) (hmap : TensorCodec.dtypeMap dtype = some info)
    (hops : ∀ r ∈ ops, r.Uniform dtype layers heads dim ∧
      r.Fits dtype heads dim (poolSizeMb * 1024 * 1024))
    (hne : ∀ r ∈ ops, r.tokenIds ≠ []) (hapart : HashesApart blake2b (builtBuffers ops))
    (hfuel : ops.length < fuel) {targetLayers : ℕ}
    {r : OffloadArgs} (hr : r ∈ ops) (hroot : r.parentHash = 0)
    (hpack : Packable r.tokenIds) (hpre : r.tokenIds <+: promptTokens)
    (hk : AreTargets dtype targetLayers heads promptTokens.length dim tks)
    (hv : AreTargets dtype targetLayers heads promptTokens.length dim tvs) :
    ∃ m tks' tvs', 0 < m ∧ m ≤ promptTokens.length ∧
      (run blake2b rank localRank poolSizeMb ops).restorePrefix casts fuel promptTokens tks tvs =
        some (.ok (m, true), tks', tvs') := by
  have hitems := length_items_run_le blake2b rank localRank poolSizeMb ops
  obtain ⟨slots, hlink⟩ := linked_run blake2b
    (fun r hr => (hops r hr).1.writable (hops r hr).2) rank localRank
  have hfits : Hashable r.parentHash r.tokenIds := ⟨by omega, hpack⟩
  obtain ⟨node, hnode, rfl⟩ := NodeArchive.exists_mem_ofRun hr hfits
  have hcalls : ∀ node ∈ (NodeArchive.ofRun ops).nodes,
      node.call.Uniform dtype layers heads dim ∧ node.call.tokenIds ≠ [] :=
    fun node hnode => ⟨(hops _ (NodeArchive.mem_ofRun hnode).1).1,
      hne _ (NodeArchive.mem_ofRun hnode).1⟩
  generalize run blake2b rank localRank poolSizeMb ops = c at *
  generalize NodeArchive.ofRun ops = a at *
  have hnonempty : ∀ node ∈ a.nodes, node.call.tokenIds ≠ [] := fun node hnode =>
    (hcalls node hnode).2
  -- the search ends, and a first node is taken
  obtain ⟨⟨m, nodes⟩, hfind⟩ := findMatchingNodes_ends hlink.indexed hapart
    (hitems.trans_lt hfuel) promptTokens none
  obtain ⟨best, rest, rfl, hbest⟩ := hlink.matches_first hapart hnonempty hnode hroot hfits
    ⟨_, hr, hfits, rfl⟩ hpre hfind
  obtain ⟨hsum, hregistered⟩ := matchFrom_spec hfind
  have hle := matchFrom_le (Nat.zero_le _) hfind
  simp only [zero_add] at hsum hle
  have hm : 0 < m := by
    rw [hsum, List.map_cons, List.sum_cons]
    omega
  obtain ⟨tks', tvs', hnodes⟩ := restoreNodes_succeeds casts hmap
    (fun desc' hdesc' => by
      obtain ⟨key', hkey'⟩ := hregistered desc' hdesc'
      have := Nat.mul_pos hpos (hlink.numTokens_pos hnonempty hkey')
      linarith [mul_right_comm heads desc'.numTokens dim])
    (fun desc' hdesc' => by
      obtain ⟨key', hkey'⟩ := hregistered desc' hdesc'
      exact hlink.readable (fun node hnode => (hcalls node hnode).1) hkey')
    (show 0 + total (best :: rest) ≤ promptTokens.length by
      rw [total, ← hsum, zero_add]
      exact hle) hk hv
  refine ⟨m, tks', tvs', hm, hle, ?_⟩
  have hmiss : ¬ (m = 0 ∨ (best :: rest).isEmpty = true) := by
    simp [hm.ne']
  unfold restorePrefix
  simp only [hfind, if_neg hmiss, hnodes]

/-! ## Nodes of one token -/

section OneToken

/-- A tensor with one position all of whose bytes are `b`. -/
def onePosition (dim : ℕ) (b : UInt8) : Tensor :=
  .filled .float16 [1, 1, dim] b

/-- Offload a node of one token below the root, with one layer. -/
def offloadOne (tid : ℤ) (dim : ℕ) (b : UInt8) : OffloadArgs where
  nodeId := tid
  tokenIds := [tid]
  kTensors := [onePosition dim b]
  vTensors := [onePosition dim b]

/-- The hash function on the buffers of the nodes of one token 1 or 2 below the root. -/
def oneNodeDigest (b : Bytes) : UInt64 :=
  if b = nodeBuffer 0 [1] then 0xc6714aa2da6dbef0 else 0xff357d852574b4a8

variable {dim : ℕ}

lemma isSlice_onePosition (b : UInt8) : (onePosition dim b).IsSlice .float16 1 1 dim :=
  ⟨rfl, rfl⟩

lemma uniform_offloadOne (tid : ℤ) (b : UInt8) :
    (offloadOne tid dim b).Uniform .float16 1 1 dim :=
  ⟨⟨rfl, rfl⟩, List.forall_mem_singleton.mpr (isSlice_onePosition b),
    List.forall_mem_singleton.mpr (isSlice_onePosition b)⟩

lemma areTargets_onePosition {m : ℕ} (hm : m ≤ 1) (b : UInt8) :
    AreTargets .float16 1 1 m dim [onePosition dim b] :=
  ⟨rfl, List.forall_mem_singleton.mpr ⟨1, hm, isSlice_onePosition b⟩⟩

/-- The hash function is as it should be on these buffers. -/
lemma hashesApart_oneNodeDigest {ops : List OffloadArgs}
    (h : ∀ r ∈ ops, r.parentHash = 0 ∧ (r.tokenIds = [1] ∨ r.tokenIds = [2])) :
    HashesApart oneNodeDigest (builtBuffers ops) := by
  refine hashesApart_of_nodup [nodeBuffer 0 [1], nodeBuffer 0 [2]] ?_ (by decide)
  rintro b ⟨r, hr, -, rfl⟩
  obtain ⟨hparent, htokens⟩ := h r hr
  rw [hparent]
  rcases htokens with htokens | htokens <;> simp [htokens]

end OneToken

/-! ## Two nodes of two layers -/

section TwoNodes

/-- A tensor with so many positions all of whose bytes are `b`. -/
def positions (n : ℕ) (b : UInt8) : Tensor :=
  .filled .float16 [1, n, 1] b

/-- Offload a child of the root and a child of this child, with two layers each. -/
def twoNodes : List OffloadArgs :=
  [{ nodeId := 1
     tokenIds := [1]
     kTensors := [positions 1 10, positions 1 11]
     vTensors := [positions 1 12, positions 1 13] },
   { nodeId := 2
     tokenIds := [2, 3]
     kTensors := [positions 2 20, positions 2 21]
     vTensors := [positions 2 22, positions 2 23]
     parentHash := 0xc6714aa2da6dbef0 }]

/-- The hash function on the buffers of the two nodes. -/
def twoNodesDigest (b : Bytes) : UInt64 :=
  if b = nodeBuffer 0 [1] then 0xc6714aa2da6dbef0 else 0x1c226c3ae570297a

/-- Targets of two layers with four positions. -/
def twoTargets (b : UInt8) : List Tensor :=
  [positions 4 b, positions 4 (b + 1)]

lemma isSlice_positions (n : ℕ) (b : UInt8) : (positions n b).IsSlice .float16 1 n 1 :=
  ⟨rfl, rfl⟩

lemma uniform_twoNodes : ∀ r ∈ twoNodes, r.Uniform .float16 2 1 1 ∧
    r.Fits .float16 1 1 (1 * 1024 * 1024) := by
  have hfits (tokens : ℕ) (h : tokens ≤ 2) :
      TensorBlockDescriptor.sizeof + 2 * (1 * tokens * 1 * DType.float16.itemSize) ≤
        1 * 1024 * 1024 := by
    simp only [TensorBlockDescriptor.sizeof, DType.itemSize]
    omega
  simp only [twoNodes, List.forall_mem_cons, List.not_mem_nil, IsEmpty.forall_iff, implies_true,
    and_true, OffloadArgs.Uniform]
  exact ⟨⟨⟨⟨rfl, rfl⟩, ⟨isSlice_positions 1 10, isSlice_positions 1 11⟩, isSlice_positions 1 12,
    isSlice_positions 1 13⟩, hfits 1 one_le_two⟩, ⟨⟨rfl, rfl⟩, ⟨isSlice_positions 2 20,
    isSlice_positions 2 21⟩, isSlice_positions 2 22, isSlice_positions 2 23⟩, hfits 2 le_rfl⟩

lemma areTargets_twoTargets {m : ℕ} (hm : m ≤ 4) (b : UInt8) :
    AreTargets .float16 2 1 m 1 (twoTargets b) := by
  refine ⟨rfl, List.forall_mem_cons.mpr ⟨⟨4, hm, isSlice_positions 4 b⟩, ?_⟩⟩
  exact List.forall_mem_singleton.mpr ⟨4, hm, isSlice_positions 4 (b + 1)⟩

/-- The hash function tells the two nodes apart. -/
lemma hashesApart_twoNodes : HashesApart twoNodesDigest (builtBuffers twoNodes) := by
  refine hashesApart_of_nodup (twoNodes.map fun r => nodeBuffer r.parentHash r.tokenIds) ?_
    (by decide)
  rintro b ⟨r, hr, -, rfl⟩
  exact List.mem_map_of_mem hr

/-- A prompt that begins with the tokens of both nodes is a hit. -/
lemma exists_hit_twoNodes : ∃ m tks' tvs', m ≤ 4 ∧
    (run twoNodesDigest 0 0 1 twoNodes).restorePrefix .zeros 3 [1, 2, 3, 4] (twoTargets 0)
      (twoTargets 2) = some (.ok (m, true), tks', tvs') := by
  obtain ⟨m, tks', tvs', -, hle, hhit⟩ := restorePrefix_hit .zeros 0 0 Nat.one_pos rfl
    uniform_twoNodes (by decide) hashesApart_twoNodes (Nat.lt_succ_self 2) List.mem_cons_self rfl
    (by decide) (show ([1] : List ℤ) <+: [1, 2, 3, 4] by decide) (areTargets_twoTargets le_rfl 0)
    (areTargets_twoTargets le_rfl 2)
  exact ⟨m, tks', tvs', hle, hhit⟩

/-- Both nodes are restored into targets of two layers. -/
theorem restorePrefix_restores_twoNodes :
    ∃ m tks' tvs', (run twoNodesDigest 0 0 1 twoNodes).restorePrefix .zeros 3 [1, 2, 3, 4]
        (twoTargets 0) (twoTargets 2) = some (.ok (m, true), tks', tvs') ∧
      ∃ nodes, (run twoNodesDigest 0 0 1 twoNodes).radixAdapter.findMatchingNodes 3 [1, 2, 3, 4]
          none = some (m, nodes) ∧
        Restored (NodeArchive.ofRun twoNodes) 2 1 m nodes tks' tvs' := by
  obtain ⟨m, tks', tvs', hle, hhit⟩ := exists_hit_twoNodes
  have hfresh : ∀ node ∈ (NodeArchive.ofRun twoNodes).nodes,
      (NodeArchive.ofRun twoNodes).Fresh (1 * 1024 * 1024) node := by decide +kernel
  exact ⟨m, tks', tvs', hhit, restorePrefix_restores rfl uniform_twoNodes
    (areTargets_twoTargets hle 0) (areTargets_twoTargets hle 2)
    (fun _ _ _ _ _ node hnode => hfresh node (NodeArchive.latest_eq_some hnode).1) hhit⟩

end TwoNodes

/-! ## A pool with room for one slot -/

/-- Two nodes are offloaded, and the slot of each takes more than half of the pool. -/
def overwritingOffloads : List OffloadArgs :=
  [offloadOne 1 131072 0, offloadOne 2 131072 1]

/-- What has been offloaded. -/
lemma ofRun_overwritingOffloads : NodeArchive.ofRun overwritingOffloads =
    ⟨[524352, 524352], [⟨offloadOne 2 131072 1, 1⟩, ⟨offloadOne 1 131072 0, 0⟩]⟩ := by
  have hsize (b : UInt8) : slotSize (onePosition 131072 b, onePosition 131072 b) = 524352 := by
    rw [slotSize_of_isSlice (isSlice_onePosition b) (isSlice_onePosition b)]
    norm_num [TensorBlockDescriptor.sizeof, DType.itemSize]
  have hlayers (tid : ℤ) (b : UInt8) : (offloadOne tid 131072 b).layers =
      [(onePosition 131072 b, onePosition 131072 b)] := rfl
  have hfits₁ : Hashable (offloadOne 1 131072 0).parentHash (offloadOne 1 131072 0).tokenIds := by
    decide
  have hfits₂ : Hashable (offloadOne 2 131072 1).parentHash (offloadOne 2 131072 1).tokenIds := by
    decide
  rw [NodeArchive.ofRun, overwritingOffloads, List.foldl_cons, List.foldl_cons, List.foldl_nil,
    NodeArchive.step, NodeArchive.step, if_pos hfits₁, if_pos hfits₂, hlayers, hlayers]
  simp only [List.map_cons, List.map_nil, hsize]
  rfl

section Overwriting

/-- The hash function tells the two nodes apart. -/
lemma hashesApart_overwriting : HashesApart oneNodeDigest (builtBuffers overwritingOffloads) :=
  hashesApart_oneNodeDigest (List.forall_mem_cons.mpr ⟨⟨rfl, .inl rfl⟩,
    List.forall_mem_singleton.mpr ⟨rfl, .inr rfl⟩⟩)

/-- Both slots are at 0. -/
lemma overwriting_offset (hsizes : slots.map List.length = [524352, 524352]) {start : ℕ}
    {offsets : List ℕ} {kv : Tensor × Tensor}
    (hstored : StoredAt (1 * 1024 * 1024) slots start offsets [kv]) (hstart : start < 2) :
    offsets[0]? = some 0 := by
  obtain ⟨offset, desc, size, hoffset, -, hspan⟩ := hstored.stored 0 kv.1 kv.2 rfl
  have hspans : RingBuffer.spans (1 * 1024 * 1024) [524352, 524352] =
      [⟨0, 524352⟩, ⟨0, 524352⟩] := rfl
  rw [hsizes, hspans, add_zero] at hspan
  rw [hoffset]
  interval_cases start
  · exact (congrArg (Option.map Span.start) hspan).symm
  · exact (congrArg (Option.map Span.start) hspan).symm

/-- What the archive has is one of the two nodes. -/
lemma latest_overwriting {parentHash : ℤ} {tokenIds : List ℤ} {node : OffloadedNode}
    (h : (NodeArchive.ofRun overwritingOffloads).latest parentHash tokenIds = some node) :
    (node = ⟨offloadOne 2 131072 1, 1⟩ ∧ tokenIds = [2]) ∨
      (node = ⟨offloadOne 1 131072 0, 0⟩ ∧ tokenIds = [1]) := by
  obtain ⟨hmem, -, rfl⟩ := NodeArchive.latest_eq_some h
  rw [ofRun_overwritingOffloads] at hmem
  simp only [List.mem_cons, List.not_mem_nil, or_false] at hmem
  rcases hmem with rfl | rfl
  · exact .inl ⟨rfl, rfl⟩
  · exact .inr ⟨rfl, rfl⟩

variable (h : Linked oneNodeDigest (builtBuffers overwritingOffloads) (1 * 1024 * 1024) c
  (NodeArchive.ofRun overwritingOffloads) slots)

include h

lemma Linked.overwriting_sizes : slots.map List.length = [524352, 524352] := by
  rw [h.sizes_eq, ofRun_overwritingOffloads]

/-- Every descriptor is of one token, and its layer is at 0. -/
lemma Linked.overwriting_zero {key : UInt64} {desc : RadixNodeDescriptor}
    (hdesc : c.radixAdapter.lookupNode key = some desc) :
    desc.layerOffsets[0]? = some 0 ∧ desc.numTokens = 1 := by
  obtain ⟨node, hnode, hstored⟩ := h.stored key desc hdesc
  obtain ⟨-, hnum, -⟩ := h.indexed key desc hdesc
  rw [hnum]
  rcases latest_overwriting hnode with ⟨rfl, htokens⟩ | ⟨rfl, htokens⟩
  · exact ⟨overwriting_offset h.overwriting_sizes hstored Nat.one_lt_two, by rw [htokens]; rfl⟩
  · exact ⟨overwriting_offset h.overwriting_sizes hstored Nat.zero_lt_two, by rw [htokens]; rfl⟩

/-- Every descriptor yields what was offloaded for the second node. -/
lemma Linked.overwriting_yields {key : UInt64} {desc : RadixNodeDescriptor}
    (hdesc : c.radixAdapter.lookupNode key = some desc) :
    desc.layerOffsets[0]? = some 0 ∧ Yields c.memoryManager .float16 1 desc.numTokens 131072 0
      (onePosition 131072 1) (onePosition 131072 1) := by
  -- the slot at 0 is the last one
  have hlast : ⟨offloadOne 2 131072 1, 1⟩ ∈ (NodeArchive.ofRun overwritingOffloads).nodes := by
    rw [ofRun_overwritingOffloads]
    exact List.mem_cons_self
  obtain ⟨key₂, desc₂, hdesc₂, -, htokens₂⟩ := h.lookupNode_of_call
    hashesApart_overwriting hlast (by decide)
    ⟨offloadOne 2 131072 1, List.mem_cons_of_mem _ (List.mem_singleton_self _), by decide, rfl⟩
  obtain ⟨node₂, hnode₂, hstored₂⟩ := h.stored key₂ desc₂ hdesc₂
  rcases latest_overwriting hnode₂ with ⟨rfl, -⟩ | ⟨-, hfirst⟩
  · have hintact : RingBuffer.Intact c.memoryManager.poolSizeBytes TensorBlockDescriptor.sizeof
        (slots.map List.length) (1 + 0) := by
      rw [h.overwriting_sizes]
      exact RingBuffer.intact_last _ _ [524352] _
    rw [← h.pool_eq] at hstored₂
    obtain ⟨offset, hoffset, hread⟩ := hstored₂.readPagedBlock h.wrote
      (show _ = some (onePosition 131072 1, onePosition 131072 1) from rfl) hintact rfl rfl rfl
    obtain rfl := Option.some.inj (hoffset.symm.trans (h.overwriting_zero hdesc₂).1)
    obtain ⟨hoffset', hnum⟩ := h.overwriting_zero hdesc
    rw [hnum]
    exact ⟨hoffset', isSlice_onePosition 1, isSlice_onePosition 1, hread⟩
  · exact absurd (htokens₂.symm.trans hfirst) (by decide)

/-- The first position of the prompt `[1]` is covered by the first node. -/
lemma Linked.overwriting_cover {fuel m q : ℕ} {nodes : List RadixNodeDescriptor}
    {desc : RadixNodeDescriptor}
    (hfind : c.radixAdapter.findMatchingNodes fuel [1] none = some (m, nodes))
    (hcover : cover nodes 0 = some (desc, q)) : q = 0 ∧ desc.tokenIds = [1] := by
  cases nodes with
  | nil => cases hcover
  | cons best rest =>
    obtain ⟨⟨key, hkey⟩, -, -, hwindow⟩ := bestNode_eq_some (bestNode_of_matchFrom hfind)
    have hnum : best.numTokens = 1 := (h.overwriting_zero hkey).2
    rw [cover, if_pos (by omega)] at hcover
    obtain ⟨rfl, rfl⟩ := Prod.mk.inj (Option.some.inj hcover)
    rw [hnum] at hwindow
    exact ⟨rfl, hwindow.symm⟩

end Overwriting

/-- **A hit may give back what was offloaded for another node.**  Both nodes are offloaded with
layers of one type and shape, every slot fits in the pool, and the restore of the first node reports
a hit, but the targets do not hold what was offloaded for it. -/
theorem restorePrefix_corrupts :
    (∀ r ∈ overwritingOffloads, r.Uniform .float16 1 1 131072 ∧
        r.Fits .float16 1 131072 (1 * 1024 * 1024)) ∧
      HashesApart oneNodeDigest (builtBuffers overwritingOffloads) ∧
      AreTargets .float16 1 1 1 131072 [onePosition 131072 2] ∧
      ∃ m nodes tks' tvs', (run oneNodeDigest 0 0 1 overwritingOffloads).restorePrefix .zeros 3 [1]
          [onePosition 131072 2] [onePosition 131072 2] = some (.ok (m, true), tks', tvs') ∧
        (run oneNodeDigest 0 0 1 overwritingOffloads).radixAdapter.findMatchingNodes 3 [1] none =
          some (m, nodes) ∧
        ¬ Restored (NodeArchive.ofRun overwritingOffloads) 1 1 m nodes tks' tvs' := by
  have hfit (tid : ℤ) (b : UInt8) :
      (offloadOne tid 131072 b).Fits .float16 1 131072 (1 * 1024 * 1024) := by
    norm_num [OffloadArgs.Fits, offloadOne, TensorBlockDescriptor.sizeof, DType.itemSize]
  have hops : ∀ r ∈ overwritingOffloads, r.Uniform .float16 1 1 131072 ∧
      r.Fits .float16 1 131072 (1 * 1024 * 1024) :=
    List.forall_mem_cons.mpr ⟨⟨uniform_offloadOne 1 0, hfit 1 0⟩,
      List.forall_mem_singleton.mpr ⟨uniform_offloadOne 2 1, hfit 2 1⟩⟩
  refine ⟨hops, hashesApart_overwriting, areTargets_onePosition le_rfl 2, ?_⟩
  obtain ⟨m, tks', tvs', hm, hle, hrestore⟩ := restorePrefix_hit .zeros 0 0 (by decide) rfl hops
    (List.forall_mem_cons.mpr ⟨List.cons_ne_nil _ _,
      List.forall_mem_singleton.mpr (List.cons_ne_nil _ _)⟩)
    hashesApart_overwriting (Nat.lt_succ_self 2) List.mem_cons_self rfl (by decide)
    (List.prefix_refl [1]) (areTargets_onePosition le_rfl 2) (areTargets_onePosition le_rfl 2)
  obtain ⟨nodes, hfind, -, hnodes⟩ := restorePrefix_eq_hit hrestore
  refine ⟨m, nodes, tks', tvs', hrestore, hfind, fun hrestored => ?_⟩
  obtain ⟨slots, hlink⟩ := linked_run oneNodeDigest
    (fun r hr => (hops r hr).1.writable (hops r hr).2) 0 0
  generalize run oneNodeDigest 0 0 1 overwritingOffloads = c at *
  obtain ⟨hsum, hregistered⟩ := matchFrom_spec hfind
  -- the targets hold the second node
  have hyields : ∀ desc ∈ nodes, ∃ offset k v, desc.layerOffsets[0]? = some offset ∧
      k = onePosition 131072 1 ∧ v = onePosition 131072 1 ∧
      Yields c.memoryManager .float16 1 desc.numTokens 131072 offset k v := by
    intro desc hdesc
    obtain ⟨key, hkey⟩ := hregistered desc hdesc
    obtain ⟨hoffset, hyield⟩ := hlink.overwriting_yields hkey
    exact ⟨0, _, _, hoffset, rfl, rfl, hyield⟩
  have htotal : 0 + total nodes ≤ 1 := by
    rw [total, ← hsum, zero_add]
    exact hle
  obtain ⟨tk', tv', hk', -, hholds, -⟩ := restoreNodes_ok hyields hnodes rfl rfl
    (isSlice_onePosition 2) (isSlice_onePosition 2) htotal htotal
  obtain ⟨desc, q, u, hcover, rfl, hcell⟩ := hholds.2 0 (by rw [total, ← hsum]; exact hm)
  -- the first position belongs to the first node
  obtain ⟨tk, tv, htk, -, hpositions⟩ := hrestored 0 Nat.one_pos
  obtain rfl := Option.some.inj (hk'.symm.trans htk)
  obtain ⟨desc', q', node, k, v, hcover', hnode, hk, -, hcells⟩ := hpositions 0 hm
  obtain ⟨rfl, rfl⟩ := Prod.mk.inj (Option.some.inj (hcover.symm.trans hcover'))
  obtain ⟨rfl, htokens⟩ := hlink.overwriting_cover hfind hcover
  have hnode' : node = ⟨offloadOne 1 131072 0, 0⟩ := by
    rcases latest_overwriting hnode with ⟨-, hsecond⟩ | ⟨heq, -⟩
    · exact absurd (htokens.symm.trans hsecond) (by decide)
    · exact heq
  rw [hnode'] at hk
  obtain rfl := Option.some.inj hk
  -- the bytes of the two nodes are different
  have hbytes := (hcells 0 Nat.one_pos).1.symm.trans (hcell 0 Nat.one_pos)
  rw [onePosition, onePosition, Tensor.cell_filled .float16 [131072] Nat.one_pos Nat.one_pos,
    Tensor.cell_filled .float16 [131072] Nat.one_pos Nat.one_pos,
    List.replicate_right_inj (by decide)] at hbytes
  exact absurd hbytes (by decide)

end KacheDBSGLangConnector

end KacheDB
