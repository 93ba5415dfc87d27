import KacheDB.Sglang.Connector

/-!
# What has been offloaded

`NodeArchive` is the abstract side of the SGLang connector: the calls of `offload_node`, newest
first, and the sizes of all slots that have been written.  It has no hashes and no memory;
`NodeArchive.latest` is the call that offloaded a node most recently.

`Linked` links a connector to an archive: each descriptor says where the layers of the latest
call for its node have been written.  Every call keeps the link (`linked_run`), if its layers can
be written; nothing is asked of the hash function for this.
-/

namespace KacheDB

open Foundation KacheDBRadixAdapter KacheDBMemoryManager

/-- The key and the value tensors of a call, layer by layer. -/
def OffloadArgs.layers (r : OffloadArgs) : List (Tensor × Tensor) :=
  r.kTensors.zip r.vTensors

/-- The call gives as many value as key tensors, and they can be written into a pool of this
size. -/
def OffloadArgs.Writable (poolSizeBytes : ℕ) (r : OffloadArgs) : Prop :=
  r.kTensors.length = r.vTensors.length ∧
    ∀ kv ∈ r.layers, KacheDBMemoryManager.Writable poolSizeBytes kv

/-- A call that has offloaded a node, and the number of slots that had been written before it. -/
structure OffloadedNode where
  call : OffloadArgs
  start : ℕ

/-- The sizes of all slots, oldest first, and the calls, newest first. -/
structure NodeArchive where
  sizes : List ℕ
  nodes : List OffloadedNode

namespace NodeArchive

/-- Nothing has been offloaded. -/
def empty : NodeArchive :=
  ⟨[], []⟩

/-- The call that has offloaded a node most recently. -/
def latest (a : NodeArchive) (parentHash : ℤ) (tokenIds : List ℤ) : Option OffloadedNode :=
  a.nodes.find? fun node => node.call.parentHash = parentHash ∧ node.call.tokenIds = tokenIds

/-- One call; nothing happens if what is hashed for the node does not fit into its fields. -/
def step (a : NodeArchive) (r : OffloadArgs) : NodeArchive :=
  if Hashable r.parentHash r.tokenIds then
    ⟨a.sizes ++ r.layers.map slotSize, ⟨r, a.sizes.length⟩ :: a.nodes⟩
  else a

/-- What has been offloaded in a run. -/
def ofRun (ops : List OffloadArgs) : NodeArchive :=
  ops.foldl step empty

end NodeArchive

namespace KacheDBSGLangConnector

/-- The buffers that are hashed for these calls, where they fit. -/
def builtBuffers (ops : List OffloadArgs) : Set Bytes :=
  {b | ∃ r ∈ ops, Hashable r.parentHash r.tokenIds ∧ b = nodeBuffer r.parentHash r.tokenIds}

/-- The connector is linked to the archive through the slots that have been written. -/
structure Linked (blake2b : Bytes → UInt64) (B : Set Bytes) (poolSizeBytes : ℕ)
    (c : KacheDBSGLangConnector) (a : NodeArchive) (slots : List Bytes) : Prop where
  pool_eq : c.memoryManager.poolSizeBytes = poolSizeBytes
  wrote : c.memoryManager.Wrote slots
  sizes_eq : slots.map List.length = a.sizes
  indexed : c.radixAdapter.Indexed blake2b B
  stored : ∀ h desc, c.radixAdapter.lookupNode h = some desc →
    ∃ node, a.latest desc.parentHash desc.tokenIds = some node ∧
      StoredAt poolSizeBytes slots node.start desc.layerOffsets node.call.layers
  known : ∀ node ∈ a.nodes, ∃ desc, c.radixAdapter.lookupNode
    (blake2b (nodeBuffer node.call.parentHash node.call.tokenIds)) = some desc

variable {blake2b : Bytes → UInt64} {B : Set Bytes} {poolSizeBytes : ℕ}
  {c : KacheDBSGLangConnector} {a : NodeArchive} {slots : List Bytes}

/-- Offloading the layers of a node writes one slot for each, and the offsets say where. -/
lemma offloadLayers_spec {m : KacheDBMemoryManager} (hw : m.Wrote slots)
    {layers : List (Tensor × Tensor)}
    (hwritable : ∀ kv ∈ layers, KacheDBMemoryManager.Writable m.poolSizeBytes kv)
    (nodeHash : UInt64) (nodeId : ℤ) (lIdx : ℕ) :
    ∃ more offsets m', offloadLayers nodeHash nodeId lIdx (layers.map Prod.fst)
        (layers.map Prod.snd) m = (.ok offsets, m') ∧ m'.Wrote (slots ++ more) ∧
      m'.poolSizeBytes = m.poolSizeBytes ∧ more.map List.length = layers.map slotSize ∧
      StoredAt m.poolSizeBytes (slots ++ more) slots.length offsets layers := by
  induction layers generalizing m slots lIdx with
  | nil => exact ⟨[], [], m, rfl, by rwa [List.append_nil], rfl, rfl, storedAt_nil _ _ _⟩
  | cons kv layers ih =>
    obtain ⟨k, v⟩ := kv
    obtain ⟨hkv, hrest⟩ := List.forall_mem_cons.mp hwritable
    obtain ⟨offset, size, desc, m₁, hwrite, hw₁, hpool₁, hspan⟩ :=
      hw.writeLayer hkv lIdx nodeHash nodeId.toNat
    obtain ⟨more, offsets, m', hres, hw', hpool', hsizes, hstored⟩ :=
      ih hw₁ (by rwa [hpool₁]) (lIdx + 1)
    refine ⟨slotBytes desc k v :: more, offset :: offsets, m', ?_, ?_, hpool'.trans hpool₁, ?_, ?_⟩
    · simp only [List.map_cons, offloadLayers, hwrite, hres]
    · rwa [List.append_assoc, List.singleton_append] at hw'
    · rw [List.map_cons, List.map_cons, hsizes, length_slotBytes]
      rfl
    · rw [hpool₁] at hstored
      exact hstored.cons_written hspan

/-- A new connector is linked to an empty archive. -/
lemma linked_new (blake2b : Bytes → UInt64) (B : Set Bytes) (rank localRank poolSizeMb : ℕ) :
    Linked blake2b B (poolSizeMb * 1024 * 1024) (new rank localRank poolSizeMb) .empty [] where
  pool_eq := rfl
  wrote := wrote_new localRank poolSizeMb
  sizes_eq := rfl
  indexed := indexed_new
  stored := fun _ _ h => by cases h
  known := fun _ h => absurd h List.not_mem_nil

/-- What one call does to a connector. -/
lemma offloadNode_spec (h : Linked blake2b B poolSizeBytes c a slots) {r : OffloadArgs}
    (hfits : Hashable r.parentHash r.tokenIds) (hwritable : r.Writable poolSizeBytes) :
    ∃ more offsets m' desc, (c.offloadNode blake2b r).2 =
        { c with
          memoryManager := m'
          radixAdapter :=
            ⟨c.radixAdapter.nodes.set (blake2b (nodeBuffer r.parentHash r.tokenIds)) desc⟩ } ∧
      m'.Wrote (slots ++ more) ∧ m'.poolSizeBytes = poolSizeBytes ∧
      more.map List.length = r.layers.map slotSize ∧
      StoredAt poolSizeBytes (slots ++ more) slots.length offsets r.layers ∧
      desc.parentHash = r.parentHash ∧ desc.tokenIds = r.tokenIds ∧
      desc.nodeHash = blake2b (nodeBuffer r.parentHash r.tokenIds) ∧
      desc.numTokens = r.tokenIds.length ∧ desc.layerOffsets = offsets := by
  obtain ⟨hlen, hlayers⟩ := hwritable
  rw [← h.pool_eq] at hlayers
  have hk : r.layers.map Prod.fst = r.kTensors := List.map_fst_zip hlen.le
  have hv : r.layers.map Prod.snd = r.vTensors := List.map_snd_zip hlen.ge
  obtain ⟨more, offsets, m', hres, hw', hpool', hsizes, hstored⟩ :=
    offloadLayers_spec h.wrote hlayers (blake2b (nodeBuffer r.parentHash r.tokenIds)) r.nodeId 0
  obtain ⟨desc, hp, ht, hh, hn, ho, hregister⟩ :=
    registerNode_of_hashable blake2b hfits c.radixAdapter r.nodeId offsets
  rw [hk, hv] at hres
  rw [h.pool_eq] at hpool' hstored
  refine ⟨more, offsets, m', desc, ?_, hw', hpool', hsizes, hstored, hp, ht, hh, hn, ho⟩
  simp only [offloadNode, computeNodeHash, if_pos hfits, hres, hregister]

/-- The step lemma: a call keeps the link. -/
lemma Linked.step (h : Linked blake2b B poolSizeBytes c a slots) {r : OffloadArgs}
    (hB : Hashable r.parentHash r.tokenIds → nodeBuffer r.parentHash r.tokenIds ∈ B)
    (hwritable : r.Writable poolSizeBytes) :
    ∃ slots', Linked blake2b B poolSizeBytes (c.offloadNode blake2b r).2 (a.step r) slots' := by
  by_cases hfits : Hashable r.parentHash r.tokenIds
  · obtain ⟨more, offsets, m', desc, hstep, hw', hpool', hsizes, hstored, hp, ht, hh, hn, rfl⟩ :=
      offloadNode_spec h hfits hwritable
    rw [hstep, NodeArchive.step, if_pos hfits]
    have hstart : a.sizes.length = slots.length := by rw [← h.sizes_eq, List.length_map]
    rw [← hp, ← ht] at hfits hh ⊢
    have hmem := hB (by rwa [← hp, ← ht])
    rw [← hp, ← ht] at hmem
    refine ⟨slots ++ more, hpool', hw', ?_, ?_, ?_, ?_⟩
    · rw [List.map_append, h.sizes_eq, hsizes]
    · exact h.indexed.set hh (by rw [hn, ht]) hfits hmem
    · intro key desc' hdesc'
      by_cases hkey : key = blake2b (nodeBuffer desc.parentHash desc.tokenIds)
      · -- the node of this call
        rw [hkey, lookupNode, Dict.get_set_self] at hdesc'
        obtain rfl := Option.some.inj hdesc'
        refine ⟨⟨r, a.sizes.length⟩, ?_, by rwa [hstart]⟩
        simp [NodeArchive.latest, hp, ht]
      · -- another node, for which the latest call is the same as before
        rw [lookupNode, Dict.get_set_of_ne _ hkey] at hdesc'
        obtain ⟨node, hnode, hstored'⟩ := h.stored key desc' hdesc'
        obtain ⟨-, -, -, hdigest, -⟩ := h.indexed key desc' hdesc'
        refine ⟨node, ?_, hstored'.append more⟩
        rw [NodeArchive.latest, List.find?_cons_of_neg]
        · exact hnode
        · simp only [decide_eq_true_eq, not_and]
          intro hparent htokens
          exact hkey (by rw [hdigest, hp, ht, hparent, htokens])
    · intro node hnode
      by_cases hkey : blake2b (nodeBuffer node.call.parentHash node.call.tokenIds) =
          blake2b (nodeBuffer desc.parentHash desc.tokenIds)
      · exact ⟨desc, by rw [hkey, lookupNode, Dict.get_set_self]⟩
      · rcases List.mem_cons.mp hnode with rfl | hnode
        · exact absurd (by rw [hp, ht]) hkey
        · obtain ⟨desc', hdesc'⟩ := h.known node hnode
          exact ⟨desc', by rw [lookupNode, Dict.get_set_of_ne _ hkey]; exact hdesc'⟩
  · -- the call raises before it writes anything
    refine ⟨slots, ?_⟩
    rwa [offloadNode, computeNodeHash, if_neg hfits, NodeArchive.step, if_neg hfits]

/-- The connector after a run. -/
def run (blake2b : Bytes → UInt64) (rank localRank poolSizeMb : ℕ) (ops : List OffloadArgs) :
    KacheDBSGLangConnector :=
  ops.foldl (fun c r => (c.offloadNode blake2b r).2) (new rank localRank poolSizeMb)

/-- The run lemma: every run of calls that can be written keeps the link. -/
theorem linked_run (blake2b : Bytes → UInt64) {ops : List OffloadArgs} {poolSizeMb : ℕ}
    (hwritable : ∀ r ∈ ops, r.Writable (poolSizeMb * 1024 * 1024)) (rank localRank : ℕ) :
    ∃ slots, Linked blake2b (builtBuffers ops) (poolSizeMb * 1024 * 1024)
      (run blake2b rank localRank poolSizeMb ops) (NodeArchive.ofRun ops) slots := by
  -- the calls of a first part of the run
  have hpart (pre : List OffloadArgs) (hpre : pre ⊆ ops) :
      ∃ slots, Linked blake2b (builtBuffers ops) (poolSizeMb * 1024 * 1024)
        (run blake2b rank localRank poolSizeMb pre) (NodeArchive.ofRun pre) slots := by
    induction pre using List.reverseRecOn with
    | nil => exact ⟨[], linked_new _ _ _ _ _⟩
    | append_singleton pre r ih =>
      obtain ⟨slots, hlink⟩ := ih fun x hx => hpre (List.mem_append_left _ hx)
      have hr : r ∈ ops := hpre (List.mem_append_right _ (List.mem_singleton_self _))
      rw [run, NodeArchive.ofRun, List.foldl_concat, List.foldl_concat]
      exact hlink.step (fun hfits => ⟨r, hr, hfits, rfl⟩) (hwritable r hr)
  exact hpart ops (List.Subset.refl _)

/-- There are at most as many descriptors as calls. -/
lemma length_items_run_le (blake2b : Bytes → UInt64) (rank localRank poolSizeMb : ℕ)
    (ops : List OffloadArgs) :
    (run blake2b rank localRank poolSizeMb ops).radixAdapter.nodes.items.length ≤ ops.length := by
  -- one call
  have hstep (c : KacheDBSGLangConnector) (r : OffloadArgs) :
      (c.offloadNode blake2b r).2.radixAdapter.nodes.items.length ≤
        c.radixAdapter.nodes.items.length + 1 := by
    cases hhash : computeNodeHash blake2b r.tokenIds r.parentHash with
    | error e => simp [offloadNode, hhash]
    | ok nodeHash =>
      rcases hlayers : offloadLayers nodeHash r.nodeId 0 r.kTensors r.vTensors c.memoryManager with
        ⟨e | offsets, m⟩
      · simp [offloadNode, hhash, hlayers]
      · simp only [offloadNode, hhash, hlayers, registerNode]
        exact Dict.length_setItems_le _ _ _
  induction ops using List.reverseRecOn with
  | nil => exact Nat.zero_le _
  | append_singleton ops r ih =>
    rw [run, List.foldl_concat, ← run, List.length_append, List.length_singleton]
    exact (hstep _ r).trans (Nat.succ_le_succ ih)

end KacheDBSGLangConnector

end KacheDB
