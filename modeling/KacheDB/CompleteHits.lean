import KacheDB.Sglang.Copies
import KacheDB.Sglang.Hits
import KacheDB.Vllm.Copies
import KacheDB.Vllm.Hits

/-!
# Complete hits

Whether a restore that reports a hit has written every layer of its targets.  A node or a block may
have been offloaded with fewer layers than the targets have; the layers for which it has no offset
are passed over, and the hit is reported all the same.  `hit_complete_iff` says for both connectors
when a hit is complete, and what the targets hold then and otherwise.
-/

namespace KacheDB

open Foundation KacheDBRadixAdapter

namespace KacheDBSGLangConnector

variable {casts : Casts} {c : KacheDBSGLangConnector} {blake2b : Bytes → UInt64}

/-- The copies of a restore. -/
def restorePrefixCopies (casts : Casts) (fuel : ℕ) (c : KacheDBSGLangConnector)
    (promptTokens : List ℤ) (targetKs targetVs : List Tensor) : List Copy :=
  ((c.restorePrefixTraced casts fuel promptTokens targetKs targetVs).map Prod.snd).getD []

/-- Every layer of both sides has been written at the positions below `m`, and at no others. -/
def WritesExactly (copies : List Copy) (layersK layersV m : ℕ) : Prop :=
  (∀ l < layersK, ∀ p, Written copies .keys l p ↔ p < m) ∧
    ∀ l < layersV, ∀ p, Written copies .values l p ↔ p < m

/-! ## The layers of a node -/

/-- A node that has been offloaded has an offset for each layer of its keys. -/
lemma length_offloadLayers {nodeHash : UInt64} {nodeId : ℤ} {lIdx : ℕ} {ks vs : List Tensor}
    {m m' : KacheDBMemoryManager} {offsets : List ℕ}
    (h : offloadLayers nodeHash nodeId lIdx ks vs m = (.ok offsets, m')) :
    offsets.length = ks.length := by
  induction ks generalizing lIdx vs m m' offsets with
  | nil =>
    obtain ⟨hok, -⟩ := Prod.mk.inj h
    rw [← Except.ok.inj hok]
    rfl
  | cons k ks ih =>
    rcases vs with _ | ⟨v, vs⟩
    · simp [offloadLayers] at h
    · rw [offloadLayers] at h
      rcases hwrite : m.writePagedBlock k v lIdx nodeHash nodeId.toNat with ⟨e | block, m₁⟩
      · simp [hwrite] at h
      · rcases hrest : offloadLayers nodeHash nodeId (lIdx + 1) ks vs m₁ with ⟨e | rest, m₂⟩
        · simp [hwrite, hrest] at h
        · simp only [hwrite, hrest, Prod.mk.injEq, Except.ok.injEq] at h
          rw [← h.1, List.length_cons, List.length_cons, ih hrest]

/-- **The layers of a descriptor** are those of a call for its node. -/
theorem exists_call_of_lookupNode {rank localRank poolSizeMb : ℕ} {ops : List OffloadArgs}
    {key : UInt64} {desc : RadixNodeDescriptor}
    (h : (run blake2b rank localRank poolSizeMb ops).radixAdapter.lookupNode key = some desc) :
    ∃ r ∈ ops, r.parentHash = desc.parentHash ∧ r.tokenIds = desc.tokenIds ∧
      desc.layerOffsets.length = r.kTensors.length := by
  induction ops using List.reverseRecOn with
  | nil => cases h
  | append_singleton ops r ih =>
    rw [run, List.foldl_concat, ← run] at h
    -- what was there before the call
    have hold (hbefore : (run blake2b rank localRank poolSizeMb ops).radixAdapter.lookupNode key =
        some desc) : ∃ r' ∈ ops ++ [r], r'.parentHash = desc.parentHash ∧
          r'.tokenIds = desc.tokenIds ∧ desc.layerOffsets.length = r'.kTensors.length := by
      obtain ⟨r', hr', hcall⟩ := ih hbefore
      exact ⟨r', List.mem_append_left _ hr', hcall⟩
    generalize run blake2b rank localRank poolSizeMb ops = c at *
    unfold offloadNode at h
    cases hhash : computeNodeHash blake2b r.tokenIds r.parentHash with
    | error e =>
      rw [hhash] at h
      exact hold h
    | ok nodeHash =>
      rcases hlayers : offloadLayers nodeHash r.nodeId 0 r.kTensors r.vTensors c.memoryManager with
        ⟨e | offsets, m⟩
      · simp only [hhash, hlayers] at h
        exact hold h
      · simp only [hhash, hlayers, registerNode] at h
        by_cases hkey : key = nodeHash
        · rw [hkey, lookupNode, Dict.get_set_self] at h
          obtain rfl := Option.some.inj h
          exact ⟨r, List.mem_append_right _ (List.mem_singleton_self _), rfl, rfl,
            length_offloadLayers hlayers⟩
        · rw [lookupNode, Dict.get_set_of_ne _ hkey] at h
          exact hold h

/-! ## Complete restores -/

/-- The node at the position that a position of the matched nodes belongs to. -/
lemma cover_isSome_iff {nodes : List RadixNodeDescriptor} {p : ℕ} :
    (∃ desc q, cover nodes p = some (desc, q)) ↔ p < total nodes := by
  induction nodes generalizing p with
  | nil => simp [cover, total]
  | cons first nodes ih =>
    rw [cover, total, List.map_cons, List.sum_cons, ← total]
    split_ifs with hfirst
    · exact iff_of_true ⟨first, p, rfl⟩ (by omega)
    · rw [ih]
      omega

/-- A position belongs to a node that has tokens. -/
lemma mem_of_cover {nodes : List RadixNodeDescriptor} {p q : ℕ} {desc : RadixNodeDescriptor}
    (h : cover nodes p = some (desc, q)) : desc ∈ nodes ∧ desc.numTokens ≠ 0 := by
  induction nodes generalizing p with
  | nil => cases h
  | cons first nodes ih =>
    rw [cover] at h
    split_ifs at h with hfirst
    · obtain ⟨rfl, rfl⟩ := Prod.mk.inj (Option.some.inj h)
      exact ⟨List.mem_cons_self, by omega⟩
    · exact ⟨List.mem_cons_of_mem _ (ih h).1, (ih h).2⟩

/-- A node that has tokens has a position. -/
lemma exists_cover {nodes : List RadixNodeDescriptor} {desc : RadixNodeDescriptor}
    (h : desc ∈ nodes) (hpos : desc.numTokens ≠ 0) : ∃ p, cover nodes p = some (desc, 0) := by
  induction nodes with
  | nil => cases h
  | cons first nodes ih =>
    rcases List.mem_cons.mp h with rfl | h
    · exact ⟨0, if_pos (Nat.pos_of_ne_zero hpos)⟩
    · obtain ⟨p, hp⟩ := ih h
      refine ⟨first.numTokens + p, ?_⟩
      rw [cover, if_neg (by omega), Nat.add_sub_cancel_left, hp]

/-- A hit has restored the matched nodes, with these copies. -/
lemma restorePrefixCopies_eq {fuel m : ℕ} {promptTokens : List ℤ} {tks tvs tks' tvs' : List Tensor}
    (h : c.restorePrefix casts fuel promptTokens tks tvs = some (.ok (m, true), tks', tvs')) :
    ∃ nodes, c.radixAdapter.findMatchingNodes fuel promptTokens none = some (m, nodes) ∧ m ≠ 0 ∧
      restoreNodesTraced casts c.memoryManager 0 nodes tks tvs =
        ((.ok (), tks', tvs'), c.restorePrefixCopies casts fuel promptTokens tks tvs) := by
  obtain ⟨nodes, hfind, hm, hnodes⟩ := restorePrefix_eq_hit h
  refine ⟨nodes, hfind, hm, ?_⟩
  rw [← restoreNodesTraced_fst] at hnodes
  rcases htraced : restoreNodesTraced casts c.memoryManager 0 nodes tks tvs with ⟨res, copies⟩
  rw [htraced] at hnodes
  obtain rfl := hnodes
  have hmiss : ¬ (m = 0 ∨ nodes.isEmpty = true) := by
    rintro (rfl | hempty)
    · exact hm rfl
    · obtain rfl := List.isEmpty_iff.mp hempty
      exact hm (matchFrom_spec hfind).1
  rw [restorePrefixCopies, restorePrefixTraced]
  simp only [hfind, if_neg hmiss, htraced]
  rfl

/-- A written position is in its target. -/
lemma size_of_written {nodes : List RadixNodeDescriptor} {tks tvs tks' tvs' : List Tensor}
    {copies : List Copy}
    (hnodes : restoreNodesTraced casts c.memoryManager 0 nodes tks tvs =
      ((.ok (), tks', tvs'), copies))
    {side : Side} {l p : ℕ} {t : Tensor} (ht : (side.pick tks tvs)[l]? = some t)
    (hwritten : Written copies side l p) : p < t.shape.getD 1 0 := by
  obtain ⟨-, ⟨s, hs, hsize⟩, -⟩ := (restoreNodesTraced_ok hnodes side l p).mp hwritten
  rw [Side.getElem?_pick_map, ht] at hs
  obtain rfl := Option.some.inj hs
  exact hsize

/-- In a target with room, where the nodes have an offset for this layer, the positions of the
nodes are written. -/
lemma written_iff_of_room {nodes : List RadixNodeDescriptor} {tks tvs tks' tvs' : List Tensor}
    {copies : List Copy}
    (hnodes : restoreNodesTraced casts c.memoryManager 0 nodes tks tvs =
      ((.ok (), tks', tvs'), copies))
    {side : Side} {l : ℕ} {t : Tensor} (ht : (side.pick tks tvs)[l]? = some t)
    (hl : l < tks.length) (hroom : total nodes ≤ t.shape.getD 1 0)
    (hlayers : ∀ desc ∈ nodes, desc.numTokens ≠ 0 → l < desc.layerOffsets.length) (p : ℕ) :
    Written copies side l p ↔ p < total nodes := by
  rw [restoreNodesTraced_ok hnodes, ← cover_isSome_iff, Nat.sub_zero]
  constructor
  · rintro ⟨-, -, -, desc, q, hcover, -⟩
    exact ⟨desc, q, hcover⟩
  · rintro ⟨desc, q, hcover⟩
    have hlt : p < total nodes := cover_isSome_iff.mp ⟨desc, q, hcover⟩
    obtain ⟨hdesc, hpos⟩ := mem_of_cover hcover
    refine ⟨hl, ⟨t.shape, ?_, hlt.trans_le hroom⟩, p.zero_le, desc, q, hcover,
      hlayers desc hdesc hpos⟩
    rw [Side.getElem?_pick_map, ht, Option.map_some]

/-- If all positions of the nodes have been written everywhere, the targets have room for them, and
every node that has tokens has an offset for every layer. -/
lemma room_of_writesExactly {nodes : List RadixNodeDescriptor} {tks tvs tks' tvs' : List Tensor}
    {copies : List Copy}
    (hnodes : restoreNodesTraced casts c.memoryManager 0 nodes tks tvs =
      ((.ok (), tks', tvs'), copies))
    (hpos : total nodes ≠ 0) (h : WritesExactly copies tks.length tvs.length (total nodes)) :
    tvs.length ≤ tks.length ∧ (∀ t ∈ tks ++ tvs, total nodes ≤ t.shape.getD 1 0) ∧
      ∀ desc ∈ nodes, desc.numTokens ≠ 0 → tks.length ≤ desc.layerOffsets.length := by
  obtain ⟨hkeys, hvalues⟩ := h
  have hwritten := restoreNodesTraced_ok hnodes
  refine ⟨?_, ?_, ?_⟩
  · by_contra hlt
    have hfirst := (hvalues tks.length (by omega) 0).mpr (by omega)
    exact absurd ((hwritten _ _ _).mp hfirst).1 (lt_irrefl _)
  · -- the last position is there
    intro t ht
    rcases List.mem_append.mp ht with ht | ht
    · obtain ⟨l, hl⟩ := List.getElem?_of_mem ht
      have hlast := (hkeys l (List.getElem?_eq_some_iff.mp hl).1 (total nodes - 1)).mpr (by omega)
      have hsize := size_of_written hnodes hl hlast
      omega
    · obtain ⟨l, hl⟩ := List.getElem?_of_mem ht
      have hlast := (hvalues l (List.getElem?_eq_some_iff.mp hl).1 (total nodes - 1)).mpr (by omega)
      have hsize := size_of_written hnodes hl hlast
      omega
  · intro desc hdesc htokens
    obtain ⟨p, hp⟩ := exists_cover hdesc htokens
    have hlt : p < total nodes := cover_isSome_iff.mp ⟨desc, 0, hp⟩
    by_contra hshort
    obtain ⟨-, -, -, desc', q, hcover, hoffset⟩ :=
      (hwritten _ _ _).mp ((hkeys desc.layerOffsets.length (by omega) p).mpr hlt)
    rw [Nat.sub_zero, hp] at hcover
    obtain ⟨rfl, -⟩ := Prod.mk.inj (Option.some.inj hcover)
    exact lt_irrefl _ hoffset

/-- If the targets have room for the nodes, and every node that has tokens has an offset for every
layer, then all positions of the nodes are written everywhere. -/
lemma writesExactly_of_room {nodes : List RadixNodeDescriptor} {tks tvs tks' tvs' : List Tensor}
    {copies : List Copy}
    (hnodes : restoreNodesTraced casts c.memoryManager 0 nodes tks tvs =
      ((.ok (), tks', tvs'), copies))
    (hlen : tvs.length ≤ tks.length) (hroom : ∀ t ∈ tks ++ tvs, total nodes ≤ t.shape.getD 1 0)
    (hlayers : ∀ desc ∈ nodes, desc.numTokens ≠ 0 → tks.length ≤ desc.layerOffsets.length) :
    WritesExactly copies tks.length tvs.length (total nodes) := by
  have hoffsets {l : ℕ} (hl : l < tks.length) (desc : RadixNodeDescriptor) (hdesc : desc ∈ nodes)
      (hpos : desc.numTokens ≠ 0) : l < desc.layerOffsets.length :=
    hl.trans_le (hlayers desc hdesc hpos)
  constructor
  · intro l hl
    have hget : (Side.keys.pick tks tvs)[l]? = some tks[l] := List.getElem?_eq_getElem hl
    exact written_iff_of_room hnodes hget hl
      (hroom _ (List.mem_append_left _ (List.getElem_mem hl))) (hoffsets hl)
  · intro l hl
    have hl' : l < tks.length := hl.trans_le hlen
    have hget : (Side.values.pick tks tvs)[l]? = some tvs[l] := List.getElem?_eq_getElem hl
    exact written_iff_of_room hnodes hget hl'
      (hroom _ (List.mem_append_right _ (List.getElem_mem hl))) (hoffsets hl')

/-- A hit is complete exactly if the targets have room for it, and every matched node that has
tokens has an offset for every layer. -/
lemma writesExactly_iff {fuel m : ℕ} {promptTokens : List ℤ} {tks tvs tks' tvs' : List Tensor}
    (h : c.restorePrefix casts fuel promptTokens tks tvs = some (.ok (m, true), tks', tvs')) :
    ∃ nodes, c.radixAdapter.findMatchingNodes fuel promptTokens none = some (m, nodes) ∧
      CopiesTell casts c.memoryManager nodes
        (c.restorePrefixCopies casts fuel promptTokens tks tvs) tks tvs tks' tvs' ∧
      (WritesExactly (c.restorePrefixCopies casts fuel promptTokens tks tvs) tks.length tvs.length
          m ↔
        tvs.length ≤ tks.length ∧ (∀ t ∈ tks ++ tvs, m ≤ t.shape.getD 1 0) ∧
          ∀ desc ∈ nodes, desc.numTokens ≠ 0 → tks.length ≤ desc.layerOffsets.length) := by
  obtain ⟨nodes, hfind, hm, hnodes⟩ := restorePrefixCopies_eq h
  obtain rfl : m = total nodes := (matchFrom_spec hfind).1
  exact ⟨nodes, hfind, restoreNodesTraced_tells hnodes, room_of_writesExactly hnodes hm,
    fun ⟨hlen, hroom, hlayers⟩ => writesExactly_of_room hnodes hlen hroom hlayers⟩

end KacheDBSGLangConnector

namespace KacheDBConnector

/-- The copies of a restore. -/
def recvCopies (blake2b : Bytes → UInt64) (casts : Casts) (c : KacheDBConnector)
    (modelInput : ModelInput) (kvCaches : List KVLayer) : List BlockCopy :=
  (c.recvTraced blake2b casts modelInput kvCaches).2

/-- Both halves of so many blocks have been written in every layer. -/
def WritesAll (copies : List BlockCopy) (layers blocks : ℕ) : Prop :=
  ∀ b < blocks, ∀ l < layers, ∀ half < 2, (⟨b, l, half⟩ : BlockCopy) ∈ copies

/-- A hit is complete exactly if every matched entry has an offset for every layer. -/
lemma writesAll_iff {blake2b : Bytes → UInt64} {casts : Casts} {c : KacheDBConnector}
    {modelInput : ModelInput} {kvCaches kvCaches' : List KVLayer}
    (h : c.recvKvCachesAndHiddenStates blake2b casts modelInput kvCaches = (.ok true, kvCaches')) :
    ∃ found, c.prefixCache.findLongestPrefix blake2b modelInput.promptTokens = .ok found ∧
      BlockCopiesTell casts c.memoryManager found.2 (c.recvCopies blake2b casts modelInput kvCaches)
        kvCaches kvCaches' ∧
      (WritesAll (c.recvCopies blake2b casts modelInput kvCaches) kvCaches.length found.2.length ↔
        ∀ entry ∈ found.2, kvCaches.length ≤ (entry.metadata.layerOffsets.getD []).length) := by
  obtain ⟨found, hfind, hne, hblocks⟩ := recv_eq_hit h
  refine ⟨found, hfind, ?_⟩
  rw [← restoreBlocksTraced_fst] at hblocks
  rcases htraced : restoreBlocksTraced casts c.memoryManager 0 found.2 kvCaches with ⟨res, copies⟩
  rw [htraced] at hblocks
  obtain rfl := hblocks
  have hprompt : modelInput.promptTokens ≠ [] := by
    intro hnil
    rw [recvKvCachesAndHiddenStates, if_pos hnil] at h
    simp at h
  have hcopies : c.recvCopies blake2b casts modelInput kvCaches = copies := by
    rw [recvCopies, recvTraced, if_neg hprompt, hfind]
    simp only [if_neg hne, htraced]
  have hmem := mem_restoreBlocksTraced htraced
  rw [hcopies]
  refine ⟨restoreBlocksTraced_tells htraced, ?_⟩
  constructor
  · intro hall entry hentry
    obtain ⟨j, hj⟩ := List.getElem?_of_mem hentry
    by_contra hshort
    obtain ⟨-, -, j', entry', hblock, hj', hoffset⟩ := (hmem _ _ _).mp
      (hall j (List.getElem?_eq_some_iff.mp hj).1 _ (not_le.mp hshort) 0 Nat.two_pos)
    obtain rfl : j = j' := by omega
    obtain rfl := Option.some.inj (hj.symm.trans hj')
    exact lt_irrefl _ hoffset
  · intro hall b hb l hl half hhalf
    refine (hmem b l half).mpr ⟨hhalf, hl, b, found.2[b], (zero_add b).symm,
      List.getElem?_eq_getElem hb, ?_⟩
    exact hl.trans_le (hall _ (List.getElem_mem hb))

end KacheDBConnector

open KacheDBSGLangConnector KacheDBConnector

/-- **When a reported hit is complete.**  After any run of a connector, whatever has been offloaded
with whatever numbers of layers, a hit of the SGLang connector has written every layer of its
targets at the matched positions, and at no others, exactly if there is a target for the keys of
each layer, the targets have the matched positions, and every matched node that has tokens was
offloaded with as many layers; and a hit of the vLLM connector has written every layer of the
caches in every matched block exactly if every matched block was offloaded with as many layers.
What is written holds what the pool has for the matched node or block, and everything else is as it
was. -/
theorem hit_complete_iff (blake2b : Bytes → UInt64) (casts : Casts)
    (rank localRank poolSizeMb : ℕ) :
    (∀ (ops : List OffloadArgs) (fuel : ℕ) (promptTokens : List ℤ)
        (tks tvs tks' tvs' : List Tensor) (m : ℕ),
      (run blake2b rank localRank poolSizeMb ops).restorePrefix casts fuel promptTokens tks tvs =
          some (.ok (m, true), tks', tvs') →
        ∃ nodes, (run blake2b rank localRank poolSizeMb ops).radixAdapter.findMatchingNodes fuel
            promptTokens none = some (m, nodes) ∧
          CopiesTell casts (run blake2b rank localRank poolSizeMb ops).memoryManager nodes
            ((run blake2b rank localRank poolSizeMb ops).restorePrefixCopies casts fuel promptTokens
              tks tvs) tks tvs tks' tvs' ∧
          (WritesExactly ((run blake2b rank localRank poolSizeMb ops).restorePrefixCopies casts fuel
              promptTokens tks tvs) tks.length tvs.length m ↔
            tvs.length ≤ tks.length ∧ (∀ t ∈ tks ++ tvs, m ≤ t.shape.getD 1 0) ∧
              ∀ desc ∈ nodes, desc.numTokens ≠ 0 → tks.length ≤ desc.layerOffsets.length)) ∧
      ∀ (blockSize : ℕ) (ops : List ConnectorOp) (modelInput : ModelInput)
        (kvCaches kvCaches' : List KVLayer),
      (runConnector blake2b rank localRank blockSize poolSizeMb ops).recvKvCachesAndHiddenStates
          blake2b casts modelInput kvCaches = (.ok true, kvCaches') →
        ∃ found, (runConnector blake2b rank localRank blockSize poolSizeMb
            ops).prefixCache.findLongestPrefix blake2b modelInput.promptTokens = .ok found ∧
          BlockCopiesTell casts
            (runConnector blake2b rank localRank blockSize poolSizeMb ops).memoryManager found.2
            ((runConnector blake2b rank localRank blockSize poolSizeMb ops).recvCopies blake2b casts
              modelInput kvCaches) kvCaches kvCaches' ∧
          (WritesAll ((runConnector blake2b rank localRank blockSize poolSizeMb ops).recvCopies
              blake2b casts modelInput kvCaches) kvCaches.length found.2.length ↔
            ∀ entry ∈ found.2, kvCaches.length ≤ (entry.metadata.layerOffsets.getD []).length) :=
  ⟨fun _ _ _ _ _ _ _ _ hhit => writesExactly_iff hhit, fun _ _ _ _ _ hhit => writesAll_iff hhit⟩

/-- Two nodes of two layers, and the blocks of two prompts with two layers. -/
theorem hit_complete_iff_two :
    (∃ m tks' tvs', (run twoNodesDigest 0 0 1 twoNodes).restorePrefix .zeros 3 [1, 2, 3, 4]
          (twoTargets 0) (twoTargets 2) = some (.ok (m, true), tks', tvs') ∧
        ∃ nodes, (run twoNodesDigest 0 0 1 twoNodes).radixAdapter.findMatchingNodes 3 [1, 2, 3, 4]
            none = some (m, nodes) ∧
          CopiesTell .zeros (run twoNodesDigest 0 0 1 twoNodes).memoryManager nodes
            ((run twoNodesDigest 0 0 1 twoNodes).restorePrefixCopies .zeros 3 [1, 2, 3, 4]
              (twoTargets 0) (twoTargets 2)) (twoTargets 0) (twoTargets 2) tks' tvs' ∧
          (WritesExactly ((run twoNodesDigest 0 0 1 twoNodes).restorePrefixCopies .zeros 3
              [1, 2, 3, 4] (twoTargets 0) (twoTargets 2)) (twoTargets 0).length
              (twoTargets 2).length m ↔
            (twoTargets 2).length ≤ (twoTargets 0).length ∧
              (∀ t ∈ twoTargets 0 ++ twoTargets 2, m ≤ t.shape.getD 1 0) ∧
              ∀ desc ∈ nodes, desc.numTokens ≠ 0 →
                (twoTargets 0).length ≤ desc.layerOffsets.length)) ∧
      ∃ kvCaches', (runConnector sharedDigest 0 0 2 1
          sharedRun).recvKvCachesAndHiddenStates sharedDigest .zeros sharedInput
            (threeBlockCaches 0) = (.ok true, kvCaches') ∧
        ∃ found, (runConnector sharedDigest 0 0 2 1
            sharedRun).prefixCache.findLongestPrefix sharedDigest sharedInput.promptTokens =
              .ok found ∧
          BlockCopiesTell .zeros (runConnector sharedDigest 0 0 2 1 sharedRun).memoryManager found.2
            ((runConnector sharedDigest 0 0 2 1 sharedRun).recvCopies sharedDigest .zeros
              sharedInput (threeBlockCaches 0)) (threeBlockCaches 0) kvCaches' ∧
          (WritesAll ((runConnector sharedDigest 0 0 2 1 sharedRun).recvCopies sharedDigest .zeros
              sharedInput (threeBlockCaches 0)) (threeBlockCaches 0).length found.2.length ↔
            ∀ entry ∈ found.2, (threeBlockCaches 0).length ≤
              (entry.metadata.layerOffsets.getD []).length) := by
  constructor
  · obtain ⟨m, tks', tvs', -, hhit⟩ := exists_hit_twoNodes
    exact ⟨m, tks', tvs', hhit, (hit_complete_iff twoNodesDigest .zeros 0 0 1).1 twoNodes 3
      [1, 2, 3, 4] _ _ _ _ m hhit⟩
  · obtain ⟨kvCaches', hhit⟩ := recv_hit_shared
    exact ⟨kvCaches', hhit, (hit_complete_iff sharedDigest .zeros 0 0 1).2 2 sharedRun sharedInput
      (threeBlockCaches 0) kvCaches' hhit⟩

/-! ## A node of one layer -/

/-- A node that was offloaded with one layer is restored into targets of so many layers. -/
lemma exists_hit_offloadOne (layers : ℕ) : ∃ m tks' tvs', 0 < m ∧
    (run oneNodeDigest 0 0 1 [offloadOne 1 1 0]).restorePrefix .zeros 2 [1]
      (List.replicate layers (onePosition 1 1)) (List.replicate layers (onePosition 1 1)) =
        some (.ok (m, true), tks', tvs') := by
  have hops : ∀ r ∈ [offloadOne 1 1 0], r.Uniform .float16 1 1 1 ∧
      r.Fits .float16 1 1 (1 * 1024 * 1024) :=
    List.forall_mem_singleton.mpr ⟨uniform_offloadOne 1 0, by
      norm_num [OffloadArgs.Fits, offloadOne, TensorBlockDescriptor.sizeof, DType.itemSize]⟩
  have htargets : AreTargets .float16 layers 1 1 1 (List.replicate layers (onePosition 1 1)) :=
    ⟨List.length_replicate, fun t ht => ⟨1, le_rfl, List.eq_of_mem_replicate ht ▸
      isSlice_onePosition 1⟩⟩
  obtain ⟨m, tks', tvs', hm, -, hhit⟩ := restorePrefix_hit .zeros 0 0 Nat.one_pos rfl
    hops (List.forall_mem_singleton.mpr (List.cons_ne_nil _ _))
    (hashesApart_oneNodeDigest (List.forall_mem_singleton.mpr ⟨rfl, .inl rfl⟩))
    (Nat.lt_succ_self 1) (List.mem_singleton_self _) rfl (by decide) (List.prefix_refl [1])
    htargets htargets
  exact ⟨m, tks', tvs', hm, hhit⟩

/-- A hit is reported for targets of two layers, of which only the first one has been written. -/
theorem hit_not_complete :
    ∃ m tks' tvs', (run oneNodeDigest 0 0 1 [offloadOne 1 1 0]).restorePrefix .zeros 2 [1]
        (List.replicate 2 (onePosition 1 1)) (List.replicate 2 (onePosition 1 1)) =
          some (.ok (m, true), tks', tvs') ∧
      ¬ WritesExactly ((run oneNodeDigest 0 0 1 [offloadOne 1 1 0]).restorePrefixCopies .zeros 2
          [1] (List.replicate 2 (onePosition 1 1)) (List.replicate 2 (onePosition 1 1))) 2 2 m := by
  obtain ⟨m, tks', tvs', hm, hhit⟩ := exists_hit_offloadOne 2
  refine ⟨m, tks', tvs', hhit, fun hcomplete => ?_⟩
  obtain ⟨nodes, hfind, -, hiff⟩ := writesExactly_iff hhit
  obtain ⟨-, -, hlayers⟩ := hiff.mp hcomplete
  obtain ⟨hsum, hregistered⟩ := matchFrom_spec hfind
  obtain ⟨desc, q, hcover⟩ := cover_isSome_iff.mpr (hm.trans_eq hsum)
  obtain ⟨hdesc, hpos⟩ := mem_of_cover hcover
  obtain ⟨key, hkey⟩ := hregistered desc hdesc
  obtain ⟨r, hr, -, -, hlen⟩ := exists_call_of_lookupNode hkey
  obtain rfl := List.mem_singleton.mp hr
  have htwo := hlayers desc hdesc hpos
  rw [hlen, List.length_replicate] at htwo
  exact absurd htwo (by decide)

end KacheDB
