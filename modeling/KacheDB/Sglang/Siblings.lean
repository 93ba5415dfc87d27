import KacheDB.Sglang.Matching

/-!
# Chains of registered nodes

`RegisteredChain` says which nodes can be matched one after the other: nodes that have been
registered, each of them below the one in front of it.  It knows nothing of the dictionary or of
the order of the registrations, and a longest chain that begins the prompt is what the search is
meant to find.

The search never goes back on a choice.  Every chain that begins the prompt is what it takes in
some order of the same registrations (`exists_order`), so that it finds a longest one in every
order exactly if it makes no difference which of several children is taken:
`findMatchingNodes_longest_iff`.  In a radix tree there is only one to take.  When a limit is kept
in every order is said in the same way (`keepsLimit_iff_registered`).
-/

namespace KacheDB

open Foundation

namespace KacheDBRadixAdapter

/-- Registered nodes, each of them below the one in front of it, and the first one below the node
of this hash. -/
def RegisteredChain (blake2b : Bytes → UInt64) (ops : List RegisterArgs) :
    UInt64 → List RegisterArgs → Prop
  | _, [] => True
  | parent, r :: chain => r ∈ ops ∧ r.parentHash = parent.toNat ∧ ∃ nodeHash,
      computeNodeHash blake2b r.tokenIds r.parentHash = .ok nodeHash ∧
        RegisteredChain blake2b ops nodeHash chain

/-- The tokens of some nodes, one after the other. -/
def chainTokens (chain : List RegisterArgs) : List ℤ :=
  (chain.map RegisterArgs.tokenIds).flatten

/-- The chains of registered nodes from the root whose tokens begin the prompt. -/
def RegisteredMatch (blake2b : Bytes → UInt64) (ops : List RegisterArgs) (promptTokens : List ℤ)
    (chain : List RegisterArgs) : Prop :=
  RegisteredChain blake2b ops 0 chain ∧ chainTokens chain <+: promptTokens

/-- The search ends with as many tokens as a longest matching chain of registered nodes has. -/
def FindsLongest (blake2b : Bytes → UInt64) (ops : List RegisterArgs) (promptTokens : List ℤ) :
    Prop :=
  ∀ fuel, ops.length < fuel → ∃ m nodes,
    (registerAll blake2b ops).findMatchingNodes fuel promptTokens none = some (m, nodes) ∧
      IsGreatest {n | ∃ chain, RegisteredMatch blake2b ops promptTokens chain ∧
        (chainTokens chain).length = n} m

/-- Of two children of a node that go on with the prompt, one leads as far in it as the other. -/
def SiblingsAlikeIn (blake2b : Bytes → UInt64) (ops : List RegisterArgs)
    (promptTokens : List ℤ) : Prop :=
  ∀ (path : List RegisterArgs) (first second : RegisterArgs) (rest : List RegisterArgs),
    RegisteredMatch blake2b ops promptTokens (path ++ [first]) →
    RegisteredMatch blake2b ops promptTokens (path ++ second :: rest) →
    ∃ rest', RegisteredMatch blake2b ops promptTokens (path ++ first :: rest') ∧
      (chainTokens (path ++ second :: rest)).length ≤ (chainTokens (path ++ first :: rest')).length

/-- Of two children of a node, whatever is spelled through one of them and begins with the tokens
of the other is spelled through the other too. -/
def SiblingsAlike (blake2b : Bytes → UInt64) (ops : List RegisterArgs) : Prop :=
  ∀ (path : List RegisterArgs) (first second : RegisterArgs) (rest : List RegisterArgs),
    RegisteredChain blake2b ops 0 (path ++ [first]) →
    RegisteredChain blake2b ops 0 (path ++ second :: rest) →
    first.tokenIds <+: chainTokens (second :: rest) →
    ∃ rest', RegisteredChain blake2b ops 0 (path ++ first :: rest') ∧
      chainTokens (first :: rest') = chainTokens (second :: rest)

/-- No node is empty, and no two children of a node begin with the same token. -/
def IsRadixTree (ops : List RegisterArgs) : Prop :=
  ∀ r ∈ ops, ∀ r' ∈ ops, r.tokenIds ≠ [] ∧ (r.parentHash = r'.parentHash →
    r.tokenIds.head? = r'.tokenIds.head? → r.tokenIds = r'.tokenIds)

variable {blake2b : Bytes → UInt64} {ops ops' : List RegisterArgs} {promptTokens : List ℤ}

/-! ## Chains -/

@[simp] lemma chainTokens_append (chain chain' : List RegisterArgs) :
    chainTokens (chain ++ chain') = chainTokens chain ++ chainTokens chain' := by
  simp [chainTokens]

@[simp] lemma chainTokens_cons (r : RegisterArgs) (chain : List RegisterArgs) :
    chainTokens (r :: chain) = r.tokenIds ++ chainTokens chain := by
  simp [chainTokens]

@[simp] lemma chainTokens_nil : chainTokens [] = [] := rfl

/-- The tokens do not say by which registrations they are. -/
lemma chainTokens_congr {chain chain' : List RegisterArgs}
    (h : chain.map RegisterArgs.tokenIds = chain'.map RegisterArgs.tokenIds) :
    chainTokens chain = chainTokens chain' :=
  congrArg List.flatten h

/-- One node in front of a chain. -/
lemma registeredChain_cons {parent : UInt64} {r : RegisterArgs} {chain : List RegisterArgs} :
    RegisteredChain blake2b ops parent (r :: chain) ↔
      (r ∈ ops ∧ r.parentHash = parent.toNat ∧ Packable r.tokenIds) ∧
        RegisteredChain blake2b ops (blake2b (nodeBuffer parent.toNat r.tokenIds)) chain := by
  rw [RegisteredChain]
  constructor
  · rintro ⟨hr, hparent, nodeHash, hhash, hrest⟩
    obtain ⟨hfits, rfl⟩ := computeNodeHash_eq_ok.mp hhash
    rw [hparent] at hrest
    exact ⟨⟨hr, hparent, hfits.2⟩, hrest⟩
  · rintro ⟨⟨hr, hparent, hpack⟩, hrest⟩
    refine ⟨hr, hparent, _, computeNodeHash_eq_ok.mpr ⟨?_, rfl⟩, ?_⟩
    · rw [hparent]
      exact hashable_toNat parent hpack
    · rw [hparent]
      exact hrest

/-- A first and a second part of a chain. -/
lemma registeredChain_append {parent : UInt64} {chain chain' : List RegisterArgs} :
    RegisteredChain blake2b ops parent (chain ++ chain') ↔
      RegisteredChain blake2b ops parent chain ∧
        RegisteredChain blake2b ops (HashChain.tip blake2b
          (fun h tokens => nodeBuffer h.toNat tokens) parent
          (chain.map RegisterArgs.tokenIds)) chain' := by
  induction chain generalizing parent with
  | nil => exact ⟨fun h => ⟨trivial, h⟩, And.right⟩
  | cons r chain ih =>
    rw [List.cons_append, registeredChain_cons, ih, registeredChain_cons]
    exact and_assoc.symm

/-- One node more at the end of a chain from the root. -/
lemma registeredChain_concat {chain : List RegisterArgs} {r : RegisterArgs} :
    RegisteredChain blake2b ops 0 (chain ++ [r]) ↔ RegisteredChain blake2b ops 0 chain ∧
      r ∈ ops ∧ r.parentHash = (pathHash blake2b (chain.map RegisterArgs.tokenIds)).toNat ∧
        Packable r.tokenIds := by
  rw [registeredChain_append, registeredChain_cons]
  exact and_congr_right fun _ => and_iff_left trivial

/-- The tokens of a chain fit, and the buffers along it have been hashed. -/
lemma RegisteredChain.buffers {chain : List RegisterArgs}
    (h : RegisteredChain blake2b ops 0 chain) :
    (∀ tokens ∈ chain.map RegisterArgs.tokenIds, Packable tokens) ∧
      ∀ b ∈ pathBuffers blake2b (chain.map RegisterArgs.tokenIds), b ∈ registeredBuffers ops := by
  induction chain using List.reverseRecOn with
  | nil => simp [pathBuffers, HashChain.buffers]
  | append_singleton chain r ih =>
    obtain ⟨hchain, hr, hparent, hpack⟩ := registeredChain_concat.mp h
    obtain ⟨hpacks, hbuffers⟩ := ih hchain
    rw [List.map_append, List.map_singleton]
    refine ⟨?_, ?_⟩
    · intro tokens htokens
      rcases List.mem_append.mp htokens with htokens | htokens
      · exact hpacks tokens htokens
      · rw [List.mem_singleton.mp htokens]
        exact hpack
    · intro b hb
      rw [pathBuffers, HashChain.buffers_append] at hb
      rcases List.mem_append.mp hb with hb | hb
      · exact hbuffers b hb
      · rw [List.mem_singleton.mp hb]
        refine ⟨r, hr, ?_, by rw [hparent]; rfl⟩
        rw [hparent]
        exact hashable_toNat _ hpack

/-- A chain in other registrations of the same nodes. -/
lemma RegisteredChain.mono (hsub : ops ⊆ ops') {parent : UInt64} {chain : List RegisterArgs}
    (h : RegisteredChain blake2b ops parent chain) : RegisteredChain blake2b ops' parent chain := by
  induction chain generalizing parent with
  | nil => trivial
  | cons r chain ih =>
    obtain ⟨hr, hparent, nodeHash, hhash, hrest⟩ := h
    exact ⟨hsub hr, hparent, nodeHash, hhash, ih hrest⟩

/-- The nodes of a chain are registered. -/
lemma RegisteredChain.subset {parent : UInt64} {chain : List RegisterArgs}
    (h : RegisteredChain blake2b ops parent chain) : chain ⊆ ops := by
  induction chain generalizing parent with
  | nil => exact List.nil_subset _
  | cons r chain ih =>
    obtain ⟨hr, -, nodeHash, -, hrest⟩ := h
    exact List.cons_subset.mpr ⟨hr, ih hrest⟩

/-- A first part of a matching chain. -/
lemma RegisteredMatch.left {chain chain' : List RegisterArgs}
    (h : RegisteredMatch blake2b ops promptTokens (chain ++ chain')) :
    RegisteredMatch blake2b ops promptTokens chain := by
  refine ⟨(registeredChain_append.mp h.1).1, ?_⟩
  rw [RegisteredMatch, chainTokens_append] at h
  exact (List.prefix_append _ _).trans h.2

/-- A first part of a matching chain, taken along other registrations of the same nodes. -/
lemma RegisteredMatch.replace {chain chain' rest : List RegisterArgs}
    (h : RegisteredMatch blake2b ops promptTokens (chain' ++ rest))
    (hchain : RegisteredMatch blake2b ops promptTokens chain)
    (htokens : chain'.map RegisterArgs.tokenIds = chain.map RegisterArgs.tokenIds) :
    RegisteredMatch blake2b ops promptTokens (chain ++ rest) := by
  obtain ⟨hchain', hpre⟩ := h
  obtain ⟨-, hrest⟩ := registeredChain_append.mp hchain'
  rw [htokens] at hrest
  rw [chainTokens_append, chainTokens_congr htokens, ← chainTokens_append] at hpre
  exact ⟨registeredChain_append.mpr ⟨hchain.1, hrest⟩, hpre⟩

/-- The order of the registrations does not matter for the chains. -/
lemma registeredMatch_perm (h : ops'.Perm ops) {chain : List RegisterArgs} :
    RegisteredMatch blake2b ops' promptTokens chain ↔
      RegisteredMatch blake2b ops promptTokens chain :=
  ⟨fun hmatch => ⟨hmatch.1.mono h.subset, hmatch.2⟩,
    fun hmatch => ⟨hmatch.1.mono h.symm.subset, hmatch.2⟩⟩

/-- The order of the registrations does not matter for the hashes. -/
lemma registeredBuffers_perm (h : ops'.Perm ops) :
    registeredBuffers ops' = registeredBuffers ops := by
  simp only [registeredBuffers, h.mem_iff]

/-- There is a longest matching chain. -/
lemma exists_longest (blake2b : Bytes → UInt64) (ops : List RegisterArgs)
    (promptTokens : List ℤ) :
    ∃ chain, RegisteredMatch blake2b ops promptTokens chain ∧
      ∀ other, RegisteredMatch blake2b ops promptTokens other →
        (chainTokens other).length ≤ (chainTokens chain).length := by
  have hne : {n | ∃ chain, RegisteredMatch blake2b ops promptTokens chain ∧
      (chainTokens chain).length = n}.Nonempty := ⟨0, [], ⟨trivial, List.nil_prefix⟩, rfl⟩
  have hbdd : BddAbove {n | ∃ chain, RegisteredMatch blake2b ops promptTokens chain ∧
      (chainTokens chain).length = n} := by
    refine ⟨promptTokens.length, ?_⟩
    rintro n ⟨chain, hchain, rfl⟩
    exact hchain.2.length_le
  obtain ⟨chain, hchain, hlength⟩ := Nat.sSup_mem hne hbdd
  exact ⟨chain, hchain, fun other hother => hlength ▸ le_csSup hbdd ⟨other, hother, rfl⟩⟩

/-! ## The walk of the search -/

/-- What is taken behind a matching chain is a registered child of its last node that goes on with
the prompt. -/
lemma exists_of_nextNode {limit : ℤ} {chain : List RegisterArgs} {desc : RadixNodeDescriptor}
    (hmatch : RegisteredMatch blake2b ops promptTokens chain)
    (hnext : (registerAll blake2b ops).nextNode promptTokens limit
      ((pathHash blake2b (chain.map RegisterArgs.tokenIds)).toNat, (chainTokens chain).length) =
        some desc) :
    ∃ r, r.tokenIds = desc.tokenIds ∧ desc.numTokens = r.tokenIds.length ∧
      desc.nodeHash = pathHash blake2b ((chain ++ [r]).map RegisterArgs.tokenIds) ∧
      RegisteredMatch blake2b ops promptTokens (chain ++ [r]) := by
  obtain ⟨⟨key, hkey⟩, hparent, -, hwindow⟩ := bestNode_eq_some (nextNode_eq_some hnext).2
  obtain ⟨hhash, hnum, hfits, hdigest, -⟩ :=
    indexed_registerAll (Set.Subset.refl (registeredBuffers ops)) key desc hkey
  obtain ⟨-, r, hr, hparent', htokens, -⟩ := exists_registered hkey
  refine ⟨r, htokens, htokens ▸ hnum, ?_, ?_, ?_⟩
  · rw [List.map_append, List.map_singleton, pathHash, HashChain.tip_concat, hhash, hdigest,
      hparent, htokens]
    rfl
  · rw [← hparent', ← htokens] at hfits
    exact registeredChain_concat.mpr ⟨hmatch.1, hr, hparent'.trans hparent, hfits.2⟩
  · obtain ⟨rest, rfl⟩ := hmatch.2
    rw [chainTokens_append, List.prefix_append_right_inj]
    rw [window, List.drop_left, ← htokens] at hwindow
    simpa [chainTokens, hwindow] using List.take_prefix desc.numTokens rest

/-- If a registered child of the last node of a matching chain goes on with the prompt, something
is taken behind the chain in front of the limit. -/
lemma nextNode_isSome (hinj : Set.InjOn blake2b (registeredBuffers ops)) {limit : ℤ}
    {chain : List RegisterArgs} {r : RegisterArgs}
    (hmatch : RegisteredMatch blake2b ops promptTokens (chain ++ [r]))
    (hlimit : ((chainTokens chain).length : ℤ) < limit) :
    ∃ desc, (registerAll blake2b ops).nextNode promptTokens limit
      ((pathHash blake2b (chain.map RegisterArgs.tokenIds)).toNat, (chainTokens chain).length) =
        some desc := by
  obtain ⟨hchain, hpre⟩ := hmatch
  obtain ⟨-, hr, hparent, hpack⟩ := registeredChain_concat.mp hchain
  have hfits : Hashable r.parentHash r.tokenIds := by
    rw [hparent]
    exact hashable_toNat _ hpack
  obtain ⟨desc, hkey, hparent', htokens⟩ := exists_lookupNode hinj hr hfits
  obtain ⟨-, hnum, -⟩ := indexed_registerAll (Set.Subset.refl (registeredBuffers ops)) _ desc hkey
  obtain ⟨rest, rfl⟩ := hpre
  rw [nextNode, if_pos hlimit]
  refine bestNode_isSome hkey (hparent'.trans hparent) ?_ ?_
  · rw [hnum, htokens]
    simp
  · rw [hnum, htokens, window]
    simp [chainTokens]

/-- **The walk is a chain.**  The search goes along a matching chain of registered nodes, and its
place is the end of this chain. -/
lemma FirstChoices.exists_chain {limit : ℤ} {nodes : List RadixNodeDescriptor}
    (h : (registerAll blake2b ops).FirstChoices promptTokens limit nodes) :
    ∃ chain, RegisteredMatch blake2b ops promptTokens chain ∧
      chain.map RegisterArgs.tokenIds = nodes.map RadixNodeDescriptor.tokenIds ∧
      Greedy.dest advance ((0 : ℤ), 0) nodes =
        (((pathHash blake2b (chain.map RegisterArgs.tokenIds)).toNat : ℤ),
          (chainTokens chain).length) := by
  refine Greedy.IsWalk.invariant h ?_ ?_
  · exact ⟨[], ⟨trivial, List.nil_prefix⟩, rfl, rfl⟩
  rintro nodes desc ⟨chain, hmatch, htokens, hplace⟩ hnext
  rw [hplace] at hnext
  obtain ⟨r, htokens', hnum, hhash, hmatch'⟩ := exists_of_nextNode hmatch hnext
  refine ⟨chain ++ [r], hmatch', ?_, ?_⟩
  · simp [htokens, htokens']
  · rw [Greedy.dest, List.foldl_concat, ← Greedy.dest, hplace, advance, hhash, hnum]
    simp

/-- The number of tokens that the search has matched. -/
lemma FirstChoices.sum_eq {limit : ℤ} {nodes : List RadixNodeDescriptor}
    (h : (registerAll blake2b ops).FirstChoices promptTokens limit nodes)
    {chain : List RegisterArgs}
    (htokens : chain.map RegisterArgs.tokenIds = nodes.map RadixNodeDescriptor.tokenIds) :
    (nodes.map RadixNodeDescriptor.numTokens).sum = (chainTokens chain).length := by
  obtain ⟨taken, -, htaken, hplace⟩ := h.exists_chain
  have hsum := dest_snd (0, 0) nodes
  rw [hplace, zero_add] at hsum
  rw [← hsum, chainTokens_congr (htokens.trans htaken.symm)]

/-- Where siblings are alike, what the search has taken is the first part of a longest chain. -/
lemma FirstChoices.exists_rest {limit : ℤ} {nodes : List RadixNodeDescriptor}
    (h : (registerAll blake2b ops).FirstChoices promptTokens limit nodes)
    (halike : SiblingsAlikeIn blake2b ops promptTokens) :
    ∃ chain rest, RegisteredMatch blake2b ops promptTokens (chain ++ rest) ∧
      (∀ other, RegisteredMatch blake2b ops promptTokens other →
        (chainTokens other).length ≤ (chainTokens (chain ++ rest)).length) ∧
      Greedy.dest advance ((0 : ℤ), 0) nodes =
        (((pathHash blake2b (chain.map RegisterArgs.tokenIds)).toNat : ℤ),
          (chainTokens chain).length) := by
  refine Greedy.IsWalk.invariant h ?_ ?_
  · obtain ⟨chain, hmatch, hlongest⟩ := exists_longest blake2b ops promptTokens
    exact ⟨[], chain, hmatch, hlongest, rfl⟩
  · rintro nodes desc ⟨chain, rest, hmatch, hlongest, hplace⟩ hnext
    rw [hplace] at hnext
    obtain ⟨r, -, hnum, hhash, hmatch'⟩ := exists_of_nextNode hmatch.left hnext
    -- the chain may as well go on with the node that is taken
    have hswap : ∃ rest', RegisteredMatch blake2b ops promptTokens (chain ++ r :: rest') ∧
        (chainTokens (chain ++ rest)).length ≤ (chainTokens (chain ++ r :: rest')).length := by
      cases rest with
      | nil => exact ⟨[], hmatch', by simp⟩
      | cons second rest => exact halike chain r second rest hmatch' hmatch
    obtain ⟨rest', hrest', hle⟩ := hswap
    refine ⟨chain ++ [r], rest', ?_, ?_, ?_⟩
    · rwa [List.append_assoc, List.singleton_append]
    · intro other hother
      rw [List.append_assoc, List.singleton_append]
      exact (hlongest other hother).trans hle
    · rw [Greedy.dest, List.foldl_concat, ← Greedy.dest, hplace, advance, hhash, hnum]
      simp

/-- Where siblings are alike, the search finds a longest chain. -/
lemma findsLongest_of_siblingsAlikeIn (hapart : HashesApart blake2b (registeredBuffers ops))
    (h : SiblingsAlikeIn blake2b ops promptTokens) : FindsLongest blake2b ops promptTokens := by
  intro fuel hfuel
  have hindexed := @indexed_registerAll blake2b _ _ (Set.Subset.refl (registeredBuffers ops))
  obtain ⟨⟨m, nodes⟩, hfind⟩ := findMatchingNodes_ends hindexed hapart
    ((length_items_registerAll_le blake2b ops).trans_lt hfuel) promptTokens none
  refine ⟨m, nodes, hfind, ?_⟩
  obtain ⟨hrun, rfl⟩ := findMatchingNodes_eq_some_iff.mp hfind
  obtain ⟨hwalk, hstop⟩ := Greedy.run_eq_some hrun
  obtain ⟨chain, rest, hmatch, hlongest, hplace⟩ := FirstChoices.exists_rest hwalk h
  rw [Option.getD_none, hplace] at hstop
  -- nothing of the longest chain is left
  have hrest : (chainTokens (chain ++ rest)).length = (chainTokens chain).length := by
    cases rest with
    | nil => rw [List.append_nil]
    | cons second rest =>
      have hfirst : RegisteredMatch blake2b ops promptTokens (chain ++ [second]) := by
        rw [← List.singleton_append, ← List.append_assoc] at hmatch
        exact hmatch.left
      have hlimit : promptTokens.length ≤ (chainTokens chain).length := by
        by_contra hlt
        obtain ⟨desc, hdesc⟩ := nextNode_isSome hapart.1 hfirst
          (Nat.cast_lt.mpr (not_le.mp hlt))
        rw [hdesc] at hstop
        cases hstop
      have hle := hmatch.2.length_le
      rw [chainTokens_append, List.length_append] at hle ⊢
      omega
  have hsum := dest_snd (0, 0) nodes
  rw [hplace, zero_add] at hsum
  rw [← hsum]
  refine ⟨⟨chain, hmatch.left, rfl⟩, ?_⟩
  rintro n ⟨other, hother, rfl⟩
  exact (hlongest other hother).trans hrest.le

/-! ## Orders of registration -/

/-- The hashes along a chain are those of its nodes. -/
lemma RegisteredChain.pathHashes_eq {chain : List RegisterArgs}
    (h : RegisteredChain blake2b ops 0 chain) :
    pathHashes blake2b (chain.map RegisterArgs.tokenIds) =
      chain.map fun r => blake2b (nodeBuffer r.parentHash r.tokenIds) := by
  induction chain using List.reverseRecOn with
  | nil => rfl
  | append_singleton chain r ih =>
    obtain ⟨hchain, -, hparent, -⟩ := registeredChain_concat.mp h
    rw [List.map_append, List.map_singleton, pathHashes, HashChain.hashes_concat, ← pathHashes,
      ih hchain, List.map_append, List.map_singleton, hparent]
    rfl

/-- A registration leaves the hashes that are there in their places. -/
lemma isPrefix_keys_registerNode (a : KacheDBRadixAdapter) (r : RegisterArgs) :
    a.nodes.items.map Prod.fst <+: (a.registerNode blake2b r.nodeId r.tokenIds r.parentHash
      r.layerOffsets).2.nodes.items.map Prod.fst := by
  by_cases hfits : Hashable r.parentHash r.tokenIds
  · obtain ⟨desc, -, -, -, -, -, hcall⟩ := registerNode_of_hashable blake2b hfits a r.nodeId
      r.layerOffsets
    rw [hcall, Dict.set]
    by_cases hmem : blake2b (nodeBuffer r.parentHash r.tokenIds) ∈ a.nodes.items.map Prod.fst
    · rw [Dict.map_fst_setItems_of_mem hmem]
    · rw [Dict.map_fst_setItems_of_notMem hmem]
      exact List.prefix_append _ _
  · rw [registerNode_of_not_hashable hfits]

/-- The hashes of the first registrations stand in front. -/
lemma isPrefix_keys_registerAll (blake2b : Bytes → UInt64) (ops more : List RegisterArgs) :
    (registerAll blake2b ops).nodes.items.map Prod.fst <+:
      (registerAll blake2b (ops ++ more)).nodes.items.map Prod.fst := by
  induction more using List.reverseRecOn with
  | nil => rw [List.append_nil]
  | append_singleton more r ih =>
    rw [← List.append_assoc, registerAll_concat]
    exact ih.trans (isPrefix_keys_registerNode _ r)

/-- If a chain is registered from its first node on, its hashes are the hashes of the
dictionary. -/
lemma keys_registerAll_chain (hapart : HashesApart blake2b (registeredBuffers ops))
    {chain : List RegisterArgs} (h : RegisteredChain blake2b ops 0 chain) :
    (registerAll blake2b chain).nodes.items.map Prod.fst =
      pathHashes blake2b (chain.map RegisterArgs.tokenIds) := by
  induction chain using List.reverseRecOn with
  | nil => rfl
  | append_singleton chain r ih =>
    obtain ⟨hchain, -, hparent, hpack⟩ := registeredChain_concat.mp h
    have hfits : Hashable r.parentHash r.tokenIds := by
      rw [hparent]
      exact hashable_toNat _ hpack
    obtain ⟨desc, -, -, -, -, -, hcall⟩ := registerNode_of_hashable blake2b hfits
      (registerAll blake2b chain) r.nodeId r.layerOffsets
    have hnodup := nodup_pathHashes hapart h.buffers.1 h.buffers.2
    rw [h.pathHashes_eq, List.map_append, List.map_singleton,
      ← hchain.pathHashes_eq, ← ih hchain] at hnodup ⊢
    rw [registerAll_concat, hcall, Dict.set]
    refine Dict.map_fst_setItems_of_notMem fun hmem => ?_
    exact List.disjoint_of_nodup_append hnodup hmem (List.mem_singleton_self _)

/-- A node of a path hangs below another place than the end of the path. -/
lemma Indexed.parentHash_ne {a : KacheDBRadixAdapter} {B : Set Bytes} (h : a.Indexed blake2b B)
    (hapart : HashesApart blake2b B) {path : List (List ℤ)}
    (hpack : ∀ tokens ∈ path, Packable tokens) (hB : ∀ b ∈ pathBuffers blake2b path, b ∈ B)
    {key : UInt64} {desc : RadixNodeDescriptor} (hkey : a.lookupNode key = some desc)
    (hmem : key ∈ pathHashes blake2b path) : desc.parentHash ≠ (pathHash blake2b path).toNat := by
  intro hparent
  rw [pathHashes] at hmem
  obtain ⟨above, tokens, ⟨rest, rfl⟩, htip⟩ := HashChain.exists_of_mem_hashes _ _ hmem
  obtain ⟨hhash, -, hfits, hdigest, hbuffer⟩ := h key desc hkey
  obtain ⟨-, hpack', hB'⟩ := h.pathHash_concat hkey hparent hpack hB
  -- the node would end two paths
  have hpre : above ++ [tokens] <+: above ++ [tokens] ++ rest := List.prefix_append _ _
  have hsame : above ++ [tokens] ++ rest ++ [desc.tokenIds] = above ++ [tokens] := by
    refine pathHash_inj hapart hpack' (fun x hx => hpack x (hpre.subset hx)) hB'
      (fun x hx => hB x (HashChain.buffers_subset_of_isPrefix _ _ _ hpre hx)) ?_
    rw [pathHash, HashChain.tip_concat, ← pathHash, ← hparent, ← hdigest, htip, pathHash]
  have hlength := congrArg List.length hsame
  simp at hlength

/-- The nodes of the registrations, if the nodes of a chain and one below them come first. -/
lemma exists_items_eq (hapart : HashesApart blake2b (registeredBuffers ops))
    {chain : List RegisterArgs} {r : RegisterArgs}
    (h : RegisteredChain blake2b ops 0 (chain ++ [r])) (more : List RegisterArgs) :
    ∃ before item behind, (registerAll blake2b (chain ++ [r] ++ more)).nodes.items =
        before ++ item :: behind ∧
      before.map Prod.fst = pathHashes blake2b (chain.map RegisterArgs.tokenIds) ∧
      item.1 = blake2b (nodeBuffer r.parentHash r.tokenIds) := by
  obtain ⟨keys, hkeys⟩ := isPrefix_keys_registerAll blake2b (chain ++ [r]) more
  rw [keys_registerAll_chain hapart h, h.pathHashes_eq, List.map_append, List.map_singleton,
    ← (registeredChain_concat.mp h).1.pathHashes_eq, List.append_assoc, List.singleton_append]
    at hkeys
  obtain ⟨before, behind', hitems, hbefore, hbehind'⟩ := List.map_eq_append_iff.mp hkeys.symm
  obtain ⟨item, behind, rfl, hitem, -⟩ := List.map_eq_cons_iff.mp hbehind'
  exact ⟨before, item, behind, hitems, hbefore, hitem⟩

/-- If the nodes of a matching chain and one below them are registered first, this one is taken
behind the chain. -/
lemma bestNode_of_first (hapart : HashesApart blake2b (registeredBuffers ops))
    {chain more : List RegisterArgs} {r : RegisterArgs}
    (hperm : (chain ++ [r] ++ more).Perm ops)
    (hmatch : RegisteredMatch blake2b ops promptTokens (chain ++ [r])) :
    ∃ desc, (registerAll blake2b (chain ++ [r] ++ more)).bestNode promptTokens
        (pathHash blake2b (chain.map RegisterArgs.tokenIds)).toNat (chainTokens chain).length =
      some desc ∧ desc.tokenIds = r.tokenIds := by
  obtain ⟨hchain, hr, hparent, hpack⟩ := registeredChain_concat.mp hmatch.1
  have hfits : Hashable r.parentHash r.tokenIds := by
    rw [hparent]
    exact hashable_toNat _ hpack
  have hbuffers := registeredBuffers_perm hperm
  have hindexed := @indexed_registerAll blake2b _ _ hbuffers.subset
  obtain ⟨desc, hkey, hparent', htokens⟩ :=
    exists_lookupNode (hbuffers ▸ hapart.1) (hperm.symm.subset hr) hfits
  obtain ⟨before, item, behind, hitems, hbefore, hitem⟩ := exists_items_eq hapart hmatch.1 more
  have hlookup (x) (hx : x ∈ before ++ item :: behind) :
      (registerAll blake2b (chain ++ [r] ++ more)).lookupNode x.1 = some x.2 :=
    Dict.get_eq_some_iff.mpr (hitems ▸ hx)
  have hdesc : item.2 = desc := by
    have hitem' := hlookup item (by simp)
    rw [hitem, hkey] at hitem'
    exact (Option.some.inj hitem').symm
  refine ⟨desc, ?_, htokens⟩
  rw [bestNode, List.find?_eq_some_iff_append]
  refine ⟨?_, before.map Prod.snd, behind.map Prod.snd, ?_, ?_⟩
  · obtain ⟨rest, rfl⟩ := hmatch.2
    obtain ⟨-, hnum, -⟩ := hindexed _ desc hkey
    rw [decide_eq_true_iff, hnum, htokens, window]
    exact ⟨hparent'.trans hparent, by simp, by simp [chainTokens]⟩
  · rw [hitems, List.map_append, List.map_cons, hdesc]
  · -- the nodes in front of it hang further up
    intro other hother
    obtain ⟨x, hx, rfl⟩ := List.mem_map.mp hother
    rw [Bool.not_eq_true', decide_eq_false_iff_not]
    rintro ⟨hparent'', -⟩
    refine hindexed.parentHash_ne hapart hchain.buffers.1 hchain.buffers.2
      (hlookup x (List.mem_append_left _ hx)) ?_ hparent''
    rw [← hbefore]
    exact List.mem_map_of_mem hx

/-- **Every matching chain is the walk of some order.**  If the nodes of a matching chain are
registered first, the search goes along the chain, if its last node begins in front of the
limit. -/
lemma exists_order (hapart : HashesApart blake2b (registeredBuffers ops))
    {chain : List RegisterArgs} {r : RegisterArgs}
    (hmatch : RegisteredMatch blake2b ops promptTokens (chain ++ [r])) :
    ∃ ops', ops'.Perm ops ∧ ∀ limit : ℤ, ((chainTokens chain).length : ℤ) < limit →
      ∃ nodes, (registerAll blake2b ops').FirstChoices promptTokens limit nodes ∧
        nodes.map RadixNodeDescriptor.tokenIds = (chain ++ [r]).map RegisterArgs.tokenIds := by
  have hnodup : (chain ++ [r]).Nodup := by
    have hhashes := nodup_pathHashes hapart hmatch.1.buffers.1 hmatch.1.buffers.2
    rw [hmatch.1.pathHashes_eq] at hhashes
    exact hhashes.of_map
  obtain ⟨first, hfirst, hsub⟩ := hnodup.subperm hmatch.1.subset
  obtain ⟨more, hmore⟩ := hsub.exists_perm_append
  have hperm : (chain ++ [r] ++ more).Perm ops := (hfirst.symm.append_right more).trans hmore.symm
  refine ⟨chain ++ [r] ++ more, hperm, fun limit hlimit => ?_⟩
  have hfront (front : List RegisterArgs) (hpre : front <+: chain ++ [r]) :
      ∃ nodes, (registerAll blake2b (chain ++ [r] ++ more)).FirstChoices promptTokens limit nodes ∧
        nodes.map RadixNodeDescriptor.tokenIds = front.map RegisterArgs.tokenIds := by
    induction front using List.reverseRecOn with
    | nil => exact ⟨[], trivial, rfl⟩
    | append_singleton front r' ih =>
      obtain ⟨nodes, hwalk, htokens⟩ := ih ((List.prefix_append _ _).trans hpre)
      obtain ⟨taken, -, htaken, hplace⟩ := hwalk.exists_chain
      have hsame := chainTokens_congr (htaken.trans htokens)
      have hbefore : front <+: chain := by
        rcases List.prefix_concat_iff.mp hpre with heq | hpre'
        · exact (List.append_inj_left' heq rfl) ▸ List.prefix_refl _
        · exact (List.prefix_append _ _).trans hpre'
      have hlt : ((chainTokens front).length : ℤ) < limit := by
        obtain ⟨behind, rfl⟩ := hbefore
        rw [chainTokens_append, List.length_append] at hlimit
        omega
      obtain ⟨behind, hbehind⟩ := hpre
      rw [← hbehind, List.append_assoc] at hperm hwalk ⊢
      rw [← hbehind] at hmatch
      obtain ⟨desc, hbest, hdesc⟩ := bestNode_of_first hapart hperm hmatch.left
      refine ⟨nodes ++ [desc], Greedy.isWalk_concat.mpr ⟨hwalk, ?_⟩, by simp [htokens, hdesc]⟩
      rw [hplace, htaken, htokens, hsame, nextNode, if_pos hlt, hbest]
  exact hfront _ (List.prefix_refl _)

/-! ## The longest match -/

/-- If the search finds a longest chain in every order, siblings are alike. -/
lemma siblingsAlikeIn_of_findsLongest (hapart : HashesApart blake2b (registeredBuffers ops))
    (h : ∀ ops', ops'.Perm ops → FindsLongest blake2b ops' promptTokens) :
    SiblingsAlikeIn blake2b ops promptTokens := by
  intro path first second rest hfirst hsecond
  by_cases hend : promptTokens.length ≤ (chainTokens (path ++ [first])).length
  · -- nothing is left of the prompt
    exact ⟨[], hfirst, hsecond.2.length_le.trans hend⟩
  · obtain ⟨ops', hperm, horder⟩ := exists_order hapart hfirst
    obtain ⟨nodes, hwalk, htokens⟩ := horder promptTokens.length (by
      rw [chainTokens_append, List.length_append] at hend
      omega)
    obtain ⟨m, nodes', hfind, hgreatest⟩ := h ops' hperm _ (Nat.lt_succ_self _)
    obtain ⟨hrun, rfl⟩ := findMatchingNodes_eq_some_iff.mp hfind
    obtain ⟨more, rfl⟩ := hwalk.isPrefix_of_run hrun
    have hwalk' : (registerAll blake2b ops').FirstChoices promptTokens promptTokens.length
        (nodes ++ more) := (Greedy.run_eq_some hrun).1
    obtain ⟨taken, htaken, htokens', -⟩ := hwalk'.exists_chain
    rw [registeredMatch_perm hperm] at htaken
    rw [List.map_append] at htokens'
    obtain ⟨front, rest', rfl, hfront, -⟩ := List.map_eq_append_iff.mp htokens'
    have hmatch := htaken.replace hfirst (hfront.trans htokens)
    refine ⟨rest', by rwa [List.append_assoc] at hmatch, ?_⟩
    have hle := hgreatest.2 ⟨_, (registeredMatch_perm hperm).mpr hsecond, rfl⟩
    have hsame : chainTokens (front ++ rest') = chainTokens (path ++ first :: rest') := by
      rw [chainTokens_append, chainTokens_congr (hfront.trans htokens), ← chainTokens_append,
        List.append_assoc, List.singleton_append]
    rwa [hwalk'.sum_eq (by rw [htokens', List.map_append]), hsame] at hle

/-- The order of the registrations does not matter for siblings. -/
lemma SiblingsAlikeIn.perm (hperm : ops'.Perm ops)
    (h : SiblingsAlikeIn blake2b ops promptTokens) : SiblingsAlikeIn blake2b ops' promptTokens := by
  intro path first second rest hfirst hsecond
  obtain ⟨rest', hrest', hle⟩ := h path first second rest
    ((registeredMatch_perm hperm).mp hfirst) ((registeredMatch_perm hperm).mp hsecond)
  exact ⟨rest', (registeredMatch_perm hperm).mpr hrest', hle⟩

/-- Siblings are alike if they are alike in every prompt. -/
lemma siblingsAlike_iff : SiblingsAlike blake2b ops ↔
    ∀ promptTokens, SiblingsAlikeIn blake2b ops promptTokens := by
  constructor
  · intro h promptTokens path first second rest hfirst hsecond
    have hpre : chainTokens (path ++ [first]) <+: chainTokens (path ++ second :: rest) ∨
        chainTokens (path ++ second :: rest) <+: chainTokens (path ++ [first]) :=
      List.prefix_or_prefix_of_prefix hfirst.2 hsecond.2
    rcases hpre with hpre | hpre
    · rw [chainTokens_append, chainTokens_append path, List.prefix_append_right_inj,
        chainTokens_cons, chainTokens_nil, List.append_nil] at hpre
      obtain ⟨rest', hchain, htokens⟩ := h path first second rest hfirst.1 hsecond.1 hpre
      have hsame : chainTokens (path ++ first :: rest') = chainTokens (path ++ second :: rest) := by
        rw [chainTokens_append, htokens, ← chainTokens_append]
      exact ⟨rest', ⟨hchain, hsame ▸ hsecond.2⟩, (congrArg List.length hsame).ge⟩
    · exact ⟨[], hfirst, hpre.length_le⟩
  · -- the prompt that is spelled
    intro h path first second rest hfirst hsecond hpre
    obtain ⟨rest', ⟨hchain, hpre'⟩, hle⟩ := h (chainTokens (path ++ second :: rest)) path first
      second rest ⟨hfirst, by simpa using hpre⟩ ⟨hsecond, List.prefix_refl _⟩
    have hsame := hpre'.eq_of_length (hpre'.length_le.antisymm hle)
    rw [chainTokens_append, chainTokens_append path, List.append_cancel_left_eq] at hsame
    exact ⟨rest', hchain, hsame⟩

/-- **When the match is a longest one.**  For some registered nodes and a prompt, the search finds
in every order of registration as many tokens as a longest matching chain has exactly if of two
children of a node that go on with the prompt one leads as far as the other.  It does so for every
prompt exactly if siblings are alike. -/
theorem findMatchingNodes_longest_iff (ops : List RegisterArgs)
    (hapart : HashesApart blake2b (registeredBuffers ops)) :
    ((∀ ops', ops'.Perm ops → ∀ promptTokens, FindsLongest blake2b ops' promptTokens) ↔
        SiblingsAlike blake2b ops) ∧
      ∀ promptTokens, (∀ ops', ops'.Perm ops → FindsLongest blake2b ops' promptTokens) ↔
        SiblingsAlikeIn blake2b ops promptTokens := by
  have hprompt (promptTokens : List ℤ) :
      (∀ ops', ops'.Perm ops → FindsLongest blake2b ops' promptTokens) ↔
        SiblingsAlikeIn blake2b ops promptTokens := by
    refine ⟨siblingsAlikeIn_of_findsLongest hapart, fun h ops' hperm => ?_⟩
    refine findsLongest_of_siblingsAlikeIn ?_ (h.perm hperm)
    rwa [registeredBuffers_perm hperm]
  refine ⟨?_, hprompt⟩
  rw [siblingsAlike_iff]
  constructor
  · intro h promptTokens
    exact (hprompt promptTokens).mp fun ops' hperm => h ops' hperm promptTokens
  · intro h ops' hperm promptTokens
    exact (hprompt promptTokens).mpr (h promptTokens) ops' hperm

/-- In a radix tree siblings are alike. -/
lemma IsRadixTree.siblingsAlike (h : IsRadixTree ops) : SiblingsAlike blake2b ops := by
  intro path first second rest hfirst hsecond hpre
  obtain ⟨-, hr, hparent, hpack⟩ := registeredChain_concat.mp hfirst
  obtain ⟨hpath, hrest⟩ := registeredChain_append.mp hsecond
  obtain ⟨⟨hr', hparent', -⟩, hrest'⟩ := registeredChain_cons.mp hrest
  obtain ⟨hne, hhead⟩ := h first hr second hr'
  obtain ⟨hne', -⟩ := h second hr' second hr'
  -- both begin with the same token
  have hsame : first.tokenIds = second.tokenIds := by
    refine hhead (hparent.trans hparent'.symm) ?_
    obtain ⟨token, tokens, hfirst'⟩ := List.exists_cons_of_ne_nil hne
    obtain ⟨token', tokens', hsecond'⟩ := List.exists_cons_of_ne_nil hne'
    rw [chainTokens_cons, hfirst', hsecond', List.cons_append, List.cons_prefix_cons] at hpre
    rw [hfirst', hsecond', List.head?_cons, List.head?_cons, hpre.1]
  have hchain : RegisteredChain blake2b ops _ (first :: rest) :=
    registeredChain_cons.mpr ⟨⟨hr, hparent, hpack⟩, by rwa [hsame]⟩
  exact ⟨rest, registeredChain_append.mpr ⟨hpath, hchain⟩,
    by rw [chainTokens_cons, chainTokens_cons, hsame]⟩

/-- **In a radix tree the match is a longest one**, in every order and for every prompt. -/
theorem findsLongest_of_isRadixTree (hapart : HashesApart blake2b (registeredBuffers ops))
    (h : IsRadixTree ops) (promptTokens : List ℤ) : FindsLongest blake2b ops promptTokens :=
  findsLongest_of_siblingsAlikeIn hapart (siblingsAlike_iff.mp h.siblingsAlike promptTokens)

/-! ### Siblings one of which begins the other -/

/-- Two children of the root, the first of which is a beginning of the second. -/
def siblings : List RegisterArgs :=
  [⟨1, [1], 0, []⟩, ⟨2, [1, 2], 0, []⟩]

/-- A third node, below the first one, spells what the second one does. -/
def family : List RegisterArgs :=
  siblings ++ [⟨3, [2], 0xc6714aa2da6dbef0, []⟩]

/-- The hash function tells the three nodes apart. -/
lemma hashesApart_family : HashesApart siblingDigest (registeredBuffers family) := by
  refine hashesApart_of_nodup (family.map fun r => nodeBuffer r.parentHash r.tokenIds) ?_
    (by decide)
  rintro b ⟨r, hr, -, rfl⟩
  exact List.mem_map_of_mem hr

/-- The hash function tells the two nodes apart. -/
lemma hashesApart_siblings : HashesApart siblingDigest (registeredBuffers siblings) :=
  have hsub : registeredBuffers siblings ⊆ registeredBuffers family :=
    fun _ ⟨r, hr, hb⟩ => ⟨r, List.mem_append_left _ hr, hb⟩
  ⟨hashesApart_family.1.mono hsub, fun b hb => hashesApart_family.2 b (hsub hb)⟩

/-- When the match among the three nodes is a longest one. -/
theorem findMatchingNodes_longest_iff_family :
    HashesApart siblingDigest (registeredBuffers family) ∧
      ((∀ ops', ops'.Perm family → ∀ promptTokens, FindsLongest siblingDigest ops' promptTokens) ↔
          SiblingsAlike siblingDigest family) ∧
        ∀ promptTokens, (∀ ops', ops'.Perm family → FindsLongest siblingDigest ops' promptTokens) ↔
          SiblingsAlikeIn siblingDigest family promptTokens :=
  ⟨hashesApart_family, findMatchingNodes_longest_iff family hashesApart_family⟩

/-- The prompt is the second node, and the search takes the first one and finds nothing below
it. -/
theorem findMatchingNodes_not_longest :
    HashesApart siblingDigest (registeredBuffers siblings) ∧
      (∃ nodes, (registerAll siblingDigest siblings).findMatchingNodes 3 [1, 2] none =
        some (1, nodes)) ∧
      RegisteredMatch siblingDigest siblings [1, 2] [⟨2, [1, 2], 0, []⟩] ∧
      ¬ FindsLongest siblingDigest siblings [1, 2] := by
  have hfind : (registerAll siblingDigest siblings).findMatchingNodes 3 [1, 2] none =
      some (1, [⟨1, 0, 0xc6714aa2da6dbef0, [1], 1, []⟩]) := rfl
  have hmatch : RegisteredMatch siblingDigest siblings [1, 2] [⟨2, [1, 2], 0, []⟩] :=
    ⟨⟨by simp [siblings], rfl, 0x53c102ab8ee18afd, rfl, trivial⟩, List.prefix_refl _⟩
  refine ⟨hashesApart_siblings, ⟨_, hfind⟩, hmatch, fun h => ?_⟩
  obtain ⟨m, nodes, hfind', hgreatest⟩ := h 3 (by decide)
  obtain ⟨rfl, -⟩ := Prod.mk.inj (Option.some.inj (hfind.symm.trans hfind'))
  exact absurd (hgreatest.2 ⟨_, hmatch, rfl⟩) (by decide)

/-! ## The limit -/

/-- A list that is mapped as one with a last item has a last item. -/
lemma exists_concat_of_map_eq {α β γ : Type} {f : α → γ} {g : β → γ} {xs : List α} {x : α}
    {ys : List β} (h : ys.map g = (xs ++ [x]).map f) : ∃ ys' y, ys = ys' ++ [y] := by
  rw [List.map_append, List.map_singleton] at h
  obtain ⟨ys', last, rfl, -, hlast⟩ := List.map_eq_append_iff.mp h
  obtain ⟨y, rfl, -⟩ := List.map_eq_singleton_iff.mp hlast
  exact ⟨ys', y, rfl⟩

/-- What the search has matched in front of its last choice and behind it. -/
lemma FirstChoices.sums_concat {limit : ℤ} {nodes : List RadixNodeDescriptor}
    {desc : RadixNodeDescriptor}
    (h : (registerAll blake2b ops).FirstChoices promptTokens limit (nodes ++ [desc]))
    {chain : List RegisterArgs} {r : RegisterArgs} (htokens : (chain ++ [r]).map
      RegisterArgs.tokenIds = (nodes ++ [desc]).map RadixNodeDescriptor.tokenIds) :
    (nodes.map RadixNodeDescriptor.numTokens).sum = (chainTokens chain).length ∧
      (nodes.map RadixNodeDescriptor.numTokens).sum + desc.numTokens =
        (chainTokens (chain ++ [r])).length := by
  have hsum := h.sum_eq htokens
  rw [List.map_append, List.map_append, List.map_singleton, List.map_singleton] at htokens
  rw [List.map_append, List.sum_append, List.map_singleton, List.sum_singleton] at hsum
  exact ⟨FirstChoices.sum_eq (Greedy.isWalk_concat.mp h).1 (List.append_inj' htokens rfl).1, hsum⟩

/-- **When the limit is kept in every order.**  For some registered nodes and a prompt, the search
keeps a limit in every order of registration exactly if no node of a matching chain that begins in
front of the limit begins at the end of the prompt or ends behind the limit. -/
theorem keepsLimit_iff_registered (ops : List RegisterArgs)
    (hapart : HashesApart blake2b (registeredBuffers ops)) (promptTokens : List ℤ)
    (maxTokens : ℕ) :
    (∀ ops', ops'.Perm ops → (registerAll blake2b ops').KeepsLimit promptTokens maxTokens) ↔
      ∀ chain r, RegisteredMatch blake2b ops promptTokens (chain ++ [r]) →
        (chainTokens chain).length < maxTokens →
          (chainTokens chain).length < promptTokens.length ∧
            (chainTokens (chain ++ [r])).length ≤ maxTokens := by
  constructor
  · intro h chain r hmatch hlt
    obtain ⟨ops', hperm, horder⟩ := exists_order hapart hmatch
    obtain ⟨nodes', hwalk, htokens⟩ := horder maxTokens (by exact_mod_cast hlt)
    obtain ⟨nodes, desc, rfl⟩ := exists_concat_of_map_eq htokens
    obtain ⟨hfront, hsum⟩ := FirstChoices.sums_concat hwalk htokens.symm
    have hkept := (h ops' hperm).choices.1 nodes desc hwalk
    rwa [hsum, hfront] at hkept
  · intro h ops' hperm
    have hindexed := @indexed_registerAll blake2b _ _ (Set.Subset.refl (registeredBuffers ops'))
    refine keepsLimit_of_choices ⟨fun nodes desc hwalk => ?_, FirstChoices.length_le hindexed
      (registeredBuffers_perm hperm ▸ hapart) maxTokens⟩
    obtain ⟨taken, hmatch, htokens, -⟩ := hwalk.exists_chain
    obtain ⟨chain, r, rfl⟩ := exists_concat_of_map_eq htokens
    obtain ⟨hfront, hsum⟩ := FirstChoices.sums_concat hwalk htokens
    have hlimit := (nextNode_eq_some (Greedy.isWalk_concat.mp hwalk).2).1
    rw [dest_root_snd, hfront] at hlimit
    rw [hsum, hfront]
    exact h chain r ((registeredMatch_perm hperm).mp hmatch) (by exact_mod_cast hlimit)

end KacheDBRadixAdapter

end KacheDB
