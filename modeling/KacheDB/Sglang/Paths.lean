import KacheDB.Sglang.Matching

/-!
# Registered paths

A node is registered under the hash of its own tokens and of its parent, and the parent is the root
or a node that has been registered before.  The path of a node is made of the tokens of all nodes
from the root down to it, as they were registered.

`findMatchingNodes_sound` says that each node that the search finds has one path only, and that
this path is the way on which the search has come: a node that was registered in the context of
another prefix has another hash.
-/

namespace KacheDB

open Foundation

namespace KacheDBRadixAdapter

variable (blake2b : Bytes → UInt64)

/-- In these registrations a node has been registered under this hash, with the tokens along this
path. -/
inductive RegisteredPath : List RegisterArgs → UInt64 → List (List ℤ) → Prop
  /-- A node below the root. -/
  | root {ops : List RegisterArgs} {r : RegisterArgs} {nodeHash : UInt64}
      (hroot : r.parentHash = 0)
      (hhash : computeNodeHash blake2b r.tokenIds r.parentHash = .ok nodeHash) :
      RegisteredPath (ops ++ [r]) nodeHash [r.tokenIds]
  /-- A node below one that has been registered before. -/
  | child {ops : List RegisterArgs} {r : RegisterArgs} {parent nodeHash : UInt64}
      {path : List (List ℤ)} (hpath : RegisteredPath ops parent path)
      (hparent : r.parentHash = parent.toNat)
      (hhash : computeNodeHash blake2b r.tokenIds r.parentHash = .ok nodeHash) :
      RegisteredPath (ops ++ [r]) nodeHash (path ++ [r.tokenIds])
  /-- A later registration. -/
  | later {ops : List RegisterArgs} {nodeHash : UInt64} {path : List (List ℤ)}
      (hpath : RegisteredPath ops nodeHash path) (r : RegisterArgs) :
      RegisteredPath (ops ++ [r]) nodeHash path

/-- Each parent hash is that of the root or one that an earlier registration has returned. -/
def ParentsFirst (ops : List RegisterArgs) : Prop :=
  ∀ (earlier : List RegisterArgs) (r : RegisterArgs), earlier ++ [r] <+: ops → r.parentHash = 0 ∨
    ∃ r' ∈ earlier, ∃ parent : UInt64,
      computeNodeHash blake2b r'.tokenIds r'.parentHash = .ok parent ∧ r.parentHash = parent.toNat

variable {blake2b} {B : Set Bytes} {a : KacheDBRadixAdapter} {ops : List RegisterArgs}

/-- A path ends at the hash of its node, its tokens fit, and its buffers have been hashed. -/
lemma RegisteredPath.pathHash_eq {nodeHash : UInt64} {path : List (List ℤ)}
    (h : RegisteredPath blake2b ops nodeHash path) : nodeHash = pathHash blake2b path ∧
      (∀ tokens ∈ path, Packable tokens) ∧
      ∀ b ∈ pathBuffers blake2b path, b ∈ registeredBuffers ops := by
  induction h with
  | @root ops r nodeHash hroot hhash =>
    obtain ⟨hfits, rfl⟩ := computeNodeHash_eq_ok.mp hhash
    have hbuffer : nodeBuffer r.parentHash r.tokenIds =
        nodeBuffer ((0 : UInt64).toNat : ℤ) r.tokenIds := by
      rw [hroot]
      rfl
    refine ⟨congrArg blake2b hbuffer, List.forall_mem_singleton.mpr hfits.2,
      List.forall_mem_singleton.mpr ⟨r, ?_, hfits, hbuffer⟩⟩
    exact List.mem_append_right _ (List.mem_singleton_self _)
  | @child ops r parent nodeHash path _ hparent hhash ih =>
    obtain ⟨rfl, hpack, hbuffers⟩ := ih
    obtain ⟨hfits, rfl⟩ := computeNodeHash_eq_ok.mp hhash
    refine ⟨?_, ?_, ?_⟩
    · rw [hparent, pathHash, pathHash, HashChain.tip_concat]
    · intro tokens htokens
      rcases List.mem_append.mp htokens with htokens | htokens
      · exact hpack tokens htokens
      · rw [List.mem_singleton.mp htokens]
        exact hfits.2
    · intro b hb
      rw [pathBuffers, HashChain.buffers_append] at hb
      rcases List.mem_append.mp hb with hb | hb
      · obtain ⟨r', hr', hb'⟩ := hbuffers b hb
        exact ⟨r', List.mem_append_left _ hr', hb'⟩
      · rw [List.mem_singleton.mp hb]
        exact ⟨r, List.mem_append_right _ (List.mem_singleton_self _), hfits,
          congrArg (nodeBuffer · r.tokenIds) hparent⟩
  | @later ops nodeHash path _ r ih =>
    obtain ⟨hhash, hpack, hbuffers⟩ := ih
    refine ⟨hhash, hpack, fun b hb => ?_⟩
    obtain ⟨r', hr', hb'⟩ := hbuffers b hb
    exact ⟨r', List.mem_append_left _ hr', hb'⟩

/-- Every registered node has a path. -/
lemma ParentsFirst.exists_path (h : ParentsFirst blake2b ops) {r : RegisterArgs} (hr : r ∈ ops)
    {nodeHash : UInt64} (hhash : computeNodeHash blake2b r.tokenIds r.parentHash = .ok nodeHash) :
    ∃ path, RegisteredPath blake2b ops nodeHash path := by
  induction ops using List.reverseRecOn generalizing r nodeHash with
  | nil => cases hr
  | append_singleton ops last ih =>
    have hearlier : ParentsFirst blake2b ops := fun earlier r' hpre =>
      h earlier r' (hpre.trans (List.prefix_append _ _))
    rcases List.mem_append.mp hr with hr | hr
    · obtain ⟨path, hpath⟩ := ih hearlier hr hhash
      exact ⟨path, hpath.later last⟩
    · obtain rfl := List.mem_singleton.mp hr
      rcases h ops r (List.prefix_refl _) with hroot | ⟨r', hr', parent, hparent, heq⟩
      · exact ⟨_, .root hroot hhash⟩
      · obtain ⟨path, hpath⟩ := ih hearlier hr' hparent
        exact ⟨_, hpath.child heq hhash⟩

/-- A node has one path only, if the hash function tells the nodes apart. -/
lemma RegisteredPath.unique (hapart : HashesApart blake2b (registeredBuffers ops))
    {nodeHash : UInt64} {path : List (List ℤ)} (h : RegisteredPath blake2b ops nodeHash path)
    {path' : List (List ℤ)} (hhash : nodeHash = pathHash blake2b path')
    (hpack : ∀ tokens ∈ path', Packable tokens)
    (hbuffers : ∀ b ∈ pathBuffers blake2b path', b ∈ registeredBuffers ops) : path = path' := by
  obtain ⟨hhash', hpack', hbuffers'⟩ := h.pathHash_eq
  exact pathHash_inj hapart hpack' hpack hbuffers' hbuffers (hhash'.symm.trans hhash)

/-- The hash of the last of some nodes, that of the root if there are none. -/
def lastHash (nodes : List RadixNodeDescriptor) : ℤ :=
  match nodes.getLast? with
  | none => 0
  | some desc => desc.nodeHash.toNat

/-- The name of the place behind some nodes. -/
lemma dest_fst (nodes : List RadixNodeDescriptor) (tokenCursor : ℕ) :
    (Greedy.dest advance ((0 : ℤ), tokenCursor) nodes).1 = lastHash nodes := by
  rcases List.eq_nil_or_concat nodes with rfl | ⟨rest, desc, rfl⟩
  · rfl
  · rw [List.concat_eq_append, Greedy.dest, List.foldl_concat, lastHash, List.getLast?_concat]
    rfl

/-- The nodes of a chain stand at the ends of the path that it goes on. -/
lemma IsChain.pathHash_eq (h : a.Indexed blake2b B) {path : List (List ℤ)}
    (hpack : ∀ tokens ∈ path, Packable tokens) (hB : ∀ b ∈ pathBuffers blake2b path, b ∈ B)
    {nodes : List RadixNodeDescriptor} (hchain : a.IsChain (pathHash blake2b path).toNat nodes)
    {i : ℕ} {desc : RadixNodeDescriptor} (hi : nodes[i]? = some desc) :
    desc.nodeHash = pathHash blake2b
        (path ++ (nodes.take (i + 1)).map RadixNodeDescriptor.tokenIds) ∧
      (∀ tokens ∈ path ++ (nodes.take (i + 1)).map RadixNodeDescriptor.tokenIds, Packable tokens) ∧
      ∀ b ∈ pathBuffers blake2b (path ++ (nodes.take (i + 1)).map RadixNodeDescriptor.tokenIds),
        b ∈ B := by
  induction nodes generalizing path i with
  | nil => simp at hi
  | cons first nodes ih =>
    obtain ⟨⟨key, hkey⟩, hparent, hrest⟩ := hchain
    obtain ⟨hhash, hpack', hB'⟩ := h.pathHash_concat hkey hparent hpack hB
    cases i with
    | zero =>
      obtain rfl := Option.some.inj hi
      exact ⟨hhash, hpack', hB'⟩
    | succ i =>
      rw [hhash] at hrest
      have hlater := ih hpack' hB' hrest hi
      rw [List.append_assoc] at hlater
      exact hlater

/-- **The search is sound and ends.**  After any registrations whose parents are the root or were
registered before, the search ends, whatever the prompt and the limit are.  The nodes are a chain
whose tokens are the first ones of the prompt, the path of each of them is the part of the chain
down to it and no other, and no node that has been registered below the last of them goes on with
the prompt, unless the limit has been reached. -/
theorem findMatchingNodes_sound (hapart : HashesApart blake2b (registeredBuffers ops))
    (hparents : ParentsFirst blake2b ops) (promptTokens : List ℤ) (maxTokens : Option ℤ) :
    ∃ m nodes, (∀ fuel, ops.length < fuel →
        (registerAll blake2b ops).findMatchingNodes fuel promptTokens maxTokens = some (m, nodes)) ∧
      (registerAll blake2b ops).IsChain 0 nodes ∧ pathTokens nodes = promptTokens.take m ∧
      m = (pathTokens nodes).length ∧
      (∀ i desc, nodes[i]? = some desc →
        (∃ path, RegisteredPath blake2b ops desc.nodeHash path) ∧
          ∀ path, RegisteredPath blake2b ops desc.nodeHash path →
            path = (nodes.take (i + 1)).map RadixNodeDescriptor.tokenIds) ∧
      (maxTokens.getD promptTokens.length ≤ m ∨
        ∀ r ∈ ops, Hashable r.parentHash r.tokenIds → r.parentHash = lastHash nodes →
          ¬ r.tokenIds <+: promptTokens.drop m) := by
  have hindexed := @indexed_registerAll blake2b _ _ (Set.Subset.refl (registeredBuffers ops))
  have hends (fuel : ℕ) (hfuel : ops.length < fuel) := findMatchingNodes_ends hindexed hapart
    ((length_items_registerAll_le blake2b ops).trans_lt hfuel) promptTokens maxTokens
  obtain ⟨⟨m, nodes⟩, hfind⟩ := hends _ (Nat.lt_succ_self _)
  have hall : ∀ fuel, ops.length < fuel →
      (registerAll blake2b ops).findMatchingNodes fuel promptTokens maxTokens =
        some (m, nodes) := by
    intro fuel hfuel
    obtain ⟨found, hfound⟩ := hends fuel hfuel
    rw [hfound, findMatchingNodes_unique hfound hfind]
  obtain ⟨hrun, rfl⟩ := findMatchingNodes_eq_some_iff.mp hfind
  obtain ⟨hwalk, hstop⟩ := Greedy.run_eq_some hrun
  obtain ⟨⟨hchain, hpre⟩, hsum⟩ := FirstChoices.matching hindexed hwalk
  have hplace := dest_snd (0, 0) nodes
  rw [zero_add, hsum] at hplace
  rw [hsum] at hall
  refine ⟨_, nodes, hall, hchain, List.prefix_iff_eq_take.mp hpre, rfl, ?_, ?_⟩
  · intro i desc hi
    have hroot : (registerAll blake2b ops).IsChain (pathHash blake2b []).toNat nodes := hchain
    obtain ⟨hhash, hpack, hB⟩ := hroot.pathHash_eq hindexed (by simp)
      (by simp [pathBuffers, HashChain.buffers]) hi
    rw [List.nil_append] at hhash hpack hB
    refine ⟨?_, fun path hpath => hpath.unique hapart hhash hpack hB⟩
    obtain ⟨key, hkey⟩ := hchain.registered (List.mem_of_getElem? hi)
    obtain ⟨rfl, r, hr, -, -, hr'⟩ := exists_registered hkey
    exact hparents.exists_path hr hr'
  · rw [or_iff_not_imp_left, not_le]
    intro hlimit r hr hfits hparent hcontinues
    obtain ⟨desc, hkey, hparent', htokens⟩ := exists_lookupNode hapart.1 hr hfits
    rw [← hparent'] at hparent
    rw [← htokens] at hcontinues
    have hnum := (hindexed _ desc hkey).2.1
    have hfirst := hcontinues.length_le
    rw [List.length_drop] at hfirst
    have hpre' := hpre.length_le
    have hwindow : window promptTokens (pathTokens nodes).length desc.numTokens =
        desc.tokenIds := by
      rw [hnum, window]
      exact (List.prefix_iff_eq_take.mp hcontinues).symm
    obtain ⟨best, hbest⟩ := bestNode_isSome hkey hparent (by omega) hwindow
    rw [nextNode, hplace, if_pos hlimit, dest_fst, hbest] at hstop
    cases hstop

/-! ### Two nodes, one below the other -/

/-- A child of the root and a child of this child. -/
def branch : List RegisterArgs :=
  [⟨1, [1], 0, []⟩, ⟨2, [2], 0xc6714aa2da6dbef0, []⟩]

/-- The hash function on the buffers of the two nodes. -/
def branchDigest (b : Bytes) : UInt64 :=
  if b = nodeBuffer 0 [1] then 0xc6714aa2da6dbef0 else 0xc57a706bb1647d61

/-- The hash function tells the two nodes apart. -/
lemma hashesApart_branch : HashesApart branchDigest (registeredBuffers branch) := by
  refine hashesApart_of_nodup (branch.map fun r => nodeBuffer r.parentHash r.tokenIds) ?_
    (by decide)
  rintro b ⟨r, hr, -, rfl⟩
  exact List.mem_map_of_mem hr

/-- The parent of the second node is the first one. -/
lemma parentsFirst_branch : ParentsFirst branchDigest branch := by
  rintro earlier r ⟨rest, heq⟩
  rcases earlier with _ | ⟨first, _ | ⟨second, earlier⟩⟩
  · obtain ⟨rfl, -⟩ := List.cons.inj heq
    exact .inl rfl
  · obtain ⟨rfl, hrest⟩ := List.cons.inj heq
    obtain ⟨rfl, -⟩ := List.cons.inj hrest
    exact .inr ⟨_, List.mem_singleton_self _, 0xc6714aa2da6dbef0, rfl, rfl⟩
  · have hlen := congrArg List.length heq
    simp [branch] at hlen

/-- The search among the two nodes. -/
theorem findMatchingNodes_sound_branch :
    HashesApart branchDigest (registeredBuffers branch) ∧ ParentsFirst branchDigest branch ∧
      ∃ m nodes, (∀ fuel, branch.length < fuel →
          (registerAll branchDigest branch).findMatchingNodes fuel [1, 2, 3] none =
            some (m, nodes)) ∧
        (registerAll branchDigest branch).IsChain 0 nodes ∧ pathTokens nodes = [1, 2, 3].take m ∧
        m = (pathTokens nodes).length ∧
        (∀ i desc, nodes[i]? = some desc →
          (∃ path, RegisteredPath branchDigest branch desc.nodeHash path) ∧
            ∀ path, RegisteredPath branchDigest branch desc.nodeHash path →
              path = (nodes.take (i + 1)).map RadixNodeDescriptor.tokenIds) ∧
        ((none : Option ℤ).getD ([1, 2, 3] : List ℤ).length ≤ m ∨
          ∀ r ∈ branch, Hashable r.parentHash r.tokenIds → r.parentHash = lastHash nodes →
            ¬ r.tokenIds <+: [1, 2, 3].drop m) :=
  ⟨hashesApart_branch, parentsFirst_branch,
    findMatchingNodes_sound hashesApart_branch parentsFirst_branch [1, 2, 3] none⟩

end KacheDBRadixAdapter

end KacheDB
