import KacheDB.Exceptions
import KacheDB.Foundation.Dict
import KacheDB.Foundation.HashChain
import KacheDB.Foundation.Windows

/-!
# The radix adapter

`KacheDBRadixAdapter` names a tree node by a hash of its tokens and of the name of its parent, and
keeps a descriptor for each name.  The tree is not stored: `findMatchingNodes` goes down from the
root and takes at each place the first descriptor of the dictionary that goes on with the prompt.

The source's loop has no bound.  Here it takes a number of steps, and `findMatchingNodes_ends`
says that one more than there are descriptors is enough if the hash function tells the nodes
apart: on its way down the loop never meets a name twice.
-/

namespace KacheDB

open Foundation

/-- Metadata descriptor for an evicted tree node. -/
structure RadixNodeDescriptor where
  nodeId : ℤ
  parentHash : ℤ
  nodeHash : UInt64
  tokenIds : List ℤ
  numTokens : ℕ
  layerOffsets : List ℕ

/-- The descriptors by their hashes. -/
structure KacheDBRadixAdapter where
  nodes : Dict UInt64 RadixNodeDescriptor

namespace KacheDBRadixAdapter

/-- No descriptors. -/
def new : KacheDBRadixAdapter :=
  ⟨.empty⟩

/-- The buffer that is hashed for a node: the parent hash, the number of tokens, the tokens. -/
def nodeBuffer (parentHash : ℤ) (tokenIds : List ℤ) : Bytes :=
  littleEndian 8 parentHash.toNat ++ (littleEndian 4 tokenIds.length ++ packU32s tokenIds)

/-- The tokens and their number fit into their fields. -/
def Packable (tokenIds : List ℤ) : Prop :=
  tokenIds.length < 2 ^ 32 ∧ ∀ tid ∈ tokenIds, FitsU32 tid

/-- What is hashed for a node fits into its fields. -/
def Hashable (parentHash : ℤ) (tokenIds : List ℤ) : Prop :=
  (0 ≤ parentHash ∧ parentHash < 2 ^ 64) ∧ Packable tokenIds

instance (tokenIds : List ℤ) : Decidable (Packable tokenIds) :=
  inferInstanceAs (Decidable (_ ∧ _))

instance (parentHash : ℤ) (tokenIds : List ℤ) : Decidable (Hashable parentHash tokenIds) :=
  inferInstanceAs (Decidable (_ ∧ _))

/-- Compute a deterministic 64-bit hash for a token slice. -/
def computeNodeHash (blake2b : Bytes → UInt64) (tokenIds : List ℤ) (parentHash : ℤ) :
    Except Exc UInt64 :=
  if Hashable parentHash tokenIds then .ok (blake2b (nodeBuffer parentHash tokenIds))
  else .error .structError

/-- Register an evicted node in the descriptor index. -/
def registerNode (blake2b : Bytes → UInt64) (a : KacheDBRadixAdapter) (nodeId : ℤ)
    (tokenIds : List ℤ) (parentHash : ℤ) (layerOffsets : List ℕ) :
    Except Exc RadixNodeDescriptor × KacheDBRadixAdapter :=
  match computeNodeHash blake2b tokenIds parentHash with
  | .error e => (.error e, a)
  | .ok nodeHash =>
    let desc : RadixNodeDescriptor :=
      ⟨nodeId, parentHash, nodeHash, tokenIds, tokenIds.length, layerOffsets⟩
    (.ok desc, ⟨a.nodes.set nodeHash desc⟩)

/-- Look up a node descriptor by its 64-bit hash. -/
def lookupNode (a : KacheDBRadixAdapter) (nodeHash : UInt64) : Option RadixNodeDescriptor :=
  a.nodes.get nodeHash

/-- The first node below `currentParent` whose tokens are the next ones of the prompt. -/
def bestNode (a : KacheDBRadixAdapter) (promptTokens : List ℤ) (currentParent : ℤ)
    (tokenCursor : ℕ) : Option RadixNodeDescriptor :=
  (a.nodes.items.map Prod.snd).find? fun desc =>
    desc.parentHash = currentParent ∧
      tokenCursor + desc.numTokens ≤ promptTokens.length ∧
      window promptTokens tokenCursor desc.numTokens = desc.tokenIds

/-- The loop of `find_matching_nodes`: the number of tokens and the nodes that it adds, `none` if
it has not ended after `fuel` steps. -/
def matchFrom (a : KacheDBRadixAdapter) (promptTokens : List ℤ) (limit : ℤ) :
    ℕ → ℤ → ℕ → Option (ℕ × List RadixNodeDescriptor)
  | 0, _, _ => none
  | fuel + 1, currentParent, tokenCursor =>
    if tokenCursor < limit then
      match a.bestNode promptTokens currentParent tokenCursor with
      | none => some (0, [])
      | some best =>
        match matchFrom a promptTokens limit fuel best.nodeHash.toNat
          (tokenCursor + best.numTokens) with
        | none => none
        | some (matchedTokens, matchedNodes) =>
          some (best.numTokens + matchedTokens, best :: matchedNodes)
    else some (0, [])

/-- Find matching cached tree nodes for a prompt, from the root on. -/
def findMatchingNodes (fuel : ℕ) (a : KacheDBRadixAdapter) (promptTokens : List ℤ)
    (maxTokens : Option ℤ) : Option (ℕ × List RadixNodeDescriptor) :=
  a.matchFrom promptTokens (maxTokens.getD promptTokens.length) fuel 0 0

/-! ## Names of nodes -/

/-- The buffers of nodes that fit are different. -/
lemma nodeBuffer_inj {p p' : ℤ} {tokens tokens' : List ℤ} (h : Hashable p tokens)
    (h' : Hashable p' tokens') (heq : nodeBuffer p tokens = nodeBuffer p' tokens') :
    p = p' ∧ tokens = tokens' := by
  obtain ⟨⟨hp, hlt⟩, -, ht⟩ := h
  obtain ⟨⟨hp', hlt'⟩, -, ht'⟩ := h'
  obtain ⟨hparent, hrest⟩ := List.append_inj heq (by simp)
  obtain ⟨-, htokens⟩ := List.append_inj hrest (by simp)
  have hnat := littleEndian_inj (by omega) (by omega) hparent
  exact ⟨by omega, packU32s_inj ht ht' htokens⟩

/-- The descriptors stand under the hashes of their nodes, which fit and whose buffers are in
`B`. -/
def Indexed (blake2b : Bytes → UInt64) (B : Set Bytes) (a : KacheDBRadixAdapter) : Prop :=
  ∀ h desc, a.lookupNode h = some desc → desc.nodeHash = h ∧
    desc.numTokens = desc.tokenIds.length ∧ Hashable desc.parentHash desc.tokenIds ∧
    h = blake2b (nodeBuffer desc.parentHash desc.tokenIds) ∧
    nodeBuffer desc.parentHash desc.tokenIds ∈ B

/-- The hash function is injective on `B` and gives 0 on none of it. -/
def HashesApart (blake2b : Bytes → UInt64) (B : Set Bytes) : Prop :=
  Set.InjOn blake2b B ∧ ∀ b ∈ B, blake2b b ≠ 0

variable {blake2b : Bytes → UInt64} {B : Set Bytes} {a a' : KacheDBRadixAdapter}

/-- A hash function that tells some buffers apart. -/
lemma hashesApart_of_nodup (bs : List Bytes) (hB : ∀ b ∈ B, b ∈ bs)
    (hnodup : (0 :: bs.map blake2b).Nodup) : HashesApart blake2b B :=
  HashChain.injOn_of_nodup bs hB hnodup

/-- There is nothing to say of no descriptors. -/
lemma indexed_new : Indexed blake2b B new := by
  intro h desc hdesc
  cases hdesc

/-- What registering a node that fits does. -/
lemma registerNode_of_hashable (blake2b : Bytes → UInt64) {tokenIds : List ℤ} {parentHash : ℤ}
    (h : Hashable parentHash tokenIds) (a : KacheDBRadixAdapter) (nodeId : ℤ)
    (layerOffsets : List ℕ) :
    ∃ desc : RadixNodeDescriptor, desc.parentHash = parentHash ∧ desc.tokenIds = tokenIds ∧
      desc.nodeHash = blake2b (nodeBuffer parentHash tokenIds) ∧
      desc.numTokens = tokenIds.length ∧ desc.layerOffsets = layerOffsets ∧
      a.registerNode blake2b nodeId tokenIds parentHash layerOffsets =
        (.ok desc, ⟨a.nodes.set (blake2b (nodeBuffer parentHash tokenIds)) desc⟩) := by
  refine ⟨⟨nodeId, parentHash, _, tokenIds, _, layerOffsets⟩, rfl, rfl, rfl, rfl, rfl, ?_⟩
  rw [registerNode, computeNodeHash, if_pos h]

/-- Registering a node keeps the descriptors under their hashes. -/
lemma Indexed.set (h : a.Indexed blake2b B) {desc : RadixNodeDescriptor}
    (hhash : desc.nodeHash = blake2b (nodeBuffer desc.parentHash desc.tokenIds))
    (hnum : desc.numTokens = desc.tokenIds.length)
    (hfits : Hashable desc.parentHash desc.tokenIds)
    (hB : nodeBuffer desc.parentHash desc.tokenIds ∈ B) :
    Indexed blake2b B
      ⟨a.nodes.set (blake2b (nodeBuffer desc.parentHash desc.tokenIds)) desc⟩ := by
  intro key desc' hdesc'
  by_cases hkey : key = blake2b (nodeBuffer desc.parentHash desc.tokenIds)
  · rw [hkey, lookupNode, Dict.get_set_self] at hdesc'
    obtain rfl := Option.some.inj hdesc'
    exact ⟨hhash.trans hkey.symm, hnum, hfits, hkey, hB⟩
  · rw [lookupNode, Dict.get_set_of_ne _ hkey] at hdesc'
    exact h key desc' hdesc'

/-! ## The way down -/

/-- A node that is taken is registered, it hangs below the parent, and its tokens are the next
ones of the prompt. -/
lemma bestNode_eq_some {promptTokens : List ℤ} {currentParent : ℤ} {tokenCursor : ℕ}
    {desc : RadixNodeDescriptor}
    (h : a.bestNode promptTokens currentParent tokenCursor = some desc) :
    (∃ key, a.lookupNode key = some desc) ∧ desc.parentHash = currentParent ∧
      tokenCursor + desc.numTokens ≤ promptTokens.length ∧
      window promptTokens tokenCursor desc.numTokens = desc.tokenIds := by
  refine ⟨?_, by simpa using List.find?_some h⟩
  obtain ⟨item, hitem, rfl⟩ := List.mem_map.mp (List.mem_of_find?_eq_some h)
  exact ⟨item.1, Dict.get_eq_some_iff.mpr hitem⟩

/-- If some registered node goes on with the prompt, one is taken. -/
lemma bestNode_isSome {promptTokens : List ℤ} {currentParent : ℤ} {tokenCursor : ℕ}
    {key : UInt64} {desc : RadixNodeDescriptor} (hkey : a.lookupNode key = some desc)
    (hparent : desc.parentHash = currentParent)
    (hfits : tokenCursor + desc.numTokens ≤ promptTokens.length)
    (htokens : window promptTokens tokenCursor desc.numTokens = desc.tokenIds) :
    ∃ best, a.bestNode promptTokens currentParent tokenCursor = some best := by
  apply Option.isSome_iff_exists.mp
  rw [bestNode, List.find?_isSome]
  refine ⟨desc, List.mem_map.mpr ⟨(key, desc), Dict.get_eq_some_iff.mp hkey, rfl⟩, ?_⟩
  simpa using ⟨hparent, hfits, htokens⟩

/-- The matched nodes are registered, and the number of matched tokens is that of their tokens. -/
lemma matchFrom_spec {promptTokens : List ℤ} {limit : ℤ} {fuel : ℕ} {currentParent : ℤ}
    {tokenCursor : ℕ} {found : ℕ × List RadixNodeDescriptor}
    (h : a.matchFrom promptTokens limit fuel currentParent tokenCursor = some found) :
    found.1 = (found.2.map RadixNodeDescriptor.numTokens).sum ∧
      ∀ desc ∈ found.2, ∃ key, a.lookupNode key = some desc := by
  induction fuel generalizing currentParent tokenCursor found with
  | zero => cases h
  | succ fuel ih =>
    rw [matchFrom] at h
    split_ifs at h
    · split at h
      · obtain rfl := Option.some.inj h
        exact ⟨rfl, by simp⟩
      · next best hbest =>
        split at h
        · cases h
        · next matchedTokens matchedNodes hrest =>
          obtain rfl := Option.some.inj h
          obtain ⟨hsum, hnodes⟩ := ih hrest
          refine ⟨?_, List.forall_mem_cons.mpr ⟨(bestNode_eq_some hbest).1, hnodes⟩⟩
          rw [List.map_cons, List.sum_cons, ← hsum]
    · obtain rfl := Option.some.inj h
      exact ⟨rfl, by simp⟩

/-- Not more tokens are matched than the prompt has. -/
lemma matchFrom_le {promptTokens : List ℤ} {limit : ℤ} {fuel : ℕ} {currentParent : ℤ}
    {tokenCursor : ℕ} {found : ℕ × List RadixNodeDescriptor}
    (hcursor : tokenCursor ≤ promptTokens.length)
    (h : a.matchFrom promptTokens limit fuel currentParent tokenCursor = some found) :
    tokenCursor + found.1 ≤ promptTokens.length := by
  induction fuel generalizing currentParent tokenCursor found with
  | zero => cases h
  | succ fuel ih =>
    rw [matchFrom] at h
    split_ifs at h
    · split at h
      · obtain rfl := Option.some.inj h
        exact hcursor
      · next best hbest =>
        split at h
        · cases h
        · next matchedTokens matchedNodes hrest =>
          obtain rfl := Option.some.inj h
          obtain ⟨-, -, hfits, -⟩ := bestNode_eq_some hbest
          have hle := ih hfits hrest
          simp only at hle ⊢
          omega
    · obtain rfl := Option.some.inj h
      exact hcursor

/-- If a node can be taken first, it is the first of the matched nodes. -/
lemma matchFrom_cons {promptTokens : List ℤ} {limit : ℤ} {fuel : ℕ} {currentParent : ℤ}
    {tokenCursor : ℕ} {found : ℕ × List RadixNodeDescriptor}
    (h : a.matchFrom promptTokens limit fuel currentParent tokenCursor = some found)
    (hlimit : (tokenCursor : ℤ) < limit) {best : RadixNodeDescriptor}
    (hbest : a.bestNode promptTokens currentParent tokenCursor = some best) :
    ∃ rest, found.2 = best :: rest := by
  cases fuel with
  | zero => cases h
  | succ fuel =>
    rw [matchFrom, if_pos hlimit] at h
    simp only [hbest] at h
    split at h
    · cases h
    · obtain rfl := Option.some.inj h
      exact ⟨_, rfl⟩

/-- The first of the matched nodes is the one that is taken first. -/
lemma bestNode_of_matchFrom {promptTokens : List ℤ} {limit : ℤ} {fuel : ℕ} {currentParent : ℤ}
    {tokenCursor m : ℕ} {best : RadixNodeDescriptor} {rest : List RadixNodeDescriptor}
    (h : a.matchFrom promptTokens limit fuel currentParent tokenCursor = some (m, best :: rest)) :
    a.bestNode promptTokens currentParent tokenCursor = some best := by
  cases fuel with
  | zero => cases h
  | succ fuel =>
    rw [matchFrom] at h
    split_ifs at h
    · split at h
      · cases h
      · next first hfirst =>
        split at h
        · cases h
        · obtain ⟨-, hnodes⟩ := Prod.mk.inj (Option.some.inj h)
          rw [hfirst, (List.cons.inj hnodes).1]
    · cases h

/-- The node that covers a position, counted from the first of these nodes on, and the position
within the node. -/
def cover : List RadixNodeDescriptor → ℕ → Option (RadixNodeDescriptor × ℕ)
  | [], _ => none
  | desc :: nodes, t =>
    if t < desc.numTokens then some (desc, t) else cover nodes (t - desc.numTokens)

/-! ## The loop ends -/

/-- The name at the end of a path from the root, given by the tokens of its nodes. -/
def pathHash (blake2b : Bytes → UInt64) (path : List (List ℤ)) : UInt64 :=
  HashChain.tip blake2b (fun h tokens => nodeBuffer h.toNat tokens) 0 path

/-- The names along a path. -/
def pathHashes (blake2b : Bytes → UInt64) (path : List (List ℤ)) : List UInt64 :=
  HashChain.hashes blake2b (fun h tokens => nodeBuffer h.toNat tokens) 0 path

/-- The buffers that are hashed along a path. -/
def pathBuffers (blake2b : Bytes → UInt64) (path : List (List ℤ)) : List Bytes :=
  HashChain.buffers blake2b (fun h tokens => nodeBuffer h.toNat tokens) 0 path

/-- A name fits into the field of a parent hash. -/
lemma hashable_toNat (h : UInt64) {tokens : List ℤ} (ht : Packable tokens) :
    Hashable h.toNat tokens := by
  have hlt := h.toNat_lt
  exact ⟨by omega, ht⟩

/-- The buffers of nodes below names are different. -/
lemma nodeBuffer_toNat_inj (h : UInt64) (tokens : List ℤ) (h' : UInt64) (tokens' : List ℤ)
    (ht : Packable tokens) (ht' : Packable tokens')
    (heq : nodeBuffer h.toNat tokens = nodeBuffer h'.toNat tokens') :
    h = h' ∧ tokens = tokens' := by
  obtain ⟨hh, htokens⟩ := nodeBuffer_inj (hashable_toNat h ht) (hashable_toNat h' ht') heq
  exact ⟨UInt64.toNat_inj.mp (by exact_mod_cast hh), htokens⟩

/-- A name is that of one path only. -/
lemma pathHash_inj (hapart : HashesApart blake2b B) {path path' : List (List ℤ)}
    (hpack : ∀ tokens ∈ path, Packable tokens) (hpack' : ∀ tokens ∈ path', Packable tokens)
    (hB : ∀ b ∈ pathBuffers blake2b path, b ∈ B) (hB' : ∀ b ∈ pathBuffers blake2b path', b ∈ B)
    (heq : pathHash blake2b path = pathHash blake2b path') : path = path' :=
  HashChain.tip_inj hapart.1 hapart.2 nodeBuffer_toNat_inj hpack hpack' hB hB' heq

/-- The names along a path are different. -/
lemma nodup_pathHashes (hapart : HashesApart blake2b B) {path : List (List ℤ)}
    (hpack : ∀ tokens ∈ path, Packable tokens) (hB : ∀ b ∈ pathBuffers blake2b path, b ∈ B) :
    (pathHashes blake2b path).Nodup :=
  HashChain.nodup_hashes hapart.1 hapart.2 nodeBuffer_toNat_inj hpack hB

/-- A path of registered nodes is not longer than there are nodes. -/
lemma length_path_le (hapart : HashesApart blake2b B) {path : List (List ℤ)}
    (hpack : ∀ tokens ∈ path, Packable tokens) (hB : ∀ b ∈ pathBuffers blake2b path, b ∈ B)
    (hnodes : ∀ h ∈ pathHashes blake2b path, (a.lookupNode h).isSome) :
    path.length ≤ a.nodes.items.length := by
  have hsub : pathHashes blake2b path ⊆ a.nodes.items.map Prod.fst := by
    intro h hh
    obtain ⟨desc, hdesc⟩ := Option.isSome_iff_exists.mp (hnodes h hh)
    exact List.mem_map.mpr ⟨(h, desc), Dict.get_eq_some_iff.mp hdesc, rfl⟩
  have hle := ((nodup_pathHashes hapart hpack hB).subperm hsub).length_le
  rwa [pathHashes, HashChain.length_hashes, List.length_map] at hle

/-- One node further down a path. -/
lemma Indexed.pathHash_concat (h : a.Indexed blake2b B) {key : UInt64} {desc : RadixNodeDescriptor}
    (hkey : a.lookupNode key = some desc) {path : List (List ℤ)}
    (hparent : desc.parentHash = (pathHash blake2b path).toNat)
    (hpack : ∀ tokens ∈ path, Packable tokens) (hB : ∀ b ∈ pathBuffers blake2b path, b ∈ B) :
    desc.nodeHash = pathHash blake2b (path ++ [desc.tokenIds]) ∧
      (∀ tokens ∈ path ++ [desc.tokenIds], Packable tokens) ∧
      ∀ b ∈ pathBuffers blake2b (path ++ [desc.tokenIds]), b ∈ B := by
  obtain ⟨hhash, -, hfits, hdigest, hmem⟩ := h key desc hkey
  rw [hparent] at hdigest hmem
  refine ⟨?_, ?_, ?_⟩
  · rw [hhash, hdigest, pathHash, pathHash, HashChain.tip_concat]
  · intro tokens htokens
    rcases List.mem_append.mp htokens with htokens | htokens
    · exact hpack tokens htokens
    · rw [List.mem_singleton.mp htokens]
      exact hfits.2
  · intro b hb
    rw [pathBuffers, HashChain.buffers_append] at hb
    rcases List.mem_append.mp hb with hb | hb
    · exact hB b hb
    · rw [List.mem_singleton.mp hb]
      exact hmem

/-- A loop that has not ended has come down as many nodes as it has made steps. -/
lemma length_le_of_matchFrom (h : a.Indexed blake2b B) (hapart : HashesApart blake2b B)
    {promptTokens : List ℤ} {limit : ℤ} {fuel tokenCursor : ℕ} {path : List (List ℤ)}
    (hpack : ∀ tokens ∈ path, Packable tokens) (hB : ∀ b ∈ pathBuffers blake2b path, b ∈ B)
    (hnodes : ∀ h ∈ pathHashes blake2b path, (a.lookupNode h).isSome)
    (hnone : a.matchFrom promptTokens limit fuel (pathHash blake2b path).toNat tokenCursor =
      none) :
    path.length + fuel ≤ a.nodes.items.length := by
  induction fuel generalizing path tokenCursor with
  | zero => exact length_path_le hapart hpack hB hnodes
  | succ fuel ih =>
    rw [matchFrom] at hnone
    split_ifs at hnone
    split at hnone
    · cases hnone
    · next best hbest =>
      split at hnone
      · next hrest =>
        obtain ⟨⟨key, hkey⟩, hparent, -, -⟩ := bestNode_eq_some hbest
        -- one node further down
        obtain ⟨htip, hpack', hB'⟩ := h.pathHash_concat hkey hparent hpack hB
        rw [htip] at hrest
        have hlen := ih hpack' hB' ?_ hrest
        · rw [List.length_append, List.length_singleton] at hlen
          omega
        · intro hsh hmem
          rw [pathHashes, HashChain.hashes_concat] at hmem
          rcases List.mem_append.mp hmem with hmem | hmem
          · exact hnodes hsh hmem
          · have hlast : hsh = best.nodeHash := by
              rw [List.mem_singleton.mp hmem, htip, pathHash, HashChain.tip_concat]
            rw [hlast, (h key best hkey).1, hkey]
            rfl
      · cases hnone

/-- **The search ends.**  If the hash function tells the nodes apart, one step more than there
are descriptors is enough. -/
theorem findMatchingNodes_ends (h : a.Indexed blake2b B) (hapart : HashesApart blake2b B)
    {fuel : ℕ} (hfuel : a.nodes.items.length < fuel) (promptTokens : List ℤ)
    (maxTokens : Option ℤ) :
    ∃ found, a.findMatchingNodes fuel promptTokens maxTokens = some found := by
  rw [← Option.isSome_iff_exists, ← Option.ne_none_iff_isSome]
  intro hnone
  have hlen : ([] : List (List ℤ)).length + fuel ≤ a.nodes.items.length :=
    length_le_of_matchFrom h hapart (by simp) (by simp [pathBuffers, HashChain.buffers])
      (by simp [pathHashes, HashChain.hashes]) hnone
  rw [List.length_nil] at hlen
  omega

end KacheDBRadixAdapter

end KacheDB
