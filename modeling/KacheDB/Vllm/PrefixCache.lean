import KacheDB.Exceptions
import KacheDB.Foundation.Dict
import KacheDB.Foundation.HashChain

/-!
# The prefix index

`KacheDBPrefixCache` cuts a prompt into blocks of `block_size` tokens and names each block by a
hash of its tokens and of the name of the block before it.  The index is keyed by these names.
Entries are never removed.

The hash function is the parameter `blake2b`: the digest of eight bytes, read as a little-endian
number.  In the terms of the library the names are the hash chain of the blocks of a prompt.
-/

namespace KacheDB

open Foundation

/-- The `metadata` of an entry: a dictionary of which two keys are used. -/
structure BlockMetadata where
  layerOffsets : Option (List ℕ)
  numLayers : Option ℕ

/-- An entry of the index. -/
structure BlockEntry where
  blockId : ℕ
  numTokens : ℕ
  metadata : BlockMetadata

/-- The prefix index. -/
structure KacheDBPrefixCache where
  blockSize : ℕ
  index : Dict UInt64 BlockEntry

namespace KacheDBPrefixCache

/-- An empty index. -/
def new (blockSize : ℕ) : KacheDBPrefixCache :=
  ⟨blockSize, .empty⟩

/-- The buffer that is hashed for a block: the parent hash and the tokens. -/
def blockBuffer (parentHash : UInt64) (tokenIds : List ℤ) : Bytes :=
  littleEndian 8 parentHash.toNat ++ packU32s tokenIds

/-- Compute a deterministic 64-bit hash for a token block chained to its parent. -/
def computeBlockHash (blake2b : Bytes → UInt64) (tokenIds : List ℤ) (parentHash : UInt64) :
    Except Exc UInt64 :=
  if ∀ tid ∈ tokenIds, FitsU32 tid then .ok (blake2b (blockBuffer parentHash tokenIds))
  else .error .structError

/-- The blocks of a prompt; tokens behind the last full block are left out. -/
def chunks (blockSize : ℕ) (promptTokens : List ℤ) : List (List ℤ) :=
  (List.range (promptTokens.length / blockSize)).map fun b =>
    window promptTokens (b * blockSize) blockSize

/-- The hashes of blocks that follow a block with the hash `currentHash`. -/
def chainHashes (blake2b : Bytes → UInt64) : UInt64 → List (List ℤ) → Except Exc (List UInt64)
  | _, [] => .ok []
  | currentHash, chunk :: rest =>
    match computeBlockHash blake2b chunk currentHash with
    | .error e => .error e
    | .ok h =>
      match chainHashes blake2b h rest with
      | .error e => .error e
      | .ok hashes => .ok (h :: hashes)

/-- Compute chained block hashes for an entire prompt token sequence. -/
def computeSequenceHashes (blake2b : Bytes → UInt64) (c : KacheDBPrefixCache)
    (promptTokens : List ℤ) : Except Exc (List UInt64) :=
  if c.blockSize = 0 then .error .zeroDivisionError
  else chainHashes blake2b 0 (chunks c.blockSize promptTokens)

/-- Register a cached block in the local prefix index. -/
def registerBlock (c : KacheDBPrefixCache) (prefixHash : UInt64) (blockId numTokens : ℕ)
    (metadata : BlockMetadata) : KacheDBPrefixCache :=
  { c with index := c.index.set prefixHash ⟨blockId, numTokens, metadata⟩ }

/-- Look up a block in the prefix index by its chained hash. -/
def lookupBlock (c : KacheDBPrefixCache) (prefixHash : UInt64) : Option BlockEntry :=
  c.index.get prefixHash

/-- The loop of `find_longest_prefix`: the entries up to the first hash without one, and
`block_size` for each of them. -/
def matchHashes (c : KacheDBPrefixCache) : List UInt64 → ℕ × List BlockEntry
  | [] => (0, [])
  | h :: hashes =>
    match c.lookupBlock h with
    | none => (0, [])
    | some entry =>
      let (matchedTokens, matchedBlocks) := matchHashes c hashes
      (c.blockSize + matchedTokens, entry :: matchedBlocks)

/-- Find the longest matching prefix for a prompt: the number of its tokens and its entries. -/
def findLongestPrefix (blake2b : Bytes → UInt64) (c : KacheDBPrefixCache)
    (promptTokens : List ℤ) : Except Exc (ℕ × List BlockEntry) :=
  match c.computeSequenceHashes blake2b promptTokens with
  | .error e => .error e
  | .ok hashes => .ok (c.matchHashes hashes)

/-- The number of matched tokens is that of the matched blocks. -/
lemma matchHashes_tokens (c : KacheDBPrefixCache) (hashes : List UInt64) :
    (c.matchHashes hashes).1 = (c.matchHashes hashes).2.length * c.blockSize := by
  induction hashes with
  | nil => simp [matchHashes]
  | cons h hashes ih =>
    unfold matchHashes
    split
    · simp
    · simp only [ih, List.length_cons]
      ring

/-- A matched block is the entry of its hash. -/
lemma getElem?_matchHashes {c : KacheDBPrefixCache} {hashes : List UInt64} {j : ℕ}
    {entry : BlockEntry} (h : (c.matchHashes hashes).2[j]? = some entry) :
    ∃ prefixH, hashes[j]? = some prefixH ∧ c.lookupBlock prefixH = some entry := by
  induction hashes generalizing j with
  | nil => simp [matchHashes] at h
  | cons first hashes ih =>
    unfold matchHashes at h
    split at h
    · simp at h
    · next entry' hentry =>
      cases j with
      | zero =>
        obtain rfl := Option.some.inj h
        exact ⟨first, rfl, hentry⟩
      | succ j => exact ih h

/-- The first blocks of a prompt are matched, if they have entries. -/
lemma getElem?_matchHashes_append {c : KacheDBPrefixCache} {hashes : List UInt64}
    (h : ∀ x ∈ hashes, (c.lookupBlock x).isSome) (more : List UInt64) {j : ℕ} {x : UInt64}
    (hj : hashes[j]? = some x) : (c.matchHashes (hashes ++ more)).2[j]? = c.lookupBlock x := by
  induction hashes generalizing j with
  | nil => cases hj
  | cons first hashes ih =>
    obtain ⟨hfirst, hrest⟩ := List.forall_mem_cons.mp h
    obtain ⟨entry, hentry⟩ := Option.isSome_iff_exists.mp hfirst
    rw [List.cons_append, matchHashes]
    simp only [hentry]
    cases j with
    | zero =>
      obtain rfl := Option.some.inj hj
      exact hentry.symm
    | succ j => exact ih hrest hj

/-- Not more blocks are matched than there are. -/
lemma length_matchHashes_le (c : KacheDBPrefixCache) (hashes : List UInt64) :
    (c.matchHashes hashes).2.length ≤ hashes.length := by
  by_contra hlt
  obtain ⟨entry, hentry⟩ : ∃ entry, (c.matchHashes hashes).2[hashes.length]? = some entry :=
    ⟨_, List.getElem?_eq_getElem (by omega)⟩
  obtain ⟨prefixH, hh, -⟩ := getElem?_matchHashes hentry
  simp at hh

/-- If exactly the first `n` hashes have an entry, `n` blocks are matched. -/
lemma length_matchHashes {c : KacheDBPrefixCache} {hashes : List UInt64} {n : ℕ}
    (hn : n ≤ hashes.length)
    (h : ∀ j prefixH, hashes[j]? = some prefixH → ((c.lookupBlock prefixH).isSome ↔ j < n)) :
    (c.matchHashes hashes).2.length = n := by
  induction hashes generalizing n with
  | nil => exact (Nat.le_zero.mp hn).symm
  | cons first hashes ih =>
    have hfirst := h 0 first rfl
    unfold matchHashes
    split
    · next hnone =>
      rw [hnone] at hfirst
      have hzero : ¬ 0 < n := fun hpos => absurd (hfirst.mpr hpos) (by simp)
      simpa using (Nat.eq_zero_of_not_pos hzero).symm
    · next entry hentry =>
      rw [hentry] at hfirst
      obtain ⟨m, rfl⟩ := Nat.exists_eq_succ_of_ne_zero (hfirst.mp rfl).ne'
      have hrest := ih (n := m) (by simpa using hn) fun j prefixH hj => by
        rw [h (j + 1) prefixH hj, Nat.succ_lt_succ_iff]
      simpa using hrest

/-! ## Names of prefixes -/

/-- The name of a list of blocks. -/
def prefixHash (blake2b : Bytes → UInt64) (blocks : List (List ℤ)) : UInt64 :=
  HashChain.tip blake2b blockBuffer 0 blocks

/-- The name of some blocks and one more. -/
lemma prefixHash_concat (blake2b : Bytes → UInt64) (blocks : List (List ℤ)) (chunk : List ℤ) :
    prefixHash blake2b (blocks ++ [chunk]) =
      blake2b (blockBuffer (prefixHash blake2b blocks) chunk) :=
  HashChain.tip_concat blake2b blockBuffer 0 blocks chunk

/-- All tokens fit into their fields. -/
def Packable (blocks : List (List ℤ)) : Prop :=
  ∀ chunk ∈ blocks, ∀ tid ∈ chunk, FitsU32 tid

instance (blocks : List (List ℤ)) : Decidable (Packable blocks) :=
  inferInstanceAs (Decidable (∀ chunk ∈ blocks, ∀ tid ∈ chunk, FitsU32 tid))

variable {blake2b : Bytes → UInt64}

/-- The chained hashes of blocks whose tokens fit. -/
lemma chainHashes_of_packable {blocks : List (List ℤ)} (hp : Packable blocks) (h : UInt64) :
    chainHashes blake2b h blocks = .ok (HashChain.hashes blake2b blockBuffer h blocks) := by
  induction blocks generalizing h with
  | nil => rfl
  | cons chunk rest ih =>
    obtain ⟨hchunk, hrest⟩ := List.forall_mem_cons.mp hp
    rw [chainHashes, computeBlockHash, if_pos hchunk]
    simp only [ih hrest, HashChain.hashes]

/-- A token that does not fit raises `struct.error`. -/
lemma chainHashes_of_not_packable {blocks : List (List ℤ)} (hp : ¬ Packable blocks)
    (h : UInt64) : chainHashes blake2b h blocks = .error .structError := by
  induction blocks generalizing h with
  | nil => exact absurd (by simp [Packable]) hp
  | cons chunk rest ih =>
    rw [chainHashes, computeBlockHash]
    by_cases hchunk : ∀ tid ∈ chunk, FitsU32 tid
    · have hrest : ¬ Packable rest := fun hr => hp (List.forall_mem_cons.mpr ⟨hchunk, hr⟩)
      rw [if_pos hchunk]
      simp only [ih hrest]
    · rw [if_neg hchunk]

/-- The buffers of blocks whose tokens fit are different. -/
lemma blockBuffer_inj {h h' : UInt64} {chunk chunk' : List ℤ}
    (hc : ∀ tid ∈ chunk, FitsU32 tid) (hc' : ∀ tid ∈ chunk', FitsU32 tid)
    (heq : blockBuffer h chunk = blockBuffer h' chunk') : h = h' ∧ chunk = chunk' := by
  obtain ⟨hhash, htokens⟩ := List.append_inj heq (by simp)
  refine ⟨UInt64.toNat_inj.mp ?_, packU32s_inj hc hc' htokens⟩
  have hlt := h.toNat_lt
  have hlt' := h'.toNat_lt
  exact littleEndian_inj (by omega) (by omega) hhash

/-- The buffers that are hashed for these prompts, where their tokens fit. -/
def builtBuffers (blake2b : Bytes → UInt64) (blockSize : ℕ) (prompts : List (List ℤ)) :
    Set Bytes :=
  {b | ∃ p ∈ prompts, Packable (chunks blockSize p) ∧
    b ∈ HashChain.buffers blake2b blockBuffer 0 (chunks blockSize p)}

/-- The hash function is injective on the buffers that are built for these prompts and gives 0
on none of them. -/
def HashesApart (blake2b : Bytes → UInt64) (blockSize : ℕ) (prompts : List (List ℤ)) : Prop :=
  Set.InjOn blake2b (builtBuffers blake2b blockSize prompts) ∧
    ∀ b ∈ builtBuffers blake2b blockSize prompts, blake2b b ≠ 0

/-- A hash function that tells the buffers of these prompts apart. -/
lemma hashesApart_of_nodup {blockSize : ℕ} {prompts : List (List ℤ)} (bs : List Bytes)
    (hbuilt : ∀ p ∈ prompts, ∀ b ∈ HashChain.buffers blake2b blockBuffer 0 (chunks blockSize p),
      b ∈ bs)
    (hnodup : (0 :: bs.map blake2b).Nodup) : HashesApart blake2b blockSize prompts := by
  refine HashChain.injOn_of_nodup bs ?_ hnodup
  rintro b ⟨p, hp, -, hb⟩
  exact hbuilt p hp b hb

/-- A prefix of one of these prompts. -/
def PrefixOf (blockSize : ℕ) (prompts : List (List ℤ)) (blocks : List (List ℤ)) : Prop :=
  ∃ p ∈ prompts, Packable (chunks blockSize p) ∧ blocks <+: chunks blockSize p

/-- A first part of a prefix is one, too. -/
lemma PrefixOf.of_isPrefix {blockSize : ℕ} {prompts xs ys : List (List ℤ)}
    (h : PrefixOf blockSize prompts ys) (hpre : xs <+: ys) : PrefixOf blockSize prompts xs := by
  obtain ⟨p, hp, hpack, hys⟩ := h
  exact ⟨p, hp, hpack, hpre.trans hys⟩

/-- Different prefixes of these prompts have different names. -/
lemma prefixHash_inj {blockSize : ℕ} {prompts : List (List ℤ)}
    (h : HashesApart blake2b blockSize prompts) {xs ys : List (List ℤ)}
    (hxs : PrefixOf blockSize prompts xs) (hys : PrefixOf blockSize prompts ys)
    (heq : prefixHash blake2b xs = prefixHash blake2b ys) : xs = ys := by
  have hpack {zs : List (List ℤ)} (hzs : PrefixOf blockSize prompts zs) : Packable zs := by
    obtain ⟨p, -, hp, hpre⟩ := hzs
    exact fun chunk hchunk => hp chunk (hpre.subset hchunk)
  have hbuilt {zs : List (List ℤ)} (hzs : PrefixOf blockSize prompts zs) :
      ∀ b ∈ HashChain.buffers blake2b blockBuffer 0 zs,
        b ∈ builtBuffers blake2b blockSize prompts := by
    obtain ⟨p, hmem, hp, hpre⟩ := hzs
    exact fun b hb =>
      ⟨p, hmem, hp, HashChain.buffers_subset_of_isPrefix blake2b blockBuffer 0 hpre hb⟩
  exact HashChain.tip_inj h.1 h.2 (fun _ _ _ _ hx hy => blockBuffer_inj hx hy) (hpack hxs)
    (hpack hys) (hbuilt hxs) (hbuilt hys) heq

end KacheDBPrefixCache

/-! ## Hash functions on a few buffers -/

section Digests

open KacheDBPrefixCache

/-- The hash function on the buffers of the two prompts `[1]` and `[2]`. -/
def oneTokenDigest (b : Bytes) : UInt64 :=
  if b = blockBuffer 0 [1] then 0x49a1b97c1fb87157 else 0x6b450d57ddd274d0

/-- The hash function is as it should be on these buffers. -/
lemma hashesApart_oneTokenDigest {prompts : List (List ℤ)}
    (h : ∀ p ∈ prompts, p = [1] ∨ p = [2]) : HashesApart oneTokenDigest 1 prompts := by
  refine hashesApart_of_nodup [blockBuffer 0 [1], blockBuffer 0 [2]] ?_ (by decide)
  intro p hp
  rcases h p hp with rfl | rfl
  · decide
  · decide

/-- The buffers of the blocks of two prompts that have their first four tokens in common. -/
def sharedBuffers : List Bytes :=
  [blockBuffer 0 [1, 2], blockBuffer 0xff357d852574b4a8 [3, 4],
    blockBuffer 0x9bb8e737cb25b8f4 [5, 6], blockBuffer 0x9bb8e737cb25b8f4 [7, 8]]

/-- The hash function on these buffers. -/
def sharedDigest (b : Bytes) : UInt64 :=
  if b = blockBuffer 0 [1, 2] then 0xff357d852574b4a8
  else if b = blockBuffer 0xff357d852574b4a8 [3, 4] then 0x9bb8e737cb25b8f4
  else if b = blockBuffer 0x9bb8e737cb25b8f4 [5, 6] then 0xf29e2d8178c7a09b
  else 0x4a17cd26208fca2d

/-- The hash function is as it should be on these buffers. -/
lemma hashesApart_sharedDigest {prompts : List (List ℤ)}
    (h : ∀ p ∈ prompts, ∀ b ∈ HashChain.buffers sharedDigest blockBuffer 0 (chunks 2 p),
      b ∈ sharedBuffers) : HashesApart sharedDigest 2 prompts :=
  hashesApart_of_nodup sharedBuffers h (by decide +kernel)

end Digests

end KacheDB
