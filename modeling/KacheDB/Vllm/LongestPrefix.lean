import KacheDB.Foundation.Prefixes
import KacheDB.Vllm.Connector

/-!
# The longest cached prefix

After any sequence of completed calls of `send_kv_caches_and_hidden_states`, the index has an
entry for every prefix of whole blocks of the prompts and for nothing else, and the entry of a
prefix was registered by the first call with this prefix (`Indexed`).  It follows that
`find_longest_prefix` finds the longest common prefix of the query with any of the prompts, in
whole blocks (`findLongestPrefix_longest`).
-/

namespace KacheDB

open Foundation KacheDBPrefixCache

/-- The arguments of one `send_kv_caches_and_hidden_states`. -/
abbrev Send := ModelInput × List KVLayer

/-- The calls are made one after the other, and each returns. -/
def Completed (blake2b : Bytes → UInt64) : KacheDBConnector → List Send → KacheDBConnector → Prop
  | c, [], c' => c' = c
  | c, send :: sends, c' => ∃ c₁,
      c.sendKvCachesAndHiddenStates blake2b send.1 send.2 = (.ok (), c₁) ∧
        Completed blake2b c₁ sends c'

/-! ## Blocks of a prompt -/

section Blocks

variable {blockSize : ℕ} {p q : List ℤ}

@[simp] lemma length_chunks (blockSize : ℕ) (p : List ℤ) :
    (chunks blockSize p).length = p.length / blockSize := by
  simp [chunks]

lemma getElem?_chunks {b : ℕ} (hb : b < p.length / blockSize) :
    (chunks blockSize p)[b]? = some (window p (b * blockSize) blockSize) := by
  simp [chunks, hb]

/-- The first blocks of a prompt hold its first tokens. -/
lemma flatten_take_chunks {k : ℕ} (hk : k ≤ p.length / blockSize) :
    ((chunks blockSize p).take k).flatten = p.take (k * blockSize) := by
  induction k with
  | zero => simp
  | succ k ih =>
    have hb : k < p.length / blockSize := hk
    rw [List.take_add_one, getElem?_chunks hb, List.flatten_append, ih (by omega)]
    simp only [Option.toList_some, List.flatten_singleton]
    rw [take_append_window, add_mul, one_mul]

/-- The blocks of the first tokens of a prompt. -/
lemma chunks_take (hsize : 0 < blockSize) {k : ℕ} (hk : k ≤ p.length / blockSize) :
    chunks blockSize (p.take (k * blockSize)) = (chunks blockSize p).take k := by
  have hle : k * blockSize ≤ p.length :=
    (Nat.mul_le_mul_right _ hk).trans (Nat.div_mul_le_self _ _)
  have hlen : (p.take (k * blockSize)).length / blockSize = k := by
    rw [List.length_take, min_eq_left hle, Nat.mul_div_cancel _ hsize]
  apply List.ext_getElem?
  intro b
  by_cases hb : b < k
  · have hrow : (b + 1) * blockSize ≤ k * blockSize := Nat.mul_le_mul_right _ hb
    rw [getElem?_chunks (by rwa [hlen]), List.getElem?_take_of_lt hb,
      getElem?_chunks (by omega), window_take (by linarith [add_mul b 1 blockSize])]
  · rw [List.getElem?_eq_none (by rw [length_chunks, hlen]; omega),
      List.getElem?_eq_none (by rw [List.length_take]; omega)]

/-- Two prompts have their first blocks in common exactly if they have the tokens of these blocks
in common. -/
lemma take_chunks_prefix_iff (hsize : 0 < blockSize) {k : ℕ} (hk : k ≤ q.length / blockSize) :
    (chunks blockSize q).take k <+: chunks blockSize p ↔ k ≤ lcp p q / blockSize := by
  have hkq : k * blockSize ≤ q.length := (Nat.le_div_iff_mul_le hsize).mp hk
  have hlen : ((chunks blockSize q).take k).length = k := by
    rw [List.length_take, length_chunks, min_eq_left hk]
  rw [Nat.le_div_iff_mul_le hsize, le_lcp_iff]
  constructor
  · intro h
    have hkp : k ≤ p.length / blockSize := by
      have hle := h.length_le
      rwa [hlen, length_chunks] at hle
    have htake := List.prefix_iff_eq_take.mp h
    rw [hlen] at htake
    refine ⟨(Nat.le_div_iff_mul_le hsize).mp hkp, hkq, ?_⟩
    rw [← flatten_take_chunks hkp, ← flatten_take_chunks hk, htake]
  · rintro ⟨hkp, -, htake⟩
    have hkp' : k ≤ p.length / blockSize := (Nat.le_div_iff_mul_le hsize).mpr hkp
    rw [← chunks_take hsize hk, ← htake, chunks_take hsize hkp']
    exact List.take_prefix _ _

/-- A longer prompt begins with the blocks of a shorter one. -/
lemma chunks_isPrefix (hsize : 0 < blockSize) (h : p <+: q) :
    chunks blockSize p <+: chunks blockSize q := by
  have hle : p.length / blockSize ≤ q.length / blockSize := Nat.div_le_div_right h.length_le
  have hmul : p.length / blockSize * blockSize ≤ p.length := Nat.div_mul_le_self _ _
  have htake : p.take (p.length / blockSize * blockSize) =
      q.take (p.length / blockSize * blockSize) := by
    rw [List.prefix_iff_eq_take.mp h, List.take_take, List.length_take,
      min_eq_left h.length_le, min_eq_left hmul]
  have hchunks : chunks blockSize p = (chunks blockSize q).take (p.length / blockSize) := by
    rw [← chunks_take hsize hle, ← htake, chunks_take hsize le_rfl,
      List.take_of_length_le (length_chunks blockSize p).le]
  rw [hchunks]
  exact List.take_prefix _ _

/-- The tokens of the blocks are tokens of the prompt. -/
lemma packable_chunks (h : ∀ tid ∈ q, FitsU32 tid) : Packable (chunks blockSize q) := by
  intro chunk hchunk tid htid
  obtain ⟨b, -, rfl⟩ := List.mem_map.mp hchunk
  exact h tid (List.mem_of_mem_drop (List.mem_of_mem_take htid))

end Blocks

/-! ## What one call registers -/

section OneSend

variable {blake2b : Bytes → UInt64} {kvCaches : List KVLayer}

/-- The loop over the blocks of a prompt, if it ends: the entries that were there stay, every hash
has an entry, and a new entry is that of a hash and has its number. -/
lemma offloadBlocks_index {bIdx : ℕ} {hashes : List UInt64} {c c' : KacheDBConnector}
    (h : KacheDBConnector.offloadBlocks kvCaches bIdx hashes c = (.ok (), c')) :
    c'.blockSize = c.blockSize ∧ c'.prefixCache.blockSize = c.prefixCache.blockSize ∧
      (∀ x entry, c.prefixCache.lookupBlock x = some entry →
        c'.prefixCache.lookupBlock x = some entry) ∧
      (∀ x ∈ hashes, (c'.prefixCache.lookupBlock x).isSome) ∧
      ∀ x entry, c.prefixCache.lookupBlock x = none → c'.prefixCache.lookupBlock x = some entry →
        ∃ k, hashes[k]? = some x ∧ entry.blockId = bIdx + k := by
  induction hashes generalizing bIdx c with
  | nil =>
    obtain rfl := (Prod.mk.inj h).2
    refine ⟨rfl, rfl, fun _ _ hx => hx, by simp, fun x entry hnone hsome => ?_⟩
    rw [hnone] at hsome
    cases hsome
  | cons first hashes ih =>
    rw [KacheDBConnector.offloadBlocks] at h
    cases hlookup : c.prefixCache.lookupBlock first with
    | some entry₀ =>
      simp only [hlookup] at h
      obtain ⟨hsize, hcache, hold, hall, hnew⟩ := ih h
      refine ⟨hsize, hcache, hold, ?_, fun x entry hnone hsome => ?_⟩
      · rw [List.forall_mem_cons]
        exact ⟨by rw [hold first entry₀ hlookup]; rfl, hall⟩
      · obtain ⟨k, hk, hid⟩ := hnew x entry hnone hsome
        exact ⟨k + 1, hk, by rw [hid]; ring⟩
    | none =>
      simp only [hlookup] at h
      rcases hlayers : KacheDBConnector.offloadLayers c.blockSize bIdx first 0 kvCaches
        c.memoryManager with ⟨e | offsets, m⟩
      · simp [hlayers] at h
      · simp only [hlayers] at h
        obtain ⟨hsize, hcache, hold, hall, hnew⟩ := ih h
        -- the block that has just been registered
        have hfirst : c'.prefixCache.lookupBlock first =
            some ⟨bIdx, c.blockSize, ⟨some offsets, some kvCaches.length⟩⟩ :=
          hold first _ (Dict.get_set_self _ _ _)
        refine ⟨hsize, hcache, fun x entry hx => ?_, ?_, fun x entry hnone hsome => ?_⟩
        · have hne : x ≠ first := by
            rintro rfl
            rw [hlookup] at hx
            cases hx
          exact hold x entry ((Dict.get_set_of_ne _ hne _).trans hx)
        · rw [List.forall_mem_cons]
          exact ⟨by rw [hfirst]; rfl, hall⟩
        · by_cases heq : x = first
          · subst heq
            rw [hfirst] at hsome
            obtain rfl := Option.some.inj hsome
            exact ⟨0, rfl, rfl⟩
          · obtain ⟨k, hk, hid⟩ := hnew x entry ((Dict.get_set_of_ne _ heq _).trans hnone) hsome
            exact ⟨k + 1, hk, by rw [hid]; ring⟩

/-- A call that returns: its tokens fit into their fields, the entries that were there stay,
every prefix of the prompt has an entry, and a new entry is that of a prefix and has the number
of its last block. -/
lemma send_index {c c' : KacheDBConnector} {blockSize : ℕ} (hpos : 0 < blockSize)
    (hsize : c.blockSize = blockSize) (hcache : c.prefixCache.blockSize = blockSize) {send : Send}
    (h : c.sendKvCachesAndHiddenStates blake2b send.1 send.2 = (.ok (), c')) :
    (c'.blockSize = blockSize ∧ c'.prefixCache.blockSize = blockSize) ∧
      Packable (chunks blockSize send.1.promptTokens) ∧
      (∀ x entry, c.prefixCache.lookupBlock x = some entry →
        c'.prefixCache.lookupBlock x = some entry) ∧
      (∀ k < (chunks blockSize send.1.promptTokens).length,
        (c'.prefixCache.lookupBlock (prefixHash blake2b
          ((chunks blockSize send.1.promptTokens).take (k + 1)))).isSome) ∧
      ∀ x entry, c.prefixCache.lookupBlock x = none → c'.prefixCache.lookupBlock x = some entry →
        ∃ k < (chunks blockSize send.1.promptTokens).length,
          x = prefixHash blake2b ((chunks blockSize send.1.promptTokens).take (k + 1)) ∧
            entry.blockId = k := by
  unfold KacheDBConnector.sendKvCachesAndHiddenStates at h
  by_cases hnil : send.1.promptTokens = []
  · rw [if_pos hnil] at h
    obtain rfl := (Prod.mk.inj h).2
    have hchunks : chunks blockSize send.1.promptTokens = [] := by simp [chunks, hnil]
    rw [hchunks]
    refine ⟨⟨hsize, hcache⟩, by simp [Packable], fun _ _ hx => hx, by simp, ?_⟩
    intro x entry hnone hsome
    rw [hnone] at hsome
    cases hsome
  · rw [if_neg hnil, computeSequenceHashes, hcache, if_neg hpos.ne'] at h
    by_cases hpack : Packable (chunks blockSize send.1.promptTokens)
    · rw [chainHashes_of_packable hpack] at h
      obtain ⟨hsize', hcache', hold, hall, hnew⟩ := offloadBlocks_index h
      refine ⟨⟨hsize'.trans hsize, hcache'.trans hcache⟩, hpack, hold, fun k hk => ?_, ?_⟩
      · exact hall _ (List.mem_of_getElem? (HashChain.getElem?_hashes blake2b blockBuffer 0 hk))
      · intro x entry hnone hsome
        obtain ⟨k, hk, hid⟩ := hnew x entry hnone hsome
        have hlt := (List.getElem?_eq_some_iff.mp hk).1
        rw [HashChain.length_hashes] at hlt
        rw [HashChain.getElem?_hashes _ _ _ hlt] at hk
        exact ⟨k, hlt, (Option.some.inj hk).symm, by rw [hid, zero_add]⟩
    · rw [chainHashes_of_not_packable hpack] at h
      cases h

end OneSend

/-! ## The index of a run -/

section Runs

variable {blake2b : Bytes → UInt64} {blockSize : ℕ}

/-- One more call. -/
lemma completed_append_singleton {new c : KacheDBConnector} {sends : List Send} {send : Send} :
    Completed blake2b new (sends ++ [send]) c ↔ ∃ c₁, Completed blake2b new sends c₁ ∧
      c₁.sendKvCachesAndHiddenStates blake2b send.1 send.2 = (.ok (), c) := by
  induction sends generalizing new with
  | nil =>
    constructor
    · rintro ⟨c₁, hsend, rfl⟩
      exact ⟨new, rfl, hsend⟩
    · rintro ⟨c₁, rfl, hsend⟩
      exact ⟨c, hsend, rfl⟩
  | cons first sends ih =>
    constructor
    · rintro ⟨c₀, hfirst, hrest⟩
      obtain ⟨c₁, hsends, hsend⟩ := ih.mp hrest
      exact ⟨c₁, ⟨c₀, hfirst, hsends⟩, hsend⟩
    · rintro ⟨c₁, ⟨c₀, hfirst, hsends⟩, hsend⟩
      exact ⟨c₀, hfirst, ih.mpr ⟨c₁, hsends, hsend⟩⟩

/-- In this run `entry` was registered under the name `x` by the call `send`, which came after
the calls `before`. -/
def RegisteredBy (blake2b : Bytes → UInt64) (new : KacheDBConnector) (before : List Send)
    (send : Send) (x : UInt64) (entry : BlockEntry) : Prop :=
  ∃ c₀ c₁, Completed blake2b new before c₀ ∧
    c₀.sendKvCachesAndHiddenStates blake2b send.1 send.2 = (.ok (), c₁) ∧
    c₀.prefixCache.lookupBlock x = none ∧ c₁.prefixCache.lookupBlock x = some entry

/-- The index after these calls: every prefix of a prompt has an entry, and every entry was
registered by a call under the name of a prefix of its prompt. -/
structure Indexed (blake2b : Bytes → UInt64) (blockSize : ℕ) (new : KacheDBConnector)
    (sends : List Send) (c : KacheDBConnector) : Prop where
  sizes : c.blockSize = blockSize ∧ c.prefixCache.blockSize = blockSize
  packable : ∀ send ∈ sends, Packable (chunks blockSize send.1.promptTokens)
  closed : ∀ send ∈ sends, ∀ k < (chunks blockSize send.1.promptTokens).length,
    (c.prefixCache.lookupBlock (prefixHash blake2b
      ((chunks blockSize send.1.promptTokens).take (k + 1)))).isSome
  sound : ∀ x entry, c.prefixCache.lookupBlock x = some entry →
    ∃ before send after, sends = before ++ send :: after ∧
      RegisteredBy blake2b new before send x entry ∧
      ∃ k < (chunks blockSize send.1.promptTokens).length,
        x = prefixHash blake2b ((chunks blockSize send.1.promptTokens).take (k + 1)) ∧
          entry.blockId = k

/-- The step lemma: one more call. -/
lemma Indexed.send {new c c' : KacheDBConnector} {sends : List Send} {send : Send}
    (hpos : 0 < blockSize) (h : Indexed blake2b blockSize new sends c)
    (hrun : Completed blake2b new sends c)
    (hsend : c.sendKvCachesAndHiddenStates blake2b send.1 send.2 = (.ok (), c')) :
    Indexed blake2b blockSize new (sends ++ [send]) c' := by
  obtain ⟨hsizes, hpack, hold, hall, hnew⟩ := send_index hpos h.sizes.1 h.sizes.2 hsend
  refine ⟨hsizes, ?_, ?_, fun x entry hentry => ?_⟩
  · intro other hother
    rcases List.mem_append.mp hother with hmem | hmem
    · exact h.packable other hmem
    · exact List.mem_singleton.mp hmem ▸ hpack
  · intro other hother k hk
    rcases List.mem_append.mp hother with hmem | hmem
    · obtain ⟨entry, hentry⟩ := Option.isSome_iff_exists.mp (h.closed other hmem k hk)
      exact Option.isSome_iff_exists.mpr ⟨entry, hold _ _ hentry⟩
    · obtain rfl := List.mem_singleton.mp hmem
      exact hall k hk
  · cases hc : c.prefixCache.lookupBlock x with
    | none =>
      -- the entry is that of the last call
      exact ⟨sends, send, [], rfl, ⟨c, c', hrun, hsend, hc, hentry⟩, hnew x entry hc hentry⟩
    | some entry' =>
      have heq : entry' = entry := by
        have hkept := hold x entry' hc
        rw [hentry] at hkept
        exact (Option.some.inj hkept).symm
      subst heq
      obtain ⟨before, first, after, rfl, hreg, hk⟩ := h.sound x entry' hc
      exact ⟨before, first, after ++ [send], by simp, hreg, hk⟩

/-- The run lemma. -/
lemma indexed_of_completed (rank localRank poolSizeMb : ℕ) (hpos : 0 < blockSize)
    {sends : List Send} {c : KacheDBConnector}
    (h : Completed blake2b (.new rank localRank blockSize poolSizeMb) sends c) :
    Indexed blake2b blockSize (.new rank localRank blockSize poolSizeMb) sends c := by
  induction sends using List.reverseRecOn generalizing c with
  | nil =>
    obtain rfl := h
    refine ⟨⟨rfl, rfl⟩, by simp, by simp, fun x entry hentry => ?_⟩
    cases hentry
  | append_singleton sends send ih =>
    obtain ⟨c₁, hsends, hsend⟩ := completed_append_singleton.mp h
    exact (ih hsends).send hpos hsends hsend

end Runs

/-! ## The longest prefix -/

section Longest

variable {blake2b : Bytes → UInt64} {blockSize : ℕ} {new c : KacheDBConnector}
  {sends : List Send} {q : List ℤ}

/-- The prompts of these calls. -/
def prompts (sends : List Send) : List (List ℤ) :=
  sends.map fun send => send.1.promptTokens

/-- The number of blocks that the query has in common with a prompt, as large as it gets. -/
def commonBlocks (blockSize : ℕ) (sends : List Send) (q : List ℤ) : ℕ :=
  largest ((prompts sends).map fun p => lcp p q / blockSize)

/-- The first blocks of the query are those of a prompt. -/
lemma lt_commonBlocks_iff (hpos : 0 < blockSize) {k : ℕ} (hk : k < q.length / blockSize) :
    k < commonBlocks blockSize sends q ↔ ∃ send ∈ sends,
      (chunks blockSize q).take (k + 1) <+: chunks blockSize send.1.promptTokens := by
  rw [commonBlocks, lt_largest_iff, prompts, List.map_map]
  constructor
  · intro h
    obtain ⟨n, hn, hlt⟩ := h
    obtain ⟨send, hsend, rfl⟩ := List.mem_map.mp hn
    exact ⟨send, hsend, (take_chunks_prefix_iff hpos hk).mpr hlt⟩
  · rintro ⟨send, hsend, hpre⟩
    exact ⟨_, List.mem_map_of_mem hsend, (take_chunks_prefix_iff hpos hk).mp hpre⟩

/-- No more blocks are in common than the query has. -/
lemma commonBlocks_le :
    commonBlocks blockSize sends q ≤ q.length / blockSize := by
  by_contra hgt
  push Not at hgt
  rw [commonBlocks, lt_largest_iff] at hgt
  obtain ⟨n, hn, hlt⟩ := hgt
  obtain ⟨p, -, rfl⟩ := List.mem_map.mp hn
  have hlcp : lcp p q ≤ q.length := (le_lcp_iff.mp le_rfl).2.1
  exact absurd (Nat.div_le_div_right hlcp) (not_le.mpr hlt)

/-- The first blocks of a query that a prompt begins with are known. -/
lemma Indexed.isSome_of_prefix (h : Indexed blake2b blockSize new sends c) {k : ℕ}
    (hk : k < q.length / blockSize) {send : Send} (hsend : send ∈ sends)
    (hpre : (chunks blockSize q).take (k + 1) <+: chunks blockSize send.1.promptTokens) :
    (c.prefixCache.lookupBlock
      (prefixHash blake2b ((chunks blockSize q).take (k + 1)))).isSome := by
  have hlen : ((chunks blockSize q).take (k + 1)).length = k + 1 := by
    rw [List.length_take, length_chunks, min_eq_left hk]
  have hle := hpre.length_le
  have htake := List.prefix_iff_eq_take.mp hpre
  rw [hlen] at hle htake
  rw [htake]
  exact h.closed send hsend k hle

/-- A prefix of the query has an entry exactly if it is the prefix of a prompt. -/
lemma Indexed.isSome_iff (h : Indexed blake2b blockSize new sends c)
    (hq : Packable (chunks blockSize q))
    (hhash : HashesApart blake2b blockSize (q :: prompts sends)) {k : ℕ}
    (hk : k < q.length / blockSize) :
    (c.prefixCache.lookupBlock (prefixHash blake2b ((chunks blockSize q).take (k + 1)))).isSome ↔
      ∃ send ∈ sends,
        (chunks blockSize q).take (k + 1) <+: chunks blockSize send.1.promptTokens := by
  have hlen : ((chunks blockSize q).take (k + 1)).length = k + 1 := by
    rw [List.length_take, length_chunks, min_eq_left hk]
  constructor
  · intro hsome
    obtain ⟨entry, hentry⟩ := Option.isSome_iff_exists.mp hsome
    obtain ⟨before, send, after, rfl, -, i, -, hx, -⟩ := h.sound _ entry hentry
    have hsend : send ∈ before ++ send :: after := by simp
    refine ⟨send, hsend, ?_⟩
    have heq := prefixHash_inj hhash ⟨q, by simp, hq, List.take_prefix _ _⟩
      ⟨_, List.mem_cons_of_mem q (List.mem_map_of_mem hsend), h.packable send hsend,
        List.take_prefix _ _⟩ hx
    rw [heq]
    exact List.take_prefix _ _
  · rintro ⟨send, hsend, hpre⟩
    exact h.isSome_of_prefix hk hsend hpre

/-- The first blocks of a query are those of a prompt if the first tokens are. -/
lemma take_tokens_prefix_iff (hpos : 0 < blockSize) {k : ℕ} (hk : k < q.length / blockSize)
    (p : List ℤ) : q.take ((k + 1) * blockSize) <+: p ↔
      (chunks blockSize q).take (k + 1) <+: chunks blockSize p := by
  have hkq : (k + 1) * blockSize ≤ q.length := (Nat.le_div_iff_mul_le hpos).mp hk
  rw [take_chunks_prefix_iff hpos hk, Nat.le_div_iff_mul_le hpos, le_lcp_iff,
    List.prefix_iff_eq_take, List.length_take, min_eq_left hkq]
  constructor
  · intro htake
    have hle : (k + 1) * blockSize ≤ p.length := by
      have hcongr := congrArg List.length htake
      rw [List.length_take, List.length_take, min_eq_left hkq] at hcongr
      omega
    exact ⟨hle, hkq, htake.symm⟩
  · rintro ⟨-, -, htake⟩
    exact htake.symm

/-- The entry of a prefix of the query has the number of its last block, and it was registered by
the first call whose prompt starts with this prefix. -/
lemma Indexed.first (hpos : 0 < blockSize) (rank localRank poolSizeMb : ℕ)
    (h : Indexed blake2b blockSize (.new rank localRank blockSize poolSizeMb) sends c)
    (hq : Packable (chunks blockSize q))
    (hhash : HashesApart blake2b blockSize (q :: prompts sends)) {k : ℕ}
    (hk : k < q.length / blockSize) {entry : BlockEntry}
    (hentry : c.prefixCache.lookupBlock (prefixHash blake2b ((chunks blockSize q).take (k + 1))) =
      some entry) :
    entry.blockId = k ∧ ∃ before send after, sends = before ++ send :: after ∧
      q.take ((k + 1) * blockSize) <+: send.1.promptTokens ∧
      (∀ earlier ∈ before, ¬ q.take ((k + 1) * blockSize) <+: earlier.1.promptTokens) ∧
      RegisteredBy blake2b (.new rank localRank blockSize poolSizeMb) before send
        (prefixHash blake2b ((chunks blockSize q).take (k + 1))) entry := by
  have hlen : ((chunks blockSize q).take (k + 1)).length = k + 1 := by
    rw [List.length_take, length_chunks, min_eq_left hk]
  obtain ⟨before, send, after, rfl, hreg, i, hi, hx, hid⟩ := h.sound _ entry hentry
  have hsend : send ∈ before ++ send :: after := by simp
  have heq := prefixHash_inj hhash ⟨q, by simp, hq, List.take_prefix _ _⟩
    ⟨_, List.mem_cons_of_mem q (List.mem_map_of_mem hsend), h.packable send hsend,
      List.take_prefix _ _⟩ hx
  have hik : i = k := by
    have hcongr := congrArg List.length heq
    rw [hlen, List.length_take, min_eq_left hi] at hcongr
    omega
  refine ⟨hid.trans hik, before, send, after, rfl, ?_, ?_, hreg⟩
  · rw [take_tokens_prefix_iff hpos hk, heq]
    exact List.take_prefix _ _
  · intro earlier hearlier hpre
    rw [take_tokens_prefix_iff hpos hk] at hpre
    obtain ⟨c₀, c₁, hbefore, -, hnone, -⟩ := hreg
    have hindexed := indexed_of_completed rank localRank poolSizeMb hpos hbefore
    have hsome := hindexed.isSome_of_prefix hk hearlier hpre
    rw [hnone] at hsome
    cases hsome

/-- **The longest cached prefix is found.** -/
theorem findLongestPrefix_longest (rank localRank poolSizeMb : ℕ) (hpos : 1 ≤ blockSize)
    (hrun : Completed blake2b (.new rank localRank blockSize poolSizeMb) sends c)
    (hq : ∀ tid ∈ q, FitsU32 tid)
    (hhash : HashesApart blake2b blockSize (q :: prompts sends)) :
    ∃ matchedBlocks, c.prefixCache.findLongestPrefix blake2b q =
        .ok (blockSize * commonBlocks blockSize sends q, matchedBlocks) ∧
      matchedBlocks.length = commonBlocks blockSize sends q ∧
      ∀ j entry, matchedBlocks[j]? = some entry →
        entry.blockId = j ∧ ∃ before send after, sends = before ++ send :: after ∧
          q.take ((j + 1) * blockSize) <+: send.1.promptTokens ∧
          (∀ earlier ∈ before, ¬ q.take ((j + 1) * blockSize) <+: earlier.1.promptTokens) ∧
          RegisteredBy blake2b (.new rank localRank blockSize poolSizeMb) before send
            (prefixHash blake2b ((chunks blockSize q).take (j + 1))) entry := by
  have h := indexed_of_completed rank localRank poolSizeMb hpos hrun
  have hpack : Packable (chunks blockSize q) := packable_chunks hq
  have hfind : c.prefixCache.findLongestPrefix blake2b q = .ok (c.prefixCache.matchHashes
      (HashChain.hashes blake2b blockBuffer 0 (chunks blockSize q))) := by
    rw [findLongestPrefix, computeSequenceHashes, h.sizes.2, if_neg (by omega),
      chainHashes_of_packable hpack]
  have hlookup {j : ℕ} (hj : j < q.length / blockSize) :
      (HashChain.hashes blake2b blockBuffer 0 (chunks blockSize q))[j]? =
        some (prefixHash blake2b ((chunks blockSize q).take (j + 1))) :=
    HashChain.getElem?_hashes _ _ _ (by rwa [length_chunks])
  have hlen : (c.prefixCache.matchHashes (HashChain.hashes blake2b blockBuffer 0
      (chunks blockSize q))).2.length = commonBlocks blockSize sends q := by
    apply length_matchHashes
    · rw [HashChain.length_hashes, length_chunks]
      exact commonBlocks_le
    · intro j x hx
      have hj : j < q.length / blockSize := by
        have hlt := (List.getElem?_eq_some_iff.mp hx).1
        rwa [HashChain.length_hashes, length_chunks] at hlt
      rw [hlookup hj] at hx
      obtain rfl := Option.some.inj hx
      rw [h.isSome_iff hpack hhash hj, lt_commonBlocks_iff hpos hj]
  refine ⟨_, ?_, hlen, fun j entry hentry => ?_⟩
  · rw [hfind, ← hlen, ← h.sizes.2, mul_comm, ← matchHashes_tokens]
  · have hj : j < q.length / blockSize := by
      have hlt := (List.getElem?_eq_some_iff.mp hentry).1
      rw [hlen] at hlt
      exact lt_of_lt_of_le hlt (commonBlocks_le)
    obtain ⟨x, hx, hsome⟩ := getElem?_matchHashes hentry
    rw [hlookup hj] at hx
    obtain rfl := Option.some.inj hx
    exact h.first hpos rank localRank poolSizeMb hpack hhash hj hsome

/-- Two prompts that have two blocks in common are sent; a third one has three blocks in common
with the second. -/
theorem findLongestPrefix_longest_shared :
    ∃ c, Completed sharedDigest (.new 0 0 2 1)
        [(⟨some [1, 2, 3, 4, 5, 6], none⟩, threeBlockCaches 10),
          (⟨some [1, 2, 3, 4, 7, 8], none⟩, threeBlockCaches 20)] c ∧
      ∃ matchedBlocks, c.prefixCache.findLongestPrefix sharedDigest [1, 2, 3, 4, 7, 8, 9] =
          .ok (2 * 3, matchedBlocks) ∧ matchedBlocks.length = 3 := by
  have hrun : ∃ c, Completed sharedDigest (.new 0 0 2 1)
      [(⟨some [1, 2, 3, 4, 5, 6], none⟩, threeBlockCaches 10),
        (⟨some [1, 2, 3, 4, 7, 8], none⟩, threeBlockCaches 20)] c := ⟨_, _, rfl, _, rfl, rfl⟩
  obtain ⟨c, hc⟩ := hrun
  obtain ⟨matchedBlocks, hfind, hlen, -⟩ := findLongestPrefix_longest 0 0 1 one_le_two hc
    (q := [1, 2, 3, 4, 7, 8, 9]) (by decide) (hashesApart_sharedDigest (by decide +kernel))
  exact ⟨c, hc, matchedBlocks, hfind, hlen⟩

end Longest

end KacheDB
