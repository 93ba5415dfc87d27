import KacheDB.Foundation.Greedy
import KacheDB.Sglang.RadixAdapter

/-!
# First choices

`find_matching_nodes` goes down from the root by first choices: at each place it takes the first
descriptor of the dictionary that goes on with the prompt.  `matchFrom_eq_run` says that the loop
is a walk of such choices.

The nodes of the dictionary are those that have been registered (`exists_registered`,
`exists_lookupNode`), under their hashes and in the order of their first registrations.

The limit is tested in front of a choice only.  `findMatchingNodes_limit_iff` says when it is kept
and the match is that of the prompt cut off at the limit.
-/

namespace KacheDB

open Foundation

/-- The arguments of a call of `register_node`. -/
structure RegisterArgs where
  nodeId : ℤ
  tokenIds : List ℤ
  parentHash : ℤ
  layerOffsets : List ℕ

namespace KacheDBRadixAdapter

/-- The adapter after some registrations. -/
def registerAll (blake2b : Bytes → UInt64) (ops : List RegisterArgs) : KacheDBRadixAdapter :=
  ops.foldl (fun a r =>
    (a.registerNode blake2b r.nodeId r.tokenIds r.parentHash r.layerOffsets).2) new

/-- The buffers that are hashed in some registrations. -/
def registeredBuffers (ops : List RegisterArgs) : Set Bytes :=
  {b | ∃ r ∈ ops, Hashable r.parentHash r.tokenIds ∧ nodeBuffer r.parentHash r.tokenIds = b}

/-- What the loop takes at a place, given by the hash of the node above and the number of tokens
that have been matched. -/
def nextNode (a : KacheDBRadixAdapter) (promptTokens : List ℤ) (limit : ℤ) (place : ℤ × ℕ) :
    Option RadixNodeDescriptor :=
  if place.2 < limit then a.bestNode promptTokens place.1 place.2 else none

/-- The place behind a node. -/
def advance (place : ℤ × ℕ) (desc : RadixNodeDescriptor) : ℤ × ℕ :=
  (desc.nodeHash.toNat, place.2 + desc.numTokens)

/-- The nodes are the first choices from the root on, each made in front of the limit. -/
def FirstChoices (a : KacheDBRadixAdapter) (promptTokens : List ℤ) (limit : ℤ)
    (nodes : List RadixNodeDescriptor) : Prop :=
  Greedy.IsWalk (a.nextNode promptTokens limit) advance (0, 0) nodes

/-- The tokens of some nodes. -/
def pathTokens (nodes : List RadixNodeDescriptor) : List ℤ :=
  (nodes.map RadixNodeDescriptor.tokenIds).flatten

/-- Registered nodes, each of them a child of the one in front of it, and the first one of the
node of this hash. -/
def IsChain (a : KacheDBRadixAdapter) : ℤ → List RadixNodeDescriptor → Prop
  | _, [] => True
  | parentHash, desc :: nodes => (∃ key, a.lookupNode key = some desc) ∧
      desc.parentHash = parentHash ∧ IsChain a desc.nodeHash.toNat nodes

/-- The chains from the root whose tokens begin the prompt. -/
def Matching (a : KacheDBRadixAdapter) (promptTokens : List ℤ) (nodes : List RadixNodeDescriptor) :
    Prop :=
  a.IsChain 0 nodes ∧ pathTokens nodes <+: promptTokens

/-- The search with a limit ends with at most so many tokens, and with the nodes of the prompt that
is cut off at the limit. -/
def KeepsLimit (a : KacheDBRadixAdapter) (promptTokens : List ℤ) (maxTokens : ℕ) : Prop :=
  ∃ fuel m nodes, a.findMatchingNodes fuel promptTokens (some maxTokens) = some (m, nodes) ∧
    m ≤ maxTokens ∧ ∃ fuel' m',
      a.findMatchingNodes fuel' (promptTokens.take maxTokens) none = some (m', nodes)

variable {blake2b : Bytes → UInt64} {B : Set Bytes} {a : KacheDBRadixAdapter}
  {promptTokens : List ℤ} {limit : ℤ}

/-- The nodes of a chain are registered. -/
lemma IsChain.registered {parentHash : ℤ} {nodes : List RadixNodeDescriptor}
    (h : a.IsChain parentHash nodes) {desc : RadixNodeDescriptor} (hdesc : desc ∈ nodes) :
    ∃ key, a.lookupNode key = some desc := by
  induction nodes generalizing parentHash with
  | nil => cases hdesc
  | cons first nodes ih =>
    rcases List.mem_cons.mp hdesc with rfl | hdesc
    · exact h.1
    · exact ih h.2.2 hdesc

/-! ## Registrations -/

/-- One more registration. -/
lemma registerAll_concat (blake2b : Bytes → UInt64) (ops : List RegisterArgs) (r : RegisterArgs) :
    registerAll blake2b (ops ++ [r]) = ((registerAll blake2b ops).registerNode blake2b r.nodeId
      r.tokenIds r.parentHash r.layerOffsets).2 := by
  rw [registerAll, List.foldl_concat]
  rfl

/-- A node that does not fit is not registered. -/
lemma registerNode_of_not_hashable {tokenIds : List ℤ} {parentHash : ℤ}
    (h : ¬ Hashable parentHash tokenIds) (a : KacheDBRadixAdapter) (nodeId : ℤ)
    (layerOffsets : List ℕ) :
    a.registerNode blake2b nodeId tokenIds parentHash layerOffsets = (.error .structError, a) := by
  rw [registerNode, computeNodeHash, if_neg h]

/-- The descriptors stand under the hashes of their nodes. -/
lemma indexed_registerAll {ops : List RegisterArgs} (hB : registeredBuffers ops ⊆ B) :
    Indexed blake2b B (registerAll blake2b ops) := by
  induction ops using List.reverseRecOn with
  | nil => exact indexed_new
  | append_singleton ops r ih =>
    have hops := ih fun b ⟨r', hr', hb⟩ => hB ⟨r', List.mem_append_left _ hr', hb⟩
    rw [registerAll_concat]
    by_cases hfits : Hashable r.parentHash r.tokenIds
    · obtain ⟨desc, hparent, htokens, hhash, hnum, -, hcall⟩ := registerNode_of_hashable blake2b
        hfits (registerAll blake2b ops) r.nodeId r.layerOffsets
      rw [hcall]
      rw [← hparent, ← htokens] at hhash hfits ⊢
      refine hops.set hhash (hnum.trans (congrArg _ htokens).symm) hfits (hB ⟨r, ?_, ?_⟩)
      · exact List.mem_append_right _ (List.mem_singleton_self _)
      · rw [← hparent, ← htokens]
        exact ⟨hfits, rfl⟩
    · rw [registerNode_of_not_hashable hfits]
      exact hops

/-- The hash of a node that fits. -/
lemma computeNodeHash_eq_ok {tokenIds : List ℤ} {parentHash : ℤ} {nodeHash : UInt64} :
    computeNodeHash blake2b tokenIds parentHash = .ok nodeHash ↔
      Hashable parentHash tokenIds ∧ nodeHash = blake2b (nodeBuffer parentHash tokenIds) := by
  unfold computeNodeHash
  constructor
  · intro h
    split_ifs at h with hfits
    exact ⟨hfits, (Except.ok.inj h).symm⟩
  · rintro ⟨hfits, rfl⟩
    rw [if_pos hfits]

/-- What a descriptor says has been registered. -/
lemma exists_registered {ops : List RegisterArgs} {key : UInt64} {desc : RadixNodeDescriptor}
    (h : (registerAll blake2b ops).lookupNode key = some desc) :
    desc.nodeHash = key ∧ ∃ r ∈ ops, r.parentHash = desc.parentHash ∧ r.tokenIds = desc.tokenIds ∧
      computeNodeHash blake2b r.tokenIds r.parentHash = .ok key := by
  obtain ⟨hhash, -, hfits, hdigest, r, hr, hfits', hbuffer⟩ :=
    indexed_registerAll (Set.Subset.refl _) key desc h
  obtain ⟨hparent, htokens⟩ := nodeBuffer_inj hfits' hfits hbuffer
  refine ⟨hhash, r, hr, hparent, htokens, computeNodeHash_eq_ok.mpr ⟨hfits', ?_⟩⟩
  rw [hdigest, hbuffer]

/-- Something stands in the dictionary under the hash of each registered node. -/
lemma lookupNode_isSome {ops : List RegisterArgs} {r : RegisterArgs} (hr : r ∈ ops)
    (hfits : Hashable r.parentHash r.tokenIds) :
    ∃ desc, (registerAll blake2b ops).lookupNode (blake2b (nodeBuffer r.parentHash r.tokenIds)) =
      some desc := by
  induction ops using List.reverseRecOn with
  | nil => cases hr
  | append_singleton ops last ih =>
    rw [registerAll_concat]
    by_cases hlast : Hashable last.parentHash last.tokenIds
    · obtain ⟨desc, -, -, -, -, -, hcall⟩ := registerNode_of_hashable blake2b hlast
        (registerAll blake2b ops) last.nodeId last.layerOffsets
      rw [hcall, lookupNode]
      by_cases hkey : blake2b (nodeBuffer r.parentHash r.tokenIds) =
          blake2b (nodeBuffer last.parentHash last.tokenIds)
      · exact ⟨desc, by rw [hkey, Dict.get_set_self]⟩
      · rw [Dict.get_set_of_ne _ hkey]
        rcases List.mem_append.mp hr with hr | hr
        · exact ih hr
        · rw [List.mem_singleton.mp hr] at hkey
          exact absurd rfl hkey
    · rw [registerNode_of_not_hashable hlast]
      rcases List.mem_append.mp hr with hr | hr
      · exact ih hr
      · rw [List.mem_singleton.mp hr] at hfits
        exact absurd hfits hlast

/-- **Registered nodes are found.**  If the hash function tells the nodes apart, a registered node
stands in the dictionary under its hash, with its parent and its tokens. -/
lemma exists_lookupNode {ops : List RegisterArgs}
    (hinj : Set.InjOn blake2b (registeredBuffers ops)) {r : RegisterArgs} (hr : r ∈ ops)
    (hfits : Hashable r.parentHash r.tokenIds) :
    ∃ desc, (registerAll blake2b ops).lookupNode (blake2b (nodeBuffer r.parentHash r.tokenIds)) =
        some desc ∧ desc.parentHash = r.parentHash ∧ desc.tokenIds = r.tokenIds := by
  obtain ⟨desc, hdesc⟩ := lookupNode_isSome hr hfits
  obtain ⟨-, -, hfits', hdigest, hmem⟩ := indexed_registerAll (Set.Subset.refl _) _ desc hdesc
  have hbuffer := hinj ⟨r, hr, hfits, rfl⟩ hmem hdigest
  obtain ⟨hparent, htokens⟩ := nodeBuffer_inj hfits hfits' hbuffer
  exact ⟨desc, hdesc, hparent.symm, htokens.symm⟩

/-- There are at most as many descriptors as registrations. -/
lemma length_items_registerAll_le (blake2b : Bytes → UInt64) (ops : List RegisterArgs) :
    (registerAll blake2b ops).nodes.items.length ≤ ops.length := by
  induction ops using List.reverseRecOn with
  | nil => exact Nat.zero_le _
  | append_singleton ops r ih =>
    rw [registerAll_concat, List.length_append, List.length_singleton]
    by_cases hfits : Hashable r.parentHash r.tokenIds
    · obtain ⟨desc, -, -, -, -, -, hcall⟩ := registerNode_of_hashable blake2b hfits
        (registerAll blake2b ops) r.nodeId r.layerOffsets
      rw [hcall]
      exact (Dict.length_setItems_le _ _ _).trans (Nat.succ_le_succ ih)
    · rw [registerNode_of_not_hashable hfits]
      exact ih.trans (Nat.le_succ _)

/-! ## The loop as a walk -/

/-- The loop walks by first choices. -/
lemma matchFrom_eq_run (a : KacheDBRadixAdapter) (promptTokens : List ℤ) (limit : ℤ) (fuel : ℕ)
    (currentParent : ℤ) (tokenCursor : ℕ) :
    a.matchFrom promptTokens limit fuel currentParent tokenCursor =
      (Greedy.run (a.nextNode promptTokens limit) advance fuel (currentParent, tokenCursor)).map
        fun nodes => ((nodes.map RadixNodeDescriptor.numTokens).sum, nodes) := by
  induction fuel generalizing currentParent tokenCursor with
  | zero => rfl
  | succ fuel ih =>
    rw [matchFrom, Greedy.run, nextNode]
    split_ifs with hlimit
    · cases hbest : a.bestNode promptTokens currentParent tokenCursor with
      | none => rfl
      | some best =>
        simp only [ih, advance]
        cases Greedy.run (a.nextNode promptTokens limit) advance fuel
            ((best.nodeHash.toNat : ℤ), tokenCursor + best.numTokens) with
        | none => rfl
        | some nodes => rfl
    · rfl

/-- What the search finds is the walk from the root. -/
lemma findMatchingNodes_eq_some_iff {fuel m : ℕ} {maxTokens : Option ℤ}
    {nodes : List RadixNodeDescriptor} :
    a.findMatchingNodes fuel promptTokens maxTokens = some (m, nodes) ↔
      Greedy.run (a.nextNode promptTokens (maxTokens.getD promptTokens.length)) advance fuel
          (0, 0) = some nodes ∧ m = (nodes.map RadixNodeDescriptor.numTokens).sum := by
  rw [findMatchingNodes, matchFrom_eq_run, Option.map_eq_some_iff]
  constructor
  · rintro ⟨nodes', hrun, heq⟩
    obtain ⟨rfl, rfl⟩ := Prod.mk.inj heq
    exact ⟨hrun, rfl⟩
  · rintro ⟨hrun, rfl⟩
    exact ⟨nodes, hrun, rfl⟩

/-- The number of tokens up to a place. -/
lemma dest_snd (place : ℤ × ℕ) (nodes : List RadixNodeDescriptor) :
    (Greedy.dest advance place nodes).2 =
      place.2 + (nodes.map RadixNodeDescriptor.numTokens).sum := by
  induction nodes generalizing place with
  | nil => rfl
  | cons desc nodes ih =>
    rw [Greedy.dest, List.foldl_cons, ← Greedy.dest, ih, List.map_cons, List.sum_cons, ← add_assoc]
    rfl

/-- The number of steps does not matter. -/
lemma findMatchingNodes_unique {fuel fuel' : ℕ} {maxTokens : Option ℤ}
    {found found' : ℕ × List RadixNodeDescriptor}
    (h : a.findMatchingNodes fuel promptTokens maxTokens = some found)
    (h' : a.findMatchingNodes fuel' promptTokens maxTokens = some found') : found = found' := by
  obtain ⟨hrun, hm⟩ := findMatchingNodes_eq_some_iff.mp h
  obtain ⟨hrun', hm'⟩ := findMatchingNodes_eq_some_iff.mp h'
  have hnodes := Greedy.run_eq_run hrun hrun'
  exact Prod.ext (by rw [hm, hm', hnodes]) hnodes

/-- What is taken at a place is a registered child of the node above that goes on with the
prompt. -/
lemma nextNode_eq_some {place : ℤ × ℕ} {desc : RadixNodeDescriptor}
    (h : a.nextNode promptTokens limit place = some desc) :
    place.2 < limit ∧ a.bestNode promptTokens place.1 place.2 = some desc := by
  unfold nextNode at h
  split_ifs at h with hlimit
  exact ⟨hlimit, h⟩

/-- The first choices are a chain of registered nodes whose tokens are the next ones of the
prompt. -/
lemma isChain_of_isWalk (h : a.Indexed blake2b B) {place : ℤ × ℕ}
    (hplace : place.2 ≤ promptTokens.length) {nodes : List RadixNodeDescriptor}
    (hwalk : Greedy.IsWalk (a.nextNode promptTokens limit) advance place nodes) :
    a.IsChain place.1 nodes ∧ pathTokens nodes <+: promptTokens.drop place.2 ∧
      (nodes.map RadixNodeDescriptor.numTokens).sum = (pathTokens nodes).length := by
  induction nodes generalizing place with
  | nil => exact ⟨trivial, List.nil_prefix, rfl⟩
  | cons desc nodes ih =>
    obtain ⟨hnext, hrest⟩ := hwalk
    obtain ⟨⟨key, hkey⟩, hparent, hfits, hwindow⟩ := bestNode_eq_some (nextNode_eq_some hnext).2
    obtain ⟨hchain, hpre, hsum⟩ := ih hfits hrest
    have hnum := (h key desc hkey).2.1
    refine ⟨⟨⟨key, hkey⟩, hparent, hchain⟩, ?_, ?_⟩
    · rw [pathTokens, List.map_cons, List.flatten_cons, ← window_append_drop _ _ desc.numTokens,
        hwindow]
      exact (List.prefix_append_right_inj _).mpr hpre
    · rw [List.map_cons, List.sum_cons, hsum, hnum, pathTokens, pathTokens, List.map_cons,
        List.flatten_cons, List.length_append]

/-- The first choices from the root. -/
lemma FirstChoices.matching (h : a.Indexed blake2b B) {nodes : List RadixNodeDescriptor}
    (hwalk : a.FirstChoices promptTokens limit nodes) : a.Matching promptTokens nodes ∧
      (nodes.map RadixNodeDescriptor.numTokens).sum = (pathTokens nodes).length := by
  obtain ⟨hchain, hpre, hsum⟩ := isChain_of_isWalk h (Nat.zero_le _) hwalk
  exact ⟨⟨hchain, hpre⟩, hsum⟩

/-! ## The limit -/

/-- A choice in a prompt is one in its first part too if it ends there. -/
lemma bestNode_take {parentHash : ℤ} {tokenCursor maxTokens : ℕ} {desc : RadixNodeDescriptor}
    (h : a.bestNode promptTokens parentHash tokenCursor = some desc)
    (hle : tokenCursor + desc.numTokens ≤ maxTokens) :
    a.bestNode (promptTokens.take maxTokens) parentHash tokenCursor = some desc := by
  rw [bestNode, List.find?_eq_some_iff_append] at h ⊢
  obtain ⟨hdesc, before, behind, hitems, hbefore⟩ := h
  obtain ⟨hparent, hfits, hwindow⟩ := of_decide_eq_true hdesc
  refine ⟨?_, before, behind, hitems, fun other hother => ?_⟩
  · rw [decide_eq_true_iff, List.length_take, window_take hle]
    exact ⟨hparent, le_min hle hfits, hwindow⟩
  · have hnot := hbefore other hother
    rw [Bool.not_eq_true', decide_eq_false_iff_not] at hnot ⊢
    rintro ⟨hparent', hfits', hwindow'⟩
    rw [List.length_take, le_min_iff] at hfits'
    rw [window_take hfits'.1] at hwindow'
    exact hnot ⟨hparent', hfits'.2, hwindow'⟩

/-- If nothing goes on with a prompt, nothing goes on with its first part. -/
lemma bestNode_take_eq_none {parentHash : ℤ} {tokenCursor : ℕ} (maxTokens : ℕ)
    (h : a.bestNode promptTokens parentHash tokenCursor = none) :
    a.bestNode (promptTokens.take maxTokens) parentHash tokenCursor = none := by
  rw [bestNode, List.find?_eq_none] at h ⊢
  intro other hother hcontinues
  obtain ⟨hparent, hfits, hwindow⟩ := of_decide_eq_true hcontinues
  rw [List.length_take, le_min_iff] at hfits
  rw [window_take hfits.1] at hwindow
  exact h other hother (decide_eq_true ⟨hparent, hfits.2, hwindow⟩)

/-- The number of tokens up to the place behind some nodes. -/
lemma dest_root_snd (nodes : List RadixNodeDescriptor) :
    (Greedy.dest advance ((0 : ℤ), 0) nodes).2 =
      (nodes.map RadixNodeDescriptor.numTokens).sum := by
  rw [dest_snd, zero_add]

/-- Where the limit is kept, the first choices keep it. -/
lemma KeepsLimit.choices {maxTokens : ℕ} :
    a.KeepsLimit promptTokens maxTokens →
      (∀ nodes desc, a.FirstChoices promptTokens maxTokens (nodes ++ [desc]) →
        (nodes.map RadixNodeDescriptor.numTokens).sum < promptTokens.length ∧
          (nodes.map RadixNodeDescriptor.numTokens).sum + desc.numTokens ≤ maxTokens) ∧
        ∃ n, ∀ nodes, a.FirstChoices promptTokens maxTokens nodes → nodes.length ≤ n := by
  rintro ⟨fuel, m, nodes, hfind, hle, fuel', m', hfind'⟩
  obtain ⟨hrun, rfl⟩ := findMatchingNodes_eq_some_iff.mp hfind
  obtain ⟨hrun', -⟩ := findMatchingNodes_eq_some_iff.mp hfind'
  refine ⟨fun xs desc hxs => ?_, nodes.length, fun xs hxs => (hxs.isPrefix_of_run hrun).length_le⟩
  have hpre := hxs.isPrefix_of_run hrun
  constructor
  · -- the choice is also made in the first part of the prompt
    obtain ⟨-, hnext⟩ := Greedy.isWalk_concat.mp ((Greedy.run_eq_some hrun').1.of_isPrefix hpre)
    have hlimit := (nextNode_eq_some hnext).1
    rw [dest_root_snd, Option.getD_none, List.length_take] at hlimit
    omega
  · obtain ⟨rest, rfl⟩ := hpre
    simp only [List.map_append, List.sum_append, List.map_cons, List.map_nil, List.sum_cons,
      List.sum_nil] at hle
    omega

/-- The limit is kept if the first choices keep it. -/
lemma keepsLimit_of_choices {maxTokens : ℕ} :
    ((∀ nodes desc, a.FirstChoices promptTokens maxTokens (nodes ++ [desc]) →
        (nodes.map RadixNodeDescriptor.numTokens).sum < promptTokens.length ∧
          (nodes.map RadixNodeDescriptor.numTokens).sum + desc.numTokens ≤ maxTokens) ∧
        ∃ n, ∀ nodes, a.FirstChoices promptTokens maxTokens nodes → nodes.length ≤ n) →
      a.KeepsLimit promptTokens maxTokens := by
  rintro ⟨hchoices, n, hn⟩
  have hnext : ∀ xs, Greedy.IsWalk (a.nextNode promptTokens maxTokens) advance ((0 : ℤ), 0) xs →
      a.nextNode promptTokens maxTokens (Greedy.dest advance (0, 0) xs) =
        a.nextNode (promptTokens.take maxTokens) (promptTokens.take maxTokens).length
          (Greedy.dest advance (0, 0) xs) := by
    intro xs hxs
    have hplace := dest_root_snd xs
    cases hstep : a.nextNode promptTokens maxTokens (Greedy.dest advance (0, 0) xs) with
    | some desc =>
      obtain ⟨hlt, hle⟩ := hchoices xs desc (Greedy.isWalk_concat.mpr ⟨hxs, hstep⟩)
      obtain ⟨hlimit, hbest⟩ := nextNode_eq_some hstep
      rw [hplace] at hlimit hbest
      rw [nextNode, hplace, if_pos, bestNode_take hbest hle]
      rw [List.length_take]
      omega
    | none =>
      unfold nextNode at hstep ⊢
      split_ifs at hstep with hlimit
      · rw [bestNode_take_eq_none maxTokens hstep, ite_self]
      · rw [if_neg]
        rw [List.length_take]
        omega
  have hends : ∀ xs, Greedy.IsWalk (a.nextNode promptTokens maxTokens) advance ((0 : ℤ), 0) xs →
      xs.length < n + 1 := fun xs hxs => Nat.lt_succ_of_le (hn xs hxs)
  obtain ⟨nodes, hrun⟩ := Greedy.exists_run hends
  have hrun' := (Greedy.run_congr hnext (n + 1)).symm.trans hrun
  refine ⟨n + 1, _, nodes, findMatchingNodes_eq_some_iff.mpr ⟨hrun, rfl⟩, ?_, n + 1, _,
    findMatchingNodes_eq_some_iff.mpr ⟨hrun', rfl⟩⟩
  rcases List.eq_nil_or_concat nodes with rfl | ⟨xs, desc, rfl⟩
  · exact Nat.zero_le _
  · rw [List.concat_eq_append] at hrun ⊢
    have hle := (hchoices xs desc (Greedy.run_eq_some hrun).1).2
    simpa using hle

/-- **When the limit is kept.**  The search with a limit ends with at most so many tokens, and with
the nodes of the prompt that is cut off at the limit, exactly if every first choice that is made in
front of the limit is also made in front of the end of the prompt and ends within the limit, and
the first choices come to an end. -/
theorem findMatchingNodes_limit_iff (a : KacheDBRadixAdapter) (promptTokens : List ℤ)
    (maxTokens : ℕ) :
    a.KeepsLimit promptTokens maxTokens ↔
      (∀ nodes desc, a.FirstChoices promptTokens maxTokens (nodes ++ [desc]) →
        (nodes.map RadixNodeDescriptor.numTokens).sum < promptTokens.length ∧
          (nodes.map RadixNodeDescriptor.numTokens).sum + desc.numTokens ≤ maxTokens) ∧
        ∃ n, ∀ nodes, a.FirstChoices promptTokens maxTokens nodes → nodes.length ≤ n :=
  ⟨KeepsLimit.choices, keepsLimit_of_choices⟩

/-- The first choices come to an end if the hash function tells the nodes apart. -/
theorem FirstChoices.length_le (h : a.Indexed blake2b B) (hapart : HashesApart blake2b B)
    (maxTokens : ℕ) :
    ∃ n, ∀ nodes, a.FirstChoices promptTokens maxTokens nodes → nodes.length ≤ n := by
  obtain ⟨⟨m, nodes⟩, hfind⟩ := findMatchingNodes_ends h hapart (Nat.lt_succ_self _) promptTokens
    (some maxTokens)
  obtain ⟨hrun, -⟩ := findMatchingNodes_eq_some_iff.mp hfind
  exact ⟨nodes.length, fun xs hxs => (hxs.isPrefix_of_run hrun).length_le⟩

/-- The hash function on the buffers of two children of the root, of the tokens `[1]` and
`[1, 2]`, and of a node `[2]` below the first. -/
def siblingDigest (b : Bytes) : UInt64 :=
  if b = nodeBuffer 0 [1] then 0xc6714aa2da6dbef0
  else if b = nodeBuffer 0xc6714aa2da6dbef0 [2] then 0xc57a706bb1647d61
  else 0x53c102ab8ee18afd

/-- The descriptor of the second one. -/
def longSibling : RadixNodeDescriptor :=
  ⟨2, 0, 0x53c102ab8ee18afd, [1, 2], 2, []⟩

/-- A node of two tokens is taken where the limit is one. -/
theorem findMatchingNodes_over_limit :
    (registerAll siblingDigest [⟨2, [1, 2], 0, []⟩]).findMatchingNodes 2 [1, 2] (some 1) =
        some (2, [longSibling]) ∧
      (registerAll siblingDigest [⟨2, [1, 2], 0, []⟩]).findMatchingNodes 2 ([1, 2].take 1) none =
        some (0, []) ∧
      ¬ (registerAll siblingDigest [⟨2, [1, 2], 0, []⟩]).KeepsLimit [1, 2] 1 := by
  have hfind : (registerAll siblingDigest [⟨2, [1, 2], 0, []⟩]).findMatchingNodes 2 [1, 2]
      (some 1) = some (2, [longSibling]) := rfl
  refine ⟨hfind, rfl, ?_⟩
  rintro ⟨fuel, m, nodes, hfind', hle, -⟩
  obtain ⟨rfl, -⟩ := Prod.mk.inj (findMatchingNodes_unique hfind hfind')
  omega

end KacheDBRadixAdapter

end KacheDB
