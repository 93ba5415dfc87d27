import KacheDB.Vllm.Archive

/-!
# Restoring blocks

What the vLLM connector does to the caches of a model when it restores blocks of one shape, in
half precision.  A block that is restored holds what was read at its offset (`restoreBlocks_ok`),
and if every offset can be read and the caches have room for the blocks, the restore succeeds
(`restoreBlocks_succeeds`).
-/

namespace KacheDB

open Foundation KacheDBPrefixCache KacheDBMemoryManager

/-- A KV cache of five dimensions with half-precision blocks of this shape; it may have any
number of blocks. -/
def KVLayer.IsCache (heads size dim : ℕ) (layerKv : KVLayer) : Prop :=
  ∃ t n c, layerKv = .tensor t ∧ t.dtype = .float16 ∧ t.shape = [n, c, heads, size, dim]

/-- A half-precision block of this shape. -/
def IsBlock (heads size dim : ℕ) (t : Tensor) : Prop :=
  t.dtype = .float16 ∧ t.shape = [heads, size, dim]

/-- Caches of this shape, one for each of so many layers. -/
def AreCaches (layers heads size dim : ℕ) (kvCaches : List KVLayer) : Prop :=
  kvCaches.length = layers ∧ ∀ layerKv ∈ kvCaches, layerKv.IsCache heads size dim

/-- The caches of the call have this shape and so many layers. -/
def ConnectorOp.Uniform (layers heads size dim : ℕ) : ConnectorOp → Prop
  | .send _ kvCaches => AreCaches layers heads size dim kvCaches
  | .recv _ kvCaches => AreCaches layers heads size dim kvCaches

section Blocks

variable {heads size dim : ℕ}

/-- The shape of a block in a cache. -/
lemma locate_block {n c bIdx i o : ℕ} {s : List ℕ}
    (h : Tensor.locate [n, c, heads, size, dim] [bIdx, i] = some (o, s)) :
    s = [heads, size, dim] := by
  simp only [Tensor.locate] at h
  split_ifs at h
  · exact (Prod.mk.inj (Option.some.inj h)).2.symm
  · cases h

/-- The keys and values of a block of a cache. -/
lemma isBlock_of_block {layerKv : KVLayer} (h : layerKv.IsCache heads size dim)
    {blockSize bIdx : ℕ} {k v : Tensor} (hkv : layerKv.block blockSize bIdx = .ok (k, v)) :
    IsBlock heads size dim k ∧ IsBlock heads size dim v := by
  obtain ⟨t, n, c, rfl, hdtype, hshape⟩ := h
  have hselect {i : ℕ} {u : Tensor} (hu : t.select [bIdx, i] = .ok u) :
      IsBlock heads size dim u := by
    obtain ⟨o, hloc, hud, -⟩ := Tensor.select_eq_ok_iff.mp hu
    rw [hshape] at hloc
    exact ⟨hud.trans hdtype, locate_block hloc⟩
  have hndim : t.ndim = 5 := by simp [Tensor.ndim, hshape]
  rw [KVLayer.block, if_pos hndim] at hkv
  unfold bothTensors at hkv
  split at hkv
  · cases hkv
  · next k' hk =>
    split at hkv
    · cases hkv
    · next v' hv =>
      obtain ⟨rfl, rfl⟩ := Prod.mk.inj (Except.ok.inj hkv)
      exact ⟨hselect hk, hselect hv⟩

/-- The slot of a block. -/
lemma slotSize_of_isBlock {k v : Tensor} (hk : IsBlock heads size dim k)
    (hv : IsBlock heads size dim v) :
    slotSize (k, v) = TensorBlockDescriptor.sizeof + 2 * (heads * size * dim * 2) := by
  have hprod : ([heads, size, dim] : List ℕ).prod = heads * size * dim := by simp [mul_assoc]
  simp only [slotSize, k.length_data, v.length_data, hk.1, hk.2, hv.1, hv.2, hprod,
    DType.itemSize]
  ring

/-- The blocks of a cache can be written if their slots fit in the pool. -/
lemma ConnectorOp.Uniform.writable {layers blockSize poolSizeBytes : ℕ} {op : ConnectorOp}
    (h : op.Uniform layers heads size dim)
    (hfit : TensorBlockDescriptor.sizeof + 2 * (heads * size * dim * 2) ≤ poolSizeBytes) :
    op.Writable blockSize poolSizeBytes := by
  cases op with
  | recv modelInput kvCaches => trivial
  | send modelInput kvCaches =>
    rintro layerKv hmem bIdx ⟨k, v⟩ hkv
    obtain ⟨hk, hv⟩ := isBlock_of_block (h.2 layerKv hmem) hkv
    refine ⟨by simp [hk.2], ?_⟩
    rw [slotSize_of_isBlock hk hv]
    exact hfit

end Blocks

/-! ## Copying matched blocks -/

section Copying

variable {casts : Casts} {m : KacheDBMemoryManager} {heads size dim : ℕ}

/-- Whatever a successful read at this offset gives, it is these keys and values. -/
def Gives (m : KacheDBMemoryManager) (heads size dim offset : ℕ) (k v : Tensor) : Prop :=
  IsBlock heads size dim k ∧ IsBlock heads size dim v ∧
    ∀ k' v', m.readPagedBlock offset [heads, size, dim] .float16 = .ok (k', v') → k' = k ∧ v' = v

/-- Block `bIdx` of a cache holds these keys and values. -/
def HoldsBlock (t : Tensor) (bIdx : ℕ) (k v : Tensor) : Prop :=
  t.select [bIdx, 0] = .ok k ∧ t.select [bIdx, 1] = .ok v

/-- What restoring one block of one layer does, whatever the type of its elements: the block holds
what was read in half precision, and the other blocks stay what they were. -/
lemma restoreBlock_reads {t : Tensor} {n c : ℕ} (hshape : t.shape = [n, c, heads, size, dim])
    {offset bIdx : ℕ} {layerKv : KVLayer}
    (h : KacheDBConnector.restoreBlock casts m offset bIdx (.tensor t) = (.ok (), layerKv)) :
    ∃ k v t', m.readPagedBlock offset [heads, size, dim] .float16 = .ok (k, v) ∧
      layerKv = .tensor t' ∧ t'.dtype = t.dtype ∧ t'.shape = t.shape ∧
      HoldsBlock t' bIdx (k.converted casts t.dtype) (v.converted casts t.dtype) ∧
      ∀ b i, b ≠ bIdx → t'.select [b, i] = t.select [b, i] := by
  have hndim : t.ndim = 5 := by simp [Tensor.ndim, hshape]
  have hdrop : t.shape.drop 2 = [heads, size, dim] := by simp [hshape]
  simp only [KacheDBConnector.restoreBlock, hdrop, if_pos hndim] at h
  cases hr : m.readPagedBlock offset [heads, size, dim] .float16 with
  | error e => simp [hr] at h
  | ok kv =>
    obtain ⟨k, v⟩ := kv
    obtain ⟨⟨-, hk, -⟩, -, hv, -⟩ := readPagedBlock_eq_ok hr
    simp only [hr] at h
    cases h₁ : t.assign casts [bIdx, 0] k with
    | error e => simp [h₁] at h
    | ok t₁ =>
      simp only [h₁] at h
      cases h₂ : t₁.assign casts [bIdx, 1] v with
      | error e => simp [h₂] at h
      | ok t₂ =>
        simp only [h₂, Prod.mk.injEq, true_and] at h
        obtain ⟨hd₁, hs₁⟩ := Tensor.assign_type h₁
        obtain ⟨hd₂, hs₂⟩ := Tensor.assign_type h₂
        have hloc₀ (o : ℕ) (s : List ℕ) (hl : Tensor.locate t.shape [bIdx, 0] = some (o, s)) :
            k.shape = s := by
          rw [hshape] at hl
          rw [locate_block hl, hk]
        have hloc₁ (o : ℕ) (s : List ℕ) (hl : Tensor.locate t₁.shape [bIdx, 1] = some (o, s)) :
            v.shape = s := by
          rw [hs₁, hshape] at hl
          rw [locate_block hl, hv]
        refine ⟨k, v, t₂, rfl, h.symm, hd₂.trans hd₁, hs₂.trans hs₁, ⟨?_, ?_⟩, ?_⟩
        · rw [Tensor.select_assign_of_ne h₂ [bIdx, 0] rfl (by simp)]
          exact Tensor.select_assign h₁ hloc₀
        · rw [← hd₁]
          exact Tensor.select_assign h₂ hloc₁
        · intro b i hb
          rw [Tensor.select_assign_of_ne h₂ [b, i] rfl (by simp [hb]),
            Tensor.select_assign_of_ne h₁ [b, i] rfl (by simp [hb])]

/-- Restoring the first of several layers restores it and then the others. -/
lemma restoreLayers_cons_ok {bIdx o : ℕ} {offsets : List ℕ} {layer : KVLayer}
    {kvCaches kvCaches' : List KVLayer}
    (h : KacheDBConnector.restoreLayers casts m bIdx (o :: offsets) (layer :: kvCaches) =
      (.ok (), kvCaches')) :
    ∃ layer' rest, KacheDBConnector.restoreBlock casts m o bIdx layer = (.ok (), layer') ∧
      KacheDBConnector.restoreLayers casts m bIdx offsets kvCaches = (.ok (), rest) ∧
      kvCaches' = layer' :: rest := by
  rw [KacheDBConnector.restoreLayers] at h
  rcases hb : KacheDBConnector.restoreBlock casts m o bIdx layer with ⟨e | _, layer'⟩
  · simp [hb] at h
  · rcases hrest : KacheDBConnector.restoreLayers casts m bIdx offsets kvCaches with ⟨res, rest⟩
    simp only [hb, hrest, Prod.mk.injEq] at h
    obtain ⟨rfl, rfl⟩ := h
    exact ⟨layer', rest, rfl, rfl, rfl⟩

/-- Each layer is restored on its own. -/
lemma restoreLayers_ok {bIdx : ℕ} {offsets : List ℕ} {kvCaches kvCaches' : List KVLayer}
    (h : KacheDBConnector.restoreLayers casts m bIdx offsets kvCaches = (.ok (), kvCaches'))
    {l offset : ℕ} {layerKv : KVLayer} (hoffset : offsets[l]? = some offset)
    (hl : kvCaches[l]? = some layerKv) :
    ∃ layerKv', kvCaches'[l]? = some layerKv' ∧
      KacheDBConnector.restoreBlock casts m offset bIdx layerKv = (.ok (), layerKv') := by
  induction offsets generalizing kvCaches kvCaches' l with
  | nil => simp at hoffset
  | cons o offsets ih =>
    cases kvCaches with
    | nil => simp at hl
    | cons layer kvCaches =>
      obtain ⟨layer', rest, hb, hrest, rfl⟩ := restoreLayers_cons_ok h
      cases l with
      | zero =>
        obtain rfl := Option.some.inj hoffset
        obtain rfl := Option.some.inj hl
        exact ⟨layer', rfl, hb⟩
      | succ l => exact ih hrest hoffset hl

/-- A layer without an offset stays what it was. -/
lemma restoreLayers_skip {bIdx : ℕ} {offsets : List ℕ} {kvCaches kvCaches' : List KVLayer}
    (h : KacheDBConnector.restoreLayers casts m bIdx offsets kvCaches = (.ok (), kvCaches'))
    {l : ℕ} (hl : offsets.length ≤ l) : kvCaches'[l]? = kvCaches[l]? := by
  induction offsets generalizing kvCaches kvCaches' l with
  | nil =>
    simp only [KacheDBConnector.restoreLayers, Prod.mk.injEq, true_and] at h
    rw [h]
  | cons o offsets ih =>
    cases kvCaches with
    | nil =>
      simp only [KacheDBConnector.restoreLayers, Prod.mk.injEq, true_and] at h
      rw [← h]
    | cons layer kvCaches =>
      obtain ⟨layer', rest, -, hrest, rfl⟩ := restoreLayers_cons_ok h
      obtain ⟨l, rfl⟩ := Nat.exists_eq_add_of_lt (lt_of_lt_of_le offsets.length.succ_pos hl)
      rw [Nat.zero_add, List.getElem?_cons_succ, List.getElem?_cons_succ]
      exact ih hrest (by rw [List.length_cons] at hl; omega)

/-- Block `j` of a layer holds what is read in half precision at this entry's offset for it. -/
def HoldsRead (casts : Casts) (m : KacheDBMemoryManager) (heads size dim l : ℕ)
    (entry : BlockEntry) (t : Tensor) (j : ℕ) : Prop :=
  ∀ offset, (entry.metadata.layerOffsets.getD [])[l]? = some offset →
    ∃ k v, m.readPagedBlock offset [heads, size, dim] .float16 = .ok (k, v) ∧
      HoldsBlock t j (k.converted casts t.dtype) (v.converted casts t.dtype)

/-- What restoring blocks `bIdx`, `bIdx + 1`, … of a layer does, whatever the type of its elements:
they hold what is read for their entries, and the blocks in front of them stay what they were. -/
lemma restoreBlocks_reads {entries : List BlockEntry} {bIdx : ℕ} {kvCaches kvCaches' : List KVLayer}
    (h : KacheDBConnector.restoreBlocks casts m bIdx entries kvCaches = (.ok (), kvCaches'))
    {l : ℕ} {t : Tensor} {n c : ℕ} (hl : kvCaches[l]? = some (.tensor t))
    (hshape : t.shape = [n, c, heads, size, dim]) :
    ∃ t', kvCaches'[l]? = some (.tensor t') ∧ t'.dtype = t.dtype ∧
      (∀ j entry, entries[j]? = some entry →
        HoldsRead casts m heads size dim l entry t' (bIdx + j)) ∧
      ∀ b i, b < bIdx → t'.select [b, i] = t.select [b, i] := by
  induction entries generalizing bIdx kvCaches t with
  | nil =>
    simp only [KacheDBConnector.restoreBlocks, Prod.mk.injEq, true_and] at h
    exact ⟨t, h ▸ hl, rfl, by simp, fun b i _ => rfl⟩
  | cons entry entries ih =>
    rw [KacheDBConnector.restoreBlocks] at h
    rcases hrest : KacheDBConnector.restoreLayers casts m bIdx
      (entry.metadata.layerOffsets.getD []) kvCaches with ⟨e | _, kvCaches₁⟩
    · simp [hrest] at h
    · simp only [hrest] at h
      -- the layer after the first block
      obtain ⟨t₁, hl₁, hd₁, hs₁, hfirst, hframe⟩ : ∃ t₁, kvCaches₁[l]? = some (.tensor t₁) ∧
          t₁.dtype = t.dtype ∧ t₁.shape = t.shape ∧
          HoldsRead casts m heads size dim l entry t₁ bIdx ∧
          ∀ b i, b ≠ bIdx → t₁.select [b, i] = t.select [b, i] := by
        cases hoffset : (entry.metadata.layerOffsets.getD [])[l]? with
        | none =>
          have hskip := restoreLayers_skip hrest (List.getElem?_eq_none_iff.mp hoffset)
          refine ⟨t, hskip.trans hl, rfl, rfl, fun offset ho => ?_, fun b i _ => rfl⟩
          rw [hoffset] at ho
          cases ho
        | some offset =>
          obtain ⟨layerKv, hl₁, hblock⟩ := restoreLayers_ok hrest hoffset hl
          obtain ⟨k, v, t₁, hr, rfl, hd₁, hs₁, hholds, hframe⟩ := restoreBlock_reads hshape hblock
          refine ⟨t₁, hl₁, hd₁, hs₁, fun offset' ho => ?_, hframe⟩
          obtain rfl := Option.some.inj (hoffset.symm.trans ho)
          exact ⟨k, v, hr, by rwa [hd₁]⟩
      obtain ⟨t', hl', hd', hlater, hearlier⟩ := ih h hl₁ (hs₁.trans hshape)
      refine ⟨t', hl', hd'.trans hd₁, fun j e he => ?_, fun b i hb => ?_⟩
      · cases j with
        | zero =>
          obtain rfl := Option.some.inj he
          intro offset ho
          obtain ⟨k, v, hr, hk, hv⟩ := hfirst offset ho
          rw [hd₁, ← hd'.trans hd₁] at hk hv
          exact ⟨k, v, hr, (hearlier bIdx 0 (by omega)).trans hk,
            (hearlier bIdx 1 (by omega)).trans hv⟩
        | succ j =>
          have hnext := hlater j e he
          rwa [show bIdx + 1 + j = bIdx + (j + 1) by omega] at hnext
      · rw [hearlier b i (by omega), hframe b i (by omega)]

/-- The entry gives these keys and values, layer by layer. -/
def EntryGives (m : KacheDBMemoryManager) (heads size dim : ℕ) (entry : BlockEntry)
    (kvs : List (Tensor × Tensor)) : Prop :=
  ∃ offsets, entry.metadata.layerOffsets = some offsets ∧
    ∀ (l : ℕ) (k v : Tensor), kvs[l]? = some (k, v) → ∃ offset, offsets[l]? = some offset ∧
      Gives m heads size dim offset k v

/-- What restoring blocks `bIdx`, `bIdx + 1`, … of a layer does: they hold what their entries
give, and the blocks in front of them stay what they were. -/
lemma restoreBlocks_ok {entries : List BlockEntry} {kvs : ℕ → List (Tensor × Tensor)} {bIdx : ℕ}
    (hgives : ∀ j entry, entries[j]? = some entry →
      EntryGives m heads size dim entry (kvs (bIdx + j)))
    {kvCaches kvCaches' : List KVLayer}
    (h : KacheDBConnector.restoreBlocks casts m bIdx entries kvCaches = (.ok (), kvCaches'))
    {l : ℕ} {t : Tensor} {n c : ℕ} (hl : kvCaches[l]? = some (.tensor t))
    (hdtype : t.dtype = .float16) (hshape : t.shape = [n, c, heads, size, dim]) :
    ∃ t', kvCaches'[l]? = some (.tensor t') ∧
      (∀ j < entries.length, ∀ k v, (kvs (bIdx + j))[l]? = some (k, v) →
        HoldsBlock t' (bIdx + j) k v) ∧
      ∀ b i, b < bIdx → t'.select [b, i] = t.select [b, i] := by
  obtain ⟨t', hl', hd', hreads, hframe⟩ := restoreBlocks_reads h hl hshape
  refine ⟨t', hl', fun j hj k v hkv => ?_, hframe⟩
  obtain ⟨offsets, hoffsets, hentry⟩ := hgives j _ (List.getElem?_eq_getElem hj)
  obtain ⟨offset, hoffset, hk, hv, hgive⟩ := hentry l k v hkv
  have hread := hreads j _ (List.getElem?_eq_getElem hj) offset
  rw [hoffsets, Option.getD_some] at hread
  obtain ⟨k', v', hr, hholds⟩ := hread hoffset
  obtain ⟨rfl, rfl⟩ := hgive k' v' hr
  have hsame {u : Tensor} (hu : IsBlock heads size dim u) : u.converted casts t'.dtype = u := by
    rw [hd', hdtype, ← hu.1, Tensor.converted_self]
  rwa [hsame hk, hsame hv] at hholds

end Copying

/-! ## Room for blocks -/

section Room

variable {m : KacheDBMemoryManager} {heads size dim : ℕ}

/-- A KV cache of this shape with room for a number of blocks. -/
def KVLayer.HasRoom (blocks heads size dim : ℕ) (layerKv : KVLayer) : Prop :=
  ∃ t n c, layerKv = .tensor t ∧ t.dtype = .float16 ∧ t.shape = [n, c, heads, size, dim] ∧
    blocks ≤ n ∧ 2 ≤ c

/-- A block of this shape at this offset lies within the pool. -/
def Readable (m : KacheDBMemoryManager) (heads size dim offset : ℕ) : Prop :=
  offset + (TensorBlockDescriptor.sizeof + 2 * (heads * size * dim * 2)) ≤ m.buf.length

/-- Copying a block into a cache that has it. -/
lemma assign_succeeds (casts : Casts) {t src : Tensor} {n c bIdx i : ℕ}
    (hshape : t.shape = [n, c, heads, size, dim]) (hsrc : src.shape = [heads, size, dim])
    (hb : bIdx < n) (hi : i < c) : ∃ t', t.assign casts [bIdx, i] src = .ok t' := by
  cases h : t.assign casts [bIdx, i] src with
  | ok t' => exact ⟨t', rfl⟩
  | error e =>
    have hloc : Tensor.locate t.shape [bIdx, i] = some
        (bIdx * [c, heads, size, dim].prod + (i * [heads, size, dim].prod + 0),
          [heads, size, dim]) := by
      rw [hshape, Tensor.locate, if_pos hb, Tensor.locate, if_pos hi, Tensor.locate]
      rfl
    unfold Tensor.assign at h
    split at h
    · next hnone =>
      rw [hloc] at hnone
      cases hnone
    · next o s hsome =>
      rw [hloc] at hsome
      obtain ⟨-, rfl⟩ := Prod.mk.inj (Option.some.inj hsome)
      split at h
      · next hnone => simp [Tensor.copyData, hsrc] at hnone
      · cases h

/-- A tensor of this shape has room for a number of blocks, and one of them can be read at this
offset in half precision. -/
def Takes (m : KacheDBMemoryManager) (blocks offset : ℕ) (shape : List ℕ) : Prop :=
  ∃ n c heads size dim, shape = [n, c, heads, size, dim] ∧ blocks ≤ n ∧ 2 ≤ c ∧
    ∃ k v, m.readPagedBlock offset [heads, size, dim] .float16 = .ok (k, v)

/-- A block that lies within the pool can be taken where there is room for it. -/
lemma takes_of_readable (hpos : 0 < heads * size * dim) {blocks offset : ℕ}
    (hread : Readable m heads size dim offset) {t : Tensor}
    (hroom : (KVLayer.tensor t).HasRoom blocks heads size dim) : Takes m blocks offset t.shape := by
  obtain ⟨t', n, c, htensor, -, hshape, hn, hc⟩ := hroom
  obtain rfl := KVLayer.tensor.inj htensor
  have hprod : ([heads, size, dim] : List ℕ).prod = heads * size * dim := by simp [mul_assoc]
  exact ⟨n, c, heads, size, dim, hshape, hn, hc,
    readPagedBlock_succeeds rfl (hprod ▸ hpos) (hprod ▸ hread)⟩

/-- Restoring one block in one layer that takes it, whatever the type of its elements. -/
lemma restoreBlock_of_takes (casts : Casts) {blocks offset bIdx : ℕ} {t : Tensor}
    (h : Takes m blocks offset t.shape) (hb : bIdx < blocks) :
    ∃ t', KacheDBConnector.restoreBlock casts m offset bIdx (.tensor t) = (.ok (), .tensor t') ∧
      t'.shape = t.shape := by
  obtain ⟨n, c, heads, size, dim, hshape, hn, hc, k, v, hkv⟩ := h
  have hndim : t.ndim = 5 := by simp [Tensor.ndim, hshape]
  have hdrop : t.shape.drop 2 = [heads, size, dim] := by simp [hshape]
  obtain ⟨⟨-, hk, -⟩, -, hv, -⟩ := readPagedBlock_eq_ok hkv
  have hbn : bIdx < n := by omega
  obtain ⟨t₁, h₁⟩ := assign_succeeds casts hshape hk hbn (show 0 < c by omega)
  obtain ⟨-, hs₁⟩ := Tensor.assign_type h₁
  obtain ⟨t₂, h₂⟩ := assign_succeeds casts (hs₁.trans hshape) hv hbn (show 1 < c by omega)
  obtain ⟨-, hs₂⟩ := Tensor.assign_type h₂
  refine ⟨t₂, ?_, hs₂.trans hs₁⟩
  simp only [KacheDBConnector.restoreBlock, hdrop, hkv, if_pos hndim, h₁, h₂]

/-- Restoring one block in all layers. -/
lemma restoreLayers_of_takes (casts : Casts) {blocks bIdx : ℕ} {offsets : List ℕ}
    {tensors : List Tensor} (h : ∀ (l offset : ℕ) (t : Tensor), offsets[l]? = some offset →
      tensors[l]? = some t → Takes m blocks offset t.shape) (hb : bIdx < blocks) :
    ∃ tensors' : List Tensor,
      KacheDBConnector.restoreLayers casts m bIdx offsets (tensors.map .tensor) =
        (.ok (), tensors'.map .tensor) ∧
      tensors'.map Tensor.shape = tensors.map Tensor.shape := by
  induction offsets generalizing tensors with
  | nil => exact ⟨tensors, by simp [KacheDBConnector.restoreLayers], rfl⟩
  | cons offset offsets ih =>
    cases tensors with
    | nil => exact ⟨[], rfl, rfl⟩
    | cons t tensors =>
      obtain ⟨t', hblock, hshape⟩ := restoreBlock_of_takes casts (h 0 offset t rfl rfl) hb
      obtain ⟨tensors', hlayers, hshapes⟩ := ih fun l o u ho hu => h (l + 1) o u ho hu
      refine ⟨t' :: tensors', ?_, ?_⟩
      · rw [List.map_cons, KacheDBConnector.restoreLayers]
        simp only [hblock, hlayers, List.map_cons]
      · rw [List.map_cons, List.map_cons, hshape, hshapes]

/-- Restoring several blocks. -/
lemma restoreBlocks_of_takes (casts : Casts) {blocks bIdx : ℕ} {entries : List BlockEntry}
    {tensors : List Tensor}
    (h : ∀ entry ∈ entries, ∀ (l offset : ℕ) (t : Tensor),
      (entry.metadata.layerOffsets.getD [])[l]? = some offset → tensors[l]? = some t →
        Takes m blocks offset t.shape)
    (hb : bIdx + entries.length ≤ blocks) :
    ∃ tensors' : List Tensor,
      KacheDBConnector.restoreBlocks casts m bIdx entries (tensors.map .tensor) =
      (.ok (), tensors'.map .tensor) := by
  induction entries generalizing bIdx tensors with
  | nil => exact ⟨tensors, rfl⟩
  | cons entry entries ih =>
    rw [List.length_cons] at hb
    obtain ⟨hfirst, hrest⟩ := List.forall_mem_cons.mp h
    obtain ⟨tensors₁, hlayers, hshapes⟩ :=
      restoreLayers_of_takes casts hfirst (show bIdx < blocks by omega)
    have hlater (e : BlockEntry) (he : e ∈ entries) (l offset : ℕ) (t : Tensor)
        (ho : (e.metadata.layerOffsets.getD [])[l]? = some offset) (ht : tensors₁[l]? = some t) :
        Takes m blocks offset t.shape := by
      have hget := congrArg (fun shapes => shapes[l]?) hshapes
      simp only [List.getElem?_map, ht, Option.map_some] at hget
      obtain ⟨u, hu, hshape⟩ := Option.map_eq_some_iff.mp hget.symm
      rw [← hshape]
      exact hrest e he l offset u ho hu
    obtain ⟨tensors', hblocks⟩ := ih hlater (show bIdx + 1 + entries.length ≤ blocks by omega)
    refine ⟨tensors', ?_⟩
    simp only [KacheDBConnector.restoreBlocks, hlayers]
    exact hblocks

/-- Restoring several blocks of one shape. -/
lemma restoreBlocks_succeeds (casts : Casts) (hpos : 0 < heads * size * dim) {blocks bIdx : ℕ}
    {entries : List BlockEntry}
    (hread : ∀ entry ∈ entries, ∀ offset ∈ entry.metadata.layerOffsets.getD [],
      Readable m heads size dim offset)
    (hb : bIdx + entries.length ≤ blocks) {kvCaches : List KVLayer}
    (hroom : ∀ layerKv ∈ kvCaches, layerKv.HasRoom blocks heads size dim) :
    ∃ kvCaches', KacheDBConnector.restoreBlocks casts m bIdx entries kvCaches =
      (.ok (), kvCaches') := by
  obtain ⟨tensors, rfl⟩ : ∃ tensors : List Tensor, kvCaches = tensors.map .tensor := by
    clear hread hb
    induction kvCaches with
    | nil => exact ⟨[], rfl⟩
    | cons layerKv kvCaches ih =>
      obtain ⟨⟨t, n, c, rfl, -⟩, hrest⟩ := List.forall_mem_cons.mp hroom
      obtain ⟨tensors, rfl⟩ := ih hrest
      exact ⟨t :: tensors, rfl⟩
  obtain ⟨tensors', hblocks⟩ := restoreBlocks_of_takes casts (fun entry he l offset t ho ht =>
    takes_of_readable hpos (hread entry he offset (List.mem_of_getElem? ho))
      (hroom _ (List.mem_map_of_mem (List.mem_of_getElem? ht)))) hb
  exact ⟨_, hblocks⟩

end Room

end KacheDB
