import KacheDB.Sglang.Connector

/-!
# Restoring nodes

What the SGLang connector does to its target buffers when it restores nodes one behind the other.
Each position of the targets is covered by one node, and after a restore it holds what was read
for this node (`restoreNodes_ok`).  If every slot can be read and the targets have room for the
nodes, the restore succeeds (`restoreNodes_succeeds`).
-/

namespace KacheDB

open Foundation KacheDBRadixAdapter KacheDBMemoryManager

/-- A tensor of this element type and shape. -/
def Tensor.IsSlice (dtype : DType) (heads tokens dim : ℕ) (t : Tensor) : Prop :=
  t.dtype = dtype ∧ t.shape = [heads, tokens, dim]

namespace KacheDBSGLangConnector

variable {casts : Casts} {m : KacheDBMemoryManager} {dtype : DType} {heads dim : ℕ}

/-- Whatever a successful read at this offset gives, it is these keys and values. -/
def Yields (m : KacheDBMemoryManager) (dtype : DType) (heads tokens dim offset : ℕ)
    (k v : Tensor) : Prop :=
  k.IsSlice dtype heads tokens dim ∧ v.IsSlice dtype heads tokens dim ∧
    ∀ k' v', m.readPagedBlock offset [heads, tokens, dim] dtype = .ok (k', v') → k' = k ∧ v' = v

/-- `t'` is `t` with the positions of `src` from position `o` on. -/
def Copied (heads o n : ℕ) (src t t' : Tensor) : Prop :=
  t'.dtype = t.dtype ∧ t'.shape = t.shape ∧ ∀ i < heads, ∀ p < t.shape.getD 1 0,
    t'.cell i p = if o ≤ p ∧ p < o + n then src.cell i (p - o) else t.cell i p

/-- Copying into a slice for which there is room. -/
lemma copied_of_assignNarrow {o n size : ℕ} {src t t' : Tensor}
    (ht : t.IsSlice dtype heads size dim) (hsrc : src.IsSlice dtype heads n dim)
    (hroom : o + n ≤ size) (h : t.assignNarrow casts o (o + n) src = .ok t') :
    Copied heads o n src t t' := by
  obtain ⟨hd, hs⟩ := ht
  obtain ⟨hd', hs'⟩ := hsrc
  obtain ⟨htype, hshape, -⟩ := Tensor.assignNarrow_eq_ok h hs
  refine ⟨htype, hshape, fun i hi p hp => ?_⟩
  rw [← Tensor.sliceLength_of_le hroom] at hs'
  rw [hs] at hp
  have hcell := Tensor.cell_assignNarrow h hs hs' (hd'.trans hd.symm) hi hp
  rwa [Tensor.sliceLength_of_le hroom, min_eq_left (by omega)] at hcell

/-- What restoring one layer of one node does. -/
lemma restoreLayer_ok {offset o n sizeK sizeV : ℕ} {k v tk tv tk' tv' : Tensor}
    (hyields : Yields m dtype heads n dim offset k v) (hk : tk.IsSlice dtype heads sizeK dim)
    (hv : tv.IsSlice dtype heads sizeV dim) (hroomK : o + n ≤ sizeK) (hroomV : o + n ≤ sizeV)
    (h : restoreLayer casts m offset o n tk tv = (.ok (), tk', tv')) :
    Copied heads o n k tk tk' ∧ Copied heads o n v tv tv' := by
  obtain ⟨hks, hvs, hread⟩ := hyields
  simp only [restoreLayer, hk.1, hk.2] at h
  cases hr : m.readPagedBlock offset [heads, n, dim] dtype with
  | error e => simp [hr] at h
  | ok kv =>
    obtain ⟨k', v'⟩ := kv
    obtain ⟨rfl, rfl⟩ := hread k' v' hr
    simp only [hr] at h
    cases h₁ : tk.assignNarrow casts o (o + n) k' with
    | error e => simp [h₁] at h
    | ok tk₁ =>
      simp only [h₁] at h
      cases h₂ : tv.assignNarrow casts o (o + n) v' with
      | error e => simp [h₂] at h
      | ok tv₁ =>
        simp only [h₂, Prod.mk.injEq, true_and] at h
        obtain ⟨rfl, rfl⟩ := h
        exact ⟨copied_of_assignNarrow hk hks hroomK h₁, copied_of_assignNarrow hv hvs hroomV h₂⟩

/-- Each layer is restored on its own. -/
lemma restoreLayers_ok {o n : ℕ} {offsets : List ℕ} {tks tvs tks' tvs' : List Tensor}
    (h : restoreLayers casts m o n offsets tks tvs = (.ok (), tks', tvs')) {l offset : ℕ}
    {tk tv : Tensor} (hoffset : offsets[l]? = some offset) (hk : tks[l]? = some tk)
    (hv : tvs[l]? = some tv) :
    ∃ tk' tv', tks'[l]? = some tk' ∧ tvs'[l]? = some tv' ∧
      restoreLayer casts m offset o n tk tv = (.ok (), tk', tv') := by
  induction offsets generalizing tks tvs tks' tvs' l with
  | nil => simp at hoffset
  | cons first offsets ih =>
    cases tks with
    | nil => simp at hk
    | cons tk₀ tks =>
      cases tvs with
      | nil => simp at hv
      | cons tv₀ tvs =>
        rw [restoreLayers] at h
        rcases hlayer : restoreLayer casts m first o n tk₀ tv₀ with ⟨e | _, tk₁, tv₁⟩
        · simp [hlayer] at h
        · rcases hrest : restoreLayers casts m o n offsets tks tvs with ⟨res, tks₁, tvs₁⟩
          simp only [hlayer, hrest, Prod.mk.injEq] at h
          obtain ⟨rfl, rfl, rfl⟩ := h
          cases l with
          | zero =>
            obtain rfl := Option.some.inj hoffset
            obtain rfl := Option.some.inj hk
            obtain rfl := Option.some.inj hv
            exact ⟨tk₁, tv₁, rfl, rfl, hlayer⟩
          | succ l => exact ih hrest hoffset hk hv

/-- The number of tokens of some nodes. -/
def total (nodes : List RadixNodeDescriptor) : ℕ :=
  (nodes.map RadixNodeDescriptor.numTokens).sum

/-- `t'` is `t` with the positions of these nodes from position `o` on; `src` says which tensors
hold the positions of a node. -/
def Holds (src : RadixNodeDescriptor → Tensor → Prop) (heads o : ℕ)
    (nodes : List RadixNodeDescriptor) (t t' : Tensor) : Prop :=
  (∀ p < o, ∀ i < heads, t'.cell i p = t.cell i p) ∧
    ∀ p < total nodes, ∃ desc q u, cover nodes p = some (desc, q) ∧ src desc u ∧
      ∀ i < heads, t'.cell i (o + p) = u.cell i q

/-- The first node and the rest. -/
lemma Holds.cons {src : RadixNodeDescriptor → Tensor → Prop} {o : ℕ} {desc : RadixNodeDescriptor}
    {nodes : List RadixNodeDescriptor} {u t t₁ t' : Tensor} (hu : src desc u)
    (hroom : o + desc.numTokens ≤ t.shape.getD 1 0)
    (hcopied : Copied heads o desc.numTokens u t t₁)
    (h : Holds src heads (o + desc.numTokens) nodes t₁ t') :
    Holds src heads o (desc :: nodes) t t' := by
  obtain ⟨-, -, hcells⟩ := hcopied
  obtain ⟨hframe, hlater⟩ := h
  constructor
  · intro p hp i hi
    rw [hframe p (by omega) i hi, hcells i hi p (by omega), if_neg (by omega)]
  · intro p hp
    rw [cover]
    split_ifs with hlt
    · -- a position of the first node
      refine ⟨desc, p, u, rfl, hu, fun i hi => ?_⟩
      rw [hframe (o + p) (by omega) i hi, hcells i hi (o + p) (by omega), if_pos (by omega),
        Nat.add_sub_cancel_left]
    · rw [total, List.map_cons, List.sum_cons] at hp
      obtain ⟨d, q, w, hcover, hw, hcell⟩ := hlater (p - desc.numTokens) (by rw [total]; omega)
      refine ⟨d, q, w, hcover, hw, fun i hi => ?_⟩
      rw [← hcell i hi]
      congr 1
      omega

/-- What restoring nodes from position `o` on does to a layer: every position that a node covers
holds what the node yields, and the positions in front stay what they were. -/
lemma restoreNodes_ok {nodes : List RadixNodeDescriptor} {K V : RadixNodeDescriptor → Tensor → Prop}
    {l : ℕ} (hyields : ∀ desc ∈ nodes, ∃ offset k v, desc.layerOffsets[l]? = some offset ∧
      K desc k ∧ V desc v ∧ Yields m dtype heads desc.numTokens dim offset k v)
    {o : ℕ} {tks tvs tks' tvs' : List Tensor}
    (h : restoreNodes casts m o nodes tks tvs = (.ok (), tks', tvs')) {tk tv : Tensor}
    (hk : tks[l]? = some tk) (hv : tvs[l]? = some tv) {sizeK sizeV : ℕ}
    (htk : tk.IsSlice dtype heads sizeK dim) (htv : tv.IsSlice dtype heads sizeV dim)
    (hroomK : o + total nodes ≤ sizeK) (hroomV : o + total nodes ≤ sizeV) :
    ∃ tk' tv', tks'[l]? = some tk' ∧ tvs'[l]? = some tv' ∧
      Holds K heads o nodes tk tk' ∧ Holds V heads o nodes tv tv' := by
  induction nodes generalizing o tks tvs tk tv with
  | nil =>
    simp only [restoreNodes, Prod.mk.injEq, true_and] at h
    obtain ⟨rfl, rfl⟩ := h
    exact ⟨tk, tv, hk, hv, ⟨fun _ _ _ _ => rfl, by simp [total]⟩, fun _ _ _ _ => rfl,
      by simp [total]⟩
  | cons desc nodes ih =>
    obtain ⟨⟨offset, k, v, hoffset, hK, hV, hyield⟩, hrest⟩ := List.forall_mem_cons.mp hyields
    rw [total, List.map_cons, List.sum_cons, ← total] at hroomK hroomV
    rw [restoreNodes] at h
    rcases hlayers : restoreLayers casts m o desc.numTokens desc.layerOffsets tks tvs with
      ⟨e | _, tks₁, tvs₁⟩
    · simp [hlayers] at h
    · simp only [hlayers] at h
      obtain ⟨tk₁, tv₁, hk₁, hv₁, hlayer⟩ := restoreLayers_ok hlayers hoffset hk hv
      obtain ⟨hcopiedK, hcopiedV⟩ :=
        restoreLayer_ok hyield htk htv (by omega) (by omega) hlayer
      obtain ⟨tk', tv', hk', hv', hholdsK, hholdsV⟩ := ih hrest h hk₁ hv₁
        ⟨hcopiedK.1.trans htk.1, hcopiedK.2.1.trans htk.2⟩
        ⟨hcopiedV.1.trans htv.1, hcopiedV.2.1.trans htv.2⟩ (by omega) (by omega)
      have hsizeK : tk.shape.getD 1 0 = sizeK := by rw [htk.2]; rfl
      have hsizeV : tv.shape.getD 1 0 = sizeV := by rw [htv.2]; rfl
      exact ⟨tk', tv', hk', hv', hholdsK.cons hK (by omega) hcopiedK,
        hholdsV.cons hV (by omega) hcopiedV⟩

/-! ## Room for nodes -/

/-- Targets of this element type and shape with room for `size` tokens, one for each of so many
layers. -/
def AreTargets (dtype : DType) (layers heads size dim : ℕ) (targets : List Tensor) : Prop :=
  targets.length = layers ∧ ∀ t ∈ targets, ∃ n, size ≤ n ∧ t.IsSlice dtype heads n dim

/-- A slot for so many tokens at this offset lies within the pool. -/
def Readable (m : KacheDBMemoryManager) (dtype : DType) (heads tokens dim offset : ℕ) : Prop :=
  offset + (TensorBlockDescriptor.sizeof + 2 * (heads * tokens * dim * dtype.itemSize)) ≤
    m.buf.length

variable {info : TensorDType × ℕ} {layers size : ℕ}

/-- A layer that lies within the pool can be restored where there is room for it. -/
lemma restoreLayer_succeeds (casts : Casts) (hmap : TensorCodec.dtypeMap dtype = some info)
    {n offset o sizeK sizeV : ℕ} (hpos : 0 < heads * n * dim)
    (hread : Readable m dtype heads n dim offset) {tk tv : Tensor}
    (hk : tk.IsSlice dtype heads sizeK dim) (hv : tv.IsSlice dtype heads sizeV dim)
    (hroomK : o + n ≤ sizeK) (hroomV : o + n ≤ sizeV) :
    ∃ tk' tv', restoreLayer casts m offset o n tk tv = (.ok (), tk', tv') ∧
      tk'.IsSlice dtype heads sizeK dim ∧ tv'.IsSlice dtype heads sizeV dim := by
  have hprod : ([heads, n, dim] : List ℕ).prod = heads * n * dim := by simp [mul_assoc]
  obtain ⟨k, v, hkv⟩ : ∃ k v, m.readPagedBlock offset [heads, n, dim] dtype = .ok (k, v) :=
    readPagedBlock_succeeds hmap (hprod ▸ hpos) (hprod ▸ hread)
  obtain ⟨⟨-, hks, -⟩, -, hvs, -⟩ := readPagedBlock_eq_ok hkv
  rw [← Tensor.sliceLength_of_le hroomK] at hks
  rw [← Tensor.sliceLength_of_le hroomV] at hvs
  obtain ⟨tk', htk'⟩ := Tensor.assignNarrow_succeeds casts hk.2 hks
  obtain ⟨tv', htv'⟩ := Tensor.assignNarrow_succeeds casts hv.2 hvs
  obtain ⟨hdk, hsk, -⟩ := Tensor.assignNarrow_eq_ok htk' hk.2
  obtain ⟨hdv, hsv, -⟩ := Tensor.assignNarrow_eq_ok htv' hv.2
  refine ⟨tk', tv', ?_, ⟨hdk.trans hk.1, hsk.trans hk.2⟩, hdv.trans hv.1, hsv.trans hv.2⟩
  simp only [restoreLayer, hk.1, hk.2, hkv, htk', htv']

/-- Restoring one node in all layers. -/
lemma restoreLayers_succeeds (casts : Casts) (hmap : TensorCodec.dtypeMap dtype = some info)
    {n o : ℕ} (hpos : 0 < heads * n * dim) {offsets : List ℕ}
    (hread : ∀ offset ∈ offsets, Readable m dtype heads n dim offset) (hroom : o + n ≤ size)
    {tks tvs : List Tensor} (hk : AreTargets dtype layers heads size dim tks)
    (hv : AreTargets dtype layers heads size dim tvs) :
    ∃ tks' tvs', restoreLayers casts m o n offsets tks tvs = (.ok (), tks', tvs') ∧
      AreTargets dtype layers heads size dim tks' ∧
      AreTargets dtype layers heads size dim tvs' := by
  induction offsets generalizing layers tks tvs with
  | nil => exact ⟨tks, tvs, by simp [restoreLayers], hk, hv⟩
  | cons offset offsets ih =>
    obtain ⟨hoffset, hoffsets⟩ := List.forall_mem_cons.mp hread
    obtain ⟨hlenK, hallK⟩ := hk
    obtain ⟨hlenV, hallV⟩ := hv
    cases tks with
    | nil => exact ⟨[], tvs, by simp [restoreLayers], ⟨hlenK, hallK⟩, hlenV, hallV⟩
    | cons tk tks =>
      cases tvs with
      | nil =>
        rw [List.length_cons] at hlenK
        rw [List.length_nil] at hlenV
        omega
      | cons tv tvs =>
        obtain ⟨⟨sizeK, hsizeK, hslK⟩, hrestK⟩ := List.forall_mem_cons.mp hallK
        obtain ⟨⟨sizeV, hsizeV, hslV⟩, hrestV⟩ := List.forall_mem_cons.mp hallV
        obtain ⟨tk', tv', hlayer, hslK', hslV'⟩ := restoreLayer_succeeds casts hmap hpos hoffset
          hslK hslV (hroom.trans hsizeK) (hroom.trans hsizeV)
        rw [← hlenK, List.length_cons, List.length_cons] at hlenV
        obtain ⟨tks', tvs', hlayers, ⟨hlenK', hallK'⟩, hlenV', hallV'⟩ :=
          ih hoffsets ⟨rfl, hrestK⟩ ⟨Nat.succ.inj hlenV, hrestV⟩
        refine ⟨tk' :: tks', tv' :: tvs', ?_, ⟨?_, ?_⟩, ?_, ?_⟩
        · simp only [restoreLayers, hlayer, hlayers]
        · rw [← hlenK, List.length_cons, List.length_cons, hlenK']
        · exact List.forall_mem_cons.mpr ⟨⟨sizeK, hsizeK, hslK'⟩, hallK'⟩
        · rw [← hlenK, List.length_cons, List.length_cons, hlenV']
        · exact List.forall_mem_cons.mpr ⟨⟨sizeV, hsizeV, hslV'⟩, hallV'⟩

/-- Restoring several nodes. -/
lemma restoreNodes_succeeds (casts : Casts) (hmap : TensorCodec.dtypeMap dtype = some info)
    {nodes : List RadixNodeDescriptor} (hpos : ∀ desc ∈ nodes, 0 < heads * desc.numTokens * dim)
    (hread : ∀ desc ∈ nodes, ∀ offset ∈ desc.layerOffsets,
      Readable m dtype heads desc.numTokens dim offset)
    {o : ℕ} (hroom : o + total nodes ≤ size) {tks tvs : List Tensor}
    (hk : AreTargets dtype layers heads size dim tks)
    (hv : AreTargets dtype layers heads size dim tvs) :
    ∃ tks' tvs', restoreNodes casts m o nodes tks tvs = (.ok (), tks', tvs') := by
  induction nodes generalizing o tks tvs with
  | nil => exact ⟨tks, tvs, rfl⟩
  | cons desc nodes ih =>
    obtain ⟨hpos₀, hposs⟩ := List.forall_mem_cons.mp hpos
    obtain ⟨hread₀, hreads⟩ := List.forall_mem_cons.mp hread
    rw [total, List.map_cons, List.sum_cons, ← total] at hroom
    obtain ⟨tks₁, tvs₁, hlayers, hk₁, hv₁⟩ := restoreLayers_succeeds casts hmap hpos₀ hread₀
      (show o + desc.numTokens ≤ size by omega) hk hv
    obtain ⟨tks', tvs', hnodes⟩ := ih hposs hreads
      (show o + desc.numTokens + total nodes ≤ size by omega) hk₁ hv₁
    refine ⟨tks', tvs', ?_⟩
    simp only [restoreNodes, hlayers]
    exact hnodes

end KacheDBSGLangConnector

end KacheDB
