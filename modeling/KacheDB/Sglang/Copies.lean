import KacheDB.Sglang.Restore

/-!
# The copies of a restore

`restore_prefix` with a log of the copies that it makes: into which layer of which of the two lists
of targets, and into which positions.  The log does not change what is restored
(`restorePrefixTraced_map_fst`), and what is not in it stays as it was (`restoreNodesTraced_frame`).

`restoreNodesTraced_ok` says which positions a successful restore writes: those that a matched node
covers, in the layers for which this node has an offset.  `restoreNodesTraced_tells` says what they
hold afterwards.
-/

namespace KacheDB

open Foundation KacheDBRadixAdapter

namespace KacheDBSGLangConnector

/-- The two lists of targets. -/
inductive Side : Type where
  | keys
  | values
  deriving DecidableEq

/-- The targets of this side. -/
def Side.pick {α : Type} (ks vs : α) : Side → α
  | .keys => ks
  | .values => vs

/-- A copy into the positions from `start` up to `stop` of a layer. -/
structure Copy where
  side : Side
  layer : ℕ
  start : ℕ
  stop : ℕ

/-- The copy into the slice `start:stop` of a target: a slice ends where the target ends. -/
def Copy.into (side : Side) (layer : ℕ) (target : Tensor) (start stop : ℕ) : Copy :=
  ⟨side, layer, start, min stop (target.shape.getD 1 0)⟩

/-- Some copy has written this position. -/
def Written (copies : List Copy) (side : Side) (layer p : ℕ) : Prop :=
  ∃ copy ∈ copies, copy.side = side ∧ copy.layer = layer ∧ copy.start ≤ p ∧ p < copy.stop

/-- `restoreLayer` with its copies. -/
def restoreLayerTraced (casts : Casts) (m : KacheDBMemoryManager)
    (lIdx offset tokenOffset nTokens : ℕ) (targetK targetV : Tensor) :
    (Except Exc Unit × Tensor × Tensor) × List Copy :=
  match targetK.shape with
  | heads :: _ :: dim :: _ =>
    match m.readPagedBlock offset [heads, nTokens, dim] targetK.dtype with
    | .error e => ((.error e, targetK, targetV), [])
    | .ok (kBlock, vBlock) =>
      match targetK.assignNarrow casts tokenOffset (tokenOffset + nTokens) kBlock with
      | .error e => ((.error e, targetK, targetV), [])
      | .ok targetK' =>
        let copyK := Copy.into .keys lIdx targetK tokenOffset (tokenOffset + nTokens)
        match targetV.assignNarrow casts tokenOffset (tokenOffset + nTokens) vBlock with
        | .error e => ((.error e, targetK', targetV), [copyK])
        | .ok targetV' =>
          let copyV := Copy.into .values lIdx targetV tokenOffset (tokenOffset + nTokens)
          ((.ok (), targetK', targetV'), [copyK, copyV])
  | _ => ((.error .indexError, targetK, targetV), [])

/-- `restoreLayers` with its copies, from layer `lIdx` on. -/
def restoreLayersTraced (casts : Casts) (m : KacheDBMemoryManager) (tokenOffset nTokens : ℕ) :
    ℕ → List ℕ → List Tensor → List Tensor →
      (Except Exc Unit × List Tensor × List Tensor) × List Copy
  | _, _ :: _, targetK :: targetKs, [] => ((.error .indexError, targetK :: targetKs, []), [])
  | lIdx, offset :: layerOffsets, targetK :: targetKs, targetV :: targetVs =>
    match restoreLayerTraced casts m lIdx offset tokenOffset nTokens targetK targetV with
    | ((.error e, targetK', targetV'), copies) =>
      ((.error e, targetK' :: targetKs, targetV' :: targetVs), copies)
    | ((.ok _, targetK', targetV'), copies) =>
      let rest :=
        restoreLayersTraced casts m tokenOffset nTokens (lIdx + 1) layerOffsets targetKs targetVs
      ((rest.1.1, targetK' :: rest.1.2.1, targetV' :: rest.1.2.2), copies ++ rest.2)
  | _, _, targetKs, targetVs => ((.ok (), targetKs, targetVs), [])

/-- `restoreNodes` with its copies. -/
def restoreNodesTraced (casts : Casts) (m : KacheDBMemoryManager) :
    ℕ → List RadixNodeDescriptor → List Tensor → List Tensor →
      (Except Exc Unit × List Tensor × List Tensor) × List Copy
  | _, [], targetKs, targetVs => ((.ok (), targetKs, targetVs), [])
  | tokenOffset, desc :: matchedNodes, targetKs, targetVs =>
    match restoreLayersTraced casts m tokenOffset desc.numTokens 0 desc.layerOffsets targetKs
        targetVs with
    | ((.error e, targetKs', targetVs'), copies) => ((.error e, targetKs', targetVs'), copies)
    | ((.ok _, targetKs', targetVs'), copies) =>
      let rest :=
        restoreNodesTraced casts m (tokenOffset + desc.numTokens) matchedNodes targetKs' targetVs'
      (rest.1, copies ++ rest.2)

/-- `restorePrefix` with its copies. -/
def restorePrefixTraced (casts : Casts) (fuel : ℕ) (c : KacheDBSGLangConnector)
    (promptTokens : List ℤ) (targetKs targetVs : List Tensor) :
    Option ((Except Exc (ℕ × Bool) × List Tensor × List Tensor) × List Copy) :=
  match c.radixAdapter.findMatchingNodes fuel promptTokens none with
  | none => none
  | some (matchedTokens, matchedNodes) =>
    if matchedTokens = 0 ∨ matchedNodes.isEmpty then
      some ((.ok (0, false), targetKs, targetVs), [])
    else
      match restoreNodesTraced casts c.memoryManager 0 matchedNodes targetKs targetVs with
      | ((.error e, targetKs', targetVs'), copies) =>
        some ((.error e, targetKs', targetVs'), copies)
      | ((.ok _, targetKs', targetVs'), copies) =>
        some ((.ok (matchedTokens, true), targetKs', targetVs'), copies)

/-! ## The log changes nothing -/

variable {casts : Casts} {m : KacheDBMemoryManager}

lemma restoreLayerTraced_fst (lIdx offset o n : ℕ) (tk tv : Tensor) :
    (restoreLayerTraced casts m lIdx offset o n tk tv).1 =
      restoreLayer casts m offset o n tk tv := by
  unfold restoreLayerTraced restoreLayer
  rcases tk.shape with _ | ⟨heads, _ | ⟨size, _ | ⟨dim, tail⟩⟩⟩
  · rfl
  · rfl
  · rfl
  · simp only
    cases m.readPagedBlock offset [heads, n, dim] tk.dtype with
    | error e => rfl
    | ok kv =>
      simp only
      cases tk.assignNarrow casts o (o + n) kv.1 with
      | error e => rfl
      | ok tk' =>
        simp only
        cases tv.assignNarrow casts o (o + n) kv.2 with
        | error e => rfl
        | ok tv' => rfl

lemma restoreLayersTraced_fst (o n lIdx : ℕ) (offsets : List ℕ) (tks tvs : List Tensor) :
    (restoreLayersTraced casts m o n lIdx offsets tks tvs).1 =
      restoreLayers casts m o n offsets tks tvs := by
  induction offsets generalizing lIdx tks tvs with
  | nil => simp [restoreLayersTraced, restoreLayers]
  | cons offset offsets ih =>
    rcases tks with _ | ⟨tk, tks⟩
    · simp [restoreLayersTraced, restoreLayers]
    · rcases tvs with _ | ⟨tv, tvs⟩
      · rfl
      · rw [restoreLayersTraced, restoreLayers, ← restoreLayerTraced_fst lIdx]
        rcases restoreLayerTraced casts m lIdx offset o n tk tv with ⟨⟨e | _, tk', tv'⟩, copies⟩
        · rfl
        · simp only [← ih (lIdx + 1)]

lemma restoreNodesTraced_fst (o : ℕ) (nodes : List RadixNodeDescriptor) (tks tvs : List Tensor) :
    (restoreNodesTraced casts m o nodes tks tvs).1 = restoreNodes casts m o nodes tks tvs := by
  induction nodes generalizing o tks tvs with
  | nil => rfl
  | cons desc nodes ih =>
    rw [restoreNodesTraced, restoreNodes, ← restoreLayersTraced_fst o desc.numTokens 0]
    rcases restoreLayersTraced casts m o desc.numTokens 0 desc.layerOffsets tks tvs with
      ⟨⟨e | _, tks', tvs'⟩, copies⟩
    · rfl
    · exact ih _ _ _

/-- **The log changes nothing.** -/
theorem restorePrefixTraced_map_fst (fuel : ℕ) (c : KacheDBSGLangConnector)
    (promptTokens : List ℤ) (tks tvs : List Tensor) :
    (c.restorePrefixTraced casts fuel promptTokens tks tvs).map Prod.fst =
      c.restorePrefix casts fuel promptTokens tks tvs := by
  unfold restorePrefixTraced restorePrefix
  cases c.radixAdapter.findMatchingNodes fuel promptTokens none with
  | none => rfl
  | some found =>
    simp only
    split_ifs
    · rfl
    · rw [← restoreNodesTraced_fst]
      rcases restoreNodesTraced casts c.memoryManager 0 found.2 tks tvs with
        ⟨⟨e | _, tks', tvs'⟩, copies⟩
      · rfl
      · rfl

/-! ## What is written -/

@[simp] lemma not_written_nil (side : Side) (l p : ℕ) : ¬ Written [] side l p := by
  simp [Written]

lemma written_append {copies more : List Copy} {side : Side} {l p : ℕ} :
    Written (copies ++ more) side l p ↔ Written copies side l p ∨ Written more side l p := by
  simp only [Written, List.mem_append, or_and_right, exists_or]

/-- The positions of a copy into both targets of a layer. -/
lemma written_pair {lIdx start stop : ℕ} {tk tv : Tensor} {side : Side} {l p : ℕ} :
    Written [Copy.into .keys lIdx tk start stop, Copy.into .values lIdx tv start stop] side l p ↔
      l = lIdx ∧ start ≤ p ∧ p < stop ∧ p < (side.pick tk.shape tv.shape).getD 1 0 := by
  cases side with
  | keys => simp [Written, Copy.into, Side.pick, eq_comm]
  | values => simp [Written, Copy.into, Side.pick, eq_comm]

/-- What the pool holds for a layer at this offset has been copied into both of its targets. -/
def LayerRestored (casts : Casts) (m : KacheDBMemoryManager) (offset o n : ℕ)
    (tk tv tk' tv' : Tensor) : Prop :=
  ∃ kv, m.readPagedBlock offset [tk.shape.getD 0 0, n, tk.shape.getD 2 0] tk.dtype = .ok kv ∧
    tk.assignNarrow casts o (o + n) kv.1 = .ok tk' ∧
    tv.assignNarrow casts o (o + n) kv.2 = .ok tv'

/-- A layer that is restored is written, on both sides. -/
lemma restoreLayerTraced_ok {lIdx offset o n : ℕ} {tk tv tk' tv' : Tensor} {copies : List Copy}
    (h : restoreLayerTraced casts m lIdx offset o n tk tv = ((.ok (), tk', tv'), copies)) :
    copies = [Copy.into .keys lIdx tk o (o + n), Copy.into .values lIdx tv o (o + n)] ∧
      LayerRestored casts m offset o n tk tv tk' tv' := by
  unfold restoreLayerTraced at h
  split at h
  · next heads _ dim _ hshape =>
    cases hread : m.readPagedBlock offset [heads, n, dim] tk.dtype with
    | error e => simp [hread] at h
    | ok kv =>
      simp only [hread] at h
      cases hk : tk.assignNarrow casts o (o + n) kv.1 with
      | error e => simp [hk] at h
      | ok tk₁ =>
        simp only [hk] at h
        cases hv : tv.assignNarrow casts o (o + n) kv.2 with
        | error e => simp [hv] at h
        | ok tv₁ =>
          simp only [hv, Prod.mk.injEq, true_and] at h
          obtain ⟨⟨rfl, rfl⟩, rfl⟩ := h
          refine ⟨rfl, kv, ?_, hk, hv⟩
          rw [hshape]
          exact hread
  · simp at h

/-- The targets of a first layer and of the others. -/
lemma Side.pick_cons {α : Type} (side : Side) (k v : α) (ks vs : List α) :
    side.pick (k :: ks) (v :: vs) = side.pick k v :: side.pick ks vs := by
  cases side <;> rfl

lemma Side.getElem?_pick_map {α β : Type} (side : Side) (f : α → β) (ks vs : List α) (l : ℕ) :
    (side.pick (ks.map f) (vs.map f))[l]? = (side.pick ks vs)[l]?.map f := by
  cases side with
  | keys => exact List.getElem?_map
  | values => exact List.getElem?_map

/-- What a successful restore of layers does: nothing if there is no target for the keys, and
otherwise it restores the first layer and then the others. -/
lemma restoreLayersTraced_cons_ok {o n lIdx offset : ℕ} {offsets : List ℕ}
    {tks tvs tks' tvs' : List Tensor} {copies : List Copy}
    (h : restoreLayersTraced casts m o n lIdx (offset :: offsets) tks tvs =
      ((.ok (), tks', tvs'), copies)) :
    (tks = [] ∧ tks' = [] ∧ tvs' = tvs ∧ copies = []) ∨
      ∃ tk ks tv vs tk' ks' tv' vs' more, tks = tk :: ks ∧ tvs = tv :: vs ∧ tks' = tk' :: ks' ∧
        tvs' = tv' :: vs' ∧
        copies = [Copy.into .keys lIdx tk o (o + n), Copy.into .values lIdx tv o (o + n)] ++ more ∧
        LayerRestored casts m offset o n tk tv tk' tv' ∧
        restoreLayersTraced casts m o n (lIdx + 1) offsets ks vs = ((.ok (), ks', vs'), more) := by
  rcases tks with _ | ⟨tk, ks⟩
  · simp only [restoreLayersTraced, Prod.mk.injEq, true_and] at h
    obtain ⟨⟨rfl, rfl⟩, rfl⟩ := h
    exact .inl ⟨rfl, rfl, rfl, rfl⟩
  · rcases tvs with _ | ⟨tv, vs⟩
    · simp [restoreLayersTraced] at h
    · rw [restoreLayersTraced] at h
      rcases hlayer : restoreLayerTraced casts m lIdx offset o n tk tv with
        ⟨⟨e | _, tk', tv'⟩, first⟩
      · simp [hlayer] at h
      · rcases hrest : restoreLayersTraced casts m o n (lIdx + 1) offsets ks vs with
          ⟨⟨res, ks', vs'⟩, more⟩
        simp only [hlayer, hrest, Prod.mk.injEq] at h
        obtain ⟨⟨rfl, rfl, rfl⟩, rfl⟩ := h
        obtain ⟨rfl, hrestored⟩ := restoreLayerTraced_ok hlayer
        right
        exact ⟨tk, ks, tv, vs, tk', ks', tv', vs', more, rfl, rfl, rfl, rfl, rfl, hrestored, hrest⟩

/-- A successful restore of nodes restores the layers of the first one and then the others. -/
lemma restoreNodesTraced_cons_ok {o : ℕ} {desc : RadixNodeDescriptor}
    {nodes : List RadixNodeDescriptor} {tks tvs tks' tvs' : List Tensor} {copies : List Copy}
    (h : restoreNodesTraced casts m o (desc :: nodes) tks tvs = ((.ok (), tks', tvs'), copies)) :
    ∃ tks₁ tvs₁ first more,
      restoreLayersTraced casts m o desc.numTokens 0 desc.layerOffsets tks tvs =
        ((.ok (), tks₁, tvs₁), first) ∧
      restoreNodesTraced casts m (o + desc.numTokens) nodes tks₁ tvs₁ =
        ((.ok (), tks', tvs'), more) ∧
      copies = first ++ more := by
  rw [restoreNodesTraced] at h
  rcases hlayers : restoreLayersTraced casts m o desc.numTokens 0 desc.layerOffsets tks tvs with
    ⟨⟨e | _, tks₁, tvs₁⟩, first⟩
  · simp [hlayers] at h
  · rcases hrest : restoreNodesTraced casts m (o + desc.numTokens) nodes tks₁ tvs₁ with
      ⟨res, more⟩
    simp only [hlayers, hrest, Prod.mk.injEq] at h
    obtain ⟨rfl, rfl⟩ := h
    exact ⟨tks₁, tvs₁, first, more, rfl, hrest, rfl⟩

/-- The layers that are restored are written: those that have an offset and a target for the
keys. -/
lemma restoreLayersTraced_ok {o n lIdx : ℕ} {offsets : List ℕ} {tks tvs tks' tvs' : List Tensor}
    {copies : List Copy}
    (h : restoreLayersTraced casts m o n lIdx offsets tks tvs = ((.ok (), tks', tvs'), copies)) :
    tks'.map Tensor.shape = tks.map Tensor.shape ∧ tvs'.map Tensor.shape = tvs.map Tensor.shape ∧
      ∀ side l p, Written copies side l p ↔ ∃ i s, l = lIdx + i ∧ i < offsets.length ∧
        i < tks.length ∧ (side.pick (tks.map Tensor.shape) (tvs.map Tensor.shape))[i]? = some s ∧
        o ≤ p ∧ p < o + n ∧ p < s.getD 1 0 := by
  induction offsets generalizing lIdx tks tvs tks' tvs' copies with
  | nil =>
    simp only [restoreLayersTraced, Prod.mk.injEq, true_and] at h
    obtain ⟨⟨rfl, rfl⟩, rfl⟩ := h
    exact ⟨rfl, rfl, by simp⟩
  | cons offset offsets ih =>
    rcases restoreLayersTraced_cons_ok h with ⟨rfl, rfl, rfl, rfl⟩ |
      ⟨tk, ks, tv, vs, tk', ks', tv', vs', more, rfl, rfl, rfl, rfl, rfl, ⟨kv, -, hk, hv⟩, hrest⟩
    · exact ⟨rfl, rfl, by simp⟩
    · obtain ⟨hshapesK, hshapesV, hwritten⟩ := ih hrest
      refine ⟨?_, ?_, fun side l p => ?_⟩
      · rw [List.map_cons, List.map_cons, hshapesK, (Tensor.assignNarrow_shape hk).1]
      · rw [List.map_cons, List.map_cons, hshapesV, (Tensor.assignNarrow_shape hv).1]
      · rw [written_append, written_pair, hwritten, List.map_cons, List.map_cons, Side.pick_cons]
        constructor
        · rintro (⟨rfl, hstart, hstop, hsize⟩ | ⟨i, s, rfl, hoffset, hi, hs, hp⟩)
          · exact ⟨0, _, rfl, by simp, by simp, rfl, hstart, hstop, hsize⟩
          · exact ⟨i + 1, s, by omega, by simpa using hoffset, by simpa using hi, hs, hp⟩
        · rintro ⟨i, s, rfl, hoffset, hi, hs, hstart, hstop, hsize⟩
          cases i with
          | zero =>
            obtain rfl := Option.some.inj hs
            exact .inl ⟨rfl, hstart, hstop, hsize⟩
          | succ i =>
            exact .inr ⟨i, s, by omega, by simpa using hoffset, by simpa using hi, hs, hstart,
              hstop, hsize⟩

/-- What restoring nodes from position `o` on writes: the positions that a node covers, in the
layers for which it has an offset. -/
lemma restoreNodesTraced_ok {nodes : List RadixNodeDescriptor} {o : ℕ}
    {tks tvs tks' tvs' : List Tensor} {copies : List Copy}
    (h : restoreNodesTraced casts m o nodes tks tvs = ((.ok (), tks', tvs'), copies))
    (side : Side) (l p : ℕ) :
    Written copies side l p ↔ l < tks.length ∧
      (∃ s, (side.pick (tks.map Tensor.shape) (tvs.map Tensor.shape))[l]? = some s ∧
        p < s.getD 1 0) ∧
      o ≤ p ∧ ∃ desc q, cover nodes (p - o) = some (desc, q) ∧ l < desc.layerOffsets.length := by
  induction nodes generalizing o tks tvs copies with
  | nil =>
    simp only [restoreNodesTraced, Prod.mk.injEq, true_and] at h
    obtain ⟨-, rfl⟩ := h
    simp [cover]
  | cons desc nodes ih =>
    obtain ⟨tks₁, tvs₁, first, more, hlayers, hrest, rfl⟩ := restoreNodesTraced_cons_ok h
    obtain ⟨hshapesK, hshapesV, hwritten⟩ := restoreLayersTraced_ok hlayers
    have hlen : tks₁.length = tks.length := by simpa using congrArg List.length hshapesK
    rw [written_append, hwritten, ih hrest, hshapesK, hshapesV, hlen, cover]
    by_cases hp : o ≤ p
    · by_cases hfirst : p < o + desc.numTokens
      · -- a position of the first node
        rw [if_pos (by omega)]
        constructor
        · rintro (⟨i, s, rfl, hoffset, hi, hs, -, -, hsize⟩ | ⟨-, -, hlater, -⟩)
          · rw [zero_add]
            exact ⟨hi, ⟨s, hs, hsize⟩, hp, desc, _, rfl, hoffset⟩
          · omega
        · rintro ⟨hl, ⟨s, hs, hsize⟩, -, desc', q, hcover, hoffset⟩
          obtain ⟨rfl, -⟩ := Prod.mk.inj (Option.some.inj hcover)
          exact .inl ⟨l, s, (zero_add l).symm, hoffset, hl, hs, hp, hfirst, hsize⟩
      · rw [if_neg (by omega), Nat.sub_sub]
        constructor
        · rintro (⟨i, s, -, -, -, -, -, hstop, -⟩ | ⟨hl, hs, -, hcover⟩)
          · omega
          · exact ⟨hl, hs, hp, hcover⟩
        · rintro ⟨hl, hs, -, hcover⟩
          exact .inr ⟨hl, hs, by omega, hcover⟩
    · constructor
      · rintro (⟨i, s, -, -, -, -, hstart, -⟩ | ⟨-, -, hlater, -⟩)
        · exact absurd hstart hp
        · omega
      · rintro ⟨-, -, hstart, -⟩
        exact absurd hstart hp

/-! ## What is not written -/

/-- `t'` is `t`, apart from the positions that have been written. -/
def Kept (copies : List Copy) (side : Side) (l : ℕ) (t t' : Tensor) : Prop :=
  (t'.dtype = t.dtype ∧ t'.shape = t.shape) ∧ ∀ i < t.shape.getD 0 0, ∀ p < t.shape.getD 1 0,
    ¬ Written copies side l p → t'.cell i p = t.cell i p

lemma Kept.refl (copies : List Copy) (side : Side) (l : ℕ) (t : Tensor) :
    Kept copies side l t t :=
  ⟨⟨rfl, rfl⟩, fun _ _ _ _ _ => rfl⟩

/-- First these copies and then more. -/
lemma Kept.trans {copies more : List Copy} {side : Side} {l : ℕ} {t t₁ t' : Tensor}
    (h : Kept copies side l t t₁) (h' : Kept more side l t₁ t') :
    Kept (copies ++ more) side l t t' := by
  obtain ⟨⟨hdtype, hshape⟩, hcells⟩ := h
  obtain ⟨⟨hdtype', hshape'⟩, hcells'⟩ := h'
  refine ⟨⟨hdtype'.trans hdtype, hshape'.trans hshape⟩, fun i hi p hp hnot => ?_⟩
  rw [written_append, not_or] at hnot
  rw [hcells' i (hshape ▸ hi) p (hshape ▸ hp) hnot.2, hcells i hi p hp hnot.1]

/-- Copying into a slice keeps what is outside of it. -/
lemma kept_of_assignNarrow {copies : List Copy} {side : Side} {l o n : ℕ} {t t' src : Tensor}
    (h : t.assignNarrow casts o (o + n) src = .ok t')
    (hcopies : ∀ p, o ≤ p → p < o + n → p < t.shape.getD 1 0 → Written copies side l p) :
    Kept copies side l t t' := by
  obtain ⟨hshape, a, size, r, rest, ht⟩ := Tensor.assignNarrow_shape h
  refine ⟨⟨(Tensor.assignNarrow_eq_ok h ht).1, hshape⟩, fun i hi p hp hnot => ?_⟩
  rw [ht] at hi hp
  have hp' : p < size := hp
  refine Tensor.cell_assignNarrow_of_apart h ht hi hp fun hin => hnot (hcopies p ?_ ?_ ?_)
  · omega
  · unfold Tensor.sliceLength at hin
    omega
  · rw [ht]
    exact hp

/-- Restoring the layers of a node keeps what is not written. -/
lemma restoreLayersTraced_frame {o n lIdx : ℕ} {offsets : List ℕ}
    {tks tvs tks' tvs' : List Tensor} {copies : List Copy}
    (h : restoreLayersTraced casts m o n lIdx offsets tks tvs = ((.ok (), tks', tvs'), copies))
    {side : Side} {i : ℕ} {t : Tensor} (ht : (side.pick tks tvs)[i]? = some t) :
    ∃ t', (side.pick tks' tvs')[i]? = some t' ∧ Kept copies side (lIdx + i) t t' := by
  induction offsets generalizing lIdx tks tvs tks' tvs' copies i with
  | nil =>
    simp only [restoreLayersTraced, Prod.mk.injEq, true_and] at h
    obtain ⟨⟨rfl, rfl⟩, rfl⟩ := h
    exact ⟨t, ht, .refl _ _ _ t⟩
  | cons offset offsets ih =>
    rcases restoreLayersTraced_cons_ok h with ⟨rfl, rfl, rfl, rfl⟩ |
      ⟨tk, ks, tv, vs, tk', ks', tv', vs', more, rfl, rfl, rfl, rfl, rfl, ⟨kv, -, hk, hv⟩, hrest⟩
    · exact ⟨t, ht, .refl _ _ _ t⟩
    · rw [Side.pick_cons] at ht ⊢
      cases i with
      | zero =>
        obtain rfl := Option.some.inj ht
        refine ⟨_, rfl, Kept.trans ?_ (.refl more side _ _)⟩
        cases side with
        | keys =>
          exact kept_of_assignNarrow hk fun p hstart hstop hsize =>
            written_pair.mpr ⟨rfl, hstart, hstop, hsize⟩
        | values =>
          exact kept_of_assignNarrow hv fun p hstart hstop hsize =>
            written_pair.mpr ⟨rfl, hstart, hstop, hsize⟩
      | succ i =>
        obtain ⟨t', ht', hkept⟩ := ih hrest ht
        rw [add_right_comm] at hkept
        exact ⟨t', ht', (Kept.refl _ _ _ t).trans hkept⟩

/-- **What is not written stays as it was.** -/
theorem restoreNodesTraced_frame {nodes : List RadixNodeDescriptor} {o : ℕ}
    {tks tvs tks' tvs' : List Tensor} {copies : List Copy}
    (h : restoreNodesTraced casts m o nodes tks tvs = ((.ok (), tks', tvs'), copies))
    {side : Side} {l : ℕ} {t : Tensor} (ht : (side.pick tks tvs)[l]? = some t) :
    ∃ t', (side.pick tks' tvs')[l]? = some t' ∧ Kept copies side l t t' := by
  induction nodes generalizing o tks tvs t copies with
  | nil =>
    simp only [restoreNodesTraced, Prod.mk.injEq, true_and] at h
    obtain ⟨⟨rfl, rfl⟩, rfl⟩ := h
    exact ⟨t, ht, .refl _ _ _ t⟩
  | cons desc nodes ih =>
    obtain ⟨tks₁, tvs₁, first, more, hlayers, hrest, rfl⟩ := restoreNodesTraced_cons_ok h
    obtain ⟨t₁, ht₁, hkept⟩ := restoreLayersTraced_frame hlayers ht
    obtain ⟨t', ht', hkept'⟩ := ih hrest ht₁
    rw [zero_add] at hkept
    exact ⟨t', ht', hkept.trans hkept'⟩

/-! ## What the written positions hold -/

/-- Position `p` of a restored target holds position `q` of the block that the pool has at this
offset, as `copy_` puts it into the target `t`.  The block is read with the shape and the element
type of the target `tk` for the keys. -/
def Shows (casts : Casts) (m : KacheDBMemoryManager) (offset n : ℕ) (side : Side)
    (tk t t' : Tensor) (q p : ℕ) : Prop :=
  ∃ kv block, m.readPagedBlock offset [tk.shape.getD 0 0, n, tk.shape.getD 2 0] tk.dtype = .ok kv ∧
    (side.pick kv.1 kv.2).copied casts t.dtype
      (t.shape.set 1 (Tensor.sliceLength (t.shape.getD 1 0) (p - q) (p - q + n))) = some block ∧
    ∀ i < t.shape.getD 0 0, t'.cell i p = block.cell i q

/-- A position that a block has been copied into shows this block. -/
lemma shows_of_assignNarrow (side : Side) {offset o n p : ℕ} {tk t t' : Tensor}
    {kv : Tensor × Tensor}
    (hread : m.readPagedBlock offset [tk.shape.getD 0 0, n, tk.shape.getD 2 0] tk.dtype = .ok kv)
    (h : t.assignNarrow casts o (o + n) (side.pick kv.1 kv.2) = .ok t')
    (hstart : o ≤ p) (hstop : p < o + n) (hsize : p < t.shape.getD 1 0) :
    Shows casts m offset n side tk t t' (p - o) p := by
  obtain ⟨-, a, size, r, rest, ht⟩ := Tensor.assignNarrow_shape h
  obtain ⟨block, hcopied, hcells⟩ := Tensor.cell_assignNarrow_within h ht
  rw [ht] at hsize
  have hlt : p < size := hsize
  have hmin : min o size = o := min_eq_left (by omega)
  rw [hmin] at hcells
  refine ⟨kv, block, hread, ?_, fun i hi => ?_⟩
  · rw [Nat.sub_sub_self hstart, ht]
    exact hcopied
  · rw [ht] at hi
    apply hcells i hi p hlt hstart
    unfold Tensor.sliceLength
    omega

/-- The positions of a node in a layer that has been restored. -/
lemma restoreLayersTraced_shows {o n lIdx offset : ℕ} {offsets : List ℕ}
    {tks tvs tks' tvs' : List Tensor} {copies : List Copy}
    (h : restoreLayersTraced casts m o n lIdx offsets tks tvs = ((.ok (), tks', tvs'), copies))
    {side : Side} {i : ℕ} {tk t : Tensor} (hoffset : offsets[i]? = some offset)
    (htk : tks[i]? = some tk) (ht : (side.pick tks tvs)[i]? = some t) :
    ∃ t', (side.pick tks' tvs')[i]? = some t' ∧ ∀ p, o ≤ p → p < o + n → p < t.shape.getD 1 0 →
      Shows casts m offset n side tk t t' (p - o) p := by
  induction offsets generalizing lIdx tks tvs tks' tvs' copies i with
  | nil => simp at hoffset
  | cons first offsets ih =>
    rcases restoreLayersTraced_cons_ok h with ⟨rfl, rfl, rfl, rfl⟩ |
      ⟨tk₀, ks, tv₀, vs, tk', ks', tv', vs', more, rfl, rfl, rfl, rfl, rfl, ⟨kv, hread, hk, hv⟩,
        hrest⟩
    · simp at htk
    · rw [Side.pick_cons] at ht ⊢
      cases i with
      | zero =>
        obtain rfl := Option.some.inj hoffset
        obtain rfl := Option.some.inj htk
        obtain rfl := Option.some.inj ht
        refine ⟨_, rfl, fun p hstart hstop hsize => ?_⟩
        cases side with
        | keys => exact shows_of_assignNarrow .keys hread hk hstart hstop hsize
        | values => exact shows_of_assignNarrow .values hread hv hstart hstop hsize
      | succ i => exact ih hrest hoffset htk ht

/-- Every position that has been written shows its position of the node that covers it. -/
lemma restoreNodesTraced_shows {nodes : List RadixNodeDescriptor} {o : ℕ}
    {tks tvs tks' tvs' : List Tensor} {copies : List Copy}
    (h : restoreNodesTraced casts m o nodes tks tvs = ((.ok (), tks', tvs'), copies))
    {side : Side} {l p : ℕ} {tk t : Tensor} (htk : tks[l]? = some tk)
    (ht : (side.pick tks tvs)[l]? = some t) (hwritten : Written copies side l p) :
    ∃ t' desc q offset, (side.pick tks' tvs')[l]? = some t' ∧
      cover nodes (p - o) = some (desc, q) ∧ desc.layerOffsets[l]? = some offset ∧
      Shows casts m offset desc.numTokens side tk t t' q p := by
  induction nodes generalizing o tks tvs tk t copies with
  | nil =>
    simp only [restoreNodesTraced, Prod.mk.injEq, true_and] at h
    obtain ⟨-, rfl⟩ := h
    exact absurd hwritten (not_written_nil side l p)
  | cons desc nodes ih =>
    obtain ⟨tks₁, tvs₁, first, more, hlayers, hrest, rfl⟩ := restoreNodesTraced_cons_ok h
    rw [written_append] at hwritten
    by_cases hmore : Written more side l p
    · -- a position of a later node
      obtain ⟨-, -, hlater, -⟩ := (restoreNodesTraced_ok hrest side l p).mp hmore
      have hkeys : (Side.keys.pick tks tvs)[l]? = some tk := htk
      obtain ⟨tk₁, htk₁, ⟨hdtypeK, hshapeK⟩, -⟩ := restoreLayersTraced_frame hlayers hkeys
      obtain ⟨t₁, ht₁, ⟨hdtype, hshape⟩, -⟩ := restoreLayersTraced_frame hlayers ht
      obtain ⟨t', later, q, offset, ht', hcover, hoffset, hshows⟩ := ih hrest htk₁ ht₁ hmore
      refine ⟨t', later, q, offset, ht', ?_, hoffset, ?_⟩
      · rw [cover, if_neg (by omega), Nat.sub_sub]
        exact hcover
      · rwa [Shows, hdtypeK, hshapeK, hdtype, hshape] at hshows
    · -- a position of the first node, which is not written again
      obtain ⟨-, -, hwrites⟩ := restoreLayersTraced_ok hlayers
      obtain ⟨i, s, hl, hoffset, -, hs, hstart, hstop, hsize⟩ :=
        (hwrites side l p).mp (hwritten.resolve_right hmore)
      obtain rfl : l = i := by omega
      rw [Side.getElem?_pick_map, ht] at hs
      obtain rfl := Option.some.inj hs
      obtain ⟨t₁, ht₁, hshows⟩ :=
        restoreLayersTraced_shows hlayers (List.getElem?_eq_getElem hoffset) htk ht
      obtain ⟨t₁', ht₁', ⟨-, hshape⟩, -⟩ := restoreLayersTraced_frame hlayers ht
      obtain rfl := Option.some.inj (ht₁.symm.trans ht₁')
      obtain ⟨t', ht', -, hcells⟩ := restoreNodesTraced_frame hrest ht₁
      obtain ⟨kv, block, hread, hcopied, hblock⟩ := hshows p hstart hstop hsize
      refine ⟨t', desc, p - o, _, ht', ?_, List.getElem?_eq_getElem hoffset, kv, block, hread,
        hcopied, fun i hi => ?_⟩
      · rw [cover, if_pos (by omega)]
      · rw [← hblock i hi]
        exact hcells i (hshape ▸ hi) p (hshape ▸ hsize) hmore

/-- The log tells what has become of the targets: a position that has been written holds what the
pool has for the node that covers it, and every other position holds what it held. -/
structure CopiesTell (casts : Casts) (m : KacheDBMemoryManager) (nodes : List RadixNodeDescriptor)
    (copies : List Copy) (tks tvs tks' tvs' : List Tensor) : Prop where
  written : ∀ side l p, Written copies side l p → ∃ tk t t' desc q offset, tks[l]? = some tk ∧
    (side.pick tks tvs)[l]? = some t ∧ (side.pick tks' tvs')[l]? = some t' ∧
    cover nodes p = some (desc, q) ∧ desc.layerOffsets[l]? = some offset ∧
    Shows casts m offset desc.numTokens side tk t t' q p
  kept : ∀ side l t, (side.pick tks tvs)[l]? = some t →
    ∃ t', (side.pick tks' tvs')[l]? = some t' ∧ Kept copies side l t t'

/-- **The log of a successful restore tells what has become of the targets.** -/
theorem restoreNodesTraced_tells {nodes : List RadixNodeDescriptor}
    {tks tvs tks' tvs' : List Tensor} {copies : List Copy}
    (h : restoreNodesTraced casts m 0 nodes tks tvs = ((.ok (), tks', tvs'), copies)) :
    CopiesTell casts m nodes copies tks tvs tks' tvs' := by
  constructor
  · intro side l p hwritten
    obtain ⟨hl, ⟨s, hs, -⟩, -⟩ := (restoreNodesTraced_ok h side l p).mp hwritten
    rw [Side.getElem?_pick_map] at hs
    obtain ⟨t, ht, -⟩ := Option.map_eq_some_iff.mp hs
    obtain ⟨t', desc, q, offset, ht', hcover, hoffset, hshows⟩ :=
      restoreNodesTraced_shows h (List.getElem?_eq_getElem hl) ht hwritten
    exact ⟨tks[l], t, t', desc, q, offset, List.getElem?_eq_getElem hl, ht, ht', hcover, hoffset,
      hshows⟩
  · exact fun side l t ht => restoreNodesTraced_frame h ht

end KacheDBSGLangConnector

end KacheDB
