import KacheDB.Dma
import KacheDB.Foundation.Runs

/-!
# Runs of writes

What a memory manager does over any run of `write_paged_block`.

`write_run` is the law of the ring buffer: every block whose slot fits in the pool is placed within
it, its write changes nothing else, and the block can be read back as long as no later slot meets
its own.  `pool_bounded_iff` says which runs keep the pool at its size: those in which every slot
that is written fits.  The test for the end of the pool is made before the ring is wrapped and not
again, so that a larger slot is written over the whole pool and makes the buffer longer.
-/

namespace KacheDB

open Foundation

/-- The arguments of `write_paged_block`. -/
structure WriteArgs where
  keyTensor : Tensor
  valTensor : Tensor
  layerIdx : ℕ
  seqPrefixHash : UInt64
  blockId : ℕ

namespace WriteArgs

/-- The number of bytes of the slot. -/
def slotSize (w : WriteArgs) : ℕ :=
  KacheDBMemoryManager.slotSize (w.keyTensor, w.valTensor)

lemma slotSize_eq (w : WriteArgs) : w.slotSize =
    TensorBlockDescriptor.sizeof + (w.keyTensor.data.length + w.valTensor.data.length) :=
  rfl

/-- The keys and values have one shape, which is not empty, and one of the element types in the map
of the codec. -/
structure SameKind (w : WriteArgs) : Prop where
  pos : 0 < w.keyTensor.shape.prod
  mapped : ∃ info, TensorCodec.dtypeMap w.keyTensor.dtype = some info
  shape_val : w.valTensor.shape = w.keyTensor.shape
  dtype_val : w.valTensor.dtype = w.keyTensor.dtype

/-- The keys and values have one shape of three dimensions that are not empty, and one of the
element types in the map of the codec. -/
structure IsBlock (w : WriteArgs) : Prop where
  shape_eq : ∃ h t d, 1 ≤ h ∧ 1 ≤ t ∧ 1 ≤ d ∧ w.keyTensor.shape = [h, t, d]
  mapped : ∃ info, TensorCodec.dtypeMap w.keyTensor.dtype = some info
  shape_val : w.valTensor.shape = w.keyTensor.shape
  dtype_val : w.valTensor.dtype = w.keyTensor.dtype

lemma IsBlock.sameKind {w : WriteArgs} (hw : w.IsBlock) : w.SameKind := by
  obtain ⟨⟨h, t, d, hh, ht, hd, hshape⟩, hmap, hshapeV, hdtypeV⟩ := hw
  refine ⟨?_, hmap, hshapeV, hdtypeV⟩
  rw [hshape]
  simp only [List.prod_cons, List.prod_nil, mul_one]
  positivity

/-- The keys have fewer than three dimensions, so that nothing is written, or the slot fits in the
pool. -/
def Bounded (poolSizeBytes : ℕ) (w : WriteArgs) : Prop :=
  w.keyTensor.shape.length < 3 ∨ w.slotSize ≤ poolSizeBytes

end WriteArgs

namespace KacheDBMemoryManager

/-- One call. -/
def write (m : KacheDBMemoryManager) (w : WriteArgs) :
    Except Exc (ℕ × ℕ × TensorBlockDescriptor) × KacheDBMemoryManager :=
  m.writePagedBlock w.keyTensor w.valTensor w.layerIdx w.seqPrefixHash w.blockId

/-- The manager after a run of calls. -/
def writeAll (m : KacheDBMemoryManager) (ws : List WriteArgs) : KacheDBMemoryManager :=
  ws.foldl (fun m w => (m.write w).2) m

/-- The slots that the calls of a run return. -/
def returnedSlots : KacheDBMemoryManager → List WriteArgs → List Span
  | _, [] => []
  | m, w :: ws =>
    match m.write w with
    | (.ok (offset, totalBytes, _), m') => ⟨offset, totalBytes⟩ :: returnedSlots m' ws
    | (.error _, m') => returnedSlots m' ws

variable {m m' : KacheDBMemoryManager} {w : WriteArgs}

/-! ## One call -/

/-- The descriptor that a call writes for keys of this shape. -/
def descriptorOf (w : WriteArgs) (heads blockSize headDim : ℕ) : TensorBlockDescriptor :=
  blockDescriptor heads blockSize headDim (TensorCodec.dtypeInfo w.keyTensor.dtype).1 w.layerIdx
    w.seqPrefixHash (w.keyTensor.data.length + w.valTensor.data.length)

/-- Keys of fewer than three dimensions are refused; the ring has been wrapped by then. -/
lemma write_of_length_lt (h : w.keyTensor.shape.length < 3) :
    m.write w = (.error .indexError, m.wrapRing w.slotSize) := by
  rcases hshape : w.keyTensor.shape with _ | ⟨heads, _ | ⟨blockSize, _ | ⟨headDim, more⟩⟩⟩
  · simp only [write, writePagedBlock, hshape]
    rfl
  · simp only [write, writePagedBlock, hshape]
    rfl
  · simp only [write, writePagedBlock, hshape]
    rfl
  · rw [hshape, List.length_cons, List.length_cons, List.length_cons] at h
    omega

/-- Keys of three dimensions. -/
lemma exists_shape (h : ¬ w.keyTensor.shape.length < 3) :
    ∃ heads blockSize headDim more,
      w.keyTensor.shape = heads :: blockSize :: headDim :: more := by
  rcases hshape : w.keyTensor.shape with _ | ⟨heads, _ | ⟨blockSize, _ | ⟨headDim, more⟩⟩⟩
  · simp [hshape] at h
  · simp [hshape] at h
  · simp [hshape] at h
  · exact ⟨heads, blockSize, headDim, more, rfl⟩

/-- A call whose slot fits in the pool writes it where the ring places it. -/
lemma write_place {heads blockSize headDim : ℕ} {more : List ℕ}
    (hshape : w.keyTensor.shape = heads :: blockSize :: headDim :: more)
    (hbuf : m.poolSizeBytes ≤ m.buf.length) (hfit : w.slotSize ≤ m.poolSizeBytes) :
    m.write w = (.ok (RingBuffer.place m.poolSizeBytes m.writeHead w.slotSize, w.slotSize,
        descriptorOf w heads blockSize headDim),
      { m with
        buf := splice m.buf (RingBuffer.place m.poolSizeBytes m.writeHead w.slotSize)
          (slotBytes (descriptorOf w heads blockSize headDim) w.keyTensor w.valTensor)
        writeHead := RingBuffer.place m.poolSizeBytes m.writeHead w.slotSize + w.slotSize }) := by
  have hlen := length_slotBytes (descriptorOf w heads blockSize headDim) w.keyTensor w.valTensor
  have hwrite := m.writePagedBlock_eq hshape w.layerIdx w.seqPrefixHash w.blockId hbuf hfit
    (show descriptorOf w heads blockSize headDim = _ from rfl) rfl
  rw [hlen] at hwrite
  exact hwrite

/-- Such a slot lies within the pool. -/
lemma write_fits {heads blockSize headDim : ℕ} {more : List ℕ}
    (hshape : w.keyTensor.shape = heads :: blockSize :: headDim :: more)
    (hbuf : m.poolSizeBytes ≤ m.buf.length) (hfit : w.slotSize ≤ m.poolSizeBytes) :
    ∃ offset, m.write w = (.ok (offset, w.slotSize, descriptorOf w heads blockSize headDim),
        { m with
          buf := splice m.buf offset
            (slotBytes (descriptorOf w heads blockSize headDim) w.keyTensor w.valTensor)
          writeHead := offset + w.slotSize }) ∧
      offset + w.slotSize ≤ m.poolSizeBytes :=
  ⟨_, write_place hshape hbuf hfit, RingBuffer.place_add_le hfit⟩

/-- A call whose slot is larger than the pool writes it from position 0 on, and the buffer
becomes as long as the slot. -/
lemma write_of_lt {heads blockSize headDim : ℕ} {more : List ℕ}
    (hshape : w.keyTensor.shape = heads :: blockSize :: headDim :: more)
    (hbuf : m.buf.length = m.poolSizeBytes) (hlt : m.poolSizeBytes < w.slotSize) :
    ∃ buf, m.write w = (.ok (0, w.slotSize, descriptorOf w heads blockSize headDim),
        { m with buf := buf, writeHead := w.slotSize }) ∧ buf.length = w.slotSize := by
  have hsize : w.slotSize = TensorBlockDescriptor.sizeof + w.keyTensor.data.length +
      w.valTensor.data.length := (Nat.add_assoc _ _ _).symm
  have hdesc := (descriptorOf w heads blockSize headDim).length_toBytes
  have hwrap : m.wrapRing w.slotSize = { m with writeHead := 0 } := by
    rw [wrapRing, if_pos (by omega)]
  refine ⟨setSlice (setSlice (setSlice m.buf (0 : ℕ) (0 + TensorBlockDescriptor.sizeof : ℕ)
      (descriptorOf w heads blockSize headDim).toBytes) (0 + TensorBlockDescriptor.sizeof : ℕ)
        (0 + TensorBlockDescriptor.sizeof + w.keyTensor.data.length : ℕ) w.keyTensor.data)
      (0 + TensorBlockDescriptor.sizeof + w.keyTensor.data.length : ℕ) (0 + w.slotSize : ℕ)
        w.valTensor.data, ?_, ?_⟩
  · have hsize' : TensorBlockDescriptor.sizeof + (w.keyTensor.data.length +
        w.valTensor.data.length) = w.slotSize := rfl
    simp only [write, writePagedBlock, TensorCodec.serializeTensor, hshape, hsize', hwrap]
    rw [Nat.zero_add w.slotSize]
    rfl
  · -- the three slices lie one behind the other
    generalize hheader : setSlice m.buf _ _ _ = header
    have hlength : header.length = max m.buf.length (0 + TensorBlockDescriptor.sizeof) := by
      rw [← hheader, length_setSlice_of_le (Nat.zero_le _) (by rw [hdesc])]
    generalize hkeys : setSlice header _ _ _ = keys
    have hlength' : keys.length = max header.length
        (0 + TensorBlockDescriptor.sizeof + w.keyTensor.data.length) := by
      rw [← hkeys, length_setSlice_of_le (by omega) rfl]
    rw [length_setSlice_of_le (by omega) (by omega)]
    omega

/-! ## Runs -/

/-- A call does not change the size that the pool should have. -/
lemma poolSizeBytes_write (m : KacheDBMemoryManager) (w : WriteArgs) :
    (m.write w).2.poolSizeBytes = m.poolSizeBytes := by
  have hwrap : (m.wrapRing w.slotSize).poolSizeBytes = m.poolSizeBytes := by
    unfold wrapRing
    split_ifs <;> rfl
  by_cases hdims : w.keyTensor.shape.length < 3
  · rw [write_of_length_lt hdims, hwrap]
  · obtain ⟨heads, blockSize, headDim, more, hshape⟩ := exists_shape hdims
    simp only [write, writePagedBlock, hshape]
    exact hwrap

/-- A call does not make the buffer shorter. -/
lemma le_length_buf_write (m : KacheDBMemoryManager) (w : WriteArgs) :
    m.buf.length ≤ (m.write w).2.buf.length := by
  have hwrap : (m.wrapRing w.slotSize).buf = m.buf := by
    unfold wrapRing
    split_ifs <;> rfl
  by_cases hdims : w.keyTensor.shape.length < 3
  · rw [write_of_length_lt hdims, hwrap]
  · obtain ⟨heads, blockSize, headDim, more, hshape⟩ := exists_shape hdims
    simp only [write, writePagedBlock, hshape, TensorCodec.serializeTensor]
    refine le_trans (le_of_eq (congrArg List.length hwrap).symm) ?_
    refine (le_length_setSlice ?_).trans ((le_length_setSlice ?_).trans (le_length_setSlice ?_))
    · rw [TensorBlockDescriptor.length_toBytes]
    · rfl
    · omega

/-- Whatever has been written, the buffer has room for the pool. -/
lemma le_length_buf_writeAll (hbuf : m.poolSizeBytes ≤ m.buf.length) (ws : List WriteArgs) :
    (m.writeAll ws).poolSizeBytes = m.poolSizeBytes ∧
      m.poolSizeBytes ≤ (m.writeAll ws).buf.length := by
  induction ws generalizing m with
  | nil => exact ⟨rfl, hbuf⟩
  | cons w ws ih =>
    have hpool := poolSizeBytes_write m w
    have hlen := hbuf.trans (le_length_buf_write m w)
    rw [← hpool] at hlen ⊢
    exact ih hlen


/-! ## The pool keeps its size -/

/-- The buffer has the size of the pool and the write head lies within it. -/
def InPool (poolSizeBytes : ℕ) (m : KacheDBMemoryManager) : Prop :=
  m.poolSizeBytes = poolSizeBytes ∧ m.buf.length = poolSizeBytes ∧ m.writeHead ≤ poolSizeBytes

/-- After a call the buffer has the size of the pool, the write head lies within it, and so does
the slot that is returned, if the call does not raise. -/
def KeepsPool (poolSizeBytes : ℕ)
    (call : Except Exc (ℕ × ℕ × TensorBlockDescriptor) × KacheDBMemoryManager) : Prop :=
  call.2.buf.length = poolSizeBytes ∧ call.2.writeHead ≤ poolSizeBytes ∧
    ∀ offset totalBytes desc, call.1 = .ok (offset, totalBytes, desc) →
      offset + totalBytes ≤ poolSizeBytes

/-- The step lemma: exactly the calls that are bounded keep the pool. -/
lemma keepsPool_iff {poolSizeBytes : ℕ} (h : m.InPool poolSizeBytes) (w : WriteArgs) :
    KeepsPool poolSizeBytes (m.write w) ↔ w.Bounded poolSizeBytes := by
  obtain ⟨rfl, hbuf, hhead⟩ := h
  by_cases hdims : w.keyTensor.shape.length < 3
  · refine iff_of_true ?_ (.inl hdims)
    rw [write_of_length_lt hdims]
    refine ⟨?_, ?_, fun _ _ _ hok => by cases hok⟩
    · unfold wrapRing
      split_ifs <;> exact hbuf
    · unfold wrapRing
      split_ifs
      · exact Nat.zero_le _
      · exact hhead
  · obtain ⟨heads, blockSize, headDim, more, hshape⟩ := exists_shape hdims
    by_cases hfit : w.slotSize ≤ m.poolSizeBytes
    · refine iff_of_true ?_ (.inr hfit)
      obtain ⟨offset, hwrite, hle⟩ := write_fits hshape hbuf.ge hfit
      have hlen := length_slotBytes (descriptorOf w heads blockSize headDim) w.keyTensor w.valTensor
      rw [hwrite]
      refine ⟨?_, hle, fun o n desc hok => ?_⟩
      · simp only
        rw [length_splice, hbuf]
        rw [hlen, hbuf]
        exact hle
      · obtain ⟨rfl, rfl, -⟩ := by simpa using hok
        exact hle
    · refine iff_of_false ?_ (not_or.mpr ⟨hdims, hfit⟩)
      obtain ⟨buf, hwrite, hlen⟩ := write_of_lt hshape hbuf (not_le.mp hfit)
      rw [hwrite]
      rintro ⟨hgrown, -⟩
      rw [hlen] at hgrown
      exact hfit hgrown.le

/-- A new manager. -/
lemma inPool_new (coreId poolSizeMb : ℕ) :
    (new coreId poolSizeMb).InPool (poolSizeMb * 1024 * 1024) :=
  ⟨rfl, List.length_replicate, Nat.zero_le _⟩

/-- **The pool keeps its size** in a run exactly if every slot that is written fits in it. -/
theorem pool_bounded_iff (coreId poolSizeMb : ℕ) (ws : List WriteArgs) :
    (∀ pre w, pre ++ [w] <+: ws →
        KeepsPool (poolSizeMb * 1024 * 1024) (((new coreId poolSizeMb).writeAll pre).write w)) ↔
      ∀ w ∈ ws, w.Bounded (poolSizeMb * 1024 * 1024) := by
  have hiff (m : KacheDBMemoryManager) (w : WriteArgs) (hm : m.InPool (poolSizeMb * 1024 * 1024)) :=
    keepsPool_iff hm w
  have hstep (m : KacheDBMemoryManager) (w : WriteArgs) (hm : m.InPool (poolSizeMb * 1024 * 1024))
      (h : KeepsPool (poolSizeMb * 1024 * 1024) (m.write w)) :
      (m.write w).2.InPool (poolSizeMb * 1024 * 1024) :=
    ⟨(poolSizeBytes_write m w).trans hm.1, h.1, h.2.1⟩
  have hnew := inPool_new coreId poolSizeMb
  rw [← @guarded_const_iff _ _ (fun m w => (KacheDBMemoryManager.write m w).2)
    _ (new coreId poolSizeMb), ← guarded_congr hiff hstep hnew, guarded_iff_forall_step]
  rfl

/-- A block of keys and values that needs the whole pool twice. -/
def oversizedBlock : WriteArgs :=
  ⟨.filled .int8 [1, 1, 1048576] 0, .filled .int8 [1, 1, 1048576] 0, 0, 0, 0⟩

/-- Writing it into a new pool of one megabyte makes the buffer longer. -/
theorem pool_grows :
    ¬ ∀ pre w, pre ++ [w] <+: [oversizedBlock] →
      KeepsPool (1 * 1024 * 1024) (((new 0 1).writeAll pre).write w) := by
  intro h
  have hkeeps := h [] oversizedBlock (List.prefix_refl _)
  have hkeys : oversizedBlock.keyTensor.data.length = 1048576 := by
    rw [Tensor.length_data]
    rfl
  have hvalues : oversizedBlock.valTensor.data.length = 1048576 := by
    rw [Tensor.length_data]
    rfl
  have hsize : oversizedBlock.slotSize = TensorBlockDescriptor.sizeof + (1048576 + 1048576) := by
    rw [WriteArgs.slotSize_eq, hkeys, hvalues]
  rcases (keepsPool_iff (inPool_new 0 1) oversizedBlock).mp hkeeps with hdims | hfit
  · exact absurd hdims (by simp [oversizedBlock, Tensor.filled, -List.reduceReplicate])
  · rw [hsize] at hfit
    omega

/-! ## Writing, later writes, reading -/

/-- Later writes whose slots are apart from a place leave it as it is. -/
lemma window_writeAll_of_apart (hbuf : m.poolSizeBytes ≤ m.buf.length) {ws : List WriteArgs}
    (hbounded : ∀ w ∈ ws, w.Bounded m.poolSizeBytes) (place : Span)
    (hapart : ∀ s ∈ m.returnedSlots ws, place.Apart s) :
    window (m.writeAll ws).buf place.start place.size = window m.buf place.start place.size := by
  induction ws generalizing m with
  | nil => rfl
  | cons w ws ih =>
    obtain ⟨hw, hws⟩ := List.forall_mem_cons.mp hbounded
    have hpool := poolSizeBytes_write m w
    have hlen := hbuf.trans (le_length_buf_write m w)
    rw [← hpool] at hlen hws
    have hrest := ih hlen hws
    rw [writeAll, List.foldl_cons, ← writeAll]
    by_cases hdims : w.keyTensor.shape.length < 3
    · have hwrite := write_of_length_lt (m := m) hdims
      rw [returnedSlots, hwrite] at hapart
      rw [hwrite] at hrest ⊢
      have hsame : (m.wrapRing w.slotSize).buf = m.buf := by
        unfold wrapRing
        split_ifs <;> rfl
      rw [hrest hapart, hsame]
    · obtain ⟨heads, blockSize, headDim, more, hshape⟩ := exists_shape hdims
      obtain ⟨offset, hwrite, hle⟩ := write_fits hshape hbuf (hw.resolve_left hdims)
      have hslot := length_slotBytes (descriptorOf w heads blockSize headDim) w.keyTensor
        w.valTensor
      rw [returnedSlots, hwrite] at hapart
      obtain ⟨hfirst, hlater⟩ := List.forall_mem_cons.mp hapart
      rw [hwrite] at hrest ⊢
      rw [hrest hlater]
      -- the slot of this call is apart from the place
      refine window_splice_of_apart ?_ ?_
      · rw [hslot]
        exact hle.trans hbuf
      · rw [hslot]
        exact hfirst

/-- The slots of a run of blocks that fit in the pool are those of the ring. -/
lemma returnedSlots_eq_spansFrom (hbuf : m.poolSizeBytes ≤ m.buf.length) {ws : List WriteArgs}
    (hws : ∀ w ∈ ws, 3 ≤ w.keyTensor.shape.length ∧ w.slotSize ≤ m.poolSizeBytes) :
    m.returnedSlots ws =
        RingBuffer.spansFrom m.poolSizeBytes m.writeHead (ws.map WriteArgs.slotSize) ∧
      (m.writeAll ws).writeHead =
        RingBuffer.headFrom m.poolSizeBytes m.writeHead (ws.map WriteArgs.slotSize) := by
  induction ws generalizing m with
  | nil => exact ⟨rfl, rfl⟩
  | cons w ws ih =>
    obtain ⟨⟨hdims, hfit⟩, hws⟩ := List.forall_mem_cons.mp hws
    obtain ⟨heads, blockSize, headDim, more, hshape⟩ := exists_shape (Nat.not_lt.mpr hdims)
    have hpool := poolSizeBytes_write m w
    have hlen := hbuf.trans (le_length_buf_write m w)
    rw [← hpool] at hlen hws
    obtain ⟨hslots, hhead⟩ := ih hlen hws
    rw [returnedSlots, writeAll, List.foldl_cons, ← writeAll, hhead, hpool]
    rw [write_place hshape hbuf hfit] at hslots ⊢
    rw [List.map_cons, RingBuffer.spansFrom]
    exact ⟨congrArg _ hslots, rfl⟩

/-- The parts of a slot that is in the buffer. -/
lemma window_slot {buf : Bytes} {offset : ℕ} {desc : TensorBlockDescriptor}
    (h : window buf offset w.slotSize = slotBytes desc w.keyTensor w.valTensor) :
    window buf offset 64 = desc.toBytes ∧
      window buf (offset + 64) (w.keyTensor.data.length + w.valTensor.data.length) =
        w.keyTensor.data ++ w.valTensor.data := by
  have hsize : w.slotSize = 64 + (w.keyTensor.data.length + w.valTensor.data.length) := rfl
  have hdesc : desc.toBytes.length = 64 := desc.length_toBytes
  constructor
  · have hleft := window_append_left (p := 0) (n := 64) (w.keyTensor.data ++ w.valTensor.data)
      (show 0 + 64 ≤ desc.toBytes.length by omega)
    rw [← slotBytes, ← h, window_window _ (by omega), add_zero, ← hdesc,
      window_zero_length] at hleft
    rwa [← hdesc]
  · have hright := window_append_right desc.toBytes (w.keyTensor.data ++ w.valTensor.data) 0
      (w.keyTensor.data ++ w.valTensor.data).length
    rw [window_zero_length, add_zero, hdesc, ← slotBytes, ← h,
      window_window _ (by rw [List.length_append]; omega), List.length_append] at hright
    exact hright

/-- A block whose slot is in the buffer can be read. -/
lemma readPagedBlock_of_slot (hw : w.SameKind) {offset : ℕ} {desc : TensorBlockDescriptor}
    (hwindow : window m.buf offset w.slotSize = slotBytes desc w.keyTensor w.valTensor) :
    m.readPagedBlock offset w.keyTensor.shape w.keyTensor.dtype =
      .ok (w.keyTensor, w.valTensor) := by
  obtain ⟨hpos, ⟨info, hmap⟩, hshapeV, hdtypeV⟩ := hw
  have hsize := w.slotSize_eq
  have hk := w.keyTensor.length_data
  have hv := w.valTensor.length_data
  rw [hshapeV, hdtypeV, ← hk] at hv
  -- the slot lies within the buffer, since its window has the full length
  have hlen := congrArg List.length hwindow
  rw [length_slotBytes, ← hsize, window, List.length_take, List.length_drop] at hlen
  obtain ⟨-, hpayload⟩ := window_slot hwindow
  obtain ⟨k', v', hread⟩ : ∃ k' v',
      m.readPagedBlock offset w.keyTensor.shape w.keyTensor.dtype = .ok (k', v') := by
    refine readPagedBlock_succeeds hmap hpos ?_
    rw [← hk]
    have hsizeof : TensorBlockDescriptor.sizeof = 64 := rfl
    omega
  obtain ⟨rfl, rfl⟩ := readPagedBlock_of_window hpayload hmap hshapeV hdtypeV hread
  exact hread

/-- What a call does whose slot fits in the pool: its slot lies within the pool and holds the
descriptor, the keys and the values, and nothing else has changed. -/
lemma write_spec {heads blockSize headDim : ℕ} {more : List ℕ}
    (hshape : w.keyTensor.shape = heads :: blockSize :: headDim :: more)
    (hbuf : m.poolSizeBytes ≤ m.buf.length) (hfit : w.slotSize ≤ m.poolSizeBytes) :
    ∃ offset m',
      m.write w = (.ok (offset, w.slotSize, descriptorOf w heads blockSize headDim), m') ∧
      m'.poolSizeBytes = m.poolSizeBytes ∧ offset + w.slotSize ≤ m.poolSizeBytes ∧
      m'.buf.length = m.buf.length ∧
      (∀ i, i < offset ∨ offset + w.slotSize ≤ i → m'.buf[i]? = m.buf[i]?) ∧
      window m'.buf offset w.slotSize =
        slotBytes (descriptorOf w heads blockSize headDim) w.keyTensor w.valTensor := by
  obtain ⟨offset, hwrite, hle⟩ := write_fits hshape hbuf hfit
  have hslot : (slotBytes (descriptorOf w heads blockSize headDim) w.keyTensor
      w.valTensor).length = w.slotSize := length_slotBytes _ _ _
  have hwithin := hle.trans hbuf
  rw [← hslot] at hwithin
  refine ⟨offset, _, hwrite, rfl, hle, length_splice hwithin, fun i hi => ?_, ?_⟩
  · rw [getElem?_splice hwithin, if_neg (by omega)]
  · rw [← hslot]
    exact window_splice_self hwithin

/-- The same of a call behind any other calls, and what is left of its slot behind later ones. -/
lemma write_later {coreId poolSizeMb : ℕ} (pre : List WriteArgs) {later : List WriteArgs}
    {heads blockSize headDim : ℕ} {more : List ℕ}
    (hshape : w.keyTensor.shape = heads :: blockSize :: headDim :: more)
    (hfits : ∀ w' ∈ w :: later, w'.slotSize ≤ poolSizeMb * 1024 * 1024) :
    ∃ offset m', ((new coreId poolSizeMb).writeAll pre).write w =
        (.ok (offset, w.slotSize, descriptorOf w heads blockSize headDim), m') ∧
      offset + w.slotSize ≤ poolSizeMb * 1024 * 1024 ∧
      m'.buf.length = ((new coreId poolSizeMb).writeAll pre).buf.length ∧
      (∀ i, i < offset ∨ offset + w.slotSize ≤ i →
        m'.buf[i]? = ((new coreId poolSizeMb).writeAll pre).buf[i]?) ∧
      poolSizeMb * 1024 * 1024 ≤ (m'.writeAll later).buf.length ∧
      ((∀ s ∈ m'.returnedSlots later, (Span.mk offset w.slotSize).Apart s) →
        window (m'.writeAll later).buf offset w.slotSize =
          slotBytes (descriptorOf w heads blockSize headDim) w.keyTensor w.valTensor) := by
  obtain ⟨hpool, hbuf⟩ := le_length_buf_writeAll (m := new coreId poolSizeMb)
    (inPool_new coreId poolSizeMb).2.1.ge pre
  have hsize : (new coreId poolSizeMb).poolSizeBytes = poolSizeMb * 1024 * 1024 := rfl
  rw [hsize] at hpool hbuf
  generalize (new coreId poolSizeMb).writeAll pre = m at *
  rw [← hpool] at hbuf hfits ⊢
  obtain ⟨hfit, hlater⟩ := List.forall_mem_cons.mp hfits
  obtain ⟨offset, m', hwrite, hpool', hle, hlen, hframe, hslot⟩ := write_spec hshape hbuf hfit
  have hbuf' : m'.poolSizeBytes ≤ m'.buf.length := by
    rw [hpool', hlen]
    exact hbuf
  have hbounded : ∀ w' ∈ later, w'.Bounded m'.poolSizeBytes := fun w' hw' =>
    .inr (hpool' ▸ hlater w' hw')
  refine ⟨offset, m', hwrite, hle, hlen, hframe, ?_, fun hapart => ?_⟩
  · rw [← hpool']
    exact (le_length_buf_writeAll hbuf' later).2
  · exact (window_writeAll_of_apart hbuf' hbounded ⟨offset, w.slotSize⟩ hapart).trans hslot

/-- **Writing, later writes, reading.**  In every run of blocks whose slots fit in the pool, each
call places its slot within the pool and changes nothing outside of it, and after any later calls
whose slots do not meet this one, reading at the returned offset gives back the keys and values. -/
theorem write_run (coreId poolSizeMb : ℕ) {ws : List WriteArgs}
    (hblocks : ∀ w ∈ ws, w.IsBlock ∧ w.slotSize ≤ poolSizeMb * 1024 * 1024)
    {pre later rest : List WriteArgs} {w : WriteArgs} (hws : ws = pre ++ w :: later ++ rest) :
    ∃ offset desc m', ((new coreId poolSizeMb).writeAll pre).write w =
        (.ok (offset, w.slotSize, desc), m') ∧
      offset + w.slotSize ≤ poolSizeMb * 1024 * 1024 ∧
      m'.buf.length = ((new coreId poolSizeMb).writeAll pre).buf.length ∧
      (∀ i, i < offset ∨ offset + w.slotSize ≤ i →
        m'.buf[i]? = ((new coreId poolSizeMb).writeAll pre).buf[i]?) ∧
      ((∀ s ∈ m'.returnedSlots later, (Span.mk offset w.slotSize).Apart s) →
        (m'.writeAll later).readPagedBlock offset w.keyTensor.shape w.keyTensor.dtype =
          .ok (w.keyTensor, w.valTensor)) := by
  have hblock := (hblocks w (by simp [hws])).1
  have hfits : ∀ w' ∈ w :: later, w'.slotSize ≤ poolSizeMb * 1024 * 1024 := by
    intro w' hw'
    refine (hblocks w' ?_).2
    rw [hws]
    exact List.mem_append_left _ (List.mem_append_right _ hw')
  obtain ⟨h, t, d, -, -, -, hshape⟩ := hblock.shape_eq
  obtain ⟨offset, m', hwrite, hle, hlen, hframe, -, hslot⟩ := write_later pre hshape hfits
  exact ⟨offset, _, m', hwrite, hle, hlen, hframe, fun hapart =>
    readPagedBlock_of_slot hblock.sameKind (hslot hapart)⟩

/-- A block of one byte of keys and one byte of values. -/
def byteBlock (b : UInt8) : WriteArgs :=
  ⟨.filled .uint8 [1, 1, 1] b, .filled .uint8 [1, 1, 1] b, 0, 0, 0⟩

lemma isBlock_byteBlock (b : UInt8) :
    (byteBlock b).IsBlock ∧ (byteBlock b).slotSize ≤ 1 * 1024 * 1024 := by
  refine ⟨⟨⟨1, 1, 1, le_rfl, le_rfl, le_rfl, rfl⟩, ⟨_, rfl⟩, rfl, rfl⟩, ?_⟩
  have hsize : (byteBlock b).slotSize = 66 := rfl
  rw [hsize]
  norm_num

/-- Two blocks of one byte, and the first of them read back. -/
theorem write_run_two :
    (∀ w ∈ [byteBlock 1, byteBlock 2],
        w.IsBlock ∧ w.slotSize ≤ 1 * 1024 * 1024) ∧
      ∃ offset desc m', ((new 0 1).writeAll []).write (byteBlock 1) =
          (.ok (offset, (byteBlock 1).slotSize, desc), m') ∧
        offset + (byteBlock 1).slotSize ≤ 1 * 1024 * 1024 ∧
        m'.buf.length = ((new 0 1).writeAll []).buf.length ∧
        (∀ i, i < offset ∨ offset + (byteBlock 1).slotSize ≤ i →
          m'.buf[i]? = ((new 0 1).writeAll []).buf[i]?) ∧
        ((∀ s ∈ m'.returnedSlots [byteBlock 2],
            (Span.mk offset (byteBlock 1).slotSize).Apart s) →
          (m'.writeAll [byteBlock 2]).readPagedBlock offset [1, 1, 1] .uint8 =
            .ok (.filled .uint8 [1, 1, 1] 1, .filled .uint8 [1, 1, 1] 1)) := by
  have hblocks : ∀ w ∈ [byteBlock 1, byteBlock 2],
      w.IsBlock ∧ w.slotSize ≤ 1 * 1024 * 1024 :=
    List.forall_mem_cons.mpr ⟨isBlock_byteBlock 1,
      List.forall_mem_singleton.mpr (isBlock_byteBlock 2)⟩
  have hrun : [byteBlock 1, byteBlock 2] = [] ++ byteBlock 1 :: [byteBlock 2] ++ [] := rfl
  exact ⟨hblocks, write_run 0 1 hblocks hrun⟩

end KacheDBMemoryManager

end KacheDB
