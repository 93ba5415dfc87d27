import KacheDB.Descriptor
import KacheDB.Foundation.Ring

/-!
# The memory manager

`KacheDBMemoryManager` writes blocks of keys and values, each behind its descriptor, into a
buffer of fixed size, and reads them back from an offset.  The reader looks at neither the
descriptor nor a record of what was written.

`writePagedBlock_fits` relates the manager to the ring buffer of the library: a block whose slot
fits in the pool is one `RingBuffer.push`.
-/

namespace KacheDB

open Foundation

/-- A memory manager. -/
structure KacheDBMemoryManager where
  coreId : ℕ
  poolSizeBytes : ℕ
  buf : Bytes
  writeHead : ℕ

namespace KacheDBMemoryManager

/-- A new manager, with a zeroed pool. -/
def new (coreId poolSizeMb : ℕ) : KacheDBMemoryManager :=
  ⟨coreId, poolSizeMb * 1024 * 1024, List.replicate (poolSizeMb * 1024 * 1024) 0, 0⟩

/-- The descriptor of a block; `ctypes` cuts every number off at the width of its field. -/
def blockDescriptor (heads blockSize headDim : ℕ) (dtype : TensorDType) (layerIdx : ℕ)
    (seqPrefixHash : UInt64) (totalPayload : ℕ) : TensorBlockDescriptor where
  magic := TensorBlockDescriptor.descriptorMagic
  layerId := .ofNat layerIdx
  numLayers := 1
  blockSize := .ofNat blockSize
  numHeads := .ofNat heads
  headDim := .ofNat headDim
  dtype := dtype.value
  reserved := .replicate 7 0
  hidden := .replicate 2 0
  sequencePrefixHash := seqPrefixHash
  payloadBytes := .ofNat totalPayload
  cachelinePad := .replicate 28 0

/-- If a slot does not fit behind the last one, the next one begins at 0. -/
def wrapRing (m : KacheDBMemoryManager) (totalSlotSize : ℕ) : KacheDBMemoryManager :=
  if m.writeHead + totalSlotSize > m.poolSizeBytes then { m with writeHead := 0 } else m

/-- Write a key and a value block into shared memory with a descriptor header, and return the
offset, the number of bytes and the descriptor.  The block's own number is not used. -/
def writePagedBlock (m : KacheDBMemoryManager) (keyTensor valTensor : Tensor) (layerIdx : ℕ)
    (seqPrefixHash : UInt64) (_blockId : ℕ) :
    Except Exc (ℕ × ℕ × TensorBlockDescriptor) × KacheDBMemoryManager :=
  let (kBytes, tensorDtype, _) := TensorCodec.serializeTensor keyTensor
  let (vBytes, _, _) := TensorCodec.serializeTensor valTensor
  let totalPayload := kBytes.length + vBytes.length
  let descSize := TensorBlockDescriptor.sizeof
  let totalSlotSize := descSize + totalPayload
  let m := m.wrapRing totalSlotSize
  let offset := m.writeHead
  match keyTensor.shape with
  | heads :: blockSize :: headDim :: _ =>
    let desc := blockDescriptor heads blockSize headDim tensorDtype layerIdx seqPrefixHash
      totalPayload
    let buf := setSlice m.buf (offset : ℕ) (offset + descSize : ℕ) desc.toBytes
    let buf := setSlice buf (offset + descSize : ℕ) (offset + descSize + kBytes.length : ℕ) kBytes
    let buf := setSlice buf (offset + descSize + kBytes.length : ℕ) (offset + totalSlotSize : ℕ)
      vBytes
    (.ok (offset, totalSlotSize, desc),
      { m with buf := buf, writeHead := m.writeHead + totalSlotSize })
  | _ => (.error .indexError, m)

/-- Read a key and a value block from shared memory. -/
def readPagedBlock (m : KacheDBMemoryManager) (offset : ℕ) (shape : List ℕ) (dtype : DType) :
    Except Exc (Tensor × Tensor) :=
  let payloadOffset := offset + TensorBlockDescriptor.sizeof
  let bytesPerElem := (TensorCodec.dtypeInfo dtype).2
  let numBytesPerTensor := shape.prod * bytesPerElem
  match TensorCodec.deserializeTensor m.buf payloadOffset shape dtype with
  | .error e => .error e
  | .ok kTensor =>
    match TensorCodec.deserializeTensor m.buf (payloadOffset + numBytesPerTensor) shape dtype with
    | .error e => .error e
    | .ok vTensor => .ok (kTensor, vTensor)

/-! ## The manager as a ring buffer -/

/-- The pool and the write head. -/
def ring (m : KacheDBMemoryManager) : RingBuffer UInt8 :=
  ⟨m.poolSizeBytes, m.buf, m.writeHead⟩

/-- The next slot goes where the ring buffer places it. -/
lemma wrapRing_eq (m : KacheDBMemoryManager) (size : ℕ) :
    m.wrapRing size =
      { m with writeHead := RingBuffer.place m.poolSizeBytes m.writeHead size } := by
  unfold wrapRing RingBuffer.place
  split_ifs <;> rfl

/-- The bytes of a slot: the descriptor, the keys, the values. -/
def slotBytes (desc : TensorBlockDescriptor) (keyTensor valTensor : Tensor) : Bytes :=
  desc.toBytes ++ (keyTensor.data ++ valTensor.data)

@[simp] lemma length_slotBytes (desc : TensorBlockDescriptor) (k v : Tensor) :
    (slotBytes desc k v).length =
      TensorBlockDescriptor.sizeof + (k.data.length + v.data.length) := by
  simp [slotBytes]

/-- Three slice assignments one behind the other write one slot. -/
lemma setSlice_slot {buf : Bytes} {o : ℕ} (desc : TensorBlockDescriptor) (k v : Tensor) {p q r : ℕ}
    (hp : p = o + TensorBlockDescriptor.sizeof) (hq : q = p + k.data.length)
    (hr : r = q + v.data.length) (hle : r ≤ buf.length) :
    setSlice (setSlice (setSlice buf o p desc.toBytes) p q k.data) q r v.data =
      splice buf o (slotBytes desc k v) := by
  rw [← desc.length_toBytes] at hp
  rw [setSlice_setSlice hp hq (by omega),
    setSlice_setSlice (by rw [List.length_append]; omega) hr hle, slotBytes, List.append_assoc]
  exact setSlice_eq_splice (by simp only [List.length_append]; omega) hle

/-- What writing a block does whose keys have three dimensions and whose slot fits in the pool. -/
lemma writePagedBlock_eq (m : KacheDBMemoryManager) {k v : Tensor} {heads blockSize headDim : ℕ}
    {more : List ℕ} (hshape : k.shape = heads :: blockSize :: headDim :: more) (layerIdx : ℕ)
    (seqPrefixHash : UInt64) (blockId : ℕ) (hbuf : m.poolSizeBytes ≤ m.buf.length)
    (hfit : TensorBlockDescriptor.sizeof + (k.data.length + v.data.length) ≤ m.poolSizeBytes)
    {desc : TensorBlockDescriptor}
    (hdesc : desc = blockDescriptor heads blockSize headDim (TensorCodec.dtypeInfo k.dtype).1
      layerIdx seqPrefixHash (k.data.length + v.data.length)) {offset : ℕ}
    (hoffset : offset = RingBuffer.place m.poolSizeBytes m.writeHead (slotBytes desc k v).length) :
    m.writePagedBlock k v layerIdx seqPrefixHash blockId =
      (.ok (offset, (slotBytes desc k v).length, desc),
        { m with
          buf := splice m.buf offset (slotBytes desc k v)
          writeHead := offset + (slotBytes desc k v).length }) := by
  rw [length_slotBytes] at hoffset ⊢
  have hplace : offset + (TensorBlockDescriptor.sizeof + (k.data.length + v.data.length)) ≤
      m.buf.length := by
    rw [hoffset]
    exact (RingBuffer.place_add_le hfit).trans hbuf
  unfold writePagedBlock
  simp only [TensorCodec.serializeTensor, hshape, ← hdesc, wrapRing_eq, ← hoffset]
  rw [setSlice_slot desc k v rfl rfl (by omega) hplace]

/-- **Writing is pushing.**  A block with three dimensions whose slot fits in the pool is written
as one block of the ring buffer. -/
theorem writePagedBlock_fits (m : KacheDBMemoryManager) {k v : Tensor} {heads blockSize headDim : ℕ}
    {more : List ℕ} (hshape : k.shape = heads :: blockSize :: headDim :: more)
    (layerIdx : ℕ) (seqPrefixHash : UInt64) (blockId : ℕ) (hbuf : m.buf.length = m.poolSizeBytes)
    (hfit : TensorBlockDescriptor.sizeof + (k.data.length + v.data.length) ≤ m.poolSizeBytes) :
    ∃ desc m', m.writePagedBlock k v layerIdx seqPrefixHash blockId =
        (.ok (RingBuffer.place m.poolSizeBytes m.writeHead (slotBytes desc k v).length,
          (slotBytes desc k v).length, desc), m') ∧
      m'.ring = m.ring.push (slotBytes desc k v) ∧ m'.coreId = m.coreId :=
  ⟨_, _, m.writePagedBlock_eq hshape layerIdx seqPrefixHash blockId hbuf.ge hfit rfl rfl, rfl, rfl⟩

/-! ## What was written -/

/-- The manager has written these slots, oldest first, and nothing else; each fits in the
pool. -/
structure Wrote (m : KacheDBMemoryManager) (slots : List Bytes) : Prop where
  ring_eq : m.ring = (RingBuffer.empty m.poolSizeBytes 0).pushAll slots
  fits : ∀ slot ∈ slots, slot.length ≤ m.poolSizeBytes

/-- A new manager has written nothing. -/
lemma wrote_new (coreId poolSizeMb : ℕ) : (new coreId poolSizeMb).Wrote [] :=
  ⟨rfl, by simp⟩

variable {m m' : KacheDBMemoryManager} {slots : List Bytes}

/-- The pool keeps its length. -/
lemma Wrote.length_buf (h : m.Wrote slots) : m.buf.length = m.poolSizeBytes := by
  have hlen := RingBuffer.length_pushAll (b := (0 : UInt8)) h.fits
  rwa [← h.ring_eq] at hlen

/-- Writing a block adds its slot, and the returned offset is where the ring has placed it. -/
theorem Wrote.writePagedBlock (h : m.Wrote slots) {k v : Tensor} {heads blockSize headDim : ℕ}
    {more : List ℕ} (hshape : k.shape = heads :: blockSize :: headDim :: more)
    (hfit : TensorBlockDescriptor.sizeof + (k.data.length + v.data.length) ≤ m.poolSizeBytes)
    (layerIdx : ℕ) (seqPrefixHash : UInt64) (blockId : ℕ) :
    ∃ offset desc m', m.writePagedBlock k v layerIdx seqPrefixHash blockId =
        (.ok (offset, (slotBytes desc k v).length, desc), m') ∧
      m'.Wrote (slots ++ [slotBytes desc k v]) ∧ m'.poolSizeBytes = m.poolSizeBytes ∧
      RingBuffer.spans m.poolSizeBytes ((slots ++ [slotBytes desc k v]).map List.length) =
        RingBuffer.spans m.poolSizeBytes (slots.map List.length) ++
          [⟨offset, (slotBytes desc k v).length⟩] := by
  obtain ⟨desc, m', hwrite, hring, -⟩ :=
    m.writePagedBlock_fits hshape layerIdx seqPrefixHash blockId h.length_buf hfit
  have hcap : m'.poolSizeBytes = m.poolSizeBytes := congrArg RingBuffer.capacity hring
  have hhead : m.writeHead = RingBuffer.headFrom m.poolSizeBytes 0 (slots.map List.length) := by
    rw [← (RingBuffer.pushAll_empty m.poolSizeBytes (0 : UInt8) slots).2, ← h.ring_eq]
    rfl
  refine ⟨_, desc, m', hwrite, ⟨?_, ?_⟩, hcap, ?_⟩
  · rw [hring, hcap, RingBuffer.pushAll_concat, ← h.ring_eq]
  · intro slot hslot
    rw [hcap]
    rcases List.mem_append.mp hslot with hslot | hslot
    · exact h.fits slot hslot
    · rw [List.mem_singleton.mp hslot, length_slotBytes]
      exact hfit
  · rw [List.map_append, List.map_singleton, RingBuffer.spans_concat, ← hhead]

/-- What a successful read gives. -/
lemma readPagedBlock_eq_ok {offset : ℕ} {shape : List ℕ} {dtype : DType} {k v : Tensor}
    (h : m.readPagedBlock offset shape dtype = .ok (k, v)) :
    (k.dtype = dtype ∧ k.shape = shape ∧
      k.data = window m.buf (offset + TensorBlockDescriptor.sizeof)
        (shape.prod * dtype.itemSize)) ∧
    v.dtype = dtype ∧ v.shape = shape ∧
      v.data = window m.buf
        (offset + TensorBlockDescriptor.sizeof + shape.prod * (TensorCodec.dtypeInfo dtype).2)
        (shape.prod * dtype.itemSize) := by
  simp only [readPagedBlock] at h
  split at h
  · cases h
  · next k' hk =>
    split at h
    · cases h
    · next v' hv =>
      obtain ⟨rfl, rfl⟩ := Prod.mk.inj (Except.ok.inj h)
      exact ⟨TensorCodec.deserializeTensor_eq_ok hk, TensorCodec.deserializeTensor_eq_ok hv⟩

/-- An empty block cannot be read. -/
lemma readPagedBlock_pos {offset : ℕ} {shape : List ℕ} {dtype : DType} {kv : Tensor × Tensor}
    (h : m.readPagedBlock offset shape dtype = .ok kv) : 0 < shape.prod := by
  by_contra hzero
  have hempty : m.buf.length = 0 ∨ shape.prod = 0 := .inr (by omega)
  simp only [readPagedBlock, TensorCodec.deserializeTensor, if_pos hempty] at h
  cases h

/-- A slot that lies within the pool can be read. -/
lemma readPagedBlock_succeeds {offset : ℕ} {shape : List ℕ} {dtype : DType}
    {info : TensorDType × ℕ} (hmap : TensorCodec.dtypeMap dtype = some info)
    (hpos : 0 < shape.prod)
    (h : offset + (TensorBlockDescriptor.sizeof + 2 * (shape.prod * dtype.itemSize)) ≤
      m.buf.length) :
    ∃ k v, m.readPagedBlock offset shape dtype = .ok (k, v) := by
  have hsize : (TensorCodec.dtypeInfo dtype).2 = dtype.itemSize := by
    rw [TensorCodec.dtypeInfo, hmap, Option.getD_some, TensorCodec.itemSize_of_dtypeMap hmap]
  have hread (o : ℕ) (ho : o + shape.prod * dtype.itemSize ≤ m.buf.length) :
      ∃ t, TensorCodec.deserializeTensor m.buf o shape dtype = .ok t :=
    TensorCodec.deserializeTensor_succeeds hpos ho
  obtain ⟨k, hk⟩ := hread (offset + TensorBlockDescriptor.sizeof) (by omega)
  obtain ⟨v, hv⟩ := hread
    (offset + TensorBlockDescriptor.sizeof + shape.prod * dtype.itemSize) (by omega)
  refine ⟨k, v, ?_⟩
  simp only [readPagedBlock, hsize, hk, hv]

/-- A successful read gives back the keys and values that lie behind each other in the pool. -/
lemma readPagedBlock_of_window {offset : ℕ} {k v : Tensor}
    (hwindow : window m.buf (offset + TensorBlockDescriptor.sizeof)
      (k.data.length + v.data.length) = k.data ++ v.data) {info : TensorDType × ℕ}
    (hmap : TensorCodec.dtypeMap k.dtype = some info) (hshape : v.shape = k.shape)
    (hdtype : v.dtype = k.dtype) {k' v' : Tensor}
    (hread : m.readPagedBlock offset k.shape k.dtype = .ok (k', v')) : k' = k ∧ v' = v := by
  obtain ⟨⟨hkd, hks, hkdata⟩, hvd, hvs, hvdata⟩ := readPagedBlock_eq_ok hread
  have hk := k.length_data
  have hv := v.length_data
  rw [hshape, hdtype] at hv
  -- the parts of the payload as windows of the pool
  have hpart (p n : ℕ) (hp : p + n ≤ k.data.length + v.data.length) :
      window m.buf (offset + TensorBlockDescriptor.sizeof + p) n =
        window (k.data ++ v.data) p n := by
    rw [← hwindow, window_window _ (by omega)]
  constructor
  · refine Tensor.ext hkd hks ?_
    have hfirst := hpart 0 k.data.length (by omega)
    rw [add_zero] at hfirst
    rw [hkdata, ← hk, hfirst, window_append_left _ (by omega), window_zero_length]
  · refine Tensor.ext (hvd.trans hdtype.symm) (hvs.trans hshape.symm) ?_
    have hsecond := window_append_right k.data v.data 0 v.data.length
    rw [add_zero, window_zero_length, hv.trans hk.symm] at hsecond
    rw [hvdata, TensorCodec.dtypeInfo, hmap, Option.getD_some,
      TensorCodec.itemSize_of_dtypeMap hmap, ← hk, hpart _ _ (by omega), hsecond]

/-- A successful read of a slot whose payload is intact gives back what was written. -/
theorem Wrote.readPagedBlock (h : m.Wrote slots) {desc : TensorBlockDescriptor} {k v : Tensor}
    {i : ℕ} (hslot : slots[i]? = some (slotBytes desc k v)) {span : Span}
    (hspan : (RingBuffer.spans m.poolSizeBytes (slots.map List.length))[i]? = some span)
    (hintact : RingBuffer.Intact m.poolSizeBytes TensorBlockDescriptor.sizeof
      (slots.map List.length) i)
    {info : TensorDType × ℕ} (hmap : TensorCodec.dtypeMap k.dtype = some info)
    (hshape : v.shape = k.shape) (hdtype : v.dtype = k.dtype) {k' v' : Tensor}
    (hread : m.readPagedBlock span.start k.shape k.dtype = .ok (k', v')) : k' = k ∧ v' = v := by
  have hlen := length_slotBytes desc k v
  obtain ⟨hwindow, hsize⟩ := RingBuffer.window_pushAll (b := (0 : UInt8)) h.fits hslot
    (by omega) hintact hspan
  rw [← h.ring_eq, slotBytes, ← desc.length_toBytes, List.drop_left] at hwindow
  rw [hsize, hlen, desc.length_toBytes, Nat.add_sub_cancel_left] at hwindow
  exact readPagedBlock_of_window hwindow hmap hshape hdtype hread

/-! ## Layers of one block -/

/-- The number of bytes of the slot for a key and a value tensor. -/
def slotSize (kv : Tensor × Tensor) : ℕ :=
  TensorBlockDescriptor.sizeof + (kv.1.data.length + kv.2.data.length)

/-- The tensors can be written: the keys have three dimensions or more, and the slot fits in the
pool. -/
def Writable (poolSizeBytes : ℕ) (kv : Tensor × Tensor) : Prop :=
  3 ≤ kv.1.shape.length ∧ slotSize kv ≤ poolSizeBytes

/-- These layers were written one behind the other, from slot `start` on, and the ring has placed
them at these offsets. -/
structure StoredAt (poolSizeBytes : ℕ) (slots : List Bytes) (start : ℕ) (offsets : List ℕ)
    (layers : List (Tensor × Tensor)) : Prop where
  length_eq : offsets.length = layers.length
  stored : ∀ l k v, layers[l]? = some (k, v) →
    ∃ offset desc size, offsets[l]? = some offset ∧
      slots[start + l]? = some (slotBytes desc k v) ∧
      (RingBuffer.spans poolSizeBytes (slots.map List.length))[start + l]? = some ⟨offset, size⟩

/-- No layers. -/
lemma storedAt_nil (poolSizeBytes : ℕ) (slots : List Bytes) (start : ℕ) :
    StoredAt poolSizeBytes slots start [] [] :=
  ⟨rfl, by simp⟩

variable {poolSizeBytes start : ℕ} {offsets : List ℕ} {layers : List (Tensor × Tensor)}

/-- Later slots do not move earlier ones. -/
lemma StoredAt.append (h : StoredAt poolSizeBytes slots start offsets layers)
    (more : List Bytes) : StoredAt poolSizeBytes (slots ++ more) start offsets layers := by
  refine ⟨h.length_eq, fun l k v hl => ?_⟩
  obtain ⟨offset, desc, size, hoffset, hslot, hspan⟩ := h.stored l k v hl
  have hlt : start + l < slots.length := (List.getElem?_eq_some_iff.mp hslot).1
  refine ⟨offset, desc, size, hoffset, ?_, ?_⟩
  · rw [List.getElem?_append_left hlt, hslot]
  · rw [List.map_append, RingBuffer.getElem?_spans_append (by rwa [List.length_map]), hspan]

/-- One more layer in front. -/
lemma StoredAt.cons {k v : Tensor} {offset size : ℕ} {desc : TensorBlockDescriptor}
    (hslot : slots[start]? = some (slotBytes desc k v))
    (hspan : (RingBuffer.spans poolSizeBytes (slots.map List.length))[start]? =
      some ⟨offset, size⟩)
    (h : StoredAt poolSizeBytes slots (start + 1) offsets layers) :
    StoredAt poolSizeBytes slots start (offset :: offsets) ((k, v) :: layers) := by
  refine ⟨by simp [h.length_eq], fun l k' v' hl => ?_⟩
  cases l with
  | zero =>
    obtain ⟨rfl, rfl⟩ := Prod.mk.inj (Option.some.inj hl)
    exact ⟨offset, desc, size, rfl, hslot, hspan⟩
  | succ l =>
    obtain ⟨offset', desc', size', hoffset, hslot', hspan'⟩ := h.stored l k' v' hl
    rw [show start + 1 + l = start + (l + 1) by omega] at hslot' hspan'
    exact ⟨offset', desc', size', hoffset, hslot', hspan'⟩

/-- A layer that has just been written, in front of the layers that are written next. -/
lemma StoredAt.cons_written {k v : Tensor} {offset size : ℕ} {desc : TensorBlockDescriptor}
    (hspan : (RingBuffer.spans poolSizeBytes
      ((slots ++ [slotBytes desc k v]).map List.length))[slots.length]? = some ⟨offset, size⟩)
    {more : List Bytes}
    (h : StoredAt poolSizeBytes (slots ++ [slotBytes desc k v] ++ more)
      (slots ++ [slotBytes desc k v]).length offsets layers) :
    StoredAt poolSizeBytes (slots ++ slotBytes desc k v :: more) slots.length (offset :: offsets)
      ((k, v) :: layers) := by
  rw [List.append_assoc, List.singleton_append, List.length_append,
    List.length_singleton] at h
  have hslot : (slots ++ slotBytes desc k v :: more)[slots.length]? =
      some (slotBytes desc k v) := by simp
  have hspan' : (RingBuffer.spans poolSizeBytes
      ((slots ++ slotBytes desc k v :: more).map List.length))[slots.length]? =
        some ⟨offset, size⟩ := by
    rw [← List.singleton_append, ← List.append_assoc, List.map_append,
      RingBuffer.getElem?_spans_append (by simp)]
    exact hspan
  exact h.cons hslot hspan'

/-- Reading a layer whose payload is intact. -/
lemma StoredAt.readPagedBlock (h : StoredAt m.poolSizeBytes slots start offsets layers)
    (hw : m.Wrote slots) {l : ℕ} {k v : Tensor} (hl : layers[l]? = some (k, v))
    (hintact : RingBuffer.Intact m.poolSizeBytes TensorBlockDescriptor.sizeof
      (slots.map List.length) (start + l))
    {info : TensorDType × ℕ} (hmap : TensorCodec.dtypeMap k.dtype = some info)
    (hshape : v.shape = k.shape) (hdtype : v.dtype = k.dtype) :
    ∃ offset, offsets[l]? = some offset ∧ ∀ k' v',
      m.readPagedBlock offset k.shape k.dtype = .ok (k', v') → k' = k ∧ v' = v := by
  obtain ⟨offset, desc, size, hoffset, hslot, hspan⟩ := h.stored l k v hl
  refine ⟨offset, hoffset, fun k' v' hread => ?_⟩
  exact hw.readPagedBlock hslot hspan hintact hmap hshape hdtype hread

/-- The slots of the layers lie within the pool. -/
lemma StoredAt.within (h : StoredAt m.poolSizeBytes slots start offsets layers)
    (hw : m.Wrote slots) {l offset : ℕ} (hl : offsets[l]? = some offset) :
    ∃ kv, layers[l]? = some kv ∧ offset + slotSize kv ≤ m.buf.length := by
  have hlt : l < layers.length := h.length_eq ▸ (List.getElem?_eq_some_iff.mp hl).1
  obtain ⟨offset', desc, size, hoffset, hslot, hspan⟩ :=
    h.stored l _ _ (List.getElem?_eq_getElem hlt)
  obtain rfl := Option.some.inj (hl.symm.trans hoffset)
  refine ⟨_, List.getElem?_eq_getElem hlt, ?_⟩
  have hsizes : (slots.map List.length)[start + l]? =
      some (slotBytes desc layers[l].1 layers[l].2).length := by
    rw [List.getElem?_map, hslot]
    rfl
  have hfits : ∀ size ∈ slots.map List.length, size ≤ m.poolSizeBytes := by
    intro size hsize
    obtain ⟨slot, hmem, rfl⟩ := List.mem_map.mp hsize
    exact hw.fits slot hmem
  obtain ⟨-, hle⟩ := RingBuffer.spansFrom_le hfits hsizes hspan
  rwa [length_slotBytes, ← hw.length_buf] at hle

/-- Writing one layer that can be written. -/
lemma Wrote.writeLayer (h : m.Wrote slots) {k v : Tensor}
    (hwritable : Writable m.poolSizeBytes (k, v)) (layerIdx : ℕ) (seqPrefixHash : UInt64)
    (blockId : ℕ) :
    ∃ offset size desc m', m.writePagedBlock k v layerIdx seqPrefixHash blockId =
        (.ok (offset, size, desc), m') ∧ m'.Wrote (slots ++ [slotBytes desc k v]) ∧
      m'.poolSizeBytes = m.poolSizeBytes ∧
      (RingBuffer.spans m.poolSizeBytes ((slots ++ [slotBytes desc k v]).map List.length))[
        slots.length]? = some ⟨offset, size⟩ := by
  obtain ⟨hdims, hfit⟩ := hwritable
  rcases hshape : k.shape with _ | ⟨heads, _ | ⟨blockSize, _ | ⟨headDim, more⟩⟩⟩
  · simp [hshape] at hdims
  · simp [hshape] at hdims
  · simp [hshape] at hdims
  · obtain ⟨offset, desc, m', hwrite, hwrote, hpool, hspans⟩ :=
      h.writePagedBlock hshape hfit layerIdx seqPrefixHash blockId
    refine ⟨offset, _, desc, m', hwrite, hwrote, hpool, ?_⟩
    have hlen : (RingBuffer.spans m.poolSizeBytes (slots.map List.length)).length =
        slots.length := by simp
    rw [hspans, ← hlen, List.getElem?_concat_length]

end KacheDBMemoryManager

end KacheDB
