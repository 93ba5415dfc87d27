import KacheDB.BlockHeaders
import KacheDB.SharedMemory

/-!
# Blocks as tensors

`read_torch_tensor` makes a tensor of the array that `read_tensor` returns: one dimension, the bytes
of the keys and of the values behind them, and an element type that follows from the header alone.
`compute_shape` is the shape that the header gives the two of them together.

So a block is described three times: by the tensors that were written, by the header, and by what
the reader makes of the header.  `givesBack_iff` says when the three agree: exactly if the element
type is one of the map of the codec, and the numbers of the block fit into their fields.
-/

namespace KacheDB

open Foundation KacheDBMemoryManager

/-- The 5D tensor shape.  The leading dimension stands for the keys and the values. -/
def TensorBlockDescriptor.computeShape (desc : TensorBlockDescriptor) : List ℕ :=
  [2, desc.numLayers.toNat, desc.numHeads.toNat, desc.blockSize.toNat, desc.headDim.toNat]

/-- `np_to_torch`. -/
def numpyToTorch : NumpyDType → DType
  | .float32 => .float32
  | .float16 => .float16
  | .int8 => .int8
  | .uint8 => .uint8
  | .uint16 => .bfloat16

/-- `torch.frombuffer` of a whole array.  It refuses an empty one. -/
def torchFrombuffer (arr : NDArray) (dtype : DType) : Except Exc Tensor :=
  if arr.data.length = 0 then .error (.valueError "")
  else if h : arr.data.length % dtype.itemSize = 0 then
    .ok ⟨dtype, [arr.data.length / dtype.itemSize], arr.data, by
      rw [List.prod_singleton, Nat.div_mul_cancel (Nat.dvd_of_mod_eq_zero h)]⟩
  else .error (.valueError "")

/-- Read a tensor block as a tensor of PyTorch. -/
def readTorchTensor (regions : Regions) (shmCache : Dict String Mapping) (coreId : ℕ)
    (byteOffset sizeBytes : ℤ) : Except Exc Tensor × Dict String Mapping :=
  match readTensor regions shmCache coreId byteOffset sizeBytes with
  | (.error e, shmCache') => (.error e, shmCache')
  | (.ok arr, shmCache') => (torchFrombuffer arr (numpyToTorch arr.dtype), shmCache')

/-- `t.reshape(shape)` of a tensor whose elements lie one behind the other. -/
def Tensor.reshape (t : Tensor) (shape : List ℕ) : Except Exc Tensor :=
  if h : shape.prod = t.shape.prod then .ok ⟨t.dtype, shape, t.data, h ▸ t.length_data⟩
  else .error (.runtimeError "")

/-- The block that was written comes back: in the shape that the header gives, the first half of
what was read are the keys, and the second half are the values. -/
def GivesBack (w : WriteArgs) (headerBytes : Bytes) (outcome : Except Exc Tensor) : Prop :=
  ∃ desc t u, TensorBlockDescriptor.fromBytes headerBytes = .ok desc ∧ outcome = .ok t ∧
    t.reshape desc.computeShape = .ok u ∧ u.select [0, 0] = .ok w.keyTensor ∧
    u.select [1, 0] = .ok w.valTensor

/-- The element type is one of the map of the codec, and the sizes of the block fit into their
fields. -/
def WriteArgs.Describable (w : WriteArgs) (heads blockSize headDim : ℕ) : Prop :=
  (TensorCodec.dtypeMap w.keyTensor.dtype).isSome ∧ heads < 2 ^ 16 ∧ blockSize < 2 ^ 16 ∧
    headDim < 2 ^ 16 ∧ w.keyTensor.data.length + w.valTensor.data.length < 2 ^ 32

section Types

/-- An element has the same size for PyTorch as for NumPy. -/
@[simp] lemma itemSize_numpyToTorch (d : NumpyDType) : (numpyToTorch d).itemSize = d.itemSize := by
  cases d <;> rfl

/-- An element type comes back exactly if it is in the map of the codec. -/
lemma numpyToTorch_dtypeInfo_eq_iff (d : DType) :
    numpyToTorch (dtypeToNumpy (TensorCodec.dtypeInfo d).1) = d ↔
      (TensorCodec.dtypeMap d).isSome := by
  cases d <;> decide

end Types

/-! ## What is read of a slot -/

section Slots

variable {w : WriteArgs} {heads blockSize headDim : ℕ}

/-- An array is made of whole elements of the tensor's type. -/
lemma length_mod_itemSize (arr : NDArray) :
    arr.data.length % (numpyToTorch arr.dtype).itemSize = 0 := by
  rw [itemSize_numpyToTorch, arr.length_data, Nat.mul_mod_left]

/-- What the tensor of an array is. -/
lemma torchFrombuffer_eq_ok_iff {arr : NDArray} {t : Tensor} :
    torchFrombuffer arr (numpyToTorch arr.dtype) = .ok t ↔
      arr.data ≠ [] ∧ t.dtype = numpyToTorch arr.dtype ∧
        t.shape = [arr.data.length / arr.dtype.itemSize] ∧ t.data = arr.data := by
  unfold torchFrombuffer
  rw [dif_pos (length_mod_itemSize arr)]
  split_ifs with hempty
  · exact iff_of_false (by simp) fun h => h.1 (List.length_eq_zero_iff.mp hempty)
  · rw [Except.ok.injEq]
    constructor
    · rintro rfl
      refine ⟨fun h => hempty (List.length_eq_zero_iff.mpr h), rfl, ?_, rfl⟩
      simp only [itemSize_numpyToTorch]
    · rintro ⟨-, hdtype, hshape, hdata⟩
      refine Tensor.ext hdtype.symm ?_ hdata.symm
      simp only [hshape, itemSize_numpyToTorch]

/-- What reshaping gives. -/
lemma Tensor.reshape_eq_ok_iff {t u : Tensor} {shape : List ℕ} :
    t.reshape shape = .ok u ↔ shape.prod = t.shape.prod ∧ u.dtype = t.dtype ∧ u.shape = shape ∧
      u.data = t.data := by
  unfold Tensor.reshape
  split_ifs with h
  · rw [Except.ok.injEq]
    constructor
    · rintro rfl
      exact ⟨h, rfl, rfl, rfl⟩
    · rintro ⟨-, hdtype, hshape, hdata⟩
      exact Tensor.ext hdtype.symm hshape.symm hdata.symm
  · exact iff_of_false (by simp) fun hu => h hu.1

/-- Where one of the two halves of a block of one layer is. -/
lemma locate_half {h t d i : ℕ} (hi : i < 2) :
    Tensor.locate [2, 1, h, t, d] [i, 0] = some (i * (h * (t * d)), [h, t, d]) := by
  simp [Tensor.locate, hi]

/-- A tensor whose halves are these has as many bytes as they have together. -/
lemma length_of_half {u : Tensor} {h t d : ℕ} (hu : u.shape = [2, 1, h, t, d])
    (hk : u.select [0, 0] = .ok w.keyTensor) :
    w.keyTensor.shape = [h, t, d] ∧ w.keyTensor.dtype = u.dtype ∧
      u.data.length = 2 * w.keyTensor.data.length := by
  obtain ⟨o, hlocate, hdtype, -⟩ := Tensor.select_eq_ok_iff.mp hk
  rw [hu, locate_half (by norm_num), Option.some.injEq, Prod.mk.injEq] at hlocate
  refine ⟨hlocate.2.symm, hdtype, ?_⟩
  rw [u.length_data, w.keyTensor.length_data, hu, hdtype, ← hlocate.2]
  simp only [List.prod_cons, List.prod_nil]
  ring

/-- An array that is not empty can be made a tensor. -/
lemma exists_torchFrombuffer {arr : NDArray} (hne : arr.data ≠ []) :
    ∃ t, torchFrombuffer arr (numpyToTorch arr.dtype) = .ok t := by
  unfold torchFrombuffer
  rw [if_neg (mt List.length_eq_zero_iff.mp hne), dif_pos (length_mod_itemSize arr)]
  exact ⟨_, rfl⟩

/-- A tensor can be given a shape of as many elements. -/
lemma exists_reshape {t : Tensor} {shape : List ℕ} (h : shape.prod = t.shape.prod) :
    ∃ u, t.reshape shape = .ok u := by
  unfold Tensor.reshape
  rw [dif_pos h]
  exact ⟨_, rfl⟩

/-- The halves of a tensor that has the bytes of the keys and of the values. -/
lemma select_halves {u : Tensor} {h t d : ℕ} (hu : u.shape = [2, 1, h, t, d])
    (hshape : w.keyTensor.shape = [h, t, d]) (hshapeV : w.valTensor.shape = w.keyTensor.shape)
    (hdtype : u.dtype = w.keyTensor.dtype) (hdtypeV : w.valTensor.dtype = w.keyTensor.dtype)
    (hdata : u.data = w.keyTensor.data ++ w.valTensor.data) :
    u.select [0, 0] = .ok w.keyTensor ∧ u.select [1, 0] = .ok w.valTensor := by
  have hk : w.keyTensor.data.length = h * (t * d) * u.dtype.itemSize := by
    rw [w.keyTensor.length_data, hshape, hdtype]
    simp only [List.prod_cons, List.prod_nil, mul_one]
  have hv : w.valTensor.data.length = h * (t * d) * u.dtype.itemSize := by
    rw [length_data_val hshapeV hdtypeV, hk]
  have hprod : [h, t, d].prod = h * (t * d) := by
    simp only [List.prod_cons, List.prod_nil, mul_one]
  constructor
  · refine Tensor.select_eq_ok_iff.mpr ⟨0 * (h * (t * d)), ?_, hdtype.symm, ?_⟩
    · rw [hu, locate_half (by norm_num), hshape]
    · rw [Tensor.part, hshape, hprod, hdata, ← hk, zero_mul, zero_mul,
        window_append_left _ (zero_add _).le, window_zero_length]
  · refine Tensor.select_eq_ok_iff.mpr ⟨1 * (h * (t * d)), ?_, hdtypeV.trans hdtype.symm, ?_⟩
    · rw [hu, locate_half (by norm_num), hshapeV, hshape]
    · have hright := window_append_right w.keyTensor.data w.valTensor.data 0
        w.valTensor.data.length
      rw [window_zero_length, add_zero, hk, hv] at hright
      rw [Tensor.part, hshapeV, hshape, hprod, hdata, one_mul, hright]

/-- The shape that the header of a block gives, if the sizes of the block fit. -/
lemma computeShape_descriptorOf (hheads : heads < 2 ^ 16) (hblock : blockSize < 2 ^ 16)
    (hdim : headDim < 2 ^ 16) :
    (descriptorOf w heads blockSize headDim).computeShape =
      [2, 1, heads, blockSize, headDim] := by
  change [2, 1, (UInt16.ofNat heads).toNat, (UInt16.ofNat blockSize).toNat,
    (UInt16.ofNat headDim).toNat] = _
  rw [(toNat_uint16_eq_iff _).mpr hheads, (toNat_uint16_eq_iff _).mpr hblock,
    (toNat_uint16_eq_iff _).mpr hdim]

section Arrays

variable {arr : NDArray} (hshape : w.keyTensor.shape = [heads, blockSize, headDim])
  (hdtype : arr.dtype = dtypeToNumpy w.headerType)
  (hdata : arr.data = (w.keyTensor.data ++ w.valTensor.data).take w.takenBytes)

include hshape hdtype hdata

/-- A header that gives back its block describes it. -/
lemma describable_of_givesBack (hv : w.valTensor.data.length = w.keyTensor.data.length)
    (h : GivesBack w (descriptorOf w heads blockSize headDim).toBytes
      (torchFrombuffer arr (numpyToTorch arr.dtype))) : w.Describable heads blockSize headDim := by
  obtain ⟨desc, t, u, hdesc, ht, hu, hkeys, -⟩ := h
  rw [TensorBlockDescriptor.fromBytes_toBytes] at hdesc
  obtain rfl := Except.ok.inj hdesc
  obtain ⟨-, htdtype, -, htdata⟩ := torchFrombuffer_eq_ok_iff.mp ht
  obtain ⟨-, hudtype, hushape, hudata⟩ := Tensor.reshape_eq_ok_iff.mp hu
  obtain ⟨hsame, hkdtype, hlen⟩ := length_of_half hushape hkeys
  rw [hshape, List.cons.injEq, List.cons.injEq, List.cons.injEq] at hsame
  obtain ⟨hheads, hblock, hdim, -⟩ := hsame
  refine ⟨?_, (toNat_uint16_eq_iff _).mp hheads.symm, (toNat_uint16_eq_iff _).mp hblock.symm,
    (toNat_uint16_eq_iff _).mp hdim.symm, ?_⟩
  · refine (numpyToTorch_dtypeInfo_eq_iff _).mp ?_
    calc numpyToTorch (dtypeToNumpy w.headerType)
      _ = numpyToTorch arr.dtype := by rw [hdtype]
      _ = w.keyTensor.dtype := by rw [hkdtype, hudtype, htdtype]
  · -- no more bytes have been taken than the header says
    have htaken : w.takenBytes ≤ (w.keyTensor.data.length + w.valTensor.data.length) % 2 ^ 32 :=
      Nat.div_mul_le_self _ _
    rw [hudata, htdata, hdata, List.length_take, List.length_append] at hlen
    omega

/-- A header that describes a block gives it back. -/
lemma givesBack_of_describable (hpos : 0 < w.keyTensor.shape.prod)
    (hshapeV : w.valTensor.shape = w.keyTensor.shape)
    (hdtypeV : w.valTensor.dtype = w.keyTensor.dtype) (h : w.Describable heads blockSize headDim) :
    GivesBack w (descriptorOf w heads blockSize headDim).toBytes
      (torchFrombuffer arr (numpyToTorch arr.dtype)) := by
  obtain ⟨hmapped, hheads, hblock, hdim, hpayload⟩ := h
  have hv := length_data_val hshapeV hdtypeV
  have hk := w.keyTensor.length_data
  have htype : numpyToTorch (dtypeToNumpy w.headerType) = w.keyTensor.dtype :=
    (numpyToTorch_dtypeInfo_eq_iff _).mpr hmapped
  have hitem : w.headerType.elementSizeBytes = w.keyTensor.dtype.itemSize := by
    rw [← htype, itemSize_numpyToTorch, itemSize_dtypeToNumpy_eq]
  rw [takenBytes_eq hv hitem hpayload, ← List.length_append, List.take_length] at hdata
  have hne : arr.data ≠ [] := by
    intro hnil
    have hlen := congrArg List.length (hdata.symm.trans hnil)
    have hbytes := Nat.mul_pos hpos w.keyTensor.dtype.itemSize_pos
    rw [List.length_append, List.length_nil] at hlen
    omega
  obtain ⟨t, ht⟩ := exists_torchFrombuffer hne
  obtain ⟨-, htdtype, htshape, htdata⟩ := torchFrombuffer_eq_ok_iff.mp ht
  have hcompute := computeShape_descriptorOf (w := w) hheads hblock hdim
  have htitem : t.dtype = w.keyTensor.dtype := by rw [htdtype, hdtype, htype]
  have hcount : (descriptorOf w heads blockSize headDim).computeShape.prod = t.shape.prod := by
    have hlen := t.length_data
    rw [htdata, hdata, List.length_append, hv, hk, hshape, htitem, ← two_mul, ← mul_assoc] at hlen
    rw [hcompute, ← Nat.eq_of_mul_eq_mul_right w.keyTensor.dtype.itemSize_pos hlen]
    simp only [List.prod_cons, List.prod_nil, mul_one, one_mul]
  obtain ⟨u, hu⟩ := exists_reshape hcount
  obtain ⟨-, hudtype, hushape, hudata⟩ := Tensor.reshape_eq_ok_iff.mp hu
  exact ⟨_, t, u, TensorBlockDescriptor.fromBytes_toBytes _, ht, hu,
    select_halves (hushape.trans hcompute) hshape hshapeV (hudtype.trans htitem) hdtypeV
      (hudata.trans (htdata.trans hdata))⟩

end Arrays

/-- What is read of a slot gives back its block exactly if the header describes it. -/
lemma givesBack_slot_iff {mem : Bytes} {offset : ℕ} (hpos : 0 < w.keyTensor.shape.prod)
    (hshape : w.keyTensor.shape = [heads, blockSize, headDim])
    (hshapeV : w.valTensor.shape = w.keyTensor.shape)
    (hdtypeV : w.valTensor.dtype = w.keyTensor.dtype)
    (hslot : window mem offset w.slotSize =
      slotBytes (descriptorOf w heads blockSize headDim) w.keyTensor w.valTensor)
    (hle : offset + w.slotSize ≤ mem.length) :
    GivesBack w (window mem offset 64)
        ((readMapped mem offset).bind fun arr => torchFrombuffer arr (numpyToTorch arr.dtype)) ↔
      w.Describable heads blockSize headDim := by
  obtain ⟨arr, hread, hdtype, hdata⟩ := readMapped_slot_eq hslot hle
  rw [hread, (window_slot hslot).1]
  exact ⟨describable_of_givesBack hshape hdtype hdata (length_data_val hshapeV hdtypeV),
    givesBack_of_describable hshape hdtype hdata hpos hshapeV hdtypeV⟩

end Slots

/-! ## Blocks of a memory manager -/

/-- The tensor depends on what attaching gives. -/
lemma readTorchTensor_fst {regions : Regions} {shmCache : Dict String Mapping} {coreId : ℕ}
    {byteOffset sizeBytes : ℤ} {shm : Mapping}
    (hattach : (attachShm regions shmCache coreId sizeBytes).1 = .ok shm) :
    (readTorchTensor regions shmCache coreId byteOffset sizeBytes).1 =
      (readMapped (shm.bytes regions) byteOffset).bind fun arr =>
        torchFrombuffer arr (numpyToTorch arr.dtype) := by
  have hread : (readTensor regions shmCache coreId byteOffset sizeBytes).1 =
      readMapped (shm.bytes regions) byteOffset := by
    rw [readTensor_fst, hattach]
  rw [← hread, readTorchTensor]
  rcases readTensor regions shmCache coreId byteOffset sizeBytes with ⟨e | arr, shmCache'⟩
  · rfl
  · rfl

/-- **Blocks come back as tensors.**  A block of any element type is written behind any other
writes, and no later slot meets its own.  The tensor that is read through a mapping of the pool,
in the shape that the header gives, has the keys and the values as its halves exactly if the header
describes the block: its element type is in the map of the codec, and its sizes fit into their
fields. -/
theorem givesBack_iff (coreId poolSizeMb : ℕ) (pre : List WriteArgs) {later : List WriteArgs}
    {w : WriteArgs} {heads blockSize headDim : ℕ}
    (hfits : ∀ w' ∈ w :: later, w'.slotSize ≤ poolSizeMb * 1024 * 1024)
    (hpos : 0 < w.keyTensor.shape.prod) (hshape : w.keyTensor.shape = [heads, blockSize, headDim])
    (hshapeV : w.valTensor.shape = w.keyTensor.shape)
    (hdtypeV : w.valTensor.dtype = w.keyTensor.dtype)
    {offset totalBytes : ℕ} {desc : TensorBlockDescriptor} {m' : KacheDBMemoryManager}
    (hwrite : ((new coreId poolSizeMb).writeAll pre).write w = (.ok (offset, totalBytes, desc), m'))
    (hapart : ∀ s ∈ m'.returnedSlots later, (Span.mk offset totalBytes).Apart s)
    {regions : Regions} (hregion : regions (shmPath coreId) = some (m'.writeAll later).buf)
    {shmCache : Dict String Mapping}
    (hfull : ∀ shm, shmCache.get (shmPath coreId) = some shm →
      shm.path = shmPath coreId ∧ poolSizeMb * 1024 * 1024 ≤ shm.length) :
    GivesBack w (window (m'.writeAll later).buf offset 64)
        (readTorchTensor regions shmCache coreId offset (poolSizeMb * 1024 * 1024 : ℕ)).1 ↔
      w.Describable heads blockSize headDim := by
  obtain ⟨hle, hbuf, hslot⟩ := slot_of_writeAll hfits hshape hwrite hapart
  have hsize : w.slotSize = 64 + (w.keyTensor.data.length + w.valTensor.data.length) := rfl
  obtain ⟨shm, hattach, hlong, hbytes⟩ := exists_attachShm hregion (by omega) hbuf hfull
  have hheader : window (m'.writeAll later).buf offset 64 =
      window ((m'.writeAll later).buf.take shm.length) offset 64 := by
    rw [window_take (by omega)]
  rw [readTorchTensor_fst hattach, hbytes, hheader]
  refine givesBack_slot_iff hpos hshape hshapeV hdtypeV ?_ ?_
  · rw [window_take (hle.trans hlong), hslot]
  · rw [List.length_take]
    omega

/-- The second of three blocks, in the shape of its header. -/
theorem givesBack_iff_second :
    ∃ offset totalBytes desc m',
      ((new 0 1).writeAll [byteBlock 2]).write floatBlock = (.ok (offset, totalBytes, desc), m') ∧
        (GivesBack floatBlock (window (m'.writeAll [byteBlock 3]).buf offset 64)
            (readTorchTensor (constRegions (m'.writeAll [byteBlock 3]).buf) .empty 0 offset
              (1 * 1024 * 1024 : ℕ)).1 ↔
          floatBlock.Describable 2 1 2) := by
  obtain ⟨hfits, offset, desc, m', hwrite, hapart⟩ := exists_write_floatBlock
  have hregion : constRegions (m'.writeAll [byteBlock 3]).buf (shmPath 0) =
      some (m'.writeAll [byteBlock 3]).buf := rfl
  exact ⟨offset, _, desc, m', hwrite, givesBack_iff 0 1 [byteBlock 2] hfits (by decide) rfl rfl rfl
    hwrite hapart hregion (exists_full_of_empty 0 1)⟩

end KacheDB
