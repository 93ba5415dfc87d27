import KacheDB.DmaRuns
import KacheDB.Foundation.Memo

/-!
# Shared memory

`attach_shm` maps the region of a worker core, a file that the server writes, and `read_tensor`
reads the block at an offset of a mapped region: it decodes the header, takes the element type and
the number of elements from it, and returns a view of what follows.

A process keeps its mappings in a dictionary by the path of the region.  The size of the mapping
is not part of the key, so that the first call for a region decides how much of it every later call
sees.
-/

namespace KacheDB

open Foundation KacheDBMemoryManager

/-- The element types of NumPy that `read_tensor` uses. -/
inductive NumpyDType : Type where
  | float32
  | float16
  | uint16
  | uint8
  | int8
  deriving DecidableEq

/-- The number of bytes of an element. -/
def NumpyDType.itemSize : NumpyDType → ℕ
  | .float32 => 4
  | .float16 | .uint16 => 2
  | .uint8 | .int8 => 1

lemma NumpyDType.itemSize_pos (d : NumpyDType) : 0 < d.itemSize := by
  cases d <;> decide

/-- A one-dimensional array, by the bytes of its elements. -/
structure NDArray where
  dtype : NumpyDType
  size : ℕ
  data : Bytes
  length_data : data.length = size * dtype.itemSize

/-- `_get_dtype_to_numpy`. -/
def dtypeToNumpy : TensorDType → NumpyDType
  | .fp32 => .float32
  | .fp16 => .float16
  | .bf16 => .uint16
  | .fp8e4m3 => .uint8
  | .fp8e5m2 => .uint8
  | .int8 => .int8
  | .int4 => .uint8

/-- The storage size in bytes for one element of this type.  Two elements of `INT4` share a byte. -/
def TensorDType.elementSizeBytes : TensorDType → ℕ
  | .fp32 => 4
  | .fp16 | .bf16 => 2
  | _ => 1

/-- The files under `/dev/shm` by their paths. -/
abbrev Regions := String → Option Bytes

/-- A shared mapping of the first bytes of a file. -/
structure Mapping where
  path : String
  length : ℕ
  deriving DecidableEq

/-- The bytes that are seen through a mapping. -/
def Mapping.bytes (regions : Regions) (shm : Mapping) : Bytes :=
  ((regions shm.path).getD []).take shm.length

/-- The path of the region of a core. -/
def shmPath (coreId : ℕ) : String :=
  "/dev/shm/kachedb_" ++ toString coreId

/-- `mmap.mmap` of a file: the number of bytes that are mapped.  A size of 0 maps the whole
file. -/
def mapFile (file : Bytes) (sizeBytes : ℤ) : Except Exc ℕ :=
  if sizeBytes < 0 then .error .overflowError
  else if sizeBytes = 0 then
    if file.length = 0 then .error (.valueError "cannot mmap an empty file") else .ok file.length
  else if file.length < sizeBytes then
    .error (.valueError "mmap length is greater than file size")
  else .ok sizeBytes.toNat

/-- Map the region of a core, with no regard to what has been mapped. -/
def mapRegion (regions : Regions) (coreId : ℕ) (sizeBytes : ℤ) : Except Exc Mapping :=
  match regions (shmPath coreId) with
  | none =>
    .error (.osError ("Shared memory region not found: " ++ shmPath coreId ++
      ". Is KacheDB running with --shm enabled?"))
  | some file => (mapFile file sizeBytes).map fun length => ⟨shmPath coreId, length⟩

/-- Attach to the region of a core; the dictionary holds the mappings of the process. -/
def attachShm (regions : Regions) (shmCache : Dict String Mapping) (coreId : ℕ) (sizeBytes : ℤ) :
    Except Exc Mapping × Dict String Mapping :=
  match shmCache.get (shmPath coreId) with
  | some shm => (.ok shm, shmCache)
  | none =>
    match mapRegion regions coreId sizeBytes with
    | .error e => (.error e, shmCache)
    | .ok shm => (.ok shm, shmCache.set (shmPath coreId) shm)

/-- `hex(n)`. -/
def hex (n : ℕ) : String :=
  "0x" ++ String.ofList (Nat.toDigits 16 n)

/-- `np.frombuffer` of a number of elements from an offset on. -/
def frombuffer (mem : Bytes) (dtype : NumpyDType) (count offset : ℕ) : Except Exc NDArray :=
  if mem.length < offset then
    .error (.valueError ("offset must be non-negative and no greater than buffer length (" ++
      toString mem.length ++ ")"))
  else if h : offset + count * dtype.itemSize ≤ mem.length then
    .ok ⟨dtype, count, window mem offset (count * dtype.itemSize), length_window h⟩
  else .error (.valueError "buffer is smaller than requested size")

/-- What a header says of the payload behind it: the type and the number of the elements. -/
def readHeader (headerBytes : Bytes) : Except Exc (NumpyDType × ℕ) :=
  match TensorBlockDescriptor.fromBytes headerBytes with
  | .error e => .error e
  | .ok desc =>
    if desc.isValid then
      match TensorDType.ofValue desc.dtype with
      | none => .error (.valueError (toString desc.dtype.toNat ++ " is not a valid TensorDType"))
      | some dtypeEnum =>
        .ok (dtypeToNumpy dtypeEnum,
          desc.payloadBytes.toNat / (dtypeToNumpy dtypeEnum).itemSize)
    else
      .error (.valueError ("Invalid tensor descriptor magic: " ++ hex desc.magic.toNat ++
        ", expected " ++ hex TensorBlockDescriptor.descriptorMagic.toNat))

/-- Read the block at an offset of a mapped region.  The position of the mapping is set first, so
that it does not matter where an earlier call has left it. -/
def readMapped (mem : Bytes) (byteOffset : ℤ) : Except Exc NDArray :=
  if byteOffset < 0 ∨ mem.length < byteOffset then .error (.valueError "seek out of range")
  else
    match readHeader (window mem byteOffset.toNat 64) with
    | .error e => .error e
    | .ok (npDtype, elementCount) =>
      frombuffer mem npDtype elementCount (byteOffset.toNat + 64)

/-- Read a tensor block from the region of a core. -/
def readTensor (regions : Regions) (shmCache : Dict String Mapping) (coreId : ℕ)
    (byteOffset sizeBytes : ℤ) : Except Exc NDArray × Dict String Mapping :=
  match attachShm regions shmCache coreId sizeBytes with
  | (.error e, shmCache') => (.error e, shmCache')
  | (.ok shm, shmCache') => (readMapped (shm.bytes regions) byteOffset, shmCache')

/-! ## Blocks of a memory manager -/

section Blocks

variable {w : WriteArgs} {heads blockSize headDim : ℕ}

/-- An element has the same size for NumPy as in the header. -/
lemma itemSize_dtypeToNumpy_eq (d : TensorDType) :
    (dtypeToNumpy d).itemSize = d.elementSizeBytes := by
  cases d <;> rfl

/-- The elements that the reader takes have the width of those that were written. -/
lemma itemSize_dtypeToNumpy {d : DType} {info : TensorDType × ℕ}
    (h : TensorCodec.dtypeMap d = some info) : (dtypeToNumpy info.1).itemSize = d.itemSize := by
  cases d <;> cases h <;> rfl

/-- The type in the header of a block. -/
def WriteArgs.headerType (w : WriteArgs) : TensorDType :=
  (TensorCodec.dtypeInfo w.keyTensor.dtype).1

/-- The number of bytes of keys and values that the reader takes, from what the header says. -/
def WriteArgs.takenBytes (w : WriteArgs) : ℕ :=
  (w.keyTensor.data.length + w.valTensor.data.length) % 2 ^ 32 / w.headerType.elementSizeBytes *
    w.headerType.elementSizeBytes

/-- What the reader makes of the header of a block. -/
lemma readHeader_descriptorOf :
    readHeader (descriptorOf w heads blockSize headDim).toBytes =
      .ok (dtypeToNumpy w.headerType, (w.keyTensor.data.length + w.valTensor.data.length) %
        2 ^ 32 / w.headerType.elementSizeBytes) := by
  have hvalid : (descriptorOf w heads blockSize headDim).isValid = true := rfl
  have hdtype : TensorDType.ofValue (descriptorOf w heads blockSize headDim).dtype =
      some w.headerType := TensorDType.ofValue_value _
  have hbytes : (descriptorOf w heads blockSize headDim).payloadBytes.toNat =
      (w.keyTensor.data.length + w.valTensor.data.length) % 2 ^ 32 := UInt32.toNat_ofNat'
  rw [readHeader, TensorBlockDescriptor.fromBytes_toBytes]
  simp only [hvalid, if_true, hdtype, hbytes, itemSize_dtypeToNumpy_eq]

/-- A slot that lies in a mapping, read through it. -/
lemma readMapped_slot_eq {mem : Bytes} {offset : ℕ}
    (hslot : window mem offset w.slotSize =
      slotBytes (descriptorOf w heads blockSize headDim) w.keyTensor w.valTensor)
    (hle : offset + w.slotSize ≤ mem.length) :
    ∃ arr, readMapped mem offset = .ok arr ∧ arr.dtype = dtypeToNumpy w.headerType ∧
      arr.data = (w.keyTensor.data ++ w.valTensor.data).take w.takenBytes := by
  obtain ⟨hheader, hdata⟩ := window_slot hslot
  have hsize : w.slotSize = 64 + (w.keyTensor.data.length + w.valTensor.data.length) := rfl
  have htaken : w.takenBytes ≤ w.keyTensor.data.length + w.valTensor.data.length :=
    (Nat.div_mul_le_self _ _).trans (Nat.mod_le _ _)
  have hseek : ¬ ((offset : ℤ) < 0 ∨ (mem.length : ℤ) < offset) := by omega
  rw [readMapped, if_neg hseek, Int.toNat_natCast, hheader, readHeader_descriptorOf]
  simp only [frombuffer, itemSize_dtypeToNumpy_eq]
  rw [if_neg (by omega), dif_pos (by rw [WriteArgs.takenBytes] at htaken; omega)]
  refine ⟨_, rfl, rfl, ?_⟩
  change window mem (offset + 64) w.takenBytes = _
  rw [← hdata, window, window, List.take_take, min_eq_left htaken]

/-- The keys and values are as many bytes each. -/
lemma length_data_val (hshapeV : w.valTensor.shape = w.keyTensor.shape)
    (hdtypeV : w.valTensor.dtype = w.keyTensor.dtype) :
    w.valTensor.data.length = w.keyTensor.data.length := by
  rw [w.valTensor.length_data, w.keyTensor.length_data, hshapeV, hdtypeV]

/-- The reader takes all bytes of a block that the header describes. -/
lemma takenBytes_eq (hv : w.valTensor.data.length = w.keyTensor.data.length)
    (hitem : w.headerType.elementSizeBytes = w.keyTensor.dtype.itemSize)
    (hpayload : w.keyTensor.data.length + w.valTensor.data.length < 2 ^ 32) :
    w.takenBytes = w.keyTensor.data.length + w.valTensor.data.length := by
  rw [WriteArgs.takenBytes, Nat.mod_eq_of_lt hpayload, hitem, hv, w.keyTensor.length_data,
    ← two_mul, ← mul_assoc, Nat.mul_div_cancel _ w.keyTensor.dtype.itemSize_pos]

/-- A slot of a block of one of the types of the codec: the elements of the keys and then those of
the values. -/
lemma readMapped_slot {mem : Bytes} {offset : ℕ}
    (hslot : window mem offset w.slotSize =
      slotBytes (descriptorOf w heads blockSize headDim) w.keyTensor w.valTensor)
    (hle : offset + w.slotSize ≤ mem.length) (hw : w.SameKind)
    (hpayload : w.keyTensor.data.length + w.valTensor.data.length < 2 ^ 32) :
    ∃ arr, readMapped mem offset = .ok arr ∧
      arr.dtype.itemSize = w.keyTensor.dtype.itemSize ∧ arr.size = 2 * w.keyTensor.shape.prod ∧
      arr.data = w.keyTensor.data ++ w.valTensor.data := by
  obtain ⟨-, ⟨info, hmap⟩, hshapeV, hdtypeV⟩ := hw
  obtain ⟨arr, hread, hdtype, hdata⟩ := readMapped_slot_eq hslot hle
  have hwidth : (dtypeToNumpy w.headerType).itemSize = w.keyTensor.dtype.itemSize := by
    rw [WriteArgs.headerType, TensorCodec.dtypeInfo, hmap]
    exact itemSize_dtypeToNumpy hmap
  have hv := length_data_val hshapeV hdtypeV
  have hitem := (itemSize_dtypeToNumpy_eq w.headerType).symm.trans hwidth
  rw [takenBytes_eq hv hitem hpayload, ← List.length_append, List.take_length] at hdata
  refine ⟨arr, hread, (congrArg NumpyDType.itemSize hdtype).trans hwidth, ?_, hdata⟩
  have hlen := arr.length_data
  rw [hdata, List.length_append, hv, w.keyTensor.length_data, hdtype, hwidth, ← two_mul,
    ← mul_assoc] at hlen
  exact (Nat.eq_of_mul_eq_mul_right w.keyTensor.dtype.itemSize_pos hlen).symm

/-- A slot that no later one meets is still in the pool. -/
lemma slot_of_writeAll {coreId poolSizeMb : ℕ} {pre later : List WriteArgs}
    {heads blockSize headDim : ℕ} {more : List ℕ} {offset totalBytes : ℕ}
    {desc : TensorBlockDescriptor} {m' : KacheDBMemoryManager}
    (hfits : ∀ w' ∈ w :: later, w'.slotSize ≤ poolSizeMb * 1024 * 1024)
    (hshape : w.keyTensor.shape = heads :: blockSize :: headDim :: more)
    (hwrite : ((new coreId poolSizeMb).writeAll pre).write w = (.ok (offset, totalBytes, desc), m'))
    (hapart : ∀ s ∈ m'.returnedSlots later, (Span.mk offset totalBytes).Apart s) :
    offset + w.slotSize ≤ poolSizeMb * 1024 * 1024 ∧
      poolSizeMb * 1024 * 1024 ≤ (m'.writeAll later).buf.length ∧
      window (m'.writeAll later).buf offset w.slotSize =
        slotBytes (descriptorOf w heads blockSize headDim) w.keyTensor w.valTensor := by
  obtain ⟨o, m₁, hwrite', hle, -, -, hbuf, hslot⟩ := write_later pre hshape hfits
  rw [hwrite, Prod.mk.injEq, Except.ok.injEq, Prod.mk.injEq, Prod.mk.injEq] at hwrite'
  obtain ⟨⟨rfl, rfl, -⟩, rfl⟩ := hwrite'
  exact ⟨hle, hbuf, hslot hapart⟩

/-- A process that has mapped all of a region, or nothing of it, sees all of it. -/
lemma exists_attachShm {regions : Regions} {shmCache : Dict String Mapping} {coreId size : ℕ}
    {file : Bytes} (hregion : regions (shmPath coreId) = some file) (hpos : 0 < size)
    (hsize : size ≤ file.length)
    (hfull : ∀ shm, shmCache.get (shmPath coreId) = some shm →
      shm.path = shmPath coreId ∧ size ≤ shm.length) :
    ∃ shm, (attachShm regions shmCache coreId (size : ℕ)).1 = .ok shm ∧ size ≤ shm.length ∧
      shm.bytes regions = file.take shm.length := by
  have hbytes {shm : Mapping} (hpath : shm.path = shmPath coreId) :
      shm.bytes regions = file.take shm.length := by
    rw [Mapping.bytes, hpath, hregion, Option.getD_some]
  unfold attachShm
  cases hget : shmCache.get (shmPath coreId) with
  | some shm =>
    obtain ⟨hpath, hle⟩ := hfull shm hget
    exact ⟨shm, rfl, hle, hbytes hpath⟩
  | none =>
    have hmap : mapRegion regions coreId (size : ℕ) = .ok ⟨shmPath coreId, size⟩ := by
      simp only [mapRegion, hregion, mapFile]
      rw [if_neg (by omega), if_neg (by omega), if_neg (by omega), Int.toNat_natCast]
      rfl
    rw [hmap]
    exact ⟨_, rfl, le_rfl, hbytes rfl⟩

/-- What reading gives depends on what attaching gives. -/
lemma readTensor_fst (regions : Regions) (shmCache : Dict String Mapping) (coreId : ℕ)
    (byteOffset sizeBytes : ℤ) :
    (readTensor regions shmCache coreId byteOffset sizeBytes).1 =
      match (attachShm regions shmCache coreId sizeBytes).1 with
      | .error e => .error e
      | .ok shm => readMapped (shm.bytes regions) byteOffset := by
  unfold readTensor
  rcases attachShm regions shmCache coreId sizeBytes with ⟨e | shm, shmCache'⟩
  · rfl
  · rfl

end Blocks

/-- **The two readers agree.**  A block that has been written behind any other writes, whose slot
fits in the pool and no later slot meets, is read through a mapping of the pool as
`read_paged_block` reads it: the elements have the width of those that were written, and they are
those of the keys and then those of the values, and no others. -/
theorem readTensor_agrees (coreId poolSizeMb : ℕ) (pre : List WriteArgs) {later : List WriteArgs}
    {w : WriteArgs} (hfits : ∀ w' ∈ w :: later, w'.slotSize ≤ poolSizeMb * 1024 * 1024)
    (hw : w.SameKind)
    (hpayload : w.keyTensor.data.length + w.valTensor.data.length < 2 ^ 32)
    {offset totalBytes : ℕ} {desc : TensorBlockDescriptor} {m' : KacheDBMemoryManager}
    (hwrite : ((new coreId poolSizeMb).writeAll pre).write w = (.ok (offset, totalBytes, desc), m'))
    (hapart : ∀ s ∈ m'.returnedSlots later, (Span.mk offset totalBytes).Apart s)
    {regions : Regions} (hregion : regions (shmPath coreId) = some (m'.writeAll later).buf)
    {shmCache : Dict String Mapping}
    (hfull : ∀ shm, shmCache.get (shmPath coreId) = some shm →
      shm.path = shmPath coreId ∧ poolSizeMb * 1024 * 1024 ≤ shm.length) :
    ∃ arr k v, (readTensor regions shmCache coreId offset (poolSizeMb * 1024 * 1024 : ℕ)).1 =
        .ok arr ∧ arr.dtype.itemSize = w.keyTensor.dtype.itemSize ∧
      (m'.writeAll later).readPagedBlock offset w.keyTensor.shape w.keyTensor.dtype = .ok (k, v) ∧
      k = w.keyTensor ∧ v = w.valTensor ∧ arr.size = 2 * w.keyTensor.shape.prod ∧
      arr.data = k.data ++ v.data := by
  have hdims : ¬ w.keyTensor.shape.length < 3 := by
    intro hdims
    rw [write_of_length_lt hdims] at hwrite
    cases hwrite
  obtain ⟨h, t, d, more, hshape⟩ := exists_shape hdims
  obtain ⟨hle, hbuf, hslot⟩ := slot_of_writeAll hfits hshape hwrite hapart
  have hsize : w.slotSize = 64 + (w.keyTensor.data.length + w.valTensor.data.length) := rfl
  obtain ⟨shm, hattach, hlong, hbytes⟩ := exists_attachShm hregion (by omega) hbuf hfull
  have hseen : window ((m'.writeAll later).buf.take shm.length) offset w.slotSize =
      slotBytes (descriptorOf w h t d) w.keyTensor w.valTensor := by
    rw [window_take (hle.trans hlong), hslot]
  have hwithin : offset + w.slotSize ≤ ((m'.writeAll later).buf.take shm.length).length := by
    rw [List.length_take]
    omega
  obtain ⟨arr, hread, hwidth, hcount, hdata⟩ := readMapped_slot hseen hwithin hw hpayload
  rw [readTensor_fst, hattach]
  rw [← hbytes] at hread
  exact ⟨arr, w.keyTensor, w.valTensor, hread, hwidth, readPagedBlock_of_slot hw hslot, rfl, rfl,
    hcount, hdata⟩

/-- Every region holds these bytes. -/
def constRegions (buf : Bytes) : Regions :=
  fun _ => some buf

/-- A block of two heads, of two elements of 4 bytes each. -/
def floatBlock : WriteArgs :=
  ⟨.filled .float32 [2, 1, 2] 1, .filled .float32 [2, 1, 2] 2, 0, 0, 0⟩

/-- Such a block and a later one of one byte fit in a pool, and their slots are apart if they are
written behind another block. -/
lemma exists_write_floatBlock :
    (∀ w ∈ [floatBlock, byteBlock 3], w.slotSize ≤ 1 * 1024 * 1024) ∧
      ∃ offset desc m', ((new 0 1).writeAll [byteBlock 2]).write floatBlock =
          (.ok (offset, floatBlock.slotSize, desc), m') ∧
        ∀ s ∈ m'.returnedSlots [byteBlock 3], (Span.mk offset floatBlock.slotSize).Apart s := by
  have hfit (b : UInt8) : (byteBlock b).slotSize ≤ 1 * 1024 * 1024 := (isBlock_byteBlock b).2
  have hfits : ∀ w ∈ [floatBlock, byteBlock 3], w.slotSize ≤ 1 * 1024 * 1024 :=
    List.forall_mem_cons.mpr ⟨by decide, List.forall_mem_singleton.mpr (hfit 3)⟩
  have hdims : ∀ w ∈ [floatBlock, byteBlock 3], 3 ≤ w.keyTensor.shape.length := by decide
  have hnew : (new 0 1).poolSizeBytes ≤ (new 0 1).buf.length := (inPool_new 0 1).2.1.ge
  obtain ⟨hpool, hbuf⟩ := le_length_buf_writeAll hnew [byteBlock 2]
  have hhead := (returnedSlots_eq_spansFrom hnew
    (List.forall_mem_singleton.mpr ⟨le_rfl, hfit 2⟩)).2
  have hlast := (returnedSlots_eq_spansFrom (hpool.le.trans hbuf)
    fun w hw => ⟨hdims w hw, (hfits w hw).trans hpool.ge⟩).1
  obtain ⟨offset, m', hwrite, -⟩ := write_spec (m := (new 0 1).writeAll [byteBlock 2])
    (w := floatBlock) rfl (hpool.le.trans hbuf) ((hfits _ (List.mem_cons_self ..)).trans hpool.ge)
  -- the slots are 66 and 96 bytes long, and the last one begins behind the one before
  rw [returnedSlots, hwrite, hhead, hpool] at hlast
  obtain ⟨hslot, hlater⟩ := List.cons.inj hlast
  refine ⟨hfits, offset, _, m', hwrite, ?_⟩
  rw [hslot, hlater]
  decide

/-- A process that has mapped nothing. -/
lemma exists_full_of_empty (coreId poolSizeMb : ℕ) (shm : Mapping)
    (h : Dict.empty.get (shmPath coreId) = some shm) :
    shm.path = shmPath coreId ∧ poolSizeMb * 1024 * 1024 ≤ shm.length := by
  rw [Dict.get_empty] at h
  cases h

/-- The second of three blocks, read by both readers. -/
theorem readTensor_agrees_second :
    ∃ offset totalBytes desc m' arr k v,
      ((new 0 1).writeAll [byteBlock 2]).write floatBlock = (.ok (offset, totalBytes, desc), m') ∧
        (readTensor (constRegions (m'.writeAll [byteBlock 3]).buf) .empty 0 offset
          (1 * 1024 * 1024 : ℕ)).1 = .ok arr ∧
        arr.dtype.itemSize = 4 ∧
        (m'.writeAll [byteBlock 3]).readPagedBlock offset [2, 1, 2] .float32 = .ok (k, v) ∧
        k = .filled .float32 [2, 1, 2] 1 ∧ v = .filled .float32 [2, 1, 2] 2 ∧ arr.size = 8 ∧
        arr.data = k.data ++ v.data := by
  obtain ⟨hfits, offset, desc, m', hwrite, hapart⟩ := exists_write_floatBlock
  have hregion : constRegions (m'.writeAll [byteBlock 3]).buf (shmPath 0) =
      some (m'.writeAll [byteBlock 3]).buf := rfl
  obtain ⟨arr, k, v, hagree⟩ := readTensor_agrees 0 1 [byteBlock 2] hfits
    ⟨by decide, ⟨_, rfl⟩, rfl, rfl⟩ (show 16 + 16 < 2 ^ 32 by norm_num) hwrite hapart hregion
    (exists_full_of_empty 0 1)
  exact ⟨offset, _, desc, m', arr, k, v, hwrite, hagree⟩

end KacheDB
