import KacheDB.Tensor
import KacheDB.Foundation.Bytes

/-!
# The block descriptor and the tensor codec

`TensorBlockDescriptor` is the header of 64 bytes in front of every block, with its fields at
their places in memory.  Its fields have fixed widths: a number that does not fit is cut off
when it is stored.

`TensorCodec` turns tensors into bytes and back.
-/

namespace KacheDB

open Foundation

/-- The element types that a descriptor knows. -/
inductive TensorDType : Type where
  | fp32
  | fp16
  | bf16
  | fp8e4m3
  | fp8e5m2
  | int8
  | int4
  deriving DecidableEq

/-- The number of an element type. -/
def TensorDType.value : TensorDType → UInt8
  | .fp32 => 0
  | .fp16 => 1
  | .bf16 => 2
  | .fp8e4m3 => 3
  | .fp8e5m2 => 4
  | .int8 => 5
  | .int4 => 6

/-- `TensorDType(value)`: the element type with this number. -/
def TensorDType.ofValue (value : UInt8) : Option TensorDType :=
  [.fp32, .fp16, .bf16, .fp8e4m3, .fp8e5m2, .int8, .int4].find? fun d => d.value = value

@[simp] lemma TensorDType.ofValue_value (d : TensorDType) : ofValue d.value = some d := by
  cases d <;> rfl

/-- The descriptor of a block.  `hidden` are the two bytes between `_reserved` and the hash that
the alignment of the hash leaves. -/
@[ext]
structure TensorBlockDescriptor where
  magic : UInt32
  layerId : UInt16
  numLayers : UInt16
  blockSize : UInt16
  numHeads : UInt16
  headDim : UInt16
  dtype : UInt8
  reserved : List.Vector UInt8 7
  hidden : List.Vector UInt8 2
  sequencePrefixHash : UInt64
  payloadBytes : UInt32
  cachelinePad : List.Vector UInt8 28

namespace TensorBlockDescriptor

/-- `TENSOR_DESCRIPTOR_MAGIC`. -/
def descriptorMagic : UInt32 := 0x4B414348

/-- `ctypes.sizeof(TensorBlockDescriptor)`. -/
def sizeof : ℕ := 64

/-- Serialize the 64-byte descriptor to raw bytes. -/
def toBytes (d : TensorBlockDescriptor) : Bytes :=
  littleEndian 4 d.magic.toNat ++ littleEndian 2 d.layerId.toNat ++
    littleEndian 2 d.numLayers.toNat ++ littleEndian 2 d.blockSize.toNat ++
    littleEndian 2 d.numHeads.toNat ++ littleEndian 2 d.headDim.toNat ++
    littleEndian 1 d.dtype.toNat ++ d.reserved.toList ++ d.hidden.toList ++
    littleEndian 8 d.sequencePrefixHash.toNat ++ littleEndian 4 d.payloadBytes.toNat ++
    d.cachelinePad.toList

@[simp] lemma length_toBytes (d : TensorBlockDescriptor) : d.toBytes.length = sizeof := by
  simp [toBytes, sizeof]

/-- The magic sentinel matches. -/
def isValid (d : TensorBlockDescriptor) : Bool :=
  d.magic == descriptorMagic

/-- Construct a descriptor from a buffer of 64 bytes; what follows them is not looked at. -/
def fromBytes (source : Bytes) : Except Exc TensorBlockDescriptor :=
  if h : source.length < 64 then
    .error (.valueError ("Descriptor requires 64 bytes, got " ++ toString source.length))
  else
    .ok
      { magic := .ofNat (ofLittleEndian (window source 0 4))
        layerId := .ofNat (ofLittleEndian (window source 4 2))
        numLayers := .ofNat (ofLittleEndian (window source 6 2))
        blockSize := .ofNat (ofLittleEndian (window source 8 2))
        numHeads := .ofNat (ofLittleEndian (window source 10 2))
        headDim := .ofNat (ofLittleEndian (window source 12 2))
        dtype := .ofNat (ofLittleEndian (window source 14 1))
        reserved := ⟨window source 15 7, length_window (by omega)⟩
        hidden := ⟨window source 22 2, length_window (by omega)⟩
        sequencePrefixHash := .ofNat (ofLittleEndian (window source 24 8))
        payloadBytes := .ofNat (ofLittleEndian (window source 32 4))
        cachelinePad := ⟨window source 36 28, length_window (by omega)⟩ }

/-- The fields in their order in memory. -/
def fields (d : TensorBlockDescriptor) : List Bytes :=
  [littleEndian 4 d.magic.toNat, littleEndian 2 d.layerId.toNat, littleEndian 2 d.numLayers.toNat,
    littleEndian 2 d.blockSize.toNat, littleEndian 2 d.numHeads.toNat,
    littleEndian 2 d.headDim.toNat, littleEndian 1 d.dtype.toNat, d.reserved.toList,
    d.hidden.toList, littleEndian 8 d.sequencePrefixHash.toNat,
    littleEndian 4 d.payloadBytes.toNat, d.cachelinePad.toList]

lemma flatten_fields (d : TensorBlockDescriptor) : d.fields.flatten = d.toBytes := by
  simp [fields, toBytes]

/-- A field lies behind the fields in front of it. -/
lemma window_toBytes (d : TensorBlockDescriptor) {i o n : ℕ} {field : Bytes}
    (hi : d.fields[i]? = some field) (ho : ((d.fields.take i).map List.length).sum = o)
    (hn : field.length = n) : window d.toBytes o n = field := by
  rw [← flatten_fields, ← ho, ← hn, window_flatten _ hi]

/-- **The header round trip.** -/
theorem fromBytes_toBytes (d : TensorBlockDescriptor) : fromBytes d.toBytes = .ok d := by
  have hlen : ¬ d.toBytes.length < 64 := by simp [sizeof]
  -- an integer field
  have hfield {α : Type} {i o n k : ℕ} {ofNat : ℕ → α} {x : α} (hx : ofNat k = x)
      (hk : k < 256 ^ n) (hi : d.fields[i]? = some (littleEndian n k))
      (ho : ((d.fields.take i).map List.length).sum = o) :
      ofNat (ofLittleEndian (window d.toBytes o n)) = x := by
    rw [d.window_toBytes hi ho (length_littleEndian n k), ofLittleEndian_littleEndian,
      Nat.mod_eq_of_lt hk, hx]
  -- an array of bytes
  have harray {i o n : ℕ} (bytes : List.Vector UInt8 n) (hi : d.fields[i]? = some bytes.toList)
      (ho : ((d.fields.take i).map List.length).sum = o)
      (hw : (window d.toBytes o n).length = n) : ⟨window d.toBytes o n, hw⟩ = bytes :=
    Subtype.ext (d.window_toBytes hi ho bytes.toList_length)
  rw [fromBytes, dif_neg hlen]
  refine congrArg Except.ok (TensorBlockDescriptor.ext ?_ ?_ ?_ ?_ ?_ ?_ ?_ ?_ ?_ ?_ ?_ ?_)
  · exact hfield (i := 0) UInt32.ofNat_toNat d.magic.toNat_lt rfl (by simp [fields])
  · exact hfield (i := 1) UInt16.ofNat_toNat d.layerId.toNat_lt rfl (by simp [fields])
  · exact hfield (i := 2) UInt16.ofNat_toNat d.numLayers.toNat_lt rfl (by simp [fields])
  · exact hfield (i := 3) UInt16.ofNat_toNat d.blockSize.toNat_lt rfl (by simp [fields])
  · exact hfield (i := 4) UInt16.ofNat_toNat d.numHeads.toNat_lt rfl (by simp [fields])
  · exact hfield (i := 5) UInt16.ofNat_toNat d.headDim.toNat_lt rfl (by simp [fields])
  · exact hfield (i := 6) UInt8.ofNat_toNat d.dtype.toNat_lt rfl (by simp [fields])
  · exact harray (i := 7) d.reserved rfl (by simp [fields]) _
  · exact harray (i := 8) d.hidden rfl (by simp [fields]) _
  · exact hfield (i := 9) UInt64.ofNat_toNat d.sequencePrefixHash.toNat_lt rfl (by simp [fields])
  · exact hfield (i := 10) UInt32.ofNat_toNat d.payloadBytes.toNat_lt rfl (by simp [fields])
  · exact harray (i := 11) d.cachelinePad rfl (by simp [fields]) _

end TensorBlockDescriptor

namespace TensorCodec

/-- `_DTYPE_MAP`: the number of an element type and its size. -/
def dtypeMap : DType → Option (TensorDType × ℕ)
  | .float16 => some (.fp16, 2)
  | .bfloat16 => some (.bf16, 2)
  | .float32 => some (.fp32, 4)
  | .int8 => some (.int8, 1)
  | .uint8 => some (.fp8e4m3, 1)
  | _ => none

/-- What `serialize_tensor` says of an element type; it takes an unknown one for `FP16`. -/
def dtypeInfo (d : DType) : TensorDType × ℕ :=
  (dtypeMap d).getD (.fp16, 2)

/-- Convert a contiguous tensor into raw memory bytes. -/
def serializeTensor (t : Tensor) : Bytes × TensorDType × ℕ :=
  (t.data, dtypeInfo t.dtype)

/-- Construct a tensor from a raw memory buffer.  `torch.frombuffer` refuses an empty tensor and
one that does not lie within the buffer. -/
def deserializeTensor (buffer : Bytes) (offset : ℕ) (shape : List ℕ) (dtype : DType) :
    Except Exc Tensor :=
  if buffer.length = 0 ∨ shape.prod = 0 then .error (.valueError "")
  else if buffer.length ≤ offset then .error (.valueError "")
  else if h : offset + shape.prod * dtype.itemSize ≤ buffer.length then
    .ok ⟨dtype, shape, window buffer offset (shape.prod * dtype.itemSize), length_window h⟩
  else .error (.valueError "")

/-- The size of a known element type is the true one. -/
lemma itemSize_of_dtypeMap {d : DType} {info : TensorDType × ℕ} (h : dtypeMap d = some info) :
    info.2 = d.itemSize := by
  cases d <;> cases h <;> rfl

/-- What a successful construction gives. -/
lemma deserializeTensor_eq_ok {buffer : Bytes} {offset : ℕ} {shape : List ℕ} {dtype : DType}
    {t : Tensor} (h : deserializeTensor buffer offset shape dtype = .ok t) :
    t.dtype = dtype ∧ t.shape = shape ∧
      t.data = window buffer offset (shape.prod * dtype.itemSize) := by
  unfold deserializeTensor at h
  split_ifs at h
  obtain rfl := Except.ok.inj h
  exact ⟨rfl, rfl, rfl⟩

/-- A tensor that has elements and lies within the buffer can be constructed. -/
lemma deserializeTensor_succeeds {buffer : Bytes} {offset : ℕ} {shape : List ℕ} {dtype : DType}
    (hpos : 0 < shape.prod) (h : offset + shape.prod * dtype.itemSize ≤ buffer.length) :
    ∃ t, deserializeTensor buffer offset shape dtype = .ok t := by
  have hbytes : 0 < shape.prod * dtype.itemSize := Nat.mul_pos hpos dtype.itemSize_pos
  unfold deserializeTensor
  rw [if_neg (by omega), if_neg (by omega), dif_pos h]
  exact ⟨_, rfl⟩

end TensorCodec

end KacheDB
