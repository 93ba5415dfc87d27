import KacheDB.Descriptor
import KacheDB.Foundation.StructLayout

/-!
# The bytes of a descriptor

The layout of `TensorBlockDescriptor` follows from the types of its fields: `layout_cFields`
computes it, and between `_reserved` and the hash are the two bytes of padding that the model keeps
as `hidden`.

The header round trip is `fromBytes_toBytes`.  Here is the other one (`toBytes_of_fromBytes`): every
64 bytes are the bytes of a descriptor.
-/

namespace KacheDB

open Foundation

namespace TensorBlockDescriptor

/-! ## The layout -/

/-- The types in `_fields_`. -/
def cFields : List CType :=
  [.integer 4, .integer 2, .integer 2, .integer 2, .integer 2, .integer 2, .integer 1,
    .array (.integer 1) 7, .integer 8, .integer 4, .array (.integer 1) 28]

/-- The bytes of the fields, without the padding. -/
def members (d : TensorBlockDescriptor) : List Bytes :=
  d.fields.eraseIdx 8

/-- **The layout of a descriptor.** -/
lemma layout_cFields : layout cFields =
    [⟨0, 4⟩, ⟨4, 6⟩, ⟨6, 8⟩, ⟨8, 10⟩, ⟨10, 12⟩, ⟨12, 14⟩, ⟨14, 15⟩, ⟨15, 22⟩, ⟨24, 32⟩, ⟨32, 36⟩,
      ⟨36, 64⟩] := by
  decide

lemma structSize_cFields : structSize cFields = sizeof := by
  decide

/-- The padding stands in front of the hash. -/
lemma layout_cFields_eq_eraseIdx (d : TensorBlockDescriptor) :
    layout cFields = (spans 0 (d.fields.map List.length)).eraseIdx 8 := by
  have hlengths : d.fields.map List.length = [4, 2, 2, 2, 2, 2, 1, 7, 2, 8, 4, 28] := by
    simp [fields]
  rw [layout_cFields, hlengths]
  rfl

/-- Each field is found at its place. -/
lemma map_items_toBytes (d : TensorBlockDescriptor) :
    (layout cFields).map (·.items d.toBytes) = d.members := by
  rw [layout_cFields_eq_eraseIdx d, ← List.eraseIdx_map, ← flatten_fields, map_items_spans]
  rfl

/-! ## The other round trip -/

/-- What an integer field of these bytes is written as. -/
lemma littleEndian_window {source : Bytes} {o n m : ℕ} (h : o + n ≤ source.length)
    (hm : m = 256 ^ n) :
    littleEndian n (ofLittleEndian (window source o n) % m) = window source o n := by
  have hlength := length_window h
  have hlt := ofLittleEndian_lt (window source o n)
  have hfield := littleEndian_ofLittleEndian (window source o n)
  rw [hlength] at hlt hfield
  rw [hm, Nat.mod_eq_of_lt hlt, hfield]

/-- **The descriptor that is read is written back** as the 64 bytes that it was read from. -/
theorem toBytes_of_fromBytes {source : Bytes} {d : TensorBlockDescriptor}
    (h : fromBytes source = .ok d) : d.toBytes = source.take 64 := by
  rw [fromBytes] at h
  split_ifs at h with hlength
  obtain rfl := Except.ok.inj h
  have hfield {o n m : ℕ} (hle : o + n ≤ 64) (hm : m = 256 ^ n) :
      littleEndian n (ofLittleEndian (window source o n) % m) = window source o n :=
    littleEndian_window (by omega) hm
  have hfirst : window source 0 4 = source.take 4 := rfl
  -- every field is written as its window, and the windows stand one behind the other
  rw [toBytes]
  simp only [UInt8.toNat_ofNat', UInt16.toNat_ofNat', UInt32.toNat_ofNat', UInt64.toNat_ofNat']
  rw [hfield (o := 0) (by norm_num) (by norm_num), hfield (o := 4) (by norm_num) (by norm_num),
    hfield (o := 6) (by norm_num) (by norm_num), hfield (o := 8) (by norm_num) (by norm_num),
    hfield (o := 10) (by norm_num) (by norm_num), hfield (o := 12) (by norm_num) (by norm_num),
    hfield (o := 14) (by norm_num) (by norm_num), hfield (o := 24) (by norm_num) (by norm_num),
    hfield (o := 32) (by norm_num) (by norm_num), hfirst]
  change source.take 4 ++ window source 4 2 ++ window source 6 2 ++ window source 8 2 ++
    window source 10 2 ++ window source 12 2 ++ window source 14 1 ++ window source 15 7 ++
    window source 22 2 ++ window source 24 8 ++ window source 32 4 ++ window source 36 28 =
      source.take 64
  simp only [take_append_window, Nat.reduceAdd]

/-- A descriptor is determined by its bytes. -/
lemma toBytes_injective : Function.Injective toBytes := by
  intro d d' h
  have hbytes := congrArg fromBytes h
  rw [fromBytes_toBytes, fromBytes_toBytes] at hbytes
  exact Except.ok.inj hbytes

/-- A buffer that is long enough has a descriptor. -/
lemma exists_fromBytes {source : Bytes} (h : 64 ≤ source.length) :
    ∃ d, fromBytes source = .ok d := by
  rw [fromBytes, dif_neg (not_lt.mpr h)]
  exact ⟨_, rfl⟩

/-- Only the first 64 bytes are read. -/
lemma fromBytes_take_append {source : Bytes} (h : 64 ≤ source.length) (rest : Bytes) :
    fromBytes (source.take 64 ++ rest) = fromBytes source := by
  have hlength : (source.take 64).length = 64 := List.length_take_of_le h
  have hlong : 64 ≤ (source.take 64 ++ rest).length := by
    rw [List.length_append, hlength]
    exact Nat.le_add_right _ _
  obtain ⟨d, hd⟩ := exists_fromBytes h
  obtain ⟨d', hd'⟩ := exists_fromBytes hlong
  have heq : d' = d := by
    apply toBytes_injective
    calc d'.toBytes = (source.take 64 ++ rest).take 64 := toBytes_of_fromBytes hd'
      _ = source.take 64 := List.take_left' hlength
      _ = d.toBytes := (toBytes_of_fromBytes hd).symm
  rw [hd', hd, heq]

/-- **The codec of descriptors.**  A descriptor is read from its bytes, which hold its fields at the
places of the C layout, and any 64 bytes are the bytes of the descriptor that is read from them,
whatever follows. -/
theorem codec :
    (∀ d : TensorBlockDescriptor, fromBytes d.toBytes = .ok d ∧ d.toBytes.length = 64 ∧
      (layout cFields).map (·.items d.toBytes) = d.members) ∧
      IsLayout cFields (layout cFields) 64 ∧
      ∀ source : Bytes, 64 ≤ source.length → ∃ d, fromBytes source = .ok d ∧
        d.toBytes = source.take 64 ∧ ∀ rest, fromBytes (source.take 64 ++ rest) = .ok d := by
  refine ⟨?_, ?_, ?_⟩
  · intro d
    exact ⟨d.fromBytes_toBytes, d.length_toBytes, d.map_items_toBytes⟩
  · have hlayout := isLayout_layout cFields
    rwa [structSize_cFields] at hlayout
  · intro source h
    obtain ⟨d, hd⟩ := exists_fromBytes h
    refine ⟨d, hd, toBytes_of_fromBytes hd, ?_⟩
    intro rest
    rw [fromBytes_take_append h, hd]

/-- A buffer of 70 bytes. -/
theorem codec_seventy :
    ∃ d, fromBytes (List.replicate 70 7) = .ok d ∧
      d.toBytes = (List.replicate 70 7 : Bytes).take 64 ∧
      ∀ rest, fromBytes ((List.replicate 70 7).take 64 ++ rest) = .ok d :=
  codec.2.2 (List.replicate 70 7) (by decide)

end TensorBlockDescriptor

end KacheDB
