import KacheDB.Foundation.Bytes
import KacheDB.Foundation.Rounding

/-!
# Scalar quantization

`sq8_encode` takes each number of a vector to a byte, its place in 255 steps between the smallest
and the largest one; `sq8_decode` takes a byte back to its step.  The numbers are rational here.

A vector whose numbers are nearer to each other than `1e-12` is taken for a constant one.
`sq8RoundTrip_spec` says how far the decoded numbers are from those that were encoded, and
`sq8RoundTrip_idempotent` that encoding them again changes nothing.
-/

namespace KacheDB

open Foundation

/-- `diff == 0.0 or abs(diff) < 1e-12` -/
def IsConstant (diff : ℚ) : Prop :=
  diff = 0 ∨ |diff| < 1 / 10 ^ 12

instance (diff : ℚ) : Decidable (IsConstant diff) :=
  inferInstanceAs (Decidable (_ ∨ _))

/-- `round((val - min_val) * scale)` -/
def sq8Round (minVal scale val : ℚ) : ℤ :=
  roundHalfEven ((val - minVal) * scale)

/-- `max(0, min(255, q))` -/
def sq8Clamp (q : ℤ) : ℤ :=
  max 0 (min 255 q)

/-- Quantize a vector into 8-bit unsigned integers, with the smallest and the largest number. -/
def sq8Encode (vector : List ℚ) : Bytes × ℚ × ℚ :=
  match vector.min?, vector.max? with
  | some minVal, some maxVal =>
    if IsConstant (maxVal - minVal) then (List.replicate vector.length 128, minVal, maxVal)
    else
      (vector.map fun val =>
        UInt8.ofNat (sq8Clamp (sq8Round minVal (255 / (maxVal - minVal)) val)).toNat,
        minVal, maxVal)
  | _, _ => ([], 0, 0)

/-- Dequantize bytes back to numbers. -/
def sq8Decode (quantized : Bytes) (minVal maxVal : ℚ) : List ℚ :=
  if quantized = [] then []
  else if IsConstant (maxVal - minVal) then List.replicate quantized.length minVal
  else quantized.map fun byte => minVal + byte.toNat * ((maxVal - minVal) / 255)

/-- What a vector is decoded to after it has been encoded. -/
def sq8RoundTrip (vector : List ℚ) : List ℚ :=
  sq8Decode (sq8Encode vector).1 (sq8Encode vector).2.1 (sq8Encode vector).2.2

/-- The decoded vector has the length of the vector between `lo` and `hi`, is near to it and in the
same order, and the clamp is idle where the range is not taken for a constant. -/
structure NearAndOrdered (vector : List ℚ) (lo hi : ℚ) (decoded : List ℚ) : Prop where
  length_eq : decoded.length = vector.length
  near : 1 / 10 ^ 12 ≤ hi - lo → ∀ (i : ℕ) (x y : ℚ), vector[i]? = some x →
    decoded[i]? = some y → |y - x| ≤ (hi - lo) / 510
  near_of_constant : hi - lo < 1 / 10 ^ 12 → ∀ (i : ℕ) (x y : ℚ), vector[i]? = some x →
    decoded[i]? = some y → |y - x| < 1 / 10 ^ 12
  ordered : ∀ (i j : ℕ) (x x' y y' : ℚ), vector[i]? = some x → vector[j]? = some x' →
    decoded[i]? = some y → decoded[j]? = some y' → x ≤ x' → y ≤ y'
  clamp_eq : 1 / 10 ^ 12 ≤ hi - lo → ∀ x ∈ vector,
    sq8Clamp (sq8Round lo (255 / (hi - lo)) x) = sq8Round lo (255 / (hi - lo)) x

/-- The smallest and the largest number of a vector. -/
structure Extremes (vector : List ℚ) (lo hi : ℚ) : Prop where
  lo_mem : lo ∈ vector
  hi_mem : hi ∈ vector
  lo_le : ∀ x ∈ vector, lo ≤ x
  le_hi : ∀ x ∈ vector, x ≤ hi

/-! ## Steps -/

section Steps

variable {lo hi x y : ℚ}

/-- The byte of a number. -/
def sq8Step (lo hi x : ℚ) : UInt8 :=
  UInt8.ofNat (sq8Clamp (sq8Round lo (255 / (hi - lo)) x)).toNat

/-- The number of a byte. -/
def sq8Level (lo hi : ℚ) (byte : UInt8) : ℚ :=
  lo + byte.toNat * ((hi - lo) / 255)

/-- Numbers that are not taken for a constant are apart. -/
lemma sub_pos_of_not_isConstant (h : ¬ IsConstant (hi - lo)) (hle : lo ≤ hi) : 0 < hi - lo := by
  apply lt_of_le_of_ne (sub_nonneg.mpr hle)
  intro heq
  exact h (.inl heq.symm)

lemma isConstant_iff (hle : lo ≤ hi) : IsConstant (hi - lo) ↔ hi - lo < 1 / 10 ^ 12 := by
  rw [IsConstant, abs_of_nonneg (sub_nonneg.mpr hle)]
  constructor
  · rintro (heq | hlt)
    · rw [heq]
      norm_num
    · exact hlt
  · exact .inr

/-- The rounded number of steps is in the range of a byte. -/
lemma sq8Round_mem (hpos : 0 < hi - lo) (hlo : lo ≤ x) (hhi : x ≤ hi) :
    sq8Round lo (255 / (hi - lo)) x ∈ Set.Icc 0 255 := by
  apply roundHalfEven_mem_Icc
  · push_cast
    exact mul_nonneg (sub_nonneg.mpr hlo) (by positivity)
  · push_cast
    rw [mul_div_assoc', div_le_iff₀ hpos]
    nlinarith

/-- The clamp changes no number of this range. -/
lemma sq8Clamp_of_mem {q : ℤ} (h : q ∈ Set.Icc 0 255) : sq8Clamp q = q := by
  rw [sq8Clamp, min_eq_right h.2, max_eq_right h.1]

/-- The byte is the rounded number of steps. -/
lemma toNat_sq8Step (hpos : 0 < hi - lo) (hlo : lo ≤ x) (hhi : x ≤ hi) :
    ((sq8Step lo hi x).toNat : ℤ) = sq8Round lo (255 / (hi - lo)) x := by
  have hmem := sq8Round_mem hpos hlo hhi
  have hge := hmem.1
  have hle := hmem.2
  rw [sq8Step, sq8Clamp_of_mem hmem, UInt8.toNat_ofNat']
  omega

/-- The distance of a number to its step. -/
lemma abs_sq8Level_sq8Step_sub_le (hpos : 0 < hi - lo) (hlo : lo ≤ x) (hhi : x ≤ hi) :
    |sq8Level lo hi (sq8Step lo hi x) - x| ≤ (hi - lo) / 510 := by
  have hround := abs_roundHalfEven_sub_le ((x - lo) * (255 / (hi - lo)))
  have hbyte : ((sq8Step lo hi x).toNat : ℚ) = roundHalfEven ((x - lo) * (255 / (hi - lo))) := by
    exact_mod_cast toNat_sq8Step hpos hlo hhi
  have hsteps : sq8Level lo hi (sq8Step lo hi x) - x =
      (roundHalfEven ((x - lo) * (255 / (hi - lo))) - (x - lo) * (255 / (hi - lo))) *
        ((hi - lo) / 255) := by
    rw [sq8Level, hbyte]
    field_simp
    ring
  calc |sq8Level lo hi (sq8Step lo hi x) - x|
      = |roundHalfEven ((x - lo) * (255 / (hi - lo))) - (x - lo) * (255 / (hi - lo))| *
          ((hi - lo) / 255) := by rw [hsteps, abs_mul, abs_of_pos (div_pos hpos (by norm_num))]
    _ ≤ 1 / 2 * ((hi - lo) / 255) := by gcongr
    _ = (hi - lo) / 510 := by ring

/-- A larger number has no smaller step. -/
lemma sq8Level_sq8Step_mono (hpos : 0 < hi - lo) (hlo : lo ≤ x) (hxy : x ≤ y) (hhi : y ≤ hi) :
    sq8Level lo hi (sq8Step lo hi x) ≤ sq8Level lo hi (sq8Step lo hi y) := by
  have hscale : 0 ≤ 255 / (hi - lo) := by positivity
  have hsteps : sq8Round lo (255 / (hi - lo)) x ≤ sq8Round lo (255 / (hi - lo)) y :=
    roundHalfEven_mono (mul_le_mul_of_nonneg_right (sub_le_sub_right hxy lo) hscale)
  rw [← toNat_sq8Step hpos hlo (hxy.trans hhi), ← toNat_sq8Step hpos (hlo.trans hxy) hhi] at hsteps
  have hbytes : ((sq8Step lo hi x).toNat : ℚ) ≤ (sq8Step lo hi y).toNat := by exact_mod_cast hsteps
  rw [sq8Level, sq8Level]
  gcongr

/-- The step of a step is itself. -/
lemma sq8Step_sq8Level (hpos : 0 < hi - lo) (byte : UInt8) :
    sq8Step lo hi (sq8Level lo hi byte) = byte := by
  have hsteps : (sq8Level lo hi byte - lo) * (255 / (hi - lo)) = ((byte.toNat : ℤ) : ℚ) := by
    rw [sq8Level]
    push_cast
    field_simp
    ring
  have hlt := byte.toNat_lt
  rw [sq8Step, sq8Round, hsteps, roundHalfEven_intCast, sq8Clamp_of_mem ⟨by omega, by omega⟩]
  simp

/-- The smallest number is the lowest step. -/
lemma sq8Level_sq8Step_lo (hpos : 0 < hi - lo) : sq8Level lo hi (sq8Step lo hi lo) = lo := by
  have hsteps : ((sq8Step lo hi lo).toNat : ℤ) = 0 := by
    rw [toNat_sq8Step hpos le_rfl (sub_pos.mp hpos).le, sq8Round, sub_self, zero_mul]
    exact_mod_cast roundHalfEven_intCast (α := ℚ) 0
  have hbyte : (sq8Step lo hi lo).toNat = 0 := by exact_mod_cast hsteps
  rw [sq8Level, hbyte, Nat.cast_zero, zero_mul, add_zero]

/-- The largest number is the highest step. -/
lemma sq8Level_sq8Step_hi (hpos : 0 < hi - lo) : sq8Level lo hi (sq8Step lo hi hi) = hi := by
  have hsteps : ((sq8Step lo hi hi).toNat : ℤ) = 255 := by
    rw [toNat_sq8Step hpos (sub_pos.mp hpos).le le_rfl, sq8Round, mul_div_cancel₀ _ hpos.ne']
    exact_mod_cast roundHalfEven_intCast (α := ℚ) 255
  have hbyte : (sq8Step lo hi hi).toNat = 255 := by exact_mod_cast hsteps
  rw [sq8Level, hbyte]
  push_cast
  ring

end Steps

/-! ## Vectors -/

section Vectors

variable {vector : List ℚ} {lo hi : ℚ}

/-- A vector that is not empty has a smallest and a largest number. -/
lemma exists_extremes (hne : vector ≠ []) : ∃ lo hi, Extremes vector lo hi := by
  obtain ⟨lo, hlo⟩ := Option.isSome_iff_exists.mp (List.isSome_min?_of_ne_nil hne)
  obtain ⟨hi, hhi⟩ := Option.isSome_iff_exists.mp (List.isSome_max?_of_ne_nil hne)
  obtain ⟨hlo_mem, hlo_le⟩ := List.min?_eq_some_iff.mp hlo
  obtain ⟨hhi_mem, hle_hi⟩ := List.max?_eq_some_iff.mp hhi
  exact ⟨lo, hi, hlo_mem, hhi_mem, hlo_le, hle_hi⟩

namespace Extremes

variable (h : Extremes vector lo hi)

include h

lemma min?_eq : vector.min? = some lo :=
  List.min?_eq_some_iff.mpr ⟨h.lo_mem, h.lo_le⟩

lemma max?_eq : vector.max? = some hi :=
  List.max?_eq_some_iff.mpr ⟨h.hi_mem, h.le_hi⟩

lemma le : lo ≤ hi :=
  h.lo_le hi h.hi_mem

lemma ne_nil : vector ≠ [] :=
  List.ne_nil_of_mem h.lo_mem

/-- The smallest and the largest number are kept. -/
lemma encode_snd : (sq8Encode vector).2 = (lo, hi) := by
  rw [sq8Encode, h.min?_eq, h.max?_eq]
  dsimp only
  split_ifs <;> rfl

lemma encode_of_isConstant (hconst : IsConstant (hi - lo)) :
    (sq8Encode vector).1 = List.replicate vector.length 128 := by
  rw [sq8Encode, h.min?_eq, h.max?_eq]
  simp only [if_pos hconst]

lemma encode_of_not_isConstant (hconst : ¬ IsConstant (hi - lo)) :
    (sq8Encode vector).1 = vector.map (sq8Step lo hi) := by
  rw [sq8Encode, h.min?_eq, h.max?_eq]
  simp only [if_neg hconst]
  rfl

/-- A constant vector comes back as its smallest number. -/
lemma roundTrip_of_isConstant (hconst : IsConstant (hi - lo)) :
    sq8RoundTrip vector = List.replicate vector.length lo := by
  have hne : List.replicate vector.length (128 : UInt8) ≠ [] := by
    simpa using h.ne_nil
  rw [sq8RoundTrip, h.encode_of_isConstant hconst, h.encode_snd, sq8Decode, if_neg hne,
    if_pos hconst, List.length_replicate]

/-- Each number of another vector comes back as its step. -/
lemma roundTrip_of_not_isConstant (hconst : ¬ IsConstant (hi - lo)) :
    sq8RoundTrip vector = vector.map fun x => sq8Level lo hi (sq8Step lo hi x) := by
  have hne : vector.map (sq8Step lo hi) ≠ [] := by
    simpa using h.ne_nil
  rw [sq8RoundTrip, h.encode_of_not_isConstant hconst, h.encode_snd, sq8Decode, if_neg hne,
    if_neg hconst, List.map_map]
  rfl

/-- The extremes of what comes back are the same. -/
lemma roundTrip (hconst : ¬ IsConstant (hi - lo)) : Extremes (sq8RoundTrip vector) lo hi := by
  have hpos := sub_pos_of_not_isConstant hconst h.le
  rw [h.roundTrip_of_not_isConstant hconst]
  refine ⟨?_, ?_, ?_, ?_⟩
  · exact List.mem_map.mpr ⟨lo, h.lo_mem, sq8Level_sq8Step_lo hpos⟩
  · exact List.mem_map.mpr ⟨hi, h.hi_mem, sq8Level_sq8Step_hi hpos⟩
  · intro y hy
    obtain ⟨x, hx, rfl⟩ := List.mem_map.mp hy
    have hmono := sq8Level_sq8Step_mono hpos le_rfl (h.lo_le x hx) (h.le_hi x hx)
    rwa [sq8Level_sq8Step_lo hpos] at hmono
  · intro y hy
    obtain ⟨x, hx, rfl⟩ := List.mem_map.mp hy
    have hmono := sq8Level_sq8Step_mono hpos (h.lo_le x hx) (h.le_hi x hx) le_rfl
    rwa [sq8Level_sq8Step_hi hpos] at hmono

/-- What comes back for a number of a constant vector. -/
lemma eq_of_isConstant (hconst : IsConstant (hi - lo)) {i : ℕ} {y : ℚ}
    (hy : (sq8RoundTrip vector)[i]? = some y) : y = lo := by
  rw [h.roundTrip_of_isConstant hconst] at hy
  exact List.eq_of_mem_replicate (List.mem_of_getElem? hy)

/-- What comes back for a number of another vector. -/
lemma eq_of_not_isConstant (hconst : ¬ IsConstant (hi - lo)) {i : ℕ} {x y : ℚ}
    (hx : vector[i]? = some x) (hy : (sq8RoundTrip vector)[i]? = some y) :
    y = sq8Level lo hi (sq8Step lo hi x) := by
  rw [h.roundTrip_of_not_isConstant hconst, List.getElem?_map, hx] at hy
  exact (Option.some.inj hy).symm

/-- What comes back is near. -/
lemma abs_sub {i : ℕ} {x y : ℚ} (hx : vector[i]? = some x)
    (hy : (sq8RoundTrip vector)[i]? = some y) :
    (1 / 10 ^ 12 ≤ hi - lo → |y - x| ≤ (hi - lo) / 510) ∧
      (hi - lo < 1 / 10 ^ 12 → |y - x| < 1 / 10 ^ 12) := by
  have hlo := h.lo_le x (List.mem_of_getElem? hx)
  have hhi := h.le_hi x (List.mem_of_getElem? hx)
  constructor
  · intro hrange
    have hconst : ¬ IsConstant (hi - lo) := fun hc => ((isConstant_iff h.le).mp hc).not_ge hrange
    rw [h.eq_of_not_isConstant hconst hx hy]
    exact abs_sq8Level_sq8Step_sub_le (sub_pos_of_not_isConstant hconst h.le) hlo hhi
  · intro hrange
    rw [h.eq_of_isConstant ((isConstant_iff h.le).mpr hrange) hy, abs_sub_comm,
      abs_of_nonneg (sub_nonneg.mpr hlo)]
    exact (sub_le_sub_right hhi lo).trans_lt hrange

/-- What comes back is in the same order. -/
lemma mono {i j : ℕ} {x x' y y' : ℚ} (hx : vector[i]? = some x) (hx' : vector[j]? = some x')
    (hy : (sq8RoundTrip vector)[i]? = some y) (hy' : (sq8RoundTrip vector)[j]? = some y')
    (hle : x ≤ x') : y ≤ y' := by
  by_cases hconst : IsConstant (hi - lo)
  · rw [h.eq_of_isConstant hconst hy, h.eq_of_isConstant hconst hy']
  · rw [h.eq_of_not_isConstant hconst hx hy, h.eq_of_not_isConstant hconst hx' hy']
    exact sq8Level_sq8Step_mono (sub_pos_of_not_isConstant hconst h.le)
      (h.lo_le x (List.mem_of_getElem? hx)) hle (h.le_hi x' (List.mem_of_getElem? hx'))

end Extremes

lemma length_sq8RoundTrip (vector : List ℚ) :
    (sq8RoundTrip vector).length = vector.length := by
  rcases eq_or_ne vector [] with rfl | hne
  · rfl
  · obtain ⟨lo, hi, h⟩ := exists_extremes hne
    by_cases hconst : IsConstant (hi - lo)
    · rw [h.roundTrip_of_isConstant hconst, List.length_replicate]
    · rw [h.roundTrip_of_not_isConstant hconst, List.length_map]

end Vectors

/-- **Error and order** of what comes back. -/
theorem sq8RoundTrip_spec (v : List ℚ) :
    NearAndOrdered v (sq8Encode v).2.1 (sq8Encode v).2.2
      (sq8Decode (sq8Encode v).1 (sq8Encode v).2.1 (sq8Encode v).2.2) := by
  rw [← sq8RoundTrip]
  rcases eq_or_ne v [] with rfl | hne
  · exact ⟨rfl, nofun, nofun, nofun, nofun⟩
  · obtain ⟨lo, hi, h⟩ := exists_extremes hne
    rw [h.encode_snd]
    refine ⟨length_sq8RoundTrip v, ?_, ?_, ?_, ?_⟩
    · intro hrange i x y hx hy
      exact (h.abs_sub hx hy).1 hrange
    · intro hrange i x y hx hy
      exact (h.abs_sub hx hy).2 hrange
    · intro i j x x' y y'
      exact h.mono
    · intro hrange x hx
      have hpos : 0 < hi - lo := lt_of_lt_of_le (by norm_num) hrange
      exact sq8Clamp_of_mem (sq8Round_mem hpos (h.lo_le x hx) (h.le_hi x hx))

/-- **Encoding again what comes back changes nothing.** -/
theorem sq8RoundTrip_idempotent (v : List ℚ) :
    (sq8Encode (sq8RoundTrip v)).1 = (sq8Encode v).1 ∧
      sq8RoundTrip (sq8RoundTrip v) = sq8RoundTrip v := by
  rcases eq_or_ne v [] with rfl | hne
  · exact ⟨rfl, rfl⟩
  · obtain ⟨lo, hi, h⟩ := exists_extremes hne
    by_cases hconst : IsConstant (hi - lo)
    · -- a vector of one number
      have hback := h.roundTrip_of_isConstant hconst
      have hsame : Extremes (sq8RoundTrip v) lo lo := by
        have hmem {x : ℚ} (hx : x ∈ sq8RoundTrip v) : x = lo := by
          rw [hback] at hx
          exact List.eq_of_mem_replicate hx
        have hlo : lo ∈ sq8RoundTrip v := by
          rw [hback]
          exact List.mem_replicate.mpr ⟨by simpa using hne, rfl⟩
        exact ⟨hlo, hlo, fun x hx => (hmem hx).ge, fun x hx => (hmem hx).le⟩
      have hzero : IsConstant (lo - lo) := .inl (sub_self lo)
      rw [hsame.encode_of_isConstant hzero, hsame.roundTrip_of_isConstant hzero,
        h.encode_of_isConstant hconst, length_sq8RoundTrip, hback]
      exact ⟨rfl, rfl⟩
    · have hpos := sub_pos_of_not_isConstant hconst h.le
      have hback := h.roundTrip hconst
      rw [hback.encode_of_not_isConstant hconst, hback.roundTrip_of_not_isConstant hconst,
        h.encode_of_not_isConstant hconst, h.roundTrip_of_not_isConstant hconst, List.map_map,
        List.map_map]
      -- the step of a step is itself
      constructor
      · apply List.map_congr_left
        intro x _
        exact sq8Step_sq8Level hpos _
      · apply List.map_congr_left
        intro x _
        rw [Function.comp_apply, sq8Step_sq8Level hpos]

end KacheDB
