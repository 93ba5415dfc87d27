import KacheDB.Foundation.BitSets
import KacheDB.Semantic.Filters

/-!
# Masks as sets of bits

`bits_tagsToBitmask` says which bits the mask of a collection of tags has: the lowest 64 bits of
the base mask and the places of the tags that are not blank, each in the form in which it is hashed.
So a mask depends on the set of these forms alone, and a filter whose tags are among those of an
entry does not lose the entry: the test `m & f = f` of the server has no false negatives.
-/

namespace KacheDB

open Foundation

/-- The form in which a tag is hashed. -/
def cleanTag (enc : TagEncoding) (tag : String) : String :=
  enc.lower (strip tag)

/-- A tag that is skipped. -/
def IsBlankTag (tag : String) : Prop :=
  strip tag = ""

/-- The place of a tag in this form. -/
def cleanTagToBit (enc : TagEncoding) (clean : String) : ℕ :=
  ofLittleEndian ((enc.sha256 (encodeUtf8 clean)).take 8) % 64

/-- The forms of the tags that are not blank. -/
def cleanTags (enc : TagEncoding) (tags : List String) : Set String :=
  {clean | ∃ t ∈ tags, ¬ IsBlankTag t ∧ cleanTag enc t = clean}

section TagMasks

variable {enc : TagEncoding} {T U : List String} {b c : ℤ}

lemma tagToBit_eq (enc : TagEncoding) (t : String) :
    tagToBit enc t = cleanTagToBit enc (cleanTag enc t) := rfl

lemma cleanTagToBit_lt (enc : TagEncoding) (clean : String) : cleanTagToBit enc clean < 64 :=
  Nat.mod_lt _ (by norm_num)

/-- The check of `tags_to_bitmask`. -/
lemma ne_empty_and_strip_ne_iff {t : String} : t ≠ "" ∧ strip t ≠ "" ↔ ¬ IsBlankTag t := by
  refine and_iff_right_of_imp fun h ht => h ?_
  rw [ht]
  rfl

lemma cleanTags_append (enc : TagEncoding) (T U : List String) :
    cleanTags enc (T ++ U) = cleanTags enc T ∪ cleanTags enc U := by
  ext clean
  simp only [cleanTags, List.mem_append, Set.mem_ofPred_eq, Set.mem_union, or_and_right,
    exists_or]

/-- If only blank tags have the form of a blank tag, the forms of these tags are among those. -/
lemma cleanTags_subset (hlower : ∀ s, s ≠ "" → enc.lower s ≠ "") (hempty : enc.lower "" = "")
    (h : ∀ u ∈ U, ¬ IsBlankTag u → ∃ t ∈ T, cleanTag enc t = cleanTag enc u) :
    cleanTags enc U ⊆ cleanTags enc T := by
  rintro _ ⟨u, hu, hblank, rfl⟩
  obtain ⟨t, ht, hclean⟩ := h u hu hblank
  refine ⟨t, ht, fun ht => hlower _ hblank ?_, hclean⟩
  calc enc.lower (strip u) = enc.lower (strip t) := hclean.symm
    _ = enc.lower "" := congrArg enc.lower ht
    _ = "" := hempty

/-- **The bits of a mask.** -/
theorem bits_tagsToBitmask (enc : TagEncoding) (tags : Option (List String)) (b : ℤ) :
    bits (tagsToBitmask enc tags b) =
      intBits b ∩ Set.Iio 64 ∪ cleanTagToBit enc '' cleanTags enc (tags.getD []) := by
  ext i
  have hplaces : (∃ t ∈ tags.getD [], (t ≠ "" ∧ strip t ≠ "") ∧ tagToBit enc t = i) ↔
      i ∈ cleanTagToBit enc '' cleanTags enc (tags.getD []) := by
    constructor
    · rintro ⟨t, ht, hnot, rfl⟩
      exact ⟨cleanTag enc t, ⟨t, ht, ne_empty_and_strip_ne_iff.mp hnot, rfl⟩,
        (tagToBit_eq enc t).symm⟩
    · rintro ⟨_, ⟨t, ht, hblank, rfl⟩, rfl⟩
      exact ⟨t, ht, ne_empty_and_strip_ne_iff.mpr hblank, tagToBit_eq enc t⟩
  rw [tagsToBitmask, bits_mod_two_pow, Set.mem_inter_iff, mem_bits_foldl,
    bits_toNat_emod_two_pow, hplaces, ← Set.mem_union, ← Set.mem_inter_iff,
    Set.inter_eq_left.mpr]
  rintro j (hj | ⟨clean, -, rfl⟩)
  · exact hj.2
  · exact cleanTagToBit_lt enc clean

lemma tagsToBitmask_lt (enc : TagEncoding) (tags : Option (List String)) (b : ℤ) :
    tagsToBitmask enc tags b < 2 ^ 64 :=
  Nat.mod_lt _ (by norm_num)

/-- A mask with more forms and a larger base mask has more bits. -/
lemma bits_tagsToBitmask_subset {tags tags' : Option (List String)}
    (htags : cleanTags enc (tags'.getD []) ⊆ cleanTags enc (tags.getD []))
    (hmask : ∀ i < 64, c.testBit i = true → b.testBit i = true) :
    bits (tagsToBitmask enc tags' c) ⊆ bits (tagsToBitmask enc tags b) := by
  rw [bits_tagsToBitmask, bits_tagsToBitmask]
  apply Set.union_subset_union _ (Set.image_mono htags)
  rintro i ⟨hi, hlt⟩
  exact ⟨hmask i hlt hi, hlt⟩

/-- A mask depends on the forms of its tags only. -/
lemma tagsToBitmask_congr (h : cleanTags enc T = cleanTags enc U) (b : ℤ) :
    tagsToBitmask enc (some T) b = tagsToBitmask enc (some U) b := by
  apply bits_injective
  rw [bits_tagsToBitmask, bits_tagsToBitmask, Option.getD_some, Option.getD_some, h]

/-- Tags can be encoded one part after the other. -/
lemma tagsToBitmask_append (enc : TagEncoding) (T U : List String) (b : ℤ) :
    tagsToBitmask enc (some (T ++ U)) b =
      tagsToBitmask enc (some T) (tagsToBitmask enc (some U) b) := by
  apply bits_injective
  rw [bits_tagsToBitmask, bits_tagsToBitmask, intBits_natCast,
    Set.inter_eq_left.mpr (bits_subset_Iio_iff.mpr (tagsToBitmask_lt enc (some U) b)),
    bits_tagsToBitmask, Option.getD_some, Option.getD_some, Option.getD_some, cleanTags_append,
    Set.image_union, Set.union_comm (_ '' cleanTags enc T), Set.union_assoc]

/-- **The masks of tags have no false negatives**, and they depend on the forms of the tags only. -/
theorem tagsToBitmask_noFalseNegatives (enc : TagEncoding)
    (hlower : ∀ s, s ≠ "" → enc.lower s ≠ "") (hempty : enc.lower "" = "") :
    (∀ (T F : List String) (b c : ℤ),
      (∀ u ∈ F, ¬ IsBlankTag u → ∃ t ∈ T, cleanTag enc t = cleanTag enc u) →
      (∀ i < 64, c.testBit i = true → b.testBit i = true) →
      tagsToBitmask enc (some T) b < 2 ^ 64 ∧ tagsToBitmask enc (some F) c < 2 ^ 64 ∧
        tagsToBitmask enc (some T) b &&& tagsToBitmask enc (some F) c =
          tagsToBitmask enc (some F) c) ∧
      (∀ (T T' : List String) (b : ℤ), cleanTags enc T = cleanTags enc T' →
        tagsToBitmask enc (some T) b = tagsToBitmask enc (some T') b) ∧
      ∀ (T U : List String) (b : ℤ), tagsToBitmask enc (some (T ++ U)) b =
        tagsToBitmask enc (some T) (tagsToBitmask enc (some U) b) := by
  refine ⟨?_, fun T T' b h => tagsToBitmask_congr h b, tagsToBitmask_append enc⟩
  intro T F b c htags hmask
  refine ⟨tagsToBitmask_lt enc _ _, tagsToBitmask_lt enc _ _, ?_⟩
  apply and_eq_right_iff.mpr
  exact bits_tagsToBitmask_subset (cleanTags_subset hlower hempty htags) hmask

/-- The lower case of a text of ASCII characters, and the digest of `a`. -/
def asciiEncoding : TagEncoding where
  sha256 bytes :=
    if bytes = encodeUtf8 "a" then
      [0xca, 0x97, 0x81, 0x12, 0xca, 0x1b, 0xbd, 0xca, 0xfa, 0xc2, 0x31, 0xb3, 0x9a, 0x23, 0xdc,
        0x4d, 0xa7, 0x86, 0xef, 0xf8, 0x14, 0x7c, 0x4e, 0x72, 0xb9, 0x80, 0x77, 0x85, 0xaf, 0xee,
        0x48, 0xbb]
    else List.replicate 32 0
  lower s := .ofList (s.toList.map Char.toLower)

lemma asciiEncoding_lower_eq_iff (s : String) : asciiEncoding.lower s = "" ↔ s = "" := by
  rw [asciiEncoding, ← String.toList_inj, ← String.toList_inj, String.toList_ofList]
  exact List.map_eq_nil_iff

/-- An entry with the tag `A` and all bits, and a filter with the tag `a` and a blank one. -/
theorem tagsToBitmask_noFalseNegatives_ascii :
    tagsToBitmask asciiEncoding (some [.ofList ['A']]) (-1) < 2 ^ 64 ∧
      tagsToBitmask asciiEncoding (some [.ofList [' ', 'a'], .ofList [' ']]) 5 < 2 ^ 64 ∧
      tagsToBitmask asciiEncoding (some [.ofList ['A']]) (-1) &&&
          tagsToBitmask asciiEncoding (some [.ofList [' ', 'a'], .ofList [' ']]) 5 =
        tagsToBitmask asciiEncoding (some [.ofList [' ', 'a'], .ofList [' ']]) 5 := by
  have hspec := tagsToBitmask_noFalseNegatives asciiEncoding
    (fun s hs => (asciiEncoding_lower_eq_iff s).not.mpr hs)
    ((asciiEncoding_lower_eq_iff "").mpr rfl)
  apply hspec.1
  · intro u hu hblank
    refine ⟨_, List.mem_singleton_self _, ?_⟩
    rcases List.mem_pair.mp hu with rfl | rfl
    · simp only [cleanTag, asciiEncoding, strip, String.toList_ofList]
      rfl
    · exact absurd (by rw [IsBlankTag, strip, String.toList_ofList]; rfl) hblank
  · intro i _ _
    have hzero : (-1 : ℤ).testBit i = !Nat.testBit 0 i := rfl
    rw [hzero, Nat.zero_testBit, Bool.not_false]

/-- **A filter does not lose an entry** that has its tags and the bits of its mask.  Masks that are
not positive are not sent. -/
theorem storedMask_and_sentFilter {F : Type} {backend : Backend F}
    (hlower : ∀ s, s ≠ "" → backend.tagEncoding.lower s ≠ "")
    (hempty : backend.tagEncoding.lower "" = "") {r : SetArgs} {q : GetArgs F}
    (htags : ∀ u ∈ q.filterTags.getD [], ¬ IsBlankTag u →
      ∃ t ∈ r.tags.getD [], cleanTag backend.tagEncoding t = cleanTag backend.tagEncoding u)
    (hmask : 0 < q.filterMask →
      0 < r.tagMask ∧ ∀ i < 64, q.filterMask.testBit i = true → r.tagMask.testBit i = true) :
    backend.storedMask r &&& backend.sentFilter q = backend.sentFilter q := by
  apply and_eq_right_iff.mpr
  apply bits_tagsToBitmask_subset (cleanTags_subset hlower hempty htags)
  intro i hi hbit
  by_cases hpos : 0 < q.filterMask
  · obtain ⟨hstored, hsubset⟩ := hmask hpos
    rw [positiveMask, if_pos hpos] at hbit
    rw [positiveMask, if_pos hstored]
    exact hsubset i hi hbit
  · rw [positiveMask, if_neg hpos] at hbit
    have hzero : (0 : ℤ).testBit i = Nat.testBit 0 i := rfl
    rw [Option.getD_none, hzero, Nat.zero_testBit] at hbit
    cases hbit

end TagMasks

end KacheDB
