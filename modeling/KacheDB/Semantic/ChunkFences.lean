import KacheDB.Semantic.ChunkRuns

/-!
# The fences of a chunk

A flush outside code blocks ends a chunk behind a closed block, but the lines that it carries over
may begin inside of the block that has just been closed.  The content of a chunk is stripped, too:
a fence with white space in front of it is none for the loop, and becomes one if it is the first
line of a chunk.  `wellFenced_iff` says that these are the only ways to a chunk with an odd number
of fences.
-/

namespace KacheDB

open Foundation

/-! ## Fences of stripped lines -/

section Fences

variable {lines : List (List Char)}

/-- White space behind a line does not matter for a fence. -/
lemma isCodeFence_rdropWhile (line : List Char) :
    isCodeFence (line.rdropWhile isWhitespace) = isCodeFence line := by
  rw [Bool.eq_iff_iff]
  constructor
  · intro h
    rw [isCodeFence, List.isPrefixOf_iff_prefix] at h ⊢
    exact h.trans (List.rdropWhile_prefix _ _)
  · intro h
    obtain ⟨cs, rfl⟩ := exists_of_isCodeFence h
    rw [isCodeFence, List.isPrefixOf_iff_prefix]
    by_cases hcs : cs.all isWhitespace = true
    · rw [rdropWhile_append_of_all hcs]
      exact List.prefix_rfl
    · rw [rdropWhile_append_of_not_all hcs]
      exact List.prefix_append _ _

/-- A fence has no white space in front. -/
lemma isCodeFence_dropWhile {line : List Char} (h : isCodeFence line = true) :
    isCodeFence (line.dropWhile isWhitespace) = true := by
  obtain ⟨cs, rfl⟩ := exists_of_isCodeFence h
  exact h

lemma isCodeFence_of_all {line : List Char} (h : line.all isWhitespace = true) :
    isCodeFence line = false := by
  by_contra hfence
  have hblank := isBlank_of_isCodeFence (eq_true_of_ne_false hfence)
  rw [isBlank, h] at hblank
  cases hblank

/-- The fences of lines that are joined and stripped. -/
lemma countP_splitLines_stripChars
    (hlines : ∀ line ∈ lines, ∀ c ∈ line, isLineBreak c = false) :
    (splitLines (stripChars (joinLines lines))).countP isCodeFence =
      lines.countP isCodeFence + if indentedHead isCodeFence lines then 1 else 0 := by
  rw [joinLines, splitLines_stripChars_intercalate hlines,
    countP_trimLinesRight (fun _ => isCodeFence_of_all) isCodeFence_rdropWhile,
    countP_trimLinesLeft (fun _ => isCodeFence_of_all) fun _ => isCodeFence_dropWhile]

/-- The fences in front of the end of a segment. -/
lemma countP_items (lines : List (List Char)) (g : Segment) (h : g.start ≤ g.stop) :
    fencesBefore lines g.stop =
      fencesBefore lines g.start + (g.items lines).countP isCodeFence := by
  have hfront : lines.take g.start = (lines.take g.stop).take g.start := by
    rw [List.take_take, min_eq_left h]
  rw [fencesBefore, fencesBefore, Segment.items, hfront, ← List.countP_append,
    List.take_append_drop]

end Fences

/-! ## Well-fenced chunks -/

/-- The number of fences of each chunk is even. -/
def WellFenced (chunks : List DocumentChunk) : Prop :=
  ∀ chunk ∈ chunks, Even ((splitLines chunk.content.toList).countP isCodeFence)

/-- The first of the flushed lines stands in a code block exactly if their first line that is not
blank becomes a fence without the white space in front of it. -/
def FlushPoint.Balanced (lines : List (List Char)) (p : FlushPoint) : Prop :=
  insideCodeBlock lines p.segment.start = indentedHead isCodeFence p.state.currentLines

instance (lines : List (List Char)) (p : FlushPoint) : Decidable (p.Balanced lines) :=
  inferInstanceAs (Decidable (_ = _))

section Balancing

variable {lines : List (List Char)} {p : FlushPoint}

/-- Outside code blocks the number of fences in front is even. -/
lemma even_fencesBefore_pos (hp : p.Of lines) (heven : Even (lines.countP isCodeFence)) :
    Even (fencesBefore lines p.pos) := by
  by_cases hkind : p.kind = .final
  · rw [hp.final hkind, fencesBefore, List.take_length]
    exact heven
  · have houtside := hp.outside hkind
    simp only [insideCodeBlock, beq_eq_false_iff_ne] at houtside
    rw [Nat.even_iff]
    omega

/-- The fences of the chunk that is made of the flushed lines. -/
lemma even_countP_chunk_iff (hp : p.Of lines)
    (hlines : ∀ line ∈ lines, ∀ c ∈ line, isLineBreak c = false)
    (heven : Even (lines.countP isCodeFence)) (parentKey : String) :
    Even ((splitLines (p.chunk parentKey).content.toList).countP isCodeFence) ↔
      p.Balanced lines := by
  have hcurrent : ∀ line ∈ p.state.currentLines, ∀ c ∈ line, isLineBreak c = false := by
    intro line hline
    rw [← hp.items_eq] at hline
    exact hlines line (List.mem_of_mem_take (List.mem_of_mem_drop hline))
  have hpos := even_fencesBefore_pos hp heven
  have hitems := countP_items lines p.segment (Nat.sub_le _ _)
  rw [hp.items_eq] at hitems
  rw [FlushPoint.chunk, String.toList_ofList, countP_splitLines_stripChars hcurrent,
    FlushPoint.Balanced, insideCodeBlock]
  rw [FlushPoint.segment] at hitems ⊢
  dsimp only at hitems ⊢
  rw [hitems, Nat.even_iff] at hpos
  rw [Nat.even_iff]
  rcases indentedHead isCodeFence p.state.currentLines with _ | _
  · rw [beq_eq_false_iff_ne]
    simp only [Bool.false_eq_true, if_false]
    omega
  · rw [beq_iff_eq]
    simp only [if_true]
    omega

end Balancing

namespace MarkdownChunker

variable (self : MarkdownChunker) (parentKey : String) {markdownText : String}

/-- The lines of a document have no line breaks. -/
lemma isLineBreak_of_mem_documentLines :
    ∀ line ∈ documentLines markdownText, ∀ c ∈ line, isLineBreak c = false :=
  fun _ hline _ hc => isLineBreak_of_mem_splitLines hline hc

/-- **Each chunk of a document has an even number of fences**, if the document has, exactly if
each of its flushes is balanced. -/
theorem wellFenced_iff (heven : Even ((documentLines markdownText).countP isCodeFence)) :
    WellFenced (self.chunkDocument parentKey markdownText) ↔
      ∀ p ∈ self.flushPoints parentKey markdownText, p.Balanced (documentLines markdownText) := by
  by_cases hlarge : self.IsLarge markdownText
  · rw [WellFenced, chunkDocument_eq self hlarge, List.forall_mem_map]
    apply forall₂_congr
    intro p hp
    exact even_countP_chunk_iff (of_mem_flushPoints self parentKey hp)
      isLineBreak_of_mem_documentLines heven parentKey
  · -- a small document is one chunk
    rw [flushPoints, if_neg hlarge]
    apply iff_of_true _ fun p hp => absurd hp List.not_mem_nil
    intro chunk hchunk
    rw [chunkDocument] at hchunk
    split_ifs at hchunk with hempty hsmall
    · cases hchunk
    · obtain rfl := List.mem_singleton.mp hchunk
      rw [String.toList_ofList]
      exact heven
    · exact absurd (not_le.mp hsmall) hlarge

/-- A document that begins with a code block. -/
def leadingBlock : List Char :=
  "```".toList ++ '\n' :: List.replicate 200 'x' ++ ['\n', 'y', '\n'] ++ "```".toList ++ ['\n', 'z']

lemma even_leadingBlock :
    Even ((documentLines (.ofList leadingBlock)).countP isCodeFence) := by
  rw [documentLines_ofList, Nat.even_iff]
  decide +kernel

theorem wellFenced_iff_leadingBlock :
    WellFenced ((new 50 10).chunkDocument "doc" (.ofList leadingBlock)) ↔
      ∀ p ∈ (new 50 10).flushPoints "doc" (.ofList leadingBlock),
        p.Balanced (documentLines (.ofList leadingBlock)) :=
  wellFenced_iff (new 50 10) "doc" even_leadingBlock

/-- The second chunk begins inside of the code block and has only its closing fence. -/
theorem not_wellFenced :
    Even ((documentLines (.ofList leadingBlock)).countP isCodeFence) ∧
      ¬ WellFenced ((new 50 10).chunkDocument "doc" (.ofList leadingBlock)) := by
  refine ⟨even_leadingBlock, ?_⟩
  intro hfenced
  have hlarge : (new 50 10).IsLarge (.ofList leadingBlock) :=
    (isLarge_ofList _ _).mpr (by decide +kernel)
  have hpoint : ((new 50 10).flushPoints "doc" (.ofList leadingBlock))[1]?.map
      (fun p => (splitLines (stripChars (joinLines p.state.currentLines))).countP isCodeFence) =
        some 1 := by
    rw [flushPoints_ofList _ _ hlarge]
    decide +kernel
  obtain ⟨p, hp, hcount⟩ := Option.map_eq_some_iff.mp hpoint
  have hchunk := (getElem?_of_flushPoint _ _ hlarge hp).1
  have heven := hfenced _ (List.mem_of_getElem? hchunk)
  rw [FlushPoint.chunk, String.toList_ofList, hcount] at heven
  exact Nat.not_even_one heven

end MarkdownChunker

end KacheDB
