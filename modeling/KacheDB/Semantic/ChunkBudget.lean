import KacheDB.Foundation.Budget
import KacheDB.Semantic.ChunkOverlap

/-!
# The size of the overlap

The overlap loop adds the estimates of single lines.  An estimate is rounded down, an empty line
counts nothing, and the line feeds between the lines do not count either.  So what is carried over
may have more tokens than the overlap (`overlapBudget_iff`), and even enough for the next flush:
then the same lines are emitted again at every line that follows (`not_overlapBudget`).

Without empty lines it has at most twice as many tokens (`estimateTokens_carryOver_le`).
-/

namespace KacheDB

open Foundation

namespace MarkdownChunker

variable (chunker : MarkdownChunker)

/-- What is kept of the lines that a flush has emitted stays within the overlap.  So it is not more
than half of the target size, the next flush by size needs new lines, and a flush by size drops
some of its lines. -/
structure OverlapBudget (flushed kept : List (List Char)) : Prop where
  suffix : kept <:+ flushed
  tokens_le : (estimateTokens (joinLines kept) : ℤ) ≤ chunker.overlap
  half : estimateTokens (joinLines kept) ≤ chunker.targetSize / 2
  progress : estimateTokens (joinLines kept) < chunker.targetSize
  shorter : chunker.targetSize ≤ estimateTokens (joinLines flushed) → kept.length < flushed.length

/-- Last lines whose estimates add up to no more than the overlap have, with the line feeds between
them, fewer characters than the next number of tokens takes.  It does not matter if no lines are
kept at all. -/
def EstimatesSuffice (currentLines : List (List Char)) : Prop :=
  chunker.overlap = 0 ∨ currentLines.length ≤ 1 ∨
    ∀ last, last <:+ currentLines → (load estimateTokens last : ℤ) ≤ chunker.overlap →
      ((load List.length last + (last.length - 1) : ℕ) : ℤ) < 4 * (chunker.overlap + 1)

end MarkdownChunker

section Budget

open MarkdownChunker

variable (self : MarkdownChunker) (parentKey : String)

/-! ## The overlap loop -/

lemma overlapLines_eq_keepLast (overlap : ℤ) (accumTokens : ℕ) (kept rest : List (List Char)) :
    overlapLines overlap accumTokens kept rest =
      keepLast estimateTokens overlap accumTokens kept rest := by
  induction rest generalizing accumTokens kept with
  | nil => rfl
  | cons line rest ih => rw [overlapLines, keepLast, ih]

/-- The loop keeps as many lines as fit by their estimates. -/
lemma isLongestWithin_carryOver {currentLines : List (List Char)} (hoverlap : 0 < self.overlap)
    (hlength : 1 < currentLines.length) :
    IsLongestWithin estimateTokens self.overlap currentLines (self.carryOver currentLines) := by
  have hnil : (load estimateTokens [] : ℤ) ≤ self.overlap := hoverlap.le
  have hkept := isLongestWithin_keepLast hnil currentLines.reverse
  rw [List.reverse_reverse, List.append_nil] at hkept
  rw [carryOver, if_pos ⟨hoverlap, hlength⟩, overlapLines_eq_keepLast]
  exact hkept

/-- The lines that are collected when a chunk has been emitted. -/
lemma flushCurrentChunk_currentLines {s : ChunkState}
    (h : stripChars (joinLines s.currentLines) ≠ []) :
    (self.flushCurrentChunk parentKey s).currentLines = self.carryOver s.currentLines := by
  rw [flushCurrentChunk, if_neg h]

/-! ## Tokens and characters -/

lemma estimateTokens_nil : estimateTokens [] = 0 := rfl

/-- So many tokens, at least one, take fewer than four characters more. -/
lemma estimateTokens_le_iff {text : List Char} {n : ℤ} (hn : 1 ≤ n) :
    (estimateTokens text : ℤ) ≤ n ↔ (text.length : ℤ) < 4 * (n + 1) := by
  rcases eq_or_ne text [] with rfl | hne
  · rw [estimateTokens_nil, List.length_nil]
    omega
  · rw [estimateTokens, if_neg hne]
    omega

/-- A line that is not empty has not many more characters than its tokens take. -/
lemma length_lt_of_ne_nil {line : List Char} (h : line ≠ []) :
    1 ≤ estimateTokens line ∧ line.length < 4 * (estimateTokens line + 1) := by
  rw [estimateTokens, if_neg h]
  omega

/-- Lines that are not empty have not many more characters than their tokens take. -/
lemma load_le_of_forall_ne_nil {lines : List (List Char)} (h : ∀ line ∈ lines, line ≠ []) :
    lines.length ≤ load estimateTokens lines ∧
      load List.length lines ≤ 4 * load estimateTokens lines + 3 * lines.length := by
  induction lines with
  | nil => exact ⟨le_rfl, le_rfl⟩
  | cons line lines ih =>
    obtain ⟨hline, hrest⟩ := List.forall_mem_cons.mp h
    have hfirst := length_lt_of_ne_nil hline
    have hlast := ih hrest
    rw [load_cons, load_cons, List.length_cons]
    omega

/-- The last lines of joined lines are not longer. -/
lemma length_joinLines_le_of_suffix {last lines : List (List Char)} (h : last <:+ lines) :
    (joinLines last).length ≤ (joinLines lines).length := by
  have hload := load_le_of_suffix List.length h
  have hlength := h.length_le
  rw [length_joinLines, length_joinLines]
  exact Nat.add_le_add hload (Nat.sub_le_sub_right hlength 1)

/-! ## The budget -/

/-- Whatever stays within the overlap is a good overlap. -/
lemma overlapBudget_of_le {flushed kept : List (List Char)} (hsuffix : kept <:+ flushed)
    (hle : (estimateTokens (joinLines kept) : ℤ) ≤ self.overlap) :
    self.OverlapBudget flushed kept := by
  have htarget := self.le_targetSize
  have hoverlap := self.overlap_le
  have hhalf : estimateTokens (joinLines kept) ≤ self.targetSize / 2 := by omega
  have hprogress : estimateTokens (joinLines kept) < self.targetSize := by omega
  refine ⟨hsuffix, hle, hhalf, hprogress, ?_⟩
  intro hflushed
  apply lt_of_le_of_ne hsuffix.length_le
  intro hlength
  -- lines that are all kept are too short for a flush by size
  rw [hsuffix.eq_of_length hlength] at hprogress
  exact absurd hprogress (not_lt.mpr hflushed)

/-- What is carried over stays within the overlap exactly if the estimates suffice. -/
lemma estimateTokens_carryOver_le_iff (hoverlap : 0 ≤ self.overlap)
    (currentLines : List (List Char)) :
    (estimateTokens (joinLines (self.carryOver currentLines)) : ℤ) ≤ self.overlap ↔
      self.EstimatesSuffice currentLines := by
  rw [EstimatesSuffice]
  by_cases hnone : self.overlap = 0 ∨ currentLines.length ≤ 1
  · -- nothing is kept
    have hnil : self.carryOver currentLines = [] := by
      rw [carryOver_eq_nil_iff]
      exact hnone.imp Eq.le Or.inl
    rw [hnil, ← or_assoc]
    exact iff_of_true hoverlap (Or.inl hnone)
  · obtain ⟨hzero, hlength⟩ := not_or.mp hnone
    have hpos : 0 < self.overlap := lt_of_le_of_ne hoverlap (Ne.symm hzero)
    have hlongest := isLongestWithin_carryOver self hpos (not_le.mp hlength)
    rw [or_iff_right hzero, or_iff_right hlength, estimateTokens_le_iff hpos,
      hlongest.iff_forall (P := fun last => ((joinLines last).length : ℤ) < 4 * (self.overlap + 1))]
    · simp only [length_joinLines]
      rfl
    · intro last lines hsuffix hlt
      have hle := length_joinLines_le_of_suffix hsuffix
      omega

/-- Without empty lines, no more than twice the overlap is carried over. -/
theorem estimateTokens_carryOver_le (hoverlap : 0 ≤ self.overlap) {currentLines : List (List Char)}
    (hlines : ∀ line ∈ currentLines, line ≠ []) :
    (estimateTokens (joinLines (self.carryOver currentLines)) : ℤ) ≤ 2 * self.overlap := by
  rcases eq_or_ne (self.carryOver currentLines) [] with hnil | hne
  · rw [hnil]
    exact mul_nonneg zero_le_two hoverlap
  · have hnot := (carryOver_eq_nil_iff self currentLines).not.mp hne
    rw [CarriesNothing, not_or, not_or, not_le, not_le] at hnot
    obtain ⟨hpos, hlength, -⟩ := hnot
    have hlongest := isLongestWithin_carryOver self hpos hlength
    have hload := hlongest.load_le
    obtain ⟨hcount, hsum⟩ := load_le_of_forall_ne_nil fun line hline =>
      hlines line (hlongest.suffix.subset hline)
    have hlen : (joinLines (self.carryOver currentLines)).length =
        load List.length (self.carryOver currentLines) +
          ((self.carryOver currentLines).length - 1) := length_joinLines _
    rw [estimateTokens_le_iff (by omega), hlen]
    omega

/-- **What a flush carries over stays within the overlap** exactly if the estimates suffice. -/
theorem MarkdownChunker.overlapBudget_iff (targetChunkSize overlap : ℤ) (hoverlap : 0 ≤ overlap)
    (s : ChunkState) (hcontent : stripChars (joinLines s.currentLines) ≠ []) :
    (new targetChunkSize overlap).OverlapBudget s.currentLines
        ((new targetChunkSize overlap).flushCurrentChunk parentKey s).currentLines ↔
      (new targetChunkSize overlap).EstimatesSuffice s.currentLines := by
  have hnonneg : 0 ≤ (new targetChunkSize overlap).overlap := by
    apply le_min hoverlap
    positivity
  rw [flushCurrentChunk_currentLines _ _ hcontent,
    ← estimateTokens_carryOver_le_iff (new targetChunkSize overlap) hnonneg]
  constructor
  · intro hbudget
    exact hbudget.tokens_le
  · intro hle
    exact overlapBudget_of_le _ (carryOver_suffix _ _) hle

/-- Two short lines. -/
theorem MarkdownChunker.overlapBudget_iff_short :
    (new 350 50).OverlapBudget [['a'], ['b']]
        ((new 350 50).flushCurrentChunk "doc"
          { currentLines := [['a'], ['b']] }).currentLines ↔
      (new 350 50).EstimatesSuffice [['a'], ['b']] :=
  overlapBudget_iff "doc" 350 50 (by decide) { currentLines := [['a'], ['b']] } (by decide)

/-- A line of seven characters and an empty one, and 25 more lines of seven characters. -/
def shortLines : List Char :=
  List.replicate 7 'x' ++ ['\n'] ++
    (List.replicate 25 ('\n' :: List.replicate 7 'x')).flatten

/-- The lines that the first flush of the document emits. -/
def firstShortLines : List (List Char) :=
  List.replicate 7 'x' :: [] :: List.replicate 24 (List.replicate 7 'x')

/-- The first flush keeps all lines, enough for the next flush. -/
theorem MarkdownChunker.not_overlapBudget :
    ∃ p ∈ (new 50 25).flushPoints "doc" (.ofList shortLines),
      stripChars (joinLines p.state.currentLines) ≠ [] ∧
        ¬ (new 50 25).OverlapBudget p.state.currentLines
          ((new 50 25).flushCurrentChunk "doc" p.state).currentLines := by
  have hlarge : (new 50 25).IsLarge (.ofList shortLines) :=
    (isLarge_ofList _ _).mpr (by decide +kernel)
  have hfirst : (((new 50 25).flushPoints "doc" (.ofList shortLines)).map
      fun p => p.state.currentLines)[0]? = some firstShortLines := by
    rw [flushPoints_ofList _ _ hlarge]
    decide +kernel
  rw [List.getElem?_map, Option.map_eq_some_iff] at hfirst
  obtain ⟨p, hp, hlines⟩ := hfirst
  have hcontent : stripChars (joinLines p.state.currentLines) ≠ [] := by
    rw [hlines]
    decide +kernel
  refine ⟨p, List.mem_of_getElem? hp, hcontent, ?_⟩
  intro hbudget
  have hprogress := hbudget.progress
  rw [flushCurrentChunk_currentLines _ _ hcontent, hlines] at hprogress
  revert hprogress
  decide +kernel

end Budget

end KacheDB
