import KacheDB.Semantic.ChunkRuns

/-!
# The titles of the chunks

The section title of a chunk is the breadcrumb of the heading stack when the chunk is flushed.  For
a flush by size and for the last one this is the stack behind the last line of the chunk.  A flush
in front of a heading comes after the heading has gone to the stack (`sectionTitle_iff`).
-/

namespace KacheDB

open Foundation

namespace MarkdownChunker

variable (self : MarkdownChunker) (parentKey : String)

/-- If lines are flushed in front of the line, its heading leaves the breadcrumb as it is. -/
def KeepsBreadcrumb (s : ChunkState) (line : List Char) : Prop :=
  self.SectionDue s line → ¬ s.currentLines.all isBlank = true →
    getCurrentBreadcrumb (entered s line).headingStack = getCurrentBreadcrumb s.headingStack

/-- The title of each chunk is the breadcrumb behind the last line of its run. -/
def TitlesDescribe (markdownText : String) : Prop :=
  ∀ (i : ℕ) (chunk : DocumentChunk) (run : Segment),
    (self.chunkDocument parentKey markdownText)[i]? = some chunk →
    (self.chunkRuns parentKey markdownText)[i]? = some run →
    chunk.sectionTitle = getCurrentBreadcrumb
      (self.stateAfter parentKey (documentLines markdownText) run.stop).headingStack

/-- The size check does not change the stack. -/
lemma collected_headingStack (s : ChunkState) (line : List Char) :
    (self.collected parentKey s line).headingStack =
      (self.processLine parentKey s line).headingStack := by
  rw [processLine, collectLine_eq, collected]
  split_ifs
  · rw [flushCurrentChunk_headingStack]
  · rfl

/-- The stack of a flush by size, and of the last one, is that behind its last line. -/
lemma headingStack_eq_of_ne_heading {markdownText : String} (h : self.IsLarge markdownText)
    {p : FlushPoint} (hp : p ∈ self.flushPoints parentKey markdownText)
    (hkind : p.kind ≠ .heading) :
    p.state.headingStack =
      (self.stateAfter parentKey (documentLines markdownText) p.pos).headingStack := by
  rcases (mem_flushPoints_iff self parentKey h rfl).mp hp with
    ⟨n, line, hline, ⟨-, -, rfl⟩ | ⟨-, -, rfl⟩⟩ | ⟨-, rfl⟩
  · exact absurd rfl hkind
  · rw [stateAfter_succ self parentKey hline]
    exact collected_headingStack self parentKey _ line
  · rfl

/-- **The titles describe the chunks of a large document** exactly if no heading that has lines
flushed in front of it changes the breadcrumb. -/
theorem sectionTitle_iff {markdownText : String} (h : self.IsLarge markdownText) :
    self.MadeOfRuns parentKey markdownText ∧
      (self.TitlesDescribe parentKey markdownText ↔
        ∀ (n : ℕ) (line : List Char), (documentLines markdownText)[n]? = some line →
          self.KeepsBreadcrumb
            (self.stateAfter parentKey (documentLines markdownText) n) line) := by
  refine ⟨madeOfRuns self parentKey markdownText, ?_⟩
  have hmem := @mem_flushPoints_iff self parentKey _ _ h rfl
  constructor
  · intro htitles n line hline hdue hblank
    have hp := hmem.mpr (Or.inl ⟨n, line, hline, Or.inl ⟨hdue, hblank, rfl⟩⟩)
    obtain ⟨i, hi⟩ := List.getElem?_of_mem hp
    obtain ⟨hchunk, hrun⟩ := getElem?_of_flushPoint self parentKey h hi
    exact htitles i _ _ hchunk hrun
  · intro hkeeps i chunk run hchunk hrun
    obtain ⟨p, hi, rfl, rfl⟩ := exists_flushPoint self parentKey h hchunk hrun
    have hp := List.mem_of_getElem? hi
    rw [FlushPoint.chunk, FlushPoint.segment]
    dsimp only
    by_cases hkind : p.kind = .heading
    · rcases hmem.mp hp with ⟨n, line, hline, ⟨hdue, hblank, rfl⟩ | ⟨-, -, rfl⟩⟩ | ⟨-, rfl⟩
      · exact hkeeps n line hline hdue hblank
      · cases hkind
      · cases hkind
    · rw [headingStack_eq_of_ne_heading self parentKey h hp hkind]

/-- A document of two sections. -/
def twoSections : List Char :=
  ['#', ' ', 'A', '\n'] ++ List.replicate 150 'x' ++ ['\n', '#', ' ', 'B', '\n'] ++
    List.replicate 150 'y'

lemma isLarge_twoSections : (new 50 0).IsLarge (.ofList twoSections) :=
  (isLarge_ofList _ _).mpr (by decide +kernel)

theorem sectionTitle_iff_twoSections :
    (new 50 0).MadeOfRuns "doc" (.ofList twoSections) ∧
      ((new 50 0).TitlesDescribe "doc" (.ofList twoSections) ↔
        ∀ (n : ℕ) (line : List Char), (documentLines (.ofList twoSections))[n]? = some line →
          (new 50 0).KeepsBreadcrumb
            ((new 50 0).stateAfter "doc" (documentLines (.ofList twoSections)) n) line) :=
  sectionTitle_iff (new 50 0) "doc" isLarge_twoSections

/-- The chunk of the first section has the title of the second one. -/
theorem not_titlesDescribe :
    (new 50 0).IsLarge (.ofList twoSections) ∧
      ¬ (new 50 0).TitlesDescribe "doc" (.ofList twoSections) := by
  refine ⟨isLarge_twoSections, ?_⟩
  intro htitles
  have hpoint : ((new 50 0).flushPoints "doc" (.ofList twoSections))[0]?.map
      (fun p => (p.pos, getCurrentBreadcrumb p.state.headingStack)) = some (2, "B") := by
    rw [flushPoints_ofList _ _ isLarge_twoSections]
    decide +kernel
  have hstack : getCurrentBreadcrumb
      ((new 50 0).stateAfter "doc" (documentLines (.ofList twoSections)) 2).headingStack = "A" := by
    rw [documentLines_ofList]
    decide +kernel
  obtain ⟨p, hp, hfacts⟩ := Option.map_eq_some_iff.mp hpoint
  obtain ⟨hpos, htitle⟩ := Prod.mk.inj hfacts
  obtain ⟨hchunk, hrun⟩ := getElem?_of_flushPoint _ _ isLarge_twoSections hp
  have hdescribed := htitles 0 _ _ hchunk hrun
  rw [FlushPoint.chunk, FlushPoint.segment, hpos, htitle, hstack] at hdescribed
  have hne : "B" ≠ "A" := by decide
  exact hne hdescribed

end MarkdownChunker

end KacheDB
