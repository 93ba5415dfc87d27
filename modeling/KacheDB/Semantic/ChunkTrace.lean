import KacheDB.Semantic.Chunker

/-!
# The flushes of the chunker

The main loop of `chunk_document` with a list of the states in which it flushes lines that are not
blank.  The list changes nothing (`chunkDocument_eq`): each of the chunks comes from one of these
states.  It says which lines of the document a chunk is made of, its *run*, and which of the three
places of the loop has flushed it.
-/

namespace KacheDB

open Foundation

/-- The places from which `flush_current_chunk` is called. -/
inductive FlushKind : Type where
  | heading
  | size
  | final
  deriving DecidableEq

/-- The state in which lines are flushed, and the number of lines that have been collected then. -/
structure FlushPoint where
  kind : FlushKind
  pos : ℕ
  state : ChunkState

namespace FlushPoint

/-- The lines that are flushed. -/
def segment (p : FlushPoint) : Segment :=
  ⟨p.pos - p.state.currentLines.length, p.pos⟩

/-- The chunk that is made of them. -/
def chunk (parentKey : String) (p : FlushPoint) : DocumentChunk where
  chunkId := parentKey ++ ":chunk_" ++ toString p.state.chunkIdx
  content := .ofList (stripChars (joinLines p.state.currentLines))
  sectionTitle := getCurrentBreadcrumb p.state.headingStack
  parentKey := parentKey
  tokenCount := estimateTokens (stripChars (joinLines p.state.currentLines))

end FlushPoint

/-! ## Blank lines, headings and fences -/

section Lines

variable {line : List Char}

/-- Nothing is left of joined lines exactly if they are blank. -/
lemma stripChars_joinLines_eq_nil_iff (lines : List (List Char)) :
    stripChars (joinLines lines) = [] ↔ lines.all isBlank = true := by
  rw [stripChars_eq_nil_iff, joinLines, all_intercalate]
  rfl

/-- A line that begins like this is not blank. -/
lemma isBlank_of_head {c : Char} {cs : List Char} (hline : line = c :: cs)
    (hc : isWhitespace c = false) : isBlank line = false := by
  rw [isBlank, hline, List.all_cons, hc]
  rfl

lemma exists_of_isCodeFence (h : isCodeFence line = true) :
    ∃ cs, line = "```".toList ++ cs := by
  obtain ⟨cs, hcs⟩ := List.isPrefixOf_iff_prefix.mp h
  exact ⟨cs, hcs.symm⟩

/-- A fence is not blank. -/
lemma isBlank_of_isCodeFence (h : isCodeFence line = true) : isBlank line = false := by
  obtain ⟨cs, hcs⟩ := exists_of_isCodeFence h
  exact isBlank_of_head hcs (by decide)

/-- A heading begins with a hash. -/
lemma exists_of_headingMatch (h : (headingMatch line).isSome = true) :
    ∃ cs, line = '#' :: cs := by
  rcases hchars : line with _ | ⟨c, cs⟩
  · simp [headingMatch, hchars] at h
  · by_cases hc : c = '#'
    · rw [hc]
      exact ⟨cs, rfl⟩
    · simp [headingMatch, hchars, hc] at h

/-- A heading is not blank. -/
lemma isBlank_of_headingMatch (h : (headingMatch line).isSome = true) : isBlank line = false := by
  obtain ⟨cs, hcs⟩ := exists_of_headingMatch h
  exact isBlank_of_head hcs (by decide)

/-- A heading is no fence. -/
lemma isCodeFence_of_headingMatch (h : (headingMatch line).isSome = true) :
    isCodeFence line = false := by
  by_contra hfence
  obtain ⟨cs, hcs⟩ := exists_of_headingMatch h
  obtain ⟨cs', hcs'⟩ := exists_of_isCodeFence (by simpa using hfence)
  rw [hcs] at hcs'
  have hhead := (List.cons.inj hcs').1
  revert hhead
  decide

end Lines

/-! ## The loop with its flushes -/

/-- The state of the loop, the number of lines that have been collected, and the flushes. -/
structure ChunkTrace where
  state : ChunkState := {}
  pos : ℕ := 0
  points : List FlushPoint := []

namespace MarkdownChunker

variable (self : MarkdownChunker) (parentKey : String)

/-- The heading of a line, outside code blocks, goes to the stack. -/
def enterHeading (s : ChunkState) (line : List Char) : ChunkState :=
  if s.inCodeBlock then s
  else
    match headingMatch line with
    | none => s
    | some (level, text) =>
      { s with headingStack := pushHeading s.headingStack level (.ofList (stripChars text)) }

/-- The state in which the collected lines may be flushed in front of a line. -/
def entered (s : ChunkState) (line : List Char) : ChunkState :=
  enterHeading (toggleFence s line) line

/-- The line is a heading outside code blocks, and the collected lines are long enough to be
flushed in front of it. -/
def SectionDue (s : ChunkState) (line : List Char) : Prop :=
  (entered s line).inCodeBlock = false ∧ (headingMatch line).isSome = true ∧
    s.currentLines ≠ [] ∧ estimateTokens (joinLines s.currentLines) ≥ self.targetSize / 2

instance (s : ChunkState) (line : List Char) : Decidable (self.SectionDue s line) :=
  inferInstanceAs (Decidable (_ ∧ _))

/-- The collected lines are long enough to be flushed behind a line. -/
def SizeDue (s : ChunkState) : Prop :=
  estimateTokens (joinLines s.currentLines) ≥ self.targetSize ∧ s.inCodeBlock = false

instance (s : ChunkState) : Decidable (self.SizeDue s) :=
  inferInstanceAs (Decidable (_ ∧ _))

end MarkdownChunker

namespace ChunkTrace

open MarkdownChunker

variable (self : MarkdownChunker) (parentKey : String)

/-- A flush; blank lines make no chunk. -/
def flush (kind : FlushKind) (t : ChunkTrace) : ChunkTrace where
  state := self.flushCurrentChunk parentKey t.state
  pos := t.pos
  points := if t.state.currentLines.all isBlank then t.points
    else t.points ++ [⟨kind, t.pos, t.state⟩]

@[simp]
lemma flush_state (kind : FlushKind) (t : ChunkTrace) :
    (flush self parentKey kind t).state = self.flushCurrentChunk parentKey t.state := by
  rw [flush]

@[simp]
lemma flush_pos (kind : FlushKind) (t : ChunkTrace) :
    (flush self parentKey kind t).pos = t.pos := by
  rw [flush]

/-- The section boundary check. -/
def enter (t : ChunkTrace) (line : List Char) : ChunkTrace :=
  if self.SectionDue t.state line then
    flush self parentKey .heading { t with state := entered t.state line }
  else { t with state := entered t.state line }

/-- The line is collected. -/
def push (t : ChunkTrace) (line : List Char) : ChunkTrace :=
  { t with
    state := { t.state with currentLines := t.state.currentLines ++ [line] }
    pos := t.pos + 1 }

/-- The check of the size behind a line. -/
def settle (t : ChunkTrace) : ChunkTrace :=
  if self.SizeDue t.state then flush self parentKey .size t else t

/-- The line is collected, and a chunk that is long enough is flushed. -/
def takeLine (t : ChunkTrace) (line : List Char) : ChunkTrace :=
  settle self parentKey (t.push line)

/-- One turn of the main loop. -/
def step (t : ChunkTrace) (line : List Char) : ChunkTrace :=
  takeLine self parentKey (enter self parentKey t line) line

/-- The rest of the loop, and the last flush. -/
def finish (t : ChunkTrace) (rest : List (List Char)) : ChunkTrace :=
  flush self parentKey .final (rest.foldl (step self parentKey) t)

end ChunkTrace

namespace MarkdownChunker

variable (self : MarkdownChunker) (parentKey : String)

/-- The lines of a document. -/
def documentLines (markdownText : String) : List (List Char) :=
  splitLines (stripChars markdownText.toList)

/-- The document is larger than the target size. -/
def IsLarge (markdownText : String) : Prop :=
  self.targetSize < estimateTokens (stripChars markdownText.toList)

instance (markdownText : String) : Decidable (self.IsLarge markdownText) :=
  inferInstanceAs (Decidable (_ < _))

/-- The flushes of the lines of a document. -/
def flushPoints (markdownText : String) : List FlushPoint :=
  if self.IsLarge markdownText then
    (ChunkTrace.finish self parentKey {} (documentLines markdownText)).points
  else []

/-- The runs of lines that the chunks of a document are made of. -/
def chunkRuns (markdownText : String) : List Segment :=
  if stripChars markdownText.toList = [] then []
  else if self.IsLarge markdownText then
    (self.flushPoints parentKey markdownText).map FlushPoint.segment
  else [⟨0, (documentLines markdownText).length⟩]

/-- The text of a run: its lines joined again.  A document that is not large is left as it is. -/
def runText (markdownText : String) (run : Segment) : List Char :=
  if self.IsLarge markdownText then joinLines (run.items (documentLines markdownText))
  else markdownText.toList

/-- There is one chunk for each run, and it is the stripped text of the run. -/
def MadeOfRuns (markdownText : String) : Prop :=
  (self.chunkDocument parentKey markdownText).map DocumentChunk.content =
    (self.chunkRuns parentKey markdownText).map fun run =>
      String.ofList (stripChars (self.runText markdownText run))

end MarkdownChunker

/-! ## The list of flushes changes nothing -/

section Erasure

open MarkdownChunker ChunkTrace

variable (self : MarkdownChunker) (parentKey : String)

lemma flushCurrentChunk_of_blank {s : ChunkState} (h : s.currentLines.all isBlank = true) :
    self.flushCurrentChunk parentKey s = { s with currentLines := [] } := by
  rw [flushCurrentChunk, if_pos ((stripChars_joinLines_eq_nil_iff _).mpr h)]

lemma flushCurrentChunk_of_not_blank {s : ChunkState} (h : ¬ s.currentLines.all isBlank = true)
    (kind : FlushKind) (pos : ℕ) :
    self.flushCurrentChunk parentKey s =
      { s with
        chunks := s.chunks ++ [(FlushPoint.mk kind pos s).chunk parentKey]
        chunkIdx := s.chunkIdx + 1
        currentLines := self.carryOver s.currentLines } := by
  rw [flushCurrentChunk, if_neg (mt (stripChars_joinLines_eq_nil_iff _).mp h)]
  rfl

/-- A flush changes neither the headings nor the flag. -/
lemma flushCurrentChunk_headingStack (s : ChunkState) :
    (self.flushCurrentChunk parentKey s).headingStack = s.headingStack := by
  unfold flushCurrentChunk
  dsimp only
  split_ifs <;> rfl

lemma flushCurrentChunk_inCodeBlock (s : ChunkState) :
    (self.flushCurrentChunk parentKey s).inCodeBlock = s.inCodeBlock := by
  unfold flushCurrentChunk
  dsimp only
  split_ifs <;> rfl

lemma toggleFence_eq (s : ChunkState) (line : List Char) :
    toggleFence s line = { s with inCodeBlock := xor s.inCodeBlock (isCodeFence line) } := by
  unfold toggleFence
  split_ifs with hfence
  · rw [hfence, Bool.xor_true]
  · rw [eq_false_of_ne_true hfence, Bool.xor_false]

/-- The check of a heading changes neither the collected lines nor the chunks. -/
lemma entered_eq (s : ChunkState) (line : List Char) :
    entered s line =
      { s with
        headingStack := (entered s line).headingStack
        inCodeBlock := xor s.inCodeBlock (isCodeFence line) } := by
  unfold entered
  rw [toggleFence_eq, enterHeading]
  rcases headingMatch line with _ | ⟨level, text⟩
  · split_ifs <;> rfl
  · split_ifs <;> rfl

@[simp]
lemma entered_currentLines (s : ChunkState) (line : List Char) :
    (entered s line).currentLines = s.currentLines := by
  rw [entered_eq]

@[simp]
lemma entered_inCodeBlock (s : ChunkState) (line : List Char) :
    (entered s line).inCodeBlock = xor s.inCodeBlock (isCodeFence line) := by
  rw [entered_eq]

lemma sectionDue_iff (s : ChunkState) (line : List Char) :
    self.SectionDue s line ↔
      xor s.inCodeBlock (isCodeFence line) = false ∧ (headingMatch line).isSome = true ∧
        s.currentLines ≠ [] ∧
        self.targetSize / 2 ≤ estimateTokens (joinLines s.currentLines) := by
  rw [SectionDue, entered_inCodeBlock]

lemma enterSection_eq (s : ChunkState) (line : List Char) :
    self.enterSection parentKey (toggleFence s line) line =
      if self.SectionDue s line then self.flushCurrentChunk parentKey (entered s line)
      else entered s line := by
  simp only [sectionDue_iff]
  rw [enterSection, entered, toggleFence_eq, enterHeading]
  rcases xor s.inCodeBlock (isCodeFence line) with _ | _
  · rcases headingMatch line with _ | ⟨level, text⟩
    · rfl
    · by_cases hlines : s.currentLines = []
      · simp [hlines]
      · simp [hlines]
  · rfl

lemma collectLine_eq (s : ChunkState) (line : List Char) :
    self.collectLine parentKey s line =
      if self.SizeDue { s with currentLines := s.currentLines ++ [line] } then
        self.flushCurrentChunk parentKey { s with currentLines := s.currentLines ++ [line] }
      else { s with currentLines := s.currentLines ++ [line] } :=
  rfl

lemma enter_state (t : ChunkTrace) (line : List Char) :
    (enter self parentKey t line).state =
      self.enterSection parentKey (toggleFence t.state line) line := by
  rw [enterSection_eq, enter]
  by_cases hdue : self.SectionDue t.state line
  · rw [if_pos hdue, if_pos hdue, flush_state]
  · rw [if_neg hdue, if_neg hdue]

/-- Flushing a trace is flushing its state. -/
lemma step_state (t : ChunkTrace) (line : List Char) :
    (step self parentKey t line).state = self.processLine parentKey t.state line := by
  rw [processLine, ← enter_state, step, takeLine, settle, collectLine_eq]
  by_cases hdue : self.SizeDue ((enter self parentKey t line).push line).state
  · rw [if_pos hdue, flush_state]
    exact (if_pos hdue).symm
  · rw [if_neg hdue]
    exact (if_neg hdue).symm

/-- In front of a line the collected lines are flushed or not. -/
lemma enter_cases (t : ChunkTrace) (line : List Char) :
    enter self parentKey t line = { t with state := entered t.state line } ∨
      enter self parentKey t line =
        flush self parentKey .heading { t with state := entered t.state line } := by
  rw [enter]
  by_cases hdue : self.SectionDue t.state line
  · exact Or.inr (if_pos hdue)
  · exact Or.inl (if_neg hdue)

/-- Behind a line the collected lines are flushed or not. -/
lemma takeLine_cases (t : ChunkTrace) (line : List Char) :
    takeLine self parentKey t line = t.push line ∨
      takeLine self parentKey t line = flush self parentKey .size (t.push line) := by
  rw [takeLine, settle]
  by_cases hdue : self.SizeDue (t.push line).state
  · exact Or.inr (if_pos hdue)
  · exact Or.inl (if_neg hdue)

lemma enter_pos (t : ChunkTrace) (line : List Char) :
    (enter self parentKey t line).pos = t.pos := by
  rcases enter_cases self parentKey t line with h | h
  · rw [h]
  · rw [h, flush_pos]

lemma takeLine_pos (t : ChunkTrace) (line : List Char) :
    (takeLine self parentKey t line).pos = (t.push line).pos := by
  rcases takeLine_cases self parentKey t line with h | h
  · rw [h]
  · rw [h, flush_pos]

/-- A turn of the loop collects one line. -/
lemma step_pos (t : ChunkTrace) (line : List Char) :
    (step self parentKey t line).pos = t.pos + 1 := by
  rw [step, takeLine_pos, push, enter_pos]

lemma foldl_step_state (rest : List (List Char)) (t : ChunkTrace) :
    (rest.foldl (step self parentKey) t).state =
      rest.foldl (self.processLine parentKey) t.state := by
  induction rest generalizing t with
  | nil => rfl
  | cons line rest ih => rw [List.foldl_cons, List.foldl_cons, ih, step_state]

lemma foldl_step_pos (rest : List (List Char)) (t : ChunkTrace) :
    (rest.foldl (step self parentKey) t).pos = t.pos + rest.length := by
  induction rest generalizing t with
  | nil => rfl
  | cons line rest ih =>
    rw [List.foldl_cons, ih, step_pos, List.length_cons]
    omega

end Erasure

/-! ## The chunks are those of the flushes -/

section Numbering

open MarkdownChunker ChunkTrace

variable (self : MarkdownChunker) (parentKey : String)

/-- Each flush has made one chunk, and the chunks are numbered. -/
structure Numbered (t : ChunkTrace) : Prop where
  chunks_eq : t.state.chunks = t.points.map (FlushPoint.chunk parentKey)
  chunkIdx_eq : t.state.chunkIdx = t.points.length
  idx_eq : ∀ (i : ℕ) (p : FlushPoint), t.points[i]? = some p → p.state.chunkIdx = i

variable {parentKey} {t : ChunkTrace}

lemma numbered_nil : Numbered parentKey {} where
  chunks_eq := rfl
  chunkIdx_eq := rfl
  idx_eq _ _ h := by cases h

/-- What changes neither the chunks nor the flushes keeps the numbering. -/
lemma Numbered.of_eq (h : Numbered parentKey t) {t' : ChunkTrace}
    (hchunks : t'.state.chunks = t.state.chunks) (hidx : t'.state.chunkIdx = t.state.chunkIdx)
    (hpoints : t'.points = t.points) : Numbered parentKey t' where
  chunks_eq := by rw [hchunks, hpoints, h.chunks_eq]
  chunkIdx_eq := by rw [hidx, hpoints, h.chunkIdx_eq]
  idx_eq i p hp := h.idx_eq i p (hpoints ▸ hp)

lemma Numbered.flush (h : Numbered parentKey t) (kind : FlushKind) :
    Numbered parentKey (flush self parentKey kind t) := by
  unfold ChunkTrace.flush
  by_cases hblank : t.state.currentLines.all isBlank = true
  · rw [flushCurrentChunk_of_blank _ _ hblank, if_pos hblank]
    exact h.of_eq rfl rfl rfl
  · rw [flushCurrentChunk_of_not_blank _ _ hblank kind t.pos, if_neg hblank]
    refine ⟨?_, ?_, ?_⟩
    · rw [List.map_append, ← h.chunks_eq]
      rfl
    · rw [List.length_append, ← h.chunkIdx_eq]
      rfl
    · intro i p hp
      rcases Nat.lt_trichotomy i t.points.length with hlt | rfl | hgt
      · rw [List.getElem?_append_left hlt] at hp
        exact h.idx_eq i p hp
      · rw [List.getElem?_concat_length] at hp
        obtain rfl := Option.some.inj hp
        exact h.chunkIdx_eq
      · rw [List.getElem?_eq_none (by rw [List.length_append]; exact hgt)] at hp
        cases hp

lemma Numbered.step (h : Numbered parentKey t) (line : List Char) :
    Numbered parentKey (step self parentKey t line) := by
  have hentered : Numbered parentKey { t with state := entered t.state line } := by
    refine h.of_eq ?_ ?_ rfl
    · change (entered t.state line).chunks = t.state.chunks
      rw [entered_eq]
    · change (entered t.state line).chunkIdx = t.state.chunkIdx
      rw [entered_eq]
  have henter : Numbered parentKey (enter self parentKey t line) := by
    rcases enter_cases self parentKey t line with henter | henter
    · rw [henter]
      exact hentered
    · rw [henter]
      exact hentered.flush self .heading
  have hpush : Numbered parentKey ((enter self parentKey t line).push line) :=
    henter.of_eq rfl rfl rfl
  rw [ChunkTrace.step]
  rcases takeLine_cases self parentKey (enter self parentKey t line) line with htake | htake
  · rw [htake]
    exact hpush
  · rw [htake]
    exact hpush.flush self .size

lemma Numbered.foldl_step (h : Numbered parentKey t) (rest : List (List Char)) :
    Numbered parentKey (rest.foldl (ChunkTrace.step self parentKey) t) := by
  induction rest generalizing t with
  | nil => exact h
  | cons line rest ih => exact ih (h.step self line)

/-- The flushes of a document are numbered. -/
lemma numbered_finish (parentKey : String) (lines : List (List Char)) :
    Numbered parentKey (finish self parentKey {} lines) :=
  (numbered_nil.foldl_step self lines).flush self .final

lemma not_isLarge_of_eq_nil {markdownText : String} (h : stripChars markdownText.toList = []) :
    ¬ self.IsLarge markdownText := by
  rw [IsLarge, h]
  exact Nat.not_lt_zero _

/-- **The chunks of a large document** are those of its flushes. -/
theorem chunkDocument_eq {markdownText : String} (h : self.IsLarge markdownText) :
    self.chunkDocument parentKey markdownText =
      (self.flushPoints parentKey markdownText).map (FlushPoint.chunk parentKey) := by
  have hne : stripChars markdownText.toList ≠ [] := fun hnil => not_isLarge_of_eq_nil self hnil h
  rw [chunkDocument, if_neg hne, if_neg (not_le.mpr h), flushPoints, if_pos h,
    ← (numbered_finish self _ _).chunks_eq, finish]
  rw [flush_state, foldl_step_state, documentLines]
  dsimp only
  split_ifs with hlines
  · rfl
  · rw [not_not] at hlines
    rw [flushCurrentChunk_of_blank]
    rw [hlines]
    rfl

end Numbering

/-! ## Which flushes there are -/

namespace MarkdownChunker

variable (self : MarkdownChunker) (parentKey : String)

/-- The state in which the line has been collected. -/
def collected (s : ChunkState) (line : List Char) : ChunkState :=
  let s := self.enterSection parentKey (toggleFence s line) line
  { s with currentLines := s.currentLines ++ [line] }

/-- The state of the loop after so many lines. -/
def stateAfter (lines : List (List Char)) (n : ℕ) : ChunkState :=
  (lines.take n).foldl (self.processLine parentKey) {}

/-- The trace of the loop after so many lines. -/
def traceAfter (lines : List (List Char)) (n : ℕ) : ChunkTrace :=
  (lines.take n).foldl (ChunkTrace.step self parentKey) {}

/-- The turn of the loop that begins in this state with this line flushes at this point. -/
def TurnFlushes (s : ChunkState) (n : ℕ) (line : List Char) (p : FlushPoint) : Prop :=
  (self.SectionDue s line ∧ ¬ s.currentLines.all isBlank = true ∧
    p = ⟨.heading, n, entered s line⟩) ∨
  (self.SizeDue (self.collected parentKey s line) ∧
    ¬ (self.collected parentKey s line).currentLines.all isBlank = true ∧
    p = ⟨.size, n + 1, self.collected parentKey s line⟩)

end MarkdownChunker

section Points

open MarkdownChunker ChunkTrace

variable (self : MarkdownChunker) (parentKey : String)
variable {lines : List (List Char)} {line : List Char} {t : ChunkTrace} {kind : FlushKind} {n : ℕ}

/-- What is flushed is what has been flushed before and the collected lines. -/
lemma mem_flush {p : FlushPoint} :
    p ∈ (flush self parentKey kind t).points ↔
      p ∈ t.points ∨ ¬ t.state.currentLines.all isBlank = true ∧ p = ⟨kind, t.pos, t.state⟩ := by
  rw [flush]
  by_cases hblank : t.state.currentLines.all isBlank = true
  · simp [hblank]
  · simp [hblank]

/-- What is flushed in front of a line. -/
lemma mem_enter {p : FlushPoint} :
    p ∈ (enter self parentKey t line).points ↔
      p ∈ t.points ∨ self.SectionDue t.state line ∧ ¬ t.state.currentLines.all isBlank = true ∧
        p = ⟨.heading, t.pos, entered t.state line⟩ := by
  rw [enter]
  by_cases hdue : self.SectionDue t.state line
  · rw [if_pos hdue, mem_flush, entered_currentLines]
    simp only [hdue, true_and]
  · rw [if_neg hdue]
    simp only [hdue, false_and, or_false]

lemma push_enter_state :
    ((enter self parentKey t line).push line).state =
      self.collected parentKey t.state line := by
  rw [push, enter_state, collected]

lemma push_enter_pos : ((enter self parentKey t line).push line).pos = t.pos + 1 := by
  rw [push, enter_pos]

/-- What is flushed in a turn of the loop. -/
lemma mem_step {p : FlushPoint} :
    p ∈ (step self parentKey t line).points ↔
      p ∈ (enter self parentKey t line).points ∨
        self.SizeDue (self.collected parentKey t.state line) ∧
          ¬ (self.collected parentKey t.state line).currentLines.all isBlank = true ∧
          p = ⟨.size, t.pos + 1, self.collected parentKey t.state line⟩ := by
  rw [step, takeLine, settle, push_enter_state]
  by_cases hdue : self.SizeDue (self.collected parentKey t.state line)
  · rw [if_pos hdue, mem_flush, push_enter_pos, push_enter_state]
    simp only [hdue, true_and]
    rfl
  · rw [if_neg hdue]
    simp only [hdue, false_and, or_false]
    rfl

lemma mem_step_iff {p : FlushPoint} :
    p ∈ (step self parentKey t line).points ↔
      p ∈ t.points ∨ self.TurnFlushes parentKey t.state t.pos line p := by
  rw [mem_step, mem_enter, TurnFlushes, or_assoc]

lemma flushPoints_of_isLarge {markdownText : String} (h : self.IsLarge markdownText) :
    self.flushPoints parentKey markdownText =
      (finish self parentKey {} (documentLines markdownText)).points := by
  rw [flushPoints, if_pos h]

lemma stateAfter_succ (hline : lines[n]? = some line) :
    self.stateAfter parentKey lines (n + 1) =
      self.processLine parentKey (self.stateAfter parentKey lines n) line := by
  rw [stateAfter, List.take_add_one, hline, List.foldl_append]
  rfl

lemma traceAfter_succ (hline : lines[n]? = some line) :
    self.traceAfter parentKey lines (n + 1) =
      step self parentKey (self.traceAfter parentKey lines n) line := by
  rw [traceAfter, List.take_add_one, hline, List.foldl_append]
  rfl

lemma traceAfter_state (lines : List (List Char)) (n : ℕ) :
    (self.traceAfter parentKey lines n).state = self.stateAfter parentKey lines n :=
  foldl_step_state self parentKey _ _

lemma traceAfter_pos (hn : n ≤ lines.length) : (self.traceAfter parentKey lines n).pos = n := by
  rw [traceAfter, foldl_step_pos, List.length_take_of_le hn]
  exact Nat.zero_add n

/-- **The flushes of the first turns.** -/
lemma mem_traceAfter_iff (hn : n ≤ lines.length) {p : FlushPoint} :
    p ∈ (self.traceAfter parentKey lines n).points ↔
      ∃ (m : ℕ) (line : List Char), m < n ∧ lines[m]? = some line ∧
        self.TurnFlushes parentKey (self.stateAfter parentKey lines m) m line p := by
  induction n with
  | zero => exact iff_of_false List.not_mem_nil (by rintro ⟨m, line, hm, -⟩; cases hm)
  | succ n ih =>
    have hline := List.getElem?_eq_getElem hn
    rw [traceAfter_succ self parentKey hline, mem_step_iff, ih (Nat.le_of_succ_le hn),
      traceAfter_state, traceAfter_pos self parentKey (Nat.le_of_succ_le hn)]
    constructor
    · rintro (⟨m, line, hm, hrest⟩ | hflush)
      · exact ⟨m, line, hm.trans (Nat.lt_succ_self n), hrest⟩
      · exact ⟨n, _, Nat.lt_succ_self n, hline, hflush⟩
    · rintro ⟨m, line, hm, hline', hflush⟩
      rcases Nat.lt_succ_iff_lt_or_eq.mp hm with hlt | rfl
      · exact Or.inl ⟨m, line, hlt, hline', hflush⟩
      · obtain rfl := Option.some.inj (hline.symm.trans hline')
        exact Or.inr hflush

/-- **The flushes of a large document.** -/
theorem mem_flushPoints_iff {markdownText : String} (h : self.IsLarge markdownText)
    (hlines : documentLines markdownText = lines) {p : FlushPoint} :
    p ∈ self.flushPoints parentKey markdownText ↔
      (∃ (n : ℕ) (line : List Char), lines[n]? = some line ∧
        self.TurnFlushes parentKey (self.stateAfter parentKey lines n) n line p) ∨
      (¬ (self.stateAfter parentKey lines lines.length).currentLines.all isBlank = true ∧
        p = ⟨.final, lines.length, self.stateAfter parentKey lines lines.length⟩) := by
  have hall : self.traceAfter parentKey lines lines.length =
      lines.foldl (step self parentKey) {} := by
    rw [traceAfter, List.take_length]
  rw [flushPoints_of_isLarge self parentKey h, hlines, finish, ← hall, mem_flush,
    mem_traceAfter_iff _ _ le_rfl, traceAfter_pos _ _ le_rfl, traceAfter_state]
  apply or_congr_left
  constructor
  · rintro ⟨n, line, -, hrest⟩
    exact ⟨n, line, hrest⟩
  · rintro ⟨n, line, hline, hflush⟩
    exact ⟨n, line, (List.getElem?_eq_some_iff.mp hline).1, hline, hflush⟩

/-! ### Documents in characters -/

lemma isLarge_ofList (cs : List Char) :
    self.IsLarge (.ofList cs) ↔ self.targetSize < estimateTokens (stripChars cs) := by
  rw [IsLarge, String.toList_ofList]

lemma documentLines_ofList (cs : List Char) :
    documentLines (.ofList cs) = splitLines (stripChars cs) := by
  rw [documentLines, String.toList_ofList]

lemma flushPoints_ofList {cs : List Char} (h : self.IsLarge (.ofList cs)) :
    self.flushPoints parentKey (.ofList cs) =
      (finish self parentKey {} (splitLines (stripChars cs))).points := by
  rw [flushPoints_of_isLarge self parentKey h, documentLines_ofList]

end Points

end KacheDB
