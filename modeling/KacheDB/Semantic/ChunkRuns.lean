import KacheDB.Semantic.ChunkTrace

/-!
# What the chunks of a document are made of

`Follows` is what the loop of the chunker keeps: the collected lines are the last of those that
have been read, every line in front of them that is not blank has been flushed, and the flag says
whether the next line stands in a code block.  From it follow that the chunks are the texts of their
runs (`madeOfRuns`) and cover the document (`chunkDocument_covers`), and that no code block is cut
(`exists_run_of_closedBlock`).
-/

namespace KacheDB

open Foundation

/-! ## Code blocks -/

/-- The number of fences in front of a line. -/
def fencesBefore (lines : List (List Char)) (n : ℕ) : ℕ :=
  (lines.take n).countP isCodeFence

/-- The line stands in a code block: its fence is open. -/
def insideCodeBlock (lines : List (List Char)) (n : ℕ) : Bool :=
  fencesBefore lines n % 2 == 1

/-- The line `a` opens a code block that the line `b` closes. -/
structure ClosedBlock (lines : List (List Char)) (a b : ℕ) : Prop where
  opening : ∃ line, lines[a]? = some line ∧ isCodeFence line = true
  outside : insideCodeBlock lines a = false
  closing : ∃ line, lines[b]? = some line ∧ isCodeFence line = true
  next : fencesBefore lines b = fencesBefore lines a + 1

section Fences

variable {lines : List (List Char)} {line : List Char} {n : ℕ}

lemma fencesBefore_succ (hline : lines[n]? = some line) :
    fencesBefore lines (n + 1) = fencesBefore lines n + if isCodeFence line then 1 else 0 := by
  rw [fencesBefore, List.take_add_one, hline, List.countP_append]
  exact congrArg _ (List.countP_singleton ..)

lemma fencesBefore_mono {m n : ℕ} (h : m ≤ n) : fencesBefore lines m ≤ fencesBefore lines n :=
  (List.take_sublist_take_left h).countP_le

/-- A fence opens or closes a code block. -/
lemma insideCodeBlock_succ (hline : lines[n]? = some line) :
    insideCodeBlock lines (n + 1) = xor (insideCodeBlock lines n) (isCodeFence line) := by
  rw [insideCodeBlock, insideCodeBlock, fencesBefore_succ hline]
  rcases isCodeFence line with _ | _
  · rw [Bool.xor_false]
    rfl
  · rw [Bool.xor_true, Bool.eq_iff_iff]
    simp only [if_true, beq_iff_eq, Bool.not_eq_true', beq_eq_false_iff_ne]
    omega

end Fences

/-! ## The flushes of a document -/

/-- What holds of a flush of these lines. -/
structure FlushPoint.Of (lines : List (List Char)) (p : FlushPoint) : Prop where
  items_eq : p.segment.items lines = p.state.currentLines
  not_blank : ¬ p.state.currentLines.all isBlank = true
  outside : p.kind ≠ .final → insideCodeBlock lines p.pos = false
  heading : p.kind = .heading → ∃ line, lines[p.pos]? = some line ∧ (headingMatch line).isSome
  final : p.kind = .final → p.pos = lines.length

/-- What the loop collects and emits, without the other data. -/
def ChunkTrace.collector (t : ChunkTrace) : Collector (List Char) :=
  ⟨t.state.currentLines, t.pos, t.points.map FlushPoint.segment⟩

lemma ChunkTrace.collector_pos (t : ChunkTrace) : t.collector.pos = t.pos :=
  rfl

/-- What the loop keeps when it reads these lines. -/
structure ChunkTrace.Follows (lines : List (List Char)) (t : ChunkTrace) : Prop where
  segmented : Collector.Segmented isBlank lines t.collector
  inCodeBlock_eq : t.state.inCodeBlock = insideCodeBlock lines t.pos
  points_of : ∀ p ∈ t.points, p.Of lines
  not_final : ∀ p ∈ t.points, p.kind ≠ .final

section Following

open MarkdownChunker ChunkTrace

variable (self : MarkdownChunker) (parentKey : String)

/-- The overlap is a part of the end. -/
lemma overlapLines_suffix (overlap : ℤ) (accumTokens : ℕ) (kept rest : List (List Char)) :
    overlapLines overlap accumTokens kept rest <:+ rest.reverse ++ kept := by
  induction rest generalizing accumTokens kept with
  | nil => exact List.suffix_rfl
  | cons line rest ih =>
    rw [overlapLines]
    split_ifs
    · exact List.suffix_append _ _
    · rw [List.reverse_cons, List.append_assoc]
      exact ih _ _

lemma carryOver_suffix (currentLines : List (List Char)) :
    self.carryOver currentLines <:+ currentLines := by
  rw [carryOver]
  split_ifs
  · have h := overlapLines_suffix self.overlap 0 [] currentLines.reverse
    rwa [List.reverse_reverse, List.append_nil] at h
  · exact List.nil_suffix

variable {lines : List (List Char)} {line : List Char} {t : ChunkTrace} {kind : FlushKind}

lemma flush_collector :
    (flush self parentKey kind t).collector =
      t.collector.flush isBlank (self.carryOver t.state.currentLines) := by
  rw [collector, flush_state, flush_pos, Collector.flush, flush]
  by_cases hblank : t.state.currentLines.all isBlank = true
  · rw [flushCurrentChunk_of_blank _ _ hblank, if_pos hblank, collector, if_pos hblank]
  · rw [flushCurrentChunk_of_not_blank _ _ hblank kind t.pos, if_neg hblank, collector,
      if_neg hblank, List.map_append]
    rfl

lemma flush_segmented (kind : FlushKind)
    (h : Collector.Segmented isBlank lines t.collector) :
    Collector.Segmented isBlank lines (flush self parentKey kind t).collector := by
  rw [flush_collector]
  exact h.flush (carryOver_suffix self _)

/-- The flush of collected lines, outside code blocks unless it is the last. -/
lemma flush_of (h : Collector.Segmented isBlank lines t.collector)
    (hpoints : ∀ p ∈ t.points, p.Of lines)
    (houtside : kind ≠ .final → insideCodeBlock lines t.pos = false)
    (hheading : kind = .heading →
      ∃ line, lines[t.pos]? = some line ∧ (headingMatch line).isSome)
    (hfinal : kind = .final → t.pos = lines.length) :
    ∀ p ∈ (flush self parentKey kind t).points, p.Of lines := by
  intro p hp
  rcases (mem_flush self parentKey).mp hp with hp | ⟨hblank, rfl⟩
  · exact hpoints p hp
  · exact ⟨h.items_eq, hblank, houtside, hheading, hfinal⟩

lemma enter_inCodeBlock :
    (enter self parentKey t line).state.inCodeBlock =
      xor t.state.inCodeBlock (isCodeFence line) := by
  rcases enter_cases self parentKey t line with henter | henter
  · rw [henter, entered_inCodeBlock]
  · rw [henter, flush_state, flushCurrentChunk_inCodeBlock, entered_inCodeBlock]

lemma enter_segmented (h : Collector.Segmented isBlank lines t.collector) (line : List Char) :
    Collector.Segmented isBlank lines (enter self parentKey t line).collector := by
  have hentered : Collector.Segmented isBlank lines
      (ChunkTrace.collector { t with state := entered t.state line }) := by
    rw [collector, entered_currentLines]
    exact h
  rcases enter_cases self parentKey t line with henter | henter
  · rw [henter]
    exact hentered
  · rw [henter]
    exact flush_segmented self parentKey .heading hentered

lemma push_segmented (h : Collector.Segmented isBlank lines t.collector)
    (hline : lines[t.pos]? = some line) :
    Collector.Segmented isBlank lines (t.push line).collector :=
  h.push hline

end Following

section Steps

open MarkdownChunker ChunkTrace

variable (self : MarkdownChunker) (parentKey : String)
variable {lines : List (List Char)} {line : List Char} {t : ChunkTrace}

/-- The flush in front of a heading. -/
lemma of_sectionDue (h : t.Follows lines) (hline : lines[t.pos]? = some line)
    (hdue : self.SectionDue t.state line) (hblank : ¬ t.state.currentLines.all isBlank = true) :
    FlushPoint.Of lines ⟨.heading, t.pos, entered t.state line⟩ := by
  obtain ⟨hcode, hheading, -, -⟩ := (sectionDue_iff self _ _).mp hdue
  rw [isCodeFence_of_headingMatch hheading, Bool.xor_false, h.inCodeBlock_eq] at hcode
  have hitems := h.segmented.items_eq
  refine ⟨?_, ?_, fun _ => hcode, fun _ => ⟨line, hline, hheading⟩, ?_⟩
  · rw [FlushPoint.segment, entered_currentLines]
    exact hitems
  · rwa [entered_currentLines]
  · intro hfinal
    cases hfinal

/-- The step lemma. -/
lemma ChunkTrace.Follows.step (h : t.Follows lines) (hline : lines[t.pos]? = some line) :
    (step self parentKey t line).Follows lines := by
  have hpos := enter_pos self parentKey t line
  have henter := enter_segmented self parentKey h.segmented line
  have hpush := push_segmented henter (hpos.symm ▸ hline)
  have hcode : ((enter self parentKey t line).push line).state.inCodeBlock =
      insideCodeBlock lines (t.pos + 1) := by
    rw [insideCodeBlock_succ hline, ← h.inCodeBlock_eq]
    exact enter_inCodeBlock self parentKey
  have hpoints : ∀ p ∈ (enter self parentKey t line).points, p.Of lines ∧ p.kind ≠ .final := by
    intro p hp
    rcases (mem_enter self parentKey).mp hp with hp | ⟨hdue, hblank, rfl⟩
    · exact ⟨h.points_of p hp, h.not_final p hp⟩
    · refine ⟨of_sectionDue self h hline hdue hblank, ?_⟩
      intro hfinal
      cases hfinal
  have hof : ∀ p ∈ (ChunkTrace.step self parentKey t line).points,
      p.Of lines ∧ p.kind ≠ .final := by
    intro p hp
    rcases (mem_step self parentKey).mp hp with hp | ⟨hdue, hblank, rfl⟩
    · exact hpoints p hp
    · have hitems := hpush.items_eq
      rw [Collector.segment, collector, push_enter_state, push_enter_pos] at hitems
      rw [push_enter_state, hdue.2] at hcode
      refine ⟨⟨hitems, hblank, fun _ => hcode.symm, ?_, ?_⟩, ?_⟩
      · intro hheading
        cases hheading
      · intro hfinal
        cases hfinal
      · intro hfinal
        cases hfinal
  refine ⟨?_, ?_, fun p hp => (hof p hp).1, fun p hp => (hof p hp).2⟩
  · rw [ChunkTrace.step]
    rcases takeLine_cases self parentKey (enter self parentKey t line) line with htake | htake
    · rw [htake]
      exact hpush
    · rw [htake]
      exact flush_segmented self parentKey .size hpush
  · rw [step_pos, ← hcode, ChunkTrace.step]
    rcases takeLine_cases self parentKey (enter self parentKey t line) line with htake | htake
    · rw [htake]
    · rw [htake, flush_state, flushCurrentChunk_inCodeBlock]

/-- The run lemma. -/
lemma ChunkTrace.Follows.foldl_step (h : t.Follows lines) {rest : List (List Char)}
    (hrest : rest <+: lines.drop t.pos) :
    (rest.foldl (ChunkTrace.step self parentKey) t).Follows lines := by
  induction rest generalizing t with
  | nil => exact h
  | cons line rest ih =>
    obtain ⟨last, hlast⟩ := hrest
    have hline : lines[t.pos]? = some line := by
      rw [← List.head?_drop, ← hlast]
      rfl
    apply ih (h.step self parentKey hline)
    rw [step_pos, ← List.tail_drop, ← hlast]
    exact List.prefix_append rest last

lemma follows_nil (lines : List (List Char)) : ChunkTrace.Follows lines {} where
  segmented := Collector.segmented_nil _ _
  inCodeBlock_eq := rfl
  points_of _ hp := absurd hp List.not_mem_nil
  not_final _ hp := absurd hp List.not_mem_nil

lemma follows_traceAfter (lines : List (List Char)) (n : ℕ) :
    (self.traceAfter parentKey lines n).Follows lines :=
  (follows_nil lines).foldl_step self parentKey (List.take_prefix n lines)

end Steps

/-! ## The chunks cover the document -/

/-- The chunks are numbered and made of these runs of lines, which are in order and leave out no
line that is not blank. -/
structure Covers (parentKey : String) (lines : List (List Char)) (chunks : List DocumentChunk)
    (runs : List Segment) : Prop where
  length_eq : chunks.length = runs.length
  chunkId_eq : ∀ (i : ℕ) (chunk : DocumentChunk), chunks[i]? = some chunk →
    chunk.chunkId = parentKey ++ ":chunk_" ++ toString i
  content_eq : ∀ (i : ℕ) (chunk : DocumentChunk) (run : Segment), chunks[i]? = some chunk →
    runs[i]? = some run → chunk.content = .ofList (stripChars (joinLines (run.items lines)))
  bounds : ∀ run ∈ runs, run.start < run.stop ∧ run.stop ≤ lines.length
  sorted : runs.Pairwise fun run run' => run.start ≤ run'.start ∧ run.stop ≤ run'.stop
  exists_has : ∀ (i : ℕ) (line : List Char), lines[i]? = some line → isBlank line = false →
    ∃ run ∈ runs, run.Has i

/-- A single chunk of all lines covers them. -/
lemma covers_singleton {parentKey : String} {lines : List (List Char)} {chunk : DocumentChunk}
    (hpos : 0 < lines.length) (hid : chunk.chunkId = parentKey ++ ":chunk_0")
    (hcontent : chunk.content = .ofList (stripChars (joinLines lines))) :
    Covers parentKey lines [chunk] [⟨0, lines.length⟩] := by
  refine ⟨rfl, ?_, ?_, ?_, List.pairwise_singleton _ _, ?_⟩
  · intro i chunk' hchunk
    rcases i with _ | i
    · obtain rfl := Option.some.inj hchunk
      have hzero : ":chunk_0" = ":chunk_" ++ toString 0 := by decide
      rw [hid, hzero, String.append_assoc]
    · cases hchunk
  · intro i chunk' run hchunk hrun
    rcases i with _ | i
    · obtain rfl := Option.some.inj hchunk
      obtain rfl := Option.some.inj hrun
      rw [hcontent, Segment.items, List.take_length, List.drop_zero]
    · cases hchunk
  · intro run hrun
    obtain rfl := List.mem_singleton.mp hrun
    exact ⟨hpos, le_rfl⟩
  · intro i line hline _
    have hlt := (List.getElem?_eq_some_iff.mp hline).1
    exact ⟨_, List.mem_singleton_self _, Nat.zero_le i, hlt⟩

namespace MarkdownChunker

variable (self : MarkdownChunker) (parentKey : String) {markdownText : String}

/-- The loop has read all lines. -/
lemma follows_documentLines (lines : List (List Char)) :
    (lines.foldl (ChunkTrace.step self parentKey) {}).Follows lines ∧
      (lines.foldl (ChunkTrace.step self parentKey) {}).pos = lines.length := by
  constructor
  · exact (follows_nil lines).foldl_step self parentKey List.prefix_rfl
  · rw [foldl_step_pos]
    exact Nat.zero_add _

/-- The flushes of a document. -/
lemma of_mem_flushPoints {p : FlushPoint} (hp : p ∈ self.flushPoints parentKey markdownText) :
    p.Of (documentLines markdownText) := by
  obtain ⟨hfollows, hpos⟩ := follows_documentLines self parentKey (documentLines markdownText)
  rw [flushPoints] at hp
  split_ifs at hp
  · apply flush_of self parentKey hfollows.segmented hfollows.points_of _ _ (fun _ => hpos) p hp
    · intro hfinal
      exact absurd rfl hfinal
    · intro hheading
      cases hheading
  · cases hp

lemma chunkRuns_of_isLarge (h : self.IsLarge markdownText) :
    self.chunkRuns parentKey markdownText =
      (self.flushPoints parentKey markdownText).map FlushPoint.segment := by
  rw [chunkRuns, if_neg fun hnil => not_isLarge_of_eq_nil self hnil h, if_pos h]

/-- The chunks and the runs come from the same flushes. -/
lemma exists_flushPoint (h : self.IsLarge markdownText) {i : ℕ}
    {chunk : DocumentChunk} {run : Segment}
    (hchunk : (self.chunkDocument parentKey markdownText)[i]? = some chunk)
    (hrun : (self.chunkRuns parentKey markdownText)[i]? = some run) :
    ∃ p, (self.flushPoints parentKey markdownText)[i]? = some p ∧ chunk = p.chunk parentKey ∧
      run = p.segment := by
  rw [chunkDocument_eq self h, List.getElem?_map, Option.map_eq_some_iff] at hchunk
  obtain ⟨p, hp, rfl⟩ := hchunk
  rw [chunkRuns_of_isLarge self parentKey h, List.getElem?_map, hp] at hrun
  exact ⟨p, hp, rfl, (Option.some.inj hrun).symm⟩

/-- Each flush is that of a chunk and its run. -/
lemma getElem?_of_flushPoint (h : self.IsLarge markdownText) {i : ℕ}
    {p : FlushPoint} (hp : (self.flushPoints parentKey markdownText)[i]? = some p) :
    (self.chunkDocument parentKey markdownText)[i]? = some (p.chunk parentKey) ∧
      (self.chunkRuns parentKey markdownText)[i]? = some p.segment := by
  rw [chunkDocument_eq self h, chunkRuns_of_isLarge self parentKey h, List.getElem?_map,
    List.getElem?_map, hp]
  exact ⟨rfl, rfl⟩

/-- **The chunks are made of the runs.** -/
lemma madeOfRuns (markdownText : String) : self.MadeOfRuns parentKey markdownText := by
  by_cases hempty : stripChars markdownText.toList = []
  · rw [MadeOfRuns, chunkDocument, if_pos hempty, chunkRuns, if_pos hempty]
    rfl
  by_cases hlarge : self.IsLarge markdownText
  · rw [MadeOfRuns, chunkDocument_eq self hlarge, chunkRuns_of_isLarge self parentKey hlarge,
      List.map_map, List.map_map]
    apply List.map_congr_left
    intro p hp
    have hitems := (of_mem_flushPoints self parentKey hp).items_eq
    rw [Function.comp_apply, Function.comp_apply, runText, if_pos hlarge, hitems]
    rfl
  · rw [MadeOfRuns, chunkDocument, if_neg hempty, if_pos (not_lt.mp hlarge), chunkRuns,
      if_neg hempty, if_neg hlarge, List.map_singleton, List.map_singleton, runText, if_neg hlarge]

/-- Each run is that of a chunk. -/
lemma exists_chunk_of_run {i : ℕ} {run : Segment}
    (hrun : (self.chunkRuns parentKey markdownText)[i]? = some run) :
    ∃ chunk, (self.chunkDocument parentKey markdownText)[i]? = some chunk ∧
      chunk.content = .ofList (stripChars (self.runText markdownText run)) := by
  have hi := congrArg (fun contents => contents[i]?) (madeOfRuns self parentKey markdownText)
  simp only [List.getElem?_map, hrun, Option.map_some] at hi
  exact Option.map_eq_some_iff.mp hi

/-- **The chunks of a large document** cover it. -/
lemma covers_of_isLarge (h : self.IsLarge markdownText) :
    Covers parentKey (documentLines markdownText) (self.chunkDocument parentKey markdownText)
      (self.chunkRuns parentKey markdownText) := by
  obtain ⟨hfollows, hpos⟩ := follows_documentLines self parentKey (documentLines markdownText)
  have hfinish := flush_segmented self parentKey .final hfollows.segmented
  have hnumbered := numbered_finish self parentKey (documentLines markdownText)
  have hruns : self.chunkRuns parentKey markdownText =
      (ChunkTrace.finish self parentKey {} (documentLines markdownText)).collector.emitted := by
    rw [chunkRuns_of_isLarge self parentKey h, flushPoints_of_isLarge self parentKey h,
      ChunkTrace.collector]
  refine ⟨?_, ?_, ?_, ?_, ?_, ?_⟩
  · rw [chunkDocument_eq self h, chunkRuns_of_isLarge self parentKey h, List.length_map,
      List.length_map]
  · intro i chunk hchunk
    rw [chunkDocument_eq self h, List.getElem?_map, Option.map_eq_some_iff] at hchunk
    obtain ⟨p, hp, rfl⟩ := hchunk
    rw [flushPoints_of_isLarge self parentKey h] at hp
    rw [FlushPoint.chunk, hnumbered.idx_eq i p hp]
  · intro i chunk run hchunk hrun
    obtain ⟨p, hp, rfl, rfl⟩ := exists_flushPoint self parentKey h hchunk hrun
    rw [(of_mem_flushPoints self parentKey (List.mem_of_getElem? hp)).items_eq]
    rfl
  · intro run hrun
    rw [hruns] at hrun
    obtain ⟨hlt, -, hstop⟩ := hfinish.bounded run hrun
    exact ⟨hlt, hstop.trans hfinish.pos_le⟩
  · rw [hruns]
    exact hfinish.sorted
  · intro i line hline hblank
    rw [hruns, ChunkTrace.finish, flush_collector]
    exact hfollows.segmented.exists_has ((ChunkTrace.collector_pos _).trans hpos) _ hline hblank

/-- A document whose only line breaks are line feeds is its joined lines. -/
lemma joinLines_documentLines
    (hbreak : ∀ c ∈ markdownText.toList, isLineBreak c = true → c = '\n') :
    joinLines (documentLines markdownText) = stripChars markdownText.toList := by
  apply intercalate_splitLines
  · intro c hc
    exact hbreak c (mem_of_mem_stripChars hc)
  · intro hlast
    have hnot := getLast?_stripChars hlast
    cases hnot

/-- **The chunks of a document cover it**, if its only line breaks are line feeds. -/
theorem chunkDocument_covers
    (hbreak : ∀ c ∈ markdownText.toList, isLineBreak c = true → c = '\n') :
    Covers parentKey (documentLines markdownText) (self.chunkDocument parentKey markdownText)
      (self.chunkRuns parentKey markdownText) := by
  by_cases hempty : stripChars markdownText.toList = []
  · have hlines : documentLines markdownText = [] := by
      rw [documentLines, hempty]
      rfl
    rw [chunkDocument, if_pos hempty, chunkRuns, if_pos hempty, hlines]
    refine ⟨rfl, ?_, ?_, ?_, .nil, ?_⟩
    · intro i chunk hchunk
      cases hchunk
    · intro i chunk run hchunk
      cases hchunk
    · intro run hrun
      cases hrun
    · intro i line hline
      cases hline
  by_cases hlarge : self.IsLarge markdownText
  · exact covers_of_isLarge self parentKey hlarge
  · have hjoined := joinLines_documentLines hbreak
    have hpos : 0 < (documentLines markdownText).length := by
      apply List.length_pos_of_ne_nil
      rintro hnil
      rw [hnil] at hjoined
      exact hempty hjoined.symm
    rw [chunkDocument, if_neg hempty, if_pos (not_lt.mp hlarge), chunkRuns, if_neg hempty,
      if_neg hlarge]
    apply covers_singleton hpos rfl
    rw [hjoined, stripChars_stripChars]

/-- A document with a heading, a code block and a second heading. -/
def guide : List Char :=
  "# A\n".toList ++ List.replicate 210 'x' ++ "\n```\n".toList ++ List.replicate 210 'y' ++
    "\n```\n# B\n".toList ++ List.replicate 110 'z' ++ "\n# C\nw".toList

theorem chunkDocument_covers_guide :
    Covers "doc" (documentLines (.ofList guide)) ((new 50 10).chunkDocument "doc" (.ofList guide))
      ((new 50 10).chunkRuns "doc" (.ofList guide)) :=
  chunkDocument_covers (new 50 10) "doc" (by
    rw [String.toList_ofList, ← List.forall_iff_forall_mem]
    decide +kernel)

/-! ## Code blocks are not cut -/

/-- A flush does not end in a closed block. -/
lemma lt_pos_of_closedBlock {lines : List (List Char)} {a b : ℕ} (h : ClosedBlock lines a b)
    {p : FlushPoint} (hp : p.Of lines) (ha : a < p.pos) : b < p.pos := by
  by_contra hb
  obtain ⟨line, hline, hfence⟩ := h.opening
  have hlength : b < lines.length := by
    obtain ⟨line', hline', -⟩ := h.closing
    exact (List.getElem?_eq_some_iff.mp hline').1
  have hkind : p.kind ≠ .final := by
    intro hfinal
    have hpos := hp.final hfinal
    omega
  -- the opening fence is the only one in front of the flush that is not closed
  have hopened := fencesBefore_succ hline
  rw [if_pos hfence] at hopened
  have hleft : fencesBefore lines (a + 1) ≤ fencesBefore lines p.pos := fencesBefore_mono ha
  have hright : fencesBefore lines p.pos ≤ fencesBefore lines b := fencesBefore_mono (not_lt.mp hb)
  have hnext := h.next
  have hbefore := h.outside
  have hafter := hp.outside hkind
  simp only [insideCodeBlock, beq_eq_false_iff_ne] at hbefore hafter
  omega

/-- **A closed code block lies in the run of a chunk.** -/
theorem exists_run_of_closedBlock {a b : ℕ} (h : ClosedBlock (documentLines markdownText) a b) :
    ∃ (i : ℕ) (chunk : DocumentChunk) (run : Segment),
      (self.chunkDocument parentKey markdownText)[i]? = some chunk ∧
        (self.chunkRuns parentKey markdownText)[i]? = some run ∧
        chunk.content = .ofList (stripChars (self.runText markdownText run)) ∧
        run.start ≤ a ∧ b < run.stop := by
  obtain ⟨line, hline, hfence⟩ := h.opening
  have hblank := isBlank_of_isCodeFence hfence
  have hlength : b < (documentLines markdownText).length := by
    obtain ⟨line', hline', -⟩ := h.closing
    exact (List.getElem?_eq_some_iff.mp hline').1
  have hruns : ∃ (i : ℕ) (run : Segment), (self.chunkRuns parentKey markdownText)[i]? = some run ∧
      run.start ≤ a ∧ b < run.stop := by
    by_cases hlarge : self.IsLarge markdownText
    · obtain ⟨run, hrun, hstart, hstop⟩ :=
        (covers_of_isLarge self parentKey hlarge).exists_has a line hline hblank
      obtain ⟨i, hi⟩ := List.getElem?_of_mem hrun
      refine ⟨i, run, hi, hstart, ?_⟩
      rw [chunkRuns_of_isLarge self parentKey hlarge] at hrun
      obtain ⟨p, hp, rfl⟩ := List.mem_map.mp hrun
      exact lt_pos_of_closedBlock h (of_mem_flushPoints self parentKey hp) hstop
    · have hempty : stripChars markdownText.toList ≠ [] := by
        intro hempty
        rw [documentLines, hempty] at hline
        cases hline
      rw [chunkRuns, if_neg hempty, if_neg hlarge]
      exact ⟨0, ⟨0, (documentLines markdownText).length⟩, rfl, Nat.zero_le a, hlength⟩
  obtain ⟨i, run, hrun, hbounds⟩ := hruns
  obtain ⟨chunk, hchunk, hcontent⟩ := exists_chunk_of_run self parentKey hrun
  exact ⟨i, chunk, run, hchunk, hrun, hcontent, hbounds⟩

lemma closedBlock_guide : ClosedBlock (documentLines (.ofList guide)) 2 4 := by
  rw [documentLines_ofList]
  exact ⟨⟨"```".toList, by decide +kernel, rfl⟩, by decide +kernel,
    ⟨"```".toList, by decide +kernel, rfl⟩, by decide +kernel⟩

theorem exists_run_of_closedBlock_guide :
    ∃ (i : ℕ) (chunk : DocumentChunk) (run : Segment),
      ((new 50 10).chunkDocument "doc" (.ofList guide))[i]? = some chunk ∧
        ((new 50 10).chunkRuns "doc" (.ofList guide))[i]? = some run ∧
        chunk.content = .ofList (stripChars ((new 50 10).runText (.ofList guide) run)) ∧
        run.start ≤ 2 ∧ 4 < run.stop :=
  exists_run_of_closedBlock (new 50 10) "doc" closedBlock_guide

end MarkdownChunker

end KacheDB
