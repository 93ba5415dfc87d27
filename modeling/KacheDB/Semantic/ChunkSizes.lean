import KacheDB.Semantic.ChunkBudget

/-!
# The size of the chunks

Every chunk of a large document but the last has at least half of the target size.  On the other
side the chunker flushes as soon as it may: a part of a run that goes beyond the chunks before it
and ends outside code blocks has fewer tokens than the target size (`chunkDocument_sized`).  So a
chunk exceeds the target size by no more than its last line, unless a code block or the overlap
makes it longer.

Two chunks share no more lines than the overlap takes, and none without an overlap
(`chunkRuns_overlapsWithin`).
-/

namespace KacheDB

open Foundation

namespace MarkdownChunker

variable (self : MarkdownChunker) (lines : List (List Char))

/-- The lines from `start` on are too few for a flush by size wherever they end behind the flushes
so far, in front of `stop` and outside code blocks. -/
def Unfilled (points : List FlushPoint) (start stop : ℕ) : Prop :=
  ∀ m, start < m → m < stop → (∀ p ∈ points, p.pos < m) → insideCodeBlock lines m = false →
    estimateTokens (joinLines (Segment.items ⟨start, m⟩ lines)) < self.targetSize

/-- The sizes of the chunks that are made of these runs. -/
structure Sized (chunks : List DocumentChunk) (runs : List Segment) : Prop where
  half_le : ∀ (i : ℕ) (run : Segment), runs[i]? = some run → i + 1 < runs.length →
    self.targetSize / 2 ≤ estimateTokens (joinLines (run.items lines))
  lt_targetSize : ∀ (i : ℕ) (run : Segment) (m : ℕ), runs[i]? = some run → run.start < m →
    m < run.stop → (∀ run' ∈ runs.take i, run'.stop < m) → insideCodeBlock lines m = false →
    estimateTokens (joinLines (Segment.items ⟨run.start, m⟩ lines)) < self.targetSize
  tokenCount_le : ∀ (i : ℕ) (chunk : DocumentChunk) (run : Segment) (n : ℕ) (line : List Char),
    chunks[i]? = some chunk → runs[i]? = some run → run.stop = n + 1 → lines[n]? = some line →
    run.start < n → (∀ run' ∈ runs.take i, run'.stop < n) → insideCodeBlock lines n = false →
    chunk.tokenCount ≤ self.targetSize + estimateTokens line

/-- What these runs of lines share. -/
structure OverlapsWithin (runs : List Segment) : Prop where
  load_le : ∀ (i j : ℕ) (run run' : Segment), i < j → runs[i]? = some run →
    runs[j]? = some run' →
    (load estimateTokens (Segment.items ⟨run'.start, run.stop⟩ lines) : ℤ) ≤ max self.overlap 0
  existsUnique_has : self.overlap ≤ 0 → ∀ (n : ℕ) (line : List Char), lines[n]? = some line →
    isBlank line = false → ∃! i : ℕ, ∃ run : Segment, runs[i]? = some run ∧ run.Has n

end MarkdownChunker

/-- What the loop keeps: the flushes, and the lines that are collected in front of `stop`, have
been too short for an earlier flush. -/
structure ChunkTrace.Tight (chunker : MarkdownChunker) (lines : List (List Char)) (t : ChunkTrace)
    (stop : ℕ) : Prop where
  pos_le : ∀ p ∈ t.points, p.pos ≤ t.pos
  collected : chunker.Unfilled lines t.points t.collector.segment.start stop
  flushed : ∀ (i : ℕ) (p : FlushPoint), t.points[i]? = some p →
    chunker.Unfilled lines (t.points.take i) p.segment.start p.pos

section Sizes

open MarkdownChunker ChunkTrace

variable (self : MarkdownChunker) (parentKey : String)
variable {lines : List (List Char)} {line : List Char} {t : ChunkTrace} {kind : FlushKind}

/-! ## The loop -/

lemma tight_nil (lines : List (List Char)) : ChunkTrace.Tight self lines {} 1 where
  pos_le _ hp := absurd hp List.not_mem_nil
  collected m hm hlt := absurd hlt (Nat.not_lt.mpr hm)
  flushed _ _ hp := by cases hp

/-- Whatever is collected, a flush leaves nothing that could have been flushed before. -/
lemma ChunkTrace.Tight.flush (h : t.Tight self lines t.pos) (kind : FlushKind) :
    (flush self parentKey kind t).Tight self lines (t.pos + 1) := by
  by_cases hblank : t.state.currentLines.all isBlank = true
  · have hpoints := flush_points_of_blank self parentKey kind hblank
    refine ⟨?_, ?_, ?_⟩
    · rw [hpoints, flush_pos]
      exact h.pos_le
    · intro m hm hlt
      rw [collector, flush_state, flush_pos, flushCurrentChunk_of_blank _ _ hblank,
        Collector.segment] at hm
      exact absurd hlt (Nat.not_lt.mpr hm)
    · rw [hpoints]
      exact h.flushed
  · have hpoints := flush_points self parentKey kind hblank
    refine ⟨?_, ?_, ?_⟩
    · rw [hpoints, flush_pos]
      intro p hp
      rcases List.mem_append.mp hp with hp | hp
      · exact h.pos_le p hp
      · obtain rfl := List.mem_singleton.mp hp
        exact le_rfl
    · -- nothing goes beyond this flush
      intro m _ hlt hbehind
      have hpos := hbehind ⟨kind, t.pos, t.state⟩ (by rw [hpoints]; simp)
      exact absurd hlt (Nat.not_lt.mpr hpos)
    · intro i p hp
      rw [hpoints] at hp ⊢
      rcases Nat.lt_trichotomy i t.points.length with hlt | rfl | hgt
      · rw [List.getElem?_append_left hlt] at hp
        rw [List.take_append_of_le_length hlt.le]
        exact h.flushed i p hp
      · rw [List.getElem?_concat_length] at hp
        obtain rfl := Option.some.inj hp
        rw [List.take_left']
        · exact h.collected
        · rfl
      · rw [List.getElem?_eq_none (by rw [List.length_append]; exact hgt)] at hp
        cases hp

/-- Less is asked of fewer lines. -/
lemma ChunkTrace.Tight.mono (h : t.Tight self lines (t.pos + 1)) : t.Tight self lines t.pos where
  pos_le := h.pos_le
  collected m hm hlt := h.collected m hm (hlt.trans (Nat.lt_succ_self _))
  flushed := h.flushed

lemma ChunkTrace.Tight.enter (h : t.Tight self lines (t.pos + 1)) (line : List Char) :
    (enter self parentKey t line).Tight self lines (t.pos + 1) := by
  have hentered : ChunkTrace.Tight self lines { t with state := entered t.state line }
      (t.pos + 1) := by
    refine ⟨h.pos_le, ?_, h.flushed⟩
    rw [entered_segment_start]
    exact h.collected
  rcases enter_cases self parentKey t line with henter | henter
  · rw [henter]
    exact hentered
  · rw [henter]
    exact hentered.mono.flush self parentKey .heading

lemma ChunkTrace.Tight.push (h : t.Tight self lines (t.pos + 1)) (line : List Char) :
    (t.push line).Tight self lines (t.push line).pos := by
  refine ⟨fun p hp => (h.pos_le p hp).trans (Nat.le_succ _), ?_, h.flushed⟩
  rw [push_segment_start]
  exact h.collected

/-- Lines that are not flushed behind a line are too short or end in a code block. -/
lemma ChunkTrace.Tight.settle (h : t.Tight self lines t.pos)
    (hsegmented : Collector.Segmented isBlank lines t.collector)
    (hcode : t.state.inCodeBlock = insideCodeBlock lines t.pos) :
    (settle self parentKey t).Tight self lines (t.pos + 1) := by
  rw [ChunkTrace.settle]
  by_cases hdue : self.SizeDue t.state
  · rw [if_pos hdue]
    exact h.flush self parentKey .size
  · rw [if_neg hdue]
    refine ⟨h.pos_le, ?_, h.flushed⟩
    intro m hm hlt hbehind houtside
    rcases Nat.lt_succ_iff_lt_or_eq.mp hlt with hlt | rfl
    · exact h.collected m hm hlt hbehind houtside
    · have hitems := hsegmented.items_eq
      rw [collector, Collector.segment] at hitems
      rw [collector, Collector.segment, hitems]
      by_contra hsize
      exact hdue ⟨not_lt.mp hsize, hcode.trans houtside⟩

/-- The step lemma. -/
lemma ChunkTrace.Tight.step (h : t.Tight self lines (t.pos + 1)) (hfollows : t.Follows lines)
    (hline : lines[t.pos]? = some line) :
    (step self parentKey t line).Tight self lines (t.pos + 2) := by
  have hpos := enter_pos self parentKey t line
  have hsegmented := push_segmented (enter_segmented self parentKey hfollows.segmented line)
    (hpos.symm ▸ hline)
  have hcode : ((ChunkTrace.enter self parentKey t line).push line).state.inCodeBlock =
      insideCodeBlock lines ((ChunkTrace.enter self parentKey t line).push line).pos := by
    rw [push_enter_pos, insideCodeBlock_succ hline, ← hfollows.inCodeBlock_eq]
    exact enter_inCodeBlock self parentKey
  have henter := h.enter self parentKey line
  rw [← hpos] at henter
  have hsettle := (henter.push self line).settle self parentKey hsegmented hcode
  rw [push_enter_pos] at hsettle
  exact hsettle

/-- The run lemma. -/
lemma ChunkTrace.Tight.foldl_step (h : t.Tight self lines (t.pos + 1)) (hfollows : t.Follows lines)
    {rest : List (List Char)} (hrest : rest <+: lines.drop t.pos) :
    (rest.foldl (ChunkTrace.step self parentKey) t).Tight self lines
      ((rest.foldl (ChunkTrace.step self parentKey) t).pos + 1) := by
  induction rest generalizing t with
  | nil => exact h
  | cons line rest ih =>
    obtain ⟨last, hlast⟩ := hrest
    have hline : lines[t.pos]? = some line := by
      rw [← List.head?_drop, ← hlast]
      rfl
    apply ih
    · rw [step_pos]
      exact h.step self parentKey hfollows hline
    · exact hfollows.step self parentKey hline
    · rw [step_pos, ← List.tail_drop, ← hlast]
      exact List.prefix_append rest last

/-! ## Token counts -/

/-- A longer text has no fewer tokens. -/
lemma estimateTokens_mono {text text' : List Char} (h : text.length ≤ text'.length) :
    estimateTokens text ≤ estimateTokens text' := by
  rcases eq_or_ne text [] with rfl | hne
  · exact Nat.zero_le _
  · have hpos := List.length_pos_of_ne_nil hne
    have hne' : text' ≠ [] := List.ne_nil_of_length_pos (hpos.trans_le h)
    rw [estimateTokens, estimateTokens, if_neg hne, if_neg hne']
    exact max_le_max le_rfl (Nat.div_le_div_right h)

lemma length_stripChars_le (cs : List Char) : (stripChars cs).length ≤ cs.length :=
  (List.rdropWhile_prefix _ _).length_le.trans (List.dropWhile_suffix _).length_le

/-- Lines that are too short for a flush have not many more tokens with one more line. -/
lemma estimateTokens_joinLines_concat_le {front : List (List Char)}
    (hfront : estimateTokens (joinLines front) < self.targetSize) (line : List Char) :
    estimateTokens (joinLines (front ++ [line])) ≤ self.targetSize + estimateTokens line := by
  have htarget := self.le_targetSize
  have hlt : (joinLines front).length < 4 * self.targetSize := by
    have hle : ((estimateTokens (joinLines front) : ℕ) : ℤ) ≤ (self.targetSize : ℤ) - 1 := by
      omega
    rw [estimateTokens_le_iff (by omega)] at hle
    omega
  have hlength : (joinLines (front ++ [line])).length ≤
      (joinLines front).length + 1 + line.length := by
    rw [length_joinLines, length_joinLines, List.map_append, List.sum_append, List.length_append]
    simp only [List.map_cons, List.map_nil, List.sum_cons, List.sum_nil, List.length_singleton]
    omega
  have hline : line.length < 4 * (estimateTokens line + 1) := by
    rcases eq_or_ne line [] with rfl | hne
    · exact Nat.zero_lt_succ _
    · exact (length_lt_of_ne_nil hne).2
  have hle : ((estimateTokens (joinLines (front ++ [line])) : ℕ) : ℤ) ≤
      (self.targetSize + estimateTokens line : ℕ) := by
    rw [estimateTokens_le_iff (by omega)]
    omega
  exact_mod_cast hle

/-! ## The flushes of a document -/

variable {markdownText : String}

/-- The flush of a run. -/
lemma exists_flushPoint_of_run (hlarge : self.IsLarge markdownText) {i : ℕ} {run : Segment}
    (hrun : (self.chunkRuns parentKey markdownText)[i]? = some run) :
    ∃ p, (self.flushPoints parentKey markdownText)[i]? = some p ∧ run = p.segment := by
  rw [chunkRuns_of_isLarge self parentKey hlarge, List.getElem?_map,
    Option.map_eq_some_iff] at hrun
  obtain ⟨p, hp, rfl⟩ := hrun
  exact ⟨p, hp, rfl⟩

/-- The flushes of a document have been too short before. -/
lemma unfilled_flushPoints (hlarge : self.IsLarge markdownText) {i : ℕ} {p : FlushPoint}
    (hp : (self.flushPoints parentKey markdownText)[i]? = some p) :
    self.Unfilled (documentLines markdownText)
      ((self.flushPoints parentKey markdownText).take i) p.segment.start p.pos := by
  have htight := (tight_nil self (documentLines markdownText)).foldl_step self parentKey
    (follows_nil _) List.prefix_rfl
  rw [flushPoints_of_isLarge self parentKey hlarge, finish] at hp ⊢
  exact (htight.mono.flush self parentKey .final).flushed i p hp

/-- A flush that is not the last one has at least half of the target size. -/
lemma half_le_of_flushPoint (hlarge : self.IsLarge markdownText) {p : FlushPoint}
    (hp : p ∈ self.flushPoints parentKey markdownText) (hkind : p.kind ≠ .final) :
    self.targetSize / 2 ≤ estimateTokens (joinLines p.state.currentLines) := by
  rcases (mem_flushPoints_iff self parentKey hlarge rfl).mp hp with
    ⟨n, line, -, ⟨hdue, -, rfl⟩ | ⟨hdue, -, rfl⟩⟩ | ⟨-, rfl⟩
  · rw [entered_currentLines]
    exact hdue.2.2.2
  · exact (Nat.div_le_self _ _).trans hdue.1
  · exact absurd rfl hkind

/-- **The sizes of the chunks of a large document.**  Every chunk but the last is made of at least
half of the target size.  No part of a chunk that goes beyond the chunks before it and ends outside
code blocks has the target size already.  So a chunk that goes beyond them by more than its last
line exceeds the target size by no more than this line, if the line does not stand in a code
block. -/
theorem MarkdownChunker.chunkDocument_sized (markdownText : String)
    (hlarge : self.IsLarge markdownText) :
    self.MadeOfRuns parentKey markdownText ∧
      self.Sized (documentLines markdownText) (self.chunkDocument parentKey markdownText)
        (self.chunkRuns parentKey markdownText) := by
  refine ⟨madeOfRuns self parentKey markdownText, ?_⟩
  have hunfilled : ∀ (i : ℕ) (run : Segment) (m : ℕ),
      (self.chunkRuns parentKey markdownText)[i]? = some run → run.start < m → m < run.stop →
      (∀ run' ∈ (self.chunkRuns parentKey markdownText).take i, run'.stop < m) →
      insideCodeBlock (documentLines markdownText) m = false →
      estimateTokens (joinLines (Segment.items ⟨run.start, m⟩ (documentLines markdownText))) <
        self.targetSize := by
    intro i run m hrun hm hlt hbehind houtside
    obtain ⟨p, hp, rfl⟩ := exists_flushPoint_of_run self parentKey hlarge hrun
    apply unfilled_flushPoints self parentKey hlarge hp m hm hlt _ houtside
    intro q hq
    apply hbehind q.segment
    rw [chunkRuns_of_isLarge self parentKey hlarge, ← List.map_take]
    exact List.mem_map_of_mem hq
  refine ⟨?_, hunfilled, ?_⟩
  · intro i run hrun hnext
    obtain ⟨p, hp, rfl⟩ := exists_flushPoint_of_run self parentKey hlarge hrun
    rw [(of_mem_flushPoints self parentKey (List.mem_of_getElem? hp)).items_eq]
    apply half_le_of_flushPoint self parentKey hlarge (List.mem_of_getElem? hp)
    -- nothing comes behind the last flush
    intro hfinal
    have hnone := getElem?_of_final self parentKey hlarge hp hfinal
    rw [chunkRuns_of_isLarge self parentKey hlarge, List.length_map] at hnext
    rw [List.getElem?_eq_getElem hnext] at hnone
    cases hnone
  · intro i chunk run n line hchunk hrun hstop hline hstart hbehind houtside
    have hfront := hunfilled i run n hrun hstart (hstop ▸ Nat.lt_succ_self n) hbehind houtside
    obtain ⟨p, hp, rfl, rfl⟩ := exists_flushPoint self parentKey hlarge hchunk hrun
    have hitems := (of_mem_flushPoints self parentKey (List.mem_of_getElem? hp)).items_eq
    have hlast : Segment.items p.segment (documentLines markdownText) =
        Segment.items ⟨p.segment.start, n⟩ (documentLines markdownText) ++ [line] := by
      rw [← Segment.items_succ hstart.le hline, ← hstop]
    calc (p.chunk parentKey).tokenCount
        ≤ estimateTokens (joinLines p.state.currentLines) :=
          estimateTokens_mono (length_stripChars_le _)
      _ ≤ self.targetSize + estimateTokens line := by
          rw [← hitems, hlast]
          exact estimateTokens_joinLines_concat_le self hfront line

/-- Two sections of 150 characters each. -/
theorem MarkdownChunker.chunkDocument_sized_shortLastLine :
    (new 50 10).IsLarge (.ofList shortLastLine) ∧
      (new 50 10).MadeOfRuns "doc" (.ofList shortLastLine) ∧
      (new 50 10).Sized (documentLines (.ofList shortLastLine))
        ((new 50 10).chunkDocument "doc" (.ofList shortLastLine))
        ((new 50 10).chunkRuns "doc" (.ofList shortLastLine)) :=
  have hlarge : (new 50 10).IsLarge (.ofList shortLastLine) :=
    (isLarge_ofList _ _).mpr (by decide +kernel)
  ⟨hlarge, chunkDocument_sized (new 50 10) "doc" (.ofList shortLastLine) hlarge⟩

/-! ## What chunks share -/

lemma load_carryOver_le (currentLines : List (List Char)) :
    (load estimateTokens (self.carryOver currentLines) : ℤ) ≤ max self.overlap 0 := by
  rcases eq_or_ne (self.carryOver currentLines) [] with hnil | hne
  · rw [hnil]
    exact le_max_right _ _
  · have hnot := (carryOver_eq_nil_iff self currentLines).not.mp hne
    rw [CarriesNothing, not_or, not_or, not_le, not_le] at hnot
    obtain ⟨hpos, hlength, -⟩ := hnot
    exact (isLongestWithin_carryOver self hpos hlength).load_le.trans (le_max_left _ _)

/-- The next flush begins with a line that has been carried over, or behind the last one. -/
lemma le_start_of_next (hlarge : self.IsLarge markdownText) {i : ℕ} {p q : FlushPoint}
    (hp : (self.flushPoints parentKey markdownText)[i]? = some p)
    (hq : (self.flushPoints parentKey markdownText)[i + 1]? = some q) :
    p.pos - (self.carryOver p.state.currentLines).length ≤ q.segment.start := by
  rcases hkind : p.kind with _ | _ | _
  · obtain ⟨q', hq', hstart, -⟩ := exists_next_of_heading self parentKey hlarge hp hkind
    obtain rfl := Option.some.inj (hq.symm.trans hq')
    exact hstart.ge
  · obtain ⟨t, -, hlength, hpos, hlines, -, hfinish⟩ :=
      exists_trace_of_size self parentKey hlarge hp hkind
    have hstart := (advances_finish self parentKey t
      ((documentLines markdownText).drop p.pos)).le_start (i + 1) q hlength.le
      (by rw [hfinish, hq])
    rw [collector, Collector.segment, hlines, hpos] at hstart
    exact hstart
  · rw [getElem?_of_final self parentKey hlarge hp hkind] at hq
    cases hq

/-- A later flush shares with a flush only lines that have been carried over. -/
lemma items_suffix_carryOver (hlarge : self.IsLarge markdownText) {i j : ℕ} {p q : FlushPoint}
    (hij : i < j) (hp : (self.flushPoints parentKey markdownText)[i]? = some p)
    (hq : (self.flushPoints parentKey markdownText)[j]? = some q) :
    Segment.items ⟨q.segment.start, p.pos⟩ (documentLines markdownText) <:+
      self.carryOver p.state.currentLines := by
  have hsorted := (covers_of_isLarge self parentKey hlarge).sorted
  rw [chunkRuns_of_isLarge self parentKey hlarge, List.pairwise_map] at hsorted
  obtain ⟨hj, rfl⟩ := List.getElem?_eq_some_iff.mp hq
  have hi : i + 1 < (self.flushPoints parentKey markdownText).length := lt_of_le_of_lt hij hj
  have hstart := le_start_of_next self parentKey hlarge hp (List.getElem?_eq_getElem hi)
  have hmono : ((self.flushPoints parentKey markdownText)[i + 1]).segment.start ≤
      ((self.flushPoints parentKey markdownText)[j]).segment.start := by
    rcases Nat.eq_or_lt_of_le (Nat.succ_le_of_lt hij) with rfl | hlt
    · exact le_rfl
    · exact (List.pairwise_iff_getElem.mp hsorted (i + 1) j hi hj hlt).1
  have hkept : self.carryOver p.state.currentLines <:+
      p.segment.items (documentLines markdownText) := by
    rw [(of_mem_flushPoints self parentKey (List.mem_of_getElem? hp)).items_eq]
    exact carryOver_suffix self _
  exact Segment.items_suffix hkept (hstart.trans hmono)

/-- **What the chunks of a document share.**  The estimates of the lines that two of its chunks
share add up to no more than the overlap.  Without an overlap, every line that is not blank stands
in one chunk alone. -/
theorem MarkdownChunker.chunkRuns_overlapsWithin (markdownText : String) :
    self.MadeOfRuns parentKey markdownText ∧
      self.OverlapsWithin (documentLines markdownText)
        (self.chunkRuns parentKey markdownText) := by
  refine ⟨madeOfRuns self parentKey markdownText, ?_⟩
  by_cases hlarge : self.IsLarge markdownText
  · have hshared {i j : ℕ} {run run' : Segment} (hij : i < j)
        (hrun : (self.chunkRuns parentKey markdownText)[i]? = some run)
        (hrun' : (self.chunkRuns parentKey markdownText)[j]? = some run') :
        ∃ currentLines, Segment.items ⟨run'.start, run.stop⟩ (documentLines markdownText) <:+
          self.carryOver currentLines := by
      obtain ⟨p, hp, rfl⟩ := exists_flushPoint_of_run self parentKey hlarge hrun
      obtain ⟨q, hq, rfl⟩ := exists_flushPoint_of_run self parentKey hlarge hrun'
      exact ⟨_, items_suffix_carryOver self parentKey hlarge hij hp hq⟩
    refine ⟨?_, ?_⟩
    · intro i j run run' hij hrun hrun'
      obtain ⟨currentLines, hsuffix⟩ := hshared hij hrun hrun'
      have hle := load_le_of_suffix estimateTokens hsuffix
      exact (Int.ofNat_le.mpr hle).trans (load_carryOver_le self currentLines)
    · intro hoverlap n line hline hblank
      -- a line of two chunks would have been carried over
      have hdisjoint {i j : ℕ} {run run' : Segment} (hij : i < j)
          (hrun : (self.chunkRuns parentKey markdownText)[i]? = some run)
          (hrun' : (self.chunkRuns parentKey markdownText)[j]? = some run') (hn : run.Has n)
          (hn' : run'.Has n) : False := by
        obtain ⟨currentLines, hsuffix⟩ := hshared hij hrun hrun'
        rw [(carryOver_eq_nil_iff self currentLines).mpr (Or.inl hoverlap),
          List.suffix_nil] at hsuffix
        have hmem := Segment.mem_items_of_has (g := ⟨run'.start, run.stop⟩) ⟨hn'.1, hn.2⟩ hline
        rw [hsuffix] at hmem
        exact List.not_mem_nil hmem
      obtain ⟨run, hrun, hhas⟩ :=
        (covers_of_isLarge self parentKey hlarge).exists_has n line hline hblank
      obtain ⟨i, hi⟩ := List.getElem?_of_mem hrun
      refine ⟨i, ⟨run, hi, hhas⟩, ?_⟩
      rintro j ⟨run', hj, hhas'⟩
      rcases Nat.lt_trichotomy i j with hlt | rfl | hgt
      · exact (hdisjoint hlt hi hj hhas hhas').elim
      · rfl
      · exact (hdisjoint hgt hj hi hhas' hhas).elim
  · -- a small document has one chunk
    have hsingle {i : ℕ} {run : Segment}
        (hrun : (self.chunkRuns parentKey markdownText)[i]? = some run) : i = 0 := by
      have hlt := (List.getElem?_eq_some_iff.mp hrun).1
      rw [chunkRuns] at hlt
      split_ifs at hlt
      · cases hlt
      · exact Nat.lt_one_iff.mp hlt
    refine ⟨?_, ?_⟩
    · intro i j run run' hij hrun hrun'
      rw [hsingle hrun'] at hij
      cases hij
    · intro _ n line hline _
      have hempty : stripChars markdownText.toList ≠ [] := by
        intro hempty
        rw [documentLines, hempty] at hline
        cases hline
      refine ⟨0, ⟨⟨0, (documentLines markdownText).length⟩, ?_, ?_⟩, ?_⟩
      · rw [chunkRuns, if_neg hempty, if_neg hlarge]
        rfl
      · exact ⟨Nat.zero_le n, (List.getElem?_eq_some_iff.mp hline).1⟩
      · rintro j ⟨run, hrun, -⟩
        exact hsingle hrun

end Sizes

end KacheDB
