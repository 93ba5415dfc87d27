import KacheDB.Semantic.ChunkNext

/-!
# The overlap of the chunks

The lines that a flush carries over begin the next chunk.  After a flush in front of a heading they
belong to the section before (`sectionsApart_iff`), and after a flush by size they may be all that
is left for the next chunk (`noRedundantChunk_iff`).
-/

namespace KacheDB

open Foundation

namespace MarkdownChunker

variable (self : MarkdownChunker) (parentKey : String)

/-- The overlap loop keeps none of these lines. -/
def CarriesNothing (currentLines : List (List Char)) : Prop :=
  self.overlap ≤ 0 ∨ currentLines.length ≤ 1 ∨
    ∀ line ∈ currentLines.getLast?, self.overlap < estimateTokens line

/-- If this is a flush by size that carries over lines that are not blank, then they do not run
dry. -/
def RunsOn (lines : List (List Char)) (p : FlushPoint) : Prop :=
  p.kind = .size → (self.carryOver p.state.currentLines).all isBlank = true ∨
    ¬ self.RunsDry (self.carryOver p.state.currentLines) (lines.drop p.pos)

/-- The chunk behind a flush in front of a heading begins with this heading. -/
def SectionsApart (markdownText : String) : Prop :=
  ∀ (i : ℕ) (p : FlushPoint), (self.flushPoints parentKey markdownText)[i]? = some p →
    p.kind = .heading →
    ∃ run, (self.chunkRuns parentKey markdownText)[i + 1]? = some run ∧ run.start = p.pos

/-- Each chunk but the first has a line that is not blank and that comes behind the chunk before. -/
def NoRedundantChunk (markdownText : String) : Prop :=
  ∀ (i : ℕ) (run run' : Segment), (self.chunkRuns parentKey markdownText)[i]? = some run →
    (self.chunkRuns parentKey markdownText)[i + 1]? = some run' →
    ∃ (j : ℕ) (line : List Char), run.stop ≤ j ∧ run'.Has j ∧
      (documentLines markdownText)[j]? = some line ∧ isBlank line = false

end MarkdownChunker

section Overlap

open MarkdownChunker ChunkTrace

variable (self : MarkdownChunker) (parentKey : String)

/-! ## What is carried over -/

/-- The overlap loop keeps what it has kept. -/
lemma overlapLines_ne_nil (overlap : ℤ) (accumTokens : ℕ) {kept : List (List Char)}
    (hkept : kept ≠ []) (rest : List (List Char)) :
    overlapLines overlap accumTokens kept rest ≠ [] := by
  induction rest generalizing accumTokens kept with
  | nil => exact hkept
  | cons line rest ih =>
    rw [overlapLines]
    split_ifs
    · exact hkept
    · exact ih _ (List.cons_ne_nil _ _)

lemma carryOver_eq_nil_iff (currentLines : List (List Char)) :
    self.carryOver currentLines = [] ↔ self.CarriesNothing currentLines := by
  rw [carryOver, CarriesNothing]
  split_ifs with h
  · obtain ⟨hoverlap, hlength⟩ := h
    rw [or_iff_right (not_le.mpr hoverlap), or_iff_right (not_le.mpr hlength)]
    rcases List.eq_nil_or_concat currentLines with rfl | ⟨front, line, rfl⟩
    · cases hlength
    · rw [List.concat_eq_append, List.reverse_append, List.reverse_singleton,
        List.singleton_append, overlapLines, List.getLast?_append]
      simp only [List.getLast?_singleton, Option.some_or, Option.mem_def, Option.some.injEq,
        forall_eq']
      split_ifs with hsize
      · simpa using hsize
      · apply iff_of_false (overlapLines_ne_nil _ _ (List.cons_ne_nil _ _) _)
        simpa using hsize
  · apply iff_of_true rfl
    rw [not_and_or, not_lt, not_lt] at h
    rcases h with h | h
    · exact Or.inl h
    · exact Or.inr (Or.inl h)

variable {markdownText : String} {i : ℕ} {p q : FlushPoint} {t : ChunkTrace}

/-- There are not more lines than have been collected. -/
lemma FlushPoint.Of.length_le {lines : List (List Char)} (h : p.Of lines) :
    p.state.currentLines.length ≤ p.pos := by
  rw [← h.items_eq, Segment.items, List.length_drop]
  exact (Nat.sub_le _ _).trans (List.length_take_le _ _)

/-! ## The trace behind a flush -/

/-- The loop goes on from the trace after so many lines. -/
lemma finish_traceAfter (lines : List (List Char)) (n : ℕ) :
    finish self parentKey (self.traceAfter parentKey lines n) (lines.drop n) =
      finish self parentKey {} lines := by
  rw [finish, finish, traceAfter, ← List.foldl_append, List.take_append_drop]

/-- The place of a flush in a trace is its place in the document. -/
lemma index_eq (hlarge : self.IsLarge markdownText) {rest : List (List Char)} {k : ℕ}
    (hfinish : (finish self parentKey t rest).points = self.flushPoints parentKey markdownText)
    (hk : t.points[k]? = some p)
    (hp : (self.flushPoints parentKey markdownText)[i]? = some p) : k = i := by
  have hnumbered := numbered_finish self parentKey (documentLines markdownText)
  have hlast := getElem?_finish self parentKey rest hk
  rw [hfinish] at hlast
  rw [flushPoints_of_isLarge self parentKey hlarge] at hp hlast
  exact (hnumbered.idx_eq k p hlast).symm.trans (hnumbered.idx_eq i p hp)

/-- A turn of the loop that ends with a flush. -/
lemma traceAfter_succ_of_sizeDue {lines : List (List Char)} {line : List Char} {n : ℕ}
    (hline : lines[n]? = some line)
    (hdue : self.SizeDue (self.collected parentKey (self.stateAfter parentKey lines n) line)) :
    ∃ u : ChunkTrace,
      u.state = self.collected parentKey (self.stateAfter parentKey lines n) line ∧
        u.pos = n + 1 ∧
        self.traceAfter parentKey lines (n + 1) = flush self parentKey .size u := by
  have hn := (List.getElem?_eq_some_iff.mp hline).1
  have hstate : ((enter self parentKey (self.traceAfter parentKey lines n) line).push
      line).state = self.collected parentKey (self.stateAfter parentKey lines n) line := by
    rw [push_enter_state, traceAfter_state]
  refine ⟨(enter self parentKey (self.traceAfter parentKey lines n) line).push line, hstate, ?_, ?_⟩
  · rw [push_enter_pos, traceAfter_pos self parentKey hn.le]
  · rw [traceAfter_succ self parentKey hline, step, takeLine, settle]
    exact if_pos (hstate ▸ hdue)

/-- A turn of the loop that begins with a flush. -/
lemma enter_traceAfter_of_sectionDue {lines : List (List Char)} {line : List Char} {n : ℕ}
    (hn : n ≤ lines.length) (hdue : self.SectionDue (self.stateAfter parentKey lines n) line)
    (hblank : ¬ (self.stateAfter parentKey lines n).currentLines.all isBlank = true) :
    (enter self parentKey (self.traceAfter parentKey lines n) line).points =
        (self.traceAfter parentKey lines n).points ++
          [⟨.heading, n, entered (self.stateAfter parentKey lines n) line⟩] ∧
      (enter self parentKey (self.traceAfter parentKey lines n) line).state.currentLines =
        self.carryOver (entered (self.stateAfter parentKey lines n) line).currentLines := by
  have hnot : ¬ (entered (self.stateAfter parentKey lines n) line).currentLines.all isBlank =
      true := by
    rwa [entered_currentLines]
  rw [enter, traceAfter_state, if_pos hdue, flush_points self parentKey .heading hnot, flush_state,
    flushCurrentChunk_of_not_blank _ _ hnot .heading n, traceAfter_pos self parentKey hn]
  exact ⟨rfl, rfl⟩

/-- **Behind a flush by size** the loop goes on with the lines that are carried over. -/
lemma exists_trace_of_size (hlarge : self.IsLarge markdownText)
    (hp : (self.flushPoints parentKey markdownText)[i]? = some p) (hkind : p.kind = .size) :
    ∃ t : ChunkTrace, t.Follows (documentLines markdownText) ∧
      t.points.length = i + 1 ∧ t.pos = p.pos ∧
      t.state.currentLines = self.carryOver p.state.currentLines ∧ t.state.inCodeBlock = false ∧
      (finish self parentKey t ((documentLines markdownText).drop p.pos)).points =
        self.flushPoints parentKey markdownText := by
  rcases (mem_flushPoints_iff self parentKey hlarge rfl).mp (List.mem_of_getElem? hp) with
    ⟨n, line, hline, ⟨-, -, rfl⟩ | ⟨hdue, hblank, rfl⟩⟩ | ⟨-, rfl⟩
  · cases hkind
  · obtain ⟨u, hstate, hpos, hstep⟩ := traceAfter_succ_of_sizeDue self parentKey hline hdue
    rw [← hstate] at hblank
    have hflushed := flush_points self parentKey .size hblank
    have hfinish := congrArg ChunkTrace.points
      (finish_traceAfter self parentKey (documentLines markdownText) (n + 1))
    rw [hstep, ← flushPoints_of_isLarge self parentKey hlarge] at hfinish
    -- the flush is the last of the trace behind it
    have hlength : u.points.length = i := by
      apply index_eq self parentKey hlarge hfinish _ hp
      rw [hflushed, List.getElem?_concat_length, hpos, hstate]
    refine ⟨flush self parentKey .size u, ?_, ?_, ?_, ?_, ?_, hfinish⟩
    · rw [← hstep]
      exact follows_traceAfter self parentKey _ _
    · rw [hflushed, List.length_append, hlength]
      rfl
    · rw [flush_pos, hpos]
    · rw [flush_state, flushCurrentChunk_of_not_blank _ _ hblank .size u.pos, hstate]
    · rw [flush_state, flushCurrentChunk_inCodeBlock, hstate]
      exact hdue.2
  · cases hkind

/-- **Behind a flush in front of a heading** the loop goes on with the lines that are carried over
and the heading. -/
lemma exists_trace_of_heading (hlarge : self.IsLarge markdownText)
    (hp : (self.flushPoints parentKey markdownText)[i]? = some p) (hkind : p.kind = .heading) :
    ∃ (t : ChunkTrace) (line : List Char), (documentLines markdownText)[p.pos]? = some line ∧
      isBlank line = false ∧ t.points.length = i + 1 ∧ t.pos = p.pos + 1 ∧
      t.state.currentLines = self.carryOver p.state.currentLines ++ [line] ∧
      (finish self parentKey (settle self parentKey t)
        ((documentLines markdownText).drop (p.pos + 1))).points =
        self.flushPoints parentKey markdownText := by
  rcases (mem_flushPoints_iff self parentKey hlarge rfl).mp (List.mem_of_getElem? hp) with
    ⟨n, line, hline, ⟨hdue, hblank, rfl⟩ | ⟨-, -, rfl⟩⟩ | ⟨-, rfl⟩
  · have hn := (List.getElem?_eq_some_iff.mp hline).1.le
    have hheading := ((sectionDue_iff self _ _).mp hdue).2.1
    obtain ⟨hflushed, hkept⟩ := enter_traceAfter_of_sectionDue self parentKey hn hdue hblank
    have hfinish := congrArg ChunkTrace.points
      (finish_traceAfter self parentKey (documentLines markdownText) (n + 1))
    rw [traceAfter_succ self parentKey hline, step,
      ← flushPoints_of_isLarge self parentKey hlarge] at hfinish
    have hlength : (self.traceAfter parentKey (documentLines markdownText) n).points.length =
        i := by
      apply index_eq self parentKey hlarge hfinish _ hp
      -- the check of the size only adds a flush
      obtain ⟨new, hnew⟩ := (advances_takeLine self parentKey
        (enter self parentKey (self.traceAfter parentKey (documentLines markdownText) n) line)
        line).points_extend
      rw [← hnew, hflushed, List.append_assoc, List.getElem?_append_right le_rfl, Nat.sub_self]
      rfl
    refine ⟨(enter self parentKey (self.traceAfter parentKey (documentLines markdownText) n)
      line).push line, line, hline, isBlank_of_headingMatch hheading, ?_, ?_, ?_, hfinish⟩
    · rw [push, hflushed, List.length_append, hlength]
      rfl
    · rw [push_enter_pos, traceAfter_pos self parentKey hn]
    · rw [push, hkept]
  · cases hkind
  · cases hkind

/-- Nothing comes behind the last flush. -/
lemma getElem?_of_final (hlarge : self.IsLarge markdownText)
    (hp : (self.flushPoints parentKey markdownText)[i]? = some p) (hkind : p.kind = .final) :
    (self.flushPoints parentKey markdownText)[i + 1]? = none := by
  have hfollows := (follows_documentLines self parentKey (documentLines markdownText)).1
  rw [flushPoints, if_pos hlarge, finish] at hp ⊢
  generalize (documentLines markdownText).foldl (step self parentKey) {} = t at hfollows hp ⊢
  rw [List.getElem?_eq_none_iff]
  by_cases hblank : t.state.currentLines.all isBlank = true
  · rw [flush_points_of_blank self parentKey .final hblank] at hp
    exact absurd hkind (hfollows.not_final p (List.mem_of_getElem? hp))
  · rw [flush_points self parentKey .final hblank] at hp ⊢
    rw [List.length_append]
    rcases Nat.lt_or_ge i t.points.length with hlt | hge
    · rw [List.getElem?_append_left hlt] at hp
      exact absurd hkind (hfollows.not_final p (List.mem_of_getElem? hp))
    · exact Nat.succ_le_succ hge

/-! ## Sections -/

/-- The flush behind one in front of a heading begins with the lines that are carried over. -/
lemma exists_next_of_heading (hlarge : self.IsLarge markdownText)
    (hp : (self.flushPoints parentKey markdownText)[i]? = some p) (hkind : p.kind = .heading) :
    ∃ q, (self.flushPoints parentKey markdownText)[i + 1]? = some q ∧
      q.segment.start = p.pos - (self.carryOver p.state.currentLines).length ∧ p.pos < q.pos := by
  obtain ⟨t, line, -, hline, hlength, hpos, hlines, hfinish⟩ :=
    exists_trace_of_heading self parentKey hlarge hp hkind
  have hnot : ¬ t.state.currentLines.all isBlank = true := by
    rw [hlines, List.all_append, List.all_cons, hline]
    simp
  obtain ⟨q, hq, hstart, hle, -⟩ := exists_next_settle self parentKey hnot
    (exists_next self parentKey hnot ((documentLines markdownText).drop (p.pos + 1)))
  rw [hfinish, hlength] at hq
  rw [hpos] at hle
  refine ⟨q, hq, ?_, hle⟩
  rw [hstart, collector, Collector.segment, hlines, hpos, List.length_append,
    List.length_singleton, Nat.add_sub_add_right]

/-- **A chunk begins with its heading** behind each flush in front of one exactly if nothing is
carried over there. -/
theorem MarkdownChunker.sectionsApart_iff (markdownText : String) :
    self.MadeOfRuns parentKey markdownText ∧
      (self.SectionsApart parentKey markdownText ↔
        ∀ p ∈ self.flushPoints parentKey markdownText, p.kind = .heading →
          self.CarriesNothing p.state.currentLines) := by
  refine ⟨madeOfRuns self parentKey markdownText, ?_⟩
  by_cases hlarge : self.IsLarge markdownText
  · have hstart {i : ℕ} {p : FlushPoint}
        (hp : (self.flushPoints parentKey markdownText)[i]? = some p) (hkind : p.kind = .heading) :
        (∃ run, (self.chunkRuns parentKey markdownText)[i + 1]? = some run ∧ run.start = p.pos) ↔
          self.CarriesNothing p.state.currentLines := by
      obtain ⟨q, hq, hstart, -⟩ := exists_next_of_heading self parentKey hlarge hp hkind
      have hrun := (getElem?_of_flushPoint self parentKey hlarge hq).2
      have hle := (of_mem_flushPoints self parentKey (List.mem_of_getElem? hp)).length_le
      have hkept := (carryOver_suffix self p.state.currentLines).length_le
      rw [← carryOver_eq_nil_iff, ← List.length_eq_zero_iff]
      constructor
      · rintro ⟨run, hrun', hpos⟩
        obtain rfl := Option.some.inj (hrun.symm.trans hrun')
        omega
      · intro hnone
        refine ⟨q.segment, hrun, ?_⟩
        omega
    constructor
    · intro hapart p hp hkind
      obtain ⟨i, hi⟩ := List.getElem?_of_mem hp
      exact (hstart hi hkind).mp (hapart i p hi hkind)
    · intro hnothing i p hi hkind
      exact (hstart hi hkind).mpr (hnothing p (List.mem_of_getElem? hi) hkind)
  · -- a small document is not flushed
    rw [SectionsApart, flushPoints, if_neg hlarge]
    exact iff_of_true (fun _ _ hp => by cases hp) (fun _ hp => by cases hp)

/-- A document of two sections, the first with a short last line. -/
def shortLastLine : List Char :=
  List.replicate 150 'x' ++ ['\n', 'y', '\n', '#', ' ', 'B', '\n'] ++ List.replicate 150 'z'

/-- The chunk of the second section begins with the last line of the first one. -/
theorem MarkdownChunker.not_sectionsApart :
    ¬ (new 50 10).SectionsApart "doc" (.ofList shortLastLine) := by
  intro hapart
  have hlarge : (new 50 10).IsLarge (.ofList shortLastLine) :=
    (isLarge_ofList _ _).mpr (by decide +kernel)
  have hpoints : ((new 50 10).flushPoints "doc" (.ofList shortLastLine)).map
      (fun p => (p.kind, p.segment)) = [(.heading, ⟨0, 2⟩), (.final, ⟨1, 4⟩)] := by
    rw [flushPoints_ofList _ _ hlarge]
    decide +kernel
  have hfirst := congrArg (fun points => points[0]?) hpoints
  have hsecond := congrArg (fun points => points[1]?) hpoints
  simp only [List.getElem?_map, List.getElem?_cons_zero, List.getElem?_cons_succ,
    Option.map_eq_some_iff, Prod.mk.injEq] at hfirst hsecond
  obtain ⟨p, hp, hkind, hsegment⟩ := hfirst
  obtain ⟨q, hq, -, hnext⟩ := hsecond
  obtain ⟨run, hrun, hstart⟩ := hapart 0 p hp hkind
  rw [(getElem?_of_flushPoint _ _ hlarge hq).2, Option.some.injEq] at hrun
  have hpos : p.pos = 2 := congrArg Segment.stop hsegment
  rw [← hrun, hnext, hpos] at hstart
  cases hstart

/-! ## Redundant chunks -/

/-- A line that is not blank among those from `m` on in front of `n`. -/
lemma exists_line_iff {lines : List (List Char)} {start m n : ℕ} (hstart : start ≤ m) :
    (∃ (j : ℕ) (line : List Char), m ≤ j ∧ Segment.Has ⟨start, n⟩ j ∧ lines[j]? = some line ∧
      isBlank line = false) ↔ ¬ ((lines.drop m).take (n - m)).all isBlank = true := by
  have hitems : Segment.items ⟨m, n⟩ lines = (lines.drop m).take (n - m) := List.drop_take
  rw [← hitems, List.all_eq_true]
  constructor
  · rintro ⟨j, line, hm, ⟨-, hn⟩, hline, hblank⟩ hall
    rw [hall line (Segment.mem_items_of_has ⟨hm, hn⟩ hline)] at hblank
    cases hblank
  · intro hall
    simp only [not_forall] at hall
    obtain ⟨line, hmem, hblank⟩ := hall
    obtain ⟨j, ⟨hm, hn⟩, hline⟩ := Segment.exists_has_of_mem hmem
    exact ⟨j, line, hm, ⟨hstart.trans hm, hn⟩, hline, eq_false_of_ne_true hblank⟩

/-- Only blank lines have been carried over: the next flush has another line. -/
lemma exists_line_of_blank (hlarge : self.IsLarge markdownText)
    (hp : (self.flushPoints parentKey markdownText)[i]? = some p) (hkind : p.kind = .size)
    (hq : (self.flushPoints parentKey markdownText)[i + 1]? = some q)
    (hblank : (self.carryOver p.state.currentLines).all isBlank = true) :
    ∃ (j : ℕ) (line : List Char), p.pos ≤ j ∧ q.segment.Has j ∧
      (documentLines markdownText)[j]? = some line ∧ isBlank line = false := by
  obtain ⟨t, hfollows, hlength, hpos, hlines, -, hfinish⟩ :=
    exists_trace_of_size self parentKey hlarge hp hkind
  have hqof := of_mem_flushPoints self parentKey (List.mem_of_getElem? hq)
  have hstart : t.collector.segment.start ≤ q.segment.start := by
    apply (advances_finish self parentKey t
      ((documentLines markdownText).drop p.pos)).le_start (i + 1) q hlength.le
    rw [hfinish, hq]
  -- the next flush has a line that is not blank
  have hnot := hqof.not_blank
  simp only [List.all_eq_true, not_forall] at hnot
  obtain ⟨line, hmem, hline⟩ := hnot
  rw [← hqof.items_eq] at hmem
  obtain ⟨j, hhas, hj⟩ := Segment.exists_has_of_mem hmem
  refine ⟨j, line, ?_, hhas, hj, eq_false_of_ne_true hline⟩
  by_contra hlt
  have hkept := hfollows.segmented.mem_items hj (hstart.trans hhas.1)
    ((not_le.mp hlt).trans_eq hpos.symm)
  rw [collector, hlines] at hkept
  exact hline (List.all_eq_true.mp hblank line hkept)

/-- The next flush has a line of its own that is not blank exactly if the lines do not run dry. -/
lemma exists_line_iff_runsOn (hlarge : self.IsLarge markdownText)
    (hp : (self.flushPoints parentKey markdownText)[i]? = some p)
    (hq : (self.flushPoints parentKey markdownText)[i + 1]? = some q) :
    (∃ (j : ℕ) (line : List Char), p.pos ≤ j ∧ q.segment.Has j ∧
      (documentLines markdownText)[j]? = some line ∧ isBlank line = false) ↔
      self.RunsOn (documentLines markdownText) p := by
  rcases hkind : p.kind with _ | _ | _
  · -- the heading is such a line
    obtain ⟨-, line, hline, hblank, -⟩ := exists_trace_of_heading self parentKey hlarge hp hkind
    obtain ⟨q', hq', hstart, hlt⟩ := exists_next_of_heading self parentKey hlarge hp hkind
    obtain rfl := Option.some.inj (hq.symm.trans hq')
    apply iff_of_true
    · exact ⟨p.pos, line, le_rfl, ⟨hstart.trans_le (Nat.sub_le _ _), hlt⟩, hline, hblank⟩
    · intro hsize
      rw [hkind] at hsize
      cases hsize
  · by_cases hblank : (self.carryOver p.state.currentLines).all isBlank = true
    · exact iff_of_true (exists_line_of_blank self parentKey hlarge hp hkind hq hblank)
        fun _ => Or.inl hblank
    · obtain ⟨t, -, hlength, hpos, hlines, hcode, hfinish⟩ :=
        exists_trace_of_size self parentKey hlarge hp hkind
      rw [← hlines] at hblank
      obtain ⟨q', hq', hnext⟩ := exists_next self parentKey hblank
        ((documentLines markdownText).drop p.pos)
      rw [hfinish, hlength] at hq'
      obtain rfl := Option.some.inj (hq.symm.trans hq')
      have hstart : q.segment.start ≤ p.pos := by
        rw [hnext.start_eq, ← hpos]
        exact Nat.sub_le _ _
      have hdry := hnext.dry_iff hcode
      rw [hpos] at hdry
      rw [RunsOn, ← hlines, or_iff_right hblank, ← hdry]
      refine (exists_line_iff hstart).trans ⟨fun hnot _ => hnot, fun hruns => hruns hkind⟩
  · rw [getElem?_of_final self parentKey hlarge hp hkind] at hq
    cases hq

/-- **No chunk is redundant** exactly if no lines that a flush by size carries over run dry. -/
theorem MarkdownChunker.noRedundantChunk_iff (markdownText : String) :
    self.MadeOfRuns parentKey markdownText ∧
      (self.NoRedundantChunk parentKey markdownText ↔
        ∀ p ∈ self.flushPoints parentKey markdownText,
          self.RunsOn (documentLines markdownText) p) := by
  refine ⟨madeOfRuns self parentKey markdownText, ?_⟩
  by_cases hlarge : self.IsLarge markdownText
  · constructor
    · intro hnone p hp
      obtain ⟨i, hi⟩ := List.getElem?_of_mem hp
      rcases hnext : (self.flushPoints parentKey markdownText)[i + 1]? with _ | q
      · -- lines that run dry would be flushed
        intro hkind
        by_contra hdry
        obtain ⟨hblank, -⟩ := not_or.mp hdry
        obtain ⟨t, -, hlength, -, hlines, -, hfinish⟩ :=
          exists_trace_of_size self parentKey hlarge hi hkind
        obtain ⟨q, hq, -⟩ := exists_next self parentKey (hlines ▸ hblank)
          ((documentLines markdownText).drop p.pos)
        rw [hfinish, hlength, hnext] at hq
        cases hq
      · apply (exists_line_iff_runsOn self parentKey hlarge hi hnext).mp
        exact hnone i p.segment q.segment (getElem?_of_flushPoint self parentKey hlarge hi).2
          (getElem?_of_flushPoint self parentKey hlarge hnext).2
    · intro hruns i run run' hrun hrun'
      rw [chunkRuns_of_isLarge self parentKey hlarge, List.getElem?_map,
        Option.map_eq_some_iff] at hrun hrun'
      obtain ⟨p, hp, rfl⟩ := hrun
      obtain ⟨q, hq, rfl⟩ := hrun'
      exact (exists_line_iff_runsOn self parentKey hlarge hp hq).mpr
        (hruns p (List.mem_of_getElem? hp))
  · -- a small document has one chunk
    apply iff_of_true
    · intro i run run' hrun hrun'
      rw [chunkRuns] at hrun'
      split_ifs at hrun'
      · cases hrun'
      · cases hrun'
    · intro p hp
      rw [flushPoints, if_neg hlarge] at hp
      cases hp

/-- A document that ends with a short line. -/
def shortEnd : List Char :=
  List.replicate 195 'x' ++ '\n' :: List.replicate 9 'y'

/-- The second chunk is the last line of the first one. -/
theorem MarkdownChunker.not_noRedundantChunk :
    ¬ (new 50 10).NoRedundantChunk "doc" (.ofList shortEnd) := by
  intro hnone
  have hlarge : (new 50 10).IsLarge (.ofList shortEnd) :=
    (isLarge_ofList _ _).mpr (by decide +kernel)
  have hruns : (new 50 10).chunkRuns "doc" (.ofList shortEnd) = [⟨0, 2⟩, ⟨1, 2⟩] := by
    rw [chunkRuns_of_isLarge _ _ hlarge, flushPoints_ofList _ _ hlarge]
    decide +kernel
  obtain ⟨j, line, hle, hhas, -⟩ := hnone 0 ⟨0, 2⟩ ⟨1, 2⟩ (by rw [hruns]; rfl) (by rw [hruns]; rfl)
  exact absurd hhas.2 (not_lt.mpr hle)

end Overlap

end KacheDB
