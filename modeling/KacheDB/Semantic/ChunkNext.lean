import KacheDB.Semantic.ChunkRuns

/-!
# The next flush

What comes behind a flush depends on the lines that it has carried over and on the lines that are
still to come.  `exists_next` says where the next flush begins and when its only lines that are not
blank have been carried over: when the lines *run dry*.
-/

namespace KacheDB

open Foundation

namespace MarkdownChunker

variable (self : MarkdownChunker)

/-- The lines that are collected are flushed before another line that is not blank is collected:
the document ends, blank lines make them long enough, or a heading comes and they are long
enough. -/
def RunsDry (currentLines : List (List Char)) : List (List Char) → Prop
  | [] => True
  | line :: rest =>
    if isBlank line then
      self.targetSize ≤ estimateTokens (joinLines (currentLines ++ [line])) ∨
        RunsDry (currentLines ++ [line]) rest
    else
      (headingMatch line).isSome = true ∧
        self.targetSize / 2 ≤ estimateTokens (joinLines currentLines)

end MarkdownChunker

/-- What is known of the flush that follows. -/
structure ChunkTrace.Continues (chunker : MarkdownChunker) (t : ChunkTrace)
    (rest : List (List Char)) (q : FlushPoint) : Prop where
  start_eq : q.segment.start = t.collector.segment.start
  pos_le : t.pos ≤ q.pos
  dry_iff : t.state.inCodeBlock = false →
    ((rest.take (q.pos - t.pos)).all isBlank = true ↔
      chunker.RunsDry t.state.currentLines rest)

/-- A later trace: flushes have been added, and nothing goes back behind what is collected. -/
structure ChunkTrace.Advances (t t' : ChunkTrace) : Prop where
  points_extend : t.points <+: t'.points
  start_le : t.collector.segment.start ≤ t'.collector.segment.start
  le_start : ∀ (i : ℕ) (q : FlushPoint), t.points.length ≤ i → t'.points[i]? = some q →
    t.collector.segment.start ≤ q.segment.start

section Next

open MarkdownChunker ChunkTrace

variable (self : MarkdownChunker) (parentKey : String)
variable {line : List Char} {rest : List (List Char)} {t : ChunkTrace} {kind : FlushKind}

/-! ## Later traces -/

namespace ChunkTrace.Advances

variable {t' t'' : ChunkTrace}

lemma of_eq (hpoints : t'.points = t.points)
    (hstart : t'.collector.segment.start = t.collector.segment.start) : t.Advances t' where
  points_extend := by rw [hpoints]
  start_le := hstart.ge
  le_start i q hi hq := by
    rw [hpoints, List.getElem?_eq_none hi] at hq
    cases hq

lemma trans (h : t.Advances t') (h' : t'.Advances t'') : t.Advances t'' where
  points_extend := h.points_extend.trans h'.points_extend
  start_le := h.start_le.trans h'.start_le
  le_start i q hi hq := by
    rcases Nat.lt_or_ge i t'.points.length with hlt | hge
    · obtain ⟨new, hnew⟩ := h'.points_extend
      rw [← hnew, List.getElem?_append_left hlt] at hq
      exact h.le_start i q hi hq
    · exact h.start_le.trans (h'.le_start i q hge hq)

end ChunkTrace.Advances

lemma flush_points (kind : FlushKind) (h : ¬ t.state.currentLines.all isBlank = true) :
    (flush self parentKey kind t).points = t.points ++ [⟨kind, t.pos, t.state⟩] := by
  rw [flush, if_neg h]

lemma flush_points_of_blank (kind : FlushKind) (h : t.state.currentLines.all isBlank = true) :
    (flush self parentKey kind t).points = t.points := by
  rw [flush, if_pos h]

/-- A flush keeps a part of the end of what is collected. -/
lemma flush_currentLines_length_le (kind : FlushKind) (t : ChunkTrace) :
    (flush self parentKey kind t).state.currentLines.length ≤ t.state.currentLines.length := by
  rw [flush_state]
  by_cases hblank : t.state.currentLines.all isBlank = true
  · rw [flushCurrentChunk_of_blank _ _ hblank]
    exact Nat.zero_le _
  · rw [flushCurrentChunk_of_not_blank _ _ hblank kind t.pos]
    exact (carryOver_suffix self _).length_le

lemma advances_flush (kind : FlushKind) (t : ChunkTrace) :
    t.Advances (flush self parentKey kind t) := by
  refine ⟨?_, ?_, ?_⟩
  · by_cases hblank : t.state.currentLines.all isBlank = true
    · rw [flush_points_of_blank self parentKey kind hblank]
    · rw [flush_points self parentKey kind hblank]
      exact List.prefix_append _ _
  · have hlength := flush_currentLines_length_le self parentKey kind t
    rw [collector, collector, Collector.segment, Collector.segment, flush_pos]
    exact Nat.sub_le_sub_left hlength _
  · intro i q hi hq
    by_cases hblank : t.state.currentLines.all isBlank = true
    · rw [flush_points_of_blank self parentKey kind hblank, List.getElem?_eq_none hi] at hq
      cases hq
    · rw [flush_points self parentKey kind hblank, List.getElem?_append_right hi,
        List.getElem?_singleton] at hq
      split_ifs at hq
      obtain rfl := Option.some.inj hq
      exact le_rfl

lemma entered_segment_start (t : ChunkTrace) (line : List Char) :
    (ChunkTrace.collector { t with state := entered t.state line }).segment.start =
      t.collector.segment.start := by
  rw [collector, collector, entered_currentLines]

lemma push_segment_start (t : ChunkTrace) (line : List Char) :
    (t.push line).collector.segment.start = t.collector.segment.start := by
  rw [collector, collector, push, Collector.segment, Collector.segment]
  dsimp only
  rw [List.length_append, List.length_singleton]
  omega

lemma advances_enter (t : ChunkTrace) (line : List Char) :
    t.Advances (enter self parentKey t line) := by
  have hentered : t.Advances { t with state := entered t.state line } :=
    .of_eq rfl (entered_segment_start t line)
  rcases enter_cases self parentKey t line with henter | henter
  · rw [henter]
    exact hentered
  · rw [henter]
    exact hentered.trans (advances_flush self parentKey .heading _)

lemma advances_takeLine (t : ChunkTrace) (line : List Char) :
    t.Advances (takeLine self parentKey t line) := by
  have hpush : t.Advances (t.push line) := .of_eq rfl (push_segment_start t line)
  rcases takeLine_cases self parentKey t line with htake | htake
  · rw [htake]
    exact hpush
  · rw [htake]
    exact hpush.trans (advances_flush self parentKey .size _)

/-- The rest of the loop only adds flushes. -/
lemma advances_finish (t : ChunkTrace) (rest : List (List Char)) :
    t.Advances (finish self parentKey t rest) := by
  induction rest generalizing t with
  | nil => exact advances_flush self parentKey .final t
  | cons line rest ih =>
    have hstep : t.Advances (step self parentKey t line) :=
      (advances_enter self parentKey t line).trans (advances_takeLine self parentKey _ line)
    exact hstep.trans (ih _)

/-- What is flushed stays. -/
lemma getElem?_finish (rest : List (List Char)) {i : ℕ} {p : FlushPoint}
    (hp : t.points[i]? = some p) :
    (finish self parentKey t rest).points[i]? = some p := by
  obtain ⟨new, hnew⟩ := (advances_finish self parentKey t rest).points_extend
  rw [← hnew, List.getElem?_append_left (List.getElem?_eq_some_iff.mp hp).1, hp]

/-! ## Where the next flush begins -/

/-- The flush of what is collected. -/
lemma getElem?_finish_flush (h : ¬ t.state.currentLines.all isBlank = true) :
    (finish self parentKey (flush self parentKey kind t) rest).points[t.points.length]? =
      some ⟨kind, t.pos, t.state⟩ := by
  apply getElem?_finish
  rw [flush_points self parentKey kind h, List.getElem?_concat_length]

/-- The next flush behind the check of the size. -/
lemma exists_next_settle (hblank : ¬ t.state.currentLines.all isBlank = true)
    (hnext : ∃ q, (finish self parentKey t rest).points[t.points.length]? = some q ∧
      t.Continues self rest q) :
    ∃ q, (finish self parentKey (settle self parentKey t) rest).points[t.points.length]? = some q ∧
      q.segment.start = t.collector.segment.start ∧ t.pos ≤ q.pos ∧
      (t.state.inCodeBlock = false → ((rest.take (q.pos - t.pos)).all isBlank = true ↔
        self.targetSize ≤ estimateTokens (joinLines t.state.currentLines) ∨
          self.RunsDry t.state.currentLines rest)) := by
  by_cases hdue : self.SizeDue t.state
  · refine ⟨⟨.size, t.pos, t.state⟩, ?_, rfl, le_rfl, fun _ => ?_⟩
    · rw [settle, if_pos hdue]
      exact getElem?_finish_flush self parentKey hblank
    · rw [Nat.sub_self, List.take_zero]
      exact iff_of_true rfl (Or.inl hdue.1)
  · obtain ⟨q, hq, hcontinues⟩ := hnext
    refine ⟨q, ?_, hcontinues.start_eq, hcontinues.pos_le, fun hcode => ?_⟩
    · rw [settle, if_neg hdue]
      exact hq
    · have hsize : ¬ self.targetSize ≤ estimateTokens (joinLines t.state.currentLines) :=
        fun hsize => hdue ⟨hsize, hcode⟩
      rw [hcontinues.dry_iff hcode]
      exact (or_iff_right hsize).symm

/-- A turn without a flush in front of its line. -/
lemma step_of_not_sectionDue (h : ¬ self.SectionDue t.state line) :
    step self parentKey t line = settle self parentKey
      (ChunkTrace.push { t with state := entered t.state line } line) := by
  rw [step, takeLine, enter, if_neg h]

lemma not_all_isBlank_append {lines : List (List Char)} (h : ¬ lines.all isBlank = true)
    (line : List Char) : ¬ (lines ++ [line]).all isBlank = true := by
  rw [List.all_append, Bool.and_eq_true]
  exact fun hall => h hall.1

/-- **The next flush.**  It begins with the lines that are collected, and it has no other line
that is not blank exactly if the lines run dry. -/
lemma exists_next (hblank : ¬ t.state.currentLines.all isBlank = true)
    (rest : List (List Char)) :
    ∃ q, (finish self parentKey t rest).points[t.points.length]? = some q ∧
      t.Continues self rest q := by
  induction rest generalizing t with
  | nil =>
    refine ⟨⟨.final, t.pos, t.state⟩, ?_, rfl, le_rfl, fun _ => ?_⟩
    · rw [finish, List.foldl_nil, flush_points self parentKey .final hblank,
        List.getElem?_concat_length]
    · rw [List.take_nil]
      exact iff_of_true rfl trivial
  | cons line rest ih =>
    by_cases hsection : self.SectionDue t.state line
    · -- the flush in front of the heading
      refine ⟨⟨.heading, t.pos, entered t.state line⟩, ?_, ?_, le_rfl, fun _ => ?_⟩
      · have hentered : ¬ (entered t.state line).currentLines.all isBlank = true := by
          rwa [entered_currentLines]
        apply getElem?_finish (t := step self parentKey t line)
        obtain ⟨new, hnew⟩ := (advances_takeLine self parentKey
          (enter self parentKey t line) line).points_extend
        rw [step, ← hnew, enter, if_pos hsection, flush_points self parentKey .heading hentered,
          List.append_assoc, List.getElem?_append_right le_rfl, Nat.sub_self]
        rfl
      · rw [FlushPoint.segment, entered_currentLines]
        rfl
      · rw [Nat.sub_self, List.take_zero]
        obtain ⟨-, hheading, -, hsize⟩ := (sectionDue_iff self _ _).mp hsection
        apply iff_of_true rfl
        rw [RunsDry, isBlank_of_headingMatch hheading]
        exact ⟨hheading, hsize⟩
    · -- the line is collected
      have hlines : ¬ (ChunkTrace.push { t with state := entered t.state line }
          line).state.currentLines.all isBlank = true := by
        rw [push, entered_currentLines]
        exact not_all_isBlank_append hblank line
      obtain ⟨q, hq, hstart, hpos, hdry⟩ := exists_next_settle self parentKey hlines (ih hlines)
      rw [← step_of_not_sectionDue self parentKey hsection] at hq
      rw [push_segment_start, collector, entered_currentLines] at hstart
      refine ⟨q, hq, hstart, (Nat.le_succ _).trans hpos, fun hcode => ?_⟩
      have htake : (line :: rest).take (q.pos - t.pos) =
          line :: rest.take (q.pos - (t.pos + 1)) := by
        have hsucc : q.pos - t.pos = q.pos - (t.pos + 1) + 1 := by
          have hlt : t.pos < q.pos := hpos
          omega
        rw [hsucc, List.take_succ_cons]
      rw [htake, List.all_cons, RunsDry]
      rcases hline : isBlank line with _ | _
      · -- a heading that is not flushed in front of is collected, like every other line
        apply iff_of_false (by simp)
        rintro ⟨hheading, hsize⟩
        apply hsection
        rw [sectionDue_iff, hcode, isCodeFence_of_headingMatch hheading]
        refine ⟨rfl, hheading, ?_, hsize⟩
        rintro hnil
        exact hblank (by rw [hnil]; rfl)
      · have hfence : isCodeFence line = false := by
          by_contra hfence
          rw [isBlank_of_isCodeFence (by simpa using hfence)] at hline
          cases hline
        rw [push, entered_inCodeBlock, hcode, hfence, entered_currentLines] at hdry
        rw [Bool.true_and, if_pos rfl]
        exact hdry rfl

end Next

end KacheDB
