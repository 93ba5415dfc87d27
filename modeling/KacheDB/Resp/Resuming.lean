import KacheDB.Resp.Accepting

/-!
# Interrupted reads

A read that is interrupted while it waits for more of a frame, by a timeout or a cancellation, is
to be resumed by the next call: the buffer is kept.  But the cursor is kept as well, wherever it
stands in the frame, and the next call begins a new frame there.

`resumes_iff` says when this does no harm: only if nothing of the frame had arrived, or by accident
where the next call comes to a length below -1, which moves the cursor back.  The proof that a new
frame, begun in the middle of a frame, cannot give the same value and end at the same
place is `eq_of_aligned`: of two frames that end at the same place and have the same value, none is
longer than the other.
-/

namespace KacheDB

open Foundation

/-! ## Frames that end at the same place -/

section Aligned

/-- Nothing, or something with a line end at its end. -/
def EndsLine (pre : Bytes) : Prop :=
  pre = [] ∨ crlf <:+ pre

lemma EndsLine.append {pre b : Bytes} (h : crlf <:+ b) : EndsLine (pre ++ b) :=
  .inr (h.trans (List.suffix_append pre b))

/-- A text cannot be longer than the line in which it lies. -/
lemma marker_aligned {pre pre' line line' : Bytes} {m m' : UInt8} (hpre : EndsLine pre)
    (hline' : ¬ crlf <:+: line') (hm' : m' ∉ line) (h13 : m' ≠ 13) (h10 : m' ≠ 10)
    (h : pre ++ m :: line = pre' ++ m' :: line') : m = m' ∧ line = line' := by
  rcases List.append_eq_append_iff.mp h with ⟨x, hx, hline⟩ | ⟨x, hx, hline⟩
  · -- the second marker stands at or behind the first one
    cases x with
    | nil =>
      rw [List.nil_append, List.cons.injEq] at hline
      exact hline
    | cons c x =>
      rw [List.cons_append, List.cons.injEq] at hline
      exact absurd (by rw [hline.2]; simp) hm'
  · -- the second marker stands before the first one, behind which a line ends
    cases x with
    | nil =>
      rw [List.nil_append, List.cons.injEq] at hline
      exact ⟨hline.1.symm, hline.2.symm⟩
    | cons c x =>
      rw [List.cons_append, List.cons.injEq] at hline
      obtain ⟨rfl, rfl⟩ := hline
      rcases hpre with hnil | ⟨t, ht⟩
      · rw [hx] at hnil
        simp at hnil
      · rw [hx] at ht
        rcases List.append_eq_append_iff.mp ht with ⟨y, -, hy⟩ | ⟨y, -, hy⟩
        · have hmem : m' ∈ crlf := by
            rw [hy]
            simp
          simp only [crlf, List.mem_cons, List.not_mem_nil, or_false] at hmem
          exact absurd hmem (not_or.mpr ⟨h13, h10⟩)
        · cases y with
          | nil => exact absurd (List.cons.inj hy).1 h13
          | cons c y =>
            rw [List.cons_append, List.cons.injEq] at hy
            refine absurd ⟨y, m :: line, ?_⟩ hline'
            rw [hy.2]

/-- The same of lines with their line ends. -/
lemma line_aligned {pre pre' : Bytes} {line line' : Line} {m m' : UInt8} (hpre : EndsLine pre)
    (hm' : m' ∉ line.bytes) (h13 : m' ≠ 13) (h10 : m' ≠ 10)
    (heq : pre ++ m :: (line.bytes ++ crlf) = pre' ++ m' :: (line'.bytes ++ crlf)) :
    m :: (line.bytes ++ crlf) = m' :: (line'.bytes ++ crlf) := by
  have hends : pre ++ m :: line.bytes ++ crlf = pre' ++ m' :: line'.bytes ++ crlf := by
    simpa using heq
  obtain ⟨rfl, hline⟩ := marker_aligned hpre line'.no_crlf hm' h13 h10
    (List.append_cancel_right hends)
  rw [hline]

/-- A line without markers and a frame of a null. -/
lemma null_aligned {limit : ℕ} {pre pre' w : Bytes} {line : Line} {m : UInt8} (hpre : EndsLine pre)
    (hmarkers : ∀ m' ∈ ([36, 42, 95] : Bytes), m' ∉ line.bytes)
    (h' : Frame .wide (limit + 1) w .none)
    (heq : pre ++ m :: (line.bytes ++ crlf) = pre' ++ w) : m :: (line.bytes ++ crlf) = w := by
  cases h' with
  | nullBulk line' _ => exact line_aligned hpre (hmarkers 36 (by simp)) (by decide) (by decide) heq
  | nullArray line' _ => exact line_aligned hpre (hmarkers 42 (by simp)) (by decide) (by decide) heq
  | null line' _ => exact line_aligned hpre (hmarkers 95 (by simp)) (by decide) (by decide) heq

/-- Bytes that `int` reads as digits are no markers. -/
lemma notMem_of_digits {line : Bytes} {n : ℕ} (h : Digits line n) {m : UInt8}
    (hm : isDigit m = false) : m ∉ line := by
  intro hmem
  rw [h.1 m hmem] at hm
  cases hm

lemma notMem_of_signedDigits {line : Bytes} {z : ℤ} (h : SignedDigits line z) {m : UInt8}
    (hm : isDigit m = false) (h43 : m ≠ 43) (h45 : m ≠ 45) : m ∉ line := by
  obtain ⟨ds, n, hdigits, ⟨rfl, -⟩ | ⟨rfl, -⟩ | ⟨rfl, -⟩⟩ := h
  · exact notMem_of_digits hdigits hm
  · rw [List.mem_cons, not_or]
    exact ⟨h43, notMem_of_digits hdigits hm⟩
  · rw [List.mem_cons, not_or]
    exact ⟨h45, notMem_of_digits hdigits hm⟩

/-- Frames of the protocol's spelling end with a line end, as do sequences of them. -/
lemma crlf_suffix_of_sequence {item : Bytes → RespValue → Prop}
    (hitem : ∀ b v, item b v → crlf <:+ b) {n : ℕ} {pre bs : Bytes} {vs : List RespValue}
    (h : Sequence item n bs vs) (hpre : crlf <:+ pre) : crlf <:+ pre ++ bs := by
  induction h generalizing pre with
  | nil => rwa [List.append_nil]
  | @cons n b bs v vs head _ ih =>
    rw [← List.append_assoc]
    exact ih ((hitem b v head).trans (List.suffix_append pre b))

lemma crlf_suffix_of_frame {limit : ℕ} {b : Bytes} {v : RespValue} (h : Frame .strict limit b v) :
    crlf <:+ b := by
  induction limit generalizing b v with
  | zero => exact h.elim
  | succ limit ih =>
    have hline (m : UInt8) (line : Line) : crlf <:+ m :: (line.bytes ++ crlf) :=
      (List.suffix_append line.bytes crlf).trans (List.suffix_cons m _)
    cases h with
    | simple line s h => exact hline 43 line
    | integer line n h => exact hline 58 line
    | nullBulk line h => exact hline 36 line
    | bulk line data t h ht =>
      have ht' : t = crlf := ht
      rw [ht', ← List.append_assoc]
      exact List.suffix_append _ _
    | nullArray line h => exact hline 42 line
    | array line n bs vs h items =>
      exact crlf_suffix_of_sequence (fun _ _ => ih) items (hline 42 line)
    | null line h => exact hline 95 line

/-- Sequences of frames with the same values that end at the same place are equal, if frames are. -/
lemma sequence_eq_of_aligned {item item' : Bytes → RespValue → Prop}
    (hcrlf : ∀ b v, item b v → crlf <:+ b)
    (hitem : ∀ b w v pre pre', item b v → item' w v → EndsLine pre →
      pre ++ b = pre' ++ w → b = w) {n n' : ℕ} {bs ws pre pre' : Bytes} {vs : List RespValue}
    (h : Sequence item n bs vs) (h' : Sequence item' n' ws vs) (hpre : EndsLine pre)
    (heq : pre ++ bs = pre' ++ ws) : bs = ws := by
  induction h generalizing n' ws pre pre' with
  | nil =>
    cases h'
    rfl
  | @cons n b bs v vs head _ ih =>
    cases h' with
    | @cons n' w ws _ _ head' tail' =>
      rw [← List.append_assoc, ← List.append_assoc] at heq
      -- the further items first
      obtain rfl := ih tail' (.append (hcrlf b v head)) heq
      rw [hitem _ _ _ _ _ head head' hpre (List.append_cancel_right heq)]

/-- **Of two frames that end at the same place and have the same value, none is longer.**  The
first one is in the protocol's spelling and begins where a line has ended. -/
theorem eq_of_aligned {limit limit' : ℕ} {b w pre pre' : Bytes} {v : RespValue}
    (h : Frame .strict limit b v) (h' : Frame .wide limit' w v) (hpre : EndsLine pre)
    (heq : pre ++ b = pre' ++ w) : b = w := by
  induction limit generalizing limit' b w v pre pre' with
  | zero => exact h.elim
  | succ limit ih =>
    obtain ⟨limit', rfl⟩ : ∃ l, limit' = l + 1 := by
      cases limit' with
      | zero => exact h'.elim
      | succ l => exact ⟨l, rfl⟩
    cases h with
    | simple line s h =>
      cases h' with
      | simple line' _ h' =>
        rw [eq_encodeUtf8_of_decodeUtf8 h, eq_encodeUtf8_of_decodeUtf8 h']
    | integer line n h =>
      cases h' with
      | integer line' _ h' =>
        exact line_aligned hpre (notMem_of_signedDigits h rfl (by decide) (by decide)) (by decide)
          (by decide) heq
    | nullBulk line h =>
      have hline : line.bytes = [45, 49] := h
      exact null_aligned hpre (by simp [hline]) h' heq
    | nullArray line h =>
      have hline : line.bytes = [45, 49] := h
      exact null_aligned hpre (by simp [hline]) h' heq
    | null line h =>
      have hline : line.bytes = [] := h
      exact null_aligned hpre (by simp [hline]) h' heq
    | bulk line data t h ht =>
      cases h' with
      | bulk line' _ t' h' ht' =>
        have ht : t = crlf := ht
        have ht' : t'.length = 2 := ht'
        -- the data and what is behind it
        have heq : pre ++ 36 :: (line.bytes ++ crlf) ++ (data ++ t) =
            pre' ++ 36 :: (line'.bytes ++ crlf) ++ (data ++ t') := by
          rw [List.append_assoc, List.append_assoc]
          exact heq
        obtain ⟨hheads, htails⟩ := List.append_inj' heq
          (by rw [List.length_append, List.length_append, ht, ht']; rfl)
        rw [htails, line_aligned hpre (notMem_of_digits h rfl) (by decide) (by decide) hheads]
    | array line n bs vs h items =>
      cases h' with
      | array line' n' ws _ h' items' =>
        rw [← List.append_assoc, ← List.append_assoc] at heq
        have hend : EndsLine (pre ++ 42 :: (line.bytes ++ crlf)) :=
          .append ((List.suffix_append line.bytes crlf).trans (List.suffix_cons 42 _))
        have hitem : ∀ b w v pre pre', Frame .strict limit b v → Frame .wide limit' w v →
            EndsLine pre → pre ++ b = pre' ++ w → b = w := fun _ _ _ _ _ => ih
        -- the items first, and then what is in front of them
        obtain rfl := sequence_eq_of_aligned (fun _ _ => crlf_suffix_of_frame) hitem items items'
          hend heq
        rw [line_aligned hpre (notMem_of_digits h rfl) (by decide) (by decide)
          (List.append_cancel_right heq)]

end Aligned

/-! ## Frames and negative lengths -/

/-- A line in front of a stream is determined by the stream. -/
lemma line_unique {line line' : Line} {x x' : Bytes}
    (h : line.bytes ++ crlf ++ x = line'.bytes ++ crlf ++ x') :
    line.bytes = line'.bytes ∧ x = x' := by
  have hlength : line.bytes.length = line'.bytes.length := by
    have hfirst := findIdx_crlf_append line.bytes x line.no_crlf
    rw [h, findIdx_crlf_append line'.bytes x' line'.no_crlf] at hfirst
    exact (Option.some.inj hfirst).symm
  obtain ⟨hline, hrest⟩ := List.append_inj h
    (by rw [List.length_append, List.length_append, hlength])
  exact ⟨List.append_cancel_right hline, hrest⟩

/-- A frame in front of a stream is determined by the stream. -/
lemma frame_unique {limit : ℕ} {b b' x x' : Bytes} {v v' : RespValue}
    (h : Frame .wide limit b v) (h' : Frame .wide limit b' v') (heq : b ++ x = b' ++ x') :
    b = b' ∧ x = x' := by
  have hne : b ++ x ≠ [] := fun hnil => RespReader.frame_ne_nil h (List.append_eq_nil_iff.mp hnil).1
  have hok : respBuffer.Ok RespReader.init := ⟨le_rfl, le_rfl⟩
  have hquiet := Feed.quiet_map_chunk [⟨b ++ x, hne⟩]
  have hunread : RespReader.init.unread ([(⟨b ++ x, hne⟩ : Chunk)].map .chunk) = b ++ x := by
    rw [RespReader.unread_init_map_chunk, List.flatMap_singleton]
  obtain ⟨r, feed, hrun, hx⟩ := RespReader.readResponse_frame hok hquiet h hunread
  obtain ⟨r', feed', hrun', hx'⟩ := RespReader.readResponse_frame hok hquiet h' (hunread.trans heq)
  rw [hrun] at hrun'
  simp only [Prod.mk.injEq] at hrun'
  obtain ⟨-, rfl, rfl⟩ := hrun'
  have hrest : x = x' := hx.symm.trans hx'
  rw [hrest] at heq
  exact ⟨List.append_cancel_right heq, hrest⟩

/-- Behind fewer items than there are stands one more item. -/
lemma exists_item_of_sequence {item : Bytes → RespValue → Prop}
    (hunique : ∀ b b' x x' v v', item b v → item b' v' → b ++ x = b' ++ x' → b = b' ∧ x = x')
    {j n : ℕ} {bs bs' rest x : Bytes} {vs vs' : List RespValue} (hj : j < n)
    (h : Sequence item j bs vs) (h' : Sequence item n bs' vs') (heq : bs ++ rest = bs' ++ x) :
    ∃ b v y, item b v ∧ rest = b ++ y := by
  induction h generalizing n bs' vs' with
  | nil =>
    cases h' with
    | nil => cases hj
    | @cons n b bs v vs head tail =>
      exact ⟨b, v, bs ++ x, head, by rw [← List.append_assoc]; exact heq⟩
  | @cons j b bs v vs head _ ih =>
    cases h' with
    | nil => cases hj
    | @cons n b' bs' v' vs' head' tail' =>
      rw [List.append_assoc, List.append_assoc] at heq
      exact ih (Nat.lt_of_succ_lt_succ hj) tail' (hunique _ _ _ _ _ _ head head' heq).2

/-- A stream that begins with a frame comes to no length below -1. -/
theorem not_meetsNegative_of_frame {limit : ℕ} {b x : Bytes} {v : RespValue}
    (h : Frame .wide limit b v) : ¬ MeetsNegative limit (b ++ x) := by
  induction limit generalizing b x v with
  | zero => exact h.elim
  | succ limit ih =>
    intro hneg
    generalize hy : b ++ x = y at hneg
    -- the number in the first line
    have hnumber {m : UInt8} {line line' : Line} {n n' : ℤ} {x rest : Bytes}
        (hy : m :: (line'.bytes ++ crlf ++ x) = m :: (line.bytes ++ crlf ++ rest))
        (hn : parseInt line.bytes = some n) (hn' : parseInt line'.bytes = some n') :
        n = n' ∧ x = rest := by
      obtain ⟨hline, hrest⟩ := line_unique (List.cons.inj hy).2
      rw [hline, hn] at hn'
      exact ⟨Option.some.inj hn', hrest⟩
    cases hneg with
    | bulk line n hn hlow rest =>
      cases h with
      | nullBulk line' h =>
        have hminus := (hnumber hy hn h).1
        omega
      | bulk line' data t h ht =>
        rw [List.append_assoc] at hy
        have hlength := (hnumber hy hn h).1
        omega
      | _ => simp at hy
    | array line n hn j hj bs vs items rest hrest =>
      cases h with
      | nullArray line' h =>
        have hminus := (hnumber hy hn h).1
        omega
      | array line' n' bs' vs' h items' =>
        obtain ⟨z, hz, -, rfl⟩ := h
        rw [List.append_assoc] at hy
        obtain ⟨rfl, hitems⟩ := hnumber hy hn hz
        obtain ⟨f, w, y, hframe, rfl⟩ := exists_item_of_sequence
          (fun _ _ _ _ _ _ => frame_unique) (by omega) items items' hitems.symm
        exact ih hframe hrest
      | _ => simp at hy

/-- What comes behind a length below -1 does not matter. -/
lemma MeetsNegative.append {limit : ℕ} {x : Bytes} (h : MeetsNegative limit x) (y : Bytes) :
    MeetsNegative limit (x ++ y) := by
  induction limit generalizing x with
  | zero => exact h.elim
  | succ limit ih =>
    cases h with
    | bulk line n hn hlow rest =>
      rw [List.append_assoc]
      exact .bulk line n hn hlow _
    | array line n hn j hj bs vs items rest hrest =>
      rw [List.append_assoc, List.append_assoc]
      exact .array line n hn j hj bs vs items _ (ih hrest)

/-! ## Interruptions -/

namespace RespReader

/-- A read that comes to no length below -1 consumes at least the marker. -/
lemma readResponse_suffix_tail {limit : ℕ} {r : RespReader} {chunks : List Chunk}
    (hok : respBuffer.Ok r) (hneg : ¬ MeetsNegative (limit + 1) (r.unread (chunks.map .chunk)))
    {m : UInt8} {x : Bytes} (hx : r.unread (chunks.map .chunk) = m :: x) :
    (r.readResponse (limit + 1) (chunks.map .chunk)).2.1.unread
      (r.readResponse (limit + 1) (chunks.map .chunk)).2.2 <:+ x := by
  have hset := (takes_parseFrame _ (limit + 1) r (chunks.map .chunk) hok hneg).1
  obtain ⟨hok', ⟨hres, hrest, -⟩ | ⟨e, -, hfail⟩⟩ := reads_readMarker m r (chunks.map .chunk) [] x
    hok (by rw [List.append_nil]; exact hx)
  · rcases hrun : readMarker.run r (chunks.map .chunk) with ⟨res, r₁, feed₁⟩
    rw [hrun] at hok' hres hrest
    dsimp only at hok' hres hrest
    subst hres
    rw [List.append_nil, List.nil_append] at hrest
    -- what is behind the marker
    have htail := (Coro.everySet_bind.mp hset).2 [m] r₁ feed₁ hrun
    have hsuffix := Buffered.pending_suffix (fun _ _ h => h.2)
      (absorbs_parseMarked _ (absorbs_parseFrame _ limit) [m]) hok' htail
    have hwhole : r.readResponse (limit + 1) (chunks.map .chunk) =
        (parseMarkedBy .unlimited (parseFrame limit) [m]).run r₁ feed₁ := Coro.run_bind_of_ok hrun
    rw [hwhole, ← hrest]
    exact hsuffix.2
  · simp [StreamFails] at hfail

variable {limit : ℕ} {r : RespReader} {had later : List Chunk} {b rest : Bytes} {v : RespValue}

/-- The unread bytes in front of two lists of chunks. -/
lemma unread_append_chunks (r : RespReader) (had later : List Chunk) :
    r.unread ((had ++ later).map .chunk) =
      r.unread (had.map .chunk) ++ later.flatMap Chunk.bytes := by
  rw [unread, unread, Buffered.pending, Buffered.pending, Buffered.data_map_chunk,
    Buffered.data_map_chunk, List.flatMap_append, List.append_assoc]
  rfl

/-- A read is interrupted where it waits for the rest of a frame. -/
lemma readResponse_interrupt (hok : respBuffer.Ok r) (hframe : Frame .strict limit b v)
    (hbytes : r.unread ((had ++ later).map .chunk) = b ++ rest)
    (hshort : (r.unread (had.map .chunk)).length < b.length) (e : Exc) :
    r.readResponse limit (had.map .chunk ++ .interrupt e :: later.map .chunk) =
        (.error e, (r.readResponse limit (had.map .chunk)).2.1, later.map .chunk) ∧
      (r.readResponse limit (had.map .chunk)).2.2 = [] := by
  have hpromise : respBuffer.Promises (parseFrame limit) r
      (had.flatMap respBuffer.content ++ later.flatMap respBuffer.content) (.ok v) rest := by
    refine (reads_strictFrame hframe).promises hok ?_
    rw [← hbytes, unread, Buffered.pending, Buffered.data_map_chunk, List.flatMap_append]
  have hkept := hpromise.drive
  have hsplit := Coro.run_append_eq_drive (parseFrame limit) r had
  rcases hdrive : (parseFrame limit).drive r had with ⟨res | c, r', is⟩
  · -- the frame has not arrived
    rw [hdrive] at hkept
    obtain ⟨-, -, hview⟩ := hkept
    rw [unread_append_chunks] at hbytes
    have hlength := congrArg List.length hbytes
    have hlater := congrArg List.length hview
    simp only [List.length_append] at hlength hlater
    have hcontent : (later.flatMap respBuffer.content).length =
        (later.flatMap Chunk.bytes).length := rfl
    omega
  · rw [hdrive] at hkept hsplit
    obtain ⟨-, hwaits, -⟩ := hkept
    have hstop : r.readResponse limit (had.map .chunk) = c.run r' [] := by
      have hempty := hsplit []
      rw [List.append_nil] at hempty
      exact hempty
    have hnil := hwaits.run_nil
    have hcut : r.readResponse limit (had.map .chunk ++ .interrupt e :: later.map .chunk) =
        c.run r' (.interrupt e :: later.map .chunk) := hsplit _
    rw [hcut, hstop, hwaits.run_interrupt, hnil]
    exact ⟨rfl, rfl⟩

/-- What an interrupted read leaves: the rest of the stream behind what it has consumed, and if
anything had arrived, it has consumed something. -/
lemma exists_consumed (hok : respBuffer.Ok r) (hframe : Frame .strict limit b v)
    (hbytes : r.unread ((had ++ later).map .chunk) = b ++ rest)
    (hshort : (r.unread (had.map .chunk)).length < b.length) :
    respBuffer.Ok (r.readResponse limit (had.map .chunk)).2.1 ∧
      ∃ pre, pre ++ (r.readResponse limit (had.map .chunk)).2.1.unread (later.map .chunk) =
        b ++ rest ∧ (pre = [] ↔ r.unread (had.map .chunk) = []) := by
  obtain ⟨-, hfeed⟩ := readResponse_interrupt hok hframe hbytes hshort .cancelledError
  rw [unread_append_chunks] at hbytes
  -- what has arrived of a frame comes to no negative length
  have hneg : ¬ MeetsNegative limit (r.unread (had.map .chunk)) := by
    intro h
    have hmore := h.append (later.flatMap Chunk.bytes)
    rw [hbytes] at hmore
    exact not_meetsNegative_of_frame (hframe.mono Spelling.strict_le_wide) hmore
  have hunread : (r.readResponse limit (had.map .chunk)).2.1.unread
      (r.readResponse limit (had.map .chunk)).2.2 =
        respBuffer.view (r.readResponse limit (had.map .chunk)).2.1 := by
    rw [hfeed]
    exact List.append_nil _
  obtain ⟨hok', pre, hpre⟩ := readResponse_suffix hok hneg
  rw [hunread] at hpre
  refine ⟨hok', pre, ?_, ?_⟩
  · rw [← hbytes, ← hpre, unread, Buffered.pending, Buffered.data_map_chunk, List.append_assoc]
    rfl
  · constructor
    · intro hnil
      cases hx : r.unread (had.map .chunk) with
      | nil => rfl
      | cons m x =>
        cases limit with
        | zero => exact hframe.elim
        | succ limit =>
          have htail := (readResponse_suffix_tail hok hneg hx).length_le
          rw [hunread] at htail
          rw [hnil, List.nil_append, hx] at hpre
          rw [hpre, List.length_cons] at htail
          omega
    · intro hnil
      rw [hnil] at hpre
      exact (List.append_eq_nil_iff.mp hpre).1

/-- A read that is interrupted with `e` behind the chunks `had` can be resumed: once the chunks
`later` arrive, the next call of the same reader returns what an uninterrupted read returns, and
leaves the same bytes unread. -/
def Resumes (limit : ℕ) (r : RespReader) (had later : List Chunk) (e : Exc) : Prop :=
  ∀ read ∈ [RespReader.readResponse limit, AsyncRespReader.readResponse limit],
    let whole := read r ((had ++ later).map .chunk)
    let cut := read r (had.map .chunk ++ .interrupt e :: later.map .chunk)
    let next := read cut.2.1 cut.2.2
    next.1 = whole.1 ∧ next.2.1.unread next.2.2 = whole.2.1.unread whole.2.2

/-- **When an interrupted read can be resumed.**  If the rest of the frame comes to no length below
-1, this is so exactly if nothing of the frame had arrived. -/
theorem resumes_iff (hok : respBuffer.Ok r) (hframe : Frame .strict limit b v)
    (hbytes : r.unread ((had ++ later).map .chunk) = b ++ rest)
    (hshort : (r.unread (had.map .chunk)).length < b.length) (e : Exc)
    (hneg : r.unread (had.map .chunk) ≠ [] → ¬ MeetsNegative limit
      ((r.readResponse limit (had.map .chunk)).2.1.unread (later.map .chunk))) :
    Resumes limit r had later e ↔ r.unread (had.map .chunk) = [] := by
  have hwide := hframe.mono Spelling.strict_le_wide
  obtain ⟨hcut, -⟩ := readResponse_interrupt hok hframe hbytes hshort e
  obtain ⟨hok', pre, hpre, hnothing⟩ := exists_consumed hok hframe hbytes hshort
  obtain ⟨r₁, feed₁, hwhole, hrest⟩ :=
    readResponse_frame hok (Feed.quiet_map_chunk (had ++ later)) hwide hbytes
  constructor
  · intro hresumes
    by_contra harrived
    obtain ⟨hvalue, hleft⟩ := hresumes _ List.mem_cons_self
    simp only [hcut, hwhole] at hvalue hleft
    rw [hrest] at hleft
    rcases hnext : (r.readResponse limit (had.map .chunk)).2.1.readResponse limit
      (later.map .chunk) with ⟨res, r₂, feed₂⟩
    rw [hnext] at hvalue hleft
    dsimp only at hvalue hleft
    subst hvalue
    -- a frame with the same value ends where the frame ends
    obtain ⟨-, -, htaken⟩ := takes_parseFrame _ limit _ (later.map .chunk) hok' (hneg harrived)
    obtain ⟨w, hw, hframe'⟩ := htaken v r₂ feed₂ hnext
    have hw' : (r.readResponse limit (had.map .chunk)).2.1.unread (later.map .chunk) =
        w ++ rest := by
      rw [← hleft]
      exact hw
    rw [hw', ← List.append_assoc] at hpre
    have hends := List.append_cancel_right hpre
    have haligned : [] ++ b = pre ++ w := hends.symm
    rw [eq_of_aligned hframe hframe' (.inl rfl) haligned] at hends
    exact harrived (hnothing.mp (List.append_left_eq_self.mp hends))
  · intro hnil read hread
    have hunread : (r.readResponse limit (had.map .chunk)).2.1.unread (later.map .chunk) =
        b ++ rest := by
      rw [← hpre, hnothing.mpr hnil, List.nil_append]
    obtain ⟨r₂, feed₂, hnext, hrest'⟩ :=
      readResponse_frame hok' (Feed.quiet_map_chunk later) hwide hunread
    have hsame : read = RespReader.readResponse limit := by
      rcases List.mem_pair.mp hread with rfl | rfl <;> rfl
    subst hsame
    simp only [hcut, hnext, hwhole, hrest, hrest', and_self]

/-- An integer of which nothing had arrived. -/
theorem resumes_iff_nothing :
    Resumes 1 .init [] [⟨[58, 55, 13, 10], by decide⟩] (.builtinTimeout "timed out") ↔
      RespReader.init.unread (([] : List Chunk).map .chunk) = [] := by
  have hframe : Frame .strict 1 [58, 55, 13, 10] (.int 7) :=
    FrameOver.integer ⟨[55], by decide⟩ 7 (signedDigits_decimalInt 7)
  have hbytes : RespReader.init.unread
      (([] ++ [⟨[58, 55, 13, 10], by decide⟩] : List Chunk).map .chunk) =
        [58, 55, 13, 10] ++ [] := rfl
  exact resumes_iff ⟨le_rfl, le_rfl⟩ hframe hbytes (by decide) _ fun h => absurd rfl h

/-- An integer of which only the marker had arrived: the next call takes the digit for a marker. -/
theorem not_resumes_marker :
    ¬ Resumes 1 .init [⟨[58], by decide⟩] [⟨[55, 13, 10], by decide⟩]
      (.builtinTimeout "timed out") := by
  intro hresumes
  obtain ⟨hvalue, -⟩ := hresumes _ List.mem_cons_self
  have hwhole : (RespReader.readResponse 1 .init
      (([⟨[58], by decide⟩] ++ [⟨[55, 13, 10], by decide⟩] : List Chunk).map .chunk)).1 =
        .ok (.int 7) := by rfl
  rw [hwhole] at hvalue
  cases hvalue

end RespReader

end KacheDB
