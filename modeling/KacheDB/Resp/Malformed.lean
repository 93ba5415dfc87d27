import KacheDB.Resp.Accepting

/-!
# Malformed streams

Whatever bytes arrive, a read is to return a value or to raise `ResponseError` or `ProtocolError`.
Two conversions of the decoder raise something else: a status or an error line that is not UTF-8
gives rise to `UnicodeDecodeError`, and an integer, a length or a count that `int` does not
convert to `ValueError`: it is no integer, or it has more digits than the interpreter allows.

`raisesOwnErrors_iff` says that these two are the only ones: a call raises its own errors exactly
if it does not come to such a line.  `ReachesForeign` says this along the call, from any state of
the reader, and `MeetsForeign` of the bytes that are left of the stream.
-/

namespace KacheDB

open Foundation

/-- The exceptions that a read is to raise. -/
def Exc.isReplyError : Exc → Bool
  | .responseError _ => true
  | .protocolError _ => true
  | _ => false

/-- The stream comes to a complete line that is not UTF-8 or that `int` does not convert where the
decoder does so, behind items of arrays that are frames. -/
inductive ForeignOver (ints : IntConversion) (item : Bytes → RespValue → Prop)
    (meets : Bytes → Prop) : Bytes → Prop
  | text (marker : UInt8) (hmarker : marker ∈ ([43, 45] : Bytes)) (line : Line)
    (h : decodeUtf8 line.bytes = none) (rest : Bytes) :
    ForeignOver ints item meets (marker :: (line.bytes ++ crlf) ++ rest)
  | number (marker : UInt8) (hmarker : marker ∈ ([58, 36, 42] : Bytes)) (line : Line)
    (h : ints.value line.bytes = none) (rest : Bytes) :
    ForeignOver ints item meets (marker :: (line.bytes ++ crlf) ++ rest)
  | array (line : Line) (n : ℤ) (h : ints.value line.bytes = some n) (j : ℕ) (hj : (j : ℤ) < n)
    (bs : Bytes) (vs : List RespValue) (items : Sequence item j bs vs) (rest : Bytes)
    (hrest : meets rest) :
    ForeignOver ints item meets (42 :: (line.bytes ++ crlf) ++ (bs ++ rest))

/-- A reader that is given this stream comes to a line that it cannot convert. -/
def MeetsForeign (ints : IntConversion) : ℕ → Bytes → Prop
  | 0 => fun _ => False
  | limit + 1 => ForeignOver ints (Frame (.reading ints) limit) (MeetsForeign ints limit)

namespace RespReader

variable {ints : IntConversion}

/-! ## Lines that cannot be converted -/

/-- `int(_read_line())` on a line that is not converted. -/
lemma reads_readInt_of_none {line : Line} (h : ints.value line.bytes = none) :
    respBuffer.Reads (readIntBy ints) (line.bytes ++ crlf)
      (.error (.valueError (ints.refusal line.bytes))) [] := by
  rw [← List.append_nil (line.bytes ++ crlf)]
  refine (reads_readLine line).bind_ok ?_
  simp only [h]
  exact .raise _ []

/-- Items that are frames, and then one in front of which the program raises. -/
lemma reads_replicate_error {item : Parser RespValue} {itemFrame : Bytes → RespValue → Prop}
    (hitem : ∀ b v, itemFrame b v → respBuffer.Reads item b (.ok v) []) {j n : ℕ} (hj : j < n)
    {bs rest left : Bytes} {vs : List RespValue} (hseq : Sequence itemFrame j bs vs) {e : Exc}
    (hrest : respBuffer.Reads item rest (.error e) left) :
    respBuffer.Reads (item.replicate n) (bs ++ rest) (.error e) left := by
  have hlast {α : Type} {c : Parser α} {f : α → Parser (List RespValue)} {inp left : Bytes}
      (hc : respBuffer.Reads c inp (.error e) left) :
      respBuffer.Reads (c.bind f) inp (.error e) left := by
    rw [← List.append_nil inp, ← List.append_nil left]
    exact hc.bind_error []
  induction hseq generalizing n with
  | nil =>
    obtain ⟨n, rfl⟩ := Nat.exists_eq_succ_of_ne_zero hj.ne'
    exact hlast hrest
  | @cons j b bs v vs head _ ih =>
    obtain ⟨n, rfl⟩ := Nat.exists_eq_succ_of_ne_zero (Nat.ne_zero_of_lt hj)
    rw [List.append_assoc, Coro.replicate]
    exact (hitem b v head).bind_ok (hlast (ih (Nat.lt_of_succ_lt_succ hj)))

/-- A stream that comes to a line that cannot be converted raises another exception. -/
theorem reads_of_meetsForeign {limit : ℕ} {x : Bytes} (h : MeetsForeign ints limit x) :
    ∃ e left, e.isReplyError = false ∧
      respBuffer.Reads (parseFrameBy ints limit) x (.error e) left := by
  induction limit generalizing x with
  | zero => exact h.elim
  | succ limit ih =>
    cases h with
    | text marker hmarker line h rest =>
      have htext : Reply.lineText line = .error .unicodeDecodeError := by rw [Reply.lineText, h]
      have hread := htext ▸ reads_readText line
      simp only [List.mem_cons, List.not_mem_nil, or_false] at hmarker
      refine ⟨.unicodeDecodeError, [] ++ rest, rfl, reads_parseFrame_of_marked ?_⟩
      rcases hmarker with rfl | rfl
      · exact hread.bind_error rest
      · exact hread.bind_error rest
    | number marker hmarker line h rest =>
      have hread := reads_readInt_of_none h
      simp only [List.mem_cons, List.not_mem_nil, or_false] at hmarker
      refine ⟨.valueError (ints.refusal line.bytes), [] ++ rest, rfl,
        reads_parseFrame_of_marked ?_⟩
      rcases hmarker with rfl | rfl | rfl
      · exact hread.bind_error rest
      · exact hread.bind_error rest
      · exact hread.bind_error rest
    | array line n hn j hj bs vs items rest hrest =>
      obtain ⟨e, left, he, hread⟩ := ih hrest
      refine ⟨e, left, he, reads_parseFrame_of_marked ?_⟩
      rw [parseMarked_array]
      refine reads_readInt_bind hn ?_
      rw [if_neg (by omega)]
      have hitems := reads_replicate_error (fun _ _ => reads_frame) (by omega : j < n.toNat) items
        hread
      have hlast := hitems.bind_error (f := fun items => .pure (RespValue.list items)) []
      rwa [List.append_nil, List.append_nil] at hlast

/-! ## Everything else -/

/-- The exceptions that a read is to raise, as a property. -/
def IsReplyError (e : Exc) : Prop :=
  e.isReplyError = true

lemma replyErrors_readLine {bad : Bytes → Prop} :
    respBuffer.RaisesWithin IsReplyError readLine bad :=
  .of_raisesOnly ⟨rfl, fun _ => trivial⟩

lemma replyErrors_readExact (n : ℤ) : (readExact n).RaisesOnly IsReplyError :=
  ⟨rfl, fun _ => trivial⟩

/-- `_read_line().decode("utf-8")` raises another exception on a line that is not UTF-8 only. -/
lemma replyErrors_readText : respBuffer.RaisesWithin IsReplyError readText fun x =>
    ∃ (line : Line) (rest : Bytes), decodeUtf8 line.bytes = none ∧
      x = line.bytes ++ crlf ++ rest := by
  refine replyErrors_readLine.bind takes_readLine (fun _ h => h.elim) ?_
  rintro b bs ⟨line, rfl, rfl⟩
  cases hs : decodeUtf8 line.bytes with
  | none => exact .of_bad fun x => ⟨line, x, hs, rfl⟩
  | some s => exact .of_raisesOnly (.pure s)

/-- `int(_read_line())` raises another exception on a line that is not converted only. -/
lemma replyErrors_readInt : respBuffer.RaisesWithin IsReplyError (readIntBy ints) fun x =>
    ∃ (line : Line) (rest : Bytes), ints.value line.bytes = none ∧
      x = line.bytes ++ crlf ++ rest := by
  refine replyErrors_readLine.bind takes_readLine (fun _ h => h.elim) ?_
  rintro b bs ⟨line, rfl, rfl⟩
  cases hn : ints.value line.bytes with
  | none => exact .of_bad fun x => ⟨line, x, hn, rfl⟩
  | some n => exact .of_raisesOnly (.pure n)

/-- Reading `n` items raises another exception only if one of them does. -/
lemma replyErrors_replicate {item : Parser RespValue} {bad₁ bad : Bytes → Prop}
    {good : Bytes → RespValue → Prop} (htakes : respBuffer.Takes Consumes item bad₁ good)
    (hbad : ∀ x, bad₁ x → bad x) (hitem : respBuffer.RaisesWithin IsReplyError item bad) (n : ℕ) :
    respBuffer.RaisesWithin IsReplyError (item.replicate n) fun x =>
      ∃ j < n, ∃ bs vs rest, Sequence good j bs vs ∧ x = bs ++ rest ∧ bad rest := by
  induction n with
  | zero => exact .of_raisesOnly (.pure [])
  | succ n ih =>
    have hfirst : ∀ x, bad x →
        ∃ j < n + 1, ∃ bs vs rest, Sequence good j bs vs ∧ x = bs ++ rest ∧ bad rest :=
      fun x hx => ⟨0, n.succ_pos, [], [], x, .nil, rfl, hx⟩
    rw [Coro.replicate]
    refine (hitem.mono hfirst).bind htakes (fun x hx => hfirst x (hbad x hx)) fun b v hv => ?_
    -- what is bad behind the first item
    have hnext : ∀ x, (∃ j < n, ∃ bs vs rest, Sequence good j bs vs ∧ x = bs ++ rest ∧ bad rest) →
        ∃ j < n + 1, ∃ bs vs rest, Sequence good j bs vs ∧ b ++ x = bs ++ rest ∧ bad rest := by
      rintro x ⟨j, hj, bs, vs, rest, hseq, rfl, hx⟩
      exact ⟨j + 1, Nat.succ_lt_succ hj, b ++ bs, v :: vs, rest, .cons hv hseq,
        (List.append_assoc _ _ _).symm, hx⟩
    refine (ih.mono hnext).bind (takes_replicate htakes n) ?_ fun bs vs _ =>
      .of_raisesOnly (.pure (v :: vs))
    rintro x ⟨j, hj, bs, vs, rest, hseq, rfl, hx⟩
    exact hnext _ ⟨j, hj, bs, vs, rest, hseq, rfl, hbad _ hx⟩

/-- The streams of which nothing is promised at this depth: those that come to a length below -1,
those that come to a line that cannot be converted, and those that may nest too deep. -/
def Doubtful (ints : IntConversion) (limit : ℕ) (x : Bytes) : Prop :=
  MeetsNegativeBy ints limit x ∨ MeetsForeign ints limit x ∨ limit ≤ x.length

section Branches

variable {limit : ℕ}

/-- The items of an array are doubtful only if the array is. -/
lemma doubtful_array {line : Line} {n : ℤ} (hn : ints.value line.bytes = some n) {j : ℕ}
    (hj : j < n.toNat) {bs rest : Bytes} {vs : List RespValue}
    (hseq : Sequence (Frame (.reading ints) limit) j bs vs) (h : Doubtful ints limit rest) :
    Doubtful ints (limit + 1) (42 :: (line.bytes ++ crlf) ++ (bs ++ rest)) := by
  rcases h with hneg | hforeign | hdeep
  · exact .inl (.array line n hn j (by omega) bs vs hseq rest hneg)
  · exact .inr (.inl (.array line n hn j (by omega) bs vs hseq rest hforeign))
  · refine .inr (.inr ?_)
    simp only [List.length_append, List.length_cons]
    omega

/-- A line that is not UTF-8 makes a stream doubtful. -/
lemma doubtful_text {marker : UInt8} (hmarker : marker ∈ ([43, 45] : Bytes)) (x : Bytes)
    (h : ∃ (line : Line) (rest : Bytes), decodeUtf8 line.bytes = none ∧
      x = line.bytes ++ crlf ++ rest) : Doubtful ints (limit + 1) ([marker] ++ x) := by
  obtain ⟨line, rest, hline, rfl⟩ := h
  exact .inr (.inl (.text marker hmarker line hline rest))

/-- So does a line that is not converted. -/
lemma doubtful_number {marker : UInt8} (hmarker : marker ∈ ([58, 36, 42] : Bytes)) (x : Bytes)
    (h : ∃ (line : Line) (rest : Bytes), ints.value line.bytes = none ∧
      x = line.bytes ++ crlf ++ rest) : Doubtful ints (limit + 1) ([marker] ++ x) := by
  obtain ⟨line, rest, hline, rfl⟩ := h
  exact .inr (.inl (.number marker hmarker line hline rest))

/-- What is raised in a bulk string. -/
lemma replyErrors_bulk :
    respBuffer.RaisesWithin IsReplyError (parseMarkedBy ints (parseFrameBy ints limit) [36])
      fun x => Doubtful ints (limit + 1) ([36] ++ x) := by
  rw [parseMarked_bulk]
  refine (replyErrors_readInt.mono (doubtful_number (by simp))).bind takes_readInt
    (fun _ h => h.elim) fun _ n _ => .of_raisesOnly ?_
  split_ifs
  · exact .pure RespValue.none
  · exact (replyErrors_readExact n).bind fun data => (replyErrors_readExact 2).bind fun _ =>
      .pure (RespValue.bytes data)

/-- What is raised in an array. -/
lemma replyErrors_array
    (ih : respBuffer.RaisesWithin IsReplyError (parseFrameBy ints limit) (Doubtful ints limit)) :
    respBuffer.RaisesWithin IsReplyError (parseMarkedBy ints (parseFrameBy ints limit) [42])
      fun x => Doubtful ints (limit + 1) ([42] ++ x) := by
  rw [parseMarked_array]
  refine (replyErrors_readInt.mono (doubtful_number (by simp))).bind takes_readInt
    (fun _ h => h.elim) ?_
  rintro b n ⟨line, hn, rfl⟩
  split_ifs
  · exact .of_raisesOnly (.pure RespValue.none)
  -- an item that is doubtful behind frames makes the array doubtful
  have hitems : ∀ x, (∃ j < n.toNat, ∃ bs vs rest, Sequence (Frame (.reading ints) limit) j bs vs ∧
      x = bs ++ rest ∧ Doubtful ints limit rest) →
        Doubtful ints (limit + 1) ([42] ++ (line.bytes ++ crlf ++ x)) := by
    rintro x ⟨j, hj, bs, vs, rest, hseq, rfl, hx⟩
    exact doubtful_array hn hj hseq hx
  have hreplicate := (replyErrors_replicate (takes_parseFrame ints limit) (fun _ => .inl) ih
    n.toNat).mono hitems
  refine hreplicate.bind (takes_replicate (takes_parseFrame ints limit) n.toNat) ?_
    fun _ items _ => .of_raisesOnly (.pure (RespValue.list items))
  rintro x ⟨j, hj, bs, vs, rest, hseq, rfl, hx⟩
  exact hitems _ ⟨j, hj, bs, vs, rest, hseq, rfl, .inl hx⟩

/-- What is raised behind a marker. -/
lemma replyErrors_parseMarked
    (ih : respBuffer.RaisesWithin IsReplyError (parseFrameBy ints limit) (Doubtful ints limit))
    (byte : UInt8) :
    respBuffer.RaisesWithin IsReplyError (parseMarkedBy ints (parseFrameBy ints limit) [byte])
      fun x => Doubtful ints (limit + 1) ([byte] ++ x) := by
  by_cases hknown : byte ∈ ([43, 45, 58, 36, 42, 95] : Bytes)
  · simp only [List.mem_cons, List.not_mem_nil, or_false] at hknown
    rcases hknown with rfl | rfl | rfl | rfl | rfl | rfl
    · rw [parseMarked_simple]
      exact (replyErrors_readText.mono (doubtful_text (by simp))).bind takes_readText
        (fun _ h => h.elim) fun _ s _ => .of_raisesOnly (.pure (RespValue.str s))
    · rw [parseMarked_error]
      exact (replyErrors_readText.mono (doubtful_text (by simp))).bind takes_readText
        (fun _ h => h.elim) fun _ _ _ => .of_raisesOnly rfl
    · rw [parseMarked_integer]
      exact (replyErrors_readInt.mono (doubtful_number (by simp))).bind takes_readInt
        (fun _ h => h.elim) fun _ n _ => .of_raisesOnly (.pure (RespValue.int n))
    · exact replyErrors_bulk
    · exact replyErrors_array ih
    · rw [parseMarked_null]
      exact replyErrors_readLine.bind takes_readLine (fun _ h => h.elim)
        fun _ _ _ => .of_raisesOnly (.pure RespValue.none)
  · rw [parseMarked_foreign _ _ hknown]
    exact .of_raisesOnly rfl

end Branches

/-- **The decoder raises its own exceptions except where a line cannot be converted.** -/
theorem replyErrors_parseFrame (ints : IntConversion) (limit : ℕ) :
    respBuffer.RaisesWithin IsReplyError (parseFrameBy ints limit) (Doubtful ints limit) := by
  induction limit with
  | zero => exact .of_bad fun x => .inr (.inr x.length.zero_le)
  | succ limit ih =>
    have hmarker : respBuffer.RaisesWithin IsReplyError readMarker (Doubtful ints (limit + 1)) :=
      .of_raisesOnly ⟨rfl, fun _ => trivial⟩
    refine hmarker.bind takes_readMarker (fun _ h => h.elim) ?_
    rintro b _ ⟨rfl, byte, rfl⟩
    exact replyErrors_parseMarked ih byte

/-! ## From any state

Behind a length below -1 the cursor may stand anywhere, also in front of the buffer, and what a call
reads is no longer the rest of the stream.  What it raises is then said along its own run. -/

/-- The call comes, behind this marker, to a line that it cannot convert, or to an item of which
`reaches` says so; `item` reads one item. -/
inductive ForeignBehind (ints : IntConversion) (item : Parser RespValue)
    (reaches : RespReader → Feed → Prop) :
    Bytes → RespReader → Feed → Prop
  | text (marker : Bytes) (hmarker : marker ∈ ([[43], [45]] : List Bytes)) (r : RespReader)
    (feed : Feed) (line : Bytes) (r' : RespReader) (feed' : Feed)
    (hline : readLine.run r feed = (.ok line, r', feed')) (h : decodeUtf8 line = none) :
    ForeignBehind ints item reaches marker r feed
  | number (marker : Bytes) (hmarker : marker ∈ ([[58], [36], [42]] : List Bytes)) (r : RespReader)
    (feed : Feed) (line : Bytes) (r' : RespReader) (feed' : Feed)
    (hline : readLine.run r feed = (.ok line, r', feed')) (h : ints.value line = none) :
    ForeignBehind ints item reaches marker r feed
  | array (r : RespReader) (feed : Feed) (n : ℤ) (r' : RespReader) (feed' : Feed)
    (hcount : (readIntBy ints).run r feed = (.ok n, r', feed')) (j : ℕ) (hj : (j : ℤ) < n)
    (items : List RespValue) (r'' : RespReader) (feed'' : Feed)
    (hitems : (item.replicate j).run r' feed' = (.ok items, r'', feed''))
    (hrest : reaches r'' feed'') : ForeignBehind ints item reaches [42] r feed

/-- A call from this state comes to a line that it cannot convert, or to the end of the stack. -/
def ReachesForeign (ints : IntConversion) : ℕ → RespReader → Feed → Prop
  | 0 => fun _ _ => True
  | limit + 1 => fun r feed => ∃ marker r' feed', readMarker.run r feed = (.ok marker, r', feed') ∧
      ForeignBehind ints (parseFrameBy ints limit) (ReachesForeign ints limit) marker r' feed'

section AnyState

variable {r r' : RespReader} {feed feed' : Feed}

/-- What a run leaves of a feed without interruptions has none. -/
lemma quiet_of_run {α : Type} {c : Parser α} {out : Except Exc α} (hfeed : feed.Quiet)
    (h : c.run r feed = (out, r', feed')) : feed'.Quiet := by
  have hsuffix := Coro.run_suffix c r feed
  rw [h] at hsuffix
  exact hfeed.of_suffix hsuffix

/-- A program that raises its own exceptions only does so from any state. -/
lemma raisesHere_of_run {α β : Type} {c : Parser α} {f : α → Parser β} (hfeed : feed.Quiet)
    (hf : ∀ a, (f a).RaisesOnly IsReplyError) :
    (c.bind f).RaisesHere IsReplyError r feed ↔ c.RaisesHere IsReplyError r feed := by
  rw [Coro.raisesHere_bind_iff]
  exact and_iff_left fun a r' feed' hrun => (hf a).here (quiet_of_run hfeed hrun)

/-- `_read_line().decode("utf-8")` from any state. -/
lemma raisesHere_readText_iff (hfeed : feed.Quiet) :
    readText.RaisesHere IsReplyError r feed ↔
      ∀ line r' feed', readLine.run r feed = (.ok line, r', feed') → decodeUtf8 line ≠ none := by
  have hline : readLine.RaisesHere IsReplyError r feed :=
    Coro.RaisesOnly.here ⟨rfl, fun _ => trivial⟩ hfeed
  rw [readText, Coro.bind_eq, Coro.raisesHere_bind_iff, and_iff_right hline]
  refine forall_congr' fun line => forall_congr' fun r' => forall_congr' fun feed' =>
    imp_congr_right fun _ => ?_
  cases decodeUtf8 line with
  | none => simp [IsReplyError, Exc.isReplyError]
  | some s => simp

/-- `int(_read_line())` from any state. -/
lemma raisesHere_readInt_iff (hfeed : feed.Quiet) :
    (readIntBy ints).RaisesHere IsReplyError r feed ↔
      ∀ line r' feed', readLine.run r feed = (.ok line, r', feed') →
        ints.value line ≠ none := by
  have hline : readLine.RaisesHere IsReplyError r feed :=
    Coro.RaisesOnly.here ⟨rfl, fun _ => trivial⟩ hfeed
  rw [readIntBy, Coro.bind_eq, Coro.raisesHere_bind_iff, and_iff_right hline]
  refine forall_congr' fun line => forall_congr' fun r' => forall_congr' fun feed' =>
    imp_congr_right fun _ => ?_
  cases ints.value line with
  | none => simp [IsReplyError, Exc.isReplyError]
  | some n => simp

variable {item : Parser RespValue} {reaches : RespReader → Feed → Prop}

/-- A text that is read behind a marker. -/
lemma raisesHere_text_iff {marker : Bytes} (hmarker : marker ∈ ([[43], [45]] : List Bytes))
    (hfeed : feed.Quiet) :
    readText.RaisesHere IsReplyError r feed ↔ ¬ ForeignBehind ints item reaches marker r feed := by
  rw [raisesHere_readText_iff hfeed]
  constructor
  · intro h hforeign
    cases hforeign with
    | text _ _ _ _ line r' feed' hline hnone => exact h line r' feed' hline hnone
    | number _ hnumber => rcases List.mem_pair.mp hmarker with rfl | rfl <;> simp at hnumber
    | array => simp at hmarker
  · intro h line r' feed' hline hnone
    exact h (.text marker hmarker r feed line r' feed' hline hnone)

/-- A number that is read behind the marker of an integer or a bulk string. -/
lemma raisesHere_number_iff {marker : Bytes} (hmarker : marker ∈ ([[58], [36]] : List Bytes))
    (hfeed : feed.Quiet) :
    (readIntBy ints).RaisesHere IsReplyError r feed ↔
      ¬ ForeignBehind ints item reaches marker r feed := by
  rw [raisesHere_readInt_iff hfeed]
  constructor
  · intro h hforeign
    cases hforeign with
    | text _ htext => rcases List.mem_pair.mp hmarker with rfl | rfl <;> simp at htext
    | number _ _ _ _ line r' feed' hline hnone => exact h line r' feed' hline hnone
    | array => simp at hmarker
  · intro h line r' feed' hline hnone
    refine h (.number marker ?_ r feed line r' feed' hline hnone)
    exact List.mem_append_left [[42]] hmarker

/-- The items of an array. -/
lemma raisesHere_array_iff (hfeed : feed.Quiet)
    (hitem : ∀ r feed, Feed.Quiet feed → (item.RaisesHere IsReplyError r feed ↔ ¬ reaches r feed)) :
    (parseMarkedBy ints item [42]).RaisesHere IsReplyError r feed ↔
      ¬ ForeignBehind ints item reaches [42] r feed := by
  rw [parseMarked_array, Coro.raisesHere_bind_iff, raisesHere_readInt_iff hfeed]
  constructor
  · rintro ⟨hcount, hitems⟩ hforeign
    cases hforeign with
    | text _ htext => simp at htext
    | number _ _ _ _ line r' feed' hline hnone => exact hcount line r' feed' hline hnone
    | array _ _ n r' feed' hrun j hj items r'' feed'' hrun' hrest =>
      have hown := hitems n r' feed' hrun
      rw [if_neg (by omega), raisesHere_of_run (quiet_of_run hfeed hrun) fun _ => .pure _,
        Coro.raisesHere_replicate_iff] at hown
      have hquiet := quiet_of_run (quiet_of_run hfeed hrun) hrun'
      exact (hitem r'' feed'' hquiet).mp (hown j (by omega) items r'' feed'' hrun') hrest
  · intro h
    refine ⟨fun line r' feed' hline hnone => ?_, fun n r' feed' hrun => ?_⟩
    · exact h (.number [42] (by simp) r feed line r' feed' hline hnone)
    split_ifs with hnull
    · exact Coro.raisesHere_pure _
    · rw [raisesHere_of_run (quiet_of_run hfeed hrun) fun _ => .pure _,
        Coro.raisesHere_replicate_iff]
      intro j hj items r'' feed'' hrun'
      refine (hitem r'' feed'' (quiet_of_run (quiet_of_run hfeed hrun) hrun')).mpr fun hrest => ?_
      exact h (.array r feed n r' feed' hrun j (by omega) items r'' feed'' hrun' hrest)

/-- What is raised behind a marker, from any state. -/
lemma raisesHere_parseMarked_iff (hfeed : feed.Quiet)
    (hitem : ∀ r feed, Feed.Quiet feed → (item.RaisesHere IsReplyError r feed ↔ ¬ reaches r feed))
    (marker : Bytes) :
    (parseMarkedBy ints item marker).RaisesHere IsReplyError r feed ↔
      ¬ ForeignBehind ints item reaches marker r feed := by
  by_cases hsimple : marker = [43]
  · subst hsimple
    rw [parseMarked_simple, raisesHere_of_run hfeed fun _ => .pure _]
    exact raisesHere_text_iff (by simp) hfeed
  by_cases herror : marker = [45]
  · subst herror
    rw [parseMarked_error, raisesHere_of_run hfeed]
    · exact raisesHere_text_iff (by simp) hfeed
    · intro msg
      exact rfl
  by_cases hinteger : marker = [58]
  · subst hinteger
    rw [parseMarked_integer, raisesHere_of_run hfeed fun _ => .pure _]
    exact raisesHere_number_iff (by simp) hfeed
  by_cases hbulk : marker = [36]
  · subst hbulk
    rw [parseMarked_bulk, raisesHere_of_run hfeed]
    · exact raisesHere_number_iff (by simp) hfeed
    · intro n
      split_ifs
      · exact .pure RespValue.none
      · exact (replyErrors_readExact n).bind fun data => (replyErrors_readExact 2).bind fun _ =>
          .pure (RespValue.bytes data)
  by_cases harray : marker = [42]
  · subst harray
    exact raisesHere_array_iff hfeed hitem
  -- a null, or no marker at all
  have hown : (parseMarkedBy ints item marker).RaisesOnly IsReplyError := by
    rw [parseMarkedBy, if_neg hsimple, if_neg herror, if_neg hinteger, if_neg hbulk, if_neg harray]
    split_ifs
    · exact ⟨rfl, fun _ => trivial⟩
    · exact rfl
  refine iff_of_true (hown.here hfeed) fun hforeign => ?_
  cases hforeign with
  | text _ htext => simp [hsimple, herror] at htext
  | number _ hnumber => simp [hinteger, hbulk, harray] at hnumber
  | array => exact harray rfl

end AnyState

/-- **From any state a call raises its own exceptions exactly if it reaches nothing foreign.** -/
theorem raisesHere_parseFrame_iff (ints : IntConversion) (limit : ℕ) (r : RespReader) (feed : Feed)
    (hfeed : feed.Quiet) :
    (parseFrameBy ints limit).RaisesHere IsReplyError r feed ↔
      ¬ ReachesForeign ints limit r feed := by
  induction limit generalizing r feed with
  | zero =>
    rw [parseFrameBy, Coro.raisesHere_raise]
    exact iff_of_false (by simp [IsReplyError, Exc.isReplyError]) fun h => h trivial
  | succ limit ih =>
    have hmarker : readMarker.RaisesHere IsReplyError r feed :=
      Coro.RaisesOnly.here ⟨rfl, fun _ => trivial⟩ hfeed
    have hmarked {marker : Bytes} {r' : RespReader} {feed' : Feed}
        (h : readMarker.run r feed = (.ok marker, r', feed')) :
        (parseMarkedBy ints (parseFrameBy ints limit) marker).RaisesHere IsReplyError r' feed' ↔
          ¬ ForeignBehind ints (parseFrameBy ints limit) (ReachesForeign ints limit) marker r'
            feed' :=
      raisesHere_parseMarked_iff (quiet_of_run hfeed h) ih marker
    rw [parseFrameBy, Coro.bind_eq, Coro.raisesHere_bind_iff, and_iff_right hmarker]
    constructor
    · rintro h ⟨marker, r', feed', hrun, hforeign⟩
      exact (hmarked hrun).mp (h marker r' feed' hrun) hforeign
    · intro h marker r' feed' hrun
      exact (hmarked hrun).mpr fun hforeign => h ⟨marker, r', feed', hrun, hforeign⟩

/-! ## Calls -/

/-- A call of either reader returns a value, or raises `ResponseError` or `ProtocolError`. -/
def RaisesOwnErrors (ints : IntConversion) (limit : ℕ) (r : RespReader) (feed : Feed) : Prop :=
  ∀ read ∈ [RespReader.readResponseBy ints limit, AsyncRespReader.readResponseBy ints limit],
    ∀ e, (read r feed).1 = .error e → e.isReplyError = true

/-- One call from any state. -/
lemma raisesOwnErrors_iff_reaches (ints : IntConversion) (limit : ℕ) (r : RespReader) {feed : Feed}
    (hfeed : feed.Quiet) :
    RaisesOwnErrors ints limit r feed ↔ ¬ ReachesForeign ints limit r feed := by
  rw [← raisesHere_parseFrame_iff ints limit r feed hfeed]
  constructor
  · intro h
    exact h _ List.mem_cons_self
  · intro h read hread
    rcases List.mem_pair.mp hread with rfl | rfl
    · exact h
    · exact h

/-- One call on a well-formed reader. -/
lemma raisesOwnErrors_iff_of_ok {limit : ℕ} {r : RespReader} (hok : respBuffer.Ok r)
    (chunks : List Chunk) (hstack : (r.unread (chunks.map .chunk)).length < limit)
    (hneg : ¬ MeetsNegativeBy ints limit (r.unread (chunks.map .chunk))) :
    RaisesOwnErrors ints limit r (chunks.map .chunk) ↔
      ¬ MeetsForeign ints limit (r.unread (chunks.map .chunk)) := by
  constructor
  · intro hown hforeign
    obtain ⟨e, left, he, hread⟩ := reads_of_meetsForeign hforeign
    obtain ⟨-, ⟨hres, -⟩ | ⟨e', -, hfail⟩⟩ := hread r (chunks.map .chunk) [] [] hok rfl
    · have htrue := hown _ List.mem_cons_self e hres
      rw [he] at htrue
      cases htrue
    · simp [StreamFails] at hfail
  · intro hforeign read hmem e he
    have hclear : ¬ Doubtful ints limit (r.unread (chunks.map .chunk)) := by
      rintro (h | h | h)
      · exact hneg h
      · exact hforeign h
      · omega
    have hown := replyErrors_parseFrame ints limit r chunks hok hclear e
    rcases List.mem_pair.mp hmem with rfl | rfl
    · exact hown he
    · exact hown he

/-- No read behind the first ones is interrupted either. -/
lemma quiet_afterReads (ints : IntConversion) (limit : ℕ) (chunks : List Chunk) (n : ℕ) :
    Feed.Quiet (afterReadsBy ints limit chunks n).2 := by
  induction n with
  | zero => exact Feed.quiet_map_chunk chunks
  | succ n ih => exact ih.of_suffix (Coro.run_suffix _ _ _)

/-- **When a call raises its own errors.**  In front of every stream, however it is cut into
chunks, and whatever limit the interpreter sets on the digits of an integer, a call of a new reader
or any later call returns a value or raises `ResponseError` or `ProtocolError` exactly if it does
not reach a line that it cannot convert, or the end of the stack.  As long as the calls come to no
length below -1, this is a condition on the rest of the stream. -/
theorem raisesOwnErrors_iff (maxDigits limit : ℕ) (chunks : List Chunk) (n : ℕ) :
    (RaisesOwnErrors (.within maxDigits) limit (afterReadsBy (.within maxDigits) limit chunks n).1
        (afterReadsBy (.within maxDigits) limit chunks n).2 ↔
      ¬ ReachesForeign (.within maxDigits) limit
        (afterReadsBy (.within maxDigits) limit chunks n).1
        (afterReadsBy (.within maxDigits) limit chunks n).2) ∧
    ((chunks.flatMap Chunk.bytes).length < limit →
      (∀ k ≤ n, ¬ MeetsNegativeBy (.within maxDigits) limit
        ((afterReadsBy (.within maxDigits) limit chunks k).1.unread
          (afterReadsBy (.within maxDigits) limit chunks k).2)) →
      (ReachesForeign (.within maxDigits) limit
          (afterReadsBy (.within maxDigits) limit chunks n).1
          (afterReadsBy (.within maxDigits) limit chunks n).2 ↔
        MeetsForeign (.within maxDigits) limit
          ((afterReadsBy (.within maxDigits) limit chunks n).1.unread
            (afterReadsBy (.within maxDigits) limit chunks n).2))) := by
  generalize IntConversion.within maxDigits = ints
  have hreaches := raisesOwnErrors_iff_reaches ints limit (afterReadsBy ints limit chunks n).1
    (quiet_afterReads ints limit chunks n)
  refine ⟨hreaches, fun hstack hneg => ?_⟩
  obtain ⟨hok, ⟨chunks', hfeed⟩, hsuffix⟩ := ok_afterReads fun k hk => hneg k (Nat.le_of_lt hk)
  have hshort := hsuffix.length_le
  have hnegn := hneg n le_rfl
  rw [hfeed] at hshort hnegn hreaches ⊢
  have hone := raisesOwnErrors_iff_of_ok hok chunks' (by omega) hnegn
  exact not_iff_not.mp (hreaches.symm.trans hone)

/-- An integer that is none raises `ValueError`, under the limit that the interpreter starts
with. -/
theorem not_raisesOwnErrors :
    ¬ RaisesOwnErrors (.within 4300) 6
      (afterReadsBy (.within 4300) 6 [⟨[58, 120, 13, 10], by decide⟩] 0).1
      (afterReadsBy (.within 4300) 6 [⟨[58, 120, 13, 10], by decide⟩] 0).2 := by
  intro hown
  have htrue := hown _ List.mem_cons_self
    (.valueError "invalid literal for int() with base 10: b'x'") (by rfl)
  cases htrue

end RespReader

end KacheDB
