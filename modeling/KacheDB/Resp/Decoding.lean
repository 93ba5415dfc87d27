import KacheDB.Resp.Reply

/-!
# What the decoder does with a reply

`reads_parseFrame` is the one fact about the decoder that everything above it uses: in
front of the bytes of a reply, under any cutting into chunks, `parseFrame` ends with the
reply's `outcome` and leaves the reply's `leftover` unread, unless the stream itself fails.
It follows from one such fact for each method of the reader, by induction over the reply.

From it come the two statements about whole streams: successive reads of value replies
return these values (`readResponse_stream`), and a read of a reply that is no value raises
and leaves exactly its rest.
-/

namespace KacheDB

open Foundation

/-! ## The stream behind a reader -/

/-- How a reader buffers the stream: it holds the bytes from the cursor on, and it is well
formed when the cursor lies within the buffer. -/
def respBuffer : Buffered RespReader Chunk UInt8 where
  view r := r.buf.drop r.pos.toNat
  content := Chunk.bytes
  Ok r := 0 ≤ r.pos ∧ r.pos ≤ r.buf.length

/-- The bytes that a connection has not read yet: the buffer from the cursor on, then the
chunks that are still to arrive. -/
def RespReader.unread (r : RespReader) (feed : Feed) : Bytes :=
  respBuffer.pending r feed

namespace RespReader

/-- The cursor of a well-formed reader as a natural number. -/
lemma exists_pos_eq {r : RespReader} (h : respBuffer.Ok r) :
    ∃ p : ℕ, r.pos = p ∧ p ≤ r.buf.length := by
  obtain ⟨h₀, h₁⟩ := h
  exact ⟨r.pos.toNat, by omega, by omega⟩

/-- A new chunk goes behind the unread bytes. -/
lemma extend_spec (c : Chunk) (r : RespReader) (h : respBuffer.Ok r) :
    respBuffer.Ok (r.extend c) ∧
      respBuffer.view (r.extend c) = respBuffer.view r ++ respBuffer.content c := by
  obtain ⟨p, hp, hle⟩ := exists_pos_eq h
  refine ⟨⟨h.1, ?_⟩, ?_⟩
  · simp only [extend, List.length_append, Nat.cast_add]
    exact h.2.trans (by omega)
  · simp [respBuffer, extend, hp, List.drop_append_of_le_length hle]

/-- Compaction changes neither the unread bytes nor the well-formedness. -/
lemma compact_spec (r : RespReader) (h : respBuffer.Ok r) :
    respBuffer.Ok r.compact ∧ respBuffer.view r.compact = respBuffer.view r := by
  obtain ⟨p, hp, hle⟩ := exists_pos_eq h
  unfold compact
  split
  · exact ⟨⟨le_rfl, by simp⟩, by simp [respBuffer, hp, min_eq_left hle]⟩
  · exact ⟨h, rfl⟩

/-- Moving the cursor over the first `n` unread bytes takes them off the stream. -/
lemma advance_spec {r : RespReader} (r' : RespReader) {p : ℕ} (hp : r.pos = p) (taken : Bytes)
    {more rest : Bytes} (hlen : p + taken.length ≤ r.buf.length)
    (h : respBuffer.view r ++ more = taken ++ rest) (hbuf : r'.buf = r.buf)
    (hpos : r'.pos = ((p + taken.length : ℕ) : ℤ)) :
    respBuffer.Ok r' ∧ respBuffer.view r' ++ more = rest ∧
      (r.buf.drop p).take taken.length = taken := by
  have hview : respBuffer.view r = r.buf.drop p := by simp [respBuffer, hp]
  rw [hview] at h
  have hlen' : taken.length ≤ (r.buf.drop p).length := by rw [List.length_drop]; omega
  refine ⟨⟨by omega, by rw [hpos, hbuf]; exact_mod_cast hlen⟩, ?_, ?_⟩
  · have hdrop := congrArg (List.drop taken.length) h
    rw [List.drop_append_of_le_length hlen', List.drop_left, List.drop_drop] at hdrop
    simpa only [respBuffer, hbuf, hpos, Int.toNat_natCast] using hdrop
  · have htake := congrArg (List.take taken.length) h
    rwa [List.take_append_of_le_length hlen', List.take_left] at htake

/-! ## The methods of the reader -/

/-- `_read_exact` reads the next `n` bytes. -/
lemma reads_readExact (data : Bytes) {n : ℤ} (hn : n = data.length) :
    respBuffer.Reads (readExact n) data (.ok data) [] := by
  subst hn
  refine Buffered.Reads.await_step extend_spec ?_ ?_
  · rintro r more rest hok hview hready rfl
    obtain ⟨p, hp, hle⟩ := exists_pos_eq hok
    have hlen := congrArg List.length hview
    simp only [respBuffer, hp, Int.toNat_natCast, List.append_nil, List.length_append,
      List.length_drop] at hlen
    simp only [hp, Bool.not_eq_eq_eq_not, Bool.not_false, decide_eq_true_eq] at hready
    omega
  · intro r feed more rest hok hview hready
    obtain ⟨p, hp, hle⟩ := exists_pos_eq hok
    simp only [hp, Bool.not_eq_eq_eq_not, Bool.not_true, decide_eq_false_iff_not,
      not_lt] at hready
    obtain ⟨hok', hview', htake⟩ := advance_spec { r with pos := r.pos + data.length } hp data
      (by omega) hview rfl (by simp [hp])
    obtain ⟨hokc, hviewc⟩ := compact_spec _ hok'
    refine ⟨_, ?_, hokc, by rw [hviewc]; exact hview'⟩
    have hslice : slice r.buf r.pos (r.pos + data.length) = data := by
      rw [hp, ← Nat.cast_add, slice_natCast, Nat.add_sub_cancel_left, htake]
    exact Prod.ext (congrArg Except.ok hslice) rfl

/-- `_read_line` reads up to the next line end. -/
lemma reads_readLine (line : Line) :
    respBuffer.Reads readLine (line.bytes ++ crlf) (.ok line.bytes) [] := by
  refine Buffered.Reads.await_step extend_spec ?_ ?_
  · rintro r more rest hok hview hready rfl
    obtain ⟨p, hp, hle⟩ := exists_pos_eq hok
    have hinfix : crlf <:+: r.buf.drop p := by
      refine ⟨line.bytes, rest, ?_⟩
      simpa [respBuffer, hp] using hview.symm
    have hsome := findIdx_isSome hinfix
    simp [find, hp, min_eq_left hle, hsome] at hready
  · intro r feed more rest hok hview hready
    obtain ⟨p, hp, hle⟩ := exists_pos_eq hok
    have hdrop : r.buf.drop p ++ more = line.bytes ++ crlf ++ rest := by
      simpa [respBuffer, hp] using hview
    obtain ⟨i, hi⟩ : ∃ i, findIdx crlf (r.buf.drop p) = some i := by
      simpa [find, hp, min_eq_left hle, Option.isSome_iff_exists] using hready
    -- the line end that the buffer holds is the first one of the stream
    have hilen : i = line.bytes.length := by
      have hfirst := findIdx_append hi more
      rw [hdrop, findIdx_crlf_append _ _ line.no_crlf] at hfirst
      exact (Option.some.inj hfirst).symm
    subst hilen
    have hlen : p + (line.bytes ++ crlf).length ≤ r.buf.length := by
      have hfit := (add_length_le_of_findIdx hi).resolve_right (by simp [crlf])
      rw [List.length_drop] at hfit
      rw [List.length_append]
      omega
    have hfind : (find r.buf crlf r.pos).getD 0 = line.bytes.length + p := by
      simp [find, hp, min_eq_left hle, hi]
    obtain ⟨hok', hview', htake⟩ := advance_spec
      { r with pos := ((find r.buf crlf r.pos).getD 0 : ℤ) + 2 } hp (line.bytes ++ crlf) hlen hview
      rfl (by rw [hfind]; simp [crlf]; ring)
    obtain ⟨hokc, hviewc⟩ := compact_spec _ hok'
    refine ⟨_, ?_, hokc, by rw [hviewc]; exact hview'⟩
    have hslice : slice r.buf r.pos ((find r.buf crlf r.pos).getD 0 : ℕ) = line.bytes := by
      rw [hfind, hp, slice_natCast, Nat.add_sub_cancel]
      have := congrArg (List.take line.bytes.length) htake
      rwa [List.take_take, min_eq_left (by simp), List.take_left] at this
    exact Prod.ext (congrArg Except.ok hslice) rfl

/-- The marker is the next byte. -/
lemma reads_readMarker (b : UInt8) :
    respBuffer.Reads readMarker [b] (.ok [b]) [] := by
  refine Buffered.Reads.await_step extend_spec ?_ ?_
  · rintro r more rest hok hview hready rfl
    obtain ⟨p, hp, hle⟩ := exists_pos_eq hok
    have hlen := congrArg List.length hview
    simp only [respBuffer, hp, Int.toNat_natCast, List.append_nil, List.length_append,
      List.length_drop, List.length_cons, List.length_nil] at hlen
    simp only [hp, Bool.not_eq_eq_eq_not, Bool.not_false, decide_eq_true_eq] at hready
    omega
  · intro r feed more rest hok hview hready
    obtain ⟨p, hp, hle⟩ := exists_pos_eq hok
    simp only [hp, Bool.not_eq_eq_eq_not, Bool.not_true, decide_eq_false_iff_not,
      not_lt] at hready
    obtain ⟨hok', hview', htake⟩ := advance_spec { r with pos := r.pos + 1 } hp [b]
      (by simp only [List.length_cons, List.length_nil]; omega) hview rfl (by simp [hp])
    refine ⟨_, ?_, hok', hview'⟩
    have hslice : slice r.buf r.pos (r.pos + 1) = [b] := by
      have h1 : r.pos + 1 = ((p + 1 : ℕ) : ℤ) := by simp [hp]
      rw [h1, hp, slice_natCast, Nat.add_sub_cancel_left]
      exact htake
    exact Prod.ext (congrArg Except.ok hslice) rfl

/-- `_read_line().decode("utf-8")` gives the text of the line. -/
lemma reads_readText (line : Line) :
    respBuffer.Reads readText (line.bytes ++ crlf) (Reply.lineText line) [] := by
  rw [← List.append_nil (line.bytes ++ crlf)]
  refine (reads_readLine line).bind_ok ?_
  unfold Reply.lineText
  cases decodeUtf8 line.bytes with
  | some s => exact .pure s
  | none => exact .raise _ []

/-- `int(_read_line())` on a line that is converted. -/
lemma reads_readInt_of_value {ints : IntConversion} {line : Line} {n : ℤ}
    (h : ints.value line.bytes = some n) :
    respBuffer.Reads (readIntBy ints) (line.bytes ++ crlf) (.ok n) [] := by
  rw [← List.append_nil (line.bytes ++ crlf)]
  refine (reads_readLine line).bind_ok ?_
  simp only [h]
  exact .pure n

/-- `int(_read_line())` on the decimal form of a number. -/
lemma reads_readInt (n : ℤ) :
    respBuffer.Reads readInt (decimalInt n ++ crlf) (.ok n) [] :=
  @reads_readInt_of_value _ ⟨decimalInt n, not_crlf_infix_decimalInt n⟩ _ (parseInt_decimalInt n)

/-- The same for a length or a count. -/
lemma reads_readInt_natCast (n : ℕ) :
    respBuffer.Reads readInt (decimal n ++ crlf) (.ok (n : ℤ)) [] := by
  have h := reads_readInt n
  rwa [decimalInt, if_neg (by omega), Int.natAbs_natCast] at h

/-! ## Frames -/

/-- Mapping an outcome is binding it. -/
private lemma map_eq_bind {α β : Type} (f : α → β) (r : Except Exc α) :
    r.map f = r.bind fun a => .ok (f a) := by
  cases r <;> rfl

/-- Reading as many frames as there are replies reads these replies. -/
lemma reads_replicate {c : Parser RespValue} {limit : ℕ} {rs : List Reply}
    (h : ∀ r ∈ rs, respBuffer.Reads c r.encode (r.outcome limit) (r.leftover limit)) :
    respBuffer.Reads (c.replicate rs.length) (Reply.encodeList rs) (Reply.outcomeList limit rs)
      (Reply.leftoverList limit rs) := by
  induction rs with
  | nil => exact .pure []
  | cons r rs ih =>
    have hr := h r List.mem_cons_self
    have hrs := ih fun r' hr' => h r' (List.mem_cons_of_mem r hr')
    rw [Reply.encodeList, List.length_cons, Coro.replicate]
    cases hout : r.outcome limit with
    | error e =>
      rw [Reply.outcomeList_cons_of_error hout, Reply.leftoverList_cons_of_error hout]
      exact (hout ▸ hr).bind_error _
    | ok v =>
      have hclean : r.leftover limit = [] := Reply.clean_of_isValue ⟨v, hout⟩
      rw [hclean, hout] at hr
      rw [Reply.leftoverList_cons_of_ok hout, Reply.outcomeList_cons_of_ok hout]
      refine hr.bind_ok ?_
      cases hl : Reply.outcomeList limit rs with
      | error e =>
        rw [hl] at hrs
        simpa [Except.map] using hrs.bind_error []
      | ok vs =>
        have hnil : Reply.leftoverList limit rs = [] := Reply.leftoverList_eq_nil rs vs hl
        rw [hl, hnil] at hrs
        rw [hnil, ← List.append_nil (Reply.encodeList rs)]
        exact hrs.bind_ok (.pure (v :: vs))

/-- A frame is read by reading what lies behind its marker. -/
lemma reads_parseFrame_of_marked {ints : IntConversion} {limit : ℕ} {b : UInt8}
    {inp left : Bytes} {res : Except Exc RespValue}
    (h : respBuffer.Reads (parseMarkedBy ints (parseFrameBy ints limit) [b]) inp res left) :
    respBuffer.Reads (parseFrameBy ints (limit + 1)) (b :: inp) res left :=
  (reads_readMarker b).bind_ok h

/-- The branch for a bulk string. -/
lemma reads_bulk (item : Parser RespValue) (data : Bytes) :
    respBuffer.Reads (parseMarkedBy .unlimited item [36])
      (decimal data.length ++ crlf ++ data ++ crlf) (.ok (.bytes data)) [] := by
  rw [parseMarked_bulk, List.append_assoc]
  refine (reads_readInt_natCast data.length).bind_ok ?_
  rw [if_neg (by omega), ← List.append_nil (data ++ crlf), List.append_assoc]
  exact (reads_readExact data rfl).bind_ok ((reads_readExact crlf rfl).bind_ok (.pure _))

/-- The branch for a null, bulk or array: the length `-1` and nothing behind it. -/
lemma reads_minusOne (rest : ℤ → Parser RespValue) (h : rest (-1) = .pure RespValue.none) :
    respBuffer.Reads (readInt.bind rest) (decimalInt (-1) ++ crlf) (.ok .none) [] := by
  rw [← List.append_nil (decimalInt (-1) ++ crlf)]
  refine (reads_readInt (-1)).bind_ok ?_
  rw [h]
  exact .pure RespValue.none

/-- The branch for an array. -/
lemma reads_array {item : Parser RespValue} {limit : ℕ} {items : List Reply}
    (h : ∀ r ∈ items, respBuffer.Reads item r.encode (r.outcome limit) (r.leftover limit)) :
    respBuffer.Reads (parseMarkedBy .unlimited item [42])
      (decimal items.length ++ crlf ++ Reply.encodeList items)
      ((Reply.outcomeList limit items).map .list) (Reply.leftoverList limit items) := by
  rw [parseMarked_array]
  refine (reads_readInt_natCast items.length).bind_ok ?_
  rw [if_neg (by omega), Int.toNat_natCast, map_eq_bind]
  exact (reads_replicate h).bind_last (fun vs hvs => Reply.leftoverList_eq_nil items vs hvs)
    fun vs => .pure (RespValue.list vs)

/-- In front of a reply the decoder ends with the reply's outcome and leaves the reply's
leftover, at every depth that the stack allows. -/
theorem reads_parseFrame (limit : ℕ) (r : Reply) :
    respBuffer.Reads (parseFrame limit) r.encode (r.outcome limit) (r.leftover limit) := by
  induction limit generalizing r with
  | zero =>
    rw [Reply.outcome_zero, Reply.leftover_zero]
    exact .raise _ _
  | succ limit ih =>
    cases r with
    | simple line =>
      refine reads_parseFrame_of_marked ?_
      rw [parseMarked_simple, Reply.outcome, map_eq_bind]
      exact (reads_readText line).bind_last (fun _ _ => rfl) fun s => .pure (RespValue.str s)
    | error line =>
      refine reads_parseFrame_of_marked ?_
      rw [parseMarked_error, Reply.outcome]
      exact (reads_readText line).bind_last (fun _ _ => rfl) fun msg => .raise _ []
    | integer n =>
      refine reads_parseFrame_of_marked ?_
      rw [parseMarked_integer, ← List.append_nil (decimalInt n ++ crlf)]
      exact (reads_readInt n).bind_ok (.pure _)
    | bulk data =>
      exact reads_parseFrame_of_marked (reads_bulk _ data)
    | nullBulk =>
      refine reads_parseFrame_of_marked ?_
      rw [parseMarked_bulk]
      exact reads_minusOne _ (if_pos rfl)
    | nullArray =>
      refine reads_parseFrame_of_marked ?_
      rw [parseMarked_array]
      exact reads_minusOne _ (if_pos rfl)
    | null =>
      refine reads_parseFrame_of_marked ?_
      rw [parseMarked_null, ← List.append_nil crlf]
      exact (reads_readLine ⟨[], by simp [crlf]⟩).bind_ok (.pure _)
    | array items =>
      exact reads_parseFrame_of_marked (reads_array fun r' _ => ih r')
    | foreign marker body =>
      refine reads_parseFrame_of_marked ?_
      rw [parseMarked_foreign _ _ marker.not_known]
      exact .raise _ body

/-- Reading a reply from a stream that may fail: either the outcome of the reply, with its
leftover unread, or the failure. -/
theorem readResponse_spec {r : RespReader} {feed : Feed} {limit : ℕ} {reply : Reply}
    {missing rest : Bytes} (hok : respBuffer.Ok r)
    (hp : r.unread feed ++ missing = reply.encode ++ rest) :
    respBuffer.Ok (r.readResponse limit feed).2.1 ∧
    (((r.readResponse limit feed).1 = reply.outcome limit ∧
        (r.readResponse limit feed).2.1.unread (r.readResponse limit feed).2.2 ++ missing =
          reply.leftover limit ++ rest ∧
        (r.readResponse limit feed).2.2 <:+ feed) ∨
      ∃ e, (r.readResponse limit feed).1 = .error e ∧ StreamFails feed missing e) :=
  reads_parseFrame limit reply r feed missing rest hok hp

/-! ## The exceptions of the decoder -/

/-- The decoder's own exceptions are no socket errors, but `except Exception` catches them. -/
def IsFrameError (e : Exc) : Prop :=
  e.isException = true ∧ e.isOSError = false

lemma raisesOnly_readLine : readLine.RaisesOnly IsFrameError :=
  ⟨⟨rfl, rfl⟩, fun _ => trivial⟩

lemma raisesOnly_readExact (n : ℤ) : (readExact n).RaisesOnly IsFrameError :=
  ⟨⟨rfl, rfl⟩, fun _ => trivial⟩

lemma raisesOnly_readText : readText.RaisesOnly IsFrameError := by
  refine raisesOnly_readLine.bind fun line => ?_
  cases decodeUtf8 line with
  | some s => exact .pure s
  | none => exact ⟨rfl, rfl⟩

lemma raisesOnly_readInt (ints : IntConversion) : (readIntBy ints).RaisesOnly IsFrameError := by
  refine raisesOnly_readLine.bind fun line => ?_
  cases ints.value line with
  | some n => exact .pure n
  | none => exact ⟨rfl, rfl⟩

/-- Whatever marker a frame has, reading it raises frame errors only. -/
lemma raisesOnly_parseMarked (ints : IntConversion) {item : Parser RespValue}
    (hitem : item.RaisesOnly IsFrameError) (marker : Bytes) :
    (parseMarkedBy ints item marker).RaisesOnly IsFrameError := by
  unfold parseMarkedBy
  split_ifs
  · exact raisesOnly_readText.bind fun s => .pure _
  · exact raisesOnly_readText.bind fun msg => ⟨rfl, rfl⟩
  · exact (raisesOnly_readInt ints).bind fun n => .pure _
  · refine (raisesOnly_readInt ints).bind fun length => ?_
    split_ifs
    · exact .pure RespValue.none
    · exact (raisesOnly_readExact length).bind fun data =>
        (raisesOnly_readExact 2).bind fun _ => .pure (RespValue.bytes data)
  · refine (raisesOnly_readInt ints).bind fun count => ?_
    split_ifs
    · exact .pure RespValue.none
    · exact (hitem.replicate count.toNat).bind fun items => .pure (RespValue.list items)
  · exact raisesOnly_readLine.bind fun _ => .pure _
  · exact ⟨rfl, rfl⟩

/-- The decoder raises frame errors only. -/
theorem raisesOnly_parseFrame (limit : ℕ) : (parseFrame limit).RaisesOnly IsFrameError := by
  induction limit with
  | zero => exact ⟨rfl, rfl⟩
  | succ limit ih =>
    have hmarker : readMarker.RaisesOnly IsFrameError := ⟨⟨rfl, rfl⟩, fun _ => trivial⟩
    exact hmarker.bind fun marker => raisesOnly_parseMarked _ ih marker

/-- What a read raises is a frame error or interrupted the read. -/
theorem readResponse_error {limit : ℕ} {r : RespReader} {feed : Feed} {e : Exc}
    (h : (r.readResponse limit feed).1 = .error e) : IsFrameError e ∨ .interrupt e ∈ feed :=
  Coro.run_error (raisesOnly_parseFrame limit) h

end RespReader

/-- No read of this feed is interrupted. -/
def Feed.Quiet (feed : Feed) : Prop :=
  ∀ e, .interrupt e ∉ feed

lemma Feed.Quiet.of_suffix {feed feed' : Feed} (h : feed.Quiet) (hs : feed' <:+ feed) :
    Feed.Quiet feed' :=
  fun e he => h e (hs.subset he)

/-- A feed of chunks only is quiet. -/
lemma Feed.quiet_map_chunk (chunks : List Chunk) : Feed.Quiet (chunks.map .chunk) := by
  intro e he
  obtain ⟨c, _, hc⟩ := List.mem_map.mp he
  cases hc

namespace RespReader

/-- In front of a new reader everything is unread. -/
lemma unread_init_map_chunk (chunks : List Chunk) :
    init.unread (chunks.map .chunk) = chunks.flatMap Chunk.bytes := by
  rw [unread, Buffered.pending, Buffered.data, List.flatMap_map]
  rfl

/-- Reading a reply that arrives in full and without interruption: its outcome, with its
leftover and what follows it unread. -/
theorem readResponse_quiet {r : RespReader} {feed : Feed} {limit : ℕ} {reply : Reply}
    {rest : Bytes} (hok : respBuffer.Ok r) (hq : feed.Quiet)
    (hp : r.unread feed = reply.encode ++ rest) :
    (r.readResponse limit feed).1 = reply.outcome limit ∧
      respBuffer.Ok (r.readResponse limit feed).2.1 ∧
      (r.readResponse limit feed).2.1.unread (r.readResponse limit feed).2.2 =
        reply.leftover limit ++ rest ∧
      (r.readResponse limit feed).2.2.Quiet := by
  have hp' : r.unread feed ++ [] = reply.encode ++ rest := by rw [List.append_nil, hp]
  obtain ⟨hok', hcase⟩ := readResponse_spec hok hp'
  rcases hcase with ⟨hres, hleft, hsuf⟩ | ⟨e, _, hfail⟩
  · exact ⟨hres, hok', by simpa using hleft, hq.of_suffix hsuf⟩
  · exact absurd hfail (by simp [StreamFails, hq e])

end RespReader

/-! ## Streams of value replies -/

/-- A reply tree without errors: simple strings are text without a line end, integers have
64 bits. -/
inductive ValueTree : Type where
  | simple (s : String) (no_crlf : ¬ crlf <:+: encodeUtf8 s)
  | integer (n : ℤ) (bounds : -2 ^ 63 ≤ n ∧ n < 2 ^ 63)
  | bulk (data : Bytes)
  | nullBulk
  | nullArray
  | null
  | array (items : List ValueTree)

namespace ValueTree

mutual

/-- The tree as a reply on the wire. -/
def toReply : ValueTree → Reply
  | .simple s no_crlf => .simple ⟨encodeUtf8 s, no_crlf⟩
  | .integer n _ => .integer n
  | .bulk data => .bulk data
  | .nullBulk => .nullBulk
  | .nullArray => .nullArray
  | .null => .null
  | .array items => .array (toReplyList items)

/-- The trees as replies on the wire. -/
def toReplyList : List ValueTree → List Reply
  | [] => []
  | t :: ts => t.toReply :: toReplyList ts

end

mutual

/-- The value that a tree stands for. -/
def value : ValueTree → RespValue
  | .simple s _ => .str s
  | .integer n _ => .int n
  | .bulk data => .bytes data
  | .nullBulk => .none
  | .nullArray => .none
  | .null => .none
  | .array items => .list (valueList items)

/-- The values that trees stand for. -/
def valueList : List ValueTree → List RespValue
  | [] => []
  | t :: ts => t.value :: valueList ts

end

/-- The bytes of a tree on the wire. -/
def encode (t : ValueTree) : Bytes :=
  t.toReply.encode

mutual

/-- The outcome of reading a value tree is its value, if the stack allows its depth. -/
theorem outcome_toReply : ∀ (t : ValueTree) (limit : ℕ), t.toReply.depth ≤ limit →
    t.toReply.outcome limit = .ok t.value
  | t, 0, h => by cases t <;> simp [toReply, Reply.depth] at h
  | .simple s _, _ + 1, _ => by simp [toReply, value, Reply.outcome, Reply.lineText, Except.map]
  | .integer _ _, _ + 1, _ | .bulk _, _ + 1, _ | .nullBulk, _ + 1, _ | .nullArray, _ + 1, _
  | .null, _ + 1, _ => rfl
  | .array items, limit + 1, h => by
    have hd : Reply.depthList (toReplyList items) ≤ limit := by
      simpa [toReply, Reply.depth] using h
    rw [toReply, value, Reply.outcome, outcomeList_toReplyList items limit hd]
    rfl

/-- The same for the items of an array. -/
theorem outcomeList_toReplyList : ∀ (ts : List ValueTree) (limit : ℕ),
    Reply.depthList (toReplyList ts) ≤ limit →
      Reply.outcomeList limit (toReplyList ts) = .ok (valueList ts)
  | [], _, _ => by rw [toReplyList, valueList, Reply.outcomeList]
  | t :: ts, limit, h => by
    rw [toReplyList, Reply.depthList, max_le_iff] at h
    rw [toReplyList, valueList, Reply.outcomeList, outcome_toReply t limit h.1,
      outcomeList_toReplyList ts limit h.2]
    rfl

end

end ValueTree

/-- The results of `k` successive calls of a `read_response`, with the reader and the feed
after the last of them. -/
def readSuccessively (read : RespReader → Feed → Except Exc RespValue × RespReader × Feed) :
    ℕ → RespReader → Feed → List (Except Exc RespValue) × RespReader × Feed
  | 0, r, feed => ([], r, feed)
  | k + 1, r, feed =>
    let (res, r', feed') := read r feed
    let (ress, r'', feed'') := readSuccessively read k r' feed'
    (res :: ress, r'', feed'')

/-- Successive reads of a stream of replies that are all values. -/
lemma readSuccessively_values {limit : ℕ} (ts : List ValueTree) (k : ℕ) (hk : k ≤ ts.length)
    (hstack : ∀ t ∈ ts, t.toReply.depth ≤ limit) {r : RespReader} {feed : Feed}
    (hok : respBuffer.Ok r) (hq : feed.Quiet)
    (hp : r.unread feed = ts.flatMap ValueTree.encode) :
    (readSuccessively (RespReader.readResponse limit) k r feed).1 =
        (ts.take k).map (fun t => .ok t.value) ∧
      (readSuccessively (RespReader.readResponse limit) k r feed).2.1.unread
          (readSuccessively (RespReader.readResponse limit) k r feed).2.2 =
        (ts.drop k).flatMap ValueTree.encode := by
  induction k generalizing ts r feed with
  | zero => exact ⟨rfl, hp⟩
  | succ k ih =>
    rcases ts with _ | ⟨t, ts⟩
    · simp at hk
    · have hout := t.outcome_toReply limit (hstack t List.mem_cons_self)
      obtain ⟨hres, hok', hleft, hq'⟩ := RespReader.readResponse_quiet hok hq hp
      have hclean : t.toReply.leftover limit = [] := Reply.clean_of_isValue ⟨t.value, hout⟩
      rw [hclean, List.nil_append] at hleft
      obtain ⟨h₁, h₂⟩ := ih ts (by simpa using hk)
        (fun t' ht' => hstack t' (List.mem_cons_of_mem t ht')) hok' hq' hleft
      refine ⟨?_, h₂⟩
      rw [List.take_succ_cons, List.map_cons, ← h₁, ← hout, ← hres]
      rfl

/-- **Streaming decode undoes encode.**  However the encodings of a list of value trees are
cut into chunks, the first `k` calls of `read_response` return the values of the first `k`
trees, and then exactly the encodings of the others are unread; the same holds of the
asynchronous reader. -/
theorem readSuccessively_encode (ts : List ValueTree) (chunks : List Chunk)
    (hcut : chunks.flatMap Chunk.bytes = ts.flatMap ValueTree.encode) (limit : ℕ)
    (hstack : ∀ t ∈ ts, t.toReply.depth ≤ limit) (k : ℕ) (hk : k ≤ ts.length) :
    ∀ read ∈ [RespReader.readResponse limit, AsyncRespReader.readResponse limit],
      (readSuccessively read k .init (chunks.map .chunk)).1 =
          (ts.take k).map (fun t => .ok t.value) ∧
        (readSuccessively read k .init (chunks.map .chunk)).2.1.unread
            (readSuccessively read k .init (chunks.map .chunk)).2.2 =
          (ts.drop k).flatMap ValueTree.encode := by
  have hok : respBuffer.Ok RespReader.init := ⟨le_rfl, by simp [RespReader.init]⟩
  have hunread : RespReader.init.unread (chunks.map .chunk) = ts.flatMap ValueTree.encode := by
    rw [← hcut]
    exact RespReader.unread_init_map_chunk chunks
  have h := readSuccessively_values ts k hk hstack hok (Feed.quiet_map_chunk chunks) hunread
  intro read hread
  rcases List.mem_pair.mp hread with rfl | rfl
  · exact h
  · exact h

/-- Two replies in three chunks, the cuts inside a frame. -/
theorem readSuccessively_encode_two :
    (readSuccessively (RespReader.readResponse 2) 1 .init ([⟨[58, 55], by decide⟩,
        ⟨[13], by decide⟩, ⟨[10, 36, 49, 13, 10, 65, 13, 10], by decide⟩].map .chunk)).1 =
      [.ok (.int 7)] ∧
    (readSuccessively (RespReader.readResponse 2) 1 .init ([⟨[58, 55], by decide⟩,
        ⟨[13], by decide⟩, ⟨[10, 36, 49, 13, 10, 65, 13, 10], by decide⟩].map .chunk)).2.1.unread
      (readSuccessively (RespReader.readResponse 2) 1 .init ([⟨[58, 55], by decide⟩,
        ⟨[13], by decide⟩, ⟨[10, 36, 49, 13, 10, 65, 13, 10], by decide⟩].map .chunk)).2.2 =
      [36, 49, 13, 10, 65, 13, 10] :=
  readSuccessively_encode [.integer 7 (by decide), .bulk [65]]
    [⟨[58, 55], by decide⟩, ⟨[13], by decide⟩, ⟨[10, 36, 49, 13, 10, 65, 13, 10], by decide⟩]
    (by decide) 2 (by decide) 1 (by decide) (RespReader.readResponse 2) (by simp)

end KacheDB
