import KacheDB.Foundation.Tracking
import KacheDB.Resp.Grammar

/-!
# What the decoder accepts

When `read_response` returns a value, the bytes it has consumed are a frame of the wide grammar
and the value is that of the frame, and its cursor has never gone back, as long as no length below
-1 is met (`takes_parseFrame`).  So the decoder accepts exactly the protocol's own grammar on the
streams that meet no such length and whose first frame in the wide spelling is in the strict one
(`acceptsExactly_iff`).
-/

namespace KacheDB

open Foundation

namespace RespReader

/-- The cursor does not go back: no byte that was consumed is unread again. -/
def Advances (r r' : RespReader) : Prop :=
  (r'.buf.length : ℤ) - r'.pos ≤ r.buf.length - r.pos

/-- A part of the unread bytes is consumed, from the front. -/
def Consumes (r r' : RespReader) : Prop :=
  Advances r r' ∧ respBuffer.Ok r' ∧ respBuffer.view r' <:+ respBuffer.view r

/-- Compaction leaves the cursor where it is in the stream. -/
lemma compact_unread {r : RespReader} (h : respBuffer.Ok r) :
    (r.compact.buf.length : ℤ) - r.compact.pos = r.buf.length - r.pos := by
  obtain ⟨p, hp, hle⟩ := exists_pos_eq h
  unfold compact
  split
  · simp only [hp, clampIndex_natCast, min_eq_left hle, List.length_drop]
    omega
  · rfl

/-- Moving the cursor over `n` unread bytes. -/
lemma advance_take {r : RespReader} (r' : RespReader) {p n : ℕ} (hp : r.pos = p)
    (hlen : p + n ≤ r.buf.length) (hbuf : r'.buf = r.buf) (hpos : r'.pos = ((p + n : ℕ) : ℤ)) :
    respBuffer.Ok r' ∧ Advances r r' ∧
      respBuffer.view r = (r.buf.drop p).take n ++ respBuffer.view r' := by
  refine ⟨⟨by omega, by rw [hpos, hbuf]; exact_mod_cast hlen⟩, ?_, ?_⟩
  · rw [Advances, hbuf, hpos, hp]
    omega
  · simp only [respBuffer, hbuf, hp, hpos, Int.toNat_natCast]
    rw [← List.drop_drop, List.take_append_drop]

/-- The same with a compaction behind it. -/
lemma advance_compact {r : RespReader} (r' : RespReader) {p n : ℕ} (hp : r.pos = p)
    (hlen : p + n ≤ r.buf.length) (hbuf : r'.buf = r.buf) (hpos : r'.pos = ((p + n : ℕ) : ℤ)) :
    respBuffer.Ok r'.compact ∧ Advances r r'.compact ∧
      respBuffer.view r = (r.buf.drop p).take n ++ respBuffer.view r'.compact := by
  obtain ⟨hok, hadv, hview⟩ := advance_take r' hp hlen hbuf hpos
  obtain ⟨hokc, hviewc⟩ := compact_spec r' hok
  refine ⟨hokc, ?_, by rw [hviewc]; exact hview⟩
  rw [Advances, compact_unread hok]
  exact hadv

/-- What lies in front of the first line end has none. -/
lemma not_infix_take_of_findIdx {hay : Bytes} {i : ℕ} (h : findIdx crlf hay = some i) :
    ¬ crlf <:+: hay.take i := by
  intro hinfix
  obtain ⟨j, hj⟩ := Option.isSome_iff_exists.mp (findIdx_isSome hinfix)
  have hfit := (add_length_le_of_findIdx hj).resolve_right (by simp [crlf])
  have hfirst := findIdx_append hj (hay.drop i)
  rw [List.take_append_drop, h] at hfirst
  obtain rfl := Option.some.inj hfirst
  rw [List.length_take] at hfit
  have hpos : 0 < crlf.length := by decide
  omega

/-! ## The methods of the reader -/

/-- `_read_line` takes a line. -/
lemma takes_readLine : respBuffer.Takes Consumes readLine (fun _ => False)
    fun b bs => ∃ line : Line, bs = line.bytes ∧ b = line.bytes ++ crlf := by
  refine Buffered.Takes.await_step extend_spec fun r feed hok hready => ?_
  obtain ⟨p, hp, hle⟩ := exists_pos_eq hok
  obtain ⟨i, hi⟩ : ∃ i, findIdx crlf (r.buf.drop p) = some i := by
    simpa [find, hp, min_eq_left hle, Option.isSome_iff_exists] using hready
  have hfit := (add_length_le_of_findIdx hi).resolve_right (by simp [crlf])
  have hlen : p + (i + 2) ≤ r.buf.length := by
    rw [List.length_drop] at hfit
    have hcrlf : crlf.length = 2 := rfl
    omega
  have hfind : (find r.buf crlf r.pos).getD 0 = i + p := by
    simp [find, hp, min_eq_left hle, hi]
  obtain ⟨hok', hadv, hview⟩ := advance_compact
    { r with pos := ((find r.buf crlf r.pos).getD 0 : ℤ) + 2 } hp hlen rfl
    (by rw [hfind]; push_cast; ring)
  have hslice : slice r.buf r.pos ((find r.buf crlf r.pos).getD 0 : ℕ) =
      (r.buf.drop p).take i := by
    rw [hfind, hp, slice_natCast, Nat.add_sub_cancel]
  refine ⟨⟨⟨hadv, hok', _, hview.symm⟩, trivial⟩, _, _, rfl, hok',
    (r.buf.drop p).take (i + 2), hview, ?_⟩
  refine ⟨⟨(r.buf.drop p).take i, not_infix_take_of_findIdx hi⟩, hslice, ?_⟩
  -- the line and its end
  obtain ⟨rest, hrest⟩ := prefix_drop_of_findIdx hi
  rw [List.take_add, ← hrest]
  rfl

/-- `_read_exact(n)` takes `n` bytes, if `n` is not negative. -/
lemma takes_readExact (n : ℕ) : respBuffer.Takes Consumes (readExact n) (fun _ => False)
    fun b data => data = b ∧ b.length = n := by
  refine Buffered.Takes.await_step extend_spec fun r feed hok hready => ?_
  obtain ⟨p, hp, hle⟩ := exists_pos_eq hok
  simp only [hp, Bool.not_eq_eq_eq_not, Bool.not_true, decide_eq_false_iff_not, not_lt] at hready
  have hlen : p + n ≤ r.buf.length := by omega
  obtain ⟨hok', hadv, hview⟩ := advance_compact { r with pos := r.pos + n } hp hlen rfl
    (by rw [hp]; push_cast; rfl)
  have hslice : slice r.buf r.pos (r.pos + n) = (r.buf.drop p).take n := by
    rw [hp, ← Nat.cast_add, slice_natCast, Nat.add_sub_cancel_left]
  refine ⟨⟨⟨hadv, hok', _, hview.symm⟩, trivial⟩, _, _, rfl, hok', _, hview, hslice, ?_⟩
  rw [List.length_take, List.length_drop]
  omega

/-- The marker is one byte. -/
lemma takes_readMarker : respBuffer.Takes Consumes readMarker (fun _ => False)
    fun b marker => marker = b ∧ ∃ byte, b = [byte] := by
  refine Buffered.Takes.await_step extend_spec fun r feed hok hready => ?_
  obtain ⟨p, hp, hle⟩ := exists_pos_eq hok
  simp only [hp, Bool.not_eq_eq_eq_not, Bool.not_true, decide_eq_false_iff_not, not_lt] at hready
  have hlen : p + 1 ≤ r.buf.length := by omega
  obtain ⟨hok', hadv, hview⟩ := advance_take { r with pos := r.pos + 1 } hp hlen rfl
    (by rw [hp]; push_cast; rfl)
  have hslice : slice r.buf r.pos (r.pos + 1) = (r.buf.drop p).take 1 := by
    have hone : r.pos + 1 = ((p + 1 : ℕ) : ℤ) := by simp [hp]
    rw [hone, hp, slice_natCast, Nat.add_sub_cancel_left]
  refine ⟨⟨⟨hadv, hok', _, hview.symm⟩, trivial⟩, _, _, rfl, hok', _, hview, hslice, ?_⟩
  apply List.length_eq_one_iff.mp
  rw [List.length_take, List.length_drop]
  omega

/-- `int(_read_line())` takes a line that is converted. -/
lemma takes_readInt {ints : IntConversion} : respBuffer.Takes Consumes (readIntBy ints)
    (fun _ => False)
    fun b n => ∃ line : Line, ints.value line.bytes = some n ∧ b = line.bytes ++ crlf := by
  refine takes_readLine.bind (fun _ h => h) ?_
  rintro b bs ⟨line, rfl, rfl⟩
  cases hn : ints.value line.bytes with
  | none =>
    dsimp only
    exact .raise
  | some n =>
    dsimp only
    exact .pure ⟨line, hn, List.append_nil _⟩

/-- `_read_line().decode("utf-8")` takes a line that is UTF-8. -/
lemma takes_readText : respBuffer.Takes Consumes readText (fun _ => False)
    fun b s => ∃ line : Line, decodeUtf8 line.bytes = some s ∧ b = line.bytes ++ crlf := by
  refine takes_readLine.bind (fun _ h => h) ?_
  rintro b bs ⟨line, rfl, rfl⟩
  cases hs : decodeUtf8 line.bytes with
  | none =>
    dsimp only
    exact .raise
  | some s =>
    dsimp only
    exact .pure ⟨line, hs, List.append_nil _⟩

/-- Reading `n` items takes a sequence of `n` frames, unless one of them is behind a bad stream. -/
lemma takes_replicate {item : Parser RespValue} {bad : Bytes → Prop}
    {good : Bytes → RespValue → Prop} (h : respBuffer.Takes Consumes item bad good) (n : ℕ) :
    respBuffer.Takes Consumes (item.replicate n)
      (fun x => ∃ j < n, ∃ bs vs rest, Sequence good j bs vs ∧ x = bs ++ rest ∧ bad rest)
      (Sequence good n) := by
  induction n with
  | zero => exact .pure .nil
  | succ n ih =>
    rw [Coro.replicate]
    refine h.bind (fun x hx => ⟨0, n.succ_pos, [], [], x, .nil, rfl, hx⟩) fun b v hv => ?_
    refine ih.bind ?_ fun bs vs hvs => .pure ?_
    · rintro x ⟨j, hj, bs, vs, rest, hseq, rfl, hbad⟩
      exact ⟨j + 1, Nat.succ_lt_succ hj, b ++ bs, v :: vs, rest, .cons hv hseq,
        (List.append_assoc _ _ _).symm, hbad⟩
    · rw [List.append_nil]
      exact .cons hv hvs

/-! ## Frames -/

/-- A bad stream promises nothing. -/
lemma takes_of_bad {α : Type} {c : Parser α} {bad : Bytes → Prop} {good : Bytes → α → Prop}
    (h : ∀ x, bad x) : respBuffer.Takes Consumes c bad good :=
  fun _ _ _ hnot => absurd (h _) hnot

section Branches

variable {ints : IntConversion} {limit : ℕ}

/-- The branch for a bulk string. -/
lemma takes_bulk : respBuffer.Takes Consumes (parseMarkedBy ints (parseFrameBy ints limit) [36])
    (fun x => MeetsNegativeBy ints (limit + 1) ([36] ++ x))
    fun b v => Frame (.reading ints) (limit + 1) ([36] ++ b) v := by
  rw [parseMarked_bulk]
  refine takes_readInt.bind (fun _ h => h.elim) ?_
  rintro b z ⟨line, hz, rfl⟩
  rcases lt_trichotomy z (-1) with hlt | rfl | hgt
  · rw [if_neg hlt.ne]
    exact takes_of_bad fun x => NegativeOver.bulk line z hz (by omega) x
  · rw [if_pos rfl]
    refine .pure ?_
    rw [List.append_nil]
    exact FrameOver.nullBulk line hz
  · obtain ⟨n, rfl⟩ := Int.eq_ofNat_of_zero_le (by omega : 0 ≤ z)
    rw [if_neg hgt.ne']
    refine (takes_readExact n).bind (fun _ h => h.elim) ?_
    rintro _ data ⟨rfl, rfl⟩
    refine (takes_readExact 2).bind (fun _ h => h.elim) ?_
    rintro _ t ⟨rfl, ht⟩
    refine .pure ?_
    rw [List.append_nil, ← List.append_assoc, ← List.append_assoc, List.append_assoc _ _ t]
    exact FrameOver.bulk line data t hz ht

/-- The branch for an array. -/
lemma takes_array
    (ih : respBuffer.Takes Consumes (parseFrameBy ints limit) (MeetsNegativeBy ints limit)
      (Frame (.reading ints) limit)) :
    respBuffer.Takes Consumes (parseMarkedBy ints (parseFrameBy ints limit) [42])
      (fun x => MeetsNegativeBy ints (limit + 1) ([42] ++ x))
      fun b v => Frame (.reading ints) (limit + 1) ([42] ++ b) v := by
  rw [parseMarked_array]
  refine takes_readInt.bind (fun _ h => h.elim) ?_
  rintro b z ⟨line, hz, rfl⟩
  by_cases hnull : z = -1
  · subst hnull
    rw [if_pos rfl]
    refine .pure ?_
    rw [List.append_nil]
    exact FrameOver.nullArray line hz
  · rw [if_neg hnull]
    refine (takes_replicate ih z.toNat).bind ?_ fun bs vs hvs => .pure ?_
    · rintro x ⟨j, hj, bs, vs, rest, hseq, rfl, hbad⟩
      exact NegativeOver.array line z hz j (by omega) bs vs hseq rest hbad
    · rw [List.append_nil]
      exact FrameOver.array line z.toNat bs vs ⟨z, hz, hnull, rfl⟩ hvs

/-- What the decoder takes behind a marker. -/
lemma takes_parseMarked
    (ih : respBuffer.Takes Consumes (parseFrameBy ints limit) (MeetsNegativeBy ints limit)
      (Frame (.reading ints) limit)) (byte : UInt8) :
    respBuffer.Takes Consumes (parseMarkedBy ints (parseFrameBy ints limit) [byte])
      (fun x => MeetsNegativeBy ints (limit + 1) ([byte] ++ x))
      fun b v => Frame (.reading ints) (limit + 1) ([byte] ++ b) v := by
  by_cases hknown : byte ∈ ([43, 45, 58, 36, 42, 95] : Bytes)
  · simp only [List.mem_cons, List.not_mem_nil, or_false] at hknown
    rcases hknown with rfl | rfl | rfl | rfl | rfl | rfl
    · rw [parseMarked_simple]
      refine takes_readText.bind (fun _ h => h.elim) ?_
      rintro b s ⟨line, hs, rfl⟩
      refine .pure ?_
      rw [List.append_nil]
      exact FrameOver.simple line s hs
    · rw [parseMarked_error]
      exact takes_readText.bind (fun _ h => h.elim) fun _ _ _ => .raise
    · rw [parseMarked_integer]
      refine takes_readInt.bind (fun _ h => h.elim) ?_
      rintro b n ⟨line, hn, rfl⟩
      refine .pure ?_
      rw [List.append_nil]
      exact FrameOver.integer line n hn
    · exact takes_bulk
    · exact takes_array ih
    · rw [parseMarked_null]
      refine takes_readLine.bind (fun _ h => h.elim) ?_
      rintro b bs ⟨line, rfl, rfl⟩
      refine .pure ?_
      rw [List.append_nil]
      exact FrameOver.null line trivial
  · rw [parseMarked_foreign _ _ hknown]
    exact .raise

end Branches

/-- **What the decoder takes is a frame of the wide grammar.** -/
theorem takes_parseFrame (ints : IntConversion) (limit : ℕ) :
    respBuffer.Takes Consumes (parseFrameBy ints limit) (MeetsNegativeBy ints limit)
      (Frame (.reading ints) limit) := by
  induction limit with
  | zero => exact .raise
  | succ limit ih =>
    refine takes_readMarker.bind (fun _ h => h.elim) ?_
    rintro b _ ⟨rfl, byte, rfl⟩
    exact takes_parseMarked ih byte

/-! ## What a read leaves -/

lemma absorbs_readLine : respBuffer.Absorbs readLine :=
  ⟨extend_spec, fun _ => trivial⟩

lemma absorbs_readExact (n : ℤ) : respBuffer.Absorbs (readExact n) :=
  ⟨extend_spec, fun _ => trivial⟩

lemma absorbs_readText : respBuffer.Absorbs readText := by
  refine absorbs_readLine.bind fun line => ?_
  cases decodeUtf8 line with
  | some s => exact .pure s
  | none => exact trivial

lemma absorbs_readInt (ints : IntConversion) : respBuffer.Absorbs (readIntBy ints) := by
  refine absorbs_readLine.bind fun line => ?_
  cases ints.value line with
  | some n => exact .pure n
  | none => exact trivial

/-- Whatever marker a frame has, the chunks that are read for it go into the buffer. -/
lemma absorbs_parseMarked (ints : IntConversion) {item : Parser RespValue}
    (hitem : respBuffer.Absorbs item) (marker : Bytes) :
    respBuffer.Absorbs (parseMarkedBy ints item marker) := by
  unfold parseMarkedBy
  split_ifs
  · exact absorbs_readText.bind fun s => .pure _
  · exact absorbs_readText.bind fun msg => trivial
  · exact (absorbs_readInt ints).bind fun n => .pure _
  · refine (absorbs_readInt ints).bind fun length => ?_
    split_ifs
    · exact .pure RespValue.none
    · exact (absorbs_readExact length).bind fun data =>
        (absorbs_readExact 2).bind fun _ => .pure (RespValue.bytes data)
  · refine (absorbs_readInt ints).bind fun count => ?_
    split_ifs
    · exact .pure RespValue.none
    · exact (hitem.replicate count.toNat).bind fun items => .pure (RespValue.list items)
  · exact absorbs_readLine.bind fun _ => .pure _
  · exact trivial

lemma absorbs_parseFrame (ints : IntConversion) (limit : ℕ) :
    respBuffer.Absorbs (parseFrameBy ints limit) := by
  induction limit with
  | zero => exact trivial
  | succ limit ih =>
    have hmarker : respBuffer.Absorbs readMarker := ⟨extend_spec, fun _ => trivial⟩
    exact hmarker.bind fun marker => absorbs_parseMarked ints ih marker

/-- A read that comes to no length below -1 leaves a rest of the stream, whether it returns or
raises. -/
theorem readResponseBy_suffix {ints : IntConversion} {limit : ℕ} {r : RespReader} {feed : Feed}
    (hok : respBuffer.Ok r) (hneg : ¬ MeetsNegativeBy ints limit (r.unread feed)) :
    respBuffer.Ok (r.readResponseBy ints limit feed).2.1 ∧
      (r.readResponseBy ints limit feed).2.1.unread (r.readResponseBy ints limit feed).2.2 <:+
        r.unread feed :=
  Buffered.pending_suffix (fun _ _ h => h.2) (absorbs_parseFrame ints limit) hok
    (takes_parseFrame ints limit r feed hok hneg).1

/-- The same without a limit on the digits. -/
theorem readResponse_suffix {limit : ℕ} {r : RespReader} {feed : Feed} (hok : respBuffer.Ok r)
    (hneg : ¬ MeetsNegative limit (r.unread feed)) :
    respBuffer.Ok (r.readResponse limit feed).2.1 ∧
      (r.readResponse limit feed).2.1.unread (r.readResponse limit feed).2.2 <:+ r.unread feed :=
  readResponseBy_suffix hok hneg

/-! ## Negative lengths -/

/-- A negative number of bytes is read by moving the cursor back. -/
lemma breaks_readExact {n : ℤ} (hn : n < 0) (x : Bytes) :
    respBuffer.Breaks Advances (readExact n) x := by
  intro r chunks hok _ hset
  obtain ⟨p, hp, hle⟩ := exists_pos_eq hok
  have hready : decide ((r.buf.length : ℤ) - r.pos < n) = false := by
    rw [decide_eq_false_iff_not, hp]
    omega
  have hawait : Coro.awaitReady (fun r : RespReader => !decide ((r.buf.length : ℤ) - r.pos < n))
      extend (Exc.protocolError "Connection closed while reading RESP frame") r
      (chunks.map .chunk) = (.ok (), r, chunks.map .chunk) := by
    cases chunks <;> simp [Coro.awaitReady, hready]
  -- the one replacement of the object
  have hback : Advances r ({ r with pos := r.pos + n } : RespReader).compact := by
    have hfirst : (Coro.get fun r : RespReader => Coro.set
        ({ r with pos := r.pos + n } : RespReader).compact
        (Coro.pure (slice r.buf r.pos (r.pos + n)) : Parser Bytes)).EverySet Advances r
          (chunks.map .chunk) := by
      have hset' := hset
      unfold readExact ensureData at hset'
      simp only [Coro.bind_eq, Coro.waitUntil, Coro.bind, Coro.EverySet, hawait] at hset'
      exact hset'
    exact hfirst.1
  unfold Advances compact at hback
  split_ifs at hback with hcompact
  · simp only [hp] at hback hcompact
    obtain ⟨m, hm⟩ : ∃ m : ℕ, (p : ℤ) + n = m := Int.eq_ofNat_of_zero_le (by omega)
    simp only [hm, clampIndex_natCast, List.length_drop] at hback
    omega
  · simp only [hp] at hback
    omega

/-- Items that are frames, and then one in front of which the program breaks. -/
lemma breaks_replicate {item : Parser RespValue} {itemFrame : Bytes → RespValue → Prop}
    (hitem : ∀ b v, itemFrame b v → respBuffer.Reads item b (.ok v) []) {j n : ℕ} (hj : j < n)
    {bs rest : Bytes} {vs : List RespValue} (hseq : Sequence itemFrame j bs vs)
    (hrest : respBuffer.Breaks Advances item rest) :
    respBuffer.Breaks Advances (item.replicate n) (bs ++ rest) := by
  induction hseq generalizing n with
  | nil =>
    obtain ⟨n, rfl⟩ := Nat.exists_eq_succ_of_ne_zero hj.ne'
    exact hrest.bind
  | @cons j b bs v vs head _ ih =>
    obtain ⟨n, rfl⟩ := Nat.exists_eq_succ_of_ne_zero (Nat.ne_zero_of_lt hj)
    rw [List.append_assoc]
    exact (hitem b v head).bind_breaks (ih (Nat.lt_of_succ_lt_succ hj)).bind

/-- A stream that comes to a length below -1 moves the cursor back. -/
theorem breaks_parseFrame {ints : IntConversion} {limit : ℕ} {x : Bytes}
    (h : MeetsNegativeBy ints limit x) :
    respBuffer.Breaks Advances (parseFrameBy ints limit) x := by
  induction limit generalizing x with
  | zero => exact h.elim
  | succ limit ih =>
    cases h with
    | bulk line n hn hneg rest =>
      refine (reads_readMarker 36).bind_breaks ?_
      rw [parseMarked_bulk]
      refine (reads_readInt_of_value hn).bind_breaks ?_
      rw [if_neg (by omega)]
      exact (breaks_readExact (by omega) rest).bind
    | array line n hn j hj bs vs items rest hrest =>
      refine (reads_readMarker 42).bind_breaks ?_
      rw [parseMarked_array]
      refine (reads_readInt_of_value hn).bind_breaks ?_
      rw [if_neg (by omega)]
      exact (breaks_replicate (fun _ _ => reads_frame) (by omega) items (ih hrest)).bind

/-! ## The decoder and its grammar -/

/-- One `read_response`: the cursor does not go back, and a value that is returned is that of a
frame of the protocol's grammar, which is what has been consumed. -/
def AcceptsExactly (limit : ℕ) (r : RespReader) (feed : Feed) : Prop :=
  (parseFrame limit).EverySet Advances r feed ∧
    ∀ v r' feed', r.readResponse limit feed = (.ok v, r', feed') →
      ∃ b, b ≠ [] ∧ Frame .strict limit b v ∧ r.unread feed = b ++ r'.unread feed'

/-- The stream comes to no length below -1, and if it begins with a frame of the wide grammar,
then this is a frame of the protocol's grammar. -/
def StrictlySpelled (limit : ℕ) (x : Bytes) : Prop :=
  ¬ MeetsNegative limit x ∧
    ∀ b v rest, x = b ++ rest → Frame .wide limit b v → Frame .strict limit b v

lemma frame_ne_nil {sp : Spelling} {limit : ℕ} {b : Bytes} {v : RespValue}
    (h : Frame sp limit b v) : b ≠ [] := by
  cases limit with
  | zero => exact h.elim
  | succ limit => cases h <;> simp

/-- Reading a frame of the wide grammar from an uninterrupted stream. -/
lemma readResponse_frame {limit : ℕ} {r : RespReader} {feed : Feed} (hok : respBuffer.Ok r)
    (hquiet : feed.Quiet) {b rest : Bytes} {v : RespValue} (h : Frame .wide limit b v)
    (hx : r.unread feed = b ++ rest) :
    ∃ r' feed', r.readResponse limit feed = (.ok v, r', feed') ∧ r'.unread feed' = rest := by
  obtain ⟨-, ⟨hres, hrest, -⟩ | ⟨e, -, hfail⟩⟩ :=
    reads_frame h r feed [] rest hok (by rw [List.append_nil]; exact hx)
  · refine ⟨_, _, Prod.ext hres rfl, ?_⟩
    rw [List.append_nil] at hrest
    exact hrest
  · rcases hfail with hint | hne
    · exact absurd hint (hquiet e)
    · exact absurd rfl hne

/-- One read from a well-formed reader. -/
theorem acceptsExactly_iff_of_ok {limit : ℕ} {r : RespReader} (hok : respBuffer.Ok r)
    (chunks : List Chunk) :
    AcceptsExactly limit r (chunks.map .chunk) ↔
      StrictlySpelled limit (r.unread (chunks.map .chunk)) := by
  constructor
  · rintro ⟨hset, hvalue⟩
    refine ⟨fun hneg => breaks_parseFrame hneg r chunks hok rfl hset, fun b v rest hx hwide => ?_⟩
    obtain ⟨r', feed', hrun, hrest⟩ :=
      readResponse_frame hok (Feed.quiet_map_chunk chunks) hwide hx
    obtain ⟨b', -, hstrict, hb'⟩ := hvalue v r' feed' hrun
    rw [hx, hrest] at hb'
    rw [List.append_cancel_right hb']
    exact hstrict
  · rintro ⟨hneg, hspelled⟩
    obtain ⟨hset, -, htake⟩ := takes_parseFrame _ limit r (chunks.map .chunk) hok hneg
    refine ⟨hset.mono fun _ _ h => h.1, fun v r' feed' hrun => ?_⟩
    obtain ⟨b, hb, hwide⟩ := htake v r' feed' hrun
    exact ⟨b, frame_ne_nil hwide, hspelled b v _ hb hwide, hb⟩

/-- The reader and what is still to arrive after `n` reads. -/
def afterReadsBy (ints : IntConversion) (limit : ℕ) (chunks : List Chunk) : ℕ → RespReader × Feed
  | 0 => (init, chunks.map .chunk)
  | n + 1 => (readResponseBy ints limit (afterReadsBy ints limit chunks n).1
      (afterReadsBy ints limit chunks n).2).2

/-- The same without a limit on the digits. -/
abbrev afterReads (limit : ℕ) (chunks : List Chunk) : ℕ → RespReader × Feed :=
  afterReadsBy .unlimited limit chunks

/-- As long as no length below -1 is met, the reader is well formed and in front of a rest of the
stream. -/
lemma ok_afterReads {ints : IntConversion} {limit : ℕ} {chunks : List Chunk} {n : ℕ}
    (h : ∀ k < n, ¬ MeetsNegativeBy ints limit
      ((afterReadsBy ints limit chunks k).1.unread (afterReadsBy ints limit chunks k).2)) :
    respBuffer.Ok (afterReadsBy ints limit chunks n).1 ∧
      (∃ chunks' : List Chunk, (afterReadsBy ints limit chunks n).2 = chunks'.map .chunk) ∧
      (afterReadsBy ints limit chunks n).1.unread (afterReadsBy ints limit chunks n).2 <:+
        chunks.flatMap Chunk.bytes := by
  induction n with
  | zero =>
    refine ⟨⟨le_rfl, le_rfl⟩, ⟨chunks, rfl⟩, ?_⟩
    rw [afterReadsBy, unread_init_map_chunk]
  | succ n ih =>
    obtain ⟨hok, ⟨chunks', hfeed⟩, hsuffix⟩ := ih fun k hk => h k (Nat.lt_succ_of_lt hk)
    obtain ⟨hok', hrest⟩ := readResponseBy_suffix hok (h n n.lt_succ_self)
    refine ⟨hok', ?_, hrest.trans hsuffix⟩
    have hevents : (afterReadsBy ints limit chunks (n + 1)).2 <:+ chunks'.map .chunk := by
      rw [← hfeed]
      exact Coro.run_suffix _ _ _
    exact Buffered.exists_eq_map_chunk hevents

/-- **The decoder accepts exactly its grammar on what is strictly spelled.**  This is said of the
first reads from a new reader, as many as one likes. -/
theorem acceptsExactly_iff (limit : ℕ) (chunks : List Chunk) (n : ℕ) :
    (∀ k < n, AcceptsExactly limit (afterReads limit chunks k).1 (afterReads limit chunks k).2) ↔
      ∀ k < n, StrictlySpelled limit
        ((afterReads limit chunks k).1.unread (afterReads limit chunks k).2) := by
  -- one more read, after reads of strictly spelled streams
  have hone {k : ℕ} (h : ∀ j < k, StrictlySpelled limit
      ((afterReads limit chunks j).1.unread (afterReads limit chunks j).2)) :
      AcceptsExactly limit (afterReads limit chunks k).1 (afterReads limit chunks k).2 ↔
        StrictlySpelled limit
          ((afterReads limit chunks k).1.unread (afterReads limit chunks k).2) := by
    obtain ⟨hok, ⟨chunks', hfeed⟩, -⟩ := ok_afterReads fun j hj => (h j hj).1
    rw [hfeed]
    exact acceptsExactly_iff_of_ok hok chunks'
  constructor
  · intro h k
    induction k using Nat.strong_induction_on with
    | _ k ih => exact fun hk => (hone fun j hj => ih j hj (hj.trans hk)).mp (h k hk)
  · exact fun h k hk => (hone fun j hj => h j (hj.trans hk)).mpr (h k hk)

/-- A null with something in its line is accepted. -/
theorem not_acceptsExactly :
    ¬ AcceptsExactly 1 (afterReads 1 [⟨[95, 120, 13, 10], by simp⟩] 0).1
      (afterReads 1 [⟨[95, 120, 13, 10], by simp⟩] 0).2 := by
  rintro ⟨-, hvalue⟩
  obtain ⟨b, -, hframe, hb⟩ := hvalue .none _ _ rfl
  have hbytes : ([95, 120, 13, 10] : Bytes) = b := by
    rw [← List.append_nil b]
    exact hb
  rw [← hbytes] at hframe
  generalize hgen : ([95, 120, 13, 10] : Bytes) = bytes at hframe
  cases hframe with
  | nullBulk line h => cases hgen
  | nullArray line h => cases hgen
  | null line h =>
    have hline : line.bytes = [] := h
    rw [hline] at hgen
    cases hgen

end RespReader

end KacheDB
