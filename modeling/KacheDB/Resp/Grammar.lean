import KacheDB.Resp.Decoding

/-!
# The frames that the decoder accepts

A grammar of frames as a relation between bytes and values, `Frame spelling limit bytes value`.
The grammar leaves open how the parts of a frame are spelled: an integer, a length, the end of a
bulk string.  `Spelling.strict` is the protocol's own spelling, and `Spelling.wide` is the
decoder's, which takes for an integer whatever `int` does, for the end of a bulk string any two
bytes, and for the rest of a null any line.  `Spelling.reading` is the same for any conversion of
integers, so that what is said of the decoder also holds under a limit on their digits.

`reads_frame` says that the decoder reads every frame of the wide grammar.  The other direction
is in `KacheDB.Resp.Accepting`.  What keeps it from being true of every stream is a length below
-1, which sends the cursor backwards: `MeetsNegative`.
-/

namespace KacheDB

open Foundation

/-- How the parts of a frame are spelled. -/
structure Spelling where
  /-- An integer behind `:`. -/
  int : Bytes → ℤ → Prop
  /-- The length or the count of a null. -/
  minusOne : Bytes → Prop
  /-- The length of a bulk string. -/
  length : Bytes → ℕ → Prop
  /-- The number of items of an array. -/
  count : Bytes → ℕ → Prop
  /-- The bytes behind the data of a bulk string. -/
  terminator : Bytes → Prop
  /-- The line of `_`. -/
  nullLine : Bytes → Prop

/-- The spelling of the protocol. -/
def Spelling.strict : Spelling where
  int := SignedDigits
  minusOne line := line = decimalInt (-1)
  length := Digits
  count := Digits
  terminator t := t = crlf
  nullLine line := line = []

/-- The spelling of a decoder that converts its integers so. -/
def Spelling.reading (ints : IntConversion) : Spelling where
  int line n := ints.value line = some n
  minusOne line := ints.value line = some (-1)
  length line n := ints.value line = some (n : ℤ)
  count line n := ∃ z, ints.value line = some z ∧ z ≠ -1 ∧ z.toNat = n
  terminator t := t.length = 2
  nullLine _ := True

/-- The spelling of the decoder without a limit on the digits. -/
abbrev Spelling.wide : Spelling := .reading .unlimited

/-- `n` items, one after the other. -/
inductive Sequence (item : Bytes → RespValue → Prop) : ℕ → Bytes → List RespValue → Prop
  | nil : Sequence item 0 [] []
  | cons {n : ℕ} {b bs : Bytes} {v : RespValue} {vs : List RespValue} (head : item b v)
    (tail : Sequence item n bs vs) : Sequence item (n + 1) (b ++ bs) (v :: vs)

/-- A frame whose items, if it has any, are those of `item`. -/
inductive FrameOver (sp : Spelling) (item : Bytes → RespValue → Prop) : Bytes → RespValue → Prop
  | simple (line : Line) (s : String) (h : decodeUtf8 line.bytes = some s) :
    FrameOver sp item (43 :: (line.bytes ++ crlf)) (.str s)
  | integer (line : Line) (n : ℤ) (h : sp.int line.bytes n) :
    FrameOver sp item (58 :: (line.bytes ++ crlf)) (.int n)
  | nullBulk (line : Line) (h : sp.minusOne line.bytes) :
    FrameOver sp item (36 :: (line.bytes ++ crlf)) .none
  | bulk (line : Line) (data t : Bytes) (h : sp.length line.bytes data.length)
    (ht : sp.terminator t) :
    FrameOver sp item (36 :: (line.bytes ++ crlf) ++ (data ++ t)) (.bytes data)
  | nullArray (line : Line) (h : sp.minusOne line.bytes) :
    FrameOver sp item (42 :: (line.bytes ++ crlf)) .none
  | array (line : Line) (n : ℕ) (bs : Bytes) (vs : List RespValue) (h : sp.count line.bytes n)
    (items : Sequence item n bs vs) :
    FrameOver sp item (42 :: (line.bytes ++ crlf) ++ bs) (.list vs)
  | null (line : Line) (h : sp.nullLine line.bytes) :
    FrameOver sp item (95 :: (line.bytes ++ crlf)) .none

/-- A frame of at most this depth, and its value. -/
def Frame (sp : Spelling) : ℕ → Bytes → RespValue → Prop
  | 0 => fun _ _ => False
  | limit + 1 => FrameOver sp (Frame sp limit)

/-- The stream comes to the length of a bulk string below -1, behind items of arrays that are
frames. -/
inductive NegativeOver (ints : IntConversion) (item : Bytes → RespValue → Prop)
    (meets : Bytes → Prop) : Bytes → Prop
  | bulk (line : Line) (n : ℤ) (h : ints.value line.bytes = some n) (hn : n ≤ -2)
    (rest : Bytes) : NegativeOver ints item meets (36 :: (line.bytes ++ crlf) ++ rest)
  | array (line : Line) (n : ℤ) (h : ints.value line.bytes = some n) (j : ℕ) (hj : (j : ℤ) < n)
    (bs : Bytes) (vs : List RespValue) (items : Sequence item j bs vs) (rest : Bytes)
    (hrest : meets rest) :
    NegativeOver ints item meets (42 :: (line.bytes ++ crlf) ++ (bs ++ rest))

/-- A reader with this conversion that is given this stream comes to a length below -1. -/
def MeetsNegativeBy (ints : IntConversion) : ℕ → Bytes → Prop
  | 0 => fun _ => False
  | limit + 1 => NegativeOver ints (Frame (.reading ints) limit) (MeetsNegativeBy ints limit)

/-- The same without a limit on the digits. -/
abbrev MeetsNegative : ℕ → Bytes → Prop := MeetsNegativeBy .unlimited

/-! ## The two spellings -/

section Spellings

variable {sp sp' : Spelling} {item item' : Bytes → RespValue → Prop}

/-- Every part that is spelled in the one way is spelled in the other. -/
structure Spelling.Le (sp sp' : Spelling) : Prop where
  int : ∀ {line n}, sp.int line n → sp'.int line n
  minusOne : ∀ {line}, sp.minusOne line → sp'.minusOne line
  length : ∀ {line n}, sp.length line n → sp'.length line n
  count : ∀ {line n}, sp.count line n → sp'.count line n
  terminator : ∀ {t}, sp.terminator t → sp'.terminator t
  nullLine : ∀ {line}, sp.nullLine line → sp'.nullLine line

/-- The decoder understands the spelling of the protocol. -/
lemma Spelling.strict_le_wide : Spelling.strict.Le .wide where
  int := parseInt_of_signedDigits
  minusOne h := by
    rw [h]
    exact parseInt_decimalInt (-1)
  length h := parseInt_of_signedDigits ⟨_, _, h, .inl ⟨rfl, rfl⟩⟩
  count h := ⟨_, parseInt_of_signedDigits ⟨_, _, h, .inl ⟨rfl, rfl⟩⟩, by omega, by simp⟩
  terminator h := by
    rw [h]
    rfl
  nullLine _ := trivial

lemma Sequence.mono (hitem : ∀ b v, item b v → item' b v) {n : ℕ} {bs : Bytes}
    {vs : List RespValue} (h : Sequence item n bs vs) : Sequence item' n bs vs := by
  induction h with
  | nil => exact .nil
  | cons head _ ih => exact .cons (hitem _ _ head) ih

lemma FrameOver.mono (hsp : sp.Le sp') (hitem : ∀ b v, item b v → item' b v) {b : Bytes}
    {v : RespValue} (h : FrameOver sp item b v) : FrameOver sp' item' b v := by
  cases h with
  | simple line s h => exact .simple line s h
  | integer line n h => exact .integer line n (hsp.int h)
  | nullBulk line h => exact .nullBulk line (hsp.minusOne h)
  | bulk line data t h ht => exact .bulk line data t (hsp.length h) (hsp.terminator ht)
  | nullArray line h => exact .nullArray line (hsp.minusOne h)
  | array line n bs vs h items => exact .array line n bs vs (hsp.count h) (items.mono hitem)
  | null line h => exact .null line (hsp.nullLine h)

/-- A frame stays one in a wider spelling. -/
lemma Frame.mono (hsp : sp.Le sp') {limit : ℕ} {b : Bytes} {v : RespValue}
    (h : Frame sp limit b v) : Frame sp' limit b v := by
  induction limit generalizing b v with
  | zero => exact h.elim
  | succ limit ih => exact FrameOver.mono hsp (fun _ _ => ih) h

end Spellings

/-! ## Reading frames -/

namespace RespReader

/-- As many items as there are. -/
lemma reads_sequence {item : Parser RespValue} {itemFrame : Bytes → RespValue → Prop}
    (hitem : ∀ b v, itemFrame b v → respBuffer.Reads item b (.ok v) []) {n : ℕ} {bs : Bytes}
    {vs : List RespValue} (h : Sequence itemFrame n bs vs) :
    respBuffer.Reads (item.replicate n) bs (.ok vs) [] := by
  induction h with
  | nil => exact .pure []
  | @cons n b bs v vs head _ ih =>
    rw [Coro.replicate]
    refine (hitem b v head).bind_ok ?_
    rw [← List.append_nil bs]
    exact ih.bind_ok (.pure (v :: vs))

/-- A line that the branch behind the marker goes on from. -/
lemma reads_readInt_bind {ints : IntConversion} {α : Type} {line : Line} {n : ℤ}
    (h : ints.value line.bytes = some n) {f : ℤ → Parser α} {bs left : Bytes} {res : Except Exc α}
    (hf : respBuffer.Reads (f n) bs res left) :
    respBuffer.Reads ((readIntBy ints).bind f) (line.bytes ++ crlf ++ bs) res left :=
  (reads_readInt_of_value h).bind_ok hf

/-- The decoder reads the frames of the wide grammar. -/
theorem reads_frame {ints : IntConversion} {limit : ℕ} {b : Bytes} {v : RespValue}
    (h : Frame (.reading ints) limit b v) :
    respBuffer.Reads (parseFrameBy ints limit) b (.ok v) [] := by
  induction limit generalizing b v with
  | zero => exact h.elim
  | succ limit ih =>
    cases h with
    | simple line s h =>
      refine reads_parseFrame_of_marked ?_
      rw [parseMarked_simple, ← List.append_nil (line.bytes ++ crlf)]
      have htext : Reply.lineText line = .ok s := by rw [Reply.lineText, h]
      exact (htext ▸ reads_readText line).bind_ok (.pure _)
    | integer line n h =>
      refine reads_parseFrame_of_marked ?_
      rw [parseMarked_integer, ← List.append_nil (line.bytes ++ crlf)]
      exact reads_readInt_bind h (.pure _)
    | nullBulk line h =>
      refine reads_parseFrame_of_marked ?_
      rw [parseMarked_bulk, ← List.append_nil (line.bytes ++ crlf)]
      refine reads_readInt_bind h ?_
      rw [if_pos rfl]
      exact .pure _
    | bulk line data t h ht =>
      refine reads_parseFrame_of_marked ?_
      rw [parseMarked_bulk]
      refine reads_readInt_bind h ?_
      rw [if_neg (by omega), ← List.append_nil (data ++ t), List.append_assoc]
      exact (reads_readExact data rfl).bind_ok
        ((reads_readExact t (by exact_mod_cast ht.symm)).bind_ok (.pure _))
    | nullArray line h =>
      refine reads_parseFrame_of_marked ?_
      rw [parseMarked_array, ← List.append_nil (line.bytes ++ crlf)]
      refine reads_readInt_bind h ?_
      rw [if_pos rfl]
      exact .pure _
    | array line n bs vs h items =>
      refine reads_parseFrame_of_marked ?_
      rw [parseMarked_array]
      obtain ⟨z, hz, hne, rfl⟩ := h
      refine reads_readInt_bind hz ?_
      rw [if_neg hne, ← List.append_nil bs]
      exact (reads_sequence (fun _ _ => ih) items).bind_ok (.pure _)
    | null line h =>
      refine reads_parseFrame_of_marked ?_
      rw [parseMarked_null, ← List.append_nil (line.bytes ++ crlf)]
      exact (reads_readLine line).bind_ok (.pure _)

/-- The decoder reads the frames of the protocol's grammar. -/
theorem reads_strictFrame {limit : ℕ} {b : Bytes} {v : RespValue} (h : Frame .strict limit b v) :
    respBuffer.Reads (parseFrame limit) b (.ok v) [] :=
  reads_frame (h.mono Spelling.strict_le_wide)

end RespReader

end KacheDB
