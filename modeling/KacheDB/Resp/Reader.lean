import KacheDB.Exceptions
import KacheDB.Foundation.Bytes
import KacheDB.Foundation.Coroutine

/-!
# The RESP encoder and the streaming decoder

`encodeCommand` and `encodeCommands` write commands as arrays of bulk strings.

The decoder is `RespReader`: a byte buffer with a cursor.  Its methods are coroutines over
the reader (`Parser`), waiting wherever the source calls `sock.recv` or awaits
`reader.read`.  `RespReader` and `AsyncRespReader` have the same methods up to these calls,
so one text serves for both; they differ in how it is run.

The first argument of `parseFrame` is the recursion that the interpreter's stack still
allows; at `0` the call raises `RecursionError`.  The interpreter also limits the digits of
`int()`.  `parseFrameBy` is the text of the method over any conversion; `parseFrame` is the method
where the limit is turned off, and `readResponseBy (.within maxDigits)` the call under a limit.
-/

namespace KacheDB

open Foundation

/-! ## Commands -/

/-- One argument of a command: text or bytes.  A text is one that can be encoded: it has no lone
surrogates. -/
inductive Arg : Type where
  | str (s : String)
  | bytes (b : Bytes)
  deriving DecidableEq

/-- The bytes of an argument. -/
def Arg.raw : Arg → Bytes
  | .str s => encodeUtf8 s
  | .bytes b => b

/-- One bulk string. -/
def encodeBulk (raw : Bytes) : Bytes :=
  36 :: (decimal raw.length ++ crlf) ++ raw ++ crlf

/-- Encode a command as a RESP array of bulk strings. -/
def encodeCommand (args : List Arg) : Bytes :=
  42 :: (decimal args.length ++ crlf) ++ args.flatMap fun arg => encodeBulk arg.raw

/-- Encode multiple commands into one buffer. -/
def encodeCommands (commandList : List (List Arg)) : Bytes :=
  commandList.flatMap encodeCommand

/-! ## Texts of errors -/

/-- One byte as `repr` of a byte string shows it between quotes `q`. -/
def reprByte (q b : UInt8) : String :=
  if b = 9 then "\\t"
  else if b = 10 then "\\n"
  else if b = 13 then "\\r"
  else if b = 92 then "\\\\"
  else if b = q then "\\'"
  else if 32 ≤ b.toNat ∧ b.toNat < 127 then String.singleton (Char.ofNat b.toNat)
  else "\\x" ++ String.ofList [Nat.digitChar (b.toNat / 16), Nat.digitChar (b.toNat % 16)]

/-- `repr` of a byte string; it is put in double quotes if it contains a single one only. -/
def reprBytes (bs : Bytes) : String :=
  let q : UInt8 := if bs.contains 39 && !bs.contains 34 then 34 else 39
  let quote := String.singleton (Char.ofNat q.toNat)
  "b" ++ quote ++ String.join (bs.map (reprByte q)) ++ quote

/-! ## Integers -/

/-- What `int()` makes of a line, and the text of the `ValueError` where it makes nothing of it. -/
structure IntConversion where
  value : Bytes → Option ℤ
  refusal : Bytes → String

namespace IntConversion

/-- The text for a line that is no integer; it shows so many bytes only. -/
def invalidLiteral (line : Bytes) : String :=
  "invalid literal for int() with base 10: " ++
    String.ofList ((reprBytes (line.take 200)).toList.take 200)

/-- `int()` without a limit. -/
def unlimited : IntConversion :=
  ⟨parseInt, invalidLiteral⟩

/-- The interpreter refuses to convert so many digits; a limit of 0 is none. -/
def Refuses (maxDigits : ℕ) (line : Bytes) : Prop :=
  0 < maxDigits ∧ maxDigits < digitCount line

instance (maxDigits : ℕ) (line : Bytes) : Decidable (Refuses maxDigits line) :=
  inferInstanceAs (Decidable (_ ∧ _))

/-- `int()` with the limit of `sys.set_int_max_str_digits(maxDigits)`. -/
def within (maxDigits : ℕ) : IntConversion where
  value line := if Refuses maxDigits line then none else parseInt line
  refusal line :=
    if Refuses maxDigits line then
      s!"Exceeds the limit ({maxDigits} digits) for integer string conversion: value has " ++
        s!"{digitCount line} digits; use sys.set_int_max_str_digits() to increase the limit"
    else invalidLiteral line

/-- Underscores, signs and white space are not counted. -/
example : (within 3).value [32, 45, 49, 95, 50, 51] = some (-123) ∧
    (within 3).value [49, 50, 51, 52] = none := by decide

/-- A limit of 0 is none. -/
lemma within_zero : within 0 = unlimited := by
  have hnever (line : Bytes) : ¬ Refuses 0 line := fun h => lt_irrefl 0 h.1
  simp only [within, unlimited, if_neg (hnever _)]

end IntConversion

/-! ## The reader -/

/-- What one `recv` returns when it does not return `b""`. -/
structure Chunk where
  bytes : Bytes
  ne_nil : bytes ≠ []

/-- The state of a reader: its buffer `_buf` and its cursor `_pos`. -/
structure RespReader where
  buf : Bytes
  pos : ℤ

/-- The methods of a reader. -/
abbrev Parser (α : Type) := Coro RespReader Chunk Exc α

/-- What the reads of a connection will see, in order; after the last event the peer has
closed the connection and every further read returns `b""`. -/
abbrev Feed := List (Event Chunk Exc)

namespace RespReader

/-- A new reader. -/
def init : RespReader := ⟨[], 0⟩

/-- `self._buf.extend(chunk)`. -/
def extend (c : Chunk) (r : RespReader) : RespReader :=
  { r with buf := r.buf ++ c.bytes }

/-- Discard consumed bytes when the cursor has advanced far enough. -/
def compact (r : RespReader) : RespReader :=
  if r.pos > 4096 then ⟨r.buf.drop (clampIndex r.pos r.buf.length), 0⟩ else r

/-- Wait until `needed` bytes are available after the cursor. -/
def ensureData (needed : ℤ) : Parser Unit :=
  .waitUntil (fun r => !decide ((r.buf.length : ℤ) - r.pos < needed)) extend
    (.protocolError "Connection closed while reading RESP frame")

/-- Read bytes until `\r\n`, returning the line without it. -/
def readLine : Parser Bytes := do
  .waitUntil (fun r => (find r.buf crlf r.pos).isSome) extend
    (.protocolError "Connection closed while reading RESP line")
  let r ← .fetch
  let idx := (find r.buf crlf r.pos).getD 0
  .put ({ r with pos := idx + 2 } : RespReader).compact
  return slice r.buf r.pos idx

/-- Read exactly `n` bytes. -/
def readExact (n : ℤ) : Parser Bytes := do
  ensureData n
  let r ← .fetch
  .put ({ r with pos := r.pos + n } : RespReader).compact
  return slice r.buf r.pos (r.pos + n)

/-- `self._read_line().decode("utf-8")`. -/
def readText : Parser String := do
  let line ← readLine
  match decodeUtf8 line with
  | some s => .pure s
  | none => .raise .unicodeDecodeError

/-- `int(self._read_line())`. -/
def readIntBy (ints : IntConversion) : Parser ℤ := do
  let line ← readLine
  match ints.value line with
  | some n => .pure n
  | none => .raise (.valueError (ints.refusal line))

/-- The marker of a frame: the next byte. -/
def readMarker : Parser Bytes := do
  ensureData 1
  let r ← .fetch
  .put { r with pos := r.pos + 1 }
  return slice r.buf r.pos (r.pos + 1)

/-- The branches of `_parse_frame` behind the marker; `item` is the recursive call. -/
def parseMarkedBy (ints : IntConversion) (item : Parser RespValue) (marker : Bytes) :
    Parser RespValue :=
  if marker = [43] then do
    let s ← readText
    return .str s
  else if marker = [45] then do
    let msg ← readText
    .raise (.responseError msg)
  else if marker = [58] then do
    let n ← readIntBy ints
    return .int n
  else if marker = [36] then do
    let length ← readIntBy ints
    if length = -1 then return .none
    else do
      let data ← readExact length
      let _ ← readExact 2
      return .bytes data
  else if marker = [42] then do
    let count ← readIntBy ints
    if count = -1 then return .none
    else do
      let items ← item.replicate count.toNat
      return .list items
  else if marker = [95] then do
    let _ ← readLine
    return .none
  else
    .raise (.protocolError s!"Unknown RESP type marker: bytearray({reprBytes marker})")

section Branches

variable (ints : IntConversion) (item : Parser RespValue)

lemma parseMarked_simple :
    parseMarkedBy ints item [43] = readText.bind fun s => .pure (.str s) := rfl

lemma parseMarked_error :
    parseMarkedBy ints item [45] = readText.bind fun msg => .raise (.responseError msg) := rfl

lemma parseMarked_integer :
    parseMarkedBy ints item [58] = (readIntBy ints).bind fun n => .pure (.int n) := rfl

lemma parseMarked_bulk :
    parseMarkedBy ints item [36] = (readIntBy ints).bind fun length =>
      if length = -1 then .pure .none
      else (readExact length).bind fun data => (readExact 2).bind fun _ =>
        .pure (.bytes data) := rfl

lemma parseMarked_array :
    parseMarkedBy ints item [42] = (readIntBy ints).bind fun count =>
      if count = -1 then .pure .none
      else (item.replicate count.toNat).bind fun items => .pure (.list items) := rfl

lemma parseMarked_null :
    parseMarkedBy ints item [95] = readLine.bind fun _ => .pure .none := rfl

/-- A marker that is none of the six is refused. -/
lemma parseMarked_foreign {b : UInt8} (h : b ∉ ([43, 45, 58, 36, 42, 95] : Bytes)) :
    parseMarkedBy ints item [b] =
      .raise (.protocolError s!"Unknown RESP type marker: bytearray({reprBytes [b]})") := by
  simp only [List.mem_cons, List.not_mem_nil, or_false, not_or] at h
  simp [parseMarkedBy, h]

end Branches

/-- Parse a single RESP frame (recursive for arrays). -/
def parseFrameBy (ints : IntConversion) : ℕ → Parser RespValue
  | 0 => .raise .recursionError
  | limit + 1 => do
    let marker ← readMarker
    parseMarkedBy ints (parseFrameBy ints limit) marker

/-- `int(self._read_line())` without a limit on the digits. -/
abbrev readInt : Parser ℤ := readIntBy .unlimited

/-- A single frame without a limit on the digits. -/
abbrev parseFrame : ℕ → Parser RespValue := parseFrameBy .unlimited

/-- `RespReader.read_response`: run the parser on what `recv` will return.  `limit` is the
recursion that the interpreter's stack allows. -/
def readResponseBy (ints : IntConversion) (limit : ℕ) (r : RespReader) (feed : Feed) :
    Except Exc RespValue × RespReader × Feed :=
  (parseFrameBy ints limit).run r feed

/-- `read_response` without a limit on the digits. -/
def readResponse (limit : ℕ) (r : RespReader) (feed : Feed) :
    Except Exc RespValue × RespReader × Feed :=
  (parseFrame limit).run r feed

/-- It is the call after `sys.set_int_max_str_digits(0)`. -/
lemma readResponse_eq_within_zero (limit : ℕ) (r : RespReader) (feed : Feed) :
    r.readResponse limit feed = r.readResponseBy (.within 0) limit feed := by
  rw [IntConversion.within_zero]
  rfl

end RespReader

/-- `AsyncRespReader.read_response` run without a switch to another task: the same parser on
what the awaited reads of the stream will return. -/
def AsyncRespReader.readResponseBy (ints : IntConversion) (limit : ℕ) (r : RespReader)
    (feed : Feed) : Except Exc RespValue × RespReader × Feed :=
  (RespReader.parseFrameBy ints limit).run r feed

/-- The same without a limit on the digits. -/
def AsyncRespReader.readResponse (limit : ℕ) (r : RespReader) (feed : Feed) :
    Except Exc RespValue × RespReader × Feed :=
  (RespReader.parseFrame limit).run r feed

end KacheDB
