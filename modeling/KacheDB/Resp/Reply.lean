import KacheDB.Resp.Reader

/-!
# Replies on the wire

What a server sends, as a tree: `Reply`.  The grammar is the one of the decoder's own
documentation (status lines, errors, integers, bulk strings, nulls and arrays), with one more
constructor for the frames of RESP3 that the decoder does not know.  The texts of status and
error lines are bytes, since nothing on the wire makes them UTF-8.

Each reply has

* its `encode`, the bytes on the wire;
* its `outcome`, the value it stands for or the exception that the first element that is not
  a value gives rise to, reading from the left;
* its `leftover`, the bytes that lie behind that element in the same frame.

`outcome` and `leftover` take the recursion depth that the interpreter's stack allows; an
element nested deeper is not a value.  The three functions are the meaning of replies.  They
do not mention the decoder, which is compared with them in `KacheDB.Resp.Decoding`.
-/

namespace KacheDB

open Foundation

/-- The text of a status line: bytes without a line end. -/
structure Line where
  bytes : Bytes
  no_crlf : ¬ crlf <:+: bytes

/-- The first byte of a frame that the decoder does not know. -/
structure ForeignMarker where
  byte : UInt8
  not_known : byte ∉ ([43, 45, 58, 36, 42, 95] : Bytes)

/-- A reply of a server. -/
inductive Reply : Type where
  /-- `+line` -/
  | simple (line : Line)
  /-- `-line` -/
  | error (line : Line)
  /-- `:n` -/
  | integer (n : ℤ)
  /-- `$len` and the data -/
  | bulk (data : Bytes)
  /-- `$-1` -/
  | nullBulk
  /-- `*-1` -/
  | nullArray
  /-- `_` -/
  | null
  /-- `*count` and the items -/
  | array (items : List Reply)
  /-- A frame of another type: its marker and the bytes behind it. -/
  | foreign (marker : ForeignMarker) (body : Bytes)

namespace Reply

mutual

/-- The bytes of a reply on the wire. -/
def encode : Reply → Bytes
  | .simple line => 43 :: (line.bytes ++ crlf)
  | .error line => 45 :: (line.bytes ++ crlf)
  | .integer n => 58 :: (decimalInt n ++ crlf)
  | .bulk data => encodeBulk data
  | .nullBulk => 36 :: (decimalInt (-1) ++ crlf)
  | .nullArray => 42 :: (decimalInt (-1) ++ crlf)
  | .null => 95 :: crlf
  | .array items => 42 :: (decimal items.length ++ crlf) ++ encodeList items
  | .foreign marker body => marker.byte :: body

/-- The bytes of consecutive replies. -/
def encodeList : List Reply → Bytes
  | [] => []
  | r :: rs => r.encode ++ encodeList rs

end

/-- The text of a line, or the exception that decoding it raises. -/
def lineText (line : Line) : Except Exc String :=
  match decodeUtf8 line.bytes with
  | some s => .ok s
  | none => .error .unicodeDecodeError

mutual

/-- The value of a reply, or the exception of its first element that is not a value. -/
def outcome : ℕ → Reply → Except Exc RespValue
  | 0, _ => .error .recursionError
  | _ + 1, .simple line => (lineText line).map .str
  | _ + 1, .error line => (lineText line).bind fun msg => .error (.responseError msg)
  | _ + 1, .integer n => .ok (.int n)
  | _ + 1, .bulk data => .ok (.bytes data)
  | _ + 1, .nullBulk => .ok .none
  | _ + 1, .nullArray => .ok .none
  | _ + 1, .null => .ok .none
  | limit + 1, .array items => (outcomeList limit items).map .list
  | _ + 1, .foreign marker _ =>
    .error (.protocolError s!"Unknown RESP type marker: bytearray({reprBytes [marker.byte]})")

/-- The values of the items of an array, read from the left. -/
def outcomeList : ℕ → List Reply → Except Exc (List RespValue)
  | _, [] => .ok []
  | limit, r :: rs => (outcome limit r).bind fun v => (outcomeList limit rs).map (v :: ·)

end

mutual

/-- What lies behind the first element that is not a value. -/
def leftover : ℕ → Reply → Bytes
  | 0, r => r.encode
  | _ + 1, .foreign _ body => body
  | limit + 1, .array items => leftoverList limit items
  | _ + 1, _ => []

/-- What lies behind the first element of an array that is not a value. -/
def leftoverList : ℕ → List Reply → Bytes
  | _, [] => []
  | limit, r :: rs =>
    match outcome limit r with
    | .ok _ => leftoverList limit rs
    | .error _ => leftover limit r ++ encodeList rs

end

mutual

/-- The nesting depth of a reply. -/
def depth : Reply → ℕ
  | .array items => depthList items + 1
  | _ => 1

/-- The largest nesting depth of an item. -/
def depthList : List Reply → ℕ
  | [] => 0
  | r :: rs => max r.depth (depthList rs)

end

/-- A reply stands for a value. -/
def IsValue (limit : ℕ) (r : Reply) : Prop :=
  ∃ v, r.outcome limit = .ok v

/-- Reading the reply leaves nothing of it behind. -/
def Clean (limit : ℕ) (r : Reply) : Prop :=
  r.leftover limit = []

/-- No element is a value when the stack is used up. -/
@[simp] lemma outcome_zero (r : Reply) : r.outcome 0 = .error .recursionError := by
  cases r <;> rw [outcome]

@[simp] lemma leftover_zero (r : Reply) : r.leftover 0 = r.encode := by
  cases r <;> rw [leftover]

/-! ## Consecutive replies -/

/-- The bytes of consecutive replies are the bytes of each, one after the other. -/
lemma encodeList_eq_flatMap (rs : List Reply) : encodeList rs = rs.flatMap encode := by
  induction rs with
  | nil => rfl
  | cons r rs ih => rw [encodeList, ih, List.flatMap_cons]

lemma encode_ne_nil (r : Reply) : r.encode ≠ [] := by
  cases r <;> simp [encode, encodeBulk]

section Items

variable {limit : ℕ} {r : Reply} {e : Exc} {v : RespValue}

/-- A list of items whose first item is no value has that item's exception. -/
lemma outcomeList_cons_of_error (h : r.outcome limit = .error e) (rs : List Reply) :
    outcomeList limit (r :: rs) = .error e := by
  rw [outcomeList, h]
  rfl

/-- Behind a first item that is a value, the list goes on. -/
lemma outcomeList_cons_of_ok (h : r.outcome limit = .ok v) (rs : List Reply) :
    outcomeList limit (r :: rs) = (outcomeList limit rs).map (v :: ·) := by
  rw [outcomeList, h]
  rfl

/-- A first item that is a value leaves what the further items leave. -/
lemma leftoverList_cons_of_ok (h : r.outcome limit = .ok v) (rs : List Reply) :
    leftoverList limit (r :: rs) = leftoverList limit rs := by
  rw [leftoverList, h]

/-- A first item that is no value leaves its own rest and all further items. -/
lemma leftoverList_cons_of_error (h : r.outcome limit = .error e) (rs : List Reply) :
    leftoverList limit (r :: rs) = r.leftover limit ++ encodeList rs := by
  rw [leftoverList, h]

end Items

/-- Items that are all values leave nothing behind. -/
theorem leftoverList_eq_nil {limit : ℕ} (rs : List Reply) (vs : List RespValue)
    (h : outcomeList limit rs = .ok vs) : leftoverList limit rs = [] := by
  induction rs generalizing vs with
  | nil => rfl
  | cons r rs ih =>
    cases hr : r.outcome limit with
    | error e => simp [outcomeList_cons_of_error hr] at h
    | ok v =>
      rw [outcomeList_cons_of_ok hr] at h
      rw [leftoverList_cons_of_ok hr]
      cases hl : outcomeList limit rs with
      | error e => simp [hl, Except.map] at h
      | ok vs' => exact ih vs' hl

/-- A reply that stands for a value leaves nothing behind. -/
theorem clean_of_isValue {limit : ℕ} {r : Reply} (h : r.IsValue limit) : r.Clean limit := by
  obtain ⟨v, hv⟩ := h
  rcases limit with _ | limit
  · simp at hv
  cases r with
  | array items =>
    rw [outcome] at hv
    cases hl : outcomeList limit items with
    | error e => simp [hl, Except.map] at hv
    | ok vs => exact leftoverList_eq_nil items vs hl
  | foreign marker body => simp [outcome] at hv
  | _ => rfl

end Reply

end KacheDB
