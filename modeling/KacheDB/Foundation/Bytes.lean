import KacheDB.Foundation.Windows
import Mathlib.Data.List.Infix
import Mathlib.Data.List.DropRight

/-!
# Byte strings

Byte strings are lists of bytes.  The file gives the operations of Python's `bytes`
and `bytearray` that a byte-oriented program uses, with Python's conventions:

* slices with possibly negative bounds (`slice`), slice assignment (`setSlice`) and
  `find`;
* decimal printing (`decimal`) and the integer literals that `int` accepts
  (`parseInt`), which is inverse to printing (`parseInt_decimalInt`);
* strict UTF-8 decoding (`decodeUtf8`);
* little-endian fields (`littleEndian`, `packU32s`).

The limit on the number of digits that `int` converts is a setting of the
interpreter and is not part of `parseInt`.
-/

namespace Foundation

/-- A byte string. -/
abbrev Bytes := List UInt8

/-! ## Slices -/

/-- The position in a sequence of length `n` that a slice bound `i` stands for: a negative
bound counts from the end, and a bound outside the sequence is moved to its nearer end. -/
def clampIndex (i : ℤ) (n : ℕ) : ℕ :=
  if i < 0 then (i + n).toNat else min i.toNat n

/-- The slice `xs[i:j]`. -/
def slice {α : Type} (xs : List α) (i j : ℤ) : List α :=
  (xs.take (clampIndex j xs.length)).drop (clampIndex i xs.length)

/-- The slice assignment `xs[i:j] = ys` on a mutable sequence. -/
def setSlice {α : Type} (xs : List α) (i j : ℤ) (ys : List α) : List α :=
  xs.take (clampIndex i xs.length) ++ ys ++
    xs.drop (max (clampIndex i xs.length) (clampIndex j xs.length))

@[simp] lemma clampIndex_natCast (i n : ℕ) : clampIndex i n = min i n := by
  simp [clampIndex]

/-- Slices with non-negative bounds. -/
lemma slice_natCast {α : Type} (xs : List α) (i j : ℕ) :
    slice xs i j = (xs.drop i).take (j - i) := by
  rcases le_total i xs.length with h | h
  · simp only [slice, clampIndex_natCast, min_eq_left h, List.drop_take]
    rw [List.take_eq_take_iff, List.length_drop]
    omega
  · simp only [slice, clampIndex_natCast, min_eq_right h, List.drop_eq_nil_of_le h,
      List.take_nil]
    exact List.drop_eq_nil_of_le (by simp)

/-- Assigning a slice of the length of the new content writes over a window. -/
lemma setSlice_eq_splice {α : Type} {xs ys : List α} {i j : ℕ} (hj : j = i + ys.length)
    (hle : j ≤ xs.length) : setSlice xs i j ys = splice xs i ys := by
  subst hj
  have hi : i ≤ xs.length := by omega
  simp only [setSlice, splice, clampIndex_natCast, min_eq_left hi, min_eq_left hle,
    max_eq_right (Nat.le_add_right i ys.length)]

/-- Two slice assignments one behind the other are one. -/
lemma setSlice_setSlice {α : Type} {xs ys zs : List α} {i j k : ℕ} (hj : j = i + ys.length)
    (hk : k = j + zs.length) (hle : k ≤ xs.length) :
    setSlice (setSlice xs i j ys) j k zs = setSlice xs i k (ys ++ zs) := by
  have hys : i + ys.length ≤ xs.length := by omega
  rw [setSlice_eq_splice hj (by omega),
    setSlice_eq_splice hk (by rw [length_splice hys]; exact hle),
    setSlice_eq_splice (by rw [List.length_append]; omega) hle, hj, splice_splice hys]

/-- The length after a slice assignment. -/
lemma length_setSlice {α : Type} (xs ys : List α) (i j : ℕ) :
    (setSlice xs i j ys).length =
      min i xs.length + ys.length + (xs.length - max (min i xs.length) (min j xs.length)) := by
  simp only [setSlice, clampIndex_natCast, List.length_append, List.length_take,
    List.length_drop]
  omega

/-- Assigning a slice of the length of the new content makes a sequence reach the end of it. -/
lemma length_setSlice_of_le {α : Type} {xs ys : List α} {i j : ℕ} (hi : i ≤ xs.length)
    (hj : j = i + ys.length) : (setSlice xs i j ys).length = max xs.length j := by
  rw [length_setSlice, min_eq_left hi]
  omega

/-- Assigning a slice of the length of the new content does not make a sequence shorter. -/
lemma le_length_setSlice {α : Type} {xs ys : List α} {i j : ℕ} (hj : j = i + ys.length) :
    xs.length ≤ (setSlice xs i j ys).length := by
  rw [length_setSlice]
  omega

/-! ## Searching -/

/-- The first position at which `sub` occurs. -/
def findIdx (sub : Bytes) : Bytes → Option ℕ
  | [] => if sub.isEmpty then some 0 else none
  | b :: bs => if sub.isPrefixOf (b :: bs) then some 0 else (findIdx sub bs).map (· + 1)

/-- `hay.find(sub, start)`, with `none` for the result `-1`. -/
def find (hay sub : Bytes) (start : ℤ) : Option ℕ :=
  (findIdx sub (hay.drop (clampIndex start hay.length))).map
    (· + clampIndex start hay.length)

/-- The end of a line on the wire. -/
def crlf : Bytes := [13, 10]

/-- The first line end behind a line is the one that closes it. -/
lemma findIdx_crlf_append (line post : Bytes) (h : ¬ crlf <:+: line) :
    findIdx crlf (line ++ crlf ++ post) = some line.length := by
  induction line with
  | nil => simp [findIdx, crlf]
  | cons b line ih =>
    have htail : ¬ crlf <:+: line := fun hi => h (hi.trans (List.suffix_cons b line).isInfix)
    have hhead : ¬ crlf <+: b :: (line ++ crlf ++ post) := by
      intro hp
      rcases line with _ | ⟨c, line⟩
      · simp [crlf] at hp
      · exact h (List.IsPrefix.isInfix (by simpa [crlf, List.cons_prefix_cons] using hp))
    have hbool : crlf.isPrefixOf (b :: (line ++ crlf ++ post)) = false := by
      rw [Bool.eq_false_iff, ne_eq, List.isPrefixOf_iff_prefix]
      exact hhead
    rw [List.cons_append, List.cons_append, findIdx, hbool, if_neg (by simp), ih htail]
    simp

/-- If a byte string occurs then the search finds it. -/
lemma findIdx_isSome {sub hay : Bytes} (h : sub <:+: hay) :
    (findIdx sub hay).isSome := by
  induction hay with
  | nil => simp [List.infix_nil.mp h, findIdx]
  | cons b bs ih =>
    unfold findIdx
    split
    · rfl
    · next hp =>
      rw [List.isPrefixOf_iff_prefix] at hp
      simpa using ih ((List.infix_cons_iff.mp h).resolve_left hp)

/-- What the search finds is an occurrence. -/
lemma prefix_drop_of_findIdx {sub hay : Bytes} {i : ℕ} (h : findIdx sub hay = some i) :
    sub <+: hay.drop i := by
  induction hay generalizing i with
  | nil =>
    unfold findIdx at h
    split at h
    · next hs => simp [List.isEmpty_iff.mp hs]
    · exact absurd h (by simp)
  | cons b bs ih =>
    unfold findIdx at h
    split at h
    · next hp =>
      cases h
      exact List.isPrefixOf_iff_prefix.mp hp
    · obtain ⟨j, hj, rfl⟩ := Option.map_eq_some_iff.mp h
      simpa using ih hj

/-- An occurrence lies within the byte string. -/
lemma add_length_le_of_findIdx {sub hay : Bytes} {i : ℕ} (h : findIdx sub hay = some i) :
    i + sub.length ≤ hay.length ∨ sub = [] := by
  have hle := (prefix_drop_of_findIdx h).length_le
  rw [List.length_drop] at hle
  rcases sub with _ | ⟨b, sub⟩
  · exact .inr rfl
  · rw [List.length_cons] at hle ⊢
    exact .inl (by omega)

/-- More bytes at the end do not change where the first occurrence is. -/
lemma findIdx_append {sub hay : Bytes} {i : ℕ} (h : findIdx sub hay = some i) (more : Bytes) :
    findIdx sub (hay ++ more) = some i := by
  induction hay generalizing i with
  | nil =>
    have hsub : sub = [] := by simpa using prefix_drop_of_findIdx h
    subst hsub
    cases h
    cases more <;> rfl
  | cons b bs ih =>
    have hfit := add_length_le_of_findIdx h
    unfold findIdx at h
    split at h
    · next hp =>
      rw [List.isPrefixOf_iff_prefix] at hp
      have hp' : sub.isPrefixOf (b :: (bs ++ more)) = true :=
        List.isPrefixOf_iff_prefix.mpr (hp.trans (List.prefix_append (b :: bs) more))
      rw [List.cons_append, findIdx, if_pos hp', h]
    · next hp =>
      obtain ⟨j, hj, rfl⟩ := Option.map_eq_some_iff.mp h
      have hp' : ¬ sub.isPrefixOf (b :: (bs ++ more)) = true := by
        rw [List.isPrefixOf_iff_prefix] at hp ⊢
        rintro hpre
        refine hp (List.prefix_of_prefix_length_le hpre (List.prefix_append (b :: bs) more) ?_)
        rcases hfit with hfit | rfl
        · omega
        · simp
      rw [List.cons_append, findIdx, if_neg hp', ih hj, Option.map_some]

/-! ## Integers -/

/-- Decimal digits of a natural number, most significant first. -/
def decimal (n : ℕ) : Bytes :=
  (Nat.toDigits 10 n).map fun c => UInt8.ofNat c.toNat

/-- Decimal form of an integer. -/
def decimalInt (z : ℤ) : Bytes :=
  if z < 0 then 45 :: decimal z.natAbs else decimal z.natAbs

/-- White space as `int` skips it. -/
def isSpace (b : UInt8) : Bool :=
  b.toNat == 32 || (9 ≤ b.toNat && b.toNat ≤ 13)

/-- A decimal digit. -/
def isDigit (b : UInt8) : Bool :=
  48 ≤ b.toNat && b.toNat ≤ 57

/-- Digits with single underscores between them; `afterDigit` says whether the byte before
was a digit. -/
def parseDigits (acc : ℕ) (afterDigit : Bool) : Bytes → Option ℕ
  | [] => if afterDigit then some acc else none
  | b :: bs =>
    if isDigit b then parseDigits (10 * acc + (b.toNat - 48)) true bs
    else if b == 95 && afterDigit then parseDigits acc false bs
    else none

/-- `int(bs)`: white space around an optional sign and decimal digits. -/
def parseInt (bs : Bytes) : Option ℤ :=
  match (bs.dropWhile isSpace).rdropWhile isSpace with
  | 45 :: ds => (parseDigits 0 false ds).map fun n : ℕ => -(n : ℤ)
  | 43 :: ds => (parseDigits 0 false ds).map fun n : ℕ => (n : ℤ)
  | ds => (parseDigits 0 false ds).map fun n : ℕ => (n : ℤ)

/-- The number of digits in front, with single underscores between them; `none` if an underscore
is misplaced. -/
def scanDigits (digits : ℕ) (afterUnderscore : Bool) : Bytes → Option ℕ
  | [] => if afterUnderscore then none else some digits
  | b :: bs =>
    if b == 95 then if afterUnderscore then none else scanDigits digits true bs
    else if isDigit b then scanDigits (digits + 1) false bs
    else if afterUnderscore then none else some digits

/-- The number of digits that `int(bs)` counts before it converts them, behind white space and an
optional sign. -/
def digitCount (bs : Bytes) : ℕ :=
  match (bs.dropWhile isSpace).rdropWhile isSpace with
  | 45 :: ds => (scanDigits 0 true ds).getD 0
  | 43 :: ds => (scanDigits 0 true ds).getD 0
  | ds => (scanDigits 0 true ds).getD 0

/-- Decimal forms consist of digits. -/
lemma isDigit_of_mem_decimal {n : ℕ} {b : UInt8} (h : b ∈ decimal n) : isDigit b = true := by
  obtain ⟨c, hc, rfl⟩ := List.mem_map.mp h
  have hd := Nat.isDigit_of_mem_toDigits (by norm_num) (by norm_num) hc
  simp only [Char.isDigit, Bool.and_eq_true, decide_eq_true_eq, ge_iff_le,
    UInt32.le_iff_toNat_le] at hd
  have h48 : 48 ≤ c.toNat := by simpa using hd.1
  have h57 : c.toNat ≤ 57 := by simpa using hd.2
  simp only [isDigit, Bool.and_eq_true, decide_eq_true_eq, UInt8.toNat_ofNat']
  omega

lemma decimal_ne_nil (n : ℕ) : decimal n ≠ [] := by
  simp [decimal]

/-- A digit is not white space. -/
lemma isSpace_eq_false_of_isDigit {b : UInt8} (h : isDigit b = true) : isSpace b = false := by
  simp only [isDigit, Bool.and_eq_true, decide_eq_true_eq] at h
  simp only [isSpace, Bool.or_eq_false_iff, beq_eq_false_iff_ne, ne_eq, Bool.and_eq_false_iff,
    decide_eq_false_iff_not]
  omega

/-- On digits the literal parser folds them up. -/
lemma parseDigits_eq_foldl {ds : Bytes} (h : ∀ b ∈ ds, isDigit b = true) (acc : ℕ) :
    parseDigits acc true ds = some (ds.foldl (fun a b => 10 * a + (b.toNat - 48)) acc) := by
  induction ds generalizing acc with
  | nil => rfl
  | cons b ds ih =>
    rw [parseDigits, if_pos (h b List.mem_cons_self),
      ih fun c hc => h c (List.mem_cons_of_mem b hc)]
    rfl

/-- Folding up the decimal form gives the number back. -/
lemma foldl_decimal (n : ℕ) :
    (decimal n).foldl (fun a b => 10 * a + (b.toNat - 48)) 0 = n := by
  have hfold : ∀ (cs : List Char) (a : ℕ), (∀ c ∈ cs, c.isDigit = true) →
      (cs.map fun c => UInt8.ofNat c.toNat).foldl (fun a b => 10 * a + (b.toNat - 48)) a =
        Nat.ofDigitChars 10 cs a := by
    intro cs
    induction cs with
    | nil => intro a _; simp
    | cons c cs ih =>
      intro a hcs
      have hc := hcs c List.mem_cons_self
      simp only [Char.isDigit, Bool.and_eq_true, decide_eq_true_eq, ge_iff_le,
        UInt32.le_iff_toNat_le] at hc
      have h57 : c.toNat ≤ 57 := by simpa using hc.2
      have hb : (UInt8.ofNat c.toNat).toNat = c.toNat := by
        simp only [UInt8.toNat_ofNat']
        omega
      rw [List.map_cons, List.foldl_cons, ih _ fun d hd => hcs d (List.mem_cons_of_mem c hd),
        Nat.ofDigitChars_cons, hb]
      rfl
  rw [decimal, hfold _ _ fun c hc => Nat.isDigit_of_mem_toDigits (by norm_num) (by norm_num) hc]
  exact Nat.ofDigitChars_toDigits (by norm_num) le_rfl

/-- The literal parser inverts decimal printing of natural numbers. -/
lemma parseDigits_decimal (n : ℕ) : parseDigits 0 false (decimal n) = some n := by
  rcases hd : decimal n with _ | ⟨b, ds⟩
  · exact absurd hd (decimal_ne_nil n)
  · have hmem : ∀ c ∈ b :: ds, isDigit c = true := fun c hc =>
      isDigit_of_mem_decimal (hd ▸ hc)
    have hfold := foldl_decimal n
    rw [hd, List.foldl_cons] at hfold
    rw [parseDigits, if_pos (hmem b List.mem_cons_self),
      parseDigits_eq_foldl fun c hc => hmem c (List.mem_cons_of_mem b hc), hfold]

/-- Bytes without white space have none around them. -/
lemma strip_eq_self {bs : Bytes} (h : ∀ b ∈ bs, isSpace b = false) :
    (bs.dropWhile isSpace).rdropWhile isSpace = bs := by
  have hdrop : bs.dropWhile isSpace = bs := by
    rw [List.dropWhile_eq_self_iff]
    intro hl
    simp [h _ (List.getElem_mem hl)]
  rw [hdrop, List.rdropWhile_eq_self_iff]
  intro hl
  simp [h _ (List.getLast_mem hl)]

/-- Decimal digits and nothing else, and their value. -/
def Digits (ds : Bytes) (n : ℕ) : Prop :=
  (∀ b ∈ ds, isDigit b = true) ∧ parseDigits 0 false ds = some n

/-- An optional sign and decimal digits, and their value. -/
def SignedDigits (bs : Bytes) (z : ℤ) : Prop :=
  ∃ ds n, Digits ds n ∧ (bs = ds ∧ z = n ∨ bs = 43 :: ds ∧ z = n ∨ bs = 45 :: ds ∧ z = -n)

/-- `int` gives the value of an optional sign and digits. -/
theorem parseInt_of_signedDigits {bs : Bytes} {z : ℤ} (h : SignedDigits bs z) :
    parseInt bs = some z := by
  obtain ⟨ds, n, ⟨hdigits, hparse⟩, hbs⟩ := h
  have hspace : ∀ b ∈ ds, isSpace b = false := fun b hb =>
    isSpace_eq_false_of_isDigit (hdigits b hb)
  unfold parseInt
  rcases hbs with ⟨rfl, rfl⟩ | ⟨rfl, rfl⟩ | ⟨rfl, rfl⟩
  · rw [strip_eq_self hspace]
    -- the first byte is a digit and no sign
    split
    · have hdigit := hdigits 45 List.mem_cons_self
      simp [isDigit] at hdigit
    · have hdigit := hdigits 43 List.mem_cons_self
      simp [isDigit] at hdigit
    · rw [hparse, Option.map_some]
  · rw [strip_eq_self (List.forall_mem_cons.mpr ⟨rfl, hspace⟩)]
    simp only [hparse, Option.map_some]
  · rw [strip_eq_self (List.forall_mem_cons.mpr ⟨rfl, hspace⟩)]
    simp only [hparse, Option.map_some]

/-- The decimal form of a natural number consists of its digits. -/
lemma digits_decimal (n : ℕ) : Digits (decimal n) n :=
  ⟨fun _ => isDigit_of_mem_decimal, parseDigits_decimal n⟩

/-- The decimal form of an integer has a sign where it is negative. -/
lemma signedDigits_decimalInt (z : ℤ) : SignedDigits (decimalInt z) z := by
  refine ⟨decimal z.natAbs, z.natAbs, digits_decimal _, ?_⟩
  unfold decimalInt
  split_ifs with hz
  · exact .inr (.inr ⟨rfl, by omega⟩)
  · exact .inl ⟨rfl, by omega⟩

/-- `int` inverts decimal printing. -/
theorem parseInt_decimalInt (z : ℤ) : parseInt (decimalInt z) = some z :=
  parseInt_of_signedDigits (signedDigits_decimalInt z)

/-- A decimal form contains no line end. -/
lemma not_crlf_infix_decimalInt (z : ℤ) : ¬ crlf <:+: decimalInt z := by
  intro h
  have hmem : (13 : UInt8) ∈ decimalInt z := h.subset (by simp [crlf])
  unfold decimalInt at hmem
  have hdec : (13 : UInt8) ∉ decimal z.natAbs := fun hm => by
    simpa [isDigit] using isDigit_of_mem_decimal hm
  split at hmem
  · exact hdec ((List.mem_cons.mp hmem).resolve_left (by decide))
  · exact hdec hmem

/-! ## Text -/

/-- The UTF-8 form of a string. -/
def encodeUtf8 (s : String) : Bytes :=
  s.toByteArray.data.toList

/-- Strict UTF-8 decoding, `none` where Python raises `UnicodeDecodeError`. -/
def decodeUtf8 (bs : Bytes) : Option String :=
  String.fromUTF8? ⟨bs.toArray⟩

/-- Decoding inverts encoding. -/
@[simp] lemma decodeUtf8_encodeUtf8 (s : String) : decodeUtf8 (encodeUtf8 s) = some s := by
  have hb : (⟨(encodeUtf8 s).toArray⟩ : ByteArray) = s.toByteArray := by
    simp [encodeUtf8]
  unfold decodeUtf8 String.fromUTF8?
  rw [hb, dif_pos s.isValidUTF8]
  rfl

/-- What is decoded is the encoding of the text. -/
lemma eq_encodeUtf8_of_decodeUtf8 {bs : Bytes} {s : String} (h : decodeUtf8 bs = some s) :
    bs = encodeUtf8 s := by
  unfold decodeUtf8 String.fromUTF8? at h
  split at h
  · have hs := Option.some.inj h
    rw [← hs]
    simp [encodeUtf8, String.fromUTF8]
  · cases h

/-! ## Fields of fixed width -/

/-- The low `width` bytes of a number, least significant first. -/
def littleEndian : (width : ℕ) → ℕ → Bytes
  | 0, _ => []
  | width + 1, n => UInt8.ofNat (n % 256) :: littleEndian width (n / 256)

/-- The number of a field, least significant byte first. -/
def ofLittleEndian : Bytes → ℕ
  | [] => 0
  | b :: bs => b.toNat + 256 * ofLittleEndian bs

@[simp] lemma length_littleEndian (width n : ℕ) : (littleEndian width n).length = width := by
  induction width generalizing n with
  | zero => rfl
  | succ width ih => simp [littleEndian, ih]

/-- Numbers below `256 ^ width` are determined by their field. -/
lemma littleEndian_inj {width m n : ℕ} (hm : m < 256 ^ width) (hn : n < 256 ^ width)
    (h : littleEndian width m = littleEndian width n) : m = n := by
  induction width generalizing m n with
  | zero =>
    simp only [pow_zero] at hm hn
    omega
  | succ width ih =>
    simp only [littleEndian, List.cons.injEq] at h
    have hlow : m % 256 = n % 256 := by
      have := congrArg UInt8.toNat h.1
      simp only [UInt8.toNat_ofNat'] at this
      omega
    have hhigh : m / 256 = n / 256 :=
      ih (Nat.div_lt_of_lt_mul (by rw [pow_succ] at hm; omega))
        (Nat.div_lt_of_lt_mul (by rw [pow_succ] at hn; omega)) h.2
    omega

/-- A field holds the number modulo its width. -/
lemma ofLittleEndian_littleEndian (width n : ℕ) :
    ofLittleEndian (littleEndian width n) = n % 256 ^ width := by
  induction width generalizing n with
  | zero => simp [littleEndian, ofLittleEndian, Nat.mod_one]
  | succ width ih =>
    have hbyte : (UInt8.ofNat (n % 256)).toNat = n % 256 := by
      rw [UInt8.toNat_ofNat', Nat.mod_mod]
    rw [littleEndian, ofLittleEndian, ih, hbyte, pow_succ, mul_comm (256 ^ width), Nat.mod_mul]

/-- A field is determined by its number. -/
lemma littleEndian_ofLittleEndian (bs : Bytes) :
    littleEndian bs.length (ofLittleEndian bs) = bs := by
  induction bs with
  | nil => rfl
  | cons b bs ih =>
    have hlt := b.toNat_lt
    have hlow : (b.toNat + 256 * ofLittleEndian bs) % 256 = b.toNat := by omega
    have hhigh : (b.toNat + 256 * ofLittleEndian bs) / 256 = ofLittleEndian bs := by omega
    rw [ofLittleEndian, List.length_cons, littleEndian, hlow, hhigh, ih, UInt8.ofNat_toNat]

/-- The number of a field. -/
lemma ofLittleEndian_lt (bs : Bytes) : ofLittleEndian bs < 256 ^ bs.length := by
  induction bs with
  | nil => exact Nat.one_pos
  | cons b bs ih =>
    have hlt := b.toNat_lt
    rw [ofLittleEndian, List.length_cons, pow_succ]
    omega

/-- The integers that an unsigned field of four bytes holds. -/
def FitsU32 (n : ℤ) : Prop :=
  0 ≤ n ∧ n < 2 ^ 32

instance (n : ℤ) : Decidable (FitsU32 n) :=
  inferInstanceAs (Decidable (_ ∧ _))

/-- Unsigned fields of four bytes, one for each number. -/
def packU32s (ns : List ℤ) : Bytes :=
  ns.flatMap fun n => littleEndian 4 n.toNat

/-- Numbers that fit are determined by their fields. -/
lemma packU32s_inj {ms ns : List ℤ} (hm : ∀ m ∈ ms, FitsU32 m) (hn : ∀ n ∈ ns, FitsU32 n)
    (h : packU32s ms = packU32s ns) : ms = ns := by
  induction ms generalizing ns with
  | nil =>
    cases ns with
    | nil => rfl
    | cons n ns =>
      have hlen := congrArg List.length h
      simp only [packU32s, List.flatMap_nil, List.flatMap_cons, List.length_append,
        length_littleEndian, List.length_nil] at hlen
      omega
  | cons m ms ih =>
    cases ns with
    | nil => exact absurd (congrArg List.length h) (by simp [packU32s])
    | cons n ns =>
      obtain ⟨hhead, htail⟩ := List.append_inj h (by simp)
      have hm₀ := hm m List.mem_cons_self
      have hn₀ := hn n List.mem_cons_self
      have hnat := littleEndian_inj (by have := hm₀.2; omega) (by have := hn₀.2; omega) hhead
      have heq : m = n := by
        have := hm₀.1
        have := hn₀.1
        omega
      rw [heq, ih (fun x hx => hm x (List.mem_cons_of_mem _ hx))
        (fun x hx => hn x (List.mem_cons_of_mem _ hx)) htail]

end Foundation
