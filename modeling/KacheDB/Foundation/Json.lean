import Mathlib.Tactic
import Mathlib.Data.List.Infix

/-!
# JSON

The values of JSON with a writer and a reader, as `json.dumps` and `json.loads` of Python have
them: the writer escapes everything that is not printable ASCII, and the reader takes white space
between tokens, every escape sequence, and surrogate pairs.  A number is kept as the text that it
is written with.  An escape that is a surrogate without its partner stands for no character, and
the reader refuses it.

`loads_dumps` says that reading inverts writing, on values without numbers.
-/

namespace Foundation

/-- A JSON value; the fields of an object are in the order in which they are written. -/
inductive Json : Type where
  | null
  | bool (b : Bool)
  | num (text : String)
  | str (s : String)
  | arr (items : List Json)
  | obj (fields : List (String × Json))

namespace Json

/-! ## Writing -/

/-- The four hexadecimal digits of a number. -/
def hex4 (n : ℕ) : List Char :=
  [Nat.digitChar (n / 4096 % 16), Nat.digitChar (n / 256 % 16), Nat.digitChar (n / 16 % 16),
    Nat.digitChar (n % 16)]

/-- An escape by code. -/
def unicodeEscape (n : ℕ) : List Char :=
  '\\' :: 'u' :: hex4 n

/-- A character as it stands between quotes; beyond the basic plane it is a pair of surrogates. -/
def escapeChar (c : Char) : List Char :=
  if c = '"' then ['\\', '"']
  else if c = '\\' then ['\\', '\\']
  else if c = '\n' then ['\\', 'n']
  else if c = '\r' then ['\\', 'r']
  else if c = '\t' then ['\\', 't']
  else if c = '\x0c' then ['\\', 'f']
  else if c = '\x08' then ['\\', 'b']
  else if 32 ≤ c.toNat ∧ c.toNat ≤ 126 then [c]
  else if c.toNat < 0x10000 then unicodeEscape c.toNat
  else
    unicodeEscape (0xD800 + (c.toNat - 0x10000) / 1024) ++
      unicodeEscape (0xDC00 + (c.toNat - 0x10000) % 1024)

/-- A text in quotes. -/
def quote (s : String) : List Char :=
  '"' :: (s.toList.flatMap escapeChar ++ ['"'])

mutual

/-- A value as text. -/
def write : Json → List Char
  | .null => ['n', 'u', 'l', 'l']
  | .bool true => ['t', 'r', 'u', 'e']
  | .bool false => ['f', 'a', 'l', 's', 'e']
  | .num text => text.toList
  | .str s => quote s
  | .arr [] => ['[', ']']
  | .arr (v :: vs) => '[' :: (v.write ++ writeItems vs)
  | .obj [] => ['{', '}']
  | .obj (field :: fields) => '{' :: (writeField field ++ writeFields fields)

/-- The further items of an array, and its end. -/
def writeItems : List Json → List Char
  | [] => [']']
  | v :: vs => ',' :: ' ' :: (v.write ++ writeItems vs)

/-- A field of an object. -/
def writeField : String × Json → List Char
  | (key, v) => quote key ++ ':' :: ' ' :: v.write

/-- The further fields of an object, and its end. -/
def writeFields : List (String × Json) → List Char
  | [] => ['}']
  | field :: fields => ',' :: ' ' :: (writeField field ++ writeFields fields)

end

/-- `json.dumps(v)` -/
def dumps (v : Json) : String :=
  .ofList v.write

/-! ## Reading -/

/-- White space between tokens. -/
def isSpace (c : Char) : Bool :=
  c == ' ' || c == '\t' || c == '\n' || c == '\r'

/-- The text behind white space. -/
def skipSpace (cs : List Char) : List Char :=
  cs.dropWhile isSpace

/-- The value of a hexadecimal digit. -/
def hexValue (c : Char) : Option ℕ :=
  if '0' ≤ c ∧ c ≤ '9' then some (c.toNat - 48)
  else if 'a' ≤ c ∧ c ≤ 'f' then some (c.toNat - 87)
  else if 'A' ≤ c ∧ c ≤ 'F' then some (c.toNat - 55)
  else none

/-- Four hexadecimal digits. -/
def scanHex4 : List Char → Option (ℕ × List Char)
  | a :: b :: c :: d :: rest => do
    let a ← hexValue a
    let b ← hexValue b
    let c ← hexValue c
    let d ← hexValue d
    return (4096 * a + 256 * b + 16 * c + d, rest)
  | _ => none

/-- The character of an escape sequence without a code. -/
def simpleEscape (c : Char) : Option Char :=
  if c = '"' then some '"'
  else if c = '\\' then some '\\'
  else if c = '/' then some '/'
  else if c = 'b' then some '\x08'
  else if c = 'f' then some '\x0c'
  else if c = 'n' then some '\n'
  else if c = 'r' then some '\r'
  else if c = 't' then some '\t'
  else none

/-- The low surrogate behind a high one. -/
def scanLow : List Char → Option (ℕ × List Char)
  | a :: b :: rest =>
    if a = '\\' ∧ b = 'u' then
      match scanHex4 rest with
      | some (n, rest') => if 0xDC00 ≤ n ∧ n ≤ 0xDFFF then some (n, rest') else none
      | none => none
    else none
  | _ => none

/-- The character of an escape by code. -/
def scanUnicode (cs : List Char) : Option (Char × List Char) :=
  match scanHex4 cs with
  | none => none
  | some (n, rest) =>
    if 0xD800 ≤ n ∧ n ≤ 0xDBFF then
      (scanLow rest).map fun low =>
        (Char.ofNat (0x10000 + (n - 0xD800) * 1024 + (low.1 - 0xDC00)), low.2)
    else if 0xDC00 ≤ n ∧ n ≤ 0xDFFF then none
    else some (Char.ofNat n, rest)

/-- One character of a text in quotes, which does not begin with a quote. -/
def scanChar : List Char → Option (Char × List Char)
  | [] => none
  | c :: rest =>
    if c = '\\' then
      match rest with
      | [] => none
      | e :: rest' =>
        if e = 'u' then scanUnicode rest' else (simpleEscape e).map fun c' => (c', rest')
    else if c.toNat < 32 then none
    else some (c, rest)

/-- A text up to its closing quote; the number bounds how many characters it has. -/
def scanString : ℕ → List Char → Option (List Char × List Char)
  | 0, _ => none
  | n + 1, cs =>
    if cs.head? = some '"' then some ([], cs.tail)
    else
      match scanChar cs with
      | none => none
      | some (c, rest) => (scanString n rest).map fun out => (c :: out.1, out.2)

/-- A decimal digit. -/
def isDigit (c : Char) : Bool :=
  '0' ≤ c && c ≤ '9'

/-- Digits behind this text, at least one, if there are; the text otherwise. -/
def scanDigits (front cs : List Char) : List Char × List Char :=
  if (cs.takeWhile isDigit).isEmpty then ([], front ++ cs)
  else (front ++ cs.takeWhile isDigit, cs.dropWhile isDigit)

/-- The fraction of a number. -/
def scanFraction : List Char → List Char × List Char
  | '.' :: cs => scanDigits ['.'] cs
  | cs => ([], cs)

/-- The exponent of a number. -/
def scanExponent : List Char → List Char × List Char
  | e :: cs =>
    if e = 'e' ∨ e = 'E' then
      match cs with
      | '+' :: cs' => scanDigits [e, '+'] cs'
      | '-' :: cs' => scanDigits [e, '-'] cs'
      | cs => scanDigits [e] cs
    else ([], e :: cs)
  | [] => ([], [])

/-- A number behind its sign. -/
def scanUnsigned : List Char → Option (List Char × List Char)
  | [] => none
  | c :: cs =>
    if isDigit c then
      let int := if c = '0' then (['0'], cs) else (c :: cs.takeWhile isDigit, cs.dropWhile isDigit)
      let frac := scanFraction int.2
      let exp := scanExponent frac.2
      some (int.1 ++ frac.1 ++ exp.1, exp.2)
    else none

/-- A number, or one of the words for numbers. -/
def scanNumber (cs : List Char) : Option (List Char × List Char) :=
  match cs with
  | '-' :: cs' =>
    match scanUnsigned cs' with
    | some (text, rest) => some ('-' :: text, rest)
    | none =>
      if "Infinity".toList.isPrefixOf cs' then some ("-Infinity".toList, cs'.drop 8) else none
  | cs =>
    match scanUnsigned cs with
    | some out => some out
    | none =>
      if "NaN".toList.isPrefixOf cs then some ("NaN".toList, cs.drop 3)
      else if "Infinity".toList.isPrefixOf cs then some ("Infinity".toList, cs.drop 8)
      else none

/-- A value that is a word or a number. -/
def scanWord (cs : List Char) : Option (Json × List Char) :=
  if ['n', 'u', 'l', 'l'].isPrefixOf cs then some (.null, cs.drop 4)
  else if ['t', 'r', 'u', 'e'].isPrefixOf cs then some (.bool true, cs.drop 4)
  else if ['f', 'a', 'l', 's', 'e'].isPrefixOf cs then some (.bool false, cs.drop 5)
  else (scanNumber cs).map fun out => (.num (.ofList out.1), out.2)

mutual

/-- A value; the number bounds how long its text is. -/
def scanValue : ℕ → List Char → Option (Json × List Char)
  | 0, _ => none
  | _ + 1, [] => none
  | n + 1, c :: cs =>
    if c = '"' then (scanString (n + 1) cs).map fun out => (.str (.ofList out.1), out.2)
    else if c = '[' then
      if (skipSpace cs).head? = some ']' then some (.arr [], (skipSpace cs).tail)
      else (scanItems n (skipSpace cs)).map fun out => (.arr out.1, out.2)
    else if c = '{' then
      if (skipSpace cs).head? = some '}' then some (.obj [], (skipSpace cs).tail)
      else (scanFields n (skipSpace cs)).map fun out => (.obj out.1, out.2)
    else scanWord (c :: cs)

/-- The items of an array up to its end. -/
def scanItems : ℕ → List Char → Option (List Json × List Char)
  | 0, _ => none
  | n + 1, cs =>
    match scanValue n cs with
    | none => none
    | some (v, rest) =>
      match skipSpace rest with
      | [] => none
      | c :: rest' =>
        if c = ']' then some ([v], rest')
        else if c = ',' then
          (scanItems n (skipSpace rest')).map fun out => (v :: out.1, out.2)
        else none

/-- The fields of an object up to its end. -/
def scanFields : ℕ → List Char → Option (List (String × Json) × List Char)
  | 0, _ => none
  | _ + 1, [] => none
  | n + 1, q :: cs =>
    if q = '"' then
      match scanString (n + 1) cs with
      | none => none
      | some (key, rest) =>
        match skipSpace rest with
        | [] => none
        | c :: rest' =>
          if c = ':' then
            match scanValue n (skipSpace rest') with
            | none => none
            | some (v, rest'') =>
              match skipSpace rest'' with
              | [] => none
              | c' :: rest''' =>
                if c' = '}' then some ([(.ofList key, v)], rest''')
                else if c' = ',' then
                  (scanFields n (skipSpace rest''')).map fun out =>
                    ((.ofList key, v) :: out.1, out.2)
                else none
          else none
    else none

end

/-- `json.loads(s)`, `none` where it raises `JSONDecodeError`. -/
def loads (s : String) : Option Json :=
  if s.toList.head? = some '\ufeff' then none
  else
    match scanValue (s.toList.length + 1) (skipSpace s.toList) with
    | some (v, rest) => if (skipSpace rest).isEmpty then some v else none
    | none => none

/-! ## Reading what was written -/

/-- A hexadecimal digit has its value. -/
lemma hexValue_digitChar : ∀ k < 16, hexValue (Nat.digitChar k) = some k := by
  decide

/-- Four digits are read as their number. -/
lemma scanHex4_hex4 {n : ℕ} (h : n < 65536) (rest : List Char) :
    scanHex4 (hex4 n ++ rest) = some (n, rest) := by
  have hdigit (k : ℕ) : hexValue (Nat.digitChar (k % 16)) = some (k % 16) :=
    hexValue_digitChar _ (Nat.mod_lt k (by decide))
  have hsum : 4096 * (n / 4096 % 16) + 256 * (n / 256 % 16) + 16 * (n / 16 % 16) + n % 16 = n := by
    omega
  simp [hex4, scanHex4, hdigit, hsum]

/-- The code of a character is no surrogate. -/
lemma toNat_not_surrogate (c : Char) : c.toNat < 0xD800 ∨ 0xDFFF < c.toNat := by
  rcases c.valid with h | ⟨h, -⟩
  · exact .inl h
  · exact .inr h

/-- The code of a character is one of Unicode. -/
lemma toNat_lt_unicode (c : Char) : c.toNat < 0x110000 := by
  rcases c.valid with h | ⟨-, h⟩
  · exact lt_trans h (by decide)
  · exact h

/-- The escape by code of a character of the basic plane. -/
lemma scanUnicode_hex4 {c : Char} (h : c.toNat < 0x10000) (rest : List Char) :
    scanUnicode (hex4 c.toNat ++ rest) = some (c, rest) := by
  have hsurrogate := toNat_not_surrogate c
  rw [scanUnicode, scanHex4_hex4 (by omega)]
  simp only [Char.ofNat_toNat]
  rw [if_neg (by omega), if_neg (by omega)]

/-- The escape of a character beyond the basic plane. -/
lemma scanUnicode_pair {c : Char} (h : 0x10000 ≤ c.toNat) (rest : List Char) :
    scanUnicode (hex4 (0xD800 + (c.toNat - 0x10000) / 1024) ++
      (unicodeEscape (0xDC00 + (c.toNat - 0x10000) % 1024) ++ rest)) = some (c, rest) := by
  have hmax := toNat_lt_unicode c
  have hlow : scanLow (unicodeEscape (0xDC00 + (c.toNat - 0x10000) % 1024) ++ rest) =
      some (0xDC00 + (c.toNat - 0x10000) % 1024, rest) := by
    rw [unicodeEscape, List.cons_append, List.cons_append, scanLow,
      if_pos ⟨rfl, rfl⟩, scanHex4_hex4 (by omega)]
    simp only
    rw [if_pos (by omega)]
  have hcode : 0x10000 + (0xD800 + (c.toNat - 0x10000) / 1024 - 0xD800) * 1024 +
      (0xDC00 + (c.toNat - 0x10000) % 1024 - 0xDC00) = c.toNat := by
    omega
  rw [scanUnicode, scanHex4_hex4 (by omega)]
  simp only
  rw [if_pos (by omega), hlow, Option.map_some, hcode, Char.ofNat_toNat]

/-- A character that is written with its code. -/
lemma scanChar_unicode (rest : List Char) : scanChar ('\\' :: 'u' :: rest) = scanUnicode rest := rfl

/-- A character that stands for itself. -/
lemma scanChar_of_plain {c : Char} (hc : c ≠ '\\') (h : 32 ≤ c.toNat) (rest : List Char) :
    scanChar (c :: rest) = some (c, rest) := by
  have hle : ¬ c.toNat < 32 := not_lt.mpr h
  unfold scanChar
  simp only [hc, hle, if_false]

/-- The ways in which a character is written. -/
inductive Escaped (c : Char) : List Char → Prop
  | simple (e : Char) (hu : e ≠ 'u') (h : simpleEscape e = some c) : Escaped c ['\\', e]
  | plain (hquote : c ≠ '"') (hc : c ≠ '\\') (h : 32 ≤ c.toNat) : Escaped c [c]
  | code (h : c.toNat < 0x10000) : Escaped c (unicodeEscape c.toNat)
  | pair (h : 0x10000 ≤ c.toNat) : Escaped c
      (unicodeEscape (0xD800 + (c.toNat - 0x10000) / 1024) ++
        unicodeEscape (0xDC00 + (c.toNat - 0x10000) % 1024))

/-- A character is written in one of these ways. -/
lemma escaped_escapeChar (c : Char) : Escaped c (escapeChar c) := by
  have hshort {d e : Char} (hu : e ≠ 'u') (he : simpleEscape e = some d) (cs : List Char)
      (hcs : c ≠ d → Escaped c cs) : Escaped c (if c = d then ['\\', e] else cs) := by
    by_cases h : c = d
    · subst h
      rw [if_pos rfl]
      exact .simple e hu he
    · rw [if_neg h]
      exact hcs h
  unfold escapeChar
  apply hshort (by decide) rfl
  intro hquote
  apply hshort (by decide) rfl
  intro hc
  apply hshort (by decide) rfl
  intro _
  apply hshort (by decide) rfl
  intro _
  apply hshort (by decide) rfl
  intro _
  apply hshort (by decide) rfl
  intro _
  apply hshort (by decide) rfl
  intro _
  by_cases hplain : 32 ≤ c.toNat ∧ c.toNat ≤ 126
  · rw [if_pos hplain]
    exact .plain hquote hc hplain.1
  · rw [if_neg hplain]
    by_cases hcode : c.toNat < 0x10000
    · rw [if_pos hcode]
      exact .code hcode
    · rw [if_neg hcode]
      exact .pair (not_lt.mp hcode)

/-- What a character is written as is read as the character. -/
theorem scanChar_escapeChar (c : Char) (rest : List Char) :
    scanChar (escapeChar c ++ rest) = some (c, rest) := by
  have hescaped := escaped_escapeChar c
  generalize escapeChar c = cs at hescaped
  cases hescaped with
  | simple e hu h => simp [scanChar, hu, h]
  | plain _ hc h => exact scanChar_of_plain hc h rest
  | code h =>
    rw [unicodeEscape, List.cons_append, List.cons_append, scanChar_unicode, scanUnicode_hex4 h]
  | pair h =>
    rw [List.append_assoc, unicodeEscape, List.cons_append, List.cons_append, scanChar_unicode,
      scanUnicode_pair h]

/-- No character is written with a quote in front. -/
lemma head?_escapeChar (c : Char) (rest : List Char) :
    (escapeChar c ++ rest).head? ≠ some '"' := by
  have hescaped := escaped_escapeChar c
  generalize escapeChar c = cs at hescaped
  cases hescaped with
  | plain hquote _ _ => simpa using hquote
  | _ => simp [unicodeEscape]

/-- Something is written for every character. -/
lemma escapeChar_ne_nil (c : Char) : escapeChar c ≠ [] := by
  have hescaped := escaped_escapeChar c
  generalize escapeChar c = cs at hescaped
  cases hescaped <;> simp [unicodeEscape]

/-- A text in quotes is read as the text. -/
theorem scanString_flatMap (cs rest : List Char) {n : ℕ} (h : cs.length < n) :
    scanString n (cs.flatMap escapeChar ++ '"' :: rest) = some (cs, rest) := by
  induction cs generalizing n with
  | nil =>
    obtain ⟨n, rfl⟩ := Nat.exists_eq_succ_of_ne_zero (Nat.ne_of_gt h)
    rfl
  | cons c cs ih =>
    obtain ⟨n, rfl⟩ := Nat.exists_eq_succ_of_ne_zero (Nat.ne_of_gt (Nat.zero_lt_of_lt h))
    rw [List.flatMap_cons, List.append_assoc, scanString, if_neg (head?_escapeChar c _),
      scanChar_escapeChar]
    simp only
    rw [ih (by simpa using h), Option.map_some]

/-- A character is written as one character at least. -/
lemma length_le_flatMap_escapeChar (cs : List Char) :
    cs.length ≤ (cs.flatMap escapeChar).length := by
  induction cs with
  | nil => simp
  | cons c cs ih =>
    have hpos := List.length_pos_iff.mpr (escapeChar_ne_nil c)
    rw [List.flatMap_cons, List.length_append, List.length_cons]
    omega

/-- A written text is read up to its closing quote. -/
lemma scanString_quote (s : String) (rest : List Char) {n : ℕ} (h : (quote s).length ≤ n + 1) :
    scanString n ((quote s).tail ++ rest) = some (s.toList, rest) := by
  have hlen := length_le_flatMap_escapeChar s.toList
  simp only [quote, List.length_cons, List.length_append, List.length_nil] at h
  rw [quote, List.tail_cons, List.append_assoc]
  exact scanString_flatMap s.toList rest (by omega)

/-! ### Values -/

mutual

/-- There is no number in the value. -/
def numberless : Json → Bool
  | .num _ => false
  | .arr items => numberlessItems items
  | .obj fields => numberlessFields fields
  | _ => true

/-- There is no number in the items. -/
def numberlessItems : List Json → Bool
  | [] => true
  | v :: vs => v.numberless && numberlessItems vs

/-- There is no number in the fields. -/
def numberlessFields : List (String × Json) → Bool
  | [] => true
  | (_, v) :: fields => v.numberless && numberlessFields fields

end

/-- The first character of a value without numbers. -/
lemma exists_write_eq_cons {v : Json} (hv : v.numberless = true) :
    ∃ c cs, v.write = c :: cs ∧ c ∈ ['n', 't', 'f', '"', '[', '{'] := by
  match v, hv with
  | .null, _ => exact ⟨_, _, rfl, by decide⟩
  | .bool true, _ => exact ⟨_, _, rfl, by decide⟩
  | .bool false, _ => exact ⟨_, _, rfl, by decide⟩
  | .str s, _ => exact ⟨_, _, rfl, by decide⟩
  | .arr [], _ => exact ⟨_, _, rfl, by decide⟩
  | .arr (w :: vs), _ => exact ⟨_, _, rfl, by decide⟩
  | .obj [], _ => exact ⟨_, _, rfl, by decide⟩
  | .obj (field :: fields), _ => exact ⟨_, _, rfl, by decide⟩

/-- There is no white space in front of a value, and no closing bracket. -/
lemma write_append_spec {v : Json} (hv : v.numberless = true) (rest : List Char) :
    skipSpace (v.write ++ rest) = v.write ++ rest ∧ (v.write ++ rest).head? ≠ some ']' := by
  obtain ⟨c, cs, hwrite, hc⟩ := exists_write_eq_cons hv
  rw [hwrite, List.cons_append]
  have hclosed : ∀ c ∈ ['n', 't', 'f', '"', '[', '{'], isSpace c = false ∧ c ≠ ']' := by
    simp [isSpace]
  obtain ⟨hspace, hne⟩ := hclosed c hc
  exact ⟨List.dropWhile_cons_of_neg (by simp [hspace]), by simpa using hne⟩

/-- White space in front of a text is skipped. -/
lemma skipSpace_cons_space (cs : List Char) : skipSpace (' ' :: cs) = skipSpace cs := rfl

/-- A written field is read, if its value is. -/
lemma scanFields_writeField {key : String} {v : Json} {n : ℕ} {rest : List Char}
    (hv : v.numberless = true) (hkey : (quote key).length ≤ n + 2)
    (hvalue : scanValue n (v.write ++ rest) = some (v, rest)) :
    scanFields (n + 1) (writeField (key, v) ++ rest) =
      match skipSpace rest with
      | [] => none
      | c :: rest' =>
        if c = '}' then some ([(key, v)], rest')
        else if c = ',' then
          (scanFields n (skipSpace rest')).map fun out => ((key, v) :: out.1, out.2)
        else none := by
  obtain ⟨hspace, -⟩ := write_append_spec hv rest
  have hquote := scanString_quote key (':' :: ' ' :: (v.write ++ rest)) (n := n + 1) hkey
  have hcons : quote key = '"' :: (quote key).tail := rfl
  have hcolon : skipSpace (':' :: ' ' :: (v.write ++ rest)) = ':' :: ' ' :: (v.write ++ rest) := rfl
  rw [writeField, hcons, List.append_assoc, List.cons_append, List.cons_append, List.cons_append,
    scanFields, if_pos rfl, hquote]
  simp only [hcolon, if_true, skipSpace_cons_space, hspace, hvalue, String.ofList_toList]

mutual

/-- A written value is read as the value, whatever stands behind it. -/
theorem scanValue_write : ∀ (v : Json) (n : ℕ) (rest : List Char), v.numberless = true →
    v.write.length ≤ n → scanValue n (v.write ++ rest) = some (v, rest)
  | v, 0, rest, hv, h => by
    obtain ⟨c, cs, hwrite, -⟩ := exists_write_eq_cons hv
    simp [hwrite] at h
  | .null, n + 1, rest, _, _ => rfl
  | .bool true, n + 1, rest, _, _ => rfl
  | .bool false, n + 1, rest, _, _ => rfl
  | .num text, n + 1, rest, hv, _ => by simp [numberless] at hv
  | .str s, n + 1, rest, _, h => by
    have hquote := scanString_quote s rest (n := n + 1) (h.trans (Nat.le_succ _))
    have hcons : quote s = '"' :: (quote s).tail := rfl
    rw [write, hcons, List.cons_append, scanValue, if_pos rfl, hquote, Option.map_some]
    simp
  | .arr [], n + 1, rest, _, _ => rfl
  | .arr (v :: vs), n + 1, rest, hv, h => by
    rw [numberless, numberlessItems, Bool.and_eq_true] at hv
    rw [write, List.length_cons, List.length_append] at h
    obtain ⟨hspace, hne⟩ := write_append_spec hv.1 (writeItems vs ++ rest)
    have hitems := scanItems_write v vs n rest hv.1 hv.2 (by omega)
    rw [write, List.cons_append, List.append_assoc, scanValue, if_neg (by decide), if_pos rfl,
      hspace, if_neg hne, hitems, Option.map_some]
  | .obj [], n + 1, rest, _, _ => rfl
  | .obj (field :: fields), n + 1, rest, hv, h => by
    obtain ⟨key, v⟩ := field
    rw [numberless, numberlessFields, Bool.and_eq_true] at hv
    rw [write, List.length_cons, List.length_append] at h
    have hfields := scanFields_write key v fields n rest hv.1 hv.2 (by omega)
    have hspace : skipSpace (writeField (key, v) ++ (writeFields fields ++ rest)) =
        writeField (key, v) ++ (writeFields fields ++ rest) := by
      rw [writeField]
      rfl
    have hne : (writeField (key, v) ++ (writeFields fields ++ rest)).head? ≠ some '}' := by
      rw [writeField]
      exact fun heq => by cases heq
    rw [write, List.cons_append, List.append_assoc, scanValue, if_neg (by decide),
      if_neg (by decide), if_pos rfl, hspace, if_neg hne, hfields, Option.map_some]

/-- Written items are read as the items. -/
theorem scanItems_write : ∀ (v : Json) (vs : List Json) (n : ℕ) (rest : List Char),
    v.numberless = true → numberlessItems vs = true →
      v.write.length + (writeItems vs).length ≤ n →
        scanItems n (v.write ++ (writeItems vs ++ rest)) = some (v :: vs, rest)
  | v, vs, 0, rest, hv, _, h => by
    obtain ⟨c, cs, hwrite, -⟩ := exists_write_eq_cons hv
    rw [hwrite, List.length_cons] at h
    omega
  | v, [], n + 1, rest, hv, _, h => by
    rw [writeItems, List.length_singleton] at h
    rw [scanItems, scanValue_write v n _ hv (by omega), writeItems]
    rfl
  | v, w :: vs, n + 1, rest, hv, hvs, h => by
    rw [numberlessItems, Bool.and_eq_true] at hvs
    rw [writeItems, List.length_cons, List.length_cons, List.length_append] at h
    obtain ⟨hspace, -⟩ := write_append_spec hvs.1 (writeItems vs ++ rest)
    have hitems := scanItems_write w vs n rest hvs.1 hvs.2 (by omega)
    have hcomma : skipSpace (',' :: ' ' :: (w.write ++ (writeItems vs ++ rest))) =
        ',' :: ' ' :: (w.write ++ (writeItems vs ++ rest)) := rfl
    rw [scanItems, scanValue_write v n _ hv (by omega), writeItems, List.cons_append,
      List.cons_append, List.append_assoc]
    simp only [hcomma]
    rw [if_neg (by decide), if_pos trivial, skipSpace_cons_space, hspace, hitems, Option.map_some]

/-- Written fields are read as the fields. -/
theorem scanFields_write : ∀ (key : String) (v : Json) (fields : List (String × Json)) (n : ℕ)
    (rest : List Char), v.numberless = true → numberlessFields fields = true →
      (writeField (key, v)).length + (writeFields fields).length ≤ n →
        scanFields n (writeField (key, v) ++ (writeFields fields ++ rest)) =
          some ((key, v) :: fields, rest)
  | key, v, fields, 0, rest, _, _, h => by
    rw [writeField, quote, List.length_append, List.length_cons] at h
    omega
  | key, v, [], n + 1, rest, hv, _, h => by
    rw [writeField, writeFields, List.length_append, List.length_cons, List.length_cons,
      List.length_singleton] at h
    have hvalue := scanValue_write v n (['}'] ++ rest) hv (by omega)
    rw [writeFields, scanFields_writeField hv (by omega) hvalue]
    rfl
  | key, v, (key', w) :: fields, n + 1, rest, hv, hfields, h => by
    rw [numberlessFields, Bool.and_eq_true] at hfields
    rw [writeFields, writeField, List.length_cons, List.length_cons, List.length_append,
      List.length_append, List.length_cons, List.length_cons] at h
    have hvalue := scanValue_write v n (writeFields ((key', w) :: fields) ++ rest) hv (by omega)
    have hrest := scanFields_write key' w fields n rest hfields.1 hfields.2 (by omega)
    have hspace : skipSpace (writeField (key', w) ++ (writeFields fields ++ rest)) =
        writeField (key', w) ++ (writeFields fields ++ rest) := by
      rw [writeField]
      rfl
    have hcomma : skipSpace (writeFields ((key', w) :: fields) ++ rest) =
        ',' :: ' ' :: (writeField (key', w) ++ (writeFields fields ++ rest)) := by
      rw [writeFields, List.cons_append, List.cons_append, List.append_assoc]
      rfl
    rw [scanFields_writeField hv (by omega) hvalue, hcomma]
    simp only
    rw [if_neg (by decide), if_pos trivial, skipSpace_cons_space, hspace, hrest, Option.map_some]

end

/-- **Reading inverts writing** on values without numbers. -/
theorem loads_dumps {v : Json} (hv : v.numberless = true) : loads v.dumps = some v := by
  obtain ⟨c, cs, hwrite, hc⟩ := exists_write_eq_cons hv
  have hread := scanValue_write v (v.write.length + 1) [] hv (Nat.le_succ _)
  obtain ⟨hspace, -⟩ := write_append_spec hv []
  rw [List.append_nil] at hread hspace
  have hmark : v.write.head? ≠ some '\ufeff' := by
    rw [hwrite, List.head?_cons]
    rintro heq
    obtain rfl := Option.some.inj heq
    exact absurd hc (by decide)
  rw [loads, dumps, String.toList_ofList, if_neg hmark, hspace, hread]
  rfl

end Json

end Foundation
