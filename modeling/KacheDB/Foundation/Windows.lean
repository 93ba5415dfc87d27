import Mathlib.Tactic
import Mathlib.Data.List.Basic

/-!
# Windows of a sequence

A *window* of a list is the part of a given length from a given position on, and to *splice* is
to write over a window.  The lemmas say what a window sees of a splice: the new content, a part
of it, or, from a window that is apart, nothing.

The second half treats a sequence as a table whose rows have one length: `table n f` is the
concatenation of the rows `f 0, …, f (n - 1)`, and a window of it that lies within one row is a
window of this row.
-/

namespace Foundation

variable {β : Type*}

/-- The `n` elements of `xs` from position `o` on. -/
def window (xs : List β) (o n : ℕ) : List β :=
  (xs.drop o).take n

/-- `xs` with `ys` written over it from position `o` on. -/
def splice (xs : List β) (o : ℕ) (ys : List β) : List β :=
  xs.take o ++ ys ++ xs.drop (o + ys.length)

lemma getElem?_window (xs : List β) (o n i : ℕ) :
    (window xs o n)[i]? = if i < n then xs[o + i]? else none := by
  rw [window, List.getElem?_take]
  split_ifs
  · rw [List.getElem?_drop]
  · rfl

/-- A window that lies within the list has its full length. -/
lemma length_window {xs : List β} {o n : ℕ} (h : o + n ≤ xs.length) :
    (window xs o n).length = n := by
  rw [window, List.length_take, List.length_drop]
  omega

/-- A window of the whole list. -/
@[simp] lemma window_zero_length (xs : List β) : window xs 0 xs.length = xs := by
  simp [window]

/-- A window of a window. -/
lemma window_window (xs : List β) {o n p m : ℕ} (h : p + m ≤ n) :
    window (window xs o n) p m = window xs (o + p) m := by
  apply List.ext_getElem?
  intro i
  simp only [getElem?_window]
  by_cases hi : i < m
  · rw [if_pos hi, if_pos hi, if_pos (by omega), add_assoc]
  · rw [if_neg hi, if_neg hi]

/-- A window behind a first part. -/
lemma take_append_window (xs : List α) (o n : ℕ) :
    xs.take o ++ window xs o n = xs.take (o + n) := by
  rw [window, List.take_add]

/-- A window within a first part. -/
lemma window_take {xs : List α} {k o n : ℕ} (h : o + n ≤ k) :
    window (xs.take k) o n = window xs o n := by
  rw [window, window, List.drop_take, List.take_take, min_eq_left (by omega)]

/-- A window and what is behind it. -/
lemma window_append_drop (xs : List β) (o n : ℕ) :
    window xs o n ++ xs.drop (o + n) = xs.drop o := by
  rw [window, ← List.drop_drop, List.take_append_drop]

/-- A window of a constant list. -/
lemma window_replicate {k o n : ℕ} (h : o + n ≤ k) (x : β) :
    window (List.replicate k x) o n = List.replicate n x := by
  rw [window, List.drop_replicate, List.take_replicate]
  congr 1
  omega

/-- A window of the second of two parts. -/
lemma window_append_right (xs ys : List β) (p n : ℕ) :
    window (xs ++ ys) (xs.length + p) n = window ys p n := by
  rw [window, ← List.drop_drop, List.drop_left, window]

/-- A window of the first of two parts. -/
lemma window_append_left {xs : List β} (ys : List β) {p n : ℕ} (h : p + n ≤ xs.length) :
    window (xs ++ ys) p n = window xs p n := by
  apply List.ext_getElem?
  intro i
  simp only [getElem?_window]
  by_cases hi : i < n
  · rw [if_pos hi, if_pos hi, List.getElem?_append_left (by omega)]
  · rw [if_neg hi, if_neg hi]

/-- The window of one of several parts. -/
lemma window_flatten (parts : List (List β)) {i : ℕ} {part : List β} (h : parts[i]? = some part) :
    window parts.flatten ((parts.take i).map List.length).sum part.length = part := by
  induction parts generalizing i with
  | nil => simp at h
  | cons first parts ih =>
    cases i with
    | zero =>
      obtain rfl := Option.some.inj h
      rw [List.take_zero, List.map_nil, List.sum_nil, List.flatten_cons,
        window_append_left _ (by omega), window_zero_length]
    | succ i =>
      rw [List.take_succ_cons, List.map_cons, List.sum_cons, List.flatten_cons,
        window_append_right, ih h]

section Splice

variable {xs ys : List β} {o : ℕ}

/-- A splice within the list keeps the length. -/
lemma length_splice (h : o + ys.length ≤ xs.length) : (splice xs o ys).length = xs.length := by
  simp only [splice, List.length_append, List.length_take, List.length_drop]
  omega

lemma getElem?_splice (h : o + ys.length ≤ xs.length) (i : ℕ) :
    (splice xs o ys)[i]? = if o ≤ i ∧ i < o + ys.length then ys[i - o]? else xs[i]? := by
  have htake : (xs.take o).length = o := by
    rw [List.length_take]
    omega
  rw [splice]
  by_cases hlow : i < o
  · rw [if_neg (by omega), List.append_assoc, List.getElem?_append_left (by omega),
      List.getElem?_take_of_lt hlow]
  · by_cases hhigh : i < o + ys.length
    · rw [if_pos ⟨by omega, hhigh⟩, List.append_assoc, List.getElem?_append_right (by omega),
        htake, List.getElem?_append_left (by omega)]
    · rw [if_neg (by omega), List.getElem?_append_right (by rw [List.length_append]; omega),
        List.length_append, htake, List.getElem?_drop]
      congr 1
      omega

/-- What a window within the splice sees. -/
lemma window_splice_within (h : o + ys.length ≤ xs.length) {p n : ℕ} (hp : p + n ≤ ys.length) :
    window (splice xs o ys) (o + p) n = window ys p n := by
  apply List.ext_getElem?
  intro i
  simp only [getElem?_window, getElem?_splice h]
  by_cases hi : i < n
  · rw [if_pos hi, if_pos hi, if_pos ⟨by omega, by omega⟩]
    congr 1
    omega
  · rw [if_neg hi, if_neg hi]

/-- The window that was written over sees the new content. -/
lemma window_splice_self (h : o + ys.length ≤ xs.length) :
    window (splice xs o ys) o ys.length = ys := by
  have hwithin := window_splice_within h (p := 0) (n := ys.length) (by omega)
  rwa [add_zero, window_zero_length] at hwithin

/-- A window that is apart does not see the splice. -/
lemma window_splice_of_apart (h : o + ys.length ≤ xs.length) {p n : ℕ}
    (hp : p + n ≤ o ∨ o + ys.length ≤ p) : window (splice xs o ys) p n = window xs p n := by
  apply List.ext_getElem?
  intro i
  simp only [getElem?_window, getElem?_splice h]
  by_cases hi : i < n
  · rw [if_pos hi, if_pos hi, if_neg (by omega)]
  · rw [if_neg hi, if_neg hi]

/-- Two splices one behind the other are one splice. -/
lemma splice_splice (h : o + ys.length ≤ xs.length) (zs : List β) :
    splice (splice xs o ys) (o + ys.length) zs = splice xs o (ys ++ zs) := by
  have hlen : (xs.take o ++ ys).length = o + ys.length := by
    rw [List.length_append, List.length_take]
    omega
  have htake : (splice xs o ys).take (o + ys.length) = xs.take o ++ ys := by
    rw [splice, ← hlen, List.take_left]
  have hdrop : (splice xs o ys).drop (o + ys.length + zs.length) =
      xs.drop (o + (ys ++ zs).length) := by
    rw [splice, ← hlen, List.drop_append, hlen, List.drop_drop, List.length_append]
    rw [List.drop_eq_nil_of_le (by omega), List.nil_append]
    congr 1
    omega
  rw [splice, htake, hdrop, splice]
  simp only [List.append_assoc]

/-- What is written can be written with another part in place of `b`, and `b` after it. -/
lemma splice_middle {a b b' c : List β} (h : o ≤ xs.length) (hlen : b.length = b'.length) :
    splice xs o (a ++ (b ++ c)) = splice (splice xs o (a ++ (b' ++ c))) (o + a.length) b := by
  have hfront : (xs.take o ++ a).length = o + a.length := by
    rw [List.length_append, List.length_take, min_eq_left h]
  have hsplit : splice xs o (a ++ (b' ++ c)) =
      (xs.take o ++ a) ++ (b' ++ (c ++ xs.drop (o + (a ++ (b ++ c)).length))) := by
    rw [splice]
    simp only [List.append_assoc, List.length_append, hlen]
  have hmiddle (p q : List β) : splice (p ++ (b' ++ q)) p.length b = p ++ (b ++ q) := by
    rw [splice, List.take_left, hlen, ← List.drop_drop, List.drop_left, List.drop_left,
      List.append_assoc]
  rw [hsplit, ← hfront, hmiddle, splice]
  simp only [List.append_assoc]

/-- A window of a part of what is written. -/
lemma window_splice_middle {a b c : List β} (h : o + (a ++ (b ++ c)).length ≤ xs.length) :
    window (splice xs o (a ++ (b ++ c))) (o + a.length) b.length = b := by
  rw [window_splice_within h (by simp only [List.length_append]; omega)]
  have hpart := window_append_right a (b ++ c) 0 b.length
  rw [add_zero] at hpart
  rw [hpart, window_append_left _ (by omega), window_zero_length]

end Splice

/-! ## Parts one behind the other -/

/-- Where parts begin that stand one behind the other, the first one at position `o`. -/
def starts : ℕ → List (List β) → List ℕ
  | _, [] => []
  | o, part :: parts => o :: starts (o + part.length) parts

@[simp] lemma length_starts (o : ℕ) (parts : List (List β)) :
    (starts o parts).length = parts.length := by
  induction parts generalizing o with
  | nil => rfl
  | cons part parts ih => rw [starts, List.length_cons, List.length_cons, ih]

/-- A part begins where the parts in front of it end. -/
lemma getElem?_starts (o : ℕ) (before : List (List β)) (part : List β) (after : List (List β)) :
    (starts o (before ++ part :: after))[before.length]? =
      some (o + before.flatten.length) := by
  induction before generalizing o with
  | nil => rfl
  | cons first before ih =>
    rw [List.cons_append, starts, List.length_cons, List.getElem?_cons_succ, ih,
      List.flatten_cons, List.length_append, add_assoc]

/-! ## Tables -/

/-- The rows `f 0, …, f (n - 1)` one behind the other. -/
def table (n : ℕ) (f : ℕ → List β) : List β :=
  (List.range n).flatMap f

section Table

variable {n w : ℕ} {f : ℕ → List β}

@[simp]
lemma table_zero (f : ℕ → List β) : table 0 f = [] := rfl

lemma table_succ (n : ℕ) (f : ℕ → List β) : table (n + 1) f = table n f ++ f n := by
  simp [table, List.range_succ]

/-- The length of a table with rows of one length. -/
lemma length_table (hf : ∀ i < n, (f i).length = w) : (table n f).length = n * w := by
  induction n with
  | zero => simp
  | succ n ih =>
    rw [table_succ, List.length_append, ih fun i hi => hf i (by omega), hf n (by omega)]
    ring

/-- A window within row `i` of a table. -/
lemma window_table (hf : ∀ i < n, (f i).length = w) {i p m : ℕ} (hi : i < n) (hp : p + m ≤ w) :
    window (table n f) (i * w + p) m = window (f i) p m := by
  induction n with
  | zero => omega
  | succ n ih =>
    have hlen : (table n f).length = n * w := length_table fun j hj => hf j (by omega)
    rw [table_succ]
    by_cases hlast : i = n
    · subst hlast
      rw [← hlen]
      exact window_append_right _ _ p m
    · have hlt : i < n := by omega
      have hle : (i + 1) * w ≤ n * w := Nat.mul_le_mul_right w hlt
      rw [window_append_left _ (by rw [hlen]; linarith [add_mul i 1 w])]
      exact ih (fun j hj => hf j (by omega)) hlt

end Table

end Foundation
