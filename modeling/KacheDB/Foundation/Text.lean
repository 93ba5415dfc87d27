import Mathlib.Tactic
import Mathlib.Data.List.DropRight

/-!
# Texts

`str.strip`: a text without the white space at its two ends.  White space is what Python takes
for it, the characters of the Unicode classes `Zs`, `WS`, `B` and `S`.
-/

namespace Foundation

/-- `c.isspace()`. -/
def isWhitespace (c : Char) : Bool :=
  let n := c.toNat
  (9 ≤ n && n ≤ 13) || (28 ≤ n && n ≤ 32) || n == 0x85 || n == 0xA0 || n == 0x1680 ||
    (0x2000 ≤ n && n ≤ 0x200A) || n == 0x2028 || n == 0x2029 || n == 0x202F || n == 0x205F ||
    n == 0x3000

/-- The characters that are left between the white space at both ends. -/
def stripChars (cs : List Char) : List Char :=
  (cs.dropWhile isWhitespace).rdropWhile isWhitespace

/-- `s.strip()`. -/
def strip (s : String) : String :=
  .ofList (stripChars s.toList)

/-- Characters that begin and end with something else than white space stay. -/
lemma stripChars_eq_self {cs : List Char} (hfirst : ∀ c ∈ cs.head?, isWhitespace c = false)
    (hlast : ∀ c ∈ cs.getLast?, isWhitespace c = false) : stripChars cs = cs := by
  have hdrop : cs.dropWhile isWhitespace = cs := by
    cases cs with
    | nil => rfl
    | cons c cs => rw [List.dropWhile_cons_of_neg (by simp [hfirst c rfl])]
  rw [stripChars, hdrop, List.rdropWhile_eq_self_iff]
  intro hne
  rw [hlast _ (List.getLast?_eq_some_getLast hne)]
  decide

/-- The first character that is left is no white space. -/
lemma head?_stripChars {cs : List Char} {c : Char} (h : (stripChars cs).head? = some c) :
    isWhitespace c = false := by
  have hpre : stripChars cs <+: cs.dropWhile isWhitespace := List.rdropWhile_prefix _ _
  obtain ⟨rest, hrest⟩ := hpre
  have hhead : (cs.dropWhile isWhitespace).head? = some c := by
    rw [← hrest, List.head?_append, h]
    rfl
  have hnot := List.head?_dropWhile_not isWhitespace cs
  rw [hhead] at hnot
  simpa using hnot

/-- The last character that is left is no white space. -/
lemma getLast?_stripChars {cs : List Char} {c : Char} (h : (stripChars cs).getLast? = some c) :
    isWhitespace c = false := by
  obtain ⟨hne, rfl⟩ := List.mem_getLast?_eq_getLast h
  have hnot := List.rdropWhile_last_not isWhitespace (cs.dropWhile isWhitespace) hne
  exact eq_false_of_ne_true hnot

/-- Only characters of the text are left. -/
lemma mem_of_mem_stripChars {cs : List Char} {c : Char} (h : c ∈ stripChars cs) : c ∈ cs :=
  List.dropWhile_subset _ ((List.rdropWhile_prefix _ _).subset h)

lemma stripChars_stripChars (cs : List Char) : stripChars (stripChars cs) = stripChars cs :=
  stripChars_eq_self (fun _ => head?_stripChars) (fun _ => getLast?_stripChars)

end Foundation
