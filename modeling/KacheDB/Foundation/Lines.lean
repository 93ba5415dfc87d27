import KacheDB.Foundation.Text

/-!
# Lines

`str.splitlines` and `"\n".join` on the characters of a text: a text in lines, and lines in a text.
A line ends at any of the characters that Python takes for the end of one, and `\r\n` ends one line.

`splitLines_intercalate` says that lines that are joined are found again, and
`stripChars_intercalate` what is left of joined lines without the white space at both ends: the
blank lines at the ends are gone, and the first and the last of the others are stripped on one side.
-/

namespace Foundation

/-- `c` ends a line. -/
def isLineBreak (c : Char) : Bool :=
  let n := c.toNat
  (10 ≤ n && n ≤ 13) || (28 ≤ n && n ≤ 30) || n == 0x85 || n == 0x2028 || n == 0x2029

/-- A character in front of the first line. -/
def consLine (c : Char) : List (List Char) → List (List Char)
  | [] => [[c]]
  | l :: ls => (c :: l) :: ls

/-- `text.splitlines()` -/
def splitLines : List Char → List (List Char)
  | [] => []
  | '\r' :: '\n' :: cs => [] :: splitLines cs
  | c :: cs => if isLineBreak c then [] :: splitLines cs else consLine c (splitLines cs)

/-- `"\n".join(lines)` -/
def joinLines (lines : List (List Char)) : List Char :=
  ['\n'].intercalate lines

/-! ## Splitting -/

section Splitting

variable {l cs : List Char} {ls : List (List Char)}

/-- A character that ends no line goes to the first line. -/
lemma splitLines_cons {c : Char} (hc : isLineBreak c = false) (cs : List Char) :
    splitLines (c :: cs) = consLine c (splitLines cs) := by
  rw [splitLines]
  · rw [if_neg (by simp [hc])]
  · rintro cs' rfl _
    cases hc

/-- A line feed ends a line. -/
lemma splitLines_newline (cs : List Char) :
    splitLines ('\n' :: cs) = [] :: splitLines cs := by
  rw [splitLines]
  · rfl
  · intro cs' h _
    cases h

/-- A line that a line feed ends. -/
lemma splitLines_append (hl : ∀ c ∈ l, isLineBreak c = false) (cs : List Char) :
    splitLines (l ++ '\n' :: cs) = l :: splitLines cs := by
  induction l with
  | nil => exact splitLines_newline cs
  | cons c l ih =>
    obtain ⟨hc, hrest⟩ := List.forall_mem_cons.mp hl
    rw [List.cons_append, splitLines_cons hc, ih hrest]
    rfl

/-- The last line, which nothing ends. -/
lemma splitLines_of_forall (hl : ∀ c ∈ l, isLineBreak c = false) (hne : l ≠ []) :
    splitLines l = [l] := by
  induction l with
  | nil => exact absurd rfl hne
  | cons c l ih =>
    obtain ⟨hc, hrest⟩ := List.forall_mem_cons.mp hl
    rw [splitLines_cons hc]
    rcases eq_or_ne l [] with rfl | hne'
    · rfl
    · rw [ih hrest hne']
      rfl

/-- **Lines that are joined are found again**, if the last of them is not empty. -/
theorem splitLines_intercalate (hls : ∀ l ∈ ls, ∀ c ∈ l, isLineBreak c = false)
    (hlast : ∀ l ∈ ls.getLast?, l ≠ []) : splitLines (['\n'].intercalate ls) = ls := by
  induction ls with
  | nil => rfl
  | cons l ls ih =>
    obtain ⟨hl, hrest⟩ := List.forall_mem_cons.mp hls
    rcases ls with _ | ⟨l', ls⟩
    · rw [List.intercalate_singleton]
      exact splitLines_of_forall hl (hlast l rfl)
    · rw [List.intercalate_cons_cons, List.append_assoc, List.singleton_append,
        splitLines_append hl, ih hrest]
      intro l'' hl''
      exact hlast l'' (by rw [List.getLast?_cons_cons]; exact hl'')

/-- The lines of a text have no line breaks. -/
lemma isLineBreak_of_mem_splitLines {c : Char} (hl : l ∈ splitLines cs) (hc : c ∈ l) :
    isLineBreak c = false := by
  induction cs using splitLines.induct generalizing l with
  | case1 => cases hl
  | case2 cs ih =>
    rcases List.mem_cons.mp hl with rfl | hrest
    · cases hc
    · exact ih hrest hc
  | case3 first cs hno hbreak ih =>
    rw [splitLines.eq_3 _ _ hno, if_pos hbreak] at hl
    rcases List.mem_cons.mp hl with rfl | hrest
    · cases hc
    · exact ih hrest hc
  | case4 first cs hno hbreak ih =>
    rw [splitLines_cons (by simpa using hbreak)] at hl
    rcases hsplit : splitLines cs with _ | ⟨l', ls⟩
    · rw [hsplit, consLine, List.mem_singleton] at hl
      subst hl
      obtain rfl := List.mem_singleton.mp hc
      simpa using hbreak
    · rw [hsplit] at hl ih
      rcases List.mem_cons.mp hl with rfl | hrest
      · rcases List.mem_cons.mp hc with rfl | hc
        · simpa using hbreak
        · exact ih List.mem_cons_self hc
      · exact ih (List.mem_cons_of_mem _ hrest) hc

/-- A text whose only line breaks are line feeds, and which does not end with one, is its joined
lines. -/
lemma intercalate_splitLines (hcs : ∀ c ∈ cs, isLineBreak c = true → c = '\n')
    (hlast : cs.getLast? ≠ some '\n') : ['\n'].intercalate (splitLines cs) = cs := by
  induction cs with
  | nil => rfl
  | cons c cs ih =>
    obtain ⟨hc, hrest⟩ := List.forall_mem_cons.mp hcs
    rcases eq_or_ne cs [] with rfl | hne
    · have hbreak : isLineBreak c = false := by
        by_contra h
        exact hlast (by rw [hc (by simpa using h)]; rfl)
      rw [splitLines_cons hbreak]
      rfl
    · obtain ⟨c', cs', rfl⟩ := List.exists_cons_of_ne_nil hne
      have hjoined := ih hrest (by rwa [List.getLast?_cons_cons] at hlast)
      -- the rest has a line
      have hlines : splitLines (c' :: cs') ≠ [] := by
        intro hnil
        rw [hnil] at hjoined
        cases hjoined
      by_cases hbreak : isLineBreak c = true
      · rw [hc hbreak, splitLines_newline, List.intercalate_cons_of_ne_nil hlines, hjoined]
        rfl
      · rw [splitLines_cons (by simpa using hbreak)]
        rcases hsplit : splitLines (c' :: cs') with _ | ⟨l, ls⟩
        · exact absurd hsplit hlines
        · rw [hsplit] at hjoined
          rw [consLine, List.intercalate_cons_cons_left, hjoined]

end Splitting

/-- Joined lines have a line feed between any two. -/
lemma length_joinLines (ls : List (List Char)) :
    (joinLines ls).length = (ls.map List.length).sum + (ls.length - 1) := by
  induction ls with
  | nil => rfl
  | cons l ls ih =>
    rcases ls with _ | ⟨l', ls⟩
    · rw [joinLines, List.intercalate_singleton]
      rfl
    · rw [joinLines, List.intercalate_cons_cons, ← joinLines, List.length_append,
        List.length_append, ih]
      simp only [List.map_cons, List.sum_cons, List.length_cons, List.length_nil]
      omega

/-! ## White space at the ends -/

/-- The lines behind the blank ones in front, the first without the white space in front of it. -/
def trimLinesLeft : List (List Char) → List (List Char)
  | [] => []
  | l :: ls =>
    if l.all isWhitespace then trimLinesLeft ls else l.dropWhile isWhitespace :: ls

/-- The lines in front of the blank ones at the end, the last without the white space behind it. -/
def trimLinesRight : List (List Char) → List (List Char)
  | [] => []
  | l :: ls =>
    if ls.all fun l => l.all isWhitespace then
      if l.all isWhitespace then [] else [l.rdropWhile isWhitespace]
    else l :: trimLinesRight ls

section Trimming

variable {cs : List Char} {ls : List (List Char)}

lemma dropWhile_append_of_all {p : Char → Bool} (h : cs.all p = true) (cs' : List Char) :
    (cs ++ cs').dropWhile p = cs'.dropWhile p :=
  List.dropWhile_append_of_pos (by simpa using h)

lemma dropWhile_append_of_not_all {p : Char → Bool} (h : ¬ cs.all p = true) (cs' : List Char) :
    (cs ++ cs').dropWhile p = cs.dropWhile p ++ cs' := by
  rw [List.dropWhile_append, if_neg]
  simpa using h

lemma rdropWhile_append_of_all {p : Char → Bool} {cs' : List Char} (h : cs'.all p = true)
    (cs : List Char) : (cs ++ cs').rdropWhile p = cs.rdropWhile p := by
  rw [List.rdropWhile, List.reverse_append, dropWhile_append_of_all (by simpa using h)]
  rfl

lemma rdropWhile_append_of_not_all {p : Char → Bool} {cs' : List Char} (h : ¬ cs'.all p = true)
    (cs : List Char) : (cs ++ cs').rdropWhile p = cs ++ cs'.rdropWhile p := by
  rw [List.rdropWhile, List.reverse_append, dropWhile_append_of_not_all (by simpa using h),
    List.reverse_append, List.reverse_reverse]
  rfl

/-- Joined lines are white space if all of them are. -/
lemma all_intercalate (ls : List (List Char)) :
    (['\n'].intercalate ls).all isWhitespace = ls.all fun l => l.all isWhitespace := by
  induction ls with
  | nil => rfl
  | cons l ls ih =>
    rcases ls with _ | ⟨l', ls⟩
    · simp
    · have hnewline : isWhitespace '\n' = true := rfl
      rw [List.intercalate_cons_cons, List.all_append, List.all_append, ih]
      simp [hnewline]

lemma dropWhile_intercalate (ls : List (List Char)) :
    (['\n'].intercalate ls).dropWhile isWhitespace = ['\n'].intercalate (trimLinesLeft ls) := by
  induction ls with
  | nil => rfl
  | cons l ls ih =>
    rw [trimLinesLeft]
    rcases ls with _ | ⟨l', ls⟩
    · split_ifs with hl
      · rw [List.intercalate_singleton, List.dropWhile_eq_nil_iff.mpr (by simpa using hl)]
        rfl
      · rw [List.intercalate_singleton, List.intercalate_singleton]
    · rw [List.intercalate_cons_cons]
      split_ifs with hl
      · have hline : (l ++ ['\n']).all isWhitespace = true := by
          rw [List.all_append, hl]
          rfl
        rw [dropWhile_append_of_all hline, ih]
      · rw [List.append_assoc, dropWhile_append_of_not_all hl, ← List.append_assoc,
          ← List.intercalate_cons_cons]

/-- Nothing is left of blank lines only. -/
lemma trimLinesRight_eq_nil_iff :
    trimLinesRight ls = [] ↔ (ls.all fun l => l.all isWhitespace) = true := by
  rcases ls with _ | ⟨l, ls⟩
  · exact iff_of_true rfl rfl
  · rw [trimLinesRight, List.all_cons, Bool.and_eq_true]
    split_ifs with hrest hl
    · exact iff_of_true rfl ⟨hl, hrest⟩
    · exact iff_of_false (by simp) fun h => hl h.1
    · exact iff_of_false (by simp) fun h => hrest h.2

lemma rdropWhile_intercalate (ls : List (List Char)) :
    (['\n'].intercalate ls).rdropWhile isWhitespace = ['\n'].intercalate (trimLinesRight ls) := by
  induction ls with
  | nil => rfl
  | cons l ls ih =>
    rw [trimLinesRight]
    rcases ls with _ | ⟨l', ls⟩
    · rw [List.all_nil, if_pos rfl, List.intercalate_singleton]
      split_ifs with hl
      · rw [List.rdropWhile_eq_nil_iff.mpr (by simpa using hl)]
        rfl
      · rw [List.intercalate_singleton]
    · rw [List.intercalate_cons_cons]
      by_cases hrest : ((l' :: ls).all fun l => l.all isWhitespace) = true
      · rw [rdropWhile_append_of_all (by rw [all_intercalate, hrest]),
          rdropWhile_append_of_all (by rfl), if_pos hrest]
        split_ifs with hl
        · exact List.rdropWhile_eq_nil_iff.mpr (by simpa using hl)
        · rw [List.intercalate_singleton]
      · rw [rdropWhile_append_of_not_all (by rw [all_intercalate]; exact hrest), if_neg hrest, ih,
          List.intercalate_cons_of_ne_nil (mt trimLinesRight_eq_nil_iff.mp hrest)]

/-- **What is left of joined lines** without the white space at both ends. -/
theorem stripChars_intercalate (ls : List (List Char)) :
    stripChars (['\n'].intercalate ls) =
      ['\n'].intercalate (trimLinesRight (trimLinesLeft ls)) := by
  rw [stripChars, dropWhile_intercalate, rdropWhile_intercalate]

/-- Nothing is left of white space only. -/
lemma stripChars_eq_nil_iff : stripChars cs = [] ↔ cs.all isWhitespace = true := by
  rw [stripChars, List.rdropWhile_eq_nil_iff, List.all_eq_true]
  constructor
  · intro h c hc
    by_contra hne
    have hmem := List.mem_append.mp ((List.takeWhile_append_dropWhile (p := isWhitespace)
      (l := cs)).symm ▸ hc)
    rcases hmem with hleft | hright
    · exact hne (List.mem_takeWhile_imp hleft)
    · exact hne (h c hright)
  · intro h c hc
    exact h c (List.dropWhile_subset isWhitespace hc)

/-- The last line that is left is not blank. -/
lemma not_all_of_getLast?_trimLinesRight {l : List Char}
    (hl : (trimLinesRight ls).getLast? = some l) : ¬ l.all isWhitespace = true := by
  induction ls with
  | nil => cases hl
  | cons first ls ih =>
    rw [trimLinesRight] at hl
    split_ifs at hl with hrest hfirst
    · cases hl
    · obtain rfl := Option.some.inj hl
      intro hall
      apply hfirst
      have hnil := List.rdropWhile_eq_nil_iff.mpr (by simpa using hall)
      rw [List.rdropWhile_idempotent] at hnil
      simpa using List.rdropWhile_eq_nil_iff.mp hnil
    · obtain ⟨l', ls', htrim⟩ :=
        List.exists_cons_of_ne_nil (mt trimLinesRight_eq_nil_iff.mp hrest)
      rw [htrim, List.getLast?_cons_cons, ← htrim] at hl
      exact ih hl

/-- What is left of a line was in a line before. -/
lemma exists_mem_of_mem_trimLines {l : List Char} {c : Char}
    (hl : l ∈ trimLinesRight (trimLinesLeft ls)) (hc : c ∈ l) : ∃ l' ∈ ls, c ∈ l' := by
  have hright {ls : List (List Char)} (hl : l ∈ trimLinesRight ls) : ∃ l' ∈ ls, c ∈ l' := by
    induction ls with
    | nil => cases hl
    | cons first ls ih =>
      rw [trimLinesRight] at hl
      split_ifs at hl with hrest hfirst
      · cases hl
      · obtain rfl := List.mem_singleton.mp hl
        exact ⟨first, List.mem_cons_self, (List.rdropWhile_prefix _ _).subset hc⟩
      · rcases List.mem_cons.mp hl with rfl | hl
        · exact ⟨l, List.mem_cons_self, hc⟩
        · obtain ⟨l', hl', hc'⟩ := ih hl
          exact ⟨l', List.mem_cons_of_mem _ hl', hc'⟩
  obtain ⟨l', hl', hc'⟩ := hright hl
  clear hl hright
  induction ls with
  | nil => cases hl'
  | cons first ls ih =>
    rw [trimLinesLeft] at hl'
    split_ifs at hl' with hfirst
    · obtain ⟨l'', hl'', hc''⟩ := ih hl'
      exact ⟨l'', List.mem_cons_of_mem _ hl'', hc''⟩
    · rcases List.mem_cons.mp hl' with rfl | hl'
      · exact ⟨first, List.mem_cons_self, List.dropWhile_subset _ hc'⟩
      · exact ⟨l', List.mem_cons_of_mem _ hl', hc'⟩

/-- **The lines of joined lines** without the white space at both ends. -/
theorem splitLines_stripChars_intercalate
    (hls : ∀ l ∈ ls, ∀ c ∈ l, isLineBreak c = false) :
    splitLines (stripChars (['\n'].intercalate ls)) = trimLinesRight (trimLinesLeft ls) := by
  rw [stripChars_intercalate]
  apply splitLines_intercalate
  · intro l hl c hc
    obtain ⟨l', hl', hc'⟩ := exists_mem_of_mem_trimLines hl hc
    exact hls l' hl' c hc'
  · rintro l hl rfl
    exact not_all_of_getLast?_trimLinesRight hl rfl

/-! ### Counting lines -/

/-- The first line that is not blank counts only without the white space in front of it. -/
def indentedHead (p : List Char → Bool) (ls : List (List Char)) : Bool :=
  (ls.find? fun l => !l.all isWhitespace).any fun l => !p l && p (l.dropWhile isWhitespace)

section Counting

variable {p : List Char → Bool} (hblank : ∀ l, l.all isWhitespace = true → p l = false)

include hblank

lemma countP_eq_zero_of_all (h : (ls.all fun l => l.all isWhitespace) = true) :
    ls.countP p = 0 := by
  rw [List.countP_eq_zero]
  intro l hl
  rw [hblank l (List.all_eq_true.mp h l hl)]
  decide

/-- Trimming at the end changes no count, if white space at the end of a line does not count. -/
lemma countP_trimLinesRight (hp : ∀ l, p (l.rdropWhile isWhitespace) = p l)
    (ls : List (List Char)) : (trimLinesRight ls).countP p = ls.countP p := by
  induction ls with
  | nil => rfl
  | cons l ls ih =>
    rw [trimLinesRight]
    split_ifs with hrest hl
    · rw [List.countP_cons, countP_eq_zero_of_all hblank hrest, hblank l hl]
      rfl
    · rw [List.countP_cons, List.countP_cons, countP_eq_zero_of_all hblank hrest, hp]
      rfl
    · rw [List.countP_cons, List.countP_cons, ih]

/-- Trimming in front may make the first line that is not blank count. -/
lemma countP_trimLinesLeft (hp : ∀ l, p l = true → p (l.dropWhile isWhitespace) = true)
    (ls : List (List Char)) : (trimLinesLeft ls).countP p =
      ls.countP p + if indentedHead p ls then 1 else 0 := by
  induction ls with
  | nil => rfl
  | cons l ls ih =>
    by_cases hl : l.all isWhitespace = true
    · have hhead : indentedHead p (l :: ls) = indentedHead p ls := by
        rw [indentedHead, List.find?_cons_of_neg (by simpa using hl)]
        rfl
      rw [trimLinesLeft, if_pos hl, ih, hhead, List.countP_cons, hblank l hl]
      rfl
    · have hhead : indentedHead p (l :: ls) = (!p l && p (l.dropWhile isWhitespace)) := by
        rw [indentedHead, List.find?_cons_of_pos (by simpa using hl)]
        rfl
      rw [trimLinesLeft, if_neg hl, hhead, List.countP_cons, List.countP_cons]
      cases hfirst : p l with
      | true => simp [hp l hfirst]
      | false => cases p (l.dropWhile isWhitespace) <;> simp

end Counting

end Trimming

end Foundation
