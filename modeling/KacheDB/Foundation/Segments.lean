import Mathlib.Tactic
import Mathlib.Data.List.Basic

/-!
# Segments with a carry-over

A loop collects the items that it reads and emits what it has collected now and then.  Some of the
last items are kept in the collector, so that the segments that are emitted may overlap.  If only
*blank* items have been collected, they are dropped.

`Segmented` is what such a loop keeps: the segments are in order, and every item that is not blank
is in one of them or still in the collector.
-/

namespace Foundation

/-- The positions from `start` on, in front of `stop`. -/
structure Segment where
  start : ℕ
  stop : ℕ
  deriving DecidableEq

/-- A position of a segment. -/
def Segment.Has (g : Segment) (i : ℕ) : Prop :=
  g.start ≤ i ∧ i < g.stop

/-- The items of a segment. -/
def Segment.items {α : Type*} (g : Segment) (xs : List α) : List α :=
  (xs.take g.stop).drop g.start

/-- An item of a segment stands at one of its positions. -/
lemma Segment.exists_has_of_mem {α : Type*} {g : Segment} {xs : List α} {x : α}
    (hx : x ∈ g.items xs) : ∃ i, g.Has i ∧ xs[i]? = some x := by
  obtain ⟨k, hk⟩ := List.getElem?_of_mem hx
  rw [Segment.items, List.getElem?_drop] at hk
  have hlt : g.start + k < g.stop :=
    (List.getElem?_eq_some_iff.mp hk).1.trans_le (List.length_take_le _ _)
  rw [List.getElem?_take_of_lt hlt] at hk
  exact ⟨g.start + k, ⟨Nat.le_add_right _ _, hlt⟩, hk⟩

/-- The item at a position of a segment. -/
lemma Segment.mem_items_of_has {α : Type*} {g : Segment} {xs : List α} {i : ℕ} {x : α}
    (hi : g.Has i) (hx : xs[i]? = some x) : x ∈ g.items xs := by
  apply List.mem_of_getElem? (i := i - g.start)
  rw [Segment.items, List.getElem?_drop, Nat.add_sub_cancel' hi.1,
    List.getElem?_take_of_lt hi.2, hx]

/-- The items of a segment with the last one apart. -/
lemma Segment.items_succ {α : Type*} {xs : List α} {x : α} {start n : ℕ} (hn : start ≤ n)
    (hx : xs[n]? = some x) :
    Segment.items ⟨start, n + 1⟩ xs = Segment.items ⟨start, n⟩ xs ++ [x] := by
  have hlt := (List.getElem?_eq_some_iff.mp hx).1
  rw [Segment.items, Segment.items, List.take_add_one, hx, Option.toList_some,
    List.drop_append_of_le_length (by rw [List.length_take_of_le hlt.le]; exact hn)]

/-- A later beginning leaves the end of a segment. -/
lemma Segment.items_suffix {α : Type*} {g : Segment} {xs kept : List α} {start : ℕ}
    (hkept : kept <:+ g.items xs) (hstart : g.stop - kept.length ≤ start) :
    Segment.items ⟨start, g.stop⟩ xs <:+ kept := by
  apply List.suffix_of_suffix_length_le (List.drop_suffix _ _) (hkept.trans (List.drop_suffix _ _))
  rw [List.length_drop]
  have hlength := List.length_take_le g.stop xs
  dsimp only
  omega

/-- What has been collected, the number of items that have been read, and the segments that have
been emitted. -/
structure Collector (α : Type*) where
  items : List α
  pos : ℕ
  emitted : List Segment

namespace Collector

variable {α : Type*}

/-- The positions of the collected items. -/
def segment (s : Collector α) : Segment :=
  ⟨s.pos - s.items.length, s.pos⟩

/-- One more item is read. -/
def push (s : Collector α) (x : α) : Collector α :=
  { s with items := s.items ++ [x], pos := s.pos + 1 }

/-- The collected items are emitted and `kept` of them stay; if they are blank, they are dropped. -/
def flush (blank : α → Bool) (kept : List α) (s : Collector α) : Collector α :=
  if s.items.all blank then { s with items := [] }
  else { s with items := kept, emitted := s.emitted ++ [s.segment] }

/-- What a loop keeps that collects these items. -/
structure Segmented (blank : α → Bool) (xs : List α) (s : Collector α) : Prop where
  pos_le : s.pos ≤ xs.length
  items_suffix : s.items <:+ xs.take s.pos
  sorted : s.emitted.Pairwise fun g g' => g.start ≤ g'.start ∧ g.stop ≤ g'.stop
  bounded : ∀ g ∈ s.emitted, g.start < g.stop ∧ g.start ≤ s.segment.start ∧ g.stop ≤ s.pos
  covered : ∀ (i : ℕ) (x : α), xs[i]? = some x → blank x = false → i < s.segment.start →
    ∃ g ∈ s.emitted, g.Has i

variable {blank : α → Bool} {xs : List α} {s : Collector α}

/-- At the beginning nothing is collected. -/
lemma segmented_nil (blank : α → Bool) (xs : List α) : Segmented blank xs ⟨[], 0, []⟩ where
  pos_le := Nat.zero_le _
  items_suffix := List.nil_suffix
  sorted := .nil
  bounded _ hg := absurd hg List.not_mem_nil
  covered _ _ _ _ hi := absurd hi (Nat.not_lt_zero _)

namespace Segmented

/-- There are not more collected items than items. -/
lemma length_le (h : Segmented blank xs s) : s.items.length ≤ s.pos :=
  h.items_suffix.length_le.trans (List.length_take_le _ _)

/-- The collected items are those of the segment. -/
lemma items_eq (h : Segmented blank xs s) : s.segment.items xs = s.items := by
  obtain ⟨front, hfront⟩ := h.items_suffix
  have hlen := congrArg List.length hfront
  rw [List.length_append, List.length_take_of_le h.pos_le] at hlen
  rw [Segment.items, segment, ← hfront]
  exact List.drop_left' (Nat.eq_sub_of_add_eq hlen)

/-- An item that has been read since the collected ones begin is one of them. -/
lemma mem_items (h : Segmented blank xs s) {i : ℕ} {x : α} (hx : xs[i]? = some x)
    (hi : s.segment.start ≤ i) (hlt : i < s.pos) : x ∈ s.items := by
  rw [← h.items_eq]
  exact Segment.mem_items_of_has ⟨hi, hlt⟩ hx

/-- The step lemma of `push`. -/
lemma push (h : Segmented blank xs s) {x : α} (hx : xs[s.pos]? = some x) :
    Segmented blank xs (s.push x) := by
  have hlt := (List.getElem?_eq_some_iff.mp hx).1
  have hle := h.length_le
  have hstart : (s.push x).segment.start = s.segment.start := by
    simp only [segment, Collector.push, List.length_append, List.length_singleton]
    omega
  refine ⟨hlt, ?_, h.sorted, ?_, ?_⟩
  · obtain ⟨front, hfront⟩ := h.items_suffix
    refine ⟨front, ?_⟩
    rw [Collector.push, List.take_add_one, hx, ← List.append_assoc, hfront]
    rfl
  · intro g hg
    obtain ⟨hne, hfirst, hstop⟩ := h.bounded g hg
    exact ⟨hne, hfirst.trans_eq hstart.symm, hstop.trans (Nat.le_succ _)⟩
  · intro i y hy hblank hi
    rw [hstart] at hi
    exact h.covered i y hy hblank hi

/-- The step lemma of `flush`. -/
lemma flush (h : Segmented blank xs s) {kept : List α} (hkept : kept <:+ s.items) :
    Segmented blank xs (s.flush blank kept) := by
  have hle := h.length_le
  unfold Collector.flush
  split_ifs with hblank
  · refine ⟨h.pos_le, List.nil_suffix, h.sorted, ?_, ?_⟩
    · intro g hg
      obtain ⟨hne, -, hstop⟩ := h.bounded g hg
      exact ⟨hne, hne.le.trans hstop, hstop⟩
    · intro i x hx hnot hi
      rcases Nat.lt_or_ge i s.segment.start with hlt | hge
      · exact h.covered i x hx hnot hlt
      · -- the dropped items are blank
        have hall := List.all_eq_true.mp hblank x (h.mem_items hx hge hi)
        rw [hnot] at hall
        cases hall
  · have hkeptlen := hkept.length_le
    have hne : s.items ≠ [] := by
      rintro hnil
      exact hblank (by rw [hnil]; rfl)
    have hpos := List.length_pos_of_ne_nil hne
    have hstart : s.segment.start ≤ s.pos - kept.length := by
      simp only [segment]
      omega
    have hsegment : s.segment.start < s.pos := by
      simp only [segment]
      omega
    refine ⟨h.pos_le, hkept.trans h.items_suffix, ?_, ?_, ?_⟩
    · rw [List.pairwise_append]
      refine ⟨h.sorted, List.pairwise_singleton _ _, fun g hg g' hg' => ?_⟩
      obtain rfl := List.mem_singleton.mp hg'
      exact (h.bounded g hg).2
    · intro g hg
      rcases List.mem_append.mp hg with hg | hg
      · obtain ⟨hne, hfirst, hstop⟩ := h.bounded g hg
        exact ⟨hne, hfirst.trans hstart, hstop⟩
      · obtain rfl := List.mem_singleton.mp hg
        exact ⟨hsegment, hstart, le_rfl⟩
    · intro i x hx hnot hi
      rcases Nat.lt_or_ge i s.segment.start with hlt | hge
      · obtain ⟨g, hg, hhas⟩ := h.covered i x hx hnot hlt
        exact ⟨g, List.mem_append_left _ hg, hhas⟩
      · exact ⟨s.segment, by simp, hge, hi.trans_le (Nat.sub_le _ _)⟩

/-- When everything has been read and is flushed, all items that are not blank are in segments. -/
lemma exists_has (h : Segmented blank xs s) (hpos : s.pos = xs.length) (kept : List α)
    {i : ℕ} {x : α} (hx : xs[i]? = some x) (hnot : blank x = false) :
    ∃ g ∈ (s.flush blank kept).emitted, g.Has i := by
  have hlt := (List.getElem?_eq_some_iff.mp hx).1
  rw [← hpos] at hlt
  unfold Collector.flush
  split_ifs with hblank
  · -- the collected items are blank
    apply h.covered i x hx hnot
    by_contra hge
    have hall := List.all_eq_true.mp hblank x (h.mem_items hx (not_lt.mp hge) hlt)
    rw [hnot] at hall
    cases hall
  · rcases Nat.lt_or_ge i s.segment.start with hstart | hge
    · obtain ⟨g, hg, hhas⟩ := h.covered i x hx hnot hstart
      exact ⟨g, List.mem_append_left _ hg, hhas⟩
    · exact ⟨s.segment, by simp, hge, hlt⟩

end Segmented

end Collector

end Foundation
