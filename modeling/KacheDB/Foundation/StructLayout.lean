import KacheDB.Foundation.Segments

/-!
# The layout of C structures

A C structure has its members in memory in the order of their declaration, each at the first place
behind the one before that is a multiple of its alignment.  The size of the structure is a multiple
of the largest alignment.

`IsLayout` says what a layout has to be, and `isLayout_layout` that this one is.  When the padding
is taken for further members, the members stand one behind the other, and `map_items_spans` says
that each is found at its place.
-/

namespace Foundation

/-- What the layout needs to know of the type of a member. -/
structure CType where
  size : ℕ
  alignment : ℕ
  alignment_pos : 0 < alignment
  deriving DecidableEq

namespace CType

/-- An integer of so many bytes, with its natural alignment. -/
def integer (size : ℕ) (h : 0 < size := by decide) : CType :=
  ⟨size, size, h⟩

/-- An array. -/
def array (t : CType) (n : ℕ) : CType :=
  ⟨t.size * n, t.alignment, t.alignment_pos⟩

end CType

/-- The places of the members, and the size. -/
structure IsLayout (ts : List CType) (places : List Segment) (size : ℕ) : Prop where
  member : List.Forall₂ (fun t g => t.alignment ∣ g.start ∧ g.stop = g.start + t.size) ts places
  disjoint : places.Pairwise fun g g' => g.stop ≤ g'.start
  within : ∀ g ∈ places, g.stop ≤ size

/-- The first multiple of `alignment` from `n` on. -/
def alignUp (alignment n : ℕ) : ℕ :=
  (n + (alignment - 1)) / alignment * alignment

/-- The places of members behind the position `o`. -/
def layoutFrom : ℕ → List CType → List Segment
  | _, [] => []
  | o, t :: ts =>
    ⟨alignUp t.alignment o, alignUp t.alignment o + t.size⟩ ::
      layoutFrom (alignUp t.alignment o + t.size) ts

/-- Where the members behind the position `o` end. -/
def layoutEnd (o : ℕ) (ts : List CType) : ℕ :=
  ts.foldl (fun o t => alignUp t.alignment o + t.size) o

/-- The places of the members of a structure. -/
def layout (ts : List CType) : List Segment :=
  layoutFrom 0 ts

/-- The size of a structure. -/
def structSize (ts : List CType) : ℕ :=
  alignUp ((ts.map CType.alignment).foldr max 1) (layoutEnd 0 ts)

/-! ## Alignment -/

lemma dvd_alignUp (alignment n : ℕ) : alignment ∣ alignUp alignment n :=
  Dvd.intro_left _ rfl

lemma le_alignUp {alignment : ℕ} (h : 0 < alignment) (n : ℕ) : n ≤ alignUp alignment n := by
  have hdiv := Nat.div_add_mod (n + (alignment - 1)) alignment
  have hmod := Nat.mod_lt (n + (alignment - 1)) h
  rw [alignUp, mul_comm]
  omega

/-! ## The layout -/

/-- The members end behind the place where they begin. -/
lemma le_layoutEnd (o : ℕ) (ts : List CType) : o ≤ layoutEnd o ts := by
  induction ts generalizing o with
  | nil => exact le_rfl
  | cons t ts ih =>
    calc o ≤ alignUp t.alignment o := le_alignUp t.alignment_pos o
      _ ≤ alignUp t.alignment o + t.size := Nat.le_add_right _ _
      _ ≤ layoutEnd o (t :: ts) := ih _

/-- A member lies between the place where the members begin and the one where they end. -/
lemma mem_layoutFrom {o : ℕ} {ts : List CType} {g : Segment} (hg : g ∈ layoutFrom o ts) :
    o ≤ g.start ∧ g.stop ≤ layoutEnd o ts := by
  induction ts generalizing o with
  | nil => cases hg
  | cons t ts ih =>
    have hle := le_alignUp t.alignment_pos o
    rcases List.mem_cons.mp hg with rfl | hrest
    · exact ⟨hle, le_layoutEnd _ ts⟩
    · obtain ⟨hstart, hstop⟩ := ih hrest
      exact ⟨(hle.trans (Nat.le_add_right _ _)).trans hstart, hstop⟩

lemma forall₂_layoutFrom (o : ℕ) (ts : List CType) :
    List.Forall₂ (fun t g => t.alignment ∣ g.start ∧ g.stop = g.start + t.size) ts
      (layoutFrom o ts) := by
  induction ts generalizing o with
  | nil => exact .nil
  | cons t ts ih => exact .cons ⟨dvd_alignUp t.alignment o, rfl⟩ (ih _)

/-- Members do not overlap. -/
lemma pairwise_layoutFrom (o : ℕ) (ts : List CType) :
    (layoutFrom o ts).Pairwise fun g g' => g.stop ≤ g'.start := by
  induction ts generalizing o with
  | nil => exact .nil
  | cons t ts ih => exact .cons (fun _ hg => (mem_layoutFrom hg).1) (ih _)

lemma one_le_foldr_max (ns : List ℕ) : 1 ≤ ns.foldr max 1 := by
  induction ns with
  | nil => exact le_rfl
  | cons n ns ih => exact ih.trans (le_max_right _ _)

/-- **The layout of a structure is one.** -/
theorem isLayout_layout (ts : List CType) : IsLayout ts (layout ts) (structSize ts) where
  member := forall₂_layoutFrom 0 ts
  disjoint := pairwise_layoutFrom 0 ts
  within _ hg := (mem_layoutFrom hg).2.trans (le_alignUp (one_le_foldr_max _) _)

/-! ## Members and padding -/

/-- The places of parts of these lengths that stand one behind the other. -/
def spans : ℕ → List ℕ → List Segment
  | _, [] => []
  | o, n :: ns => ⟨o, o + n⟩ :: spans (o + n) ns

lemma map_items_spans_append {β : Type*} (front : List β) (parts : List (List β)) :
    (spans front.length (parts.map List.length)).map (·.items (front ++ parts.flatten)) =
      parts := by
  induction parts generalizing front with
  | nil => rfl
  | cons part parts ih =>
    rw [List.map_cons, spans, List.map_cons, List.flatten_cons, ← List.append_assoc,
      ← List.length_append, ih]
    congr 1
    rw [Segment.items, List.take_left, List.drop_left]

/-- Each part is found at its place. -/
lemma map_items_spans {β : Type*} (parts : List (List β)) :
    (spans 0 (parts.map List.length)).map (·.items parts.flatten) = parts :=
  map_items_spans_append [] parts

end Foundation
