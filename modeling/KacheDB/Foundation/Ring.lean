import KacheDB.Foundation.Windows

/-!
# Ring buffers

A ring buffer writes blocks of any size one behind the other and starts over at position 0 when
the next block does not fit behind the last one.  It keeps no record of what it has written: a
block is lost when a later one is written over it.

Where the blocks go depends on their sizes only: `spans capacity sizes` lists the places of
blocks of these sizes, oldest first.  `Intact capacity skip sizes i` says that no later block is
written over block `i` behind its first `skip` elements (a header that nobody reads), and
`window_pushAll` that this part of an intact block is still there.
-/

namespace Foundation

/-- A place in a buffer: `size` elements from position `start` on. -/
structure Span where
  start : ℕ
  size : ℕ
  deriving DecidableEq

/-- The place behind the first `skip` elements. -/
def Span.behind (s : Span) (skip : ℕ) : Span :=
  ⟨s.start + skip, s.size - skip⟩

/-- Two places have no position in common. -/
def Span.Apart (s t : Span) : Prop :=
  s.start + s.size ≤ t.start ∨ t.start + t.size ≤ s.start

instance (s t : Span) : Decidable (s.Apart t) :=
  inferInstanceAs (Decidable (_ ∨ _))

namespace RingBuffer

/-- Where the next block goes. -/
def place (capacity head size : ℕ) : ℕ :=
  if head + size > capacity then 0 else head

/-- The places of the next blocks of these sizes. -/
def spansFrom (capacity : ℕ) : ℕ → List ℕ → List Span
  | _, [] => []
  | head, size :: sizes =>
    ⟨place capacity head size, size⟩ :: spansFrom capacity (place capacity head size + size) sizes

/-- Where the head is after blocks of these sizes. -/
def headFrom (capacity : ℕ) (head : ℕ) (sizes : List ℕ) : ℕ :=
  sizes.foldl (fun head size => place capacity head size + size) head

/-- The places of all blocks of a ring. -/
def spans (capacity : ℕ) (sizes : List ℕ) : List Span :=
  spansFrom capacity 0 sizes

/-- No later block is written over block `i` behind its first `skip` elements. -/
def Intact (capacity skip : ℕ) (sizes : List ℕ) (i : ℕ) : Prop :=
  ∀ s ∈ (spans capacity sizes)[i]?, ∀ t ∈ (spans capacity sizes).drop (i + 1),
    (s.behind skip).Apart t

instance (capacity skip : ℕ) (sizes : List ℕ) (i : ℕ) : Decidable (Intact capacity skip sizes i) :=
  inferInstanceAs (Decidable (∀ s ∈ (spans capacity sizes)[i]?, _))

variable {capacity head skip : ℕ} {sizes : List ℕ}

/-- A block that is not larger than the buffer lies within it. -/
lemma place_add_le {size : ℕ} (h : size ≤ capacity) :
    place capacity head size + size ≤ capacity := by
  unfold place
  split_ifs <;> omega

@[simp] lemma length_spansFrom (capacity head : ℕ) (sizes : List ℕ) :
    (spansFrom capacity head sizes).length = sizes.length := by
  induction sizes generalizing head with
  | nil => rfl
  | cons size sizes ih => rw [spansFrom, List.length_cons, ih, List.length_cons]

@[simp] lemma length_spans (capacity : ℕ) (sizes : List ℕ) :
    (spans capacity sizes).length = sizes.length :=
  length_spansFrom capacity 0 sizes

/-- Blocks that are not larger than the buffer lie within it, and their places have their sizes. -/
lemma spansFrom_le (h : ∀ size ∈ sizes, size ≤ capacity) {i size : ℕ}
    (hi : sizes[i]? = some size) {s : Span} (hs : (spansFrom capacity head sizes)[i]? = some s) :
    s.size = size ∧ s.start + size ≤ capacity := by
  induction sizes generalizing head i with
  | nil => simp at hi
  | cons first sizes ih =>
    obtain ⟨hfirst, hrest⟩ := List.forall_mem_cons.mp h
    cases i with
    | zero =>
      obtain rfl := Option.some.inj hi
      obtain rfl := Option.some.inj hs
      exact ⟨rfl, place_add_le hfirst⟩
    | succ i => exact ih hrest hi hs

/-- The places of a first and of a second series of blocks. -/
lemma spansFrom_append (sizes' : List ℕ) :
    spansFrom capacity head (sizes ++ sizes') =
      spansFrom capacity head sizes ++
        spansFrom capacity (headFrom capacity head sizes) sizes' := by
  induction sizes generalizing head with
  | nil => rfl
  | cons size sizes ih =>
    rw [List.cons_append, spansFrom, spansFrom, ih, List.cons_append]
    rfl

/-- One more block. -/
lemma spans_concat (size : ℕ) :
    spans capacity (sizes ++ [size]) = spans capacity sizes ++
      [⟨place capacity (headFrom capacity 0 sizes) size, size⟩] :=
  spansFrom_append [size]

/-- Earlier blocks stay where they are. -/
lemma getElem?_spans_append {i : ℕ} (hi : i < sizes.length) (sizes' : List ℕ) :
    (spans capacity (sizes ++ sizes'))[i]? = (spans capacity sizes)[i]? := by
  rw [spans, spansFrom_append]
  exact List.getElem?_append_left (by rwa [length_spansFrom])

/-- A block that is intact was intact before the last block, which is apart from it. -/
lemma intact_concat_iff {i : ℕ} (hi : i < sizes.length) (size : ℕ) :
    Intact capacity skip (sizes ++ [size]) i ↔ Intact capacity skip sizes i ∧
      ∀ s ∈ (spans capacity sizes)[i]?,
        (s.behind skip).Apart ⟨place capacity (headFrom capacity 0 sizes) size, size⟩ := by
  unfold Intact
  rw [getElem?_spans_append hi, spans_concat,
    List.drop_append_of_le_length (by rw [length_spans]; omega)]
  constructor
  · intro h
    refine ⟨fun s hs t ht => h s hs t (List.mem_append_left _ ht), fun s hs => ?_⟩
    exact h s hs _ (List.mem_append_right _ (List.mem_singleton_self _))
  · rintro ⟨hold, hlast⟩ s hs t ht
    rcases List.mem_append.mp ht with ht | ht
    · exact hold s hs t ht
    · rw [List.mem_singleton.mp ht]
      exact hlast s hs

/-- The last block is intact. -/
lemma intact_last (capacity skip : ℕ) (sizes : List ℕ) (size : ℕ) :
    Intact capacity skip (sizes ++ [size]) sizes.length := by
  intro s _ t ht
  rw [List.drop_eq_nil_of_le (by simp)] at ht
  cases ht

end RingBuffer

/-- A ring buffer: its capacity, its content and the position behind the last block. -/
structure RingBuffer (β : Type*) where
  capacity : ℕ
  mem : List β
  head : ℕ

namespace RingBuffer

variable {β : Type*}

/-- A new ring buffer, filled with `b`. -/
def empty (capacity : ℕ) (b : β) : RingBuffer β :=
  ⟨capacity, List.replicate capacity b, 0⟩

/-- Write one block. -/
def push (r : RingBuffer β) (block : List β) : RingBuffer β :=
  { r with
    mem := splice r.mem (place r.capacity r.head block.length) block
    head := place r.capacity r.head block.length + block.length }

/-- Write blocks, oldest first. -/
def pushAll (r : RingBuffer β) (blocks : List (List β)) : RingBuffer β :=
  blocks.foldl push r

lemma pushAll_concat (r : RingBuffer β) (blocks : List (List β)) (block : List β) :
    r.pushAll (blocks ++ [block]) = (r.pushAll blocks).push block := by
  simp [pushAll]

variable {capacity : ℕ} {b : β} {blocks : List (List β)}

/-- The capacity and the head after some blocks. -/
lemma pushAll_empty (capacity : ℕ) (b : β) (blocks : List (List β)) :
    ((empty capacity b).pushAll blocks).capacity = capacity ∧
      ((empty capacity b).pushAll blocks).head =
        headFrom capacity 0 (blocks.map List.length) := by
  induction blocks using List.reverseRecOn with
  | nil => exact ⟨rfl, rfl⟩
  | append_singleton blocks block ih =>
    rw [pushAll_concat, List.map_append, headFrom, List.foldl_append]
    refine ⟨ih.1, ?_⟩
    simp only [push, ih]
    rfl

/-- The content keeps its length. -/
lemma length_pushAll (h : ∀ block ∈ blocks, block.length ≤ capacity) :
    ((empty capacity b).pushAll blocks).mem.length = capacity := by
  induction blocks using List.reverseRecOn with
  | nil => exact List.length_replicate
  | append_singleton blocks block ih =>
    have hmem := ih fun x hx => h x (List.mem_append_left _ hx)
    rw [pushAll_concat, push, length_splice, hmem]
    rw [hmem, (pushAll_empty capacity b blocks).1]
    exact place_add_le (h block (List.mem_append_right _ (List.mem_singleton_self _)))

/-- **An intact block is still there.** -/
theorem window_pushAll (h : ∀ block ∈ blocks, block.length ≤ capacity) {i skip : ℕ}
    {block : List β} (hi : blocks[i]? = some block) (hskip : skip ≤ block.length)
    (hintact : Intact capacity skip (blocks.map List.length) i) {s : Span}
    (hs : (spans capacity (blocks.map List.length))[i]? = some s) :
    window ((empty capacity b).pushAll blocks).mem (s.start + skip) (s.size - skip) =
        block.drop skip ∧ s.size = block.length := by
  induction blocks using List.reverseRecOn with
  | nil => simp at hi
  | append_singleton blocks last ih =>
    have hold : ∀ x ∈ blocks, x.length ≤ capacity := fun x hx => h x (List.mem_append_left _ hx)
    have hmem := length_pushAll (b := b) hold
    have hfit : place capacity (headFrom capacity 0 (blocks.map List.length)) last.length +
        last.length ≤ ((empty capacity b).pushAll blocks).mem.length := by
      rw [hmem]
      exact place_add_le (h last (List.mem_append_right _ (List.mem_singleton_self _)))
    obtain ⟨hcap, hhead⟩ := pushAll_empty capacity b blocks
    rw [List.map_append, List.map_singleton] at hintact hs
    rw [pushAll_concat, push, hcap, hhead]
    by_cases hlt : i < blocks.length
    · have hlt' : i < (blocks.map List.length).length := by rwa [List.length_map]
      rw [List.getElem?_append_left hlt] at hi
      rw [intact_concat_iff hlt'] at hintact
      rw [getElem?_spans_append hlt'] at hs
      have hapart := hintact.2 s hs
      have hwindow : window (splice ((empty capacity b).pushAll blocks).mem
          (place capacity (headFrom capacity 0 (blocks.map List.length)) last.length) last)
          (s.start + skip) (s.size - skip) =
          window ((empty capacity b).pushAll blocks).mem (s.start + skip) (s.size - skip) :=
        window_splice_of_apart hfit hapart
      rw [hwindow]
      exact ih hold hi hintact.1 hs
    · -- the last block has just been written
      have hieq : i = blocks.length := by
        have hbound := (List.getElem?_eq_some_iff.mp hi).1
        rw [List.length_append, List.length_singleton] at hbound
        omega
      subst hieq
      rw [List.getElem?_concat_length] at hi
      obtain rfl := Option.some.inj hi
      have hlen : (spans capacity (blocks.map List.length)).length = blocks.length := by simp
      rw [spans_concat, ← hlen, List.getElem?_concat_length] at hs
      obtain rfl := Option.some.inj hs
      refine ⟨?_, rfl⟩
      rw [window_splice_within hfit (by simp only; omega), window,
        List.take_of_length_le (by rw [List.length_drop])]

end RingBuffer

end Foundation
