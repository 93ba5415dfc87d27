import Mathlib.Tactic
import Mathlib.Data.Set.Function

/-!
# Hash chains

A hash chain names a list by one hash: the hash of each element is taken together with the hash
of what is in front of it, and the empty list has the hash `root`.

`tip_inj` says when different lists have different names: if the hash function is injective on
the buffers that were hashed and gives `root` on none of them.  Nothing is asked of it on other
buffers, so that it may have a finite range.
-/

namespace Foundation

namespace HashChain

variable {κ α β : Type*} (hash : β → κ) (buffer : κ → α → β)

/-- The hash at the end of a chain that begins at `start`. -/
def tip (start : κ) (xs : List α) : κ :=
  xs.foldl (fun h x => hash (buffer h x)) start

/-- The hashes behind the elements of a chain. -/
def hashes : κ → List α → List κ
  | _, [] => []
  | h, x :: xs => hash (buffer h x) :: hashes (hash (buffer h x)) xs

/-- The buffers that are hashed along a chain. -/
def buffers : κ → List α → List β
  | _, [] => []
  | h, x :: xs => buffer h x :: buffers (hash (buffer h x)) xs

@[simp] lemma length_hashes (h : κ) (xs : List α) :
    (hashes hash buffer h xs).length = xs.length := by
  induction xs generalizing h with
  | nil => rfl
  | cons x xs ih => rw [hashes, List.length_cons, ih, List.length_cons]

/-- The last element. -/
lemma tip_concat (h : κ) (xs : List α) (x : α) :
    tip hash buffer h (xs ++ [x]) = hash (buffer (tip hash buffer h xs) x) := by
  simp [tip]

/-- The hash behind an element is the name of the list up to it. -/
lemma getElem?_hashes (h : κ) {xs : List α} {i : ℕ} (hi : i < xs.length) :
    (hashes hash buffer h xs)[i]? = some (tip hash buffer h (xs.take (i + 1))) := by
  induction xs generalizing h i with
  | nil => simp at hi
  | cons x xs ih =>
    cases i with
    | zero => rfl
    | succ i =>
      rw [hashes, List.getElem?_cons_succ, ih _ (by simpa using hi), List.take_succ_cons]
      rfl

/-- The hashes of a first and of a second part. -/
lemma hashes_append (h : κ) (xs ys : List α) :
    hashes hash buffer h (xs ++ ys) =
      hashes hash buffer h xs ++ hashes hash buffer (tip hash buffer h xs) ys := by
  induction xs generalizing h with
  | nil => rfl
  | cons x xs ih =>
    rw [List.cons_append, hashes, hashes, ih, List.cons_append]
    rfl

/-- The hashes of a first part and of one more element. -/
lemma hashes_concat (h : κ) (xs : List α) (x : α) :
    hashes hash buffer h (xs ++ [x]) =
      hashes hash buffer h xs ++ [hash (buffer (tip hash buffer h xs) x)] :=
  hashes_append hash buffer h xs [x]

/-- Each hash is the name of a first part. -/
lemma exists_of_mem_hashes {start k : κ} {xs : List α} (hk : k ∈ hashes hash buffer start xs) :
    ∃ ys x, ys ++ [x] <+: xs ∧ k = tip hash buffer start (ys ++ [x]) := by
  induction xs using List.reverseRecOn with
  | nil => cases hk
  | append_singleton xs x ih =>
    rw [hashes_concat] at hk
    rcases List.mem_append.mp hk with hk | hk
    · obtain ⟨ys, y, hpre, hy⟩ := ih hk
      exact ⟨ys, y, hpre.trans (List.prefix_append _ _), hy⟩
    · exact ⟨xs, x, List.prefix_refl _, by rw [List.mem_singleton.mp hk, tip_concat]⟩

/-- The buffers of a first and of a second part. -/
lemma buffers_append (h : κ) (xs ys : List α) :
    buffers hash buffer h (xs ++ ys) =
      buffers hash buffer h xs ++ buffers hash buffer (tip hash buffer h xs) ys := by
  induction xs generalizing h with
  | nil => rfl
  | cons x xs ih =>
    rw [List.cons_append, buffers, buffers, ih, List.cons_append]
    rfl

/-- The buffers of a first part are among those of the whole. -/
lemma buffers_subset_of_isPrefix (h : κ) {xs ys : List α} (hpre : xs <+: ys) :
    buffers hash buffer h xs ⊆ buffers hash buffer h ys := by
  obtain ⟨zs, rfl⟩ := hpre
  rw [buffers_append]
  exact List.subset_append_left _ _

variable {hash buffer}

/-- A hash function that tells the buffers of a list apart and gives `root` on none of them. -/
lemma injOn_of_nodup {B : Set β} {root : κ} (bs : List β) (hB : ∀ b ∈ B, b ∈ bs)
    (hnodup : (root :: bs.map hash).Nodup) : Set.InjOn hash B ∧ ∀ b ∈ B, hash b ≠ root := by
  obtain ⟨hroot, hnodup⟩ := List.nodup_cons.mp hnodup
  constructor
  · intro b hb b' hb' heq
    exact List.inj_on_of_nodup_map hnodup (hB b hb) (hB b' hb') heq
  · intro b hb heq
    exact hroot (heq ▸ List.mem_map_of_mem (hB b hb))

/-- **A hash chain names lists.** -/
theorem tip_inj {B : Set β} {root : κ} (hinj : Set.InjOn hash B)
    (hroot : ∀ b ∈ B, hash b ≠ root) {P : α → Prop}
    (hbuffer : ∀ h x h' x', P x → P x' → buffer h x = buffer h' x' → h = h' ∧ x = x')
    {xs ys : List α} (hxs : ∀ x ∈ xs, P x) (hys : ∀ y ∈ ys, P y)
    (hxB : ∀ b ∈ buffers hash buffer root xs, b ∈ B)
    (hyB : ∀ b ∈ buffers hash buffer root ys, b ∈ B)
    (heq : tip hash buffer root xs = tip hash buffer root ys) : xs = ys := by
  -- the last buffer of a chain is in the set
  have hlast {zs : List α} {z : α} (hz : ∀ b ∈ buffers hash buffer root (zs ++ [z]), b ∈ B) :
      buffer (tip hash buffer root zs) z ∈ B := by
    apply hz
    rw [buffers_append]
    exact List.mem_append_right _ List.mem_cons_self
  induction xs using List.reverseRecOn generalizing ys with
  | nil =>
    rcases List.eq_nil_or_concat ys with rfl | ⟨ys, y, rfl⟩
    · rfl
    · rw [List.concat_eq_append] at hyB heq
      rw [tip_concat] at heq
      exact absurd heq.symm (hroot _ (hlast hyB))
  | append_singleton xs x ih =>
    rcases List.eq_nil_or_concat ys with rfl | ⟨ys, y, rfl⟩
    · rw [tip_concat] at heq
      exact absurd heq (hroot _ (hlast hxB))
    · rw [List.concat_eq_append] at hys hyB heq ⊢
      rw [tip_concat, tip_concat] at heq
      have hbuf := hinj (hlast hxB) (hlast hyB) heq
      obtain ⟨htip, rfl⟩ := hbuffer _ _ _ _ (hxs x (by simp)) (hys y (by simp)) hbuf
      have hinit := ih (fun a ha => hxs a (List.mem_append_left _ ha))
        (fun a ha => hys a (List.mem_append_left _ ha))
        (fun b hb =>
          hxB b (buffers_subset_of_isPrefix hash buffer root (List.prefix_append xs _) hb))
        (fun b hb =>
          hyB b (buffers_subset_of_isPrefix hash buffer root (List.prefix_append ys _) hb))
        htip
      rw [hinit]

/-- The hashes along a chain are different. -/
lemma nodup_hashes {B : Set β} {root : κ} (hinj : Set.InjOn hash B)
    (hroot : ∀ b ∈ B, hash b ≠ root) {P : α → Prop}
    (hbuffer : ∀ h x h' x', P x → P x' → buffer h x = buffer h' x' → h = h' ∧ x = x')
    {xs : List α} (hxs : ∀ x ∈ xs, P x) (hxB : ∀ b ∈ buffers hash buffer root xs, b ∈ B) :
    (hashes hash buffer root xs).Nodup := by
  rw [List.nodup_iff_getElem?_ne_getElem?]
  intro i j hij hj heq
  rw [length_hashes] at hj
  rw [getElem?_hashes _ _ _ (hij.trans hj), getElem?_hashes _ _ _ hj] at heq
  -- different prefixes would have the same name
  have htake (k : ℕ) : (∀ x ∈ xs.take k, P x) ∧
      ∀ b ∈ buffers hash buffer root (xs.take k), b ∈ B :=
    ⟨fun x hx => hxs x (List.mem_of_mem_take hx), fun b hb =>
      hxB b (buffers_subset_of_isPrefix hash buffer root (List.take_prefix k xs) hb)⟩
  have hxs' := tip_inj hinj hroot hbuffer (htake _).1 (htake _).1 (htake _).2 (htake _).2
    (Option.some.inj heq)
  have hlen := congrArg List.length hxs'
  rw [List.length_take, List.length_take] at hlen
  omega

end HashChain

end Foundation
