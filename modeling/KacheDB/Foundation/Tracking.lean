import KacheDB.Foundation.Coroutine

/-!
# What a coroutine takes off its stream

`Buffered.Reads` says what a program does in front of a given input.  This file asks the other
question: when the program has returned a value, what has it taken off the stream?

`Buffered.Takes R c bad good` answers it: in front of a stream that is not `bad`, the program
only replaces the shared object by one that `R` relates to it, and if it returns a value, then
what it has taken off the stream and the value are `good`.  Programs are put together with
`Takes.bind`, and `EverySet` is what it says about the replacements.  `Buffered.Breaks` is the
opposite: in front of this stream some replacement is not as `R` says.
-/

namespace Foundation

namespace Coro

variable {S I E α β : Type}

/-- Every replacement of the shared object along the run is related to the object before it. -/
def EverySet (R : S → S → Prop) : Coro S I E α → S → List (Event I E) → Prop
  | .pure _, _, _ => True
  | .raise _, _, _ => True
  | .get k, s, evs => (k s).EverySet R s evs
  | .set s' k, s, evs => R s s' ∧ k.EverySet R s' evs
  | .await ready absorb atEnd k, s, evs =>
    match awaitReady ready absorb atEnd s evs with
    | (.ok (), s', evs') => k.EverySet R s' evs'
    | (.error _, _, _) => True

variable {R : S → S → Prop}

/-- The replacements of a sequence are those of its parts. -/
lemma everySet_bind {c : Coro S I E α} {f : α → Coro S I E β} {s : S} {evs : List (Event I E)} :
    (c.bind f).EverySet R s evs ↔ c.EverySet R s evs ∧
      ∀ a s' evs', c.run s evs = (.ok a, s', evs') → (f a).EverySet R s' evs' := by
  induction c generalizing s evs with
  | pure a =>
    simp only [bind, EverySet, run_pure, true_and]
    constructor
    · rintro h a' s' evs' heq
      simp only [Prod.mk.injEq, Except.ok.injEq] at heq
      obtain ⟨rfl, rfl, rfl⟩ := heq
      exact h
    · exact fun h => h a s evs rfl
  | raise e => simp [bind, EverySet]
  | get k ih => exact ih s
  | set s' k ih =>
    simp only [bind, EverySet, run_set, ih, and_assoc]
  | await ready absorb atEnd k ih =>
    simp only [bind, EverySet, run]
    rcases awaitReady ready absorb atEnd s evs with ⟨_ | _, s', evs'⟩
    · simp
    · exact ih

/-- What every replacement is, it is also in a wider sense. -/
lemma EverySet.mono {R' : S → S → Prop} (h : ∀ s s', R s s' → R' s s') {c : Coro S I E α} {s : S}
    {evs : List (Event I E)} (hc : c.EverySet R s evs) : c.EverySet R' s evs := by
  induction c generalizing s evs with
  | pure a => trivial
  | raise e => trivial
  | get k ih => exact ih s hc
  | set s' k ih => exact ⟨h s s' hc.1, ih hc.2⟩
  | await ready absorb atEnd k ih =>
    simp only [EverySet] at hc ⊢
    rcases hw : awaitReady ready absorb atEnd s evs with ⟨_ | _, s', evs'⟩
    · trivial
    · rw [hw] at hc
      exact ih hc

/-! ### What a run raises -/

/-- What the run of the program from here raises, if it raises anything, satisfies `P`. -/
def RaisesHere (P : E → Prop) (c : Coro S I E α) (s : S) (evs : List (Event I E)) : Prop :=
  ∀ e, (c.run s evs).1 = .error e → P e

section RaisesHere

variable {P : E → Prop} {c : Coro S I E α} {s : S} {evs : List (Event I E)}

@[simp] lemma raisesHere_pure (a : α) : (Coro.pure a : Coro S I E α).RaisesHere P s evs := by
  intro e he
  cases he

@[simp] lemma raisesHere_raise {e : E} :
    (Coro.raise e : Coro S I E α).RaisesHere P s evs ↔ P e := by
  constructor
  · intro h
    exact h e rfl
  · intro h e' he
    rwa [← Except.error.inj he]

/-- A program that raises nothing else raises nothing else, if no read is interrupted. -/
lemma RaisesOnly.here (hc : c.RaisesOnly P) (hevs : ∀ e, .interrupt e ∉ evs) :
    c.RaisesHere P s evs := by
  intro e he
  exact (run_error hc he).resolve_right (hevs e)

/-- A sequence raises what its first part raises, and behind it what its second part raises. -/
lemma raisesHere_bind_iff {f : α → Coro S I E β} :
    (c.bind f).RaisesHere P s evs ↔ c.RaisesHere P s evs ∧
      ∀ a s' evs', c.run s evs = (.ok a, s', evs') → (f a).RaisesHere P s' evs' := by
  unfold RaisesHere
  rw [run_bind]
  rcases c.run s evs with ⟨e | a, s', evs'⟩
  · simp
  · constructor
    · intro h
      refine ⟨fun e he => (by cases he), ?_⟩
      rintro a' s'' evs'' heq
      simp only [Prod.mk.injEq, Except.ok.injEq] at heq
      obtain ⟨rfl, rfl, rfl⟩ := heq
      exact h
    · rintro ⟨-, h⟩
      exact h a s' evs' rfl

/-- A repetition raises what the program raises behind some of the repetitions. -/
lemma raisesHere_replicate_iff {n : ℕ} :
    (c.replicate n).RaisesHere P s evs ↔ ∀ j < n, ∀ as s' evs',
      (c.replicate j).run s evs = (.ok as, s', evs') → c.RaisesHere P s' evs' := by
  induction n generalizing s evs with
  | zero =>
    refine iff_of_true (raisesHere_pure []) fun j hj => ?_
    cases hj
  | succ n ih =>
    simp only [replicate, raisesHere_bind_iff, ih, raisesHere_pure, implies_true, and_true]
    constructor
    · rintro ⟨hfirst, hrest⟩ j hj as s' evs' hrun
      cases j with
      | zero =>
        rw [replicate, run_pure] at hrun
        simp only [Prod.mk.injEq] at hrun
        obtain ⟨-, rfl, rfl⟩ := hrun
        exact hfirst
      | succ j =>
        rw [replicate, run_bind] at hrun
        rcases hc : c.run s evs with ⟨e | a, s₁, evs₁⟩
        · rw [hc] at hrun
          cases hrun
        · rw [hc] at hrun
          rcases hj' : (c.replicate j).run s₁ evs₁ with ⟨e | as', s₂, evs₂⟩
          · simp only [run_bind, hj'] at hrun
            cases hrun
          · simp only [run_bind, hj', run_pure, Prod.mk.injEq] at hrun
            obtain ⟨-, rfl, rfl⟩ := hrun
            exact hrest a s₁ evs₁ hc j (Nat.lt_of_succ_lt_succ hj) as' s₂ evs₂ hj'
    · intro h
      refine ⟨h 0 n.succ_pos [] s evs rfl, fun a s₁ evs₁ hc j hj as s' evs' hrun => ?_⟩
      refine h (j + 1) (Nat.succ_lt_succ hj) (a :: as) s' evs' ?_
      rw [replicate, run_bind_of_ok hc, run_bind_of_ok hrun, run_pure]

end RaisesHere

end Coro

namespace Buffered

variable {S I B E α β : Type} {V : Buffered S I B} {R : S → S → Prop}

/-- A refill loop leaves a well-formed object; if it ends normally, the object is ready and in
front of the same stream. -/
lemma awaitReady_spec {ready : S → Bool} {absorb : I → S → S} {atEnd : E}
    (habsorb : ∀ i s, V.Ok s → V.Ok (absorb i s) ∧ V.view (absorb i s) = V.view s ++ V.content i)
    {s s' : S} {evs evs' : List (Event I E)} {res : Except E Unit} (hok : V.Ok s)
    (h : Coro.awaitReady ready absorb atEnd s evs = (res, s', evs')) :
    V.Ok s' ∧ (res = .ok () → ready s' = true ∧ V.pending s' evs' = V.pending s evs) := by
  induction evs generalizing s with
  | nil =>
    cases hr : ready s with
    | true =>
      simp only [Coro.awaitReady, hr, if_true, Prod.mk.injEq] at h
      obtain ⟨rfl, rfl, rfl⟩ := h
      exact ⟨hok, fun _ => ⟨hr, rfl⟩⟩
    | false =>
      simp only [Coro.awaitReady, hr, Bool.false_eq_true, if_false, Prod.mk.injEq] at h
      obtain ⟨rfl, rfl, rfl⟩ := h
      exact ⟨hok, fun hres => by cases hres⟩
  | cons ev evs ih =>
    cases hr : ready s with
    | true =>
      have hstop : (res, s', evs') = (.ok (), s, ev :: evs) := by
        rw [← h]
        cases ev <;> simp only [Coro.awaitReady, hr, if_true]
      simp only [Prod.mk.injEq] at hstop
      obtain ⟨rfl, rfl, rfl⟩ := hstop
      exact ⟨hok, fun _ => ⟨hr, rfl⟩⟩
    | false =>
      cases ev with
      | chunk i =>
        obtain ⟨hok', hview⟩ := habsorb i s hok
        obtain ⟨hok'', hend⟩ := ih hok' (by simpa [Coro.awaitReady, hr] using h)
        refine ⟨hok'', fun hres => ?_⟩
        obtain ⟨hready, hpending⟩ := hend hres
        refine ⟨hready, hpending.trans ?_⟩
        simp [pending, hview]
      | interrupt e =>
        simp only [Coro.awaitReady, hr, Bool.false_eq_true, if_false, Prod.mk.injEq] at h
        obtain ⟨rfl, rfl, rfl⟩ := h
        exact ⟨hok, fun hres => by cases hres⟩

variable (V R) in
/-- In front of a stream that is not `bad`, the program replaces the object only as `R` says, it
leaves a well-formed object, and what it takes off the stream when it returns is `good` for its
value. -/
def Takes (c : Coro S I E α) (bad : List B → Prop) (good : List B → α → Prop) : Prop :=
  ∀ s evs, V.Ok s → ¬ bad (V.pending s evs) →
    c.EverySet R s evs ∧ V.Ok (c.run s evs).2.1 ∧
      ∀ a s' evs', c.run s evs = (.ok a, s', evs') →
        ∃ b, V.pending s evs = b ++ V.pending s' evs' ∧ good b a

namespace Takes

variable {bad bad₁ : List B → Prop} {good₁ : List B → α → Prop} {good : List B → β → Prop}

/-- Returning a value takes nothing. -/
lemma pure {a : α} (h : good₁ [] a) : V.Takes R (.pure a : Coro S I E α) bad good₁ := by
  intro s evs hok _
  refine ⟨trivial, hok, fun a' s' evs' heq => ?_⟩
  simp only [Coro.run_pure, Prod.mk.injEq, Except.ok.injEq] at heq
  obtain ⟨rfl, rfl, rfl⟩ := heq
  exact ⟨[], rfl, h⟩

/-- Raising an exception returns nothing. -/
lemma raise {e : E} : V.Takes R (.raise e : Coro S I E α) bad good₁ :=
  fun _ _ hok _ => ⟨trivial, hok, fun _ _ _ heq => by simp at heq⟩

/-- A sequence takes what its parts take, the second behind the first. -/
lemma bind {c : Coro S I E α} {f : α → Coro S I E β} (hc : V.Takes R c bad₁ good₁)
    (hbad : ∀ x, bad₁ x → bad x)
    (hf : ∀ b a, good₁ b a →
      V.Takes R (f a) (fun x => bad (b ++ x)) fun b' a' => good (b ++ b') a') :
    V.Takes R (c.bind f) bad good := by
  intro s evs hok hnot
  obtain ⟨hset, hok', hrun⟩ := hc s evs hok fun h => hnot (hbad _ h)
  rw [Coro.everySet_bind, Coro.run_bind]
  rcases hc' : c.run s evs with ⟨e | a, s', evs'⟩
  · rw [hc'] at hok'
    exact ⟨⟨hset, fun a s'' evs'' heq => by simp at heq⟩, hok',
      fun a s'' evs'' heq => by simp at heq⟩
  · rw [hc'] at hok'
    -- the second part behind the first
    obtain ⟨b, hb, hgood⟩ := hrun a s' evs' hc'
    obtain ⟨hset', hok'', hrun'⟩ := hf b a hgood s' evs' hok' fun h => hnot (hb ▸ h)
    refine ⟨⟨hset, fun a' s'' evs'' heq => ?_⟩, hok'', fun a' s'' evs'' heq => ?_⟩
    · simp only [Prod.mk.injEq, Except.ok.injEq] at heq
      obtain ⟨rfl, rfl, rfl⟩ := heq
      exact hset'
    · obtain ⟨b', hb', hgood'⟩ := hrun' a' s'' evs'' heq
      exact ⟨b ++ b', by rw [hb, hb', List.append_assoc], hgood'⟩

/-- The refill loop followed by a step that takes something off the buffer. -/
lemma await_step {ready : S → Bool} {absorb : I → S → S} {atEnd : E} {k : Coro S I E α}
    (habsorb : ∀ i s, V.Ok s → V.Ok (absorb i s) ∧ V.view (absorb i s) = V.view s ++ V.content i)
    (hstep : ∀ s (evs : List (Event I E)), V.Ok s → ready s = true → k.EverySet R s evs ∧
      ∃ a s', k.run s evs = (.ok a, s', evs) ∧ V.Ok s' ∧
        ∃ b, V.view s = b ++ V.view s' ∧ good₁ b a) :
    V.Takes R (.await ready absorb atEnd k) bad good₁ := by
  intro s evs hok _
  simp only [Coro.EverySet, Coro.run]
  rcases hw : Coro.awaitReady ready absorb atEnd s evs with ⟨e | _, s₁, evs₁⟩
  · obtain ⟨hok₁, -⟩ := awaitReady_spec habsorb hok hw
    exact ⟨trivial, hok₁, fun a s' evs' heq => by simp at heq⟩
  · obtain ⟨hok₁, hend⟩ := awaitReady_spec habsorb hok hw
    obtain ⟨hready, hpending⟩ := hend rfl
    obtain ⟨hset, a, s', hrun, hok', b, hview, hgood⟩ := hstep s₁ evs₁ hok₁ hready
    simp only [hrun]
    refine ⟨hset, hok', fun a' s'' evs'' heq => ?_⟩
    simp only [Prod.mk.injEq, Except.ok.injEq] at heq
    obtain ⟨rfl, rfl, rfl⟩ := heq
    refine ⟨b, ?_, hgood⟩
    rw [← hpending, pending, hview, List.append_assoc]
    rfl

end Takes

/-- What is left of a list of chunks is one. -/
lemma exists_eq_map_chunk {is : List I} {evs : List (Event I E)}
    (h : evs <:+ is.map .chunk) : ∃ is' : List I, evs = is'.map .chunk := by
  rw [List.suffix_iff_eq_drop, ← List.map_drop] at h
  exact ⟨_, h⟩

/-! ### What is raised -/

variable (V) in
/-- In front of a stream that is not `bad` and is not interrupted, the program raises only
exceptions that satisfy `P`. -/
def RaisesWithin (P : E → Prop) (c : Coro S I E α) (bad : List B → Prop) : Prop :=
  ∀ s (is : List I), V.Ok s → ¬ bad (V.pending s (is.map .chunk : List (Event I E))) →
    ∀ e, (c.run s (is.map .chunk)).1 = .error e → P e

namespace RaisesWithin

variable {P : E → Prop} {c : Coro S I E α} {bad bad₁ : List B → Prop} {good₁ : List B → α → Prop}

/-- A program that raises nothing else raises nothing else. -/
lemma of_raisesOnly (h : c.RaisesOnly P) : V.RaisesWithin P c bad := by
  intro s is _ _ e he
  refine (Coro.run_error h he).resolve_right fun hmem => ?_
  obtain ⟨i, -, hi⟩ := List.mem_map.mp hmem
  cases hi

/-- A stream that is bad promises nothing. -/
lemma of_bad (h : ∀ x, bad x) : V.RaisesWithin P c bad :=
  fun _ _ _ hnot => absurd (h _) hnot

lemma mono (hc : V.RaisesWithin P c bad₁) (h : ∀ x, bad₁ x → bad x) : V.RaisesWithin P c bad :=
  fun s is hok hnot => hc s is hok fun hbad => hnot (h _ hbad)

/-- The second part of a sequence stands behind what the first part takes. -/
lemma bind {f : α → Coro S I E β} (hc : V.RaisesWithin P c bad) (htakes : V.Takes R c bad₁ good₁)
    (hbad : ∀ x, bad₁ x → bad x)
    (hf : ∀ b a, good₁ b a → V.RaisesWithin P (f a) fun x => bad (b ++ x)) :
    V.RaisesWithin P (c.bind f) bad := by
  intro s is hok hnot e he
  obtain ⟨-, hok', hrun⟩ := htakes s (is.map .chunk) hok fun h => hnot (hbad _ h)
  rw [Coro.run_bind] at he
  rcases hc' : c.run s (is.map .chunk) with ⟨e' | a, s', evs'⟩
  · rw [hc'] at he
    obtain rfl := Except.error.inj he
    exact hc s is hok hnot e' (by rw [hc'])
  · rw [hc'] at he hok'
    obtain ⟨b, hb, hgood⟩ := hrun a s' evs' hc'
    have hsuffix := Coro.run_suffix c s (is.map .chunk)
    rw [hc'] at hsuffix
    obtain ⟨is', rfl⟩ := exists_eq_map_chunk hsuffix
    exact hf b a hgood s' is' hok' (fun h => hnot (hb ▸ h)) e he

end RaisesWithin

/-! ### What is left -/

variable (V) in
/-- Every read of the program puts its chunk behind the unread part of the stream. -/
def Absorbs : Coro S I E α → Prop
  | .pure _ => True
  | .raise _ => True
  | .get k => ∀ s, Absorbs (k s)
  | .set _ k => Absorbs k
  | .await _ absorb _ k =>
    (∀ i s, V.Ok s → V.Ok (absorb i s) ∧ V.view (absorb i s) = V.view s ++ V.content i) ∧ Absorbs k

namespace Absorbs

@[simp] lemma pure (a : α) : V.Absorbs (.pure a : Coro S I E α) := trivial

/-- The reads of a sequence are those of its parts. -/
lemma bind {c : Coro S I E α} {f : α → Coro S I E β} (hc : V.Absorbs c)
    (hf : ∀ a, V.Absorbs (f a)) : V.Absorbs (c.bind f) := by
  induction c with
  | pure a => exact hf a
  | raise e => exact hc
  | get k ih => exact fun s => ih s (hc s)
  | set s k ih => exact ih hc
  | await ready absorb atEnd k ih => exact ⟨hc.1, ih hc.2⟩

/-- The reads of a repetition are those of the repeated program. -/
lemma replicate {c : Coro S I E α} (hc : V.Absorbs c) (n : ℕ) : V.Absorbs (c.replicate n) := by
  induction n with
  | zero => exact pure []
  | succ n ih => exact hc.bind fun a => ih.bind fun as => pure (a :: as)

end Absorbs

/-- What a refill loop leaves of the stream, whether it ends normally or not. -/
lemma awaitReady_suffix {ready : S → Bool} {absorb : I → S → S} {atEnd : E}
    (habsorb : ∀ i s, V.Ok s → V.Ok (absorb i s) ∧ V.view (absorb i s) = V.view s ++ V.content i)
    {s s' : S} {evs evs' : List (Event I E)} {res : Except E Unit} (hok : V.Ok s)
    (h : Coro.awaitReady ready absorb atEnd s evs = (res, s', evs')) :
    V.pending s' evs' <:+ V.pending s evs := by
  induction evs generalizing s with
  | nil =>
    cases hr : ready s <;>
      · simp only [Coro.awaitReady, hr, Bool.false_eq_true, if_true, if_false, Prod.mk.injEq] at h
        obtain ⟨rfl, rfl, rfl⟩ := h
        exact List.suffix_refl _
  | cons ev evs ih =>
    cases hr : ready s with
    | true =>
      have hstop : (res, s', evs') = (.ok (), s, ev :: evs) := by
        rw [← h]
        cases ev <;> simp only [Coro.awaitReady, hr, if_true]
      simp only [Prod.mk.injEq] at hstop
      obtain ⟨rfl, rfl, rfl⟩ := hstop
      exact List.suffix_refl _
    | false =>
      cases ev with
      | chunk i =>
        obtain ⟨hok', hview⟩ := habsorb i s hok
        have hrest := ih hok' (by simpa [Coro.awaitReady, hr] using h)
        simpa [pending, hview] using hrest
      | interrupt e =>
        simp only [Coro.awaitReady, hr, Bool.false_eq_true, if_false, Prod.mk.injEq] at h
        obtain ⟨rfl, rfl, rfl⟩ := h
        exact List.suffix_refl _

/-- Replacements that take something off the front leave a rest of the stream, whether the program
returns or raises. -/
theorem pending_suffix (hR : ∀ s s', R s s' → V.Ok s' ∧ V.view s' <:+ V.view s) {c : Coro S I E α}
    (hc : V.Absorbs c) {s : S} {evs : List (Event I E)} (hok : V.Ok s) (hset : c.EverySet R s evs) :
    V.Ok (c.run s evs).2.1 ∧
      V.pending (c.run s evs).2.1 (c.run s evs).2.2 <:+ V.pending s evs := by
  induction c generalizing s evs with
  | pure a => exact ⟨hok, List.suffix_refl _⟩
  | raise e => exact ⟨hok, List.suffix_refl _⟩
  | get k ih => exact ih s (hc s) hok hset
  | set s' k ih =>
    obtain ⟨hok', t, ht⟩ := hR s s' hset.1
    obtain ⟨hok'', hsuf⟩ := ih hc hok' hset.2
    refine ⟨hok'', hsuf.trans ⟨t, ?_⟩⟩
    rw [pending, pending, ← ht, List.append_assoc]
  | await ready absorb atEnd k ih =>
    simp only [Coro.EverySet, Coro.run] at hset ⊢
    rcases hw : Coro.awaitReady ready absorb atEnd s evs with ⟨_ | _, s', evs'⟩
    · exact ⟨(awaitReady_spec hc.1 hok hw).1, awaitReady_suffix hc.1 hok hw⟩
    · rw [hw] at hset
      obtain ⟨hok'', hsuf⟩ := ih hc.2 (awaitReady_spec hc.1 hok hw).1 hset
      exact ⟨hok'', hsuf.trans (awaitReady_suffix hc.1 hok hw)⟩

/-! ### Going back -/

variable (V R) in
/-- In front of the stream `x`, which is not interrupted, the program makes a replacement that is
not as `R` says. -/
def Breaks (c : Coro S I E α) (x : List B) : Prop :=
  ∀ s (is : List I), V.Ok s → V.pending s (is.map .chunk : List (Event I E)) = x →
    ¬ c.EverySet R s (is.map .chunk)

/-- What the first part does, the sequence does. -/
lemma Breaks.bind {c : Coro S I E α} {f : α → Coro S I E β} {x : List B} (h : V.Breaks R c x) :
    V.Breaks R (c.bind f) x :=
  fun s is hok hx hset => h s is hok hx (Coro.everySet_bind.mp hset).1

/-- Behind a first part that reads its input, the sequence does what the second part does. -/
lemma Reads.bind_breaks {c : Coro S I E α} {f : α → Coro S I E β} {inp rest : List B} {a : α}
    (hc : V.Reads c inp (.ok a) []) (hf : V.Breaks R (f a) rest) :
    V.Breaks R (c.bind f) (inp ++ rest) := by
  intro s is hok hx hset
  obtain ⟨hok', ⟨hres, hrest, hsuf⟩ | ⟨e, -, hfail⟩⟩ :=
    hc s (is.map .chunk) [] rest hok (by rw [List.append_nil, hx])
  · rcases hrun : c.run s (is.map .chunk) with ⟨res, s', evs'⟩
    simp only [hrun, List.append_nil, List.nil_append] at hok' hres hrest hsuf
    subst hres
    obtain ⟨is', rfl⟩ := exists_eq_map_chunk hsuf
    exact hf s' is' hok' hrest ((Coro.everySet_bind.mp hset).2 a s' _ hrun)
  · simp [StreamFails] at hfail

end Buffered

end Foundation
