import Mathlib.Tactic
import Mathlib.Data.List.Infix

/-!
# Coroutines over a shared object

A *coroutine* is a program that reads and writes one shared object of type `S`
and that may stop at an await point until more input has arrived.  Between two
await points it runs without interruption.  `Coro S I E α` is the syntax of such
programs: `I` is the type of an input chunk, `E` the type of the exceptions a
program may raise and `α` the type of its result.

The file gives two ways of running a coroutine.

* `Coro.run` runs it against the finite list of events its reads will see, to
  its end.  An event is a chunk or an interruption (a timeout, a cancellation);
  after the last event the input is at its end.
* `Coro.drive` runs it against the chunks that are already there and gives back
  the rest of the program when it would have to wait.

`run_append_eq_drive` relates the two: to drive a coroutine and to run what is
left of it later is to run it once.

The last section is a small logic for coroutines that parse a byte stream held
in the shared object.  `Buffered.Reads c inp res left` says that `c`, started in
front of the input `inp`, ends with `res` and leaves `left` of that input unread,
however the input is cut into chunks.  `Buffered.Promises` says the same of a program that is
stopped at an await point, and `Promises.drive` that driving a program keeps its promise.
-/

namespace Foundation

/-- Programs over a shared object of type `S` which may wait for chunks of type `I`,
raise exceptions of type `E` and return a value of type `α`. -/
inductive Coro (S I E α : Type) : Type where
  /-- Return a value. -/
  | pure (a : α)
  /-- Raise an exception. -/
  | raise (e : E)
  /-- Read the shared object. -/
  | get (k : S → Coro S I E α)
  /-- Replace the shared object. -/
  | set (s : S) (k : Coro S I E α)
  /-- The loop `while not ready: absorb the next chunk`; `atEnd` is raised when the
  input is at its end. -/
  | await (ready : S → Bool) (absorb : I → S → S) (atEnd : E) (k : Coro S I E α)

/-- What one read of the input sees: a chunk, or an exception raised by the read itself. -/
inductive Event (I E : Type) : Type where
  | chunk (i : I)
  | interrupt (e : E)
  deriving DecidableEq

/-- What `Coro.drive` ends with: the result, or the program that is left at an await point. -/
inductive Progress (S I E α : Type) : Type where
  | done (r : Except E α)
  | blocked (c : Coro S I E α)

namespace Coro

variable {S I E α β : Type}

/-- Run `c` and continue with `f` on its value. -/
def bind : Coro S I E α → (α → Coro S I E β) → Coro S I E β
  | .pure a, f => f a
  | .raise e, _ => .raise e
  | .get k, f => .get fun s => (k s).bind f
  | .set s k, f => .set s (k.bind f)
  | .await ready absorb atEnd k, f => .await ready absorb atEnd (k.bind f)

instance : Monad (Coro S I E) where
  pure := .pure
  bind := .bind

/-- The shared object as a value. -/
def fetch : Coro S I E S :=
  .get .pure

/-- Replace the shared object. -/
def put (s : S) : Coro S I E Unit :=
  .set s (.pure ())

/-- Wait until the shared object is ready. -/
def waitUntil (ready : S → Bool) (absorb : I → S → S) (atEnd : E) : Coro S I E Unit :=
  .await ready absorb atEnd (.pure ())

/-- The `n`-fold repetition of a coroutine, with the list of its values. -/
def replicate (c : Coro S I E α) : ℕ → Coro S I E (List α)
  | 0 => .pure []
  | n + 1 => c.bind fun a => (c.replicate n).bind fun as => .pure (a :: as)

/-! ## Running to the end -/

/-- The refill loop on a list of events. -/
def awaitReady (ready : S → Bool) (absorb : I → S → S) (atEnd : E) :
    S → List (Event I E) → Except E Unit × S × List (Event I E)
  | s, [] => if ready s then (.ok (), s, []) else (.error atEnd, s, [])
  | s, .chunk i :: evs =>
    if ready s then (.ok (), s, .chunk i :: evs)
    else awaitReady ready absorb atEnd (absorb i s) evs
  | s, .interrupt e :: evs =>
    if ready s then (.ok (), s, .interrupt e :: evs) else (.error e, s, evs)

/-- Run a coroutine on the events its reads will see. -/
def run : Coro S I E α → S → List (Event I E) → Except E α × S × List (Event I E)
  | .pure a, s, evs => (.ok a, s, evs)
  | .raise e, s, evs => (.error e, s, evs)
  | .get k, s, evs => (k s).run s evs
  | .set s k, _, evs => k.run s evs
  | .await ready absorb atEnd k, s, evs =>
    match awaitReady ready absorb atEnd s evs with
    | (.ok (), s', evs') => k.run s' evs'
    | (.error e, s', evs') => (.error e, s', evs')

@[simp] lemma run_pure (a : α) (s : S) (evs : List (Event I E)) :
    (Coro.pure a : Coro S I E α).run s evs = (.ok a, s, evs) := rfl

@[simp] lemma run_raise (e : E) (s : S) (evs : List (Event I E)) :
    (Coro.raise e : Coro S I E α).run s evs = (.error e, s, evs) := rfl

@[simp] lemma run_get (k : S → Coro S I E α) (s : S) (evs : List (Event I E)) :
    (Coro.get k).run s evs = (k s).run s evs := rfl

@[simp] lemma run_set (s' : S) (k : Coro S I E α) (s : S) (evs : List (Event I E)) :
    (Coro.set s' k).run s evs = k.run s' evs := rfl

/-- A refill loop that raises ends the run. -/
lemma run_await_error {ready : S → Bool} {absorb : I → S → S} {atEnd e : E} {k : Coro S I E α}
    {s s' : S} {evs evs' : List (Event I E)}
    (h : awaitReady ready absorb atEnd s evs = (.error e, s', evs')) :
    (Coro.await ready absorb atEnd k).run s evs = (.error e, s', evs') := by
  simp only [run, h]

/-- Running a sequence is running its first part and, if that returns, the second. -/
lemma run_bind (c : Coro S I E α) (f : α → Coro S I E β) (s : S) (evs : List (Event I E)) :
    (c.bind f).run s evs =
      match c.run s evs with
      | (.ok a, s', evs') => (f a).run s' evs'
      | (.error e, s', evs') => (.error e, s', evs') := by
  induction c generalizing s evs with
  | pure a => rfl
  | raise e => rfl
  | get k ih => exact ih s s evs
  | set s' k ih => exact ih s' evs
  | await ready absorb atEnd k ih =>
    simp only [bind, run]
    rcases awaitReady ready absorb atEnd s evs with ⟨_ | _, s', evs'⟩
    · rfl
    · exact ih s' evs'

/-- A sequence whose first part returns goes on with the second part. -/
lemma run_bind_of_ok {c : Coro S I E α} {f : α → Coro S I E β} {s s' : S}
    {evs evs' : List (Event I E)} {a : α} (h : c.run s evs = (.ok a, s', evs')) :
    (c.bind f).run s evs = (f a).run s' evs' := by
  rw [run_bind, h]

/-- A sequence whose first part raises raises the same exception. -/
lemma run_bind_of_error {c : Coro S I E α} {f : α → Coro S I E β} {s s' : S}
    {evs evs' : List (Event I E)} {e : E} (h : c.run s evs = (.error e, s', evs')) :
    (c.bind f).run s evs = (.error e, s', evs') := by
  rw [run_bind, h]

/-- The monad's bind is `Coro.bind`. -/
lemma bind_eq (c : Coro S I E α) (f : α → Coro S I E β) : c >>= f = c.bind f := rfl

/-- The monad's return is `Coro.pure`. -/
lemma pure_eq (a : α) : (Pure.pure a : Coro S I E α) = .pure a := rfl

/-! ## The exceptions of a coroutine -/

/-- Every exception that the program itself may raise satisfies `P`. -/
def RaisesOnly (P : E → Prop) : Coro S I E α → Prop
  | .pure _ => True
  | .raise e => P e
  | .get k => ∀ s, (k s).RaisesOnly P
  | .set _ k => k.RaisesOnly P
  | .await _ _ atEnd k => P atEnd ∧ k.RaisesOnly P

namespace RaisesOnly

variable {P : E → Prop}

@[simp] lemma pure (a : α) : (Coro.pure a : Coro S I E α).RaisesOnly P := trivial

/-- A sequence raises what its parts raise. -/
lemma bind {c : Coro S I E α} {f : α → Coro S I E β} (hc : c.RaisesOnly P)
    (hf : ∀ a, (f a).RaisesOnly P) : (c.bind f).RaisesOnly P := by
  induction c with
  | pure a => exact hf a
  | raise e => exact hc
  | get k ih => exact fun s => ih s (hc s)
  | set s k ih => exact ih hc
  | await ready absorb atEnd k ih => exact ⟨hc.1, ih hc.2⟩

/-- A repetition raises what the repeated program raises. -/
lemma replicate {c : Coro S I E α} (hc : c.RaisesOnly P) (n : ℕ) :
    (c.replicate n).RaisesOnly P := by
  induction n with
  | zero => exact pure []
  | succ n ih => exact hc.bind fun a => ih.bind fun as => pure (a :: as)

end RaisesOnly

/-- The refill loop raises its end-of-input exception or what interrupts a read. -/
lemma awaitReady_error {ready : S → Bool} {absorb : I → S → S} {atEnd e : E} {s : S}
    {evs : List (Event I E)} (h : (awaitReady ready absorb atEnd s evs).1 = .error e) :
    e = atEnd ∨ .interrupt e ∈ evs := by
  induction evs generalizing s with
  | nil =>
    by_cases hr : ready s
    · simp [awaitReady, hr] at h
    · simpa [awaitReady, hr, eq_comm] using h
  | cons ev evs ih =>
    by_cases hr : ready s
    · cases ev <;> simp [awaitReady, hr] at h
    · cases ev with
      | chunk i =>
        simp only [awaitReady, hr] at h
        exact (ih h).imp_right (List.mem_cons_of_mem _)
      | interrupt e' =>
        have he : e' = e := by simpa [awaitReady, hr] using h
        exact .inr (he ▸ List.mem_cons_self)

/-- The refill loop uses events up from the front. -/
lemma awaitReady_suffix (ready : S → Bool) (absorb : I → S → S) (atEnd : E) (s : S)
    (evs : List (Event I E)) : (awaitReady ready absorb atEnd s evs).2.2 <:+ evs := by
  induction evs generalizing s with
  | nil =>
    by_cases hr : ready s <;> simp [awaitReady, hr]
  | cons ev evs ih =>
    by_cases hr : ready s
    · cases ev <;> simp [awaitReady, hr]
    · cases ev with
      | chunk i =>
        simp only [awaitReady, hr]
        exact (ih (absorb i s)).trans (List.suffix_cons _ evs)
      | interrupt e =>
        simp only [awaitReady, hr]
        exact List.suffix_cons _ evs

/-- A run uses events up from the front. -/
lemma run_suffix (c : Coro S I E α) (s : S) (evs : List (Event I E)) :
    (c.run s evs).2.2 <:+ evs := by
  induction c generalizing s evs with
  | pure a => exact List.suffix_refl evs
  | raise e => exact List.suffix_refl evs
  | get k ih => exact ih s s evs
  | set s' k ih => exact ih s' evs
  | await ready absorb atEnd k ih =>
    have hsuf := awaitReady_suffix ready absorb atEnd s evs
    simp only [run]
    rcases hw : awaitReady ready absorb atEnd s evs with ⟨_ | _, s', evs'⟩
    · rw [hw] at hsuf
      exact hsuf
    · rw [hw] at hsuf
      exact (ih s' evs').trans hsuf

/-- What a run raises is raised by the program or interrupts one of its reads. -/
theorem run_error {P : E → Prop} {c : Coro S I E α} (hc : c.RaisesOnly P) {e : E} {s : S}
    {evs : List (Event I E)} (h : (c.run s evs).1 = .error e) : P e ∨ .interrupt e ∈ evs := by
  induction c generalizing s evs with
  | pure a => simp at h
  | raise e' =>
    have he : e' = e := by simpa using h
    exact .inl (he ▸ hc)
  | get k ih => exact ih s (hc s) h
  | set s' k ih => exact ih hc h
  | await ready absorb atEnd k ih =>
    have hsuf := awaitReady_suffix ready absorb atEnd s evs
    rcases hw : awaitReady ready absorb atEnd s evs with ⟨_ | _, s', evs'⟩
    · simp only [run, hw] at h
      have herr : (awaitReady ready absorb atEnd s evs).1 = .error e := by
        rw [hw, Except.error.inj h]
      refine (awaitReady_error herr).imp_left ?_
      rintro rfl
      exact hc.1
    · simp only [run, hw] at h
      rw [hw] at hsuf
      exact (ih hc.2 h).imp_right fun hm => hsuf.subset hm

/-! ## Running as far as the input goes -/

/-- The refill loop on the chunks that are there; the flag says whether it has ended. -/
def awaitChunks (ready : S → Bool) (absorb : I → S → S) : S → List I → Bool × S × List I
  | s, [] => (ready s, s, [])
  | s, i :: is => if ready s then (true, s, i :: is) else awaitChunks ready absorb (absorb i s) is

/-- Run a coroutine as far as the given chunks allow. -/
def drive : Coro S I E α → S → List I → Progress S I E α × S × List I
  | .pure a, s, is => (.done (.ok a), s, is)
  | .raise e, s, is => (.done (.error e), s, is)
  | .get k, s, is => (k s).drive s is
  | .set s k, _, is => k.drive s is
  | .await ready absorb atEnd k, s, is =>
    match awaitChunks ready absorb s is with
    | (true, s', is') => k.drive s' is'
    | (false, s', is') => (.blocked (.await ready absorb atEnd k), s', is')

/-- The refill loop on chunks followed by further events. -/
lemma awaitReady_append (ready : S → Bool) (absorb : I → S → S) (atEnd : E) (s : S)
    (is : List I) (evs : List (Event I E)) :
    awaitReady ready absorb atEnd s (is.map .chunk ++ evs) =
      match awaitChunks ready absorb s is with
      | (true, s', is') => (.ok (), s', is'.map .chunk ++ evs)
      | (false, s', _) => awaitReady ready absorb atEnd s' evs := by
  induction is generalizing s with
  | nil =>
    cases hr : ready s with
    | false => simp [awaitChunks, hr]
    | true => rcases evs with _ | ⟨_ | _, evs⟩ <;> simp [awaitChunks, awaitReady, hr]
  | cons i is ih =>
    cases hr : ready s with
    | false => simpa [awaitChunks, awaitReady, hr] using ih (absorb i s)
    | true => simp [awaitChunks, awaitReady, hr]

/-- The refill loop that is not ended has used up its chunks. -/
lemma awaitChunks_eq_nil_of_false {ready : S → Bool} {absorb : I → S → S} {s s' : S}
    {is is' : List I} (h : awaitChunks ready absorb s is = (false, s', is')) : is' = [] := by
  induction is generalizing s with
  | nil => simp_all [awaitChunks]
  | cons i is ih =>
    cases hr : ready s with
    | false => exact ih (by simpa [awaitChunks, hr] using h)
    | true => simp [awaitChunks, hr] at h

/-- Driving a coroutine and running what is left of it is running it once. -/
theorem run_append_eq_drive (c : Coro S I E α) (s : S) (is : List I)
    (evs : List (Event I E)) :
    c.run s (is.map .chunk ++ evs) =
      match c.drive s is with
      | (.done r, s', is') => (r, s', is'.map .chunk ++ evs)
      | (.blocked c', s', _) => c'.run s' evs := by
  induction c generalizing s is with
  | pure a => rfl
  | raise e => rfl
  | get k ih => exact ih s s is
  | set s' k ih => exact ih s' is
  | await ready absorb atEnd k ih =>
    simp only [run, drive, awaitReady_append]
    rcases awaitChunks ready absorb s is with ⟨_ | _, s', is'⟩
    · rfl
    · exact ih s' is'

/-- A coroutine that has to wait has used up the chunks it was given. -/
lemma drive_eq_nil_of_blocked {c c' : Coro S I E α} {s s' : S} {is is' : List I}
    (h : c.drive s is = (.blocked c', s', is')) : is' = [] := by
  induction c generalizing s is with
  | pure a => simp [drive] at h
  | raise e => simp [drive] at h
  | get k ih => exact ih s h
  | set s₁ k ih => exact ih h
  | await ready absorb atEnd k ih =>
    simp only [drive] at h
    rcases hw : awaitChunks ready absorb s is with ⟨_ | _, s₁, is₁⟩
    · simp only [hw, Prod.mk.injEq] at h
      exact h.2.2 ▸ awaitChunks_eq_nil_of_false hw
    · exact ih (by simpa only [hw] using h)

/-- The program stands at an await point whose condition does not hold. -/
def Waits : Coro S I E α → S → Prop
  | .await ready _ _ _, s => ready s = false
  | _, _ => False

/-- The refill loop that is not ended stops at an object that is not ready. -/
lemma not_ready_of_awaitChunks {ready : S → Bool} {absorb : I → S → S} {s s' : S}
    {is is' : List I} (h : awaitChunks ready absorb s is = (false, s', is')) :
    ready s' = false := by
  induction is generalizing s with
  | nil =>
    simp only [awaitChunks, Prod.mk.injEq] at h
    rw [← h.2.1, h.1]
  | cons i is ih =>
    cases hr : ready s with
    | false => exact ih (by simpa [awaitChunks, hr] using h)
    | true => simp [awaitChunks, hr] at h

/-- A coroutine that could not go on waits. -/
lemma waits_of_blocked {c c' : Coro S I E α} {s s' : S} {is is' : List I}
    (h : c.drive s is = (.blocked c', s', is')) : c'.Waits s' := by
  induction c generalizing s is with
  | pure a => simp [drive] at h
  | raise e => simp [drive] at h
  | get k ih => exact ih s h
  | set s₁ k ih => exact ih h
  | await ready absorb atEnd k ih =>
    simp only [drive] at h
    rcases hw : awaitChunks ready absorb s is with ⟨_ | _, s₁, is₁⟩
    · simp only [hw, Prod.mk.injEq, Progress.blocked.injEq] at h
      obtain ⟨rfl, rfl, -⟩ := h
      exact not_ready_of_awaitChunks hw
    · exact ih (by simpa only [hw] using h)

/-- A waiting program is interrupted where it stands. -/
lemma Waits.run_interrupt {c : Coro S I E α} {s : S} (h : c.Waits s) (e : E)
    (evs : List (Event I E)) : c.run s (.interrupt e :: evs) = (.error e, s, evs) := by
  cases c with
  | await ready absorb atEnd k =>
    have hready : ready s = false := h
    simp [run, awaitReady, hready]
  | pure a => exact h.elim
  | raise e => exact h.elim
  | get k => exact h.elim
  | set s' k => exact h.elim

/-- At the end of the input a waiting program stays where it stands. -/
lemma Waits.run_nil {c : Coro S I E α} {s : S} (h : c.Waits s) : (c.run s []).2 = (s, []) := by
  cases c with
  | await ready absorb atEnd k =>
    have hready : ready s = false := h
    simp [run, awaitReady, hready]
  | pure a => exact h.elim
  | raise e => exact h.elim
  | get k => exact h.elim
  | set s' k => exact h.elim

/-- Go on with a waiting program when its read returns with these chunks there: without any,
the input is at its end; otherwise the first chunk is absorbed before anything else, in whatever
state the shared object is by now. -/
def resume : Coro S I E α → S → List I → Progress S I E α × S × List I
  | .await _ _ atEnd _, s, [] => (.done (.error atEnd), s, [])
  | .await ready absorb atEnd k, s, i :: is =>
    (Coro.await ready absorb atEnd k).drive (absorb i s) is
  | c, s, is => c.drive s is

/-- If the program still waits, to resume it is to drive it. -/
lemma Waits.resume_eq_drive {c : Coro S I E α} {s : S} (h : c.Waits s) {is : List I}
    (hne : is ≠ []) : c.resume s is = c.drive s is := by
  cases c with
  | await ready absorb atEnd k =>
    cases is with
    | nil => exact absurd rfl hne
    | cons i is =>
      have hready : ready s = false := h
      simp [resume, drive, awaitChunks, hready]
  | pure a => exact h.elim
  | raise e => exact h.elim
  | get k => exact h.elim
  | set s' k => exact h.elim

end Coro

/-! ## Parsing a buffered stream -/

/-- How an object of type `S` buffers a stream of `B`s that arrives in chunks of type `I`:
what of the stream it still holds unread, what a chunk contains, and when the object is
well formed. -/
structure Buffered (S I B : Type) where
  /-- The unread part of the stream that the object holds. -/
  view : S → List B
  /-- The part of the stream in a chunk. -/
  content : I → List B
  /-- The object is well formed. -/
  Ok : S → Prop

/-- A failure of the stream itself: a read was interrupted with `e`, or the stream ended
with `missing` still to come. -/
def StreamFails {I E B : Type} (evs : List (Event I E)) (missing : List B) (e : E) : Prop :=
  .interrupt e ∈ evs ∨ missing ≠ []

/-- Failures of a later part of the stream are failures of the stream. -/
lemma StreamFails.of_suffix {I E B : Type} {evs evs' : List (Event I E)} {missing : List B}
    {e : E} (h : StreamFails evs' missing e) (hs : evs' <:+ evs) : StreamFails evs missing e :=
  h.imp_left fun hm => hs.subset hm

namespace Buffered

variable {S I E B α β : Type} (V : Buffered S I B)

/-- The part of the stream that a list of events delivers. -/
def data (evs : List (Event I E)) : List B :=
  evs.flatMap fun
    | .chunk i => V.content i
    | .interrupt _ => []

/-- The unread stream: what the object holds, then what is still to arrive. -/
def pending (s : S) (evs : List (Event I E)) : List B :=
  V.view s ++ V.data evs

@[simp] lemma data_nil : V.data ([] : List (Event I E)) = [] := rfl

@[simp] lemma data_chunk (i : I) (evs : List (Event I E)) :
    V.data (.chunk i :: evs) = V.content i ++ V.data evs := rfl

@[simp] lemma data_interrupt (e : E) (evs : List (Event I E)) :
    V.data (.interrupt e :: evs) = V.data evs := rfl

@[simp] lemma data_append (evs evs' : List (Event I E)) :
    V.data (evs ++ evs') = V.data evs ++ V.data evs' := by
  simp [data]

/-- `c`, started in front of the input `inp`, ends with `res` and leaves `left` unread.

The stream may be cut into chunks anywhere, its last part `missing` may never arrive, and
any read may be interrupted; then `c` may instead raise what the failed read raised.  Either
way the object stays well formed. -/
def Reads (c : Coro S I E α) (inp : List B) (res : Except E α) (left : List B) : Prop :=
  ∀ s evs missing rest, V.Ok s → V.pending s evs ++ missing = inp ++ rest →
    V.Ok (c.run s evs).2.1 ∧
    (((c.run s evs).1 = res ∧
        V.pending (c.run s evs).2.1 (c.run s evs).2.2 ++ missing = left ++ rest ∧
        (c.run s evs).2.2 <:+ evs) ∨
      ∃ e, (c.run s evs).1 = .error e ∧ StreamFails evs missing e)

variable {V}

namespace Reads

/-- Returning a value reads nothing. -/
lemma pure (a : α) : V.Reads (.pure a : Coro S I E α) [] (.ok a) [] :=
  fun _ evs _ _ hok hp => ⟨hok, .inl ⟨rfl, hp, List.suffix_refl evs⟩⟩

/-- Raising an exception leaves the whole input. -/
lemma raise (e : E) (inp : List B) :
    V.Reads (.raise e : Coro S I E α) inp (.error e) inp :=
  fun _ evs _ _ hok hp => ⟨hok, .inl ⟨rfl, hp, List.suffix_refl evs⟩⟩

/-- If the first part reads the whole of its input, the second part goes on behind it. -/
lemma bind_ok {c : Coro S I E α} {f : α → Coro S I E β} {inp inp' left : List B} {a : α}
    {res : Except E β} (hc : V.Reads c inp (.ok a) []) (hf : V.Reads (f a) inp' res left) :
    V.Reads (c.bind f) (inp ++ inp') res left := by
  intro s evs missing rest hok hp
  obtain ⟨hok₁, hcase⟩ := hc s evs missing (inp' ++ rest) hok (by simpa using hp)
  rcases hrun : c.run s evs with ⟨r, s₁, evs₁⟩
  simp only [hrun] at hok₁ hcase
  rcases hcase with ⟨rfl, hp₁, hsuf⟩ | ⟨e, rfl, he⟩
  · rw [Coro.run_bind_of_ok hrun]
    obtain ⟨hok₂, hcase₂⟩ := hf s₁ evs₁ missing rest hok₁ hp₁
    refine ⟨hok₂, hcase₂.imp (fun h => ⟨h.1, h.2.1, h.2.2.trans hsuf⟩) ?_⟩
    rintro ⟨e, he, hfail⟩
    exact ⟨e, he, hfail.of_suffix hsuf⟩
  · rw [Coro.run_bind_of_error hrun]
    exact ⟨hok₁, .inr ⟨e, rfl, he⟩⟩

/-- If the first part raises, the input of the second part stays unread. -/
lemma bind_error {c : Coro S I E α} {f : α → Coro S I E β} {inp left : List B} {e : E}
    (inp' : List B) (hc : V.Reads c inp (.error e) left) :
    V.Reads (c.bind f) (inp ++ inp') (.error e) (left ++ inp') := by
  intro s evs missing rest hok hp
  obtain ⟨hok₁, hcase⟩ := hc s evs missing (inp' ++ rest) hok (by simpa using hp)
  rcases hrun : c.run s evs with ⟨r, s₁, evs₁⟩
  simp only [hrun] at hok₁ hcase
  rcases hcase with ⟨rfl, hp₁, hsuf⟩ | ⟨e', rfl, he⟩
  · rw [Coro.run_bind_of_error hrun]
    exact ⟨hok₁, .inl ⟨rfl, by simpa using hp₁, hsuf⟩⟩
  · rw [Coro.run_bind_of_error hrun]
    exact ⟨hok₁, .inr ⟨e', rfl, he⟩⟩

/-- A last part that reads nothing more: it goes on from the value of the first part, if
there is one. -/
lemma bind_last {c : Coro S I E α} {f : α → Coro S I E β} {inp left : List B}
    {res : Except E α} {g : α → Except E β} (hc : V.Reads c inp res left)
    (hleft : ∀ a, res = .ok a → left = []) (hf : ∀ a, V.Reads (f a) [] (g a) []) :
    V.Reads (c.bind f) inp (res.bind g) left := by
  cases res with
  | error e =>
    have h : V.Reads (c.bind f) (inp ++ []) (.error e) (left ++ []) := hc.bind_error []
    simpa [Except.bind] using h
  | ok a =>
    rw [hleft a rfl] at hc ⊢
    simpa [Except.bind] using hc.bind_ok (hf a)

/-- The refill loop followed by a step that takes `inp` off the buffer.  The loop must not
end before `inp` is there (`hneed`), and the step must take exactly `inp` (`hstep`). -/
lemma await_step {ready : S → Bool} {absorb : I → S → S} {atEnd : E} {k : Coro S I E α}
    {inp : List B} {a : α}
    (habsorb : ∀ i s, V.Ok s → V.Ok (absorb i s) ∧ V.view (absorb i s) = V.view s ++ V.content i)
    (hneed : ∀ s more rest, V.Ok s → V.view s ++ more = inp ++ rest → ready s = false →
      more ≠ [])
    (hstep : ∀ s (evs : List (Event I E)) more rest, V.Ok s → V.view s ++ more = inp ++ rest →
      ready s = true → ∃ s', k.run s evs = (.ok a, s', evs) ∧ V.Ok s' ∧ V.view s' ++ more = rest) :
    V.Reads (.await ready absorb atEnd k) inp (.ok a) [] := by
  intro s evs missing rest hok hp
  induction evs generalizing s with
  | nil =>
    cases hr : ready s with
    | true =>
      obtain ⟨s', hk, hok', hv⟩ := hstep s [] missing rest hok (by simpa [pending] using hp) hr
      simp only [Coro.run, Coro.awaitReady, hr, if_true, hk]
      exact ⟨hok', .inl ⟨by trivial, by simpa [pending] using hv, List.suffix_refl _⟩⟩
    | false =>
      have hm := hneed s missing rest hok (by simpa [pending] using hp) hr
      simp only [Coro.run, Coro.awaitReady, hr, Bool.false_eq_true, if_false]
      exact ⟨hok, .inr ⟨atEnd, rfl, .inr hm⟩⟩
  | cons ev evs ih =>
    cases hr : ready s with
    | true =>
      obtain ⟨s', hk, hok', hv⟩ := hstep s (ev :: evs) (V.data (ev :: evs) ++ missing) rest hok
        (by simpa [pending] using hp) hr
      have hrun : (Coro.await ready absorb atEnd k).run s (ev :: evs) = (.ok a, s', ev :: evs) := by
        cases ev <;> simp [Coro.run, Coro.awaitReady, hr, hk]
      rw [hrun]
      exact ⟨hok', .inl ⟨rfl, by simpa [pending] using hv, List.suffix_refl _⟩⟩
    | false =>
      cases ev with
      | chunk i =>
        have hrun : (Coro.await ready absorb atEnd k).run s (.chunk i :: evs) =
            (Coro.await ready absorb atEnd k).run (absorb i s) evs := by
          simp [Coro.run, Coro.awaitReady, hr]
        obtain ⟨hok', hview⟩ := habsorb i s hok
        obtain ⟨h₁, h₂⟩ := ih (absorb i s) hok' (by simpa [pending, hview] using hp)
        rw [hrun]
        refine ⟨h₁, h₂.imp (fun h => ⟨h.1, h.2.1, h.2.2.trans (List.suffix_cons _ _)⟩) ?_⟩
        rintro ⟨e, he, hfail⟩
        exact ⟨e, he, hfail.of_suffix (List.suffix_cons _ _)⟩
      | interrupt e =>
        simp only [Coro.run, Coro.awaitReady, hr, Bool.false_eq_true, if_false]
        exact ⟨hok, .inr ⟨e, rfl, .inl (List.mem_cons_self)⟩⟩

end Reads

/-! ### Programs that are stopped on the way -/

variable (V) in
/-- `c`, stopped at `s` with the input `ahead` still to come, will end with `res` and leave
`left` of that input unread, however it is cut into chunks and whatever comes behind it. -/
def Promises (c : Coro S I E α) (s : S) (ahead : List B) (res : Except E α) (left : List B) :
    Prop :=
  ∀ (more : List B) (is : List I), is.flatMap V.content = ahead ++ more →
    (c.run s (is.map .chunk)).1 = res ∧ V.Ok (c.run s (is.map .chunk)).2.1 ∧
      V.pending (c.run s (is.map .chunk)).2.1 (c.run s (is.map .chunk)).2.2 = left ++ more

/-- The data of a list of chunks. -/
lemma data_map_chunk (is : List I) :
    V.data (is.map .chunk : List (Event I E)) = is.flatMap V.content := by
  rw [data, List.flatMap_map]

/-- A program in front of its whole input. -/
lemma Reads.promises {c : Coro S I E α} {inp left : List B} {res : Except E α}
    (hc : V.Reads c inp res left) {s : S} (hok : V.Ok s) {ahead rest : List B}
    (h : V.view s ++ ahead = inp ++ rest) : V.Promises c s ahead res (left ++ rest) := by
  intro more is his
  have hp : V.pending s (is.map .chunk : List (Event I E)) ++ [] = inp ++ (rest ++ more) := by
    rw [pending, data_map_chunk, his, List.append_nil, ← List.append_assoc, h, List.append_assoc]
  obtain ⟨hok', ⟨hres, hleft, -⟩ | ⟨e, -, hfail⟩⟩ := hc s (is.map .chunk) [] (rest ++ more) hok hp
  · exact ⟨hres, hok', by simpa using hleft⟩
  · simp [StreamFails] at hfail

/-- More input behind the input stays unread. -/
lemma Promises.append {c : Coro S I E α} {s : S} {ahead : List B} {res : Except E α}
    {left : List B} (h : V.Promises c s ahead res left) (more : List B) :
    V.Promises c s (ahead ++ more) res (left ++ more) := by
  intro more' is his
  rw [List.append_assoc] at his ⊢
  exact h (more ++ more') is his

variable (V) in
/-- What a promise becomes when a part of the input has been used. -/
def Kept (ahead : List B) (res : Except E α) (left : List B) :
    Progress S I E α × S × List I → Prop
  | (.done r, s, is) => r = res ∧ V.Ok s ∧ V.view s ++ (is.flatMap V.content ++ ahead) = left
  | (.blocked c, s, is) => is = [] ∧ c.Waits s ∧ V.Promises c s ahead res left

/-- A driven program keeps its promise. -/
theorem Promises.drive {c : Coro S I E α} {s : S} {is js : List I} {res : Except E α}
    {left : List B}
    (h : V.Promises c s (is.flatMap V.content ++ js.flatMap V.content) res left) :
    V.Kept (js.flatMap V.content) res left (c.drive s is) := by
  -- to run the program at once on the chunks and on what is ahead
  have hsplit (ks : List I) := Coro.run_append_eq_drive c s is (ks.map .chunk)
  simp only [← List.map_append] at hsplit
  rcases hd : c.drive s is with ⟨r | c', s', is'⟩
  · obtain ⟨hres, hok, hleft⟩ := h [] (is ++ js) (by simp)
    simp only [hsplit, hd] at hres hok hleft
    refine ⟨hres, hok, ?_⟩
    rw [← List.append_nil left, ← hleft, pending, data_map_chunk, List.flatMap_append]
  · refine ⟨Coro.drive_eq_nil_of_blocked hd, Coro.waits_of_blocked hd, ?_⟩
    intro more ks hks
    have hrun := h more (is ++ ks) (by rw [List.flatMap_append, hks, List.append_assoc])
    simpa only [hsplit, hd] using hrun

end Buffered

end Foundation
