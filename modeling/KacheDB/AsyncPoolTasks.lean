import KacheDB.AsyncPool
import KacheDB.Foundation.Ledger
import Mathlib.Logic.Relation

/-!
# The asynchronous pool under tasks

`AsyncConnectionPool.get_connection` and `release_connection` run by any number of tasks.  Tasks
switch at an `await` only.  The sections under `_lock` have none within them, so that the lock is
always free where a task asks for it and taking it is no switch; there remain two places in which
`get_connection` waits: `open_connection`, and the round trip of `AUTH`.  Whatever a task does
between two of them is one `Step`.  A task may be cancelled where it waits, transports may be lost
at any time, and anyone may call `disconnect_all`.

No stream is in two hands (`reachable_bounded`).  The limit holds of what is idle, checked out or
being opened, as long as `disconnect_all` is called when nothing is out: it sets the counter to 0,
and what is out at that time is a debt by which the pool may exceed its limit.

`getConnection_steps` and `releaseConnection_steps` say that a task that runs alone does what the
methods of the sequential model do.
-/

namespace KacheDB

open Foundation

namespace AsyncPoolTasks

/-- The identity of a stream. -/
abbrev StreamId := ℕ

/-- Where a task is: between two calls, or where `get_connection` waits. -/
inductive PC : Type where
  | idle
  /-- `await asyncio.open_connection(...)` -/
  | opening
  /-- The round trip of `AUTH`. -/
  | authenticating (c : StreamId)

/-- A task: where it is and which streams it has checked out. -/
structure Task where
  pc : PC
  held : List StreamId

/-- The stream that is being authenticated. -/
def PC.inHand : PC → Multiset StreamId
  | .authenticating c => {c}
  | _ => 0

/-- All streams of a task. -/
def Task.owned (t : Task) : Multiset StreamId :=
  t.pc.inHand + t.held

/-- The number of streams that a task has checked out or is opening. -/
def Task.out (t : Task) : ℕ :=
  match t.pc with
  | .idle => t.held.length
  | _ => t.held.length + 1

/-- The pool with its tasks: what it is made with, its queue and its counter, the streams with a
closing transport, the identity of the next new stream, the tasks, and the number of streams that
were out when `disconnect_all` was last called. -/
structure State (ι : Type) where
  maxConnections : ℕ
  ssl : Bool
  hasPassword : Bool
  queue : List StreamId
  activeCount : ℤ
  closing : StreamId → Bool
  next : StreamId
  tasks : ι → Task
  debt : ℕ

variable {ι : Type}

namespace State

/-- A new pool and tasks with no stream. -/
def init (maxConnections : ℕ) (ssl hasPassword : Bool) : State ι :=
  ⟨maxConnections, ssl, hasPassword, [], 0, fun _ => false, 0, fun _ => ⟨.idle, []⟩, 0⟩

/-- `put_nowait` would raise `QueueFull`. -/
def isFull (s : State ι) : Prop :=
  0 < s.maxConnections ∧ s.maxConnections ≤ s.queue.length

/-- The state with task `i` replaced. -/
def put [DecidableEq ι] (s : State ι) (i : ι) (t : Task) : State ι :=
  { s with tasks := Function.update s.tasks i t }

/-- `self._active_count += 1` -/
def counting (s : State ι) : State ι :=
  { s with activeCount := s.activeCount + 1 }

/-- `self._active_count -= 1` -/
def discounting (s : State ι) : State ι :=
  { s with activeCount := s.activeCount - 1 }

/-- `writer.close()`, or the transport is lost. -/
def close (s : State ι) (c : StreamId) : State ι :=
  { s with closing := Function.update s.closing c true }

/-- `open_connection` has given a new stream. -/
def opened (s : State ι) : State ι :=
  { s with next := s.next + 1, closing := Function.update s.closing s.next false }

/-- `disconnect_all` -/
def disconnectAll [Fintype ι] (s : State ι) : State ι :=
  { s with
    queue := []
    closing := fun c => s.closing c || decide (c ∈ s.queue)
    activeCount := 0
    debt := ∑ i, (s.tasks i).out }

end State

/-- `get_nowait` gives no stream that can be used: the queue is empty, or a stale stream is closed
and no longer counted. -/
inductive Uncached (s : State ι) : State ι → Prop
  | empty (hq : s.queue = []) : Uncached s s
  | stale (c : StreamId) (queue : List StreamId) (hq : s.queue = c :: queue)
      (hclosing : s.closing c = true) :
      Uncached s ({ s with queue := queue }.close c).discounting

/-- What task `i` does between two switches. -/
inductive Step [DecidableEq ι] (s : State ι) (i : ι) : State ι → Prop
  /-- An idle stream is handed out. -/
  | cached (c : StreamId) (queue held : List StreamId) (ht : s.tasks i = ⟨.idle, held⟩)
      (hq : s.queue = c :: queue) (hopen : s.closing c = false) :
      Step s i ({ s with queue := queue }.put i ⟨.idle, c :: held⟩)
  /-- `PoolExhaustedError` is raised. -/
  | exhausted (s₁ : State ι) (held : List StreamId) (ht : s.tasks i = ⟨.idle, held⟩)
      (hcached : Uncached s s₁) (hfull : s₁.maxConnections ≤ s₁.activeCount) : Step s i s₁
  /-- The TLS context raises, behind the increment. -/
  | tlsRaises (s₁ : State ι) (held : List StreamId) (ht : s.tasks i = ⟨.idle, held⟩)
      (hcached : Uncached s s₁) (hroom : s₁.activeCount < s₁.maxConnections)
      (hssl : s.ssl = true) : Step s i s₁.counting
  /-- A stream is to be opened. -/
  | enters (s₁ : State ι) (held : List StreamId) (ht : s.tasks i = ⟨.idle, held⟩)
      (hcached : Uncached s s₁) (hroom : s₁.activeCount < s₁.maxConnections) :
      Step s i (s₁.counting.put i ⟨.opening, held⟩)
  /-- `open_connection` raises an `OSError`. -/
  | refused (held : List StreamId) (ht : s.tasks i = ⟨.opening, held⟩) :
      Step s i (s.discounting.put i ⟨.idle, held⟩)
  /-- `open_connection` raises something else, or is cancelled. -/
  | openRaises (held : List StreamId) (ht : s.tasks i = ⟨.opening, held⟩) :
      Step s i (s.put i ⟨.idle, held⟩)
  /-- The new stream is handed out. -/
  | opened (held : List StreamId) (ht : s.tasks i = ⟨.opening, held⟩)
      (hpassword : s.hasPassword = false) :
      Step s i (s.opened.put i ⟨.idle, s.next :: held⟩)
  /-- `AUTH` is sent on the new stream. -/
  | openedAuth (held : List StreamId) (ht : s.tasks i = ⟨.opening, held⟩)
      (hpassword : s.hasPassword = true) :
      Step s i (s.opened.put i ⟨.authenticating s.next, held⟩)
  /-- `AUTH` is answered with OK. -/
  | authOk (c : StreamId) (held : List StreamId) (ht : s.tasks i = ⟨.authenticating c, held⟩) :
      Step s i (s.put i ⟨.idle, c :: held⟩)
  /-- `AUTH` is answered with something else. -/
  | authRefused (c : StreamId) (held : List StreamId)
      (ht : s.tasks i = ⟨.authenticating c, held⟩) :
      Step s i ((s.close c).discounting.put i ⟨.idle, held⟩)
  /-- The round trip of `AUTH` raises or is cancelled. -/
  | authRaises (c : StreamId) (held : List StreamId)
      (ht : s.tasks i = ⟨.authenticating c, held⟩) : Step s i (s.put i ⟨.idle, held⟩)
  /-- `release_connection` puts the stream into the queue. -/
  | putNowait (c : StreamId) (held : List StreamId) (ht : s.tasks i = ⟨.idle, held⟩)
      (hc : c ∈ held) (hopen : s.closing c = false) (hroom : ¬ s.isFull) :
      Step s i ({ s with queue := s.queue ++ [c] }.put i ⟨.idle, held.erase c⟩)
  /-- `release_connection` closes the stream. -/
  | drop (c : StreamId) (held : List StreamId) (ht : s.tasks i = ⟨.idle, held⟩) (hc : c ∈ held)
      (hclose : s.closing c = true ∨ s.isFull) :
      Step s i ((s.close c).discounting.put i ⟨.idle, held.erase c⟩)

/-- What happens next: a task goes on, a transport is lost, or `disconnect_all` is called. -/
inductive Next [DecidableEq ι] [Fintype ι] (s : State ι) : State ι → Prop
  | task (i : ι) (s' : State ι) (h : Step s i s') : Next s s'
  | lost (c : StreamId) : Next s (s.close c)
  | disconnectAll : Next s s.disconnectAll

/-- The states that some run reaches. -/
def Reachable [DecidableEq ι] [Fintype ι] (maxConnections : ℕ) (ssl hasPassword : Bool)
    (s : State ι) : Prop :=
  Relation.ReflTransGen Next (.init maxConnections ssl hasPassword) s

/-! ## What a step does -/

section Effects

variable [DecidableEq ι] {s s' s₁ : State ι} {i : ι} {t : Task}

/-- What one step of task `i` does to the queue, the task and the counter. -/
structure Effect (s : State ι) (i : ι) (s' : State ι) (t : Task) : Prop where
  /-- The other tasks stay where they are. -/
  tasks : s'.tasks = Function.update s.tasks i t
  maxConnections : s'.maxConnections = s.maxConnections
  debt : s'.debt = s.debt
  /-- Streams move between the queue and the task or are dropped, and a new one is new. -/
  owned : (s'.queue + t.owned ≤ s.queue + (s.tasks i).owned ∧ s'.next = s.next) ∨
    ((s'.queue + t.owned : Multiset StreamId) = s.next ::ₘ (s.queue + (s.tasks i).owned) ∧
      s'.next = s.next + 1)
  /-- The counter covers the queue and the task as well as before. -/
  covered : s.activeCount - s.queue.length - (s.tasks i).out ≤
    s'.activeCount - s'.queue.length - t.out
  /-- The counter does not pass the limit. -/
  limit : s'.activeCount ≤ s.activeCount ∨ s'.activeCount ≤ s.maxConnections

omit [DecidableEq ι] in
/-- A look into the queue that gives no stream. -/
lemma Uncached.spec (h : Uncached s s₁) :
    s₁.tasks = s.tasks ∧ s₁.maxConnections = s.maxConnections ∧ s₁.debt = s.debt ∧
      s₁.next = s.next ∧ (s₁.queue : Multiset StreamId) ≤ s.queue ∧
      s.activeCount - s.queue.length = s₁.activeCount - s₁.queue.length ∧
      s₁.activeCount ≤ s.activeCount := by
  cases h with
  | empty hq => exact ⟨rfl, rfl, rfl, rfl, le_rfl, rfl, le_rfl⟩
  | stale c queue hq hclosing =>
    refine ⟨rfl, rfl, rfl, rfl, ?_, ?_, ?_⟩
    · rw [hq, ← Multiset.cons_coe]
      exact Multiset.le_cons_self _ c
    · simp only [State.discounting, State.close, hq, List.length_cons]
      omega
    · simp only [State.discounting, State.close]
      omega

/-- Every step has such an effect. -/
theorem Step.effect (h : Step s i s') : ∃ t, Effect s i s' t := by
  cases h with
  | cached c queue held ht hq hopen =>
    refine ⟨_, rfl, rfl, rfl, .inl ⟨?_, rfl⟩, ?_, .inl le_rfl⟩
    · simp [Task.owned, PC.inHand, ht, hq, State.put, ← Multiset.cons_coe]
    · simp [Task.out, ht, hq, State.put]
      omega
  | exhausted _ held ht hcached hfull =>
    obtain ⟨htasks, hmax, hdebt, hnext, hqueue, hcount, hle⟩ := hcached.spec
    refine ⟨s.tasks i, ?_, hmax, hdebt, .inl ⟨?_, hnext⟩, ?_, .inl hle⟩
    · rw [htasks, Function.update_eq_self]
    · exact add_le_add_left hqueue _
    · omega
  | tlsRaises s₁ held ht hcached hroom hssl =>
    obtain ⟨htasks, hmax, hdebt, hnext, hqueue, hcount, hle⟩ := hcached.spec
    refine ⟨s.tasks i, ?_, hmax, hdebt, .inl ⟨?_, hnext⟩, ?_, .inr ?_⟩
    · rw [State.counting, htasks, Function.update_eq_self]
    · exact add_le_add_left hqueue _
    · simp only [State.counting]
      omega
    · simp only [State.counting]
      omega
  | enters s₁ held ht hcached hroom =>
    obtain ⟨htasks, hmax, hdebt, hnext, hqueue, hcount, hle⟩ := hcached.spec
    refine ⟨⟨.opening, held⟩, ?_, hmax, hdebt, .inl ⟨?_, hnext⟩, ?_, .inr ?_⟩
    · rw [State.put, State.counting, htasks]
    · rw [ht]
      exact add_le_add_left hqueue _
    · simp only [State.put, State.counting, Task.out, ht]
      omega
    · simp only [State.put, State.counting]
      omega
  | refused held ht =>
    refine ⟨_, rfl, rfl, rfl, .inl ⟨?_, rfl⟩, ?_, .inl ?_⟩
    · simp [Task.owned, PC.inHand, ht, State.put, State.discounting]
    · simp [Task.out, ht, State.put, State.discounting]
      omega
    · simp [State.put, State.discounting]
  | openRaises held ht =>
    refine ⟨_, rfl, rfl, rfl, .inl ⟨?_, rfl⟩, ?_, .inl le_rfl⟩
    · simp [Task.owned, PC.inHand, ht, State.put]
    · simp [Task.out, ht, State.put]
      omega
  | opened held ht hpassword =>
    refine ⟨_, rfl, rfl, rfl, .inr ⟨?_, rfl⟩, ?_, .inl le_rfl⟩
    · simp [Task.owned, PC.inHand, ht, State.put, State.opened, ← Multiset.cons_coe]
    · simp [Task.out, ht, State.put, State.opened]
  | openedAuth held ht hpassword =>
    refine ⟨_, rfl, rfl, rfl, .inr ⟨?_, rfl⟩, ?_, .inl le_rfl⟩
    · simp [Task.owned, PC.inHand, ht, State.put, State.opened]
    · simp [Task.out, ht, State.put, State.opened]
  | authOk c held ht =>
    refine ⟨_, rfl, rfl, rfl, .inl ⟨?_, rfl⟩, ?_, .inl le_rfl⟩
    · simp [Task.owned, PC.inHand, ht, State.put]
    · simp [Task.out, ht, State.put]
  | authRefused c held ht =>
    refine ⟨_, rfl, rfl, rfl, .inl ⟨?_, rfl⟩, ?_, .inl ?_⟩
    · rw [ht]
      exact add_le_add_cons s.queue held c
    · simp [Task.out, ht, State.put, State.discounting, State.close]
      omega
    · simp [State.put, State.discounting, State.close]
  | authRaises c held ht =>
    refine ⟨_, rfl, rfl, rfl, .inl ⟨?_, rfl⟩, ?_, .inl le_rfl⟩
    · rw [ht]
      exact add_le_add_cons s.queue held c
    · simp [Task.out, ht, State.put]
      omega
  | putNowait c held ht hc hopen hroom =>
    have hlength := List.length_erase_add_one hc
    refine ⟨_, rfl, rfl, rfl, .inl ⟨?_, rfl⟩, ?_, .inl le_rfl⟩
    · simp [Task.owned, PC.inHand, ht, State.put, ← Multiset.coe_add, add_assoc,
        Multiset.singleton_add, cons_coe_erase hc]
    · simp [Task.out, ht, State.put]
      omega
  | drop c held ht hc hclose =>
    have hlength := List.length_erase_add_one hc
    refine ⟨_, rfl, rfl, rfl, .inl ⟨?_, rfl⟩, ?_, .inl ?_⟩
    · have herase : ((held.erase c : List StreamId) : Multiset StreamId) ≤ held :=
        (List.erase_sublist).subperm
      rw [ht]
      exact add_le_add_right (add_le_add_right herase _) _
    · simp [Task.out, ht, State.put, State.discounting, State.close]
      omega
    · simp [State.put, State.discounting, State.close]

end Effects

/-! ## The invariant -/

section Invariant

variable [Fintype ι]

/-- All streams that are idle or belong to a task, with their multiplicities. -/
def State.owners (s : State ι) : Multiset StreamId :=
  holdings s.queue fun i => (s.tasks i).owned

/-- The number of streams that are idle, checked out or being opened. -/
def State.total (s : State ι) : ℕ :=
  s.queue.length + ∑ i, (s.tasks i).out

/-- No stream is in two places, every stream is older than the next new one, and the counter and the
debt cover all streams. -/
structure Inv (s : State ι) : Prop where
  nodup : s.owners.Nodup
  old : ∀ c ∈ s.owners, c < s.next
  covered : (s.total : ℤ) ≤ s.activeCount + s.debt
  limit : s.activeCount ≤ s.maxConnections

variable {s s' : State ι} {i : ι} {t : Task} [DecidableEq ι]

/-- What a step does to all streams. -/
lemma Effect.owners (h : Effect s i s' t) :
    (s'.owners ≤ s.owners ∧ s'.next = s.next) ∨
      (s'.owners = s.next ::ₘ s.owners ∧ s'.next = s.next + 1) := by
  have howned : (fun j => (s'.tasks j).owned) =
      Function.update (fun j => (s.tasks j).owned) i t.owned := by
    rw [h.tasks]
    exact Function.comp_update Task.owned s.tasks i t
  rw [State.owners, howned]
  rcases h.owned with ⟨hle, hnext⟩ | ⟨heq, hnext⟩
  · exact .inl ⟨holdings_le hle, hnext⟩
  · exact .inr ⟨holdings_cons heq, hnext⟩

/-- Every step preserves the invariant. -/
theorem Inv.step (hs : Inv s) (h : Step s i s') : Inv s' := by
  obtain ⟨t, ht⟩ := h.effect
  obtain ⟨hnodup, hold⟩ := nodup_and_lt_of_numbered hs.nodup hs.old ht.owners
  refine ⟨hnodup, hold, ?_, ?_⟩
  · have hsum := sum_update_add (fun j => (s.tasks j).out) i t.out
    have hout : (fun j => (s'.tasks j).out) =
        Function.update (fun j => (s.tasks j).out) i t.out := by
      rw [ht.tasks]
      exact Function.comp_update Task.out s.tasks i t
    simp only [← hout] at hsum
    have hcovered := hs.covered
    have hstep := ht.covered
    rw [ht.debt]
    unfold State.total at hcovered ⊢
    omega
  · rw [ht.maxConnections]
    exact ht.limit.elim (fun hle => hle.trans hs.limit) id

/-- Whatever happens next preserves the invariant. -/
theorem Inv.next (hs : Inv s) (h : Next s s') : Inv s' := by
  cases h with
  | task i _ h => exact hs.step h
  | lost c => exact ⟨hs.nodup, hs.old, hs.covered, hs.limit⟩
  | disconnectAll =>
    -- the streams of the tasks are still there, and are the debt
    have hle : s.disconnectAll.owners ≤ s.owners := add_le_add_left (Multiset.zero_le _) _
    refine ⟨Multiset.nodup_of_le hle hs.nodup, fun c hc => hs.old c (Multiset.mem_of_le hle hc), ?_,
      ?_⟩
    · simp [State.total, State.disconnectAll]
    · simp [State.disconnectAll]

/-- The invariant holds in every reachable state. -/
theorem Reachable.inv {maxConnections : ℕ} {ssl hasPassword : Bool}
    (h : Reachable maxConnections ssl hasPassword s) : Inv s := by
  induction h with
  | refl =>
    constructor <;>
      simp [State.init, State.owners, holdings, State.total, Task.owned, Task.out, PC.inHand]
  | tail _ hnext ih => exact ih.next hnext

/-- **The asynchronous pool under tasks.**  In every state that any run of any number of tasks
reaches, with transports lost, tasks cancelled and `disconnect_all` called at any time: no stream is
checked out by two tasks or twice by one, or checked out and idle; and what is idle, checked out or
being opened passes the limit by at most what was out when `disconnect_all` was last called. -/
theorem reachable_bounded (maxConnections : ℕ) (ssl hasPassword : Bool) (s : State ι)
    (h : Reachable maxConnections ssl hasPassword s) :
    (∀ i j c, i ≠ j → c ∈ (s.tasks i).owned → c ∉ (s.tasks j).owned) ∧
    (∀ i, (s.tasks i).owned.Nodup) ∧ (∀ i c, c ∈ (s.tasks i).owned → c ∉ s.queue) ∧
    s.total ≤ maxConnections + s.debt := by
  have hinv := h.inv
  have hmax : s.maxConnections = maxConnections := by
    clear hinv
    induction h with
    | refl => rfl
    | tail _ hnext ih =>
      rw [← ih]
      cases hnext with
      | task i _ h =>
        obtain ⟨t, ht⟩ := h.effect
        exact ht.maxConnections
      | lost c => rfl
      | disconnectAll => rfl
  refine ⟨fun i j c hij hi => not_mem_held_of_ne hinv.nodup hij hi, fun i => ?_,
    fun i c hi => not_mem_store hinv.nodup hi, ?_⟩
  · have hle := store_add_held_le (s.queue : Multiset StreamId) (fun i => (s.tasks i).owned) i
    exact Multiset.nodup_of_le ((Multiset.le_add_left _ _).trans hle) hinv.nodup
  · have hcovered := hinv.covered
    have hlimit := hinv.limit
    omega

end Invariant

/-- With a stream out when `disconnect_all` is called, a pool of one connection has two. -/
theorem reachable_bounded_two :
    ∃ s : State (Fin 2), Reachable 1 false false s ∧ s.total = 2 ∧ s.debt = 1 ∧
      s.total ≤ 1 + s.debt := by
  have h₀ : Reachable 1 false false (.init 1 false false : State (Fin 2)) := .refl
  have h₁ := h₀.tail (.task 0 _ (.enters _ [] rfl (.empty rfl) (by decide)))
  have h₂ := h₁.tail (.task 0 _ (.opened [] rfl rfl))
  have h₃ := h₂.tail .disconnectAll
  have h₄ := h₃.tail (.task 1 _ (.enters _ [] rfl (.empty rfl) (by decide)))
  have h₅ := h₄.tail (.task 1 _ (.opened [] rfl rfl))
  exact ⟨_, h₅, rfl, rfl, (reachable_bounded 1 false false _ h₅).2.2.2⟩

/-! ## A task that runs alone -/

section Alone

variable {s s₁ : State ι} {i : ι} {p : AsyncConnectionPool} {c : StreamId}
  {held : List StreamId} {limit : ℕ}

/-- The pool of the sequential model in this state. -/
structure Shows (p : AsyncConnectionPool) (s : State ι) : Prop where
  maxConnections_eq : s.maxConnections = p.maxConnections
  ssl_eq : s.ssl = p.ssl
  password_eq : s.hasPassword = p.password.isSome
  closing_eq : s.queue.map s.closing = p.pool.map AsyncStream.closing
  count_eq : s.activeCount = p.activeCount

/-- A call of `get_connection` has this outcome, and the task has what was handed out. -/
def HandsOut (held : List StreamId) (s : State ι) (i : ι) : Except Exc AsyncStream → Prop
  | .ok stream => ∃ c, s.tasks i = ⟨.idle, c :: held⟩ ∧ s.closing c = stream.closing
  | .error _ => s.tasks i = ⟨.idle, held⟩

/-- The transports of other streams do not matter for the queue. -/
lemma map_closing_update {queue : List StreamId} {closing : StreamId → Bool} (hc : c ∉ queue)
    (b : Bool) : queue.map (Function.update closing c b) = queue.map closing := by
  refine List.map_congr_left fun c' hc' => ?_
  have hne : c' ≠ c := by
    rintro rfl
    exact hc hc'
  exact Function.update_of_ne hne _ _

namespace Shows

lemma counting (hp : Shows p s) : Shows p.counting s.counting :=
  ⟨hp.1, hp.2, hp.3, hp.4, congrArg (· + 1) hp.5⟩

lemma discounting (hp : Shows p s) : Shows p.discounting s.discounting :=
  ⟨hp.1, hp.2, hp.3, hp.4, congrArg (· - 1) hp.5⟩

lemma opened (hp : Shows p s) (hnext : s.next ∉ s.queue) : Shows p s.opened :=
  ⟨hp.1, hp.2, hp.3, (map_closing_update hnext false).trans hp.4, hp.5⟩

lemma close (hp : Shows p s) (hc : c ∉ s.queue) : Shows p (s.close c) :=
  ⟨hp.1, hp.2, hp.3, (map_closing_update hc true).trans hp.4, hp.5⟩

variable [DecidableEq ι]

lemma put (hp : Shows p s) (i : ι) (t : Task) : Shows p (s.put i t) :=
  ⟨hp.1, hp.2, hp.3, hp.4, hp.5⟩

end Shows

/-- A round trip that gives a value leaves the transport as it was. -/
lemma closing_roundTrip {stream stream' : AsyncStream} {args : List Arg} {x : Exchange}
    {v : RespValue} (h : stream.roundTrip limit args x = (.ok v, stream')) :
    stream'.closing = stream.closing := by
  unfold AsyncStream.roundTrip AsyncStream.writeDrain at h
  cases hsend : x.sendOutcome with
  | error e => simp [hsend] at h
  | ok _ =>
    simp only [hsend, AsyncStream.readResponse_eq, Prod.mk.injEq] at h
    obtain ⟨hres, rfl⟩ := h
    simp [AsyncStream.closedBy, hres]

variable [DecidableEq ι]

/-- The steps of one task. -/
abbrev Steps (i : ι) : State ι → State ι → Prop :=
  Relation.ReflTransGen fun s s' => Step s i s'

/-- Behind the opening of a connection, a task does what the sequential model does. -/
lemma opening_steps (ht : s.tasks i = ⟨.opening, held⟩) (hp : Shows p s)
    (hnext : s.next ∉ s.queue) (limit : ℕ) (auth : Exchange) :
    (p.password = none → ∃ s', Steps i s s' ∧ Shows p s' ∧ HandsOut held s' i (.ok .opened)) ∧
    ∀ password, p.password = some password →
      ∃ s', Steps i s s' ∧
        match AsyncStream.opened.roundTrip limit [.str "AUTH", .str password] auth with
        | (.error e, _) => Shows p s' ∧ HandsOut held s' i (.error e)
        | (.ok res, stream) =>
          if res.isOK then Shows p s' ∧ HandsOut held s' i (.ok stream)
          else Shows p.discounting s' ∧
            HandsOut held s' i (.error (.authenticationFailed res)) := by
  have hopened : Shows p s.opened := hp.opened hnext
  have hthere (s : State ι) (t : Task) : (s.put i t).tasks i = t := Function.update_self ..
  have hclosing : s.opened.closing s.next = false := Function.update_self ..
  constructor
  · intro hpassword
    have hno : s.hasPassword = false := by
      rw [hp.password_eq, hpassword]
      rfl
    exact ⟨_, .single (.opened held ht hno), hopened.put i _, _, hthere _ _, hclosing⟩
  · intro password hpassword
    have hyes : s.hasPassword = true := by
      rw [hp.password_eq, hpassword]
      rfl
    have hauth : Steps i s (s.opened.put i ⟨.authenticating s.next, held⟩) :=
      .single (.openedAuth held ht hyes)
    have hp' : Shows p (s.opened.put i ⟨.authenticating s.next, held⟩) := hopened.put i _
    rcases hrt : AsyncStream.opened.roundTrip limit [.str "AUTH", .str password] auth with
      ⟨e | res, stream⟩
    · exact ⟨_, hauth.tail (.authRaises _ held (hthere _ _)), hp'.put i _, hthere _ _⟩
    · dsimp only
      split_ifs with hok
      · refine ⟨_, hauth.tail (.authOk _ held (hthere _ _)), hp'.put i _, _, hthere _ _, ?_⟩
        exact hclosing.trans (closing_roundTrip hrt).symm
      · exact ⟨_, hauth.tail (.authRefused _ held (hthere _ _)),
          (hp'.close hnext).discounting.put i _, hthere _ _⟩

/-- What `createConnection` does, a task does that has found no stream in the queue. -/
lemma createConnection_steps (ht : s.tasks i = ⟨.idle, held⟩) (hcached : Uncached s s₁)
    (hp : Shows p s₁) (hnext : s.next ∉ s₁.queue) (limit : ℕ) (env : AsyncAcquire) :
    ∃ s', Steps i s s' ∧ Shows (p.createConnection limit env).2 s' ∧
      HandsOut held s' i (p.createConnection limit env).1 := by
  obtain ⟨htasks, hmax, -, hnext', -, -, -⟩ := hcached.spec
  have ht₁ : s₁.tasks i = ⟨.idle, held⟩ := by rw [htasks, ht]
  have hssl : s.ssl = s₁.ssl := by cases hcached <;> rfl
  unfold AsyncConnectionPool.createConnection
  split_ifs with hfull
  · rw [← hp.count_eq, ← hp.maxConnections_eq] at hfull
    exact ⟨s₁, .single (.exhausted s₁ held ht hcached hfull), hp, ht₁⟩
  have hroom : s₁.activeCount < s₁.maxConnections := by
    rw [hp.count_eq, hp.maxConnections_eq]
    exact not_le.mp hfull
  rcases htls : p.tlsContext env with e | _
  · -- only a pool that uses TLS sets up its context
    have hssl' : s.ssl = true := by
      rw [hssl, hp.ssl_eq]
      by_contra hno
      simp [AsyncConnectionPool.tlsContext, hno] at htls
    exact ⟨_, .single (.tlsRaises s₁ held ht hcached hroom hssl'), hp.counting, ht₁⟩
  -- the task waits for the connection
  have henter : Steps i s (s₁.counting.put i ⟨.opening, held⟩) :=
    .single (.enters s₁ held ht hcached hroom)
  have hthere (s : State ι) (t : Task) : (s.put i t).tasks i = t := Function.update_self ..
  have hcount : Shows p.counting (s₁.counting.put i ⟨.opening, held⟩) := hp.counting.put i _
  have hfresh : (s₁.counting.put i ⟨.opening, held⟩).next ∉ s₁.queue := by
    rw [State.put, State.counting, hnext']
    exact hnext
  obtain ⟨hplain, hauth⟩ := opening_steps (hthere _ _) hcount hfresh limit env.auth
  have hrefused : ∃ s', Steps i s s' ∧ Shows p.counting.discounting s' ∧
      s'.tasks i = ⟨.idle, held⟩ :=
    ⟨_, henter.tail (.refused held (hthere _ _)), hcount.discounting.put i _, hthere _ _⟩
  dsimp only
  split
  · exact hrefused
  · exact hrefused
  · exact ⟨_, henter.tail (.openRaises held (hthere _ _)), hcount.put i _, hthere _ _⟩
  · cases hpassword : p.password with
    | none =>
      obtain ⟨s', hsteps, hend⟩ := hplain hpassword
      exact ⟨s', henter.trans hsteps, hend⟩
    | some password =>
      obtain ⟨s', hsteps, hend⟩ := hauth password hpassword
      dsimp only
      rcases hrt : AsyncStream.opened.roundTrip limit [.str "AUTH", .str password] env.auth with
        ⟨e | res, stream⟩
      · rw [hrt] at hend
        exact ⟨s', henter.trans hsteps, hend⟩
      · rw [hrt] at hend
        dsimp only at hend ⊢
        split_ifs at hend ⊢ with hok
        · exact ⟨s', henter.trans hsteps, hend⟩
        · exact ⟨s', henter.trans hsteps, hend⟩

/-- **A task that runs alone acquires what `get_connection` gives it**, and leaves the pool that
this leaves. -/
theorem getConnection_steps [Fintype ι] (hs : Inv s) (ht : s.tasks i = ⟨.idle, held⟩)
    (hp : Shows p s) (limit : ℕ) (env : AsyncAcquire) :
    ∃ s', Steps i s s' ∧ Shows (p.getConnection limit env).2 s' ∧
      HandsOut held s' i (p.getConnection limit env).1 := by
  have hnodup : s.queue.Nodup :=
    Multiset.coe_nodup.mp (Multiset.nodup_of_le (Multiset.le_add_right _ _) hs.nodup)
  have hold (c : StreamId) (hc : c ∈ s.queue) : c < s.next :=
    hs.old c (Multiset.mem_of_le (Multiset.le_add_right _ _) (Multiset.mem_coe.mpr hc))
  have hclosing := hp.closing_eq
  cases hqueue : s.queue with
  | nil =>
    have hpool : p.pool = [] := by simpa [hqueue] using hclosing.symm
    rw [AsyncConnectionPool.getConnection, hpool]
    exact createConnection_steps ht (.empty hqueue) hp (by simp [hqueue]) limit env
  | cons c queue =>
    rw [hqueue] at hnodup
    obtain ⟨hc, -⟩ := List.nodup_cons.mp hnodup
    cases hpool : p.pool with
    | nil => simp [hqueue, hpool] at hclosing
    | cons stream idle =>
      rw [hqueue, hpool, List.map_cons, List.map_cons] at hclosing
      obtain ⟨hhead, htail⟩ := List.cons.inj hclosing
      have hrest : Shows { p with pool := idle } { s with queue := queue } :=
        ⟨hp.1, hp.2, hp.3, htail, hp.5⟩
      rw [AsyncConnectionPool.getConnection, hpool]
      dsimp only
      split_ifs with hstale
      · have hclosed : s.closing c = true := hhead.trans hstale
        refine createConnection_steps ht (.stale c queue hqueue hclosed) ?_ ?_ limit env
        · exact (hrest.close hc).discounting
        · intro hmem
          have hmem' : s.next ∈ queue := hmem
          exact (hold s.next (hqueue ▸ List.mem_cons_of_mem c hmem')).false
      · have hopen : s.closing c = false := hhead.trans (Bool.eq_false_iff.mpr hstale)
        exact ⟨_, .single (.cached c queue held ht hqueue hopen), hrest.put i _, c,
          Function.update_self .., hhead⟩

/-- **A task that releases a stream does what `release_connection` does.** -/
theorem releaseConnection_steps [Fintype ι] (hs : Inv s) (ht : s.tasks i = ⟨.idle, held⟩)
    (hp : Shows p s) (hc : c ∈ held) {stream : AsyncStream}
    (hclosing : s.closing c = stream.closing) :
    ∃ s', Step s i s' ∧ Shows (p.releaseConnection stream) s' ∧
      s'.tasks i = ⟨.idle, held.erase c⟩ := by
  have howned : c ∈ (s.tasks i).owned := by
    rw [ht]
    exact Multiset.mem_add.mpr (.inr (Multiset.mem_coe.mpr hc))
  have hqueue : c ∉ s.queue := not_mem_store hs.nodup howned
  have hlength : s.queue.length = p.pool.length := by
    simpa using congrArg List.length hp.closing_eq
  have hfull : s.isFull ↔ p.isFull = true := by
    rw [State.isFull, AsyncConnectionPool.isFull, hp.maxConnections_eq, hlength,
      decide_eq_true_iff]
  rw [AsyncConnectionPool.releaseConnection]
  split_ifs with hkeep
  · rw [Bool.and_eq_true, Bool.not_eq_true', Bool.not_eq_true', ← hclosing] at hkeep
    have hroom : ¬ s.isFull := by
      rw [hfull, hkeep.2]
      exact Bool.false_ne_true
    refine ⟨_, .putNowait c held ht hc hkeep.1 hroom, ⟨hp.1, hp.2, hp.3, ?_, hp.5⟩,
      Function.update_self ..⟩
    simp only [State.put, List.map_append, hp.closing_eq, List.map_cons, List.map_nil, hclosing]
  · have hclose : s.closing c = true ∨ s.isFull := by
      rw [hclosing, hfull]
      by_contra hno
      rw [not_or] at hno
      exact hkeep (by simp [hno.1, hno.2])
    exact ⟨_, .drop c held ht hc hclose, (hp.close hqueue).discounting.put i _,
      Function.update_self ..⟩

end Alone

end AsyncPoolTasks

end KacheDB
