import KacheDB.Pool
import KacheDB.Foundation.Ledger

/-!
# The connection pool under threads

`ConnectionPool.get_connection` and `release_connection` run by any number of threads whose
atomic steps interleave.  The queue has its own lock and the counter has `_lock`; what a thread
does with a connection between two such sections is a step of its own.

`PC` says where a thread is in one of the two methods and which connection it has in hand
there.  `Step` has one constructor for each atomic step, and the proofs rest on one lemma,
`Step.effect`, which says what any step does to the queue, to the thread that takes it and to
the counter.

The invariant `Inv` is a ledger: every connection in the queue, every connection that a thread
holds or has in hand, and every thread that still has to decrement the counter, is covered by
one unit of `_active_count`.
-/

namespace KacheDB

open Foundation

namespace PoolThreads

/-- The identity of a `Connection` object. -/
abbrev ConnId := ℕ

/-- Where a thread is: between calls, or in front of one of the atomic steps of a call. -/
inductive PC : Type where
  /-- Between two calls. -/
  | idle
  /-- `get_connection`: the health check of an idle connection. -/
  | checking (c : ConnId)
  /-- `get_connection`: closing a stale connection. -/
  | discarding (c : ConnId)
  /-- `get_connection`: the decrement for a stale connection. -/
  | uncounting
  /-- `get_connection`: the locked check of the limit with the increment. -/
  | entering
  /-- `get_connection`: `conn.connect()`. -/
  | connecting (c : ConnId)
  /-- `get_connection`: the `AUTH` command. -/
  | authenticating (c : ConnId)
  /-- `get_connection`: closing a connection whose `AUTH` was refused. -/
  | rejecting (c : ConnId)
  /-- `get_connection`: the decrement for a refused `AUTH`. -/
  | givingBack
  /-- `release_connection`: `put_nowait`. -/
  | putting (c : ConnId)
  /-- `release_connection`: closing the connection. -/
  | closing (c : ConnId)
  /-- `release_connection`: the decrement. -/
  | releasing

/-- The connection that a thread has in hand within a call. -/
def PC.inHand : PC → Multiset ConnId
  | .checking c => {c}
  | .discarding c => {c}
  | .connecting c => {c}
  | .authenticating c => {c}
  | .rejecting c => {c}
  | .putting c => {c}
  | .closing c => {c}
  | _ => 0

/-- The units of `_active_count` that cover the thread's call: one for a connection in hand,
and one for a decrement that is still to come. -/
def PC.credit : PC → ℕ
  | .idle => 0
  | .entering => 0
  | _ => 1

/-- A thread: where it is and which connections it has checked out. -/
structure Thread where
  pc : PC
  held : List ConnId

/-- All connections of a thread. -/
def Thread.owned (t : Thread) : Multiset ConnId :=
  t.pc.inHand + t.held

/-- The units of `_active_count` that cover a thread. -/
def Thread.credit (t : Thread) : ℕ :=
  t.pc.credit + t.held.length

/-- The pool with its threads: the limit, whether there is a password, the queue, the counter,
which connections are open, the identity of the next new connection, and the threads. -/
structure State (ι : Type) where
  maxConnections : ℕ
  hasPassword : Bool
  queue : List ConnId
  activeCount : ℤ
  isOpen : ConnId → Bool
  next : ConnId
  threads : ι → Thread

variable {ι : Type} [DecidableEq ι]

/-- A new pool and threads between two calls, with no connection. -/
def State.init (maxConnections : ℕ) (hasPassword : Bool) : State ι :=
  ⟨maxConnections, hasPassword, [], 0, fun _ => false, 0, fun _ => ⟨.idle, []⟩⟩

/-- `put_nowait` would raise `queue.Full`. -/
def State.isFull (s : State ι) : Prop :=
  0 < s.maxConnections ∧ s.maxConnections ≤ s.queue.length

/-- The state with thread `i` replaced. -/
def State.put (s : State ι) (i : ι) (t : Thread) : State ι :=
  { s with threads := Function.update s.threads i t }

/-- One atomic step of thread `i`. -/
inductive Step (s : State ι) (i : ι) : State ι → Prop
  /-- `get_nowait` gives an idle connection. -/
  | getNowait (c : ConnId) (queue : List ConnId) (held : List ConnId)
      (ht : s.threads i = ⟨.idle, held⟩) (hq : s.queue = c :: queue) :
      Step s i ({ s with queue := queue }.put i ⟨.checking c, held⟩)
  /-- `get_nowait` raises `queue.Empty`. -/
  | queueEmpty (held : List ConnId) (ht : s.threads i = ⟨.idle, held⟩) (hq : s.queue = []) :
      Step s i (s.put i ⟨.entering, held⟩)
  /-- The idle connection is open and healthy, and is returned. -/
  | healthy (c : ConnId) (held : List ConnId) (ht : s.threads i = ⟨.checking c, held⟩)
      (hopen : s.isOpen c = true) : Step s i (s.put i ⟨.idle, c :: held⟩)
  /-- The idle connection is closed, or its health check fails and may have closed it. -/
  | stale (c : ConnId) (held : List ConnId) (ht : s.threads i = ⟨.checking c, held⟩) (b : Bool) :
      Step s i ({ s with isOpen := Function.update s.isOpen c (b && s.isOpen c) }.put i
        ⟨.discarding c, held⟩)
  /-- The stale connection is closed. -/
  | discard (c : ConnId) (held : List ConnId) (ht : s.threads i = ⟨.discarding c, held⟩) :
      Step s i ({ s with isOpen := Function.update s.isOpen c false }.put i ⟨.uncounting, held⟩)
  /-- The counter is decremented for the stale connection. -/
  | uncount (held : List ConnId) (ht : s.threads i = ⟨.uncounting, held⟩) :
      Step s i ({ s with activeCount := s.activeCount - 1 }.put i ⟨.entering, held⟩)
  /-- The limit is reached: `PoolExhaustedError`. -/
  | exhausted (held : List ConnId) (ht : s.threads i = ⟨.entering, held⟩)
      (hfull : s.maxConnections ≤ s.activeCount) : Step s i (s.put i ⟨.idle, held⟩)
  /-- The counter is incremented for a new connection. -/
  | enter (held : List ConnId) (ht : s.threads i = ⟨.entering, held⟩)
      (hroom : s.activeCount < s.maxConnections) :
      Step s i ({ s with activeCount := s.activeCount + 1, next := s.next + 1 }.put i
        ⟨.connecting s.next, held⟩)
  /-- `connect` raises. -/
  | connectFails (c : ConnId) (held : List ConnId) (ht : s.threads i = ⟨.connecting c, held⟩) :
      Step s i (s.put i ⟨.idle, held⟩)
  /-- `connect` succeeds, and there is a password. -/
  | connectAuth (c : ConnId) (held : List ConnId) (ht : s.threads i = ⟨.connecting c, held⟩)
      (hpassword : s.hasPassword = true) :
      Step s i ({ s with isOpen := Function.update s.isOpen c true }.put i
        ⟨.authenticating c, held⟩)
  /-- `connect` succeeds, and the connection is returned. -/
  | connected (c : ConnId) (held : List ConnId) (ht : s.threads i = ⟨.connecting c, held⟩)
      (hpassword : s.hasPassword = false) :
      Step s i ({ s with isOpen := Function.update s.isOpen c true }.put i ⟨.idle, c :: held⟩)
  /-- The `AUTH` command raises and may have closed the connection. -/
  | authRaises (c : ConnId) (held : List ConnId) (ht : s.threads i = ⟨.authenticating c, held⟩)
      (b : Bool) :
      Step s i ({ s with isOpen := Function.update s.isOpen c (b && s.isOpen c) }.put i
        ⟨.idle, held⟩)
  /-- `AUTH` is answered with OK, and the connection is returned. -/
  | authOk (c : ConnId) (held : List ConnId) (ht : s.threads i = ⟨.authenticating c, held⟩) :
      Step s i (s.put i ⟨.idle, c :: held⟩)
  /-- `AUTH` is answered with something else. -/
  | authRefused (c : ConnId) (held : List ConnId)
      (ht : s.threads i = ⟨.authenticating c, held⟩) :
      Step s i (s.put i ⟨.rejecting c, held⟩)
  /-- The connection is closed. -/
  | reject (c : ConnId) (held : List ConnId) (ht : s.threads i = ⟨.rejecting c, held⟩) :
      Step s i ({ s with isOpen := Function.update s.isOpen c false }.put i ⟨.givingBack, held⟩)
  /-- The counter is decremented, and "Authentication failed" is raised. -/
  | giveBack (held : List ConnId) (ht : s.threads i = ⟨.givingBack, held⟩) :
      Step s i ({ s with activeCount := s.activeCount - 1 }.put i ⟨.idle, held⟩)
  /-- A command on a held connection fails and closes it. -/
  | commandFails (c : ConnId) (held : List ConnId) (ht : s.threads i = ⟨.idle, held⟩)
      (hc : c ∈ held) :
      Step s i ({ s with isOpen := Function.update s.isOpen c false }.put i ⟨.idle, held⟩)
  /-- A held connection is released; it is open. -/
  | releaseOpen (c : ConnId) (held : List ConnId) (ht : s.threads i = ⟨.idle, held⟩)
      (hc : c ∈ held) (hopen : s.isOpen c = true) :
      Step s i (s.put i ⟨.putting c, held.erase c⟩)
  /-- A held connection is released; it is closed. -/
  | releaseClosed (c : ConnId) (held : List ConnId) (ht : s.threads i = ⟨.idle, held⟩)
      (hc : c ∈ held) (hclosed : s.isOpen c = false) :
      Step s i (s.put i ⟨.closing c, held.erase c⟩)
  /-- `put_nowait` puts the connection into the queue. -/
  | putNowait (c : ConnId) (held : List ConnId) (ht : s.threads i = ⟨.putting c, held⟩)
      (hroom : ¬ s.isFull) :
      Step s i ({ s with queue := s.queue ++ [c] }.put i ⟨.idle, held⟩)
  /-- `put_nowait` raises `queue.Full`. -/
  | queueFull (c : ConnId) (held : List ConnId) (ht : s.threads i = ⟨.putting c, held⟩)
      (hfull : s.isFull) : Step s i (s.put i ⟨.closing c, held⟩)
  /-- The connection is closed. -/
  | close (c : ConnId) (held : List ConnId) (ht : s.threads i = ⟨.closing c, held⟩) :
      Step s i ({ s with isOpen := Function.update s.isOpen c false }.put i ⟨.releasing, held⟩)
  /-- The counter is decremented. -/
  | countDown (held : List ConnId) (ht : s.threads i = ⟨.releasing, held⟩) :
      Step s i ({ s with activeCount := s.activeCount - 1 }.put i ⟨.idle, held⟩)

/-- The states that some interleaving reaches. -/
def Reachable (maxConnections : ℕ) (hasPassword : Bool) (s : State ι) : Prop :=
  Relation.ReflTransGen (fun s s' => ∃ i, Step s i s') (.init maxConnections hasPassword) s

/-! ## What a step does -/

/-- What one step of thread `i` does to the queue, the thread and the counter. -/
structure Effect (s : State ι) (i : ι) (s' : State ι) (t : Thread) : Prop where
  /-- The other threads stay where they are. -/
  threads : s'.threads = Function.update s.threads i t
  maxConnections : s'.maxConnections = s.maxConnections
  /-- Connections move between the queue and the thread or are dropped, and a new one is new. -/
  owned : (s'.queue + t.owned ≤ s.queue + (s.threads i).owned ∧ s'.next = s.next) ∨
    ((s'.queue + t.owned : Multiset ConnId) = s.next ::ₘ (s.queue + (s.threads i).owned) ∧
      s'.next = s.next + 1)
  /-- The counter covers the queue and the thread as well as before. -/
  credit : s.activeCount - s.queue.length - (s.threads i).credit ≤
    s'.activeCount - s'.queue.length - t.credit
  /-- The counter does not pass the limit. -/
  limit : s'.activeCount ≤ s.activeCount ∨ s'.activeCount ≤ s.maxConnections
  /-- Only a connection in the thread's hand is opened. -/
  opened : ∀ c, s'.isOpen c = true → s.isOpen c = true ∨ c ∈ (s.threads i).pc.inHand
  /-- A connection that is about to be closed by a release is closed already, or the queue was
  full. -/
  closing : ∀ c, t.pc = .closing c →
    s'.isOpen c = false ∨ (s.threads i).pc = .putting c ∧ s.isFull

/-- Every step has such an effect. -/
theorem Step.effect {s s' : State ι} {i : ι} (h : Step s i s') : ∃ t, Effect s i s' t := by
  cases h with
  | getNowait c queue held ht hq =>
    refine ⟨_, rfl, rfl, .inl ⟨?_, rfl⟩, ?_, .inl le_rfl, fun c h => .inl h, by simp⟩
    · simp [Thread.owned, PC.inHand, ht, hq, State.put, ← Multiset.cons_coe,
        ← Multiset.singleton_add, add_comm, add_left_comm]
    · simp [Thread.credit, PC.credit, ht, hq, State.put]
      omega
  | enter held ht hroom =>
    refine ⟨_, rfl, rfl, .inr ⟨?_, rfl⟩, ?_, .inr ?_, fun c h => .inl h, by simp⟩
    · simp [Thread.owned, PC.inHand, ht, State.put]
    · simp [Thread.credit, PC.credit, ht, State.put]
      omega
    · simp [State.put]
      omega
  | releaseOpen c held ht hc =>
    refine ⟨_, rfl, rfl, .inl ⟨?_, rfl⟩, ?_, .inl le_rfl, fun c h => .inl h, by simp⟩
    · simp [Thread.owned, PC.inHand, ht, State.put, Multiset.singleton_add, cons_coe_erase hc]
    · have hlen := List.length_erase_add_one hc
      simp [Thread.credit, PC.credit, ht, State.put]
      omega
  | releaseClosed c held ht hc hclosed =>
    refine ⟨_, rfl, rfl, .inl ⟨?_, rfl⟩, ?_, .inl le_rfl, fun c h => .inl h, ?_⟩
    · simp [Thread.owned, PC.inHand, ht, State.put, Multiset.singleton_add, cons_coe_erase hc]
    · have hlen := List.length_erase_add_one hc
      simp [Thread.credit, PC.credit, ht, State.put]
      omega
    · rintro c' ⟨⟩
      exact .inl hclosed
  | queueFull c held ht hfull =>
    refine ⟨_, rfl, rfl, .inl ⟨?_, rfl⟩, ?_, .inl le_rfl, fun c h => .inl h, ?_⟩
    · simp [Thread.owned, PC.inHand, ht, State.put]
    · simp [Thread.credit, PC.credit, ht, State.put]
    · rintro c' ⟨⟩
      exact .inr ⟨by rw [ht], hfull⟩
  | putNowait c held ht hroom =>
    refine ⟨_, rfl, rfl, .inl ⟨?_, rfl⟩, ?_, .inl le_rfl, fun c h => .inl h, by simp⟩
    · simp [Thread.owned, PC.inHand, ht, State.put, ← Multiset.coe_add, add_assoc]
    · simp [Thread.credit, PC.credit, ht, State.put]
      omega
  | healthy c held ht hopen =>
    refine ⟨_, rfl, rfl, .inl ⟨?_, rfl⟩, ?_, .inl le_rfl, fun c h => .inl h, by simp⟩
    · simp [Thread.owned, PC.inHand, ht, State.put]
    · simp [Thread.credit, PC.credit, ht, State.put]
      omega
  | authOk c held ht =>
    refine ⟨_, rfl, rfl, .inl ⟨?_, rfl⟩, ?_, .inl le_rfl, fun c h => .inl h, by simp⟩
    · simp [Thread.owned, PC.inHand, ht, State.put]
    · simp [Thread.credit, PC.credit, ht, State.put]
      omega
  | connected c held ht =>
    refine ⟨_, rfl, rfl, .inl ⟨?_, rfl⟩, ?_, .inl le_rfl, ?_, by simp⟩
    · simp [Thread.owned, PC.inHand, ht, State.put]
    · simp [Thread.credit, PC.credit, ht, State.put]
      omega
    · intro c' h
      by_cases hc' : c' = c <;> simp_all [PC.inHand, State.put]
  | connectAuth c held ht =>
    refine ⟨_, rfl, rfl, .inl ⟨?_, rfl⟩, ?_, .inl le_rfl, ?_, by simp⟩
    · simp [Thread.owned, PC.inHand, ht, State.put]
    · simp [Thread.credit, PC.credit, ht, State.put]
    · intro c' h
      by_cases hc' : c' = c <;> simp_all [PC.inHand, State.put]
  | queueEmpty held ht | exhausted held ht | authRefused c held ht =>
    refine ⟨_, rfl, rfl, .inl ⟨?_, rfl⟩, ?_, .inl le_rfl, fun c h => .inl h, by simp⟩
    · simp [Thread.owned, PC.inHand, ht, State.put]
    · simp [Thread.credit, PC.credit, ht, State.put]
  | connectFails c held ht =>
    refine ⟨_, rfl, rfl, .inl ⟨?_, rfl⟩, ?_, .inl le_rfl, fun c h => .inl h, by simp⟩
    · simpa [Thread.owned, PC.inHand, ht, State.put] using add_le_add_cons s.queue held c
    · simp [Thread.credit, PC.credit, ht, State.put]
  | uncount held ht | giveBack held ht | countDown held ht =>
    refine ⟨_, rfl, rfl, .inl ⟨?_, rfl⟩, ?_, .inl (by simp [State.put]), fun c h => .inl h, by simp⟩
    · simp [Thread.owned, PC.inHand, ht, State.put]
    · simp [Thread.credit, PC.credit, ht, State.put]
      omega
  | stale c held ht b | commandFails c held ht =>
    refine ⟨_, rfl, rfl, .inl ⟨?_, rfl⟩, ?_, .inl le_rfl, ?_, by simp⟩
    · simp [Thread.owned, PC.inHand, ht, State.put]
    · simp [Thread.credit, PC.credit, ht, State.put]
    · intro c' h
      by_cases hc' : c' = c <;> simp_all [State.put]
  | discard c held ht | reject c held ht | close c held ht | authRaises c held ht b =>
    refine ⟨_, rfl, rfl, .inl ⟨?_, rfl⟩, ?_, .inl le_rfl, ?_, by simp⟩
    · simpa [Thread.owned, PC.inHand, ht, State.put] using add_le_add_cons s.queue held c
    · simp [Thread.credit, PC.credit, ht, State.put]
    · intro c' h
      by_cases hc' : c' = c <;> simp_all [State.put]

/-! ## The invariant -/

variable [Fintype ι]

/-- All connections that are idle or belong to a thread, with their multiplicities. -/
def State.owners (s : State ι) : Multiset ConnId :=
  s.queue + ∑ i, (s.threads i).owned

/-- The units of `_active_count` that are used. -/
def State.credit (s : State ι) : ℕ :=
  s.queue.length + ∑ i, (s.threads i).credit

/-- No connection is in two places, every connection is older than the next new one, the counter
covers the queue and all threads and does not pass the limit, and only closed connections are
about to be closed by a release. -/
structure Inv (s : State ι) : Prop where
  nodup : s.owners.Nodup
  old : ∀ c ∈ s.owners, c < s.next
  covered : s.credit ≤ s.activeCount
  limit : s.activeCount ≤ s.maxConnections
  closing : ∀ i c, (s.threads i).pc = .closing c → s.isOpen c = false

variable {s s' : State ι} {i : ι} {t : Thread}

omit [DecidableEq ι] in
/-- The connections of one thread and of the queue are among all connections. -/
lemma queue_add_owned_le (s : State ι) (i : ι) :
    s.queue + (s.threads i).owned ≤ s.owners :=
  store_add_held_le s.queue (fun j => (s.threads j).owned) i

omit [DecidableEq ι] in
/-- Two threads have no connection in common. -/
lemma Inv.not_mem_of_ne (h : Inv s) {j : ι} (hij : i ≠ j) {c : ConnId}
    (hi : c ∈ (s.threads i).owned) : c ∉ (s.threads j).owned := by
  have hnodup : (holdings s.queue fun k => (s.threads k).owned).Nodup := h.nodup
  exact not_mem_held_of_ne hnodup hij hi

omit [DecidableEq ι] in
/-- A connection in the queue belongs to no thread. -/
lemma Inv.not_mem_queue (h : Inv s) {c : ConnId} (hi : c ∈ (s.threads i).owned) :
    c ∉ s.queue := by
  have hnodup : (holdings s.queue fun k => (s.threads k).owned).Nodup := h.nodup
  exact not_mem_store hnodup hi

omit [DecidableEq ι] in
/-- While a thread is about to put a connection into the queue, there is room. -/
lemma Inv.not_isFull (h : Inv s) {c : ConnId} (hpc : (s.threads i).pc = .putting c) :
    ¬ s.isFull := by
  have hone : 1 ≤ (s.threads i).credit := by simp [Thread.credit, hpc, PC.credit]
  have hsum : (s.threads i).credit ≤ ∑ j, (s.threads j).credit :=
    Finset.single_le_sum (f := fun j => (s.threads j).credit) (fun j _ => Nat.zero_le _)
      (Finset.mem_univ i)
  have hcov := h.covered
  have hlim := h.limit
  unfold State.credit at hcov
  unfold State.isFull
  omega

/-- What a step does to all connections. -/
lemma Effect.owners (h : Effect s i s' t) :
    (s'.owners ≤ s.owners ∧ s'.next = s.next) ∨
      (s'.owners = s.next ::ₘ s.owners ∧ s'.next = s.next + 1) := by
  have howned : (fun j => (s'.threads j).owned) =
      Function.update (fun j => (s.threads j).owned) i t.owned := by
    rw [h.threads]
    exact Function.comp_update Thread.owned s.threads i t
  have hholdings : s'.owners =
      holdings s'.queue (Function.update (fun j => (s.threads j).owned) i t.owned) := by
    rw [← howned]
    rfl
  rw [hholdings]
  rcases h.owned with ⟨hle, hnext⟩ | ⟨heq, hnext⟩
  · exact .inl ⟨holdings_le hle, hnext⟩
  · exact .inr ⟨holdings_cons heq, hnext⟩

/-- A step keeps the counter above what it has to cover. -/
lemma Effect.covered (h : Effect s i s' t) (hs : (s.credit : ℤ) ≤ s.activeCount) :
    (s'.credit : ℤ) ≤ s'.activeCount := by
  have hsum := sum_update_add (fun j => (s.threads j).credit) i t.credit
  have hcredits : (fun j => (s'.threads j).credit) =
      Function.update (fun j => (s.threads j).credit) i t.credit := by
    rw [h.threads]
    exact Function.comp_update Thread.credit s.threads i t
  simp only [← hcredits] at hsum
  have hcredit := h.credit
  unfold State.credit at hs ⊢
  omega

/-- Every step preserves the invariant. -/
theorem Inv.step (hs : Inv s) (h : Step s i s') : Inv s' := by
  obtain ⟨t, ht⟩ := h.effect
  obtain ⟨hnodup, hold⟩ := nodup_and_lt_of_numbered hs.nodup hs.old ht.owners
  refine ⟨hnodup, hold, ?_, ?_, ?_⟩
  · exact ht.covered hs.covered
  · rw [ht.maxConnections]
    exact ht.limit.elim (fun hle => hle.trans hs.limit) id
  · intro j c hc
    rw [ht.threads] at hc
    by_cases hj : j = i
    · subst hj
      rw [Function.update_self] at hc
      exact (ht.closing c hc).resolve_right fun hfull => hs.not_isFull hfull.1 hfull.2
    · rw [Function.update_of_ne hj] at hc
      have hclosed := hs.closing j c hc
      have howned : c ∈ (s.threads j).owned := by simp [Thread.owned, hc, PC.inHand]
      by_contra hopen
      rcases ht.opened c (by simpa using hopen) with h' | h'
      · rw [hclosed] at h'
        cases h'
      · refine hs.not_mem_of_ne (Ne.symm hj) ?_ howned
        exact Multiset.mem_add.mpr (.inl h')

omit [DecidableEq ι] in
/-- The invariant holds before any step. -/
lemma inv_init (maxConnections : ℕ) (hasPassword : Bool) :
    Inv (.init maxConnections hasPassword : State ι) := by
  constructor <;> simp [State.init, State.owners, State.credit, Thread.owned, Thread.credit,
    PC.inHand, PC.credit]

omit [Fintype ι] in
/-- The limit stays what it was. -/
lemma Reachable.maxConnections_eq {maxConnections : ℕ} {hasPassword : Bool}
    (h : Reachable maxConnections hasPassword s) : s.maxConnections = maxConnections := by
  induction h with
  | refl => rfl
  | tail _ hstep ih =>
    obtain ⟨j, hj⟩ := hstep
    obtain ⟨t, ht⟩ := hj.effect
    rw [ht.maxConnections, ih]

/-- The invariant holds in every reachable state. -/
theorem Reachable.inv {maxConnections : ℕ} {hasPassword : Bool}
    (h : Reachable maxConnections hasPassword s) : Inv s := by
  induction h with
  | refl => exact inv_init maxConnections hasPassword
  | tail _ hstep ih =>
    obtain ⟨j, hj⟩ := hstep
    exact ih.step hj

/-! ## Safety -/

/-- The number of live connections: idle, held, or in the hand of a thread within a call. -/
def State.liveCount (s : State ι) : ℕ :=
  s.queue.length + ∑ i, (s.threads i).owned.card

omit [DecidableEq ι] in
/-- Every live connection is covered by a unit of the counter. -/
lemma liveCount_le_credit (s : State ι) : s.liveCount ≤ s.credit := by
  refine add_le_add_right (Finset.sum_le_sum fun i _ => ?_) _
  have hpc : (s.threads i).pc.inHand.card ≤ (s.threads i).pc.credit := by
    cases (s.threads i).pc <;> simp [PC.inHand, PC.credit]
  simpa [Thread.owned, Thread.credit] using hpc

/-- **The pool under threads.**  In every state that any interleaving of any number of threads
reaches: no connection belongs to two threads, or to a thread and the queue; there are at most
as many live connections as the counter says, and the counter does not pass the limit; a thread
that is about to put a connection into the queue finds room, and a connection that a release is
about to close is closed already. -/
theorem reachable_safe (maxConnections : ℕ) (hasPassword : Bool) (s : State ι)
    (h : Reachable maxConnections hasPassword s) :
    (∀ i j c, i ≠ j → c ∈ (s.threads i).owned → c ∉ (s.threads j).owned) ∧
    (∀ i c, c ∈ (s.threads i).owned → c ∉ s.queue) ∧
    s.liveCount ≤ s.activeCount ∧
    s.activeCount ≤ maxConnections ∧
    (∀ i c, (s.threads i).pc = .putting c → ¬ s.isFull) ∧
    ∀ i c, (s.threads i).pc = .closing c → s.isOpen c = false := by
  have hinv : Inv s := h.inv
  refine ⟨?_, ?_, ?_, ?_, ?_, hinv.closing⟩
  · intro i j c hij hi
    exact hinv.not_mem_of_ne hij hi
  · intro i c hi
    exact hinv.not_mem_queue hi
  · have hle := liveCount_le_credit s
    have hcov := hinv.covered
    omega
  · rw [← h.maxConnections_eq]
    exact hinv.limit
  · intro i c hpc
    exact hinv.not_isFull hpc

/-- Two threads and a pool of one connection, which the first thread is about to give back. -/
theorem reachable_safe_two :
    ∃ s : State (Fin 2), Reachable 1 false s ∧ (s.threads 0).pc = .putting 0 ∧ ¬ s.isFull := by
  have h₀ : Reachable 1 false (.init 1 false : State (Fin 2)) := .refl
  have h₁ := h₀.tail ⟨0, .queueEmpty [] rfl rfl⟩
  have h₂ := h₁.tail ⟨1, .queueEmpty [] rfl rfl⟩
  have h₃ := h₂.tail ⟨0, .enter [] rfl (by decide)⟩
  have h₄ := h₃.tail ⟨0, .connected 0 [] rfl rfl⟩
  have h₅ := h₄.tail ⟨0, .releaseOpen 0 [0] rfl (by simp) rfl⟩
  exact ⟨_, h₅, rfl, (reachable_safe 1 false _ h₅).2.2.2.2.1 0 0 rfl⟩

end PoolThreads

end KacheDB
