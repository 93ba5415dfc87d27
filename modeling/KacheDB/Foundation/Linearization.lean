import Mathlib.Data.List.Nodup
import Mathlib.Logic.Relation

/-!
# Linearization of remote calls

Callers send operations to an object that executes one at a time.  A call may be sent and never
arrive, and may be executed long after its caller has given up.

An `Account` records what happens: the calls that are made, those that are in flight, what has been
executed, and which calls have returned a result.  `Account.Step` says what each of these events may
do, in any order.  `Account.Reachable.linearized` says that every account is linearized: the log is
a run of the object, no call is in it twice, and a call that has returned is in the log in front of
every call that was made later.
-/

namespace Foundation

variable {Op Res σ : Type}

/-- The results of operations one after the other, and the last state. -/
def replay (answer : Op → σ → Res × σ) : List Op → σ → List Res × σ
  | [], s => ([], s)
  | op :: ops, s =>
    ((answer op s).1 :: (replay answer ops (answer op s).2).1,
      (replay answer ops (answer op s).2).2)

lemma replay_append (answer : Op → σ → Res × σ) (ops ops' : List Op) (s : σ) :
    replay answer (ops ++ ops') s =
      ((replay answer ops s).1 ++ (replay answer ops' (replay answer ops s).2).1,
        (replay answer ops' (replay answer ops s).2).2) := by
  induction ops generalizing s with
  | nil => rfl
  | cons op ops ih => rw [List.cons_append, replay, ih, replay, List.cons_append]

/-- An operation that was executed, under the number of its call, and its result. -/
structure Executed (Op Res : Type) where
  call : ℕ
  op : Op
  res : Res

/-- What an object has been asked and has done: the operations of the calls, by number; the calls in
flight; the operations that were executed; the calls that have returned a result, with the number
of calls made by then; and the state of the object. -/
structure Account (Op Res σ : Type) where
  calls : List Op
  inFlight : List ℕ
  log : List (Executed Op Res)
  returned : List (ℕ × ℕ)
  state : σ

namespace Account

/-- Nothing has happened. -/
def init (s : σ) : Account Op Res σ :=
  ⟨[], [], [], [], s⟩

/-- The calls that were executed. -/
def executed (a : Account Op Res σ) : List ℕ :=
  a.log.map Executed.call

/-- A call is made. -/
def call (a : Account Op Res σ) (op : Op) : Account Op Res σ :=
  { a with calls := a.calls ++ [op] }

/-- A call is sent. -/
def send (a : Account Op Res σ) (n : ℕ) : Account Op Res σ :=
  { a with inFlight := n :: a.inFlight }

/-- A call in flight is executed. -/
def execute (answer : Op → σ → Res × σ) (a : Account Op Res σ) (n : ℕ) (op : Op) :
    Account Op Res σ :=
  { a with
    inFlight := a.inFlight.erase n
    log := a.log ++ [⟨n, op, (answer op a.state).1⟩]
    state := (answer op a.state).2 }

/-- A call returns its result. -/
def finish (a : Account Op Res σ) (n : ℕ) : Account Op Res σ :=
  { a with returned := a.returned ++ [(n, a.calls.length)] }

/-- The events.  A call is sent once, and returns a result once, after it was executed. -/
inductive Step (answer : Op → σ → Res × σ) (a : Account Op Res σ) : Account Op Res σ → Prop
  | call (op : Op) : Step answer a (a.call op)
  | send (n : ℕ) (hn : n < a.calls.length) (hflight : n ∉ a.inFlight) (hlog : n ∉ a.executed) :
      Step answer a (a.send n)
  | execute (n : ℕ) (op : Op) (hflight : n ∈ a.inFlight) (hop : a.calls[n]? = some op) :
      Step answer a (a.execute answer n op)
  | finish (n : ℕ) (hlog : n ∈ a.executed) (hnew : n ∉ a.returned.map Prod.fst) :
      Step answer a (a.finish n)

/-- The accounts that some order of events leads to. -/
def Reachable (answer : Op → σ → Res × σ) (s : σ) (a : Account Op Res σ) : Prop :=
  Relation.ReflTransGen (Step answer) (init s) a

/-- The account is that of an object that executes one operation at a time. -/
structure Linearized (answer : Op → σ → Res × σ) (s : σ) (a : Account Op Res σ) : Prop where
  /-- The log is a run of the object. -/
  replay_eq : replay answer (a.log.map Executed.op) s = (a.log.map Executed.res, a.state)
  /-- No call is executed twice, nor is one in flight that was executed. -/
  once : (a.executed ++ a.inFlight).Nodup
  /-- What is executed or in flight was called. -/
  called : ∀ e ∈ a.log, a.calls[e.call]? = some e.op
  sent : ∀ n ∈ a.inFlight, n < a.calls.length
  /-- No call returns twice. -/
  returned_once : (a.returned.map Prod.fst).Nodup
  /-- A call that has returned is executed before every call that was made later. -/
  order : ∀ r ∈ a.returned, ∃ before after, a.log = before ++ after ∧
    r.1 ∈ before.map Executed.call ∧ ∀ e ∈ before, e.call < r.2

variable {answer : Op → σ → Res × σ} {s : σ} {a a' : Account Op Res σ}

lemma executed_execute (n : ℕ) (op : Op) :
    (a.execute answer n op).executed = a.executed ++ [n] := by
  rw [executed, execute, List.map_append]
  rfl

/-- Every event keeps the account linearized. -/
theorem Linearized.step (ha : a.Linearized answer s) (h : Step answer a a') :
    a'.Linearized answer s := by
  cases h with
  | call op =>
    refine ⟨ha.replay_eq, ha.once, ?_, ?_, ha.returned_once, ha.order⟩
    · intro e he
      have hcall := ha.called e he
      rw [call, List.getElem?_append_left (List.getElem?_eq_some_iff.mp hcall).1, hcall]
    · intro n hn
      rw [call, List.length_append]
      exact Nat.lt_add_right _ (ha.sent n hn)
  | send n hn hflight hlog =>
    refine ⟨ha.replay_eq, ?_, ha.called, ?_, ha.returned_once, ha.order⟩
    · have hperm : (a.executed ++ n :: a.inFlight).Perm (n :: (a.executed ++ a.inFlight)) :=
        List.perm_middle
      refine hperm.nodup_iff.mpr (List.nodup_cons.mpr ⟨?_, ha.once⟩)
      rw [List.mem_append, not_or]
      exact ⟨hlog, hflight⟩
    · intro m hm
      rcases List.mem_cons.mp hm with rfl | hm
      · exact hn
      · exact ha.sent m hm
  | execute n op hflight hop =>
    refine ⟨?_, ?_, ?_, ?_, ha.returned_once, ?_⟩
    · simp only [execute, List.map_append, List.map_cons, List.map_nil]
      rw [replay_append, ha.replay_eq]
      rfl
    · rw [executed_execute]
      have hperm : (a.executed ++ [n] ++ a.inFlight.erase n).Perm (a.executed ++ a.inFlight) := by
        rw [List.append_assoc]
        exact (List.perm_cons_erase hflight).symm.append_left a.executed
      exact hperm.nodup_iff.mpr ha.once
    · intro e he
      rcases List.mem_append.mp he with he | he
      · exact ha.called e he
      · obtain rfl := List.mem_singleton.mp he
        exact hop
    · intro m hm
      exact ha.sent m (List.mem_of_mem_erase hm)
    · intro r hr
      obtain ⟨before, after, hlog, hmem, hbefore⟩ := ha.order r hr
      refine ⟨before, after ++ [⟨n, op, (answer op a.state).1⟩], ?_, hmem, hbefore⟩
      rw [execute, hlog, List.append_assoc]
  | finish n hlog hnew =>
    refine ⟨ha.replay_eq, ha.once, ha.called, ha.sent, ?_, ?_⟩
    · rw [finish, List.map_append]
      exact ha.returned_once.append (List.nodup_singleton n)
        (List.disjoint_singleton.mpr hnew)
    · intro r hr
      rcases List.mem_append.mp hr with hr | hr
      · exact ha.order r hr
      · -- the whole log is in front of the calls to come
        obtain rfl := List.mem_singleton.mp hr
        refine ⟨a.log, [], (List.append_nil _).symm, hlog, ?_⟩
        intro e he
        exact (List.getElem?_eq_some_iff.mp (ha.called e he)).1

/-- **Every account is linearized.** -/
theorem Reachable.linearized (h : Reachable answer s a) : a.Linearized answer s := by
  induction h with
  | refl =>
    exact ⟨rfl, List.nodup_nil, fun e he => absurd he List.not_mem_nil,
      fun n hn => absurd hn List.not_mem_nil, List.nodup_nil,
      fun r hr => absurd hr List.not_mem_nil⟩
  | tail _ hstep ih => exact ih.step hstep

end Account

end Foundation
