import KacheDB.ClientModes
import KacheDB.Foundation.Runs
import KacheDB.Integrations.LlamaIndex

/-!
# Connections that are not given back

Without a `with` block a client takes a connection for each command and gives it back behind it.
`pipeline()` takes one as well, and nothing gives it back: `Pipeline.execute` keeps the connection,
and neither the pipeline nor the client releases it later.

A `Session` is a client with its pipelines, on which commands are executed, pipelines are run and
a `KacheDBKVStore` works.  `leaksNothing_iff` says of a server that stays up that no connection
stays checked out, and the pool is never exhausted, exactly if no operation makes a pipeline.
-/

namespace KacheDB

open Foundation

/-! ## Sessions -/

/-- What the network does during the `n`-th call: with the connection that the call takes, and
with what is sent on it. -/
abbrev Network : Type :=
  ℕ → ClientCall → Acquire × Exchange

/-- A client with the pipelines that it has made, the number of calls so far, and whether one of
them has raised `PoolExhaustedError`. -/
structure Session where
  client : KacheClient
  pipes : List Pipeline
  clock : ℕ
  exhausted : Bool

/-- The outcome is `PoolExhaustedError`. -/
def exhausts {α : Type} : Except Exc α → Bool
  | .error (.poolExhaustedError _) => true
  | _ => false

namespace Session

/-- A session of a client without pipelines. -/
def new (client : KacheClient) : Session :=
  ⟨client, [], 0, false⟩

/-- The session after a call with this outcome. -/
def after {α : Type} (s : Session) (res : Except Exc α) (client : KacheClient)
    (pipes : List Pipeline) : Session :=
  ⟨client, pipes, s.clock + 1, s.exhausted || exhausts res⟩

/-- The client and its pipelines answer the calls. -/
def handle (limit : ℕ) (net : Network) : Handler ClientCall ClientCall.Answer Exc Session
  | .execute args, s =>
    let (env, x) := net s.clock (.execute args)
    let (res, client) := s.client.execute limit args env x
    (res, s.after res client s.pipes)
  | .pipeline, s =>
    let (env, _) := net s.clock .pipeline
    match s.client.pipeline limit env with
    | (.ok pipe, client) =>
      (.ok s.pipes.length, s.after (.ok pipe) client (s.pipes ++ [pipe]))
    | (.error e, client) => (.error e, s.after (.error e : Except Exc Pipeline) client s.pipes)
  | .executePipeline i commands, s =>
    match s.pipes[i]? with
    | none => (.error .indexError, s)
    | some pipe =>
      let (_, x) := net s.clock (.executePipeline i commands)
      let (res, pipe') := Pipeline.execute limit ⟨pipe.conn, pipe.commands ++ commands⟩ x
      (res, s.after res s.client (s.pipes.set i pipe'))

end Session

/-! ## Operations -/

/-- An operation on a client or on a store that works with it. -/
inductive SessionOp (δ : Type) : Type where
  | command (args : List Arg)
  /-- `client.pipeline()` and then `execute()` -/
  | pipelined (commands : List (List Arg))
  | put (key : String) (val : δ) (collection : String)
  | putAll (kvPairs : List (String × δ)) (collection : String)
  | get (key collection : String)
  | delete (key collection : String)

namespace SessionOp

variable {δ : Type}

/-- The operation makes a pipeline. -/
def makesPipeline : SessionOp δ → Bool
  | .pipelined _ => true
  | .putAll _ _ => true
  | _ => false

/-- The calls of an operation. -/
def script (json : JsonCodec δ) (texts : Texts) (store : KVStore) : SessionOp δ → ClientScript Unit
  | .command args => (KacheClient.command args).map fun _ => ()
  | .pipelined commands => do
    let pipe ← Script.ask ClientCall.pipeline
    let _ ← Script.ask (ClientCall.executePipeline pipe commands)
    pure ()
  | .put key val collection => store.put json key val collection
  | .putAll kvPairs collection => store.putAll json kvPairs collection
  | .get key collection => (store.get json texts key collection).map fun _ => ()
  | .delete key collection => (store.delete key collection).map fun _ => ()

end SessionOp

namespace SessionOp

variable {δ : Type} (json : JsonCodec δ) (texts : Texts) (store : KVStore)

/-- An operation without a pipeline executes commands only. -/
lemma calls_of_not_makesPipeline {op : SessionOp δ} (h : op.makesPipeline = false) :
    (op.script json texts store).Calls ClientCall.IsExecute := by
  cases op with
  | command args => exact (KacheClient.calls_command args).map _
  | pipelined commands => cases h
  | put key val collection => exact store.calls_put json key val collection
  | putAll kvPairs collection => cases h
  | get key collection => exact (store.calls_get json texts key collection).map _
  | delete key collection => exact (store.calls_delete key collection).map _

/-- An operation with a pipeline makes it, and then calls the pipeline only. -/
lemma exists_of_makesPipeline {op : SessionOp δ} (h : op.makesPipeline = true) :
    ∃ f : ℕ → ClientScript Unit, op.script json texts store =
        (Script.ask ClientCall.pipeline).bind f ∧
      ∀ pipe, (f pipe).Calls ClientCall.IsExecutePipeline := by
  cases op with
  | pipelined commands =>
    exact ⟨_, rfl, fun pipe => (Script.Calls.ask trivial).bind fun _ => .pure ()⟩
  | putAll kvPairs collection =>
    exact ⟨_, rfl, fun pipe => (Script.Calls.lift _).bind fun commands =>
      (Script.Calls.ask trivial).bind fun _ => .pure ()⟩
  | command args => cases h
  | put key val collection => cases h
  | get key collection => cases h
  | delete key collection => cases h

end SessionOp

/-! ## A server that stays up -/

/-- The number of commands that a call sends. -/
def ClientCall.sends : ClientCall → ℕ
  | .execute _ => 1
  | .pipeline => 0
  | .executePipeline _ commands => commands.length

/-- The server stays up, and answers every command of every call with a reply, in full. -/
def Network.Healthy (limit : ℕ) (d : Bool) (net : Network) : Prop :=
  ∀ n call, (net n call).1.Serves limit d ∧
    ∃ frames, frames.length = call.sends ∧ (net n call).2.Delivers frames

namespace Session

variable {δ : Type} {limit : ℕ} {d : Bool} {net : Network}

/-- A reply does not exhaust the pool. -/
lemma exhausts_decoded (limit : ℕ) (d : Bool) (r : Reply) :
    exhausts (r.decoded limit d) = false := by
  cases hdec : r.decoded limit d with
  | ok v => rfl
  | error e =>
    have he := Reply.ofReply_of_decoded hdec
    cases e <;> first | rfl | cases he

/-- The client takes a connection for each command, all connections are given back, and the pool
has not been exhausted. -/
def Sound (d : Bool) (s : Session) : Prop :=
  s.client.PerCall d ∧ s.exhausted = false

/-- Nothing is checked out. -/
lemma Sound.checkedOut {s : Session} (hs : s.Sound d) : s.client.pool.checkedOut = 0 := by
  rw [ConnectionPool.checkedOut, hs.1.count_eq, sub_self]

/-- A command gives its connection back. -/
lemma Sound.execute {s : Session} (hs : s.Sound d) (hnet : net.Healthy limit d)
    {call : ClientCall} (hcall : call.IsExecute) : (handle limit net call s).2.Sound d := by
  cases call with
  | execute args =>
    obtain ⟨hserves, frames, hlength, hdelivers⟩ := hnet s.clock (.execute args)
    obtain ⟨reply, rfl⟩ := List.length_eq_one_iff.mp hlength
    have hone : Call.Serves limit d
        ⟨args, (net s.clock (.execute args)).1, (net s.clock (.execute args)).2⟩ reply :=
      ⟨hserves, hdelivers⟩
    obtain ⟨hres, hclient⟩ := hs.1.execute hone
    refine ⟨hclient, ?_⟩
    have hquiet := exhausts_decoded limit d reply
    rw [← hres] at hquiet
    simp only [handle, after, hs.2, Bool.false_or]
    exact hquiet
  | pipeline => exact hcall.elim
  | executePipeline i commands => exact hcall.elim

/-- `pipeline()` takes a connection. -/
lemma Sound.pipeline {s : Session} (hs : s.Sound d) (hnet : net.Healthy limit d) :
    ∃ pipe s', handle limit net .pipeline s = (.ok pipe, s') ∧
      s'.client.pool.checkedOut = 1 := by
  obtain ⟨conn, pool, hget, -, hidle, hcount, -, -⟩ :=
    hs.1.getConnection (hnet s.clock .pipeline).1
  have hpipe : s.client.pipeline limit (net s.clock .pipeline).1 =
      (.ok ⟨conn, []⟩, ⟨pool, none⟩) := by
    simp only [KacheClient.pipeline, KacheClient.getConn, hs.1.conn_eq, hget]
  have hhandle : handle limit net .pipeline s = (.ok s.pipes.length,
      s.after (.ok (⟨conn, []⟩ : Pipeline)) ⟨pool, none⟩ (s.pipes ++ [⟨conn, []⟩])) := by
    simp only [handle, hpipe]
  refine ⟨_, _, hhandle, ?_⟩
  simp only [after, ConnectionPool.checkedOut, hidle, hcount, List.length_nil]
  rfl

/-- A pipeline leaves the pool as it is. -/
lemma pool_executePipeline (call : ClientCall) (s : Session) (hcall : call.IsExecutePipeline)
    (hs : s.client.pool.checkedOut = 1) :
    (handle limit net call s).2.client.pool.checkedOut = 1 := by
  cases call with
  | executePipeline i commands =>
    simp only [handle]
    cases s.pipes[i]? with
    | none => exact hs
    | some pipe => exact hs
  | execute args => exact hcall.elim
  | pipeline => exact hcall.elim

variable (limit net) in
/-- One operation, whether it returns or raises. -/
def step (json : JsonCodec δ) (texts : Texts) (store : KVStore) (s : Session) (op : SessionOp δ) :
    Session :=
  ((op.script json texts store).run (handle limit net) s).2

variable {json : JsonCodec δ} {texts : Texts} {store : KVStore}

/-- An operation without a pipeline gives its connections back. -/
lemma Sound.step {s : Session} (hs : s.Sound d) (hnet : net.Healthy limit d) {op : SessionOp δ}
    (hop : op.makesPipeline = false) : (s.step limit net json texts store op).Sound d :=
  (SessionOp.calls_of_not_makesPipeline json texts store hop).run_invariant
    (fun _ _ hcall hs => hs.execute hnet hcall) hs

/-- An operation with a pipeline keeps a connection. -/
lemma Sound.step_pipeline {s : Session} (hs : s.Sound d) (hnet : net.Healthy limit d)
    {op : SessionOp δ} (hop : op.makesPipeline = true) :
    (s.step limit net json texts store op).client.pool.checkedOut = 1 := by
  obtain ⟨f, hscript, hcalls⟩ := SessionOp.exists_of_makesPipeline json texts store hop
  obtain ⟨pipe, s', hpipe, hcount⟩ := hs.pipeline hnet
  have hrun : (Script.ask ClientCall.pipeline).run (handle limit net) s = (.ok pipe, s') := by
    rw [Script.run_ask, hpipe]
  rw [Session.step, hscript, Script.run_bind_of_ok hrun]
  have hkeep : ∀ call s, call.IsExecutePipeline → s.client.pool.checkedOut = 1 →
      (handle limit net call s).2.client.pool.checkedOut = 1 := pool_executePipeline
  exact (hcalls pipe).run_invariant hkeep hcount

/-- After every operation nothing is checked out, and `PoolExhaustedError` is never raised. -/
def LeaksNothing (limit : ℕ) (net : Network) (json : JsonCodec δ) (texts : Texts) (store : KVStore)
    (client : KacheClient) (ops : List (SessionOp δ)) : Prop :=
  ∀ pre, pre <+: ops →
    (pre.foldl (step limit net json texts store) (new client)).client.pool.checkedOut = 0 ∧
      (pre.foldl (step limit net json texts store) (new client)).exhausted = false

/-- **When nothing leaks.**  Against a server that stays up, no connection of a new client stays
checked out and the pool is never exhausted if and only if no operation makes a pipeline. -/
theorem leaksNothing_iff (hnet : net.Healthy limit d) (json : JsonCodec δ) (texts : Texts)
    (store : KVStore) (host : String) (port : ℕ) {maxConnections : ℕ} (hroom : 1 ≤ maxConnections)
    (password : Option String) (ops : List (SessionOp δ)) :
    LeaksNothing limit net json texts store (.new host port maxConnections d password) ops ↔
      ∀ op ∈ ops, op.makesPipeline = false := by
  have hnew : (new (.new host port maxConnections d password)).Sound d :=
    ⟨KacheClient.perCall_new host port d password hroom, rfl⟩
  -- an operation with a pipeline leaves something checked out
  have hbreak : ∀ (s : Session) (op : SessionOp δ), s.Sound d → ¬ op.makesPipeline = false →
      ¬ ((s.step limit net json texts store op).client.pool.checkedOut = 0 ∧
        (s.step limit net json texts store op).exhausted = false) := by
    rintro s op hs hop ⟨hnone, -⟩
    have hone : (s.step limit net json texts store op).client.pool.checkedOut = 1 :=
      hs.step_pipeline hnet (by simpa using hop)
    rw [hnone] at hone
    cases hone
  have hkeep : ∀ (s : Session) (op : SessionOp δ), s.Sound d → op.makesPipeline = false →
      (s.step limit net json texts store op).Sound d := fun s op hs hop => hs.step hnet hop
  rw [← guarded_const_iff (new (.new host port maxConnections d password)) ops]
  have hclean : ∀ s : Session, s.Sound d → s.client.pool.checkedOut = 0 ∧ s.exhausted = false :=
    fun s hs => ⟨hs.checkedOut, hs.2⟩
  exact (guarded_iff_of_breaks hclean hkeep hbreak hnew ops).symm

/-! ### A server -/

/-- A server that answers everything with `+PONG`. -/
def pongs : Network := fun _ call =>
  (KacheClient.up, ⟨.ok (), (List.replicate call.sends
    (⟨ConnectionPool.pong.encode, Reply.encode_ne_nil _⟩ : Chunk)).map .chunk⟩)

lemma healthy_pongs (limit : ℕ) (d : Bool) : pongs.Healthy (limit + 1) d := by
  intro n call
  refine ⟨KacheClient.serves_up limit d, List.replicate call.sends ConnectionPool.pong,
    List.length_replicate, rfl, Feed.quiet_map_chunk _, ?_⟩
  rw [pongs, Buffered.data_map_chunk, Reply.encodeList_eq_flatMap, List.flatMap_replicate,
    List.flatMap_replicate]
  rfl

/-- A command on a pool with one connection. -/
theorem leaksNothing_iff_ping :
    LeaksNothing 1 pongs KVStore.emptyDict .plain ⟨"kv"⟩ (.new "127.0.0.1" 6379 1 true none)
        [.command [.str "PING"]] ↔
      ∀ op ∈ ([.command [.str "PING"]] : List (SessionOp Unit)), op.makesPipeline = false :=
  leaksNothing_iff (healthy_pongs 0 true) KVStore.emptyDict .plain ⟨"kv"⟩ "127.0.0.1" 6379 le_rfl
    none [.command [.str "PING"]]

/-- Behind a pipeline that has been executed, the only connection is still checked out, and the
next command raises `PoolExhaustedError`. -/
theorem not_leaksNothing_pipelined :
    ¬ LeaksNothing 1 pongs KVStore.emptyDict .plain ⟨"kv"⟩ (.new "127.0.0.1" 6379 1 true none)
      [.pipelined [[.str "PING"]], .command [.str "PING"]] ∧
    ([SessionOp.pipelined [[.str "PING"]], .command [.str "PING"]].foldl
      (step 1 pongs KVStore.emptyDict .plain ⟨"kv"⟩)
      (new (.new "127.0.0.1" 6379 1 true none))).exhausted = true := by
  have hexhausted : ([SessionOp.pipelined [[.str "PING"]], .command [.str "PING"]].foldl
      (step 1 pongs KVStore.emptyDict .plain ⟨"kv"⟩)
      (new (.new "127.0.0.1" 6379 1 true none))).exhausted = true := rfl
  refine ⟨fun h => ?_, hexhausted⟩
  obtain ⟨-, hquiet⟩ := h _ (List.prefix_refl _)
  rw [hquiet] at hexhausted
  cases hexhausted

end Session

end KacheDB
