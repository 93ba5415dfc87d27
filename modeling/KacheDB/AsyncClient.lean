import KacheDB.AsyncPool

/-!
# The asynchronous client, used by one task

`AsyncKacheClient` executes commands on one stream, which it takes from its pool in `connect`
and gives back in `close`.  Whatever happens to a command, the client keeps the stream.

Hence a command that is cancelled after its write, or whose reply is not read to its end, makes
the later commands read the wrong replies.  `AsyncKacheClient.execute_own` says that this
is the only way: if no command is cancelled and every reply is `Clean`, then every command that
returns a value returns the value of its own reply.
-/

namespace KacheDB

open Foundation

/-- An asynchronous client: its pool `_pool`, and `_reader`, `_writer` and `_resp_reader`, which
are set and cleared together. -/
structure AsyncKacheClient where
  decodeResponses : Bool
  pool : AsyncConnectionPool
  stream : Option AsyncStream

/-- A call of the client, with what happens to it on the network. -/
inductive AsyncClientOp : Type where
  | connect (env : AsyncAcquire)
  | close
  | disconnectAll
  | execute (args : List Arg) (x : Exchange)

namespace AsyncKacheClient

/-- A new client. -/
def new (host : String) (port maxConnections : ℕ) (decodeResponses : Bool)
    (password : Option String) (ssl : Bool) : AsyncKacheClient :=
  ⟨decodeResponses, .new host port maxConnections password ssl, none⟩

/-- Establish a dedicated async connection. -/
def connect (limit : ℕ) (c : AsyncKacheClient) (env : AsyncAcquire) :
    Except Exc Unit × AsyncKacheClient :=
  match c.pool.getConnection limit env with
  | (.ok s, pool) => (.ok (), { c with pool := pool, stream := some s })
  | (.error e, pool) => (.error e, { c with pool := pool })

/-- Release the connection back to the pool. -/
def close (c : AsyncKacheClient) : AsyncKacheClient :=
  match c.stream with
  | some s => { c with pool := c.pool.releaseConnection s, stream := none }
  | none => c

/-- Close all pooled connections. -/
def disconnectAll (c : AsyncKacheClient) : AsyncKacheClient :=
  { c with pool := c.pool.disconnectAll }

/-- Execute a single command and return the response. -/
def execute (limit : ℕ) (c : AsyncKacheClient) (args : List Arg) (x : Exchange) :
    Except Exc RespValue × AsyncKacheClient :=
  match c.stream with
  | none => (.error (.connectionError "Not connected to KacheDB"), c)
  | some s =>
    match s.roundTrip limit args x with
    | (.ok response, s') =>
      (decodeResponse c.decodeResponses response, { c with stream := some s' })
    | (.error e, s') => (.error e, { c with stream := some s' })

/-- One call. -/
def step (limit : ℕ) (c : AsyncKacheClient) : AsyncClientOp → AsyncKacheClient
  | .connect env => (c.connect limit env).2
  | .close => c.close
  | .disconnectAll => c.disconnectAll
  | .execute args x => (c.execute limit args x).2

end AsyncKacheClient

/-- A command is not cancelled, and reading its reply leaves nothing of it behind; everything
sent while connecting is answered in order. -/
def AsyncClientOp.Undisturbed (limit : ℕ) : AsyncClientOp → Prop
  | .connect env => env.Conforms
  | .close => True
  | .disconnectAll => True
  | .execute _ x => ∃ reply : Reply, x.Delivers [reply] ∧ reply.Clean limit

namespace AsyncKacheClient

/-- Nothing is unread on any stream that the client keeps. -/
def AllSettled (d : Bool) (c : AsyncKacheClient) : Prop :=
  c.decodeResponses = d ∧ c.pool.AllSettled ∧ ∀ s, c.stream = some s → s.Holds []

variable {limit : ℕ} {d : Bool}

/-- A command on a connected client is one round trip on its stream. -/
lemma execute_of_some {c : AsyncKacheClient} {s : AsyncStream} (hs : c.stream = some s)
    (limit : ℕ) (args : List Arg) (x : Exchange) :
    c.execute limit args x =
      ((s.roundTrip limit args x).1.bind (decodeResponse c.decodeResponses),
        { c with stream := some (s.roundTrip limit args x).2 }) := by
  unfold AsyncKacheClient.execute
  rcases hrt : s.roundTrip limit args x with ⟨e | v, s'⟩ <;> simp only [hs, hrt] <;> rfl

/-- A command that is not cancelled, with a clean reply, leaves nothing unread. -/
lemma AllSettled.execute {c : AsyncKacheClient} (hc : c.AllSettled d) (args : List Arg)
    {x : Exchange} {reply : Reply} (hx : x.Delivers [reply]) (hclean : reply.Clean limit) :
    (c.execute limit args x).2.AllSettled d := by
  cases hs : c.stream with
  | none =>
    unfold AsyncKacheClient.execute
    rw [hs]
    exact hc
  | some s =>
    have hnext : (s.roundTrip limit args x).2.Holds [] := by
      rw [← hclean]
      exact ((hc.2.2 s hs).roundTrip_own limit args hx).2
    rw [execute_of_some hs]
    refine ⟨hc.1, hc.2.1, ?_⟩
    rintro s' ⟨⟩
    exact hnext

/-- An undisturbed call keeps the invariant. -/
lemma AllSettled.step (c : AsyncKacheClient) (op : AsyncClientOp) (hc : c.AllSettled d)
    (hop : op.Undisturbed limit) : (c.step limit op).AllSettled d := by
  cases op with
  | connect env =>
    obtain ⟨hout, hpool⟩ := @AsyncConnectionPool.AllSettled.getConnection limit _ _ hc.2.1 hop
    simp only [AsyncKacheClient.step, AsyncKacheClient.connect]
    rcases hget : c.pool.getConnection limit env with ⟨e | s, pool⟩
    · rw [hget] at hpool
      exact ⟨hc.1, hpool, hc.2.2⟩
    · rw [hget] at hout hpool
      refine ⟨hc.1, hpool, ?_⟩
      rintro s' ⟨⟩
      exact hout s rfl
  | close =>
    simp only [AsyncKacheClient.step, AsyncKacheClient.close]
    cases hs : c.stream with
    | none => exact hc
    | some s => exact ⟨hc.1, hc.2.1.releaseConnection (hc.2.2 s hs), by simp⟩
  | disconnectAll =>
    refine ⟨hc.1, ?_, hc.2.2⟩
    simp [AsyncKacheClient.step, AsyncKacheClient.disconnectAll,
      AsyncConnectionPool.disconnectAll, AsyncConnectionPool.AllSettled]
  | execute args x =>
    obtain ⟨reply, hx, hclean⟩ := hop
    exact hc.execute args hx hclean

/-- A command that returns a value on a client with nothing unread returns the value of its
own reply. -/
lemma AllSettled.execute_ok {c : AsyncKacheClient} (hc : c.AllSettled d) {args : List Arg}
    {x : Exchange} {reply : Reply} (hx : respBuffer.data x.events <+: reply.encode)
    {v : RespValue} (hv : (c.execute limit args x).1 = .ok v) :
    reply.decoded limit d = .ok v := by
  cases hs : c.stream with
  | none => simp [AsyncKacheClient.execute, hs] at hv
  | some s =>
    rw [execute_of_some hs, hc.1] at hv
    rcases hrt : s.roundTrip limit args x with ⟨e | w, s'⟩
    · simp [hrt, Except.bind] at hv
    · rw [Reply.decoded, ((hc.2.2 s hs).roundTrip_ok hx hrt).1]
      simpa only [hrt] using hv

/-- A new client keeps no stream. -/
lemma allSettled_new (host : String) (port maxConnections : ℕ) (d : Bool)
    (password : Option String) (ssl : Bool) :
    (new host port maxConnections d password ssl).AllSettled d :=
  ⟨rfl, by simp [new, AsyncConnectionPool.new, AsyncConnectionPool.AllSettled], by simp [new]⟩

/-- **Reply matching without cancellation.**  After a run in which no command is cancelled and
every reply is clean, a command that returns a value returns the value of its own reply. -/
theorem execute_own (limit : ℕ) (host : String) (port maxConnections : ℕ) (d : Bool)
    (password : Option String) (ssl : Bool) (ops : List AsyncClientOp)
    (hops : ∀ op ∈ ops, op.Undisturbed limit) (args : List Arg) (x : Exchange) (reply : Reply)
    (hx : respBuffer.data x.events <+: reply.encode) (v : RespValue)
    (hv : ((ops.foldl (step limit) (new host port maxConnections d password ssl)).execute limit
      args x).1 = .ok v) : reply.decoded limit d = .ok v := by
  have hnew := allSettled_new host port maxConnections d password ssl
  have hrun : (ops.foldl (step limit)
      (new host port maxConnections d password ssl)).AllSettled d :=
    List.foldlRecOn ops (step limit) hnew fun c hc op hop =>
      AllSettled.step c op hc (hops op hop)
  exact hrun.execute_ok hx hv

/-- Everything that is opened is opened at once. -/
def dialed : AsyncAcquire :=
  ⟨.ok (), .ok (), ⟨.ok (), []⟩⟩

lemma conforms_dialed : dialed.Conforms :=
  ⟨.null, List.nil_prefix, .inl (by simp [Feed.Quiet, dialed])⟩

/-- A command on a stream that went back to the pool and was taken out again. -/
theorem execute_own_reconnected :
    Reply.null.decoded 1 false = .ok .none := by
  refine execute_own 1 "127.0.0.1" 6379 10 false none false
    [.connect dialed, .close, .connect dialed]
    ?_ [.str "GET", .str "b"] ⟨.ok (), [.chunk ⟨[95, 13], by decide⟩, .chunk ⟨[10], by decide⟩]⟩
    .null (by decide) .none rfl
  intro op hop
  simp only [List.mem_cons, List.not_mem_nil, or_false] at hop
  rcases hop with rfl | rfl | rfl
  · exact conforms_dialed
  · trivial
  · exact conforms_dialed

/-- The text `ERR` is within a line. -/
lemma not_crlf_infix_err : ¬ crlf <:+: [69, 82, 82] := by
  decide

/-- An array with an error in front of the integer 5. -/
def errorInArray : Reply :=
  .array [.error ⟨[69, 82, 82], not_crlf_infix_err⟩, .integer 5]

/-- The array leaves the integer behind. -/
lemma leftover_errorInArray : errorInArray.leftover 2 = (Reply.integer 5).encode ++ [] := by
  have herr : ∀ line, ∃ e, (Reply.error line).outcome 1 = .error e := by
    intro line
    unfold Reply.outcome
    cases Reply.lineText line <;> exact ⟨_, rfl⟩
  obtain ⟨e, he⟩ := herr ⟨[69, 82, 82], by decide⟩
  simp [errorInArray, Reply.leftover, Reply.leftoverList, he, Reply.encodeList]

/-- The next command, whose own reply is the integer 7, returns the reply to the command before
it, or a part of it: a null after a command that was cancelled while its write was drained, and
the integer 5 after a command whose reply was an array with an error in front of this 5. -/
theorem execute_mismatch :
    (([.connect dialed, .execute [.str "GET", .str "a"]
        ⟨.error .cancelledError, [.chunk ⟨[95, 13, 10], by decide⟩]⟩].foldl (step 1)
      (new "127.0.0.1" 6379 10 false none false)).execute 1 [.str "INCR", .str "b"]
        ⟨.ok (), [.chunk ⟨[58, 55, 13, 10], by decide⟩]⟩).1 = .ok .none ∧
    (([.connect dialed, .execute [.str "MGET", .str "a", .str "b"]
        ⟨.ok (), [.chunk ⟨[42, 50, 13, 10, 45, 69, 82, 82, 13, 10, 58, 53, 13, 10],
          by decide⟩]⟩].foldl (step 2)
      (new "127.0.0.1" 6379 10 false none false)).execute 2 [.str "INCR", .str "b"]
        ⟨.ok (), [.chunk ⟨[58, 55, 13, 10], by decide⟩]⟩).1 = .ok (.int 5) ∧
    (Reply.integer 7).decoded 1 false = .ok (.int 7) := by
  refine ⟨rfl, ?_, rfl⟩
  have hopened : AsyncStream.opened.Holds [] := ⟨rfl, Socket.holds_opened⟩
  have harray : Exchange.Delivers ⟨.ok (), [.chunk ⟨[42, 50, 13, 10, 45, 69, 82, 82, 13, 10, 58,
      53, 13, 10], by decide⟩]⟩ [errorInArray] := ⟨rfl, by simp [Feed.Quiet], by decide⟩
  have hseven : Exchange.Delivers ⟨.ok (), [.chunk ⟨[58, 55, 13, 10], by decide⟩]⟩
      [.integer 7] := ⟨rfl, by simp [Feed.Quiet], by decide⟩
  have hleft := (hopened.roundTrip_own 2 [.str "MGET", .str "a", .str "b"] harray).2
  rw [leftover_errorInArray] at hleft
  have hnext := (hleft.roundTrip 2 [.str "INCR", .str "b"] hseven).1
  have hconnected : ((new "127.0.0.1" 6379 10 false none false).step 2 (.connect dialed)).stream =
      some .opened := rfl
  have hsecond := congrArg (fun out => out.2.stream) (execute_of_some hconnected 2
    [.str "MGET", .str "a", .str "b"] ⟨.ok (), [.chunk ⟨[42, 50, 13, 10, 45, 69, 82, 82, 13, 10,
      58, 53, 13, 10], by decide⟩]⟩)
  rw [List.foldl_cons, List.foldl_cons, List.foldl_nil]
  refine (congrArg Prod.fst (execute_of_some hsecond 2 [.str "INCR", .str "b"] _)).trans ?_
  simp only [hnext]
  rfl

end AsyncKacheClient

end KacheDB
