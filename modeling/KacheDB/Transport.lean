import KacheDB.ClientLeaks
import KacheDB.Foundation.Simulation
import KacheDB.Resp.Commands

/-!
# The client and a server, byte by byte

A `Service` is a server as its clients mean it: what it answers to the arguments of a command.  On
the wire nothing of this is there.  The arguments become the bytes of a command, the bytes arrive
in chunks, the server reads them and answers in chunks again, on a connection that the pool has
checked with a `PING` or, if the server has closed it, has replaced by another one.

A `Remote` is a client with a server behind such a wire.  `Remote.simulates` says that every command
has the outcome that the service gives it, and `Remote.run_eq` carries this to whole programs: error
replies, reconnections and the cuts of the network included, a program that executes commands cannot
tell the wire from the service.

A pipeline sends many commands at once.  `Remote.run_pipelined` says what it comes to against the
same server, and `Remote.pipelined_like_each` compares it with the same commands one after the
other.
-/

namespace KacheDB

open Foundation

/-! ## Services -/

/-- A server: what it answers to the arguments of a command, and its next state. -/
structure Service (σ : Type) where
  answer : List Bytes → σ → Reply × σ

/-- The text of the answer to what a server does not understand is within a line. -/
lemma unknownCommand_line : ¬ crlf <:+: [69, 82, 82] := by
  decide

/-- The answer to what a server does not understand. -/
def unknownCommand : Reply :=
  .error ⟨[69, 82, 82], unknownCommand_line⟩

/-- The values of replies, or the exception of the first one that gives no value. -/
def Reply.values (limit : ℕ) (d : Bool) : List Reply → Except Exc (List RespValue)
  | [] => .ok []
  | r :: rs => (r.decoded limit d).bind fun v => (Reply.values limit d rs).map (v :: ·)

namespace Service

variable {σ : Type} (srv : Service σ)

/-- The answers to commands that arrive together; all of them are executed. -/
def answerAll : List (List Bytes) → σ → List Reply × σ
  | [], s => ([], s)
  | args :: rest, s =>
    ((srv.answer args s).1 :: (answerAll rest (srv.answer args s).2).1,
      (answerAll rest (srv.answer args s).2).2)

/-- The service answers the calls of a client itself. -/
def handle (limit : ℕ) (d : Bool) : Handler ClientCall ClientCall.Answer Exc σ
  | .execute args, s =>
    ((srv.answer (rawArgs args) s).1.decoded limit d, (srv.answer (rawArgs args) s).2)
  | .pipeline, s => (.ok 0, s)
  | .executePipeline _ commands, s =>
    (Reply.values limit d (srv.answerAll (commands.map rawArgs) s).1,
      (srv.answerAll (commands.map rawArgs) s).2)

/-- Every command has its answer. -/
lemma length_answerAll (commands : List (List Bytes)) (s : σ) :
    (srv.answerAll commands s).1.length = commands.length := by
  induction commands generalizing s with
  | nil => rfl
  | cons args rest ih => rw [answerAll, List.length_cons, List.length_cons, ih]

lemma answerAll_singleton (args : List Bytes) (s : σ) :
    srv.answerAll [args] s = ([(srv.answer args s).1], (srv.answer args s).2) := rfl

end Service

/-! ## What a server reads -/

/-- The bytes of a bulk string. -/
def RespValue.bulk : RespValue → Option Bytes
  | .bytes b => some b
  | _ => Option.none

/-- The arguments of a command, if the value is one. -/
def RespValue.bulkArgs : RespValue → Option (List Bytes)
  | .list items => items.mapM RespValue.bulk
  | _ => Option.none

/-- The commands that a server reads until the stream ends or is no command; the fuel bounds their
number. -/
def readCommands : ℕ → RespReader → Feed → List (List Bytes)
  | 0, _, _ => []
  | fuel + 1, r, feed =>
    if r.unread feed = [] then []
    else
      match r.readResponse 2 feed with
      | (.ok v, r', feed') =>
        match v.bulkArgs with
        | some args => args :: readCommands fuel r' feed'
        | none => []
      | (.error _, _, _) => []

/-- The commands that a server reads from these chunks.  A command has at least one byte. -/
def received (chunks : List Chunk) : List (List Bytes) :=
  readCommands (chunks.flatMap Chunk.bytes).length .init (chunks.map .chunk)

lemma bulkArgs_commandValue (args : List Arg) :
    (commandValue args).bulkArgs = some (rawArgs args) := by
  have hitems : ∀ bs : List Bytes, (bs.map RespValue.bytes).mapM RespValue.bulk = some bs := by
    intro bs
    induction bs with
    | nil => rfl
    | cons b bs ih =>
      rw [List.map_cons, List.mapM_cons, ih]
      rfl
  exact hitems (rawArgs args)

/-- A server reads the commands that were sent. -/
lemma readCommands_encodeCommands (commands : List (List Arg)) {fuel : ℕ} {r : RespReader}
    {feed : Feed} (hfuel : commands.length ≤ fuel) (hok : respBuffer.Ok r) (hq : feed.Quiet)
    (hp : r.unread feed = encodeCommands commands) :
    readCommands fuel r feed = commands.map rawArgs := by
  induction commands generalizing fuel r feed with
  | nil =>
    have hnil : r.unread feed = [] := hp
    cases fuel with
    | zero => rfl
    | succ fuel => rw [readCommands, if_pos hnil, List.map_nil]
  | cons args rest ih =>
    obtain ⟨fuel, rfl⟩ := Nat.exists_eq_add_of_le' hfuel
    rw [encodeCommands, List.flatMap_cons, ← encode_commandTree] at hp
    have hne : r.unread feed ≠ [] := by
      rw [hp]
      exact fun h => (commandTree args).toReply.encode_ne_nil (List.append_eq_nil_iff.mp h).1
    have hout := (commandTree args).outcome_toReply 2 (depth_commandTree_le args)
    obtain ⟨hres, hok', hleft, hq'⟩ :
        (r.readResponse 2 feed).1 = (commandTree args).toReply.outcome 2 ∧ _ :=
      RespReader.readResponse_quiet hok hq hp
    have hclean : (commandTree args).toReply.leftover 2 = [] :=
      Reply.clean_of_isValue ⟨_, hout⟩
    rw [hclean, List.nil_append] at hleft
    have hvalue := hres.trans hout
    rw [value_commandTree] at hvalue
    have hrest := ih (Nat.le_add_left rest.length fuel) hok' hq' hleft
    rw [List.length_cons, ← Nat.add_assoc, readCommands, if_neg hne]
    rcases hread : r.readResponse 2 feed with ⟨res, r', feed'⟩
    rw [hread] at hvalue hrest
    simp only at hvalue
    rw [hvalue]
    simp only [bulkArgs_commandValue, List.map_cons]
    exact congrArg (rawArgs args :: ·) hrest

/-- However the bytes of commands are cut, a server receives the arguments of the commands. -/
theorem received_encodeCommands (commands : List (List Arg)) {chunks : List Chunk}
    (hcut : chunks.flatMap Chunk.bytes = encodeCommands commands) :
    received chunks = commands.map rawArgs := by
  have hlength : commands.length ≤ (encodeCommands commands).length := by
    rw [encodeCommands, List.length_flatMap]
    have hone : ∀ n ∈ commands.map fun args => (encodeCommand args).length, 1 ≤ n := by
      intro n hn
      obtain ⟨args, -, rfl⟩ := List.mem_map.mp hn
      exact List.length_pos_iff.mpr (by simp [encodeCommand])
    simpa using List.card_nsmul_le_sum _ 1 hone
  refine readCommands_encodeCommands commands (hcut ▸ hlength) ?_ (Feed.quiet_map_chunk chunks) ?_
  · exact Socket.settled_opened.ok
  · rw [RespReader.unread_init_map_chunk, hcut]

/-! ## The wire -/

/-- How the bytes of a transmission are cut into chunks. -/
structure Cutting where
  pieces : Bytes → List Chunk
  joined : ∀ b, (pieces b).flatMap Chunk.bytes = b

/-- The two directions of a transmission. -/
structure Path where
  there : Cutting
  back : Cutting

/-- What the network does during a call: with the health check of an idle connection, `none` if the
server has closed it, with the authentication of a new one, and with the call itself. -/
structure Link where
  ping : Option Path
  auth : Path
  call : Path

namespace Service

variable {σ : Type} (srv : Service σ)

/-- Commands arrive at the server and its answers arrive at the client. -/
def exchange (path : Path) (data : Bytes) (s : σ) : Exchange × σ :=
  let out := srv.answerAll (received (path.there.pieces data)) s
  (⟨.ok (), (path.back.pieces (Reply.encodeList out.1)).map .chunk⟩, out.2)

/-- The commands that were sent are executed and their answers are delivered. -/
lemma exchange_encodeCommands (path : Path) (commands : List (List Arg)) (s : σ) :
    (srv.exchange path (encodeCommands commands) s).1.Delivers
        (srv.answerAll (commands.map rawArgs) s).1 ∧
      (srv.exchange path (encodeCommands commands) s).2 =
        (srv.answerAll (commands.map rawArgs) s).2 := by
  have hreceived := received_encodeCommands commands (path.there.joined (encodeCommands commands))
  rw [exchange, hreceived]
  refine ⟨⟨rfl, Feed.quiet_map_chunk _, ?_⟩, rfl⟩
  rw [Buffered.data_map_chunk]
  exact path.back.joined _

/-- One command is executed and its answer is delivered. -/
lemma exchange_encodeCommand (path : Path) (args : List Arg) (s : σ) :
    (srv.exchange path (encodeCommand args) s).1.Delivers [(srv.answer (rawArgs args) s).1] ∧
      (srv.exchange path (encodeCommand args) s).2 = (srv.answer (rawArgs args) s).2 := by
  have hone : encodeCommands [args] = encodeCommand args := by
    rw [encodeCommands, List.flatMap_singleton]
  have hspec := srv.exchange_encodeCommands path [args] s
  rw [hone] at hspec
  exact hspec

end Service

/-! ## A client with a server behind the wire -/

/-- The commands one after the other. -/
def KacheClient.each : List (List Arg) → ClientScript (List RespValue)
  | [] => .pure []
  | args :: rest => do
    let v ← KacheClient.command args
    let vs ← each rest
    pure (v :: vs)

lemma KacheClient.calls_each (commands : List (List Arg)) :
    (each commands).Calls ClientCall.IsExecute := by
  induction commands with
  | nil => exact .pure _
  | cons args rest ih =>
    exact (calls_command args).bind fun v => ih.bind fun vs => .pure _

/-- The answer to an accepted `AUTH`. -/
def okReply : Reply :=
  .simple ⟨[79, 75], by decide⟩

/-- A client with the pipelines that it has made, the server that it talks to, and the number of
calls so far. -/
structure Remote (σ : Type) where
  client : KacheClient
  pipes : List Pipeline
  server : σ
  clock : ℕ

namespace Service

variable {σ : Type} (srv : Service σ)

/-- What the network does while a connection is acquired.  An idle connection that the server has
closed takes the health check and then ends. -/
def acquire (link : Link) (password : Option String) (s : σ) : Acquire where
  ping := link.ping.elim ⟨.ok (), []⟩ fun path =>
    (srv.exchange path (encodeCommand [.str "PING"]) s).1
  dial := .ok ()
  auth := password.elim KacheClient.up.auth fun password =>
    (srv.exchange link.auth (encodeCommand [.str "AUTH", .str password]) s).1

/-- The server answers the health check and accepts the password, and neither changes it. -/
structure Up (password : Option String) : Prop where
  ping : ∀ s, srv.answer (rawArgs [.str "PING"]) s = (ConnectionPool.pong, s)
  auth : ∀ p ∈ password, ∀ s, srv.answer (rawArgs [.str "AUTH", .str p]) s = (okReply, s)

end Service

namespace Remote

variable {σ : Type}

/-- A new client in front of a server. -/
def new (client : KacheClient) (server : σ) : Remote σ :=
  ⟨client, [], server, 0⟩

/-- What is sent on the connection that the client takes arrives at the server. -/
def reaches (limit : ℕ) (client : KacheClient) (env : Acquire) : Bool :=
  match (client.getConn limit env).1 with
  | .ok conn => conn.isConnected
  | .error _ => false

/-- The client answers the calls, with the server behind the wire. -/
def handle (limit : ℕ) (srv : Service σ) (links : ℕ → Link) :
    Handler ClientCall ClientCall.Answer Exc (Remote σ)
  | .execute args, s =>
    let link := links s.clock
    let env := srv.acquire link s.client.pool.password s.server
    let (x, server) := srv.exchange link.call (encodeCommand args) s.server
    let (res, client) := s.client.execute limit args env x
    let server := if reaches limit s.client env then server else s.server
    (res, ⟨client, s.pipes, server, s.clock + 1⟩)
  | .pipeline, s =>
    let env := srv.acquire (links s.clock) s.client.pool.password s.server
    match s.client.pipeline limit env with
    | (.ok pipe, client) =>
      (.ok s.pipes.length, ⟨client, s.pipes ++ [pipe], s.server, s.clock + 1⟩)
    | (.error e, client) => (.error e, ⟨client, s.pipes, s.server, s.clock + 1⟩)
  | .executePipeline i commands, s =>
    match s.pipes[i]? with
    | none => (.error .indexError, s)
    | some pipe =>
      let queued : Pipeline := ⟨pipe.conn, pipe.commands ++ commands⟩
      let (x, server) :=
        srv.exchange (links s.clock).call (encodeCommands queued.commands) s.server
      let (res, pipe') := queued.execute limit x
      let server := if pipe.conn.isConnected then server else s.server
      (res, ⟨s.client, s.pipes.set i pipe', server, s.clock + 1⟩)

/-- A program on a client in front of a server: its outcome, and the server behind it. -/
def runOn {α : Type} (limit : ℕ) (srv : Service σ) (links : ℕ → Link) (client : KacheClient)
    (s : σ) (m : ClientScript α) : Except Exc α × σ :=
  let out := m.run (handle limit srv links) (new client s)
  (out.1, out.2.server)

end Remote

/-! ## Acquiring a connection -/

namespace Service

variable {σ : Type} {srv : Service σ} {limit : ℕ} {d : Bool} {password : Option String}

/-- As long as the server keeps idle connections open, acquiring one is served. -/
lemma Up.serves (hup : srv.Up password) {link : Link} {path : Path} (hping : link.ping = some path)
    (s : σ) : (srv.acquire link password s).Serves (limit + 1) d where
  dial := rfl
  ping := by
    have hspec := (srv.exchange_encodeCommand path [.str "PING"] s).1
    rw [hup.ping] at hspec
    simp only [acquire, hping]
    exact hspec
  auth := by
    cases hpassword : password with
    | none => exact (KacheClient.serves_up limit d).auth
    | some p =>
      have hspec := (srv.exchange_encodeCommand link.auth [.str "AUTH", .str p] s).1
      rw [hup.auth p hpassword] at hspec
      exact ⟨okReply, .str "OK", hspec, by cases d <;> rfl, rfl⟩

end Service

namespace Connection

variable {limit : ℕ} {d : Bool} {conn : Connection}

/-- A connection on which nothing arrives any more fails its health check. -/
lemma Holds.checkHealth_ended (hconn : conn.Holds d []) :
    (conn.checkHealth limit ⟨.ok (), []⟩).1 = .ok false := by
  have hsettled : conn.Settled := by
    obtain ⟨-, s, hs, hholds⟩ := hconn
    intro s' hs'
    exact Option.some.inj (hs ▸ hs') ▸ hholds.settled
  have hanswers (reply : Reply) : (⟨.ok (), []⟩ : Exchange).Answers reply :=
    ⟨List.nil_prefix, by simp, by simp⟩
  -- a value would be that of every reply
  rcases roundTrip_spec limit [.str "PING"] hsettled (hanswers .null) with
    ⟨v, hv, hnull, -⟩ | ⟨e, he, hexc⟩
  · rcases roundTrip_spec limit [.str "PING"] hsettled (hanswers (.integer 0)) with
      ⟨w, hw, hint, -⟩ | ⟨e, he, -⟩
    · obtain rfl : v = w := Except.ok.inj (hv.symm.trans hw)
      cases limit with
      | zero => simp [Reply.decoded, Except.bind] at hnull
      | succ limit =>
        have hnone : Reply.null.decoded (limit + 1) conn.decodeResponses = .ok .none := by
          cases conn.decodeResponses <;> rfl
        have hzero : (Reply.integer 0).decoded (limit + 1) conn.decodeResponses =
            .ok (.int 0) := by
          cases conn.decodeResponses <;> rfl
        rw [hnone] at hnull
        rw [hzero, ← hnull] at hint
        cases hint
    · rw [he] at hv
      cases hv
  · rcases hrt : conn.roundTrip limit [.str "PING"] ⟨.ok (), []⟩ with ⟨res, conn'⟩
    rw [hrt] at he
    obtain rfl : res = .error e := he
    simp only [checkHealth, hrt, hexc, if_true]

end Connection

/-! ## One command -/

/-- The password of a pool does not change. -/
lemma ConnectionPool.Acquisition.password_eq {limit : ℕ} {p : ConnectionPool} {env : Acquire}
    {out : Except Exc Connection × ConnectionPool} (h : Acquisition limit p env out) :
    out.2.password = p.password := by
  have hcreation {q : ConnectionPool} {out : Except Exc Connection × ConnectionPool}
      (h : Creation limit q env out) : out.2.password = q.password := by
    cases h <;> rfl
  cases h with
  | fresh hpool hout => exact hcreation hout
  | reused conn conn' idle hpool hconn hhealth => rfl
  | interrupted conn conn' e idle hpool hconn hhealth => rfl
  | stale conn idle hpool hstale hout => exact (hcreation hout).trans rfl

namespace KacheClient

variable {limit : ℕ} {d : Bool} {c : KacheClient} {env : Acquire}

lemma password_getConn (limit : ℕ) (c : KacheClient) (env : Acquire) :
    (c.getConn limit env).2.pool.password = c.pool.password := by
  unfold getConn
  cases c.conn with
  | some conn => rfl
  | none => exact (c.pool.acquisition limit env).password_eq

lemma password_releaseConn (c : KacheClient) (conn : Connection) :
    (c.releaseConn conn).pool.password = c.pool.password := by
  unfold releaseConn ConnectionPool.releaseConnection
  cases c.conn with
  | some conn' => rfl
  | none =>
    dsimp only
    split_ifs <;> rfl

/-- A command does not change the password. -/
lemma password_execute (limit : ℕ) (c : KacheClient) (args : List Arg) (env : Acquire)
    (x : Exchange) : (c.execute limit args env x).2.pool.password = c.pool.password := by
  have hget := c.password_getConn limit env
  unfold execute
  rcases hacquired : c.getConn limit env with ⟨e | conn, c'⟩
  · rw [hacquired] at hget
    exact hget
  · rw [hacquired] at hget
    rcases hrt : conn.roundTrip limit args x with ⟨e | v, conn'⟩
    · simp only [hrt]
      exact (password_releaseConn _ _).trans hget
    · simp only [hrt]
      exact (password_releaseConn _ _).trans hget

/-- The client without its idle connections, which were stale. -/
def withoutIdle (c : KacheClient) : KacheClient :=
  { c with pool := c.pool.withoutStale [] }

/-- Without its stale connection the client still takes a connection for each command. -/
lemma PerCall.withoutIdle (hc : c.PerCall d) {conn : Connection} (hpool : c.pool.pool = [conn]) :
    c.withoutIdle.PerCall d := by
  refine ⟨hc.conn_eq, hc.decodeResponses_eq, hc.room, ?_, .inl rfl⟩
  have hcount := hc.count_eq
  rw [hpool, List.length_singleton] at hcount
  simp [KacheClient.withoutIdle, ConnectionPool.withoutStale, ConnectionPool.discounting, hcount]

/-- Whether or not the server has closed the idle connection, the client acquires what a client
acquires whose connections are all served. -/
lemma PerCall.exists_served {σ : Type} {srv : Service σ} {password : Option String}
    (hc : c.PerCall d) (hup : srv.Up password) (limit : ℕ) (link : Link) (s : σ) :
    ∃ (c' : KacheClient) (env : Acquire), c'.PerCall d ∧ env.Serves (limit + 1) d ∧
      c.getConn (limit + 1) (srv.acquire link password s) = c'.getConn (limit + 1) env := by
  cases hping : link.ping with
  | some path => exact ⟨c, _, hc, hup.serves hping s, rfl⟩
  | none =>
    -- the same network with a health check that is answered
    let served : Link := { link with ping := some link.auth }
    have hserves : (srv.acquire served password s).Serves (limit + 1) d := hup.serves rfl s
    rcases hc.idle with hnil | ⟨conn, hpool, hholds⟩
    · -- there is no idle connection to check
      refine ⟨c, _, hc, hserves, ?_⟩
      simp only [getConn, hc.conn_eq, ConnectionPool.getConnection_of_nil hnil]
      rfl
    · -- the idle connection is replaced
      have hended : (srv.acquire link password s).ping = ⟨.ok (), []⟩ := by
        simp only [Service.acquire, hping, Option.elim_none]
      have hstale : (conn.checkHealth (limit + 1) (srv.acquire link password s).ping).1 =
          .ok false := by
        rw [hended]
        exact hholds.checkHealth_ended
      refine ⟨c.withoutIdle, _, hc.withoutIdle hpool, hserves, ?_⟩
      simp only [getConn, KacheClient.withoutIdle, hc.conn_eq,
        ConnectionPool.getConnection_of_stale hpool fun _ => hstale]
      rfl

/-- A client acquires a connection that owes nothing. -/
lemma PerCall.getConn_acquire {σ : Type} {srv : Service σ} {password : Option String}
    (hc : c.PerCall d) (hup : srv.Up password) (limit : ℕ) (link : Link) (s : σ) :
    ∃ conn pool, c.getConn (limit + 1) (srv.acquire link password s) = (.ok conn, ⟨pool, none⟩) ∧
      conn.Holds d [] := by
  obtain ⟨c', env, hc', henv, hget⟩ := hc.exists_served hup limit link s
  obtain ⟨conn, pool, hacquired, hholds, -⟩ := hc'.getConnection henv
  refine ⟨conn, pool, hget.trans ?_, hholds⟩
  simp only [getConn, hc'.conn_eq, hacquired]

/-- A command has the outcome of its reply. -/
lemma PerCall.execute_acquire {σ : Type} {srv : Service σ} {password : Option String}
    (hc : c.PerCall d) (hup : srv.Up password) (limit : ℕ) (link : Link) (s : σ)
    (args : List Arg) {x : Exchange} {reply : Reply} (hx : x.Delivers [reply]) :
    (c.execute (limit + 1) args (srv.acquire link password s) x).1 =
        reply.decoded (limit + 1) d ∧
      (c.execute (limit + 1) args (srv.acquire link password s) x).2.PerCall d := by
  obtain ⟨c', env, hc', henv, hget⟩ := hc.exists_served hup limit link s
  rw [KacheClient.execute, hget, ← KacheClient.execute]
  have hcall : Call.Serves (limit + 1) d ⟨args, env, x⟩ reply := ⟨henv, hx⟩
  exact hc'.execute hcall

end KacheClient

namespace Remote

variable {σ : Type} {srv : Service σ} {limit : ℕ} {d : Bool} {password : Option String}

/-- The client takes a connection for each command, with the password of the server, and the
server is in this state. -/
structure Matches (d : Bool) (password : Option String) (s : Remote σ) (t : σ) : Prop where
  perCall : s.client.PerCall d
  password_eq : s.client.pool.password = password
  server_eq : s.server = t

/-- What the client sends arrives. -/
lemma reaches_acquire (hup : srv.Up password) {c : KacheClient} (hc : c.PerCall d) (limit : ℕ)
    (link : Link) (s : σ) : reaches (limit + 1) c (srv.acquire link password s) = true := by
  obtain ⟨conn, pool, hget, hholds⟩ := hc.getConn_acquire hup limit link s
  rw [reaches, hget]
  exact hholds.isConnected

/-- **Every command has the outcome that the service gives it.** -/
theorem simulates (hup : srv.Up password) (limit : ℕ) (d : Bool) (links : ℕ → Link) :
    Handler.Simulates ClientCall.IsExecute (Matches d password)
      (handle (limit + 1) srv links) (srv.handle (limit + 1) d) := by
  rintro call ⟨client, pipes, server, clock⟩ t hcall ⟨hc, hpassword, hserver⟩
  obtain rfl : server = t := hserver
  cases call with
  | pipeline => exact hcall.elim
  | executePipeline i commands => exact hcall.elim
  | execute args =>
    obtain ⟨hx, hnext⟩ := srv.exchange_encodeCommand (links clock).call args server
    have hreaches := reaches_acquire hup hc limit (links clock) server
    obtain ⟨hres, hclient⟩ := hc.execute_acquire hup limit (links clock) server args hx
    have hkeep := client.password_execute (limit + 1) args
      (srv.acquire (links clock) password server)
      (srv.exchange (links clock).call (encodeCommand args) server).1
    simp only [] at hc hpassword
    simp only [handle, Service.handle, hpassword, hreaches, if_true]
    exact ⟨hres, hclient, hkeep.trans hpassword, hnext⟩

/-- A new client has a connection for each command. -/
lemma matches_new (host : String) (port : ℕ) {maxConnections : ℕ} (hroom : 1 ≤ maxConnections)
    (d : Bool) (password : Option String) (s : σ) :
    (new (.new host port maxConnections d password) s).Matches d password s :=
  ⟨KacheClient.perCall_new host port d password hroom, rfl, rfl⟩

/-- **Programs cannot tell the wire from the service.**  A program that executes commands on a new
client has the outcome that the service itself gives it, and leaves the service in the same state,
however the network cuts the commands and the answers and whichever idle connections the server
closes. -/
theorem run_eq {α : Type} (hup : srv.Up password) (links : ℕ → Link) (limit : ℕ) (host : String)
    (port : ℕ) {maxConnections : ℕ} (hroom : 1 ≤ maxConnections) (d : Bool) (m : ClientScript α)
    (hm : m.Calls ClientCall.IsExecute) (s : σ) :
    runOn (limit + 1) srv links (.new host port maxConnections d password) s m =
      m.run (srv.handle (limit + 1) d) s := by
  obtain ⟨hres, hnext⟩ :=
    (simulates hup limit d links).run hm (matches_new host port hroom d password s)
  exact Prod.ext hres hnext.server_eq

/-! ### A server -/

/-- A server that counts the commands `INCR`. -/
def counter : Service ℤ where
  answer args n :=
    if args = rawArgs [.str "PING"] then (ConnectionPool.pong, n)
    else if args.take 1 = rawArgs [.str "AUTH"] then (okReply, n)
    else if args.take 1 = rawArgs [.str "INCR"] then (.integer (n + 1), n + 1)
    else (.error ⟨[69], by decide⟩, n)

lemma up_counter (password : Option String) : counter.Up password where
  ping _ := rfl
  auth _ _ _ := rfl

/-- Every byte is a chunk of its own. -/
def bytewise : Cutting where
  pieces b := b.map fun x => ⟨[x], List.cons_ne_nil _ _⟩
  joined b := by rw [List.flatMap_map, List.flatMap_singleton']

/-- A network that sends bytes one by one, on which the server closes every idle connection. -/
def bytewiseLinks : ℕ → Link :=
  fun _ => ⟨none, ⟨bytewise, bytewise⟩, ⟨bytewise, bytewise⟩⟩

/-- Two commands, the first of which is answered with an error. -/
theorem run_eq_counter :
    runOn 2 counter bytewiseLinks (.new "127.0.0.1" 6379 1 false (some "secret")) 4
        (KacheClient.each [[.str "FOO"], [.str "INCR", .str "k"]]) =
      (KacheClient.each [[.str "FOO"], [.str "INCR", .str "k"]]).run (counter.handle 2 false) 4 :=
  run_eq (up_counter (some "secret")) bytewiseLinks 1 "127.0.0.1" 6379 le_rfl false _
    (KacheClient.calls_each _) 4

end Remote

/-! ## Pipelines -/

/-- The commands on a new pipeline. -/
def KacheClient.pipelined (commands : List (List Arg)) : ClientScript (List RespValue) := do
  let pipe ← Script.ask ClientCall.pipeline
  Script.ask (ClientCall.executePipeline pipe commands)

namespace Service

variable {σ : Type} (srv : Service σ) (limit : ℕ) (d : Bool)

/-- The commands up to the first one whose answer gives no value, with this one. -/
def executed : List (List Bytes) → σ → List (List Bytes)
  | [], _ => []
  | args :: rest, s =>
    match (srv.answer args s).1.decoded limit d with
    | .ok _ => args :: executed rest (srv.answer args s).2
    | .error _ => [args]

/-- Commands that are all answered with values are all executed. -/
lemma executed_of_values {commands : List (List Bytes)} {s : σ} {vs : List RespValue}
    (h : Reply.values limit d (srv.answerAll commands s).1 = .ok vs) :
    srv.executed limit d commands s = commands := by
  induction commands generalizing s vs with
  | nil => rfl
  | cons args rest ih =>
    rw [answerAll, Reply.values] at h
    cases hv : (srv.answer args s).1.decoded limit d with
    | error e => simp [hv, Except.bind] at h
    | ok v =>
      cases hrest : Reply.values limit d (srv.answerAll rest (srv.answer args s).2).1 with
      | error e => simp [hv, hrest, Except.bind, Except.map] at h
      | ok vs' => simp only [executed, hv, ih hrest]

/-- One command after the other: the values of the answers, or the first exception, behind which
no command is executed. -/
theorem run_each (commands : List (List Arg)) (s : σ) :
    (KacheClient.each commands).run (srv.handle limit d) s =
      (Reply.values limit d (srv.answerAll (commands.map rawArgs) s).1,
        (srv.answerAll (srv.executed limit d (commands.map rawArgs) s) s).2) := by
  induction commands generalizing s with
  | nil => rfl
  | cons args rest ih =>
    rw [KacheClient.each, Script.bind_eq, Script.run_bind, KacheClient.command, Script.run_ask,
      handle, List.map_cons, answerAll, Reply.values, executed]
    cases hv : (srv.answer (rawArgs args) s).1.decoded limit d with
    | error e => rfl
    | ok v =>
      simp only [Script.bind_eq, Script.run_bind, ih, answerAll, Except.bind]
      cases Reply.values limit d
        (srv.answerAll (rest.map rawArgs) (srv.answer (rawArgs args) s).2).1 <;> rfl

end Service

/-- The loop over a reader that reads frame by frame gives the values of the frames. -/
lemma collect_values {τ : Type} {read : τ → Except Exc RespValue × τ} {Unread : τ → Bytes → Prop}
    {limit : ℕ} {d : Bool}
    (hread : ∀ s (r : Reply) rest, Unread s (r.encode ++ rest) →
      (read s).1 = r.decoded limit d ∧ Unread (read s).2 (r.leftover limit ++ rest))
    (frames : List Reply) {s : τ} (h : Unread s (Reply.encodeList frames)) :
    (collect read frames.length s).1 = Reply.values limit d frames := by
  induction frames generalizing s with
  | nil => rfl
  | cons r rs ih =>
    obtain ⟨hres, hleft⟩ := hread s r _ h
    rw [Reply.values, List.length_cons, collect, ← hres]
    rcases hs : read s with ⟨e | v, s'⟩
    · rfl
    · simp only [hs] at hres hleft
      rw [Reply.clean_of_decoded hres.symm] at hleft
      have hrest := ih hleft
      rw [← hrest]
      rcases hc : collect read rs.length s' with ⟨_ | _, s''⟩ <;> simp only [hc] <;> rfl

/-- A pipeline on a connection that owes nothing gives the values of its replies. -/
lemma Pipeline.execute_values (limit : ℕ) {d : Bool} {p : Pipeline} {x : Exchange}
    {frames : List Reply} (hp : p.conn.Holds d []) (hlen : frames.length = p.commands.length)
    (hx : x.Delivers frames) : (p.execute limit x).1 = Reply.values limit d frames := by
  cases hcommands : p.commands with
  | nil =>
    obtain rfl : frames = [] := List.length_eq_zero_iff.mp (by rw [hlen, hcommands]; rfl)
    simp only [execute, hcommands, List.isEmpty_nil, if_true]
    rfl
  | cons args rest =>
    have hempty : p.commands.isEmpty = false := by rw [hcommands, List.isEmpty_cons]
    obtain ⟨conn, hsend, hconn⟩ := hp.sendAll "sending data to" (encodeCommands p.commands) hx
    simp only [Pipeline.execute, Connection.sendPacked, hempty, hsend, ← hlen]
    have hread : ∀ (c : Connection) (r : Reply) rest, c.Holds d (r.encode ++ rest) →
        (c.readResponse limit).1 = r.decoded limit d ∧
          (c.readResponse limit).2.Holds d (r.leftover limit ++ rest) :=
      fun _ _ _ hc => hc.readResponse limit
    exact collect_values hread frames hconn

namespace Remote

variable {σ : Type} {srv : Service σ} {d : Bool} {password : Option String}

/-- What a new pipeline comes to behind the wire: the server executes all commands. -/
lemma run_pipelined (hup : srv.Up password) (limit : ℕ) (links : ℕ → Link) {s : Remote σ} {t : σ}
    (hs : s.Matches d password t) (commands : List (List Arg)) :
    ((KacheClient.pipelined commands).run (handle (limit + 1) srv links) s).1 =
        Reply.values (limit + 1) d (srv.answerAll (commands.map rawArgs) t).1 ∧
      ((KacheClient.pipelined commands).run (handle (limit + 1) srv links) s).2.server =
        (srv.answerAll (commands.map rawArgs) t).2 := by
  obtain ⟨client, pipes, server, clock⟩ := s
  obtain ⟨hc, hpassword, hserver⟩ := hs
  obtain rfl : server = t := hserver
  obtain ⟨conn, pool, hget, hholds⟩ := hc.getConn_acquire hup limit (links clock) server
  have hpipe : (Script.ask ClientCall.pipeline).run (handle (limit + 1) srv links)
      ⟨client, pipes, server, clock⟩ =
        (.ok pipes.length, ⟨⟨pool, none⟩, pipes ++ [⟨conn, []⟩], server, clock + 1⟩) := by
    simp only [] at hpassword hget
    simp only [Script.run_ask, handle, KacheClient.pipeline, hpassword, hget]
  obtain ⟨hx, hnext⟩ :=
    srv.exchange_encodeCommands (links (clock + 1)).call commands server
  have hlen := srv.length_answerAll (commands.map rawArgs) server
  rw [List.length_map] at hlen
  have hvalues := Pipeline.execute_values (limit + 1) (p := ⟨conn, commands⟩) hholds hlen hx
  rw [KacheClient.pipelined, Script.bind_eq, Script.run_bind_of_ok hpipe, Script.run_ask]
  simp only [handle, List.getElem?_concat_length, List.nil_append, hholds.isConnected, if_true]
  exact ⟨hvalues, hnext⟩

variable (srv) in
/-- What pipelining changes.  The results are the same, and so is the exception if a reply gives no
value.  The server executes all commands of the pipeline, but of the commands one after the other
only those up to the first exception. -/
structure PipelinesLikeEach (limit : ℕ) (links links' : ℕ → Link) (client : KacheClient)
    (commands : List (List Arg)) (s : σ) : Prop where
  same_results : (runOn limit srv links client s (KacheClient.pipelined commands)).1 =
    (runOn limit srv links' client s (KacheClient.each commands)).1
  all_executed : (runOn limit srv links client s (KacheClient.pipelined commands)).2 =
    (srv.answerAll (commands.map rawArgs) s).2
  each_executed : (runOn limit srv links' client s (KacheClient.each commands)).2 =
    (srv.answerAll (srv.executed limit client.pool.decodeResponses (commands.map rawArgs) s) s).2
  same_server :
    (∃ vs, (runOn limit srv links client s (KacheClient.pipelined commands)).1 = .ok vs) →
      (runOn limit srv links client s (KacheClient.pipelined commands)).2 =
        (runOn limit srv links' client s (KacheClient.each commands)).2

/-- **A pipeline against the same commands one after the other.** -/
theorem pipelined_like_each (hup : srv.Up password) (links links' : ℕ → Link) (limit : ℕ)
    (host : String) (port : ℕ) {maxConnections : ℕ} (hroom : 1 ≤ maxConnections) (d : Bool)
    (commands : List (List Arg)) (s : σ) :
    PipelinesLikeEach srv (limit + 1) links links' (.new host port maxConnections d password)
      commands s := by
  have hnew := matches_new host port hroom d password s
  obtain ⟨hres, hserver⟩ := run_pipelined hup limit links hnew commands
  obtain ⟨hres', hserver'⟩ :=
    (simulates hup limit d links').run (KacheClient.calls_each commands) hnew
  rw [srv.run_each] at hres' hserver'
  refine ⟨hres.trans hres'.symm, hserver, hserver'.server_eq, ?_⟩
  rintro ⟨vs, hvs⟩
  have hall := srv.executed_of_values (limit + 1) d (hres.symm.trans hvs)
  rw [hall] at hserver'
  exact hserver.trans hserver'.server_eq.symm

/-- Three commands, the second of which is answered with an error. -/
theorem pipelined_like_each_counter :
    PipelinesLikeEach counter 2 bytewiseLinks bytewiseLinks (.new "127.0.0.1" 6379 1 false none)
      [[.str "INCR", .str "k"], [.str "FOO"], [.str "INCR", .str "k"]] 4 :=
  pipelined_like_each (up_counter none) bytewiseLinks bytewiseLinks 1 "127.0.0.1" 6379 le_rfl false
    [[.str "INCR", .str "k"], [.str "FOO"], [.str "INCR", .str "k"]] 4

end Remote

end KacheDB
