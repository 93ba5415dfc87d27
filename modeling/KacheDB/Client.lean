import KacheDB.Pool

/-!
# The synchronous client

`KacheClient` executes commands either on a dedicated connection or on one that it takes from
the pool for each command.  A connection on which a command fails is disconnected, and the pool
does not take disconnected connections back.

The invariant is that every connection that the client or its pool keeps open has nothing
unread on it.  `KacheClient.execute_matches` follows: whatever happened to earlier commands, a
command that returns a value returns the value of its own reply.
-/

namespace KacheDB

open Foundation

/-- A client: its pool `_pool` and its dedicated connection `_conn`. -/
structure KacheClient where
  pool : ConnectionPool
  conn : Option Connection

/-- A call of the client, with what the network does during it. -/
inductive ClientOp : Type where
  | connect (env : Acquire)
  | close
  | disconnectAll
  | execute (args : List Arg) (env : Acquire) (x : Exchange)

namespace KacheClient

/-- A new client. -/
def new (host : String) (port maxConnections : ℕ) (decodeResponses : Bool)
    (password : Option String) : KacheClient :=
  ⟨.new host port maxConnections decodeResponses password, none⟩

/-- Establish a dedicated connection. -/
def connect (limit : ℕ) (c : KacheClient) (env : Acquire) : Except Exc Unit × KacheClient :=
  match c.pool.getConnection limit env with
  | (.ok conn, pool) => (.ok (), ⟨pool, some conn⟩)
  | (.error e, pool) => (.error e, { c with pool := pool })

/-- Release the dedicated connection back to the pool. -/
def close (c : KacheClient) : KacheClient :=
  match c.conn with
  | some conn => ⟨c.pool.releaseConnection conn, none⟩
  | none => c

/-- Close all connections in the pool. -/
def disconnectAll (c : KacheClient) : KacheClient :=
  { c with pool := c.pool.disconnectAll }

/-- Get the active connection or checkout from pool. -/
def getConn (limit : ℕ) (c : KacheClient) (env : Acquire) :
    Except Exc Connection × KacheClient :=
  match c.conn with
  | some conn => (.ok conn, c)
  | none =>
    match c.pool.getConnection limit env with
    | (res, pool) => (res, { c with pool := pool })

/-- Release if it was a per-call checkout; a dedicated connection stays with the client in the
state `conn` in which the call leaves it. -/
def releaseConn (c : KacheClient) (conn : Connection) : KacheClient :=
  match c.conn with
  | some _ => { c with conn := some conn }
  | none => { c with pool := c.pool.releaseConnection conn }

/-- Execute a single command and return the response. -/
def execute (limit : ℕ) (c : KacheClient) (args : List Arg) (env : Acquire) (x : Exchange) :
    Except Exc RespValue × KacheClient :=
  match c.getConn limit env with
  | (.error e, c') => (.error e, c')
  | (.ok conn, c') =>
    match conn.roundTrip limit args x with
    | (.ok v, conn') => (.ok v, c'.releaseConn conn')
    | (.error e, conn') =>
      -- on error, discard the connection
      (.error e, c'.releaseConn (if e.isException then conn'.disconnect else conn'))

/-- One call. -/
def step (limit : ℕ) (c : KacheClient) : ClientOp → KacheClient
  | .connect env => (c.connect limit env).2
  | .close => c.close
  | .disconnectAll => c.disconnectAll
  | .execute args env x => (c.execute limit args env x).2

end KacheClient

/-! ## Servers that answer in order -/

/-- The health check and the authentication are each answered with a reply. -/
def Acquire.Conforms (env : Acquire) : Prop :=
  (∃ reply, env.ping.Answers reply) ∧ ∃ reply, env.auth.Answers reply

/-- Everything sent during the call is answered with a reply. -/
def ClientOp.Conforms : ClientOp → Prop
  | .connect env => env.Conforms
  | .close => True
  | .disconnectAll => True
  | .execute _ env x => env.Conforms ∧ ∃ reply, x.Answers reply

/-! ## Connections with nothing unread -/

/-- Nothing is unread on the connection, and it decodes responses as its pool does. -/
def Connection.Clean (d : Bool) (c : Connection) : Prop :=
  c.Settled ∧ c.decodeResponses = d

/-- A healthy connection has nothing unread after its health check. -/
lemma Connection.Clean.checkHealth {d : Bool} {c c' : Connection} (hc : c.Clean d) {limit : ℕ}
    {ping : Exchange} {reply : Reply} (hping : ping.Answers reply)
    (h : c.checkHealth limit ping = (.ok true, c')) : c'.Clean d := by
  have hspec := Connection.roundTrip_spec limit [.str "PING"] hc.1 hping
  have hdecode := c.roundTrip_decodeResponses limit [.str "PING"] ping
  unfold Connection.checkHealth at h
  rcases hrt : c.roundTrip limit [.str "PING"] ping with ⟨e | v, conn⟩
  · rw [hrt] at h
    by_cases he : e.isException = true <;> simp [he] at h
  · rw [hrt] at hspec hdecode h
    have hconn : conn = c' := by cases v <;> simp_all
    rcases hspec with ⟨w, -, -, hsettled⟩ | ⟨e, he, -⟩
    · exact hconn ▸ ⟨hsettled, hdecode.trans hc.2⟩
    · cases he

namespace ConnectionPool

/-- Every idle connection of the pool has nothing unread. -/
def AllClean (d : Bool) (p : ConnectionPool) : Prop :=
  p.decodeResponses = d ∧ ∀ conn ∈ p.pool, conn.Clean d

variable {limit : ℕ} {d : Bool} {p : ConnectionPool} {env : Acquire}
  {out : Except Exc Connection × ConnectionPool}

/-- Of what a pool hands out and keeps, everything has nothing unread. -/
def GivesClean (d : Bool) (out : Except Exc Connection × ConnectionPool) : Prop :=
  (∀ conn, out.1 = .ok conn → conn.Clean d) ∧ out.2.AllClean d

/-- A connection just opened has nothing unread. -/
lemma clean_openedConnection (hp : p.AllClean d) : p.openedConnection.Clean d := by
  refine ⟨?_, hp.1⟩
  intro s hs
  obtain rfl : .opened = s := Option.some.inj hs
  exact Socket.settled_opened

/-- A new connection has nothing unread, also after its authentication. -/
lemma Creation.givesClean (h : Creation limit p env out) (hp : p.AllClean d)
    (henv : env.Conforms) : GivesClean d out := by
  have hopened := clean_openedConnection hp
  cases h with
  | exhausted e hfull => exact ⟨by simp, hp⟩
  | notOpened e e' hroom hdial => exact ⟨by simp, hp⟩
  | opened hroom hdial hpassword =>
    refine ⟨?_, hp⟩
    rintro conn ⟨⟩
    exact hopened
  | notAuthenticated password e conn hroom hdial hpassword hauth => exact ⟨by simp, hp⟩
  | authenticated password res conn hroom hdial hpassword hauth hok =>
    obtain ⟨reply, hreply⟩ := henv.2
    have hspec := Connection.roundTrip_spec limit [.str "AUTH", .str password] hopened.1 hreply
    have hdecode := p.openedConnection.roundTrip_decodeResponses limit
      [.str "AUTH", .str password] env.auth
    unfold authenticate at hauth
    rw [hauth] at hspec hdecode
    refine ⟨?_, hp⟩
    rintro conn' ⟨⟩
    rcases hspec with ⟨v, -, -, hsettled⟩ | ⟨e, he, -⟩
    · exact ⟨hsettled, hdecode.trans hopened.2⟩
    · cases he
  | rejected password res conn hdial hpassword hauth => exact ⟨by simp, hp⟩

/-- A pool of connections with nothing unread hands out such connections. -/
lemma Acquisition.givesClean (h : Acquisition limit p env out) (hp : p.AllClean d)
    (henv : env.Conforms) : GivesClean d out := by
  cases h with
  | fresh hpool hout => exact hout.givesClean hp henv
  | reused conn conn' idle hpool hconn hhealth =>
    have hmem : conn ∈ p.pool := by simp [hpool]
    obtain ⟨reply, hreply⟩ := henv.1
    refine ⟨?_, hp.1, fun c hc => hp.2 c (by simp [hpool, hc])⟩
    rintro c ⟨⟩
    exact (hp.2 conn hmem).checkHealth hreply hhealth
  | interrupted conn conn' e idle hpool hconn hhealth =>
    exact ⟨by simp, hp.1, fun c hc => hp.2 c (by simp [hpool, hc])⟩
  | stale conn idle hpool hstale hout =>
    refine hout.givesClean ⟨hp.1, fun c hc => hp.2 c ?_⟩ henv
    have hidle : c ∈ idle := hc
    simp [hpool, hidle]

/-- Releasing a connection with nothing unread. -/
lemma AllClean.releaseConnection (hp : p.AllClean d) {conn : Connection} (hconn : conn.Clean d) :
    (p.releaseConnection conn).AllClean d := by
  unfold ConnectionPool.releaseConnection
  split_ifs
  · refine ⟨hp.1, fun c hc => ?_⟩
    rcases List.mem_append.mp hc with hc | hc
    · exact hp.2 c hc
    · exact List.mem_singleton.mp hc ▸ hconn
  · exact hp

end ConnectionPool

/-! ## Whole runs -/

namespace KacheClient

/-- Every connection that the client keeps has nothing unread. -/
def AllClean (d : Bool) (c : KacheClient) : Prop :=
  c.pool.AllClean d ∧ ∀ conn, c.conn = some conn → conn.Clean d

variable {limit : ℕ} {d : Bool} {c : KacheClient} {env : Acquire}

/-- The connection of a command has nothing unread. -/
lemma AllClean.getConn (hc : c.AllClean d) (henv : env.Conforms) :
    (∀ conn, (c.getConn limit env).1 = .ok conn → conn.Clean d) ∧
      (c.getConn limit env).2.AllClean d := by
  unfold KacheClient.getConn
  cases hconn : c.conn with
  | some conn =>
    refine ⟨?_, hc⟩
    rintro conn' ⟨⟩
    exact hc.2 conn hconn
  | none =>
    obtain ⟨hout, hpool⟩ := (c.pool.acquisition limit env).givesClean hc.1 henv
    exact ⟨hout, hpool, by simp⟩

/-- A connection with nothing unread is kept. -/
lemma AllClean.releaseConn (hc : c.AllClean d) {conn : Connection} (hconn : conn.Clean d) :
    (c.releaseConn conn).AllClean d := by
  unfold KacheClient.releaseConn
  cases hcc : c.conn with
  | some conn' =>
    refine ⟨hc.1, ?_⟩
    rintro conn'' ⟨⟩
    exact hconn
  | none => exact ⟨hc.1.releaseConnection hconn, by simp⟩

/-- A command returns the value of its own reply or raises, and afterwards the client again
keeps only connections with nothing unread. -/
theorem AllClean.execute (hc : c.AllClean d) (henv : env.Conforms) (args : List Arg)
    {x : Exchange} {reply : Reply} (hx : x.Answers reply) :
    (∀ v, (c.execute limit args env x).1 = .ok v → reply.decoded limit d = .ok v) ∧
      (c.execute limit args env x).2.AllClean d := by
  obtain ⟨hconn, hc'⟩ := @AllClean.getConn limit d c env hc henv
  unfold KacheClient.execute
  rcases hget : c.getConn limit env with ⟨e | conn, c'⟩
  · rw [hget] at hc'
    exact ⟨by simp, hc'⟩
  · rw [hget] at hconn hc'
    have hclean := hconn conn rfl
    have hspec := Connection.roundTrip_spec limit args hclean.1 hx
    have hdecode := conn.roundTrip_decodeResponses limit args x
    rcases hrt : conn.roundTrip limit args x with ⟨e | v, conn'⟩
    · rw [hrt] at hspec hdecode
      have he : e.isException = true := by simpa using hspec
      simp only [hrt, he, if_true]
      refine ⟨by simp, hc'.releaseConn ⟨conn'.settled_disconnect, ?_⟩⟩
      exact hdecode.trans hclean.2
    · rw [hrt] at hspec hdecode
      simp only [hrt]
      rcases hspec with ⟨w, ⟨⟩, hdec, hsettled⟩ | ⟨e, he, -⟩
      · refine ⟨?_, hc'.releaseConn ⟨hsettled, hdecode.trans hclean.2⟩⟩
        rintro w ⟨⟩
        rw [← hclean.2]
        exact hdec
      · cases he

/-- Every call keeps the invariant. -/
lemma AllClean.step (c : KacheClient) (op : ClientOp) (hc : c.AllClean d) (hop : op.Conforms) :
    (c.step limit op).AllClean d := by
  cases op with
  | connect env =>
    obtain ⟨hout, hpool⟩ := (c.pool.acquisition limit env).givesClean hc.1 hop
    simp only [KacheClient.step, KacheClient.connect]
    rcases hget : c.pool.getConnection limit env with ⟨e | conn, pool⟩
    · rw [hget] at hpool
      exact ⟨hpool, hc.2⟩
    · rw [hget] at hout hpool
      refine ⟨hpool, ?_⟩
      rintro conn' ⟨⟩
      exact hout conn rfl
  | close =>
    simp only [KacheClient.step, KacheClient.close]
    cases hconn : c.conn with
    | none => exact hc
    | some conn => exact ⟨hc.1.releaseConnection (hc.2 conn hconn), by simp⟩
  | disconnectAll =>
    refine ⟨⟨hc.1.1, ?_⟩, hc.2⟩
    simp [KacheClient.step, KacheClient.disconnectAll, ConnectionPool.disconnectAll]
  | execute args env x =>
    obtain ⟨henv, reply, hx⟩ := hop
    exact (hc.execute henv args hx).2

/-- A new client keeps no connection. -/
lemma allClean_new (host : String) (port maxConnections : ℕ) (d : Bool)
    (password : Option String) : (new host port maxConnections d password).AllClean d :=
  ⟨⟨rfl, by simp [new, ConnectionPool.new]⟩, by simp [new]⟩

/-- **Reply matching.**  After any run of a client whose servers answer in order, a command that
returns a value returns the value of its own reply. -/
theorem execute_matches (limit : ℕ) (host : String) (port maxConnections : ℕ) (d : Bool)
    (password : Option String) (ops : List ClientOp) (hops : ∀ op ∈ ops, op.Conforms)
    (args : List Arg) (env : Acquire) (henv : env.Conforms) (x : Exchange) (reply : Reply)
    (hx : x.Answers reply) (v : RespValue)
    (hv : ((ops.foldl (step limit) (new host port maxConnections d password)).execute limit args
      env x).1 = .ok v) : reply.decoded limit d = .ok v := by
  have hnew := allClean_new host port maxConnections d password
  have hrun : (ops.foldl (step limit) (new host port maxConnections d password)).AllClean d :=
    List.foldlRecOn ops (step limit) hnew fun c hc op hop => AllClean.step c op hc (hops op hop)
  exact (hrun.execute henv args hx).1 v hv

/-- A network on which connections open and health checks are cut off. -/
lemma conforms_dialsOnly : Checkouts.dialsOnly.Conforms :=
  ⟨⟨.null, List.nil_prefix, by simp [Checkouts.dialsOnly], by simp [Checkouts.dialsOnly]⟩,
    ⟨.null, List.nil_prefix, by simp [Checkouts.dialsOnly], by simp [Checkouts.dialsOnly]⟩⟩

/-- A command times out in the middle of its reply, and the next command gets its own. -/
theorem execute_matches_after_timeout :
    Reply.null.decoded 1 false = .ok .none := by
  refine execute_matches 1 "127.0.0.1" 6379 10 false none
    [.execute [.str "INCR", .str "a"] Checkouts.dialsOnly
      ⟨.ok (), [.chunk ⟨[58, 53], by decide⟩, .interrupt (.builtinTimeout "timed out")]⟩]
    ?_ [.str "GET", .str "b"] Checkouts.dialsOnly conforms_dialsOnly
    ⟨.ok (), [.chunk ⟨[95, 13], by decide⟩, .chunk ⟨[10], by decide⟩]⟩ .null
    ⟨by decide, by simp, by simp⟩ .none rfl
  intro op hop
  obtain rfl := List.mem_singleton.mp hop
  refine ⟨conforms_dialsOnly, .integer 5, by decide, ?_, by simp⟩
  intro e he
  obtain rfl : e = .builtinTimeout "timed out" := by simpa using he
  rfl

end KacheClient

end KacheDB
