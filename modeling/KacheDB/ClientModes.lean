import KacheDB.Client
import KacheDB.PoolHealth

/-!
# The two modes of the synchronous client

A `KacheClient` executes a sequence of commands either on a dedicated connection, inside a `with`
block, or on a connection that it takes from the pool for each command.  Against a server that
stays up and answers every command, `outcomes_eq_iff` says when the two modes agree: exactly if
no reply but the last one raises.

Behind a reply that raises the modes part.  The connection is closed in both; the pool opens
another one for the next command, while the dedicated connection stays closed and every later
command raises `ConnectionError`.
-/

namespace KacheDB

open Foundation

/-- One command with what the network does during it. -/
structure Call where
  args : List Arg
  env : Acquire
  exchange : Exchange

/-- The outcomes of a sequence of commands. -/
def KacheClient.outcomes (limit : ℕ) : KacheClient → List Call → List (Except Exc RespValue)
  | _, [] => []
  | c, call :: calls =>
    let (res, c') := c.execute limit call.args call.env call.exchange
    res :: outcomes limit c' calls

lemma KacheClient.outcomes_cons (limit : ℕ) (c : KacheClient) (call : Call) (calls : List Call) :
    c.outcomes limit (call :: calls) =
      (c.execute limit call.args call.env call.exchange).1 ::
        (c.execute limit call.args call.env call.exchange).2.outcomes limit calls := rfl

/-- The server is up: connections open, the health check is answered with `+PONG`, and the
authentication is accepted. -/
structure Acquire.Serves (limit : ℕ) (d : Bool) (env : Acquire) : Prop where
  dial : env.dial = .ok ()
  ping : env.ping.Delivers [ConnectionPool.pong]
  auth : ∃ r v, env.auth.Delivers [r] ∧ r.decoded limit d = .ok v ∧ v.isOK = true

/-- The server is up and answers the command with this reply, in full. -/
def Call.Serves (limit : ℕ) (d : Bool) (call : Call) (reply : Reply) : Prop :=
  call.env.Serves limit d ∧ call.exchange.Delivers [reply]

/-! ## The exceptions of replies -/

/-- The exceptions that reading a reply gives rise to. -/
def Exc.ofReply : Exc → Bool
  | .responseError _ => true
  | .protocolError _ => true
  | .unicodeDecodeError => true
  | .recursionError => true
  | _ => false

namespace Reply

/-- A line is a text or cannot be decoded. -/
lemma ofReply_of_lineText {line : Line} {e : Exc} (h : lineText line = .error e) :
    e.ofReply = true := by
  unfold lineText at h
  cases hline : decodeUtf8 line.bytes with
  | some s => simp [hline] at h
  | none =>
    obtain rfl : .unicodeDecodeError = e := by simpa [hline] using h
    rfl

mutual

/-- What a reply gives rise to. -/
theorem ofReply_of_outcome : ∀ (r : Reply) (limit : ℕ) {e : Exc}, r.outcome limit = .error e →
    e.ofReply = true
  | r, 0, e, h => by
    obtain rfl : .recursionError = e := by simpa using h
    rfl
  | .simple line, limit + 1, e, h => by
    rw [outcome] at h
    cases htext : lineText line with
    | ok s => simp [htext, Except.map] at h
    | error e' =>
      obtain rfl : e' = e := by simpa [htext, Except.map] using h
      exact ofReply_of_lineText htext
  | .error line, limit + 1, e, h => by
    rw [outcome] at h
    cases htext : lineText line with
    | ok s =>
      obtain rfl : .responseError s = e := by simpa [htext, Except.bind] using h
      rfl
    | error e' =>
      obtain rfl : e' = e := by simpa [htext, Except.bind] using h
      exact ofReply_of_lineText htext
  | .integer _, _ + 1, e, h | .bulk _, _ + 1, e, h | .nullBulk, _ + 1, e, h
  | .nullArray, _ + 1, e, h | .null, _ + 1, e, h => by simp [outcome] at h
  | .foreign _ _, _ + 1, e, h => by
    obtain rfl := Except.error.inj h
    rfl
  | .array items, limit + 1, e, h => by
    rw [outcome] at h
    cases hl : outcomeList limit items with
    | ok vs => simp [hl, Except.map] at h
    | error e' =>
      obtain rfl : e' = e := by simpa [hl, Except.map] using h
      exact ofReply_of_outcomeList items limit hl

/-- The same for the items of an array. -/
theorem ofReply_of_outcomeList : ∀ (rs : List Reply) (limit : ℕ) {e : Exc},
    outcomeList limit rs = .error e → e.ofReply = true
  | [], limit, e, h => by simp [outcomeList] at h
  | r :: rs, limit, e, h => by
    cases hout : r.outcome limit with
    | error e' =>
      rw [outcomeList_cons_of_error hout] at h
      obtain rfl := Except.error.inj h
      exact ofReply_of_outcome r limit hout
    | ok v =>
      rw [outcomeList_cons_of_ok hout] at h
      cases hl : outcomeList limit rs with
      | ok vs => simp [hl, Except.map] at h
      | error e' =>
        obtain rfl : e' = e := by simpa [hl, Except.map] using h
        exact ofReply_of_outcomeList rs limit hl

end

/-- Decoding adds none. -/
lemma ofReply_of_decoded {limit : ℕ} {d : Bool} {r : Reply} {e : Exc}
    (h : r.decoded limit d = .error e) : e.ofReply = true := by
  rw [decoded] at h
  cases hout : r.outcome limit with
  | error e' =>
    obtain rfl : e' = e := by simpa [hout, Except.bind] using h
    exact ofReply_of_outcome r limit hout
  | ok v =>
    rw [hout] at h
    rw [decodeResponse_error h]
    rfl

end Reply

/-! ## A command on one connection -/

section OneCommand

variable {limit : ℕ} {d : Bool} {conn : Connection} {call : Call} {reply : Reply}

/-- A command on an open connection that owes nothing: the outcome of its reply, and if this is a
value, the connection owes nothing again. -/
lemma Connection.Holds.roundTrip_served (hc : conn.Holds d [])
    (hcall : call.Serves limit d reply) :
    (∃ v c', reply.decoded limit d = .ok v ∧
        conn.roundTrip limit call.args call.exchange = (.ok v, c') ∧ c'.Holds d []) ∨
      ∃ e c', reply.decoded limit d = .error e ∧ e.isException = true ∧
        conn.roundTrip limit call.args call.exchange = (.error e, c') := by
  obtain ⟨hres, hholds⟩ := hc.roundTrip_own limit call.args hcall.2
  rcases hrt : conn.roundTrip limit call.args call.exchange with ⟨res, c'⟩
  rw [hrt] at hres hholds
  rcases reply.decoded_cases limit d with ⟨v, hv, hclean⟩ | ⟨e, he, hexc⟩
  · left
    obtain rfl : res = .ok v := hres.trans hv
    exact ⟨v, c', hv, rfl, hclean ▸ hholds⟩
  · right
    obtain rfl : res = .error e := hres.trans he
    exact ⟨e, c', he, hexc, rfl⟩

/-- A command on a closed connection. -/
lemma Connection.roundTrip_closed (hc : conn.sock = none) (limit : ℕ) (args : List Arg)
    (x : Exchange) : conn.roundTrip limit args x =
      (.error (.connectionError "Not connected to KacheDB"), conn) := by
  simp only [Connection.roundTrip, Connection.sendCommand, Connection.sendAll, hc]

end OneCommand

namespace KacheClient

variable {limit : ℕ} {d : Bool} {c : KacheClient} {call : Call} {reply : Reply}

/-! ## A connection for each command -/

/-- The client has no dedicated connection, and its pool keeps at most one connection, open and
owing nothing, which is the only one it counts. -/
structure PerCall (d : Bool) (c : KacheClient) : Prop where
  conn_eq : c.conn = none
  decodeResponses_eq : c.pool.decodeResponses = d
  room : 0 < c.pool.maxConnections
  count_eq : c.pool.activeCount = c.pool.pool.length
  idle : c.pool.pool = [] ∨ ∃ conn, c.pool.pool = [conn] ∧ conn.Holds d []

/-- A pool with room opens a connection that owes nothing. -/
lemma createConnection_served {p : ConnectionPool} {env : Acquire} (hd : p.decodeResponses = d)
    (hroom : p.activeCount < p.maxConnections) (henv : env.Serves limit d) :
    ∃ conn, p.createConnection limit env = (.ok conn, p.counting) ∧ conn.Holds d [] := by
  have hopened : p.openedConnection.Holds d [] := hd ▸ Connection.holds_opened _ _ _
  have hconnect : p.newConnection.connect env.dial = (.ok (), p.openedConnection) := by
    rw [henv.dial]
    rfl
  unfold ConnectionPool.createConnection
  rw [if_neg (not_le.mpr hroom), hconnect]
  cases p.password with
  | none => exact ⟨_, rfl, hopened⟩
  | some password =>
    obtain ⟨r, v, hr, hv, hok⟩ := henv.auth
    obtain ⟨hres, hholds⟩ :=
      hopened.roundTrip_own limit [.str "AUTH", .str password] hr
    rcases hrt : p.openedConnection.roundTrip limit [.str "AUTH", .str password] env.auth with
      ⟨res, conn⟩
    rw [hrt] at hres hholds
    obtain rfl : res = .ok v := hres.trans hv
    rcases r.decoded_cases limit d with ⟨-, -, hclean⟩ | ⟨e, he, -⟩
    · refine ⟨conn, ?_, hclean ▸ hholds⟩
      simp only [hrt, hok, if_true]
    · rw [he] at hv
      cases hv

/-- The health check of a connection that owes nothing succeeds. -/
lemma checkHealth_served {conn : Connection} {env : Acquire} (hconn : conn.Holds d [])
    (henv : env.Serves limit d) :
    ∃ conn', conn.checkHealth limit env.ping = (.ok true, conn') ∧ conn'.Holds d [] := by
  -- a server whose replies are decoded at all
  have hlimit : limit ≠ 0 := by
    rintro rfl
    obtain ⟨r, v, -, hv, -⟩ := henv.auth
    simp [Reply.decoded, Except.bind] at hv
  have hpong : ConnectionPool.pong.decoded limit d = .ok (.str "PONG") := by
    obtain ⟨limit, rfl⟩ := Nat.exists_eq_succ_of_ne_zero hlimit
    cases d <;> rfl
  obtain ⟨hres, hholds⟩ := hconn.roundTrip_own limit [.str "PING"] henv.ping
  rcases Connection.checkHealth_of_decoded hres with ⟨-, hcheck⟩ | ⟨hne, -⟩
  · have hclean : ConnectionPool.pong.leftover limit = [] := by
      obtain ⟨limit, rfl⟩ := Nat.exists_eq_succ_of_ne_zero hlimit
      rfl
    exact ⟨_, hcheck, hclean ▸ hholds⟩
  · exact absurd hpong hne

/-- The pool of such a client gives a connection that owes nothing; it keeps none and counts one. -/
lemma PerCall.getConnection (hc : c.PerCall d) {env : Acquire}
    (henv : env.Serves limit d) :
    ∃ conn pool, c.pool.getConnection limit env = (.ok conn, pool) ∧ conn.Holds d [] ∧
      pool.pool = [] ∧ pool.activeCount = 1 ∧ pool.decodeResponses = d ∧
      0 < pool.maxConnections := by
  have hcount := hc.count_eq
  have hroom := hc.room
  rcases hc.idle with hnil | ⟨conn, hpool, hholds⟩
  · -- a new connection
    rw [hnil, List.length_nil] at hcount
    obtain ⟨conn, hcreate, hholds⟩ := createConnection_served hc.decodeResponses_eq
      (by omega) henv
    refine ⟨conn, c.pool.counting, ?_, hholds, hnil, ?_, hc.decodeResponses_eq, hroom⟩
    · rw [ConnectionPool.getConnection_of_nil hnil, hcreate]
    · simp [ConnectionPool.counting, hcount]
  · -- the connection of the command before
    rw [hpool, List.length_singleton] at hcount
    obtain ⟨conn', hcheck, hholds'⟩ := checkHealth_served hholds henv
    refine ⟨conn', { c.pool with pool := [] }, ?_, hholds', rfl, hcount,
      hc.decodeResponses_eq, hroom⟩
    exact ConnectionPool.getConnection_of_healthy hpool hholds.isConnected hcheck

/-- The only connection of the pool is released, owing nothing or closed. -/
lemma perCall_release {pool : ConnectionPool} {conn : Connection} (hidle : pool.pool = [])
    (hcount : pool.activeCount = 1) (hd : pool.decodeResponses = d)
    (hroom : 0 < pool.maxConnections) (hconn : conn.Holds d [] ∨ conn.sock = none) :
    (⟨pool.releaseConnection conn, none⟩ : KacheClient).PerCall d := by
  have hfull : pool.isFull = false := by
    simp only [ConnectionPool.isFull, hidle, List.length_nil, decide_eq_false_iff_not]
    omega
  rcases hconn with hholds | hclosed
  · have hrelease : pool.releaseConnection conn = { pool with pool := [conn] } := by
      simp [ConnectionPool.releaseConnection, hholds.isConnected, hfull, hidle]
    rw [hrelease]
    exact ⟨rfl, hd, hroom, hcount, .inr ⟨conn, rfl, hholds⟩⟩
  · have hrelease : pool.releaseConnection conn = pool.discounting := by
      simp [ConnectionPool.releaseConnection, Connection.isConnected, hclosed]
    rw [hrelease]
    refine ⟨rfl, hd, hroom, ?_, .inl hidle⟩
    simp [ConnectionPool.discounting, hcount, hidle]

/-- A client that takes a connection for each command gives the outcome of the command's own
reply, whatever it is, and can go on. -/
lemma PerCall.execute (hc : c.PerCall d) (hcall : call.Serves limit d reply) :
    (c.execute limit call.args call.env call.exchange).1 = reply.decoded limit d ∧
      (c.execute limit call.args call.env call.exchange).2.PerCall d := by
  obtain ⟨conn, pool, hget, hholds, hidle, hcount, hd, hroom⟩ := hc.getConnection hcall.1
  have hgetConn : c.getConn limit call.env = (.ok conn, ⟨pool, none⟩) := by
    simp only [getConn, hc.conn_eq, hget]
  unfold KacheClient.execute
  rcases hholds.roundTrip_served hcall with ⟨v, c', hv, hrt, hc'⟩ | ⟨e, c', he, hexc, hrt⟩
  · simp only [hgetConn, hrt, releaseConn, hv, true_and]
    exact perCall_release hidle hcount hd hroom (.inl hc')
  · simp only [hgetConn, hrt, releaseConn, he, hexc, if_true, true_and]
    exact perCall_release hidle hcount hd hroom (.inr rfl)

/-- Without a dedicated connection every command has the outcome of its own reply. -/
theorem PerCall.outcomes (hc : c.PerCall d) {calls : List Call}
    {replies : List Reply} (hcalls : List.Forall₂ (Call.Serves limit d) calls replies) :
    c.outcomes limit calls = replies.map (Reply.decoded limit d) := by
  induction hcalls generalizing c with
  | nil => rfl
  | cons hcall _ ih =>
    obtain ⟨hres, hc'⟩ := hc.execute hcall
    rw [outcomes_cons, List.map_cons, ← ih hc', ← hres]

/-! ## A dedicated connection -/

/-- A command on a dedicated connection that owes nothing. -/
lemma execute_dedicated {conn : Connection} (hconn : c.conn = some conn) (hholds : conn.Holds d [])
    (hcall : call.Serves limit d reply) :
    (c.execute limit call.args call.env call.exchange).1 = reply.decoded limit d ∧
      ∃ conn', (c.execute limit call.args call.env call.exchange).2.conn = some conn' ∧
        ((∃ v, reply.decoded limit d = .ok v) → conn'.Holds d []) ∧
        ((∀ v, reply.decoded limit d ≠ .ok v) → conn'.sock = none) := by
  have hgetConn : c.getConn limit call.env = (.ok conn, c) := by simp only [getConn, hconn]
  unfold KacheClient.execute
  rcases hholds.roundTrip_served hcall with ⟨v, c', hv, hrt, hc'⟩ | ⟨e, c', he, hexc, hrt⟩
  · simp only [hgetConn, hrt, releaseConn, hconn, hv]
    exact ⟨trivial, c', rfl, fun _ => hc', fun hne => absurd rfl (hne v)⟩
  · simp only [hgetConn, hrt, releaseConn, hconn, he, hexc, if_true]
    refine ⟨trivial, c'.disconnect, rfl, ?_, fun _ => rfl⟩
    rintro ⟨v, hv⟩
    cases hv

/-- A command on a dedicated connection that is closed. -/
lemma execute_closed (limit : ℕ) {conn : Connection} (hconn : c.conn = some conn)
    (hclosed : conn.sock = none) (call : Call) :
    (c.execute limit call.args call.env call.exchange).1 =
      .error (.connectionError "Not connected to KacheDB") := by
  have hgetConn : c.getConn limit call.env = (.ok conn, c) := by simp only [getConn, hconn]
  unfold KacheClient.execute
  simp only [hgetConn, Connection.roundTrip_closed hclosed]

/-- On a dedicated connection the commands have the outcomes of their replies exactly if no reply
but the last one raises. -/
theorem outcomes_dedicated_iff {conn : Connection} (hconn : c.conn = some conn)
    (hholds : conn.Holds d []) {calls : List Call} {replies : List Reply}
    (hcalls : List.Forall₂ (Call.Serves limit d) calls replies) :
    c.outcomes limit calls = replies.map (Reply.decoded limit d) ↔
      ∀ reply ∈ replies.dropLast, ∃ v, reply.decoded limit d = .ok v := by
  induction hcalls generalizing c conn with
  | nil => simp [KacheClient.outcomes]
  | @cons call reply calls replies hcall hrest ih =>
    obtain ⟨hres, conn', hconn', hopen, hclosed⟩ := execute_dedicated hconn hholds hcall
    rw [outcomes_cons, List.map_cons, ← hres]
    cases hrest with
    | nil => simp [KacheClient.outcomes]
    | @cons call' reply' calls' replies' hcall' hrest' =>
      rw [List.dropLast_cons_of_ne_nil (List.cons_ne_nil _ _), List.forall_mem_cons]
      by_cases hvalue : ∃ v, reply.decoded limit d = .ok v
      · have hgo := ih hconn' (hopen hvalue)
        rw [List.cons_inj_right, hgo]
        exact (and_iff_right hvalue).symm
      · -- the next command raises `ConnectionError`, which no reply does
        refine iff_of_false (fun heq => ?_) (fun h => hvalue h.1)
        have hnext := execute_closed limit hconn'
          (hclosed fun v hv => hvalue ⟨v, hv⟩) call'
        have htail := (List.cons.inj heq).2
        rw [outcomes_cons, hnext, List.map_cons] at htail
        cases Reply.ofReply_of_decoded (List.cons.inj htail).1.symm

/-- A client that has connected holds a dedicated connection that owes nothing. -/
lemma connect_holds {host : String} {port maxConnections : ℕ} {password : Option String}
    {env : Acquire} {client : KacheClient} (henv : env.Answered)
    (hconnect : (new host port maxConnections d password).connect limit env = (.ok (), client)) :
    0 < maxConnections ∧ ∃ conn, client.conn = some conn ∧ conn.Holds d [] := by
  have hacq := (new host port maxConnections d password).pool.creation limit env
  have hget : (new host port maxConnections d password).pool.getConnection limit env =
      (new host port maxConnections d password).pool.createConnection limit env := rfl
  unfold KacheClient.connect at hconnect
  rw [hget] at hconnect
  rcases hcreate : (new host port maxConnections d password).pool.createConnection limit env with
    ⟨e | conn, pool⟩
  · rw [hcreate] at hconnect
    cases hconnect
  · rw [hcreate] at hconnect hacq
    obtain rfl := (Prod.mk.inj hconnect).2
    refine ⟨?_, conn, rfl, hacq.holds rfl henv rfl⟩
    cases hacq with
    | opened hroom hdial hpassword => exact Int.natCast_pos.mp hroom
    | authenticated password res conn hroom hdial hpassword hauth hok =>
      exact Int.natCast_pos.mp hroom

/-- A new client takes a connection for each command. -/
lemma perCall_new (host : String) (port : ℕ) {maxConnections : ℕ} (d : Bool)
    (password : Option String) (hroom : 0 < maxConnections) :
    (new host port maxConnections d password).PerCall d :=
  ⟨rfl, rfl, hroom, rfl, .inl rfl⟩

/-- **When the two modes agree.**  The same replies are given to a sequence of commands on a
client inside a `with` block and on one without.  The outcomes are the same if and only if no
reply but the last one raises. -/
theorem outcomes_eq_iff {host : String} {port maxConnections : ℕ} {password : Option String}
    {env : Acquire} {client : KacheClient} (henv : env.Answered)
    (hconnect : (new host port maxConnections d password).connect limit env = (.ok (), client))
    {calls calls' : List Call} {replies : List Reply}
    (hcalls : List.Forall₂ (Call.Serves limit d) calls replies)
    (hcalls' : List.Forall₂ (Call.Serves limit d) calls' replies) :
    client.outcomes limit calls =
        (new host port maxConnections d password).outcomes limit calls' ↔
      ∀ reply ∈ replies.dropLast, ∃ v, reply.decoded limit d = .ok v := by
  obtain ⟨hroom, conn, hconn, hholds⟩ := connect_holds henv hconnect
  rw [(perCall_new host port d password hroom).outcomes hcalls',
    outcomes_dedicated_iff hconn hholds hcalls]

/-! ### A server -/

/-- A server that answers the health check with `+PONG` and the authentication with `+OK`. -/
def up : Acquire :=
  ⟨⟨.ok (), [.chunk ⟨[43, 80, 79, 78, 71, 13, 10], List.cons_ne_nil _ _⟩]⟩, .ok (),
    ⟨.ok (), [.chunk ⟨[43, 79, 75, 13, 10], List.cons_ne_nil _ _⟩]⟩⟩

lemma serves_up (limit : ℕ) (d : Bool) : up.Serves (limit + 1) d where
  dial := rfl
  ping := ⟨rfl, Feed.quiet_map_chunk [⟨[43, 80, 79, 78, 71, 13, 10], by decide⟩], by decide⟩
  auth := ⟨.simple ⟨[79, 75], by decide⟩, .str "OK",
    ⟨rfl, Feed.quiet_map_chunk [⟨[43, 79, 75, 13, 10], by decide⟩], by decide⟩,
    by cases d <;> rfl, rfl⟩

/-- A command that is answered with one chunk. -/
def callOf (c : Chunk) : Call :=
  ⟨[.str "INCR", .str "k"], up, ⟨.ok (), [.chunk c]⟩⟩

lemma serves_callOf (limit : ℕ) (d : Bool) {reply : Reply} {c : Chunk}
    (h : c.bytes = reply.encode) : (callOf c).Serves (limit + 1) d reply := by
  refine ⟨serves_up limit d, rfl, Feed.quiet_map_chunk [c], ?_⟩
  rw [Reply.encodeList, Reply.encodeList, List.append_nil, ← h]
  rw [callOf, Buffered.data, List.flatMap_singleton]
  rfl

/-- A value and then an error. -/
theorem outcomes_eq_iff_error_last :
    (⟨(new "127.0.0.1" 6379 10 false none).pool.counting,
        some ⟨"127.0.0.1", 6379, false, some .opened⟩⟩ : KacheClient).outcomes 2
          [callOf ⟨[58, 53, 13, 10], by decide⟩, callOf ⟨[45, 69, 13, 10], by decide⟩] =
        (new "127.0.0.1" 6379 10 false none).outcomes 2
          [callOf ⟨[58, 53, 13, 10], by decide⟩, callOf ⟨[45, 69, 13, 10], by decide⟩] ↔
      ∀ reply ∈ [Reply.integer 5, .error ⟨[69], by decide⟩].dropLast,
        ∃ v, reply.decoded 2 false = .ok v :=
  have hcalls : List.Forall₂ (Call.Serves 2 false)
      [callOf ⟨[58, 53, 13, 10], by decide⟩, callOf ⟨[45, 69, 13, 10], by decide⟩]
      [Reply.integer 5, .error ⟨[69], by decide⟩] :=
    .cons (serves_callOf 1 false (by decide)) (.cons (serves_callOf 1 false (by decide)) .nil)
  outcomes_eq_iff ConnectionPool.answered_pongs rfl hcalls hcalls

/-- An error reply closes the dedicated connection, and the next command, whose reply is 5,
raises; taking a connection for each command it returns 5. -/
theorem outcomes_error_first :
    (⟨(new "127.0.0.1" 6379 10 false none).pool.counting,
        some ⟨"127.0.0.1", 6379, false, some .opened⟩⟩ : KacheClient).outcomes 2
          [callOf ⟨[45, 69, 13, 10], by decide⟩, callOf ⟨[58, 53, 13, 10], by decide⟩] =
        [.error (.responseError "E"), .error (.connectionError "Not connected to KacheDB")] ∧
      (new "127.0.0.1" 6379 10 false none).outcomes 2
          [callOf ⟨[45, 69, 13, 10], by decide⟩, callOf ⟨[58, 53, 13, 10], by decide⟩] =
        [.error (.responseError "E"), .ok (.int 5)] ∧
      (new "127.0.0.1" 6379 10 false none).connect 2 up =
        (.ok (), ⟨(new "127.0.0.1" 6379 10 false none).pool.counting,
          some ⟨"127.0.0.1", 6379, false, some .opened⟩⟩) :=
  ⟨rfl, rfl, rfl⟩

end KacheClient

end KacheDB
