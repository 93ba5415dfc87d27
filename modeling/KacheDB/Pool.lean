import KacheDB.Connection
import KacheDB.Foundation.Runs

/-!
# The connection pool

`ConnectionPool` with its three operations, used from one thread at a time, and the callers of
the pool as a state machine: `Checkouts` is the pool together with the connections that are
checked out.

The pool counts its connections in `_active_count`.  The results are about this count over
whole runs.

* `Checkouts.balanced_iff_guarded`: it is the number of idle connections plus the number of
  checked-out ones in every state of a run exactly when no `get_connection` of the run fails
  behind the increment.
* `Checkouts.bound_of_guarded`: it stays between the number of connections and
  `max_connections` as long as `disconnect_all` finds no connection checked out.
-/

namespace KacheDB

open Foundation

/-- What the network does during a `get_connection`: with the health check of an idle
connection, with the opening of a new one, and with its authentication. -/
structure Acquire where
  ping : Exchange
  dial : Except Exc Unit
  auth : Exchange

/-- A connection pool: where it leads, its limit, its queue `_pool` of idle connections and its
counter `_active_count`. -/
structure ConnectionPool where
  host : String
  port : ℕ
  maxConnections : ℕ
  decodeResponses : Bool
  password : Option String
  pool : List Connection
  activeCount : ℤ

/-- `res == b"OK" or res == "OK"`. -/
def RespValue.isOK : RespValue → Bool
  | .str s => s == "OK"
  | .bytes b => b == [79, 75]
  | _ => false

namespace ConnectionPool

/-- A new pool. -/
def new (host : String) (port maxConnections : ℕ) (decodeResponses : Bool)
    (password : Option String) : ConnectionPool :=
  ⟨host, port, maxConnections, decodeResponses, password, [], 0⟩

/-- A connection as the pool creates it. -/
def newConnection (p : ConnectionPool) : Connection :=
  ⟨p.host, p.port, p.decodeResponses, none⟩

/-- `self._active_count += 1`. -/
def counting (p : ConnectionPool) : ConnectionPool :=
  { p with activeCount := p.activeCount + 1 }

/-- `self._active_count -= 1`. -/
def discounting (p : ConnectionPool) : ConnectionPool :=
  { p with activeCount := p.activeCount - 1 }

/-- The pool without its oldest idle connection, which was stale: closed and no longer
counted. -/
def withoutStale (p : ConnectionPool) (idle : List Connection) : ConnectionPool :=
  { p with pool := idle }.discounting

/-- The second half of `get_connection`: create a new connection if under limit. -/
def createConnection (limit : ℕ) (p : ConnectionPool) (env : Acquire) :
    Except Exc Connection × ConnectionPool :=
  if p.activeCount ≥ p.maxConnections then
    (.error (.poolExhaustedError
      s!"Connection pool exhausted (max_connections={p.maxConnections})"), p)
  else
    match p.newConnection.connect env.dial with
    | (.error e, _) => (.error e, p.counting)
    | (.ok (), conn) =>
      match p.password with
      | none => (.ok conn, p.counting)
      | some password =>
        match conn.roundTrip limit [.str "AUTH", .str password] env.auth with
        | (.error e, _) => (.error e, p.counting)
        | (.ok res, conn') =>
          if res.isOK then (.ok conn', p.counting)
          else (.error (.authenticationFailed res), p.counting.discounting)

/-- Acquire a connection from the pool. -/
def getConnection (limit : ℕ) (p : ConnectionPool) (env : Acquire) :
    Except Exc Connection × ConnectionPool :=
  match p.pool with
  | [] => p.createConnection limit env
  | conn :: idle =>
    if conn.isConnected then
      match conn.checkHealth limit env.ping with
      | (.ok true, conn') => (.ok conn', { p with pool := idle })
      | (.ok false, _) => (p.withoutStale idle).createConnection limit env
      | (.error e, _) => (.error e, { p with pool := idle })
    else (p.withoutStale idle).createConnection limit env

/-- `put_nowait` raises `queue.Full`; a queue of size 0 is unbounded. -/
def isFull (p : ConnectionPool) : Bool :=
  decide (0 < p.maxConnections ∧ p.maxConnections ≤ p.pool.length)

/-- Return a connection to the pool for reuse. -/
def releaseConnection (p : ConnectionPool) (conn : Connection) : ConnectionPool :=
  if conn.isConnected && !p.isFull then { p with pool := p.pool ++ [conn] } else p.discounting

/-- Close all pooled connections. -/
def disconnectAll (p : ConnectionPool) : ConnectionPool :=
  { p with pool := [], activeCount := 0 }

end ConnectionPool

/-! ## The callers of a pool -/

/-- A pool and the connections that its callers have checked out. -/
structure Checkouts where
  pool : ConnectionPool
  out : List Connection

/-- One operation on a pool.  A connection is released in the state in which its caller leaves
it. -/
inductive PoolOp : Type where
  | get (env : Acquire)
  | release (i : ℕ) (conn : Connection)
  | disconnectAll

namespace Checkouts

/-- Nothing is checked out of a new pool. -/
def new (p : ConnectionPool) : Checkouts :=
  ⟨p, []⟩

/-- One operation; only a connection that is checked out can be released. -/
def step (limit : ℕ) (s : Checkouts) : PoolOp → Checkouts
  | .get env =>
    match s.pool.getConnection limit env with
    | (.ok conn, p) => ⟨p, s.out ++ [conn]⟩
    | (.error _, p) => ⟨p, s.out⟩
  | .release i conn =>
    if i < s.out.length then ⟨s.pool.releaseConnection conn, s.out.eraseIdx i⟩ else s
  | .disconnectAll => ⟨s.pool.disconnectAll, s.out⟩

end Checkouts

/-! ## The ways in which a connection is acquired -/

/-- A new connection is opened, or the attempt raises and leaves it closed. -/
lemma Connection.connect_of_none {c : Connection} (hc : c.sock = none) (dial : Except Exc Unit) :
    (dial = .ok () ∧ c.connect dial = (.ok (), { c with sock := some .opened })) ∨
      ∃ e e', dial = .error e ∧ c.connect dial = (.error e', c) := by
  have hclosed : c.isConnected = false := by simp [isConnected, hc]
  rcases dial with e | _
  · right
    cases e <;> exact ⟨_, _, rfl, by simp only [connect, hclosed]; rfl⟩
  · left
    exact ⟨rfl, by simp [connect, hclosed]⟩

namespace ConnectionPool

/-- A connection of the pool that has just been opened. -/
def openedConnection (p : ConnectionPool) : Connection :=
  { p.newConnection with sock := some .opened }

/-- The authentication of a new connection. -/
def authenticate (limit : ℕ) (p : ConnectionPool) (password : String) (env : Acquire) :
    Except Exc RespValue × Connection :=
  p.openedConnection.roundTrip limit [.str "AUTH", .str password] env.auth

/-- The ways in which creating a connection ends. -/
inductive Creation (limit : ℕ) (p : ConnectionPool) (env : Acquire) :
    Except Exc Connection × ConnectionPool → Prop
  | exhausted (e : Exc) (hfull : p.maxConnections ≤ p.activeCount) :
      Creation limit p env (.error e, p)
  | notOpened (e e' : Exc) (hroom : p.activeCount < p.maxConnections)
      (hdial : env.dial = .error e) : Creation limit p env (.error e', p.counting)
  | opened (hroom : p.activeCount < p.maxConnections) (hdial : env.dial = .ok ())
      (hpassword : p.password = none) : Creation limit p env (.ok p.openedConnection, p.counting)
  | notAuthenticated (password : String) (e : Exc) (conn : Connection)
      (hroom : p.activeCount < p.maxConnections) (hdial : env.dial = .ok ())
      (hpassword : p.password = some password)
      (hauth : p.authenticate limit password env = (.error e, conn)) :
      Creation limit p env (.error e, p.counting)
  | authenticated (password : String) (res : RespValue) (conn : Connection)
      (hroom : p.activeCount < p.maxConnections) (hdial : env.dial = .ok ())
      (hpassword : p.password = some password)
      (hauth : p.authenticate limit password env = (.ok res, conn)) (hok : res.isOK = true) :
      Creation limit p env (.ok conn, p.counting)
  | rejected (password : String) (res : RespValue) (conn : Connection)
      (hdial : env.dial = .ok ()) (hpassword : p.password = some password)
      (hauth : p.authenticate limit password env = (.ok res, conn)) :
      Creation limit p env (.error (.authenticationFailed res), p)

/-- Creating a connection ends in one of these ways. -/
theorem creation (limit : ℕ) (p : ConnectionPool) (env : Acquire) :
    Creation limit p env (p.createConnection limit env) := by
  unfold createConnection
  by_cases hfull : p.activeCount ≥ p.maxConnections
  · rw [if_pos hfull]
    exact .exhausted _ hfull
  · have hroom : p.activeCount < p.maxConnections := not_le.mp hfull
    rw [if_neg hfull]
    rcases Connection.connect_of_none (c := p.newConnection) rfl env.dial with
      ⟨hdial, hconn⟩ | ⟨e, e', hdial, hconn⟩
    · simp only [hconn]
      cases hpassword : p.password with
      | none => exact .opened hroom hdial hpassword
      | some password =>
        rcases hauth : p.authenticate limit password env with ⟨e | res, conn⟩
        · have hstep : ({ p.newConnection with sock := some .opened } : Connection).roundTrip
              limit [.str "AUTH", .str password] env.auth = (.error e, conn) := hauth
          simp only [hstep]
          exact .notAuthenticated password e conn hroom hdial hpassword hauth
        · have hstep : ({ p.newConnection with sock := some .opened } : Connection).roundTrip
              limit [.str "AUTH", .str password] env.auth = (.ok res, conn) := hauth
          simp only [hstep]
          by_cases hok : res.isOK = true
          · rw [if_pos hok]
            exact .authenticated password res conn hroom hdial hpassword hauth hok
          · have hback : p.counting.discounting = p := by simp [counting, discounting]
            rw [if_neg hok, hback]
            exact .rejected password res conn hdial hpassword hauth
    · simp only [hconn]
      exact .notOpened e e' hroom hdial

section Idle

variable {limit : ℕ} {p : ConnectionPool} {env : Acquire} {conn conn' : Connection}
  {idle : List Connection}

/-- Without idle connections a new one is created. -/
lemma getConnection_of_nil (hpool : p.pool = []) :
    p.getConnection limit env = p.createConnection limit env := by
  simp only [getConnection, hpool]

/-- A healthy connection is handed out. -/
lemma getConnection_of_healthy (hpool : p.pool = conn :: idle) (hconn : conn.isConnected = true)
    (hhealth : conn.checkHealth limit env.ping = (.ok true, conn')) :
    p.getConnection limit env = (.ok conn', { p with pool := idle }) := by
  simp only [getConnection, hpool, hconn, if_true, hhealth]

/-- What is no `Exception` gets through the health check. -/
lemma getConnection_of_interrupted {e : Exc} (hpool : p.pool = conn :: idle)
    (hconn : conn.isConnected = true)
    (hhealth : conn.checkHealth limit env.ping = (.error e, conn')) :
    p.getConnection limit env = (.error e, { p with pool := idle }) := by
  simp only [getConnection, hpool, hconn, if_true, hhealth]

/-- A stale connection is replaced by a new one. -/
lemma getConnection_of_stale (hpool : p.pool = conn :: idle)
    (hstale : conn.isConnected = true → (conn.checkHealth limit env.ping).1 = .ok false) :
    p.getConnection limit env = (p.withoutStale idle).createConnection limit env := by
  simp only [getConnection, hpool]
  split_ifs with hconn
  · rcases hhealth : conn.checkHealth limit env.ping with ⟨res, conn'⟩
    obtain rfl : res = .ok false := by
      rw [← hstale hconn, hhealth]
    rfl
  · rfl

end Idle

/-- The ways in which `get_connection` ends. -/
inductive Acquisition (limit : ℕ) (p : ConnectionPool) (env : Acquire) :
    Except Exc Connection × ConnectionPool → Prop
  | fresh {out : Except Exc Connection × ConnectionPool} (hpool : p.pool = [])
      (hout : Creation limit p env out) : Acquisition limit p env out
  | reused (conn conn' : Connection) (idle : List Connection) (hpool : p.pool = conn :: idle)
      (hconn : conn.isConnected = true)
      (hhealth : conn.checkHealth limit env.ping = (.ok true, conn')) :
      Acquisition limit p env (.ok conn', { p with pool := idle })
  | interrupted (conn conn' : Connection) (e : Exc) (idle : List Connection)
      (hpool : p.pool = conn :: idle) (hconn : conn.isConnected = true)
      (hhealth : conn.checkHealth limit env.ping = (.error e, conn')) :
      Acquisition limit p env (.error e, { p with pool := idle })
  | stale {out : Except Exc Connection × ConnectionPool} (conn : Connection)
      (idle : List Connection) (hpool : p.pool = conn :: idle)
      (hstale : conn.isConnected = true → (conn.checkHealth limit env.ping).1 = .ok false)
      (hout : Creation limit (p.withoutStale idle) env out) : Acquisition limit p env out

/-- `get_connection` ends in one of these ways. -/
theorem acquisition (limit : ℕ) (p : ConnectionPool) (env : Acquire) :
    Acquisition limit p env (p.getConnection limit env) := by
  cases hpool : p.pool with
  | nil =>
    rw [getConnection_of_nil hpool]
    exact .fresh hpool (p.creation limit env)
  | cons conn idle =>
    have hstale (h : conn.isConnected = true → (conn.checkHealth limit env.ping).1 = .ok false) :
        Acquisition limit p env (p.getConnection limit env) := by
      rw [getConnection_of_stale hpool h]
      exact .stale conn idle hpool h ((p.withoutStale idle).creation limit env)
    by_cases hconn : conn.isConnected = true
    · rcases hhealth : conn.checkHealth limit env.ping with ⟨e | _ | _, conn'⟩
      · rw [getConnection_of_interrupted hpool hconn hhealth]
        exact .interrupted conn conn' e idle hpool hconn hhealth
      · exact hstale fun _ => by rw [hhealth]
      · rw [getConnection_of_healthy hpool hconn hhealth]
        exact .reused conn conn' idle hpool hconn hhealth
    · exact hstale fun h => absurd h hconn

/-! ## What one operation does to the count -/

/-- The pool has room for a new connection, but opening it or its authentication raises. -/
def OpeningFails (limit : ℕ) (p : ConnectionPool) (env : Acquire) : Prop :=
  p.activeCount < p.maxConnections ∧
    ((∃ e, env.dial = .error e) ∨
      ∃ password e, p.password = some password ∧ (p.authenticate limit password env).1 = .error e)

/-- A `get_connection` that raises without giving back the slot: opening a new connection
fails, or something that is no `Exception` breaks off the health check. -/
def LosesSlot (limit : ℕ) (p : ConnectionPool) (env : Acquire) : Prop :=
  match p.pool with
  | [] => p.OpeningFails limit env
  | conn :: idle =>
    if conn.isConnected then
      match (conn.checkHealth limit env.ping).1 with
      | .ok true => False
      | .ok false => (p.withoutStale idle).OpeningFails limit env
      | .error _ => True
    else (p.withoutStale idle).OpeningFails limit env

/-- The counted connections that are not idle. -/
def checkedOut (p : ConnectionPool) : ℤ :=
  p.activeCount - p.pool.length

/-- How a `get_connection` changes the number of counted connections that are not idle: by one
if it returns a connection, and by one if it raises and loses the slot. -/
inductive CountsAs (p : ConnectionPool) (lost : Prop) :
    Except Exc Connection × ConnectionPool → Prop
  | returned (conn : Connection) (p' : ConnectionPool) (hkept : ¬ lost)
      (hcount : p'.checkedOut = p.checkedOut + 1) : CountsAs p lost (.ok conn, p')
  | raised (e : Exc) (p' : ConnectionPool) (hkept : ¬ lost)
      (hcount : p'.checkedOut = p.checkedOut) : CountsAs p lost (.error e, p')
  | leaked (e : Exc) (p' : ConnectionPool) (hlost : lost)
      (hcount : p'.checkedOut = p.checkedOut + 1) : CountsAs p lost (.error e, p')

variable {limit : ℕ} {p : ConnectionPool} {env : Acquire}

@[simp] lemma checkedOut_counting (p : ConnectionPool) :
    p.counting.checkedOut = p.checkedOut + 1 := by
  simp only [checkedOut, counting]
  ring

/-- Giving up a stale connection changes nothing. -/
lemma checkedOut_withoutStale {conn : Connection} {idle : List Connection}
    (hpool : p.pool = conn :: idle) : (p.withoutStale idle).checkedOut = p.checkedOut := by
  simp only [checkedOut, withoutStale, discounting, hpool, List.length_cons]
  push_cast
  ring

/-- What creating a connection does to the count. -/
lemma Creation.countsAs {out : Except Exc Connection × ConnectionPool}
    (h : Creation limit p env out) : p.CountsAs (p.OpeningFails limit env) out := by
  cases h with
  | exhausted e hfull => exact .raised e p (fun h => absurd h.1 (not_lt.mpr hfull)) rfl
  | notOpened e e' hroom hdial => exact .leaked e' _ ⟨hroom, .inl ⟨e, hdial⟩⟩ (by simp)
  | opened hroom hdial hpassword =>
    exact .returned _ _ (by simp [OpeningFails, hdial, hpassword]) (by simp)
  | notAuthenticated password e conn hroom hdial hpassword hauth =>
    exact .leaked e _ ⟨hroom, .inr ⟨password, e, hpassword, by rw [hauth]⟩⟩ (by simp)
  | authenticated password res conn hroom hdial hpassword hauth hok =>
    exact .returned _ _ (by simp [OpeningFails, hdial, hpassword, hauth]) (by simp)
  | rejected password res conn hdial hpassword hauth =>
    exact .raised _ p (by simp [OpeningFails, hdial, hpassword, hauth]) rfl

/-- What `get_connection` does to the count. -/
lemma Acquisition.countsAs {out : Except Exc Connection × ConnectionPool}
    (h : Acquisition limit p env out) : p.CountsAs (p.LosesSlot limit env) out := by
  have hidle : ∀ {conn : Connection} {idle : List Connection}, p.pool = conn :: idle →
      ({ p with pool := idle } : ConnectionPool).checkedOut = p.checkedOut + 1 := by
    intro conn idle hpool
    simp only [checkedOut, hpool, List.length_cons]
    push_cast
    ring
  cases h with
  | fresh hpool hout =>
    have hlost : p.LosesSlot limit env = p.OpeningFails limit env := by
      simp only [LosesSlot, hpool]
    rw [hlost]
    exact hout.countsAs
  | reused conn conn' idle hpool hconn hhealth =>
    exact .returned _ _ (by simp [LosesSlot, hpool, hconn, hhealth]) (hidle hpool)
  | interrupted conn conn' e idle hpool hconn hhealth =>
    exact .leaked _ _ (by simp [LosesSlot, hpool, hconn, hhealth]) (hidle hpool)
  | stale conn idle hpool hstale hout =>
    have hlost : p.LosesSlot limit env = (p.withoutStale idle).OpeningFails limit env := by
      by_cases hconn : conn.isConnected = true
      · simp only [LosesSlot, hpool, hconn, hstale hconn, if_true]
      · simp [LosesSlot, hpool, hconn]
    rw [hlost]
    cases hout.countsAs with
    | returned conn p' hkept hcount =>
      exact .returned conn p' hkept (by rw [hcount, checkedOut_withoutStale hpool])
    | raised e p' hkept hcount =>
      exact .raised e p' hkept (by rw [hcount, checkedOut_withoutStale hpool])
    | leaked e p' hlost' hcount =>
      exact .leaked e p' hlost' (by rw [hcount, checkedOut_withoutStale hpool])

/-- The count never passes the limit. -/
lemma Creation.limit_kept {out : Except Exc Connection × ConnectionPool}
    (h : Creation limit p env out) (hle : p.activeCount ≤ p.maxConnections) :
    out.2.maxConnections = p.maxConnections ∧ out.2.activeCount ≤ p.maxConnections := by
  cases h <;> exact ⟨rfl, by first | exact hle | exact Int.add_one_le_iff.mpr ‹_›⟩

/-- The same for `get_connection`. -/
lemma Acquisition.limit_kept {out : Except Exc Connection × ConnectionPool}
    (h : Acquisition limit p env out) (hle : p.activeCount ≤ p.maxConnections) :
    out.2.maxConnections = p.maxConnections ∧ out.2.activeCount ≤ p.maxConnections := by
  cases h with
  | fresh hpool hout => exact hout.limit_kept hle
  | reused => exact ⟨rfl, hle⟩
  | interrupted => exact ⟨rfl, hle⟩
  | stale conn idle hpool hstale hout =>
    have hle' : (p.withoutStale idle).activeCount ≤ (p.withoutStale idle).maxConnections :=
      (sub_le_self p.activeCount zero_le_one).trans hle
    exact hout.limit_kept hle'

@[simp] lemma maxConnections_releaseConnection (p : ConnectionPool) (conn : Connection) :
    (p.releaseConnection conn).maxConnections = p.maxConnections := by
  unfold releaseConnection
  split_ifs <;> rfl

/-- A release counts no connection more. -/
lemma activeCount_releaseConnection_le (p : ConnectionPool) (conn : Connection) :
    (p.releaseConnection conn).activeCount ≤ p.activeCount := by
  unfold releaseConnection
  split_ifs
  · exact le_rfl
  · exact sub_le_self p.activeCount zero_le_one

/-- Releasing a connection counts it as idle or no longer. -/
@[simp] lemma checkedOut_releaseConnection (p : ConnectionPool) (conn : Connection) :
    (p.releaseConnection conn).checkedOut = p.checkedOut - 1 := by
  unfold releaseConnection
  split_ifs
  · simp only [checkedOut, List.length_append, List.length_singleton]
    push_cast
    ring
  · simp only [checkedOut, discounting]
    ring

end ConnectionPool

/-! ## Slot accounting -/

namespace Checkouts

/-- The count is the number of idle connections plus the number of checked-out ones. -/
def Balanced (s : Checkouts) : Prop :=
  s.pool.activeCount = s.pool.pool.length + s.out.length

/-- The step neither loses a slot nor forgets the connections that are checked out. -/
def Accounted (limit : ℕ) (s : Checkouts) : PoolOp → Prop
  | .get env => ¬ s.pool.LosesSlot limit env
  | .release _ _ => True
  | .disconnectAll => s.out = []

variable {limit : ℕ} {s : Checkouts}

instance : Decidable s.Balanced :=
  inferInstanceAs (Decidable (_ = _))

lemma balanced_iff : s.Balanced ↔ s.pool.checkedOut = s.out.length := by
  unfold Balanced ConnectionPool.checkedOut
  omega

/-- A balanced pool stays balanced exactly in an accounted step. -/
lemma balanced_step_iff (limit : ℕ) (s : Checkouts) (op : PoolOp) (hs : s.Balanced) :
    (s.step limit op).Balanced ↔ s.Accounted limit op := by
  rw [balanced_iff] at hs ⊢
  cases op with
  | get env =>
    have hcount := (s.pool.acquisition limit env).countsAs
    simp only [step, Accounted]
    rcases hget : s.pool.getConnection limit env with ⟨e | conn, p⟩
    · rw [hget] at hcount
      cases hcount with
      | raised _ _ hkept hcount => simp [hcount, hs, hkept]
      | leaked _ _ hlost hcount => simp [hcount, hs, hlost]
    · rw [hget] at hcount
      cases hcount with
      | returned _ _ hkept hcount => simp [hcount, hs, hkept]
  | release i conn =>
    simp only [step, Accounted, iff_true]
    by_cases hi : i < s.out.length
    · rw [if_pos hi, ConnectionPool.checkedOut_releaseConnection, hs, List.length_eraseIdx_of_lt hi]
      omega
    · rw [if_neg hi, hs]
  | disconnectAll =>
    simp only [step, Accounted, ConnectionPool.disconnectAll, ConnectionPool.checkedOut]
    constructor
    · intro h
      exact List.length_eq_zero_iff.mp (by simpa using h.symm)
    · intro h
      simp [h]

/-- A new pool is balanced. -/
lemma balanced_new (host : String) (port maxConnections : ℕ) (decodeResponses : Bool)
    (password : Option String) :
    (new (.new host port maxConnections decodeResponses password)).Balanced := rfl

/-- **Slot accounting.**  In every state of a run on a new pool the count is the number of idle
plus the number of checked-out connections, exactly when every `get_connection` of the run keeps
its slot (and every `disconnect_all` finds nothing checked out). -/
theorem balanced_iff_guarded (limit : ℕ) (host : String) (port maxConnections : ℕ)
    (decodeResponses : Bool) (password : Option String) (ops : List PoolOp) :
    (∀ pre, pre <+: ops → (pre.foldl (step limit)
        (new (.new host port maxConnections decodeResponses password))).Balanced) ↔
      Guarded (step limit) (Accounted limit)
        (new (.new host port maxConnections decodeResponses password)) ops := by
  have hnew := balanced_new host port maxConnections decodeResponses password
  exact (guarded_iff_invariant (balanced_step_iff limit) hnew ops).symm

/-- After one refused connection the pool counts a connection that nobody has. -/
theorem not_balanced_of_refused :
    ¬ ([PoolOp.get ⟨⟨.ok (), []⟩, .error (.osError "Connection refused"), ⟨.ok (), []⟩⟩].foldl
      (step 1) (new (.new "127.0.0.1" 6379 1 false none))).Balanced := by
  decide

/-! ## The limit -/

/-- The number of open connections that are idle or checked out. -/
def openCount (s : Checkouts) : ℕ :=
  (s.pool.pool ++ s.out).countP Connection.isConnected

/-- The pool counts every connection and at most `n` of them. -/
def Bounded (n : ℕ) (s : Checkouts) : Prop :=
  s.pool.maxConnections = n ∧ s.out.length ≤ s.pool.checkedOut ∧ s.pool.activeCount ≤ n

/-- A `disconnect_all` finds no connection checked out. -/
def NothingOut (s : Checkouts) (op : PoolOp) : Prop :=
  op = .disconnectAll → s.out = []

/-- A bounded pool has at most `n` open connections and no negative count. -/
lemma Bounded.openCount_le {n : ℕ} (hs : s.Bounded n) :
    s.openCount ≤ n ∧ 0 ≤ s.pool.activeCount := by
  obtain ⟨-, hout, hcount⟩ := hs
  have hle : s.openCount ≤ (s.pool.pool ++ s.out).length := List.countP_le_length
  rw [List.length_append] at hle
  unfold ConnectionPool.checkedOut at hout
  omega

/-- A bounded pool stays bounded unless a `disconnect_all` forgets a connection. -/
lemma Bounded.step {n : ℕ} (s : Checkouts) (op : PoolOp) (hs : s.Bounded n)
    (hop : s.NothingOut op) : (s.step limit op).Bounded n := by
  obtain ⟨hmax, hout, hcount⟩ := hs
  cases op with
  | get env =>
    have hacq := s.pool.acquisition limit env
    obtain ⟨hmax', hcount'⟩ := hacq.limit_kept (hmax ▸ hcount)
    have hcounts := hacq.countsAs
    rw [hmax] at hmax' hcount'
    simp only [Checkouts.step]
    rcases hget : s.pool.getConnection limit env with ⟨e | conn, p⟩
    · rw [hget] at hcounts hmax' hcount'
      refine ⟨hmax', ?_, hcount'⟩
      cases hcounts with
      | raised _ _ _ hsame => simpa [hsame] using hout
      | leaked _ _ _ hmore =>
        simp only [hmore]
        omega
    · rw [hget] at hcounts hmax' hcount'
      refine ⟨hmax', ?_, hcount'⟩
      cases hcounts with
      | returned _ _ _ hmore => simpa [hmore] using hout
  | release i conn =>
    simp only [Checkouts.step]
    by_cases hi : i < s.out.length
    · rw [if_pos hi]
      refine ⟨by simp [hmax], ?_, (s.pool.activeCount_releaseConnection_le conn).trans hcount⟩
      rw [ConnectionPool.checkedOut_releaseConnection, List.length_eraseIdx_of_lt hi]
      omega
    · rw [if_neg hi]
      exact ⟨hmax, hout, hcount⟩
  | disconnectAll =>
    have hnone : s.out = [] := hop rfl
    refine ⟨hmax, ?_, ?_⟩
    · simp [Checkouts.step, ConnectionPool.disconnectAll, ConnectionPool.checkedOut, hnone]
    · simp [Checkouts.step, ConnectionPool.disconnectAll]

/-- **The limit.**  If every `disconnect_all` of a run finds nothing checked out, then in every
state at most `max_connections` connections are open and the count is not negative.  A
`disconnect_all` that forgets a connection can always be followed by a release that makes the
count negative. -/
theorem openCount_le_of_guarded (limit : ℕ) (host : String) (port n : ℕ)
    (decodeResponses : Bool) (password : Option String) :
    (∀ ops, Guarded (step limit) NothingOut (new (.new host port n decodeResponses password)) ops →
      ∀ pre, pre <+: ops →
        (pre.foldl (step limit) (new (.new host port n decodeResponses password))).openCount ≤ n ∧
        0 ≤ (pre.foldl (step limit)
          (new (.new host port n decodeResponses password))).pool.activeCount) ∧
    ∀ s : Checkouts, s.out ≠ [] → ∀ conn, conn.isConnected = false →
      ([.disconnectAll, .release 0 conn].foldl (step limit) s).pool.activeCount < 0 := by
  constructor
  · intro ops hops pre hpre
    have hnew : (new (.new host port n decodeResponses password)).Bounded n :=
      ⟨rfl, le_rfl, Int.natCast_nonneg n⟩
    exact (invariant_of_guarded (fun s op => Bounded.step s op) hnew hops pre hpre).openCount_le
  · intro s hs conn hconn
    have hpos : 0 < s.out.length := List.length_pos_iff.mpr hs
    simp [step, ConnectionPool.disconnectAll, ConnectionPool.releaseConnection,
      ConnectionPool.discounting, hpos, hconn]

/-- A network on which every connection can be opened and no health check is answered. -/
def dialsOnly : Acquire :=
  ⟨⟨.ok (), []⟩, .ok (), ⟨.ok (), []⟩⟩

/-- A connection is taken and given back, and then everything is closed. -/
theorem openCount_le_of_guarded_three :
    (([.get dialsOnly, .release 0 ⟨"127.0.0.1", 6379, false, some .opened⟩,
      .disconnectAll] : List PoolOp).foldl (step 1)
        (new (.new "127.0.0.1" 6379 1 false none))).openCount ≤ 1 :=
  ((openCount_le_of_guarded 1 "127.0.0.1" 6379 1 false none).1
    [.get dialsOnly, .release 0 ⟨"127.0.0.1", 6379, false, some .opened⟩, .disconnectAll]
    ⟨by simp [NothingOut], by simp [NothingOut], fun _ => by decide, trivial⟩
    _ List.prefix_rfl).1

/-- With `max_connections=1`, a `disconnect_all` between two `get_connection`s lets two open
connections be handed out; releasing both of them after another one makes the count negative. -/
theorem openCount_gt_of_disconnectAll :
    (([.get dialsOnly, .disconnectAll, .get dialsOnly] : List PoolOp).foldl (step 1)
      (new (.new "127.0.0.1" 6379 1 false none))).openCount = 2 ∧
    (([.get dialsOnly, .disconnectAll, .get dialsOnly, .disconnectAll,
        .release 0 ⟨"127.0.0.1", 6379, false, some .opened⟩,
        .release 0 ⟨"127.0.0.1", 6379, false, some .opened⟩] : List PoolOp).foldl (step 1)
      (new (.new "127.0.0.1" 6379 1 false none))).pool.activeCount = -1 := by
  decide

end Checkouts

end KacheDB
