import KacheDB.AsyncStream
import KacheDB.Pool

/-!
# The asynchronous connection pool

`AsyncConnectionPool` hands out asyncio streams.  It differs from the synchronous pool in
three ways: an idle stream is handed out again without a health check unless its transport is
closing, the TLS context is set up outside the `try` block, and a refused connection gives its
slot back.
-/

namespace KacheDB

open Foundation

/-- What happens during an asynchronous `get_connection`: with the TLS context and its
certificates, with `open_connection`, and with the authentication. -/
structure AsyncAcquire where
  tls : Except Exc Unit
  dial : Except Exc Unit
  auth : Exchange

/-- An asynchronous pool: where it leads, its limit, its queue `_pool` of idle streams and its
counter `_active_count`. -/
structure AsyncConnectionPool where
  host : String
  port : ℕ
  maxConnections : ℕ
  password : Option String
  ssl : Bool
  pool : List AsyncStream
  activeCount : ℤ

namespace AsyncConnectionPool

/-- A new pool. -/
def new (host : String) (port maxConnections : ℕ) (password : Option String) (ssl : Bool) :
    AsyncConnectionPool :=
  ⟨host, port, maxConnections, password, ssl, [], 0⟩

/-- `self._active_count += 1`. -/
def counting (p : AsyncConnectionPool) : AsyncConnectionPool :=
  { p with activeCount := p.activeCount + 1 }

/-- `self._active_count -= 1`. -/
def discounting (p : AsyncConnectionPool) : AsyncConnectionPool :=
  { p with activeCount := p.activeCount - 1 }

/-- Set up the TLS context, if the pool uses TLS. -/
def tlsContext (p : AsyncConnectionPool) (env : AsyncAcquire) : Except Exc Unit :=
  if p.ssl then env.tls else .ok ()

/-- The handler `except OSError` around `open_connection`. -/
def refused (p : AsyncConnectionPool) (exc : String) :
    Except Exc AsyncStream × AsyncConnectionPool :=
  (.error (.connectionError s!"Failed to connect to KacheDB at {p.host}:{p.port}: {exc}"),
    p.discounting)

/-- The second half of `get_connection`: create a new stream if under limit. -/
def createConnection (limit : ℕ) (p : AsyncConnectionPool) (env : AsyncAcquire) :
    Except Exc AsyncStream × AsyncConnectionPool :=
  if p.activeCount ≥ p.maxConnections then
    (.error (.poolExhaustedError
      s!"Async connection pool exhausted (max_connections={p.maxConnections})"), p)
  else
    match p.tlsContext env with
    | .error e => (.error e, p.counting)
    | .ok () =>
      match env.dial with
      | .error (.builtinTimeout exc) => p.counting.refused exc
      | .error (.osError exc) => p.counting.refused exc
      | .error e => (.error e, p.counting)
      | .ok () =>
        match p.password with
        | none => (.ok .opened, p.counting)
        | some password =>
          match AsyncStream.opened.roundTrip limit [.str "AUTH", .str password] env.auth with
          | (.error e, _) => (.error e, p.counting)
          | (.ok res, s) =>
            if res.isOK then (.ok s, p.counting)
            else (.error (.authenticationFailed res), p.counting.discounting)

/-- Acquire an async connection from the pool. -/
def getConnection (limit : ℕ) (p : AsyncConnectionPool) (env : AsyncAcquire) :
    Except Exc AsyncStream × AsyncConnectionPool :=
  match p.pool with
  | [] => p.createConnection limit env
  | s :: idle =>
    if s.closing then ({ p with pool := idle } : AsyncConnectionPool).discounting.createConnection
      limit env
    else (.ok s, { p with pool := idle })

/-- `put_nowait` raises `QueueFull`; a queue of size 0 is unbounded. -/
def isFull (p : AsyncConnectionPool) : Bool :=
  decide (0 < p.maxConnections ∧ p.maxConnections ≤ p.pool.length)

/-- Return an async connection to the pool. -/
def releaseConnection (p : AsyncConnectionPool) (s : AsyncStream) : AsyncConnectionPool :=
  if !s.closing && !p.isFull then { p with pool := p.pool ++ [s] } else p.discounting

/-- Close all pooled connections. -/
def disconnectAll (p : AsyncConnectionPool) : AsyncConnectionPool :=
  { p with pool := [], activeCount := 0 }

end AsyncConnectionPool

/-! ## Streams with nothing unread -/

/-- The authentication is answered with a reply, unless it is broken off before the reply has
arrived in full. -/
def AsyncAcquire.Conforms (env : AsyncAcquire) : Prop :=
  ∃ reply : Reply, respBuffer.data env.auth.events <+: reply.encode ∧
    (env.auth.events.Quiet ∨ respBuffer.data env.auth.events ≠ reply.encode)

namespace AsyncConnectionPool

/-- Nothing is unread on any idle stream of the pool. -/
def AllSettled (p : AsyncConnectionPool) : Prop :=
  ∀ s ∈ p.pool, s.Holds []

/-- Of what a pool hands out and keeps, everything has nothing unread. -/
def GivesSettled (out : Except Exc AsyncStream × AsyncConnectionPool) : Prop :=
  (∀ s, out.1 = .ok s → s.Holds []) ∧ out.2.AllSettled

variable {limit : ℕ} {p : AsyncConnectionPool} {env : AsyncAcquire}

/-- A new stream has nothing unread, also after its authentication. -/
lemma AllSettled.createConnection (hp : p.AllSettled) (henv : env.Conforms) :
    GivesSettled (p.createConnection limit env) := by
  have hopened : AsyncStream.opened.Holds [] := ⟨rfl, Socket.holds_opened⟩
  obtain ⟨reply, hconf, hcut⟩ := henv
  unfold AsyncConnectionPool.createConnection
  split_ifs
  · exact ⟨by simp, hp⟩
  split
  · exact ⟨by simp, hp⟩
  split
  · exact ⟨by simp [refused], hp⟩
  · exact ⟨by simp [refused], hp⟩
  · exact ⟨by simp, hp⟩
  split
  · refine ⟨?_, hp⟩
    rintro s ⟨⟩
    exact hopened
  · next password _ =>
    rcases hrt : AsyncStream.opened.roundTrip limit [.str "AUTH", .str password] env.auth with
      ⟨e | res, s⟩
    · exact ⟨by simp, hp⟩
    · dsimp only
      split_ifs with hok
      · refine ⟨?_, hp⟩
        rintro s' ⟨⟩
        obtain ⟨-, hfull, hholds⟩ := hopened.roundTrip_ok hconf hrt
        exact hholds (hcut.resolve_right fun hne => hne hfull)
      · exact ⟨by simp, hp⟩

/-- A pool of streams with nothing unread hands out such streams. -/
lemma AllSettled.getConnection (hp : p.AllSettled) (henv : env.Conforms) :
    GivesSettled (p.getConnection limit env) := by
  unfold AsyncConnectionPool.getConnection
  cases hpool : p.pool with
  | nil => exact hp.createConnection henv
  | cons s idle =>
    have hidle : ({ p with pool := idle } : AsyncConnectionPool).AllSettled :=
      fun s' hs' => hp s' (by simp [hpool, show s' ∈ idle from hs'])
    dsimp only
    split_ifs
    · have hstale : ({ p with pool := idle } : AsyncConnectionPool).discounting.AllSettled := hidle
      exact hstale.createConnection henv
    · refine ⟨?_, hidle⟩
      rintro s' ⟨⟩
      exact hp s (by simp [hpool])

/-- Releasing a stream with nothing unread. -/
lemma AllSettled.releaseConnection (hp : p.AllSettled) {s : AsyncStream} (hs : s.Holds []) :
    (p.releaseConnection s).AllSettled := by
  unfold AsyncConnectionPool.releaseConnection
  split_ifs
  · intro s' hs'
    rcases List.mem_append.mp hs' with hs' | hs'
    · exact hp s' hs'
    · exact List.mem_singleton.mp hs' ▸ hs
  · exact hp

end AsyncConnectionPool

end KacheDB
