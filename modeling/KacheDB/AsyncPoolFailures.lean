import KacheDB.AsyncPool

/-!
# Failed acquisitions of the asynchronous pool

A `get_connection` of the asynchronous pool takes its slot before it sets up TLS, opens the
connection and authenticates.  It gives the slot back where `open_connection` raises an
`OSError` and where the authentication is answered with a value that is not `OK`.  Everything
else that raises behind the increment keeps the slot, and leaves the writer open if there is one.

`getConnectionWriter` is `get_connection` with the stream that it opens, and `AsyncCheckouts` are
the callers of a pool.  `failures_cost_nothing_iff` says which runs lose nothing.

The lock of the pool is never waited for: its critical sections contain no `await`.
-/

namespace KacheDB

open Foundation

namespace AsyncConnectionPool

/-! ## The stream that is opened -/

/-- `createConnection`, and the stream that it opens in the state in which it leaves it. -/
def createConnectionWriter (limit : ℕ) (p : AsyncConnectionPool) (env : AsyncAcquire) :
    Except Exc AsyncStream × AsyncConnectionPool × Option AsyncStream :=
  if p.activeCount ≥ p.maxConnections then
    (.error (.poolExhaustedError
      s!"Async connection pool exhausted (max_connections={p.maxConnections})"), p, none)
  else
    match p.tlsContext env with
    | .error e => (.error e, p.counting, none)
    | .ok () =>
      match env.dial with
      | .error (.builtinTimeout exc) =>
        ((p.counting.refused exc).1, (p.counting.refused exc).2, none)
      | .error (.osError exc) => ((p.counting.refused exc).1, (p.counting.refused exc).2, none)
      | .error e => (.error e, p.counting, none)
      | .ok () =>
        match p.password with
        | none => (.ok .opened, p.counting, some .opened)
        | some password =>
          match AsyncStream.opened.roundTrip limit [.str "AUTH", .str password] env.auth with
          | (.error e, s) => (.error e, p.counting, some s)
          | (.ok res, s) =>
            if res.isOK then (.ok s, p.counting, some s)
            else
              -- `writer.close()`
              (.error (.authenticationFailed res), p.counting.discounting,
                some { s with closing := true })

/-- The pool without its oldest idle stream, which was closing. -/
def withoutStale (p : AsyncConnectionPool) (idle : List AsyncStream) : AsyncConnectionPool :=
  ({ p with pool := idle } : AsyncConnectionPool).discounting

/-- `getConnection`, and the stream that it opens in the state in which it leaves it. -/
def getConnectionWriter (limit : ℕ) (p : AsyncConnectionPool) (env : AsyncAcquire) :
    Except Exc AsyncStream × AsyncConnectionPool × Option AsyncStream :=
  match p.pool with
  | [] => p.createConnectionWriter limit env
  | s :: idle =>
    if s.closing then (p.withoutStale idle).createConnectionWriter limit env
    else (.ok s, { p with pool := idle }, none)

section Writer

variable (limit : ℕ) (p : AsyncConnectionPool) (env : AsyncAcquire)

/-- To keep track of the stream changes nothing. -/
lemma createConnectionWriter_eq :
    ((p.createConnectionWriter limit env).1, (p.createConnectionWriter limit env).2.1) =
      p.createConnection limit env := by
  unfold createConnectionWriter createConnection
  split_ifs
  · rfl
  · cases p.tlsContext env with
    | error e => rfl
    | ok _ =>
      dsimp only
      rcases env.dial with e | _
      · cases e <;> rfl
      · cases p.password with
        | none => rfl
        | some password =>
          dsimp only
          rcases AsyncStream.opened.roundTrip limit [.str "AUTH", .str password] env.auth with
            ⟨e | res, s⟩
          · rfl
          · dsimp only
            split_ifs <;> rfl

/-- The same for `get_connection`. -/
lemma getConnectionWriter_eq :
    ((p.getConnectionWriter limit env).1, (p.getConnectionWriter limit env).2.1) =
      p.getConnection limit env := by
  unfold getConnectionWriter getConnection
  cases p.pool with
  | nil => exact createConnectionWriter_eq limit p env
  | cons s idle =>
    dsimp only
    split_ifs
    · exact createConnectionWriter_eq limit _ env
    · rfl

end Writer

/-! ## Failures behind the increment -/

/-- The authentication of a new stream raises: it is broken off, or answered with an error. -/
def AuthRaises (limit : ℕ) (p : AsyncConnectionPool) (env : AsyncAcquire) : Prop :=
  ∃ password e, p.password = some password ∧
    (AsyncStream.opened.roundTrip limit [.str "AUTH", .str password] env.auth).1 = .error e

/-- The pool has room for a new stream, but setting up TLS raises, or opening the connection
raises something that is no `OSError`, or the authentication raises. -/
def OpeningFails (limit : ℕ) (p : AsyncConnectionPool) (env : AsyncAcquire) : Prop :=
  p.activeCount < p.maxConnections ∧
    ((∃ e, p.tlsContext env = .error e) ∨
      p.tlsContext env = .ok () ∧
        ((∃ e, env.dial = .error e ∧ e.isOSError = false) ∨
          env.dial = .ok () ∧ p.AuthRaises limit env))

/-- A `get_connection` that raises without giving its slot back. -/
def LosesSlot (limit : ℕ) (p : AsyncConnectionPool) (env : AsyncAcquire) : Prop :=
  match p.pool with
  | [] => p.OpeningFails limit env
  | s :: idle => s.closing = true ∧ (p.withoutStale idle).OpeningFails limit env

/-- The counted streams that are not idle. -/
def checkedOut (p : AsyncConnectionPool) : ℤ :=
  p.activeCount - p.pool.length

@[simp] lemma checkedOut_counting (p : AsyncConnectionPool) :
    p.counting.checkedOut = p.checkedOut + 1 := by
  simp only [checkedOut, counting]
  ring

/-- Giving up a stale stream changes nothing. -/
lemma checkedOut_withoutStale {p : AsyncConnectionPool} {s : AsyncStream}
    {idle : List AsyncStream} (hpool : p.pool = s :: idle) :
    (p.withoutStale idle).checkedOut = p.checkedOut := by
  simp only [checkedOut, withoutStale, discounting, hpool, List.length_cons]
  push_cast
  ring

/-- How a call of `get_connection` may end. -/
inductive Ending (p : AsyncConnectionPool) (lost : Prop) :
    Except Exc AsyncStream × AsyncConnectionPool × Option AsyncStream → Prop
  /-- It returns a stream, which is counted. -/
  | returned (s : AsyncStream) (p' : AsyncConnectionPool) (w : Option AsyncStream)
      (hkept : ¬ lost) (hcount : p'.checkedOut = p.checkedOut + 1) : Ending p lost (.ok s, p', w)
  /-- It raises, and the stream that it has opened, if there is one, is closed. -/
  | raised (e : Exc) (p' : AsyncConnectionPool) (w : Option AsyncStream) (hkept : ¬ lost)
      (hcount : p'.checkedOut = p.checkedOut) (hclosed : ∀ s ∈ w, s.closing = true) :
      Ending p lost (.error e, p', w)
  /-- It raises, and a stream is counted that nobody has. -/
  | leaked (e : Exc) (p' : AsyncConnectionPool) (w : Option AsyncStream) (hlost : lost)
      (hcount : p'.checkedOut = p.checkedOut + 1) : Ending p lost (.error e, p', w)

variable {limit : ℕ} {p : AsyncConnectionPool} {env : AsyncAcquire}

/-- Creating a stream ends in one of these ways. -/
lemma ending_createConnectionWriter :
    p.Ending (p.OpeningFails limit env) (p.createConnectionWriter limit env) := by
  have hback : p.counting.discounting = p := by simp [counting, discounting]
  unfold createConnectionWriter
  by_cases hfull : p.activeCount ≥ p.maxConnections
  · rw [if_pos hfull]
    exact .raised _ p none (fun h => absurd h.1 (not_lt.mpr hfull)) rfl (by simp)
  · have hroom : p.activeCount < p.maxConnections := not_le.mp hfull
    rw [if_neg hfull]
    cases htls : p.tlsContext env with
    | error e => exact .leaked e _ none ⟨hroom, .inl ⟨e, htls⟩⟩ (checkedOut_counting p)
    | ok _ =>
      dsimp only
      rcases hdial : env.dial with e | _
      · by_cases hos : e.isOSError = true
        · -- the handler `except OSError`
          have hkept : ¬ p.OpeningFails limit env := by
            simp [OpeningFails, htls, hdial, hos]
          cases e with
          | builtinTimeout exc => exact .raised _ _ none hkept (by rw [refused, hback]) (by simp)
          | osError exc => exact .raised _ _ none hkept (by rw [refused, hback]) (by simp)
          | _ => simp [Exc.isOSError] at hos
        · have hlost : p.OpeningFails limit env :=
            ⟨hroom, .inr ⟨htls, .inl ⟨e, hdial, by simpa using hos⟩⟩⟩
          cases e with
          | builtinTimeout exc => simp [Exc.isOSError] at hos
          | osError exc => simp [Exc.isOSError] at hos
          | _ => exact .leaked _ _ none hlost (checkedOut_counting p)
      · cases hpassword : p.password with
        | none =>
          refine .returned _ _ _ ?_ (checkedOut_counting p)
          simp [OpeningFails, htls, hdial, AuthRaises, hpassword]
        | some password =>
          dsimp only
          rcases hauth : AsyncStream.opened.roundTrip limit [.str "AUTH", .str password] env.auth
            with ⟨e | res, s⟩
          · refine .leaked e _ _ ⟨hroom, .inr ⟨htls, .inr ⟨hdial, password, e, hpassword, ?_⟩⟩⟩
              (checkedOut_counting p)
            rw [hauth]
          · have hkept : ¬ p.OpeningFails limit env := by
              simp [OpeningFails, htls, hdial, AuthRaises, hpassword, hauth]
            dsimp only
            split_ifs
            · exact .returned _ _ _ hkept (checkedOut_counting p)
            · exact .raised _ _ _ hkept (by rw [hback]) (by simp)

/-- So does a call of `get_connection`. -/
theorem ending_getConnectionWriter :
    p.Ending (p.LosesSlot limit env) (p.getConnectionWriter limit env) := by
  unfold getConnectionWriter LosesSlot
  cases hpool : p.pool with
  | nil => exact ending_createConnectionWriter
  | cons s idle =>
    dsimp only
    by_cases hclosing : s.closing = true
    · rw [if_pos hclosing]
      have hcount := checkedOut_withoutStale hpool
      have hend := @ending_createConnectionWriter limit (p.withoutStale idle) env
      generalize (p.withoutStale idle).createConnectionWriter limit env = out at hend
      cases hend with
      | returned s' p' w hkept h => exact .returned s' p' w (by simp [hkept]) (by rw [h, hcount])
      | raised e p' w hkept h hclosed =>
        exact .raised e p' w (by simp [hkept]) (by rw [h, hcount]) hclosed
      | leaked e p' w hlost h => exact .leaked e p' w ⟨hclosing, hlost⟩ (by rw [h, hcount])
    · rw [if_neg hclosing]
      refine .returned s _ none (by simp [hclosing]) ?_
      simp only [checkedOut, hpool, List.length_cons]
      push_cast
      ring

/-- Releasing a stream counts it as idle or no longer. -/
lemma checkedOut_releaseConnection (p : AsyncConnectionPool) (s : AsyncStream) :
    (p.releaseConnection s).checkedOut = p.checkedOut - 1 := by
  unfold releaseConnection
  split_ifs
  · simp only [checkedOut, List.length_append, List.length_singleton]
    push_cast
    ring
  · simp only [checkedOut, discounting]
    ring

end AsyncConnectionPool

/-! ## The callers of a pool -/

/-- A pool, the streams that are handed out and not yet released, and the streams that failed calls
of `get_connection` have opened, in the state in which these left them. -/
structure AsyncCheckouts where
  pool : AsyncConnectionPool
  out : List AsyncStream
  failed : List AsyncStream

/-- One operation on a pool. -/
inductive AsyncPoolOp : Type where
  | get (env : AsyncAcquire)
  | release (i : ℕ) (s : AsyncStream)
  | disconnectAll

namespace AsyncCheckouts

/-- Nothing is handed out of a new pool. -/
def new (p : AsyncConnectionPool) : AsyncCheckouts :=
  ⟨p, [], []⟩

/-- One operation; only a stream that is handed out can be released, in the state in which its
caller leaves it. -/
def step (limit : ℕ) (c : AsyncCheckouts) : AsyncPoolOp → AsyncCheckouts
  | .get env =>
    match c.pool.getConnectionWriter limit env with
    | (.ok s, p, _) => ⟨p, c.out ++ [s], c.failed⟩
    | (.error _, p, w) => ⟨p, c.out, c.failed ++ w.toList⟩
  | .release i s =>
    if i < c.out.length then { c with pool := c.pool.releaseConnection s, out := c.out.eraseIdx i }
    else c
  | .disconnectAll => { c with pool := c.pool.disconnectAll }

/-- The count is the number of idle streams plus the number of those handed out, and no stream of
a failed call is open. -/
structure NothingLost (c : AsyncCheckouts) : Prop where
  balanced : c.pool.activeCount = c.pool.pool.length + c.out.length
  closed : ∀ s ∈ c.failed, s.closing = true

/-- The step neither loses a slot nor forgets the streams that are handed out. -/
def Accounted (limit : ℕ) (c : AsyncCheckouts) : AsyncPoolOp → Prop
  | .get env => ¬ c.pool.LosesSlot limit env
  | .release _ _ => True
  | .disconnectAll => c.out = []

lemma nothingLost_iff {c : AsyncCheckouts} :
    c.NothingLost ↔ c.pool.checkedOut = c.out.length ∧ ∀ s ∈ c.failed, s.closing = true := by
  unfold AsyncConnectionPool.checkedOut
  constructor
  · rintro ⟨hbalanced, hclosed⟩
    exact ⟨by omega, hclosed⟩
  · rintro ⟨hbalanced, hclosed⟩
    exact ⟨by omega, hclosed⟩

/-- Where nothing was lost, a step loses nothing exactly if it is accounted. -/
lemma nothingLost_step_iff (limit : ℕ) (c : AsyncCheckouts) (op : AsyncPoolOp)
    (hc : c.NothingLost) : (c.step limit op).NothingLost ↔ c.Accounted limit op := by
  rw [nothingLost_iff] at hc ⊢
  obtain ⟨hcount, hclosed⟩ := hc
  cases op with
  | get env =>
    have hend := @AsyncConnectionPool.ending_getConnectionWriter limit c.pool env
    simp only [step, Accounted]
    generalize c.pool.getConnectionWriter limit env = out at hend
    cases hend with
    | returned s p w hkept h => exact iff_of_true ⟨by simp [h, hcount], hclosed⟩ hkept
    | raised e p w hkept h hw =>
      refine iff_of_true ⟨by simp [h, hcount], fun s hs => ?_⟩ hkept
      rcases List.mem_append.mp hs with hs | hs
      · exact hclosed s hs
      · exact hw s (Option.mem_toList.mp hs)
    | leaked e p w hlost h => simp [h, hcount, hlost]
  | release i s =>
    simp only [step, Accounted, iff_true]
    by_cases hi : i < c.out.length
    · rw [if_pos hi, AsyncConnectionPool.checkedOut_releaseConnection, hcount,
        List.length_eraseIdx_of_lt hi]
      exact ⟨by omega, hclosed⟩
    · rw [if_neg hi]
      exact ⟨hcount, hclosed⟩
  | disconnectAll =>
    simp only [step, Accounted, AsyncConnectionPool.disconnectAll,
      AsyncConnectionPool.checkedOut]
    constructor
    · rintro ⟨h, -⟩
      exact List.length_eq_zero_iff.mp (by simpa using h.symm)
    · intro h
      exact ⟨by simp [h], hclosed⟩

/-- **Which failed acquisitions cost nothing.**  In every state of a run on a new pool the count is
the number of idle streams plus the number of those handed out, and no stream that a failed call has
opened is left open, if and only if every `get_connection` of the run that raises does so because
the pool is exhausted, because `open_connection` raises an `OSError`, or because the authentication
is answered with a value that is not `OK` (and every `disconnect_all` finds nothing handed out). -/
theorem failures_cost_nothing_iff (limit : ℕ) (host : String) (port maxConnections : ℕ)
    (password : Option String) (ssl : Bool) (ops : List AsyncPoolOp) :
    (∀ pre, pre <+: ops → (pre.foldl (step limit)
        (new (.new host port maxConnections password ssl))).NothingLost) ↔
      Guarded (step limit) (Accounted limit)
        (new (.new host port maxConnections password ssl)) ops := by
  have hnew : (new (.new host port maxConnections password ssl)).NothingLost :=
    ⟨rfl, fun s hs => by cases hs⟩
  exact (guarded_iff_invariant (nothingLost_step_iff limit) hnew ops).symm

/-- The authentication is answered with an error: a slot is lost and a stream left open. -/
theorem failure_costs_slot :
    ¬ ((new (.new "127.0.0.1" 6379 1 (some "secret") false)).step 1
        (.get ⟨.ok (), .ok (), ⟨.ok (), [.chunk ⟨[45, 69, 13, 10], by decide⟩]⟩⟩)).NothingLost ∧
      ((new (.new "127.0.0.1" 6379 1 (some "secret") false)).step 1
        (.get ⟨.ok (), .ok (), ⟨.ok (), [.chunk ⟨[45, 69, 13, 10], by decide⟩]⟩⟩)).failed.map
          AsyncStream.closing = [false] := by
  refine ⟨fun h => ?_, rfl⟩
  exact absurd h.balanced (by decide)

end AsyncCheckouts

end KacheDB
