import KacheDB.Client
import KacheDB.PoolThreads

/-!
# The client under threads

Any number of threads execute commands on one `KacheClient` that has no dedicated connection.
Within `_execute` a thread takes a connection from the pool, sends its command, reads one reply
and gives the connection back, and the steps of the threads interleave.

`PoolThreads` knows of a connection only whether it is open.  Here it is the object with its socket,
and what a thread does with it are the methods of `Connection`.  Forgetting the sockets gives a run
of the pool (`Step.simulates`), and so a connection is in one hand at a time.  With that, nothing is
unread on a connection that no command is under way on, and every command that returns a value
returns the value of its own reply (`reachable_matches`).
-/

namespace KacheDB

open Foundation

/-! ## Open connections -/

namespace Connection

variable {c c' : Connection} {limit : ℕ} {args : List Arg} {x : Exchange}

/-- Sending on a closed connection leaves it closed. -/
lemma isConnected_of_sendCommand (h : (c.sendCommand args x).2.isConnected = true) :
    c.isConnected = true := by
  unfold isConnected
  cases hs : c.sock with
  | none => simp [sendCommand, sendAll, isConnected, hs] at h
  | some s => rfl

/-- A command has been sent on an open connection, which stays open. -/
lemma isConnected_of_sendCommand_ok (h : c.sendCommand args x = (.ok (), c')) :
    c.isConnected = true ∧ c'.isConnected = true := by
  unfold sendCommand sendAll at h
  cases hs : c.sock with
  | none => simp [hs] at h
  | some s =>
    simp only [hs] at h
    cases hx : x.sendOutcome with
    | error e => simp [hx] at h
    | ok _ =>
      simp only [hx, Prod.mk.injEq, true_and] at h
      obtain rfl := h
      simp [isConnected, hs]

/-- Reading from a closed connection leaves it closed. -/
lemma isConnected_of_readResponse (h : (c.readResponse limit).2.isConnected = true) :
    c.isConnected = true := by
  unfold isConnected
  cases hs : c.sock with
  | none => simp [readResponse, isConnected, hs] at h
  | some s => rfl

/-- A reply has been read from an open connection, which stays open. -/
lemma isConnected_of_readResponse_ok {v : RespValue} (h : c.readResponse limit = (.ok v, c')) :
    c.isConnected = true ∧ c'.isConnected = true := by
  unfold readResponse at h
  cases hs : c.sock with
  | none => simp [hs] at h
  | some s =>
    rcases hread : s.read limit with ⟨e | w, s'⟩
    · simp [hs, hread] at h
    · simp only [hs, hread, Prod.mk.injEq] at h
      obtain ⟨-, rfl⟩ := h
      simp [isConnected, hs]

/-- A command on a closed connection leaves it closed. -/
lemma isConnected_of_roundTrip (h : (c.roundTrip limit args x).2.isConnected = true) :
    c.isConnected = true := by
  unfold roundTrip at h
  rcases hsend : c.sendCommand args x with ⟨e | _, c₁⟩
  · rw [hsend] at h
    exact isConnected_of_sendCommand (by rw [hsend]; exact h)
  · exact (isConnected_of_sendCommand_ok hsend).1

/-- A command has been answered on an open connection, which stays open. -/
lemma isConnected_of_roundTrip_ok {v : RespValue} (h : c.roundTrip limit args x = (.ok v, c')) :
    c.isConnected = true ∧ c'.isConnected = true := by
  unfold roundTrip at h
  rcases hsend : c.sendCommand args x with ⟨e | _, c₁⟩
  · simp [hsend] at h
  · rw [hsend] at h
    exact ⟨(isConnected_of_sendCommand_ok hsend).1, (isConnected_of_readResponse_ok h).2⟩

/-- The connection after a health check is the one after its `PING`. -/
lemma checkHealth_snd (limit : ℕ) (c : Connection) (ping : Exchange) :
    (c.checkHealth limit ping).2 = (c.roundTrip limit [.str "PING"] ping).2 := by
  unfold checkHealth
  rcases c.roundTrip limit [.str "PING"] ping with ⟨e | v, c₁⟩
  · dsimp only
    split_ifs <;> rfl
  · cases v <;> rfl

/-- A healthy connection is open. -/
lemma isConnected_of_checkHealth_true {ping : Exchange}
    (h : c.checkHealth limit ping = (.ok true, c')) : c'.isConnected = true := by
  have hsnd := c.checkHealth_snd limit ping
  rw [h] at hsnd
  unfold checkHealth at h
  rcases hrt : c.roundTrip limit [.str "PING"] ping with ⟨e | v, c₁⟩
  · rw [hrt] at h
    dsimp only at h
    split_ifs at h <;> simp at h
  · rw [hrt] at hsnd
    obtain rfl : c' = c₁ := hsnd
    exact (isConnected_of_roundTrip_ok hrt).2

/-- An attempt to connect that raises leaves the connection as it was. -/
lemma connect_error {dial : Except Exc Unit} {e : Exc} (h : c.connect dial = (.error e, c')) :
    c' = c := by
  unfold connect at h
  split_ifs at h
  · simp at h
  · split at h <;> simp_all

/-- After an attempt to connect that succeeds the connection is open, and if it was not before,
then its socket is new. -/
lemma connect_ok {dial : Except Exc Unit} (h : c.connect dial = (.ok (), c')) :
    c' = c ∧ c.isConnected = true ∨ c' = { c with sock := some .opened } := by
  unfold connect at h
  split_ifs at h with hopen
  · left
    exact ⟨(Prod.mk.inj h).2.symm, hopen⟩
  · right
    split at h <;> simp_all

/-- After an attempt to connect that succeeds the connection is open. -/
lemma isConnected_of_connect {dial : Except Exc Unit} (h : c.connect dial = (.ok (), c')) :
    c'.isConnected = true := by
  rcases connect_ok h with ⟨rfl, hopen⟩ | rfl
  · exact hopen
  · rfl

/-! ## Connections with nothing unread -/

namespace Clean

variable {d : Bool} {reply : Reply}

/-- A command that is answered on a connection with nothing unread returns the value of its reply
and leaves nothing unread. -/
lemma roundTrip_ok (hc : c.Clean d) (hx : x.Answers reply) {v : RespValue}
    (h : c.roundTrip limit args x = (.ok v, c')) :
    c'.Clean d ∧ reply.decoded limit d = .ok v := by
  have hspec := Connection.roundTrip_spec limit args hc.1 hx
  have hdecode := c.roundTrip_decodeResponses limit args x
  rw [h] at hspec hdecode
  rcases hspec with ⟨w, hw, hdecoded, hsettled⟩ | ⟨e, he, -⟩
  · obtain rfl := Except.ok.inj hw
    exact ⟨⟨hsettled, hdecode.trans hc.2⟩, hc.2 ▸ hdecoded⟩
  · cases he

/-- A command that fails raises an `Exception`. -/
lemma roundTrip_error (hc : c.Clean d) (hx : x.Answers reply) {e : Exc}
    (h : c.roundTrip limit args x = (.error e, c')) :
    c'.decodeResponses = d ∧ e.isException = true := by
  have hspec := Connection.roundTrip_spec limit args hc.1 hx
  have hdecode := c.roundTrip_decodeResponses limit args x
  rw [h] at hspec hdecode
  rcases hspec with ⟨v, hv, -⟩ | ⟨e', he, hexc⟩
  · cases hv
  · obtain rfl := Except.error.inj he
    exact ⟨hdecode.trans hc.2, hexc⟩

lemma connect (hc : c.Clean d) {dial : Except Exc Unit} (h : c.connect dial = (.ok (), c')) :
    c'.Clean d := by
  rcases connect_ok h with ⟨rfl, -⟩ | rfl
  · exact hc
  · refine ⟨?_, hc.2⟩
    intro s hs
    obtain rfl : .opened = s := Option.some.inj hs
    exact Socket.settled_opened

end Clean

/-- A closed connection has nothing unread. -/
lemma clean_disconnect {d : Bool} (hd : c.decodeResponses = d) : c.disconnect.Clean d :=
  ⟨c.settled_disconnect, hd⟩

end Connection

namespace ClientThreads

open PoolThreads (ConnId)

/-! ## Steps -/

/-- A command with the reply that the server gives to it. -/
structure Command where
  args : List Arg
  reply : Reply

/-- How `_execute` ends. -/
abbrev Outcome : Type := Except Exc RespValue

/-- Where a thread is: between calls, or in front of one of the steps of `_execute`. -/
inductive PC : Type where
  /-- Between two calls. -/
  | idle
  /-- `get_connection`: `get_nowait`. -/
  | acquiring (cmd : Command)
  /-- `get_connection`: the health check of an idle connection. -/
  | checking (cmd : Command) (c : ConnId)
  /-- `get_connection`: closing a stale connection. -/
  | discarding (cmd : Command) (c : ConnId)
  /-- `get_connection`: the decrement for a stale connection. -/
  | uncounting (cmd : Command)
  /-- `get_connection`: the locked check of the limit with the increment. -/
  | entering (cmd : Command)
  /-- `get_connection`: `conn.connect()`. -/
  | connecting (cmd : Command) (c : ConnId)
  /-- `get_connection`: the `AUTH` command. -/
  | authenticating (cmd : Command) (c : ConnId)
  /-- `get_connection`: closing a connection whose `AUTH` was answered with `res`. -/
  | rejecting (cmd : Command) (c : ConnId) (res : RespValue)
  /-- `get_connection`: the decrement for a refused `AUTH`. -/
  | givingBack (cmd : Command) (res : RespValue)
  /-- `conn.send_command(*args)` -/
  | sending (cmd : Command) (c : ConnId)
  /-- `conn.read_response()` -/
  | reading (cmd : Command) (c : ConnId)
  /-- `except Exception: conn.disconnect()` -/
  | failing (cmd : Command) (c : ConnId) (e : Exc)
  /-- `release_connection`: the check whether the connection is open. -/
  | releasing (cmd : Command) (c : ConnId) (out : Outcome)
  /-- `release_connection`: `put_nowait`. -/
  | putting (cmd : Command) (c : ConnId) (out : Outcome)
  /-- `release_connection`: closing the connection. -/
  | closing (cmd : Command) (c : ConnId) (out : Outcome)
  /-- `release_connection`: the decrement. -/
  | countingDown (cmd : Command) (out : Outcome)

/-- The client with its threads: what its pool is made with, the queue and the counter of the pool,
the connection objects, of which those from `next` on are still to be made, the threads, and the
calls that have returned. -/
structure State (ι : Type) where
  host : String
  port : ℕ
  maxConnections : ℕ
  decodeResponses : Bool
  password : Option String
  queue : List ConnId
  activeCount : ℤ
  conns : ConnId → Connection
  next : ConnId
  threads : ι → PC
  returned : List (ι × Command × Outcome)

variable {ι : Type} [DecidableEq ι]

namespace State

/-- A new client and threads between two calls. -/
def init (host : String) (port maxConnections : ℕ) (d : Bool) (password : Option String) :
    State ι :=
  ⟨host, port, maxConnections, d, password, [], 0, fun _ => ⟨host, port, d, none⟩, 0,
    fun _ => .idle, []⟩

/-- `put_nowait` would raise `queue.Full`. -/
def isFull (s : State ι) : Prop :=
  0 < s.maxConnections ∧ s.maxConnections ≤ s.queue.length

/-- The state with thread `i` elsewhere. -/
def put (s : State ι) (i : ι) (pc : PC) : State ι :=
  { s with threads := Function.update s.threads i pc }

/-- The state with another connection object. -/
def setConn (s : State ι) (c : ConnId) (conn : Connection) : State ι :=
  { s with conns := Function.update s.conns c conn }

/-- `_execute` of thread `i` ends. -/
def finish (s : State ι) (i : ι) (cmd : Command) (out : Outcome) : State ι :=
  { s.put i .idle with returned := s.returned ++ [(i, cmd, out)] }

end State

/-- One step of thread `i`.  Everything it sends is answered by the server, unless the network
fails. -/
inductive Step (limit : ℕ) (s : State ι) (i : ι) : State ι → Prop
  /-- `_execute` is called. -/
  | call (cmd : Command) (ht : s.threads i = .idle) : Step limit s i (s.put i (.acquiring cmd))
  /-- `get_nowait` gives an idle connection. -/
  | getNowait (cmd : Command) (c : ConnId) (queue : List ConnId)
      (ht : s.threads i = .acquiring cmd) (hq : s.queue = c :: queue) :
      Step limit s i ({ s with queue := queue }.put i (.checking cmd c))
  /-- `get_nowait` raises `queue.Empty`. -/
  | queueEmpty (cmd : Command) (ht : s.threads i = .acquiring cmd) (hq : s.queue = []) :
      Step limit s i (s.put i (.entering cmd))
  /-- The idle connection is open and healthy, and is returned. -/
  | healthy (cmd : Command) (c : ConnId) (ping : Exchange) (reply : Reply) (conn : Connection)
      (ht : s.threads i = .checking cmd c) (hping : ping.Answers reply)
      (hopen : (s.conns c).isConnected = true)
      (hcheck : (s.conns c).checkHealth limit ping = (.ok true, conn)) :
      Step limit s i ((s.setConn c conn).put i (.sending cmd c))
  /-- The idle connection is closed. -/
  | closed (cmd : Command) (c : ConnId) (ht : s.threads i = .checking cmd c)
      (hclosed : (s.conns c).isConnected = false) : Step limit s i (s.put i (.discarding cmd c))
  /-- The health check of the idle connection fails. -/
  | unhealthy (cmd : Command) (c : ConnId) (ping : Exchange) (reply : Reply) (conn : Connection)
      (ht : s.threads i = .checking cmd c) (hping : ping.Answers reply)
      (hopen : (s.conns c).isConnected = true)
      (hcheck : (s.conns c).checkHealth limit ping = (.ok false, conn)) :
      Step limit s i ((s.setConn c conn).put i (.discarding cmd c))
  /-- The stale connection is closed. -/
  | discard (cmd : Command) (c : ConnId) (ht : s.threads i = .discarding cmd c) :
      Step limit s i ((s.setConn c (s.conns c).disconnect).put i (.uncounting cmd))
  /-- The counter is decremented for the stale connection. -/
  | uncount (cmd : Command) (ht : s.threads i = .uncounting cmd) :
      Step limit s i ({ s with activeCount := s.activeCount - 1 }.put i (.entering cmd))
  /-- The limit is reached. -/
  | exhausted (cmd : Command) (ht : s.threads i = .entering cmd)
      (hfull : s.maxConnections ≤ s.activeCount) :
      Step limit s i (s.finish i cmd (.error (.poolExhaustedError
        s!"Connection pool exhausted (max_connections={s.maxConnections})")))
  /-- The counter is incremented for a new connection. -/
  | enter (cmd : Command) (ht : s.threads i = .entering cmd)
      (hroom : s.activeCount < s.maxConnections) :
      Step limit s i ({ s with activeCount := s.activeCount + 1, next := s.next + 1 }.put i
        (.connecting cmd s.next))
  /-- `connect` raises. -/
  | connectFails (cmd : Command) (c : ConnId) (dial : Except Exc Unit) (e : Exc)
      (conn : Connection) (ht : s.threads i = .connecting cmd c)
      (hconnect : (s.conns c).connect dial = (.error e, conn)) :
      Step limit s i ((s.setConn c conn).finish i cmd (.error e))
  /-- `connect` succeeds, and the connection is returned. -/
  | connected (cmd : Command) (c : ConnId) (dial : Except Exc Unit) (conn : Connection)
      (ht : s.threads i = .connecting cmd c)
      (hconnect : (s.conns c).connect dial = (.ok (), conn)) (hpassword : s.password = none) :
      Step limit s i ((s.setConn c conn).put i (.sending cmd c))
  /-- `connect` succeeds, and there is a password. -/
  | connectAuth (cmd : Command) (c : ConnId) (dial : Except Exc Unit) (conn : Connection)
      (password : String) (ht : s.threads i = .connecting cmd c)
      (hconnect : (s.conns c).connect dial = (.ok (), conn))
      (hpassword : s.password = some password) :
      Step limit s i ((s.setConn c conn).put i (.authenticating cmd c))
  /-- The `AUTH` command raises. -/
  | authRaises (cmd : Command) (c : ConnId) (password : String) (auth : Exchange) (reply : Reply)
      (e : Exc) (conn : Connection) (ht : s.threads i = .authenticating cmd c)
      (hpassword : s.password = some password) (hanswer : auth.Answers reply)
      (hauth : (s.conns c).roundTrip limit [.str "AUTH", .str password] auth = (.error e, conn)) :
      Step limit s i ((s.setConn c conn).finish i cmd (.error e))
  /-- `AUTH` is answered with OK, and the connection is returned. -/
  | authOk (cmd : Command) (c : ConnId) (password : String) (auth : Exchange) (reply : Reply)
      (res : RespValue) (conn : Connection) (ht : s.threads i = .authenticating cmd c)
      (hpassword : s.password = some password) (hanswer : auth.Answers reply)
      (hauth : (s.conns c).roundTrip limit [.str "AUTH", .str password] auth = (.ok res, conn))
      (hok : res.isOK = true) : Step limit s i ((s.setConn c conn).put i (.sending cmd c))
  /-- `AUTH` is answered with something else. -/
  | authRefused (cmd : Command) (c : ConnId) (password : String) (auth : Exchange) (reply : Reply)
      (res : RespValue) (conn : Connection) (ht : s.threads i = .authenticating cmd c)
      (hpassword : s.password = some password) (hanswer : auth.Answers reply)
      (hauth : (s.conns c).roundTrip limit [.str "AUTH", .str password] auth = (.ok res, conn))
      (hok : res.isOK = false) : Step limit s i ((s.setConn c conn).put i (.rejecting cmd c res))
  /-- The connection is closed. -/
  | reject (cmd : Command) (c : ConnId) (res : RespValue)
      (ht : s.threads i = .rejecting cmd c res) :
      Step limit s i ((s.setConn c (s.conns c).disconnect).put i (.givingBack cmd res))
  /-- The counter is decremented, and "Authentication failed" is raised. -/
  | giveBack (cmd : Command) (res : RespValue) (ht : s.threads i = .givingBack cmd res) :
      Step limit s i ({ s with activeCount := s.activeCount - 1 }.finish i cmd
        (.error (.authenticationFailed res)))
  /-- The command is sent. -/
  | send (cmd : Command) (c : ConnId) (x : Exchange) (conn : Connection)
      (ht : s.threads i = .sending cmd c) (hx : x.Answers cmd.reply)
      (hsend : (s.conns c).sendCommand cmd.args x = (.ok (), conn)) :
      Step limit s i ((s.setConn c conn).put i (.reading cmd c))
  /-- Sending the command raises. -/
  | sendRaises (cmd : Command) (c : ConnId) (x : Exchange) (e : Exc) (conn : Connection)
      (ht : s.threads i = .sending cmd c) (hx : x.Answers cmd.reply)
      (hsend : (s.conns c).sendCommand cmd.args x = (.error e, conn)) :
      Step limit s i ((s.setConn c conn).put i (.failing cmd c e))
  /-- The reply is read. -/
  | read (cmd : Command) (c : ConnId) (v : RespValue) (conn : Connection)
      (ht : s.threads i = .reading cmd c)
      (hread : (s.conns c).readResponse limit = (.ok v, conn)) :
      Step limit s i ((s.setConn c conn).put i (.releasing cmd c (.ok v)))
  /-- Reading the reply raises. -/
  | readRaises (cmd : Command) (c : ConnId) (e : Exc) (conn : Connection)
      (ht : s.threads i = .reading cmd c)
      (hread : (s.conns c).readResponse limit = (.error e, conn)) :
      Step limit s i ((s.setConn c conn).put i (.failing cmd c e))
  /-- On error, the connection is discarded. -/
  | fail (cmd : Command) (c : ConnId) (e : Exc) (ht : s.threads i = .failing cmd c e) :
      Step limit s i ((s.setConn c
        (if e.isException then (s.conns c).disconnect else s.conns c)).put i
          (.releasing cmd c (.error e)))
  /-- The connection is released; it is open. -/
  | releaseOpen (cmd : Command) (c : ConnId) (out : Outcome)
      (ht : s.threads i = .releasing cmd c out) (hopen : (s.conns c).isConnected = true) :
      Step limit s i (s.put i (.putting cmd c out))
  /-- The connection is released; it is closed. -/
  | releaseClosed (cmd : Command) (c : ConnId) (out : Outcome)
      (ht : s.threads i = .releasing cmd c out) (hclosed : (s.conns c).isConnected = false) :
      Step limit s i (s.put i (.closing cmd c out))
  /-- `put_nowait` puts the connection into the queue. -/
  | putNowait (cmd : Command) (c : ConnId) (out : Outcome)
      (ht : s.threads i = .putting cmd c out) (hroom : ¬ s.isFull) :
      Step limit s i ({ s with queue := s.queue ++ [c] }.finish i cmd out)
  /-- `put_nowait` raises `queue.Full`. -/
  | queueFull (cmd : Command) (c : ConnId) (out : Outcome)
      (ht : s.threads i = .putting cmd c out) (hfull : s.isFull) :
      Step limit s i (s.put i (.closing cmd c out))
  /-- The connection is closed. -/
  | close (cmd : Command) (c : ConnId) (out : Outcome) (ht : s.threads i = .closing cmd c out) :
      Step limit s i ((s.setConn c (s.conns c).disconnect).put i (.countingDown cmd out))
  /-- The counter is decremented. -/
  | countDown (cmd : Command) (out : Outcome) (ht : s.threads i = .countingDown cmd out) :
      Step limit s i ({ s with activeCount := s.activeCount - 1 }.finish i cmd out)

/-- The states that some interleaving reaches. -/
def Reachable (limit : ℕ) (host : String) (port maxConnections : ℕ) (d : Bool)
    (password : Option String) (s : State ι) : Prop :=
  Relation.ReflTransGen (fun s s' => ∃ i, Step limit s i s')
    (.init host port maxConnections d password) s

/-! ## The pool's view -/

/-- Where the thread is in the methods of the pool, and which connection it has checked out. -/
def PC.thread : PC → PoolThreads.Thread
  | .idle | .acquiring _ => ⟨.idle, []⟩
  | .checking _ c => ⟨.checking c, []⟩
  | .discarding _ c => ⟨.discarding c, []⟩
  | .uncounting _ => ⟨.uncounting, []⟩
  | .entering _ => ⟨.entering, []⟩
  | .connecting _ c => ⟨.connecting c, []⟩
  | .authenticating _ c => ⟨.authenticating c, []⟩
  | .rejecting _ c _ => ⟨.rejecting c, []⟩
  | .givingBack _ _ => ⟨.givingBack, []⟩
  | .sending _ c | .reading _ c | .failing _ c _ | .releasing _ c _ => ⟨.idle, [c]⟩
  | .putting _ c _ => ⟨.putting c, []⟩
  | .closing _ c _ => ⟨.closing c, []⟩
  | .countingDown _ _ => ⟨.releasing, []⟩

/-- The connection that a thread has in hand. -/
def PC.inHand : PC → Option ConnId
  | .checking _ c | .discarding _ c | .connecting _ c | .authenticating _ c | .rejecting _ c _
  | .sending _ c | .reading _ c | .failing _ c _ | .releasing _ c _ | .putting _ c _
  | .closing _ c _ => some c
  | _ => none

/-- A connection in hand belongs to the thread. -/
lemma PC.mem_owned_of_inHand {pc : PC} {c : ConnId} (h : pc.inHand = some c) :
    c ∈ pc.thread.owned := by
  cases pc <;> simp_all [inHand, thread, PoolThreads.Thread.owned, PoolThreads.PC.inHand]

/-- The state of the pool. -/
def State.abs (s : State ι) : PoolThreads.State ι where
  maxConnections := s.maxConnections
  hasPassword := s.password.isSome
  queue := s.queue
  activeCount := s.activeCount
  isOpen c := (s.conns c).isConnected
  next := s.next
  threads i := (s.threads i).thread

section Abs

variable {s : State ι} {i : ι}

lemma abs_put (s : State ι) (i : ι) (pc : PC) : (s.put i pc).abs = s.abs.put i pc.thread := by
  unfold State.abs State.put PoolThreads.State.put
  congr 1
  exact Function.comp_update PC.thread s.threads i pc

lemma abs_finish (s : State ι) (i : ι) (cmd : Command) (out : Outcome) :
    (s.finish i cmd out).abs = s.abs.put i ⟨.idle, []⟩ :=
  abs_put s i .idle

omit [DecidableEq ι] in
lemma abs_setConn (s : State ι) (c : ConnId) (conn : Connection) :
    (s.setConn c conn).abs =
      { s.abs with isOpen := Function.update s.abs.isOpen c conn.isConnected } := by
  unfold State.abs State.setConn
  congr 1
  exact Function.comp_update Connection.isConnected s.conns c conn

omit [DecidableEq ι] in
/-- A connection that is open or closed as before. -/
lemma abs_setConn_of_eq {c : ConnId} {conn : Connection}
    (h : conn.isConnected = (s.conns c).isConnected) : (s.setConn c conn).abs = s.abs := by
  rw [abs_setConn, h]
  exact congrArg (fun isOpen => { s.abs with isOpen := isOpen }) (Function.update_eq_self c _)

/-- A thread that stays where it is for the pool. -/
lemma abs_put_of_eq {pc : PC} (h : (s.threads i).thread = pc.thread) :
    (s.put i pc).abs = s.abs := by
  rw [abs_put, ← h]
  exact congrArg (fun threads => { s.abs with threads := threads }) (Function.update_eq_self i _)

/-- A step that may close a stale connection is one of the pool. -/
lemma stale_abs {c : ConnId} (conn : Connection) (ht : s.abs.threads i = ⟨.checking c, []⟩)
    (hmono : conn.isConnected = true → (s.conns c).isConnected = true) :
    PoolThreads.Step s.abs i ((s.setConn c conn).abs.put i ⟨.discarding c, []⟩) := by
  have hopen : conn.isConnected = (conn.isConnected && s.abs.isOpen c) := by
    cases hconn : conn.isConnected with
    | false => rfl
    | true => exact (hmono hconn).symm
  rw [abs_setConn, hopen]
  exact .stale c [] ht conn.isConnected

/-- What a thread does with a connection that it has checked out is nothing for the pool, or closes
the connection. -/
lemma checkedOut_abs {c : ConnId} {conn : Connection} {pc : PC}
    (ht : s.abs.threads i = ⟨.idle, [c]⟩) (hpc : pc.thread = ⟨.idle, [c]⟩)
    (hmono : conn.isConnected = true → (s.conns c).isConnected = true) :
    ((s.setConn c conn).put i pc).abs = s.abs ∨
      PoolThreads.Step s.abs i ((s.setConn c conn).put i pc).abs := by
  by_cases hconn : conn.isConnected = (s.conns c).isConnected
  · left
    have hsame : ((s.setConn c conn).threads i).thread = pc.thread := ht.trans hpc.symm
    rw [abs_put_of_eq hsame, abs_setConn_of_eq hconn]
  · right
    have hclosed : conn.isConnected = false := by
      cases hopen : conn.isConnected with
      | false => rfl
      | true => exact absurd (hopen.trans (hmono hopen).symm) hconn
    rw [abs_put, abs_setConn, hclosed, hpc]
    exact .commandFails c [c] ht (List.mem_singleton_self c)

end Abs

/-! ## Runs of the pool -/

section Simulation

variable {limit : ℕ} {s s' : State ι} {i : ι}

/-- Every step is one of the pool, or none at all for it. -/
theorem Step.simulates (h : Step limit s i s') :
    s'.abs = s.abs ∨ PoolThreads.Step s.abs i s'.abs := by
  have hthread {pc : PC} (ht : s.threads i = pc) : s.abs.threads i = pc.thread :=
    congrArg PC.thread ht
  cases h with
  | call cmd ht =>
    left
    exact abs_put_of_eq (by rw [ht]; rfl)
  | getNowait cmd c queue ht hq =>
    right
    rw [abs_put]
    exact .getNowait c queue [] (hthread ht) hq
  | queueEmpty cmd ht hq =>
    right
    rw [abs_put]
    exact .queueEmpty [] (hthread ht) hq
  | healthy cmd c ping reply conn ht hping hopen hcheck =>
    right
    rw [abs_put, abs_setConn_of_eq
      ((Connection.isConnected_of_checkHealth_true hcheck).trans hopen.symm)]
    exact .healthy c [] (hthread ht) hopen
  | closed cmd c ht hclosed =>
    right
    have hstep := stale_abs (s.conns c) (hthread ht) id
    rw [abs_setConn_of_eq rfl] at hstep
    rw [abs_put]
    exact hstep
  | unhealthy cmd c ping reply conn ht hping hopen hcheck =>
    right
    rw [abs_put]
    exact stale_abs conn (hthread ht) fun _ => hopen
  | discard cmd c ht =>
    right
    rw [abs_put, abs_setConn]
    exact .discard c [] (hthread ht)
  | uncount cmd ht =>
    right
    rw [abs_put]
    exact .uncount [] (hthread ht)
  | exhausted cmd ht hfull =>
    right
    rw [abs_finish]
    exact .exhausted [] (hthread ht) hfull
  | enter cmd ht hroom =>
    right
    rw [abs_put]
    exact .enter [] (hthread ht) hroom
  | connectFails cmd c dial e conn ht hconnect =>
    right
    rw [abs_finish, abs_setConn_of_eq (by rw [Connection.connect_error hconnect])]
    exact .connectFails c [] (hthread ht)
  | connected cmd c dial conn ht hconnect hpassword =>
    right
    rw [abs_put, abs_setConn, Connection.isConnected_of_connect hconnect]
    exact .connected c [] (hthread ht) (by rw [State.abs, hpassword]; rfl)
  | connectAuth cmd c dial conn password ht hconnect hpassword =>
    right
    rw [abs_put, abs_setConn, Connection.isConnected_of_connect hconnect]
    exact .connectAuth c [] (hthread ht) (by rw [State.abs, hpassword]; rfl)
  | authRaises cmd c password auth reply e conn ht hpassword hanswer hauth =>
    right
    have hopen : conn.isConnected = (conn.isConnected && s.abs.isOpen c) := by
      cases hconn : conn.isConnected with
      | false => rfl
      | true =>
        exact (Connection.isConnected_of_roundTrip (by rw [hauth]; exact hconn)).symm
    rw [abs_finish, abs_setConn, hopen]
    exact .authRaises c [] (hthread ht) conn.isConnected
  | authOk cmd c password auth reply res conn ht hpassword hanswer hauth hok =>
    right
    obtain ⟨hbefore, hafter⟩ := Connection.isConnected_of_roundTrip_ok hauth
    rw [abs_put, abs_setConn_of_eq (hafter.trans hbefore.symm)]
    exact .authOk c [] (hthread ht)
  | authRefused cmd c password auth reply res conn ht hpassword hanswer hauth hok =>
    right
    obtain ⟨hbefore, hafter⟩ := Connection.isConnected_of_roundTrip_ok hauth
    rw [abs_put, abs_setConn_of_eq (hafter.trans hbefore.symm)]
    exact .authRefused c [] (hthread ht)
  | reject cmd c res ht =>
    right
    rw [abs_put, abs_setConn]
    exact .reject c [] (hthread ht)
  | giveBack cmd res ht =>
    right
    rw [abs_finish]
    exact .giveBack [] (hthread ht)
  | send cmd c x conn ht hx hsend =>
    exact checkedOut_abs (hthread ht) rfl fun _ =>
      (Connection.isConnected_of_sendCommand_ok hsend).1
  | sendRaises cmd c x e conn ht hx hsend =>
    refine checkedOut_abs (hthread ht) rfl fun hconn => ?_
    exact Connection.isConnected_of_sendCommand (by rw [hsend]; exact hconn)
  | read cmd c v conn ht hread =>
    exact checkedOut_abs (hthread ht) rfl fun _ =>
      (Connection.isConnected_of_readResponse_ok hread).1
  | readRaises cmd c e conn ht hread =>
    refine checkedOut_abs (hthread ht) rfl fun hconn => ?_
    exact Connection.isConnected_of_readResponse (by rw [hread]; exact hconn)
  | fail cmd c e ht =>
    refine checkedOut_abs (hthread ht) rfl fun hconn => ?_
    split_ifs at hconn with he
    · cases hconn
    · exact hconn
  | releaseOpen cmd c out ht hopen =>
    right
    have hstep := PoolThreads.Step.releaseOpen c [c] (hthread ht) (List.mem_singleton_self c) hopen
    rw [List.erase_cons_head] at hstep
    rw [abs_put]
    exact hstep
  | releaseClosed cmd c out ht hclosed =>
    right
    have hstep := PoolThreads.Step.releaseClosed c [c] (hthread ht) (List.mem_singleton_self c)
      hclosed
    rw [List.erase_cons_head] at hstep
    rw [abs_put]
    exact hstep
  | putNowait cmd c out ht hroom =>
    right
    rw [abs_finish]
    exact .putNowait c [] (hthread ht) hroom
  | queueFull cmd c out ht hfull =>
    right
    rw [abs_put]
    exact .queueFull c [] (hthread ht) hfull
  | close cmd c out ht =>
    right
    rw [abs_put, abs_setConn]
    exact .close c [] (hthread ht)
  | countDown cmd out ht =>
    right
    rw [abs_finish]
    exact .countDown [] (hthread ht)

end Simulation

/-! ## Nothing is unread between commands -/

/-- A value that a command returns is the value of its own reply. -/
def Own (limit : ℕ) (d : Bool) (cmd : Command) (out : Outcome) : Prop :=
  ∀ v, out = .ok v → cmd.reply.decoded limit d = .ok v

/-- The connection that a thread is about to use has nothing unread, except that a command which
has been sent is answered with its own reply. -/
def PC.Fits (limit : ℕ) (d : Bool) (conns : ConnId → Connection) : PC → Prop
  | .checking _ c | .connecting _ c | .authenticating _ c | .sending _ c => (conns c).Clean d
  | .reading cmd c => ∃ (conn : Connection) (x : Exchange), conn.Clean d ∧ x.Answers cmd.reply ∧
      conn.sendCommand cmd.args x = (.ok (), conns c)
  | .failing _ c e => (conns c).decodeResponses = d ∧ e.isException = true
  | .releasing cmd c out | .putting cmd c out => (conns c).Clean d ∧ Own limit d cmd out
  | .closing cmd _ out | .countingDown cmd out => Own limit d cmd out
  | _ => True

/-- No connection is in two hands, idle connections and those that are still to be made have
nothing unread, and every command that has returned a value has returned its own. -/
structure Inv [Fintype ι] (limit : ℕ) (d : Bool) (s : State ι) : Prop where
  pool : PoolThreads.Inv s.abs
  queue : ∀ c ∈ s.queue, (s.conns c).Clean d
  fresh : ∀ c, s.next ≤ c → (s.conns c).Clean d
  threads : ∀ i, (s.threads i).Fits limit d s.conns
  returned : ∀ entry ∈ s.returned, Own limit d entry.2.1 entry.2.2

/-- What a step of thread `i` does: the thread goes on, connections are used that it has in hand,
and what becomes idle has nothing unread. -/
structure Effect (limit : ℕ) (d : Bool) (s : State ι) (i : ι) (s' : State ι) (pc : PC) : Prop where
  threads : s'.threads = Function.update s.threads i pc
  conns : ∀ c, c ∉ (s.threads i).thread.owned → s'.conns c = s.conns c
  next : s.next ≤ s'.next
  queue : ∀ c ∈ s'.queue, c ∈ s.queue ∨ (s'.conns c).Clean d
  fits : pc.Fits limit d s'.conns
  returned : ∀ entry ∈ s'.returned, entry ∈ s.returned ∨ Own limit d entry.2.1 entry.2.2

/-- What a thread relies on is about connections that it has in hand. -/
lemma PC.Fits.congr {limit : ℕ} {d : Bool} {conns conns' : ConnId → Connection} {pc : PC}
    (h : pc.Fits limit d conns) (hsame : ∀ c ∈ pc.thread.owned, conns' c = conns c) :
    pc.Fits limit d conns' := by
  cases pc with
  | idle | acquiring cmd | uncounting cmd | entering cmd | givingBack cmd res
  | discarding cmd c | rejecting cmd c res => trivial
  | closing cmd c out | countingDown cmd out => exact h
  | checking cmd c | connecting cmd c | authenticating cmd c | sending cmd c | reading cmd c
  | failing cmd c e | releasing cmd c out | putting cmd c out =>
    have hc : conns' c = conns c := hsame c (PC.mem_owned_of_inHand rfl)
    simpa only [PC.Fits, hc] using h

section Steps

variable {limit : ℕ} {d : Bool} {s s' : State ι} {i : ι} {pc : PC}

omit [DecidableEq ι] in
lemma own_error (limit : ℕ) (d : Bool) (cmd : Command) (e : Exc) :
    Own limit d cmd (.error e) := by
  rintro v ⟨⟩

/-- A call that returns with its own value, or raises. -/
lemma returned_finish {cmd : Command} {out : Outcome} (hown : Own limit d cmd out) :
    ∀ entry ∈ (s.finish i cmd out).returned,
      entry ∈ s.returned ∨ Own limit d entry.2.1 entry.2.2 := by
  intro entry hentry
  rcases List.mem_append.mp hentry with hold | hnew
  · exact .inl hold
  · obtain rfl := List.mem_singleton.mp hnew
    exact .inr hown

/-- A step that leaves the connections as they are. -/
lemma Effect.of_same (hthreads : s'.threads = Function.update s.threads i pc)
    (hconns : s'.conns = s.conns) (hnext : s.next ≤ s'.next)
    (hqueue : ∀ c ∈ s'.queue, c ∈ s.queue ∨ (s.conns c).Clean d) (hfits : pc.Fits limit d s.conns)
    (hreturned : ∀ entry ∈ s'.returned, entry ∈ s.returned ∨ Own limit d entry.2.1 entry.2.2) :
    Effect limit d s i s' pc where
  threads := hthreads
  conns c _ := by rw [hconns]
  next := hnext
  queue := by rwa [hconns]
  fits := by rwa [hconns]
  returned := hreturned

/-- A step that uses a connection which the thread has in hand. -/
lemma Effect.of_setConn {c : ConnId} {conn : Connection} (hc : c ∈ (s.threads i).thread.owned)
    (hthreads : s'.threads = Function.update s.threads i pc)
    (hconns : s'.conns = Function.update s.conns c conn) (hnext : s'.next = s.next)
    (hqueue : s'.queue = s.queue) (hfits : pc.Fits limit d (Function.update s.conns c conn))
    (hreturned : ∀ entry ∈ s'.returned, entry ∈ s.returned ∨ Own limit d entry.2.1 entry.2.2) :
    Effect limit d s i s' pc where
  threads := hthreads
  conns c' hc' := by
    have hne : c' ≠ c := fun h => hc' (h ▸ hc)
    rw [hconns, Function.update_of_ne hne]
  next := hnext.ge
  queue c' hc' := .inl (hqueue ▸ hc')
  fits := by rwa [hconns]
  returned := hreturned

/-- What a step does, if nothing is unread between commands. -/
theorem Step.effect [Fintype ι] (hs : Inv limit d s) (h : Step limit s i s') :
    ∃ pc, Effect limit d s i s' pc := by
  have howned {pc : PC} {c : ConnId} (ht : s.threads i = pc) (hc : pc.inHand = some c) :
      c ∈ (s.threads i).thread.owned := ht ▸ PC.mem_owned_of_inHand hc
  have hfits {pc : PC} (ht : s.threads i = pc) : pc.Fits limit d s.conns := ht ▸ hs.threads i
  have hkept : ∀ entry ∈ s.returned, entry ∈ s.returned ∨ Own limit d entry.2.1 entry.2.2 :=
    fun entry hentry => .inl hentry
  have hqueue : ∀ c ∈ s.queue, c ∈ s.queue ∨ (s.conns c).Clean d := fun c hc => .inl hc
  cases h with
  | call cmd ht => exact ⟨_, .of_same rfl rfl le_rfl hqueue trivial hkept⟩
  | getNowait cmd c queue ht hq =>
    have hmem (c' : ConnId) (hc' : c' ∈ queue) : c' ∈ s.queue := hq ▸ List.mem_cons_of_mem c hc'
    have hclean : (s.conns c).Clean d := hs.queue c (hq ▸ List.mem_cons_self)
    exact ⟨_, .of_same rfl rfl le_rfl (fun c' hc' => .inl (hmem c' hc')) hclean hkept⟩
  | queueEmpty cmd ht hq => exact ⟨_, .of_same rfl rfl le_rfl hqueue trivial hkept⟩
  | healthy cmd c ping reply conn ht hping hopen hcheck =>
    have hclean : conn.Clean d := Connection.Clean.checkHealth (hfits ht) hping hcheck
    refine ⟨_, .of_setConn (howned ht rfl) rfl rfl rfl rfl ?_ hkept⟩
    simpa [PC.Fits] using hclean
  | closed cmd c ht hclosed => exact ⟨_, .of_same rfl rfl le_rfl hqueue trivial hkept⟩
  | unhealthy cmd c ping reply conn ht hping hopen hcheck =>
    exact ⟨_, .of_setConn (howned ht rfl) rfl rfl rfl rfl trivial hkept⟩
  | discard cmd c ht =>
    exact ⟨_, .of_setConn (howned ht rfl) rfl rfl rfl rfl trivial hkept⟩
  | uncount cmd ht => exact ⟨_, .of_same rfl rfl le_rfl hqueue trivial hkept⟩
  | exhausted cmd ht hfull =>
    exact ⟨_, .of_same rfl rfl le_rfl hqueue trivial (returned_finish (own_error _ _ _ _))⟩
  | enter cmd ht hroom =>
    exact ⟨_, .of_same rfl rfl (Nat.le_succ _) hqueue (hs.fresh s.next le_rfl) hkept⟩
  | connectFails cmd c dial e conn ht hconnect =>
    exact ⟨_, .of_setConn (howned ht rfl) rfl rfl rfl rfl trivial
      (returned_finish (own_error _ _ _ _))⟩
  | connected cmd c dial conn ht hconnect hpassword =>
    have hclean : conn.Clean d := Connection.Clean.connect (hfits ht) hconnect
    refine ⟨_, .of_setConn (howned ht rfl) rfl rfl rfl rfl ?_ hkept⟩
    simpa [PC.Fits] using hclean
  | connectAuth cmd c dial conn password ht hconnect hpassword =>
    have hclean : conn.Clean d := Connection.Clean.connect (hfits ht) hconnect
    refine ⟨_, .of_setConn (howned ht rfl) rfl rfl rfl rfl ?_ hkept⟩
    simpa [PC.Fits] using hclean
  | authRaises cmd c password auth reply e conn ht hpassword hanswer hauth =>
    exact ⟨_, .of_setConn (howned ht rfl) rfl rfl rfl rfl trivial
      (returned_finish (own_error _ _ _ _))⟩
  | authOk cmd c password auth reply res conn ht hpassword hanswer hauth hok =>
    have hclean : conn.Clean d := (Connection.Clean.roundTrip_ok (hfits ht) hanswer hauth).1
    refine ⟨_, .of_setConn (howned ht rfl) rfl rfl rfl rfl ?_ hkept⟩
    simpa [PC.Fits] using hclean
  | authRefused cmd c password auth reply res conn ht hpassword hanswer hauth hok =>
    exact ⟨_, .of_setConn (howned ht rfl) rfl rfl rfl rfl trivial hkept⟩
  | reject cmd c res ht =>
    exact ⟨_, .of_setConn (howned ht rfl) rfl rfl rfl rfl trivial hkept⟩
  | giveBack cmd res ht =>
    exact ⟨_, .of_same rfl rfl le_rfl hqueue trivial (returned_finish (own_error _ _ _ _))⟩
  | send cmd c x conn ht hx hsend =>
    refine ⟨_, .of_setConn (howned ht rfl) rfl rfl rfl rfl ?_ hkept⟩
    exact ⟨s.conns c, x, hfits ht, hx, by rw [hsend, Function.update_self]⟩
  | sendRaises cmd c x e conn ht hx hsend =>
    have htrip : (s.conns c).roundTrip limit cmd.args x = (.error e, conn) := by
      rw [Connection.roundTrip, hsend]
    refine ⟨_, .of_setConn (howned ht rfl) rfl rfl rfl rfl ?_ hkept⟩
    simpa [PC.Fits] using Connection.Clean.roundTrip_error (hfits ht) hx htrip
  | read cmd c v conn ht hread =>
    obtain ⟨conn₀, x, hclean, hx, hsend⟩ := hfits ht
    have htrip : conn₀.roundTrip limit cmd.args x = (.ok v, conn) := by
      rw [Connection.roundTrip, hsend]
      exact hread
    obtain ⟨hconn, hown⟩ := hclean.roundTrip_ok hx htrip
    refine ⟨_, .of_setConn (howned ht rfl) rfl rfl rfl rfl ?_ hkept⟩
    refine ⟨by rwa [Function.update_self], ?_⟩
    rintro w ⟨⟩
    exact hown
  | readRaises cmd c e conn ht hread =>
    obtain ⟨conn₀, x, hclean, hx, hsend⟩ := hfits ht
    have htrip : conn₀.roundTrip limit cmd.args x = (.error e, conn) := by
      rw [Connection.roundTrip, hsend]
      exact hread
    refine ⟨_, .of_setConn (howned ht rfl) rfl rfl rfl rfl ?_ hkept⟩
    simpa [PC.Fits] using hclean.roundTrip_error hx htrip
  | fail cmd c e ht =>
    obtain ⟨hdecode, he⟩ := hfits ht
    refine ⟨_, .of_setConn (howned ht rfl) rfl rfl rfl rfl ?_ hkept⟩
    refine ⟨?_, own_error _ _ _ _⟩
    rw [Function.update_self, if_pos he]
    exact Connection.clean_disconnect hdecode
  | releaseOpen cmd c out ht hopen =>
    have hrelease := hfits ht
    exact ⟨_, .of_same rfl rfl le_rfl hqueue hrelease hkept⟩
  | releaseClosed cmd c out ht hclosed =>
    exact ⟨_, .of_same rfl rfl le_rfl hqueue (hfits ht).2 hkept⟩
  | putNowait cmd c out ht hroom =>
    obtain ⟨hclean, hown⟩ := hfits ht
    refine ⟨_, .of_same rfl rfl le_rfl ?_ trivial (returned_finish hown)⟩
    intro c' hc'
    rcases List.mem_append.mp hc' with hc' | hc'
    · exact .inl hc'
    · obtain rfl := List.mem_singleton.mp hc'
      exact .inr hclean
  | queueFull cmd c out ht hfull =>
    exact ⟨_, .of_same rfl rfl le_rfl hqueue (hfits ht).2 hkept⟩
  | close cmd c out ht =>
    exact ⟨_, .of_setConn (howned ht rfl) rfl rfl rfl rfl (hfits ht) hkept⟩
  | countDown cmd out ht =>
    exact ⟨_, .of_same rfl rfl le_rfl hqueue trivial (returned_finish (hfits ht))⟩

end Steps

/-! ## Whole runs -/

section Runs

variable [Fintype ι] {limit : ℕ} {d : Bool} {s s' : State ι} {i : ι}

/-- Every step preserves the invariant. -/
theorem Inv.step (hs : Inv limit d s) (h : Step limit s i s') : Inv limit d s' := by
  obtain ⟨pc, heff⟩ := h.effect hs
  have hpool : PoolThreads.Inv s'.abs := by
    rcases h.simulates with heq | hstep
    · rw [heq]
      exact hs.pool
    · exact hs.pool.step hstep
  have hold (c : ConnId) (hc : c ∈ (s.threads i).thread.owned) : c < s.next :=
    hs.pool.old c (Multiset.mem_of_le (PoolThreads.queue_add_owned_le s.abs i)
      (Multiset.mem_add.mpr (.inr hc)))
  refine ⟨hpool, ?_, ?_, ?_, ?_⟩
  · intro c hc
    rcases heff.queue c hc with hidle | hclean
    · have hnot : c ∉ (s.threads i).thread.owned := fun h => hs.pool.not_mem_queue h hidle
      rw [heff.conns c hnot]
      exact hs.queue c hidle
    · exact hclean
  · intro c hc
    have hnot : c ∉ (s.threads i).thread.owned := fun h =>
      absurd (hold c h) (heff.next.trans hc).not_gt
    rw [heff.conns c hnot]
    exact hs.fresh c (heff.next.trans hc)
  · intro j
    rw [heff.threads]
    by_cases hj : j = i
    · subst hj
      rw [Function.update_self]
      exact heff.fits
    · rw [Function.update_of_ne hj]
      refine (hs.threads j).congr fun c hc => heff.conns c ?_
      exact hs.pool.not_mem_of_ne hj hc
  · intro entry hentry
    exact (heff.returned entry hentry).elim (hs.returned entry) id

omit [DecidableEq ι] in
/-- The invariant holds before any step. -/
lemma inv_init (limit : ℕ) (host : String) (port maxConnections : ℕ) (d : Bool)
    (password : Option String) :
    Inv limit d (.init host port maxConnections d password : State ι) where
  pool := PoolThreads.inv_init maxConnections password.isSome
  queue c hc := by cases hc
  fresh c _ := ⟨by rintro s ⟨⟩, rfl⟩
  threads i := trivial
  returned entry hentry := by cases hentry

/-- The invariant holds in every reachable state. -/
theorem Reachable.inv {host : String} {port maxConnections : ℕ} {password : Option String}
    (h : Reachable limit host port maxConnections d password s) : Inv limit d s := by
  induction h with
  | refl => exact inv_init limit host port maxConnections d password
  | tail _ hstep ih =>
    obtain ⟨j, hj⟩ := hstep
    exact ih.step hj

omit [Fintype ι] in
/-- The limit stays what it was. -/
lemma Reachable.maxConnections_eq {host : String} {port maxConnections : ℕ}
    {password : Option String} (h : Reachable limit host port maxConnections d password s) :
    s.maxConnections = maxConnections := by
  induction h with
  | refl => rfl
  | tail _ hstep ih =>
    obtain ⟨j, hj⟩ := hstep
    rw [← ih]
    cases hj <;> rfl

/-- **The client under threads.**  In every state that any interleaving of any number of threads
reaches, whatever fails on the way: a command that has returned a value has returned the value of
its own reply; no connection is in the hands of two threads, or in a hand and idle; and the pool
counts at most as many connections as it may. -/
theorem reachable_matches (limit : ℕ) (host : String) (port maxConnections : ℕ) (d : Bool)
    (password : Option String) (s : State ι)
    (h : Reachable limit host port maxConnections d password s) :
    (∀ i cmd v, (i, cmd, .ok v) ∈ s.returned → cmd.reply.decoded limit d = .ok v) ∧
    (∀ i j c, i ≠ j → (s.threads i).inHand = some c → (s.threads j).inHand ≠ some c) ∧
    (∀ i c, (s.threads i).inHand = some c → c ∉ s.queue) ∧
    s.activeCount ≤ maxConnections := by
  have hinv := h.inv
  refine ⟨?_, ?_, ?_, ?_⟩
  · intro i cmd v hentry
    exact hinv.returned _ hentry v rfl
  · intro i j c hij hi hj
    exact hinv.pool.not_mem_of_ne hij (PC.mem_owned_of_inHand hi) (PC.mem_owned_of_inHand hj)
  · intro i c hi
    exact hinv.pool.not_mem_queue (PC.mem_owned_of_inHand hi)
  · rw [← h.maxConnections_eq]
    exact hinv.pool.limit

end Runs

/-- The answer `_` to a command, in two pieces. -/
def nullAnswer : Exchange :=
  ⟨.ok (), [.chunk ⟨[95, 13], by decide⟩, .chunk ⟨[10], by decide⟩]⟩

lemma nullAnswer_answers : nullAnswer.Answers .null :=
  ⟨by decide, by simp [nullAnswer], by simp [nullAnswer]⟩

/-- A thread reads its reply while the command of another one is under way. -/
theorem reachable_matches_two :
    ∃ s : State (Fin 2), Reachable 1 "127.0.0.1" 6379 2 false none s ∧
      (s.threads 1).inHand = some 1 ∧ Reply.null.decoded 1 false = .ok .none := by
  let cmd : Command := ⟨[.str "GET", .str "a"], .null⟩
  have h₀ : Reachable 1 "127.0.0.1" 6379 2 false none
    (.init "127.0.0.1" 6379 2 false none : State (Fin 2)) := .refl
  have h₁ := h₀.tail ⟨0, .call cmd rfl⟩
  have h₂ := h₁.tail ⟨1, .call cmd rfl⟩
  have h₃ := h₂.tail ⟨0, .queueEmpty cmd rfl rfl⟩
  have h₄ := h₃.tail ⟨1, .queueEmpty cmd rfl rfl⟩
  have h₅ := h₄.tail ⟨0, .enter cmd rfl (by decide)⟩
  have h₆ := h₅.tail ⟨1, .enter cmd rfl (by decide)⟩
  have h₇ := h₆.tail ⟨0, .connected cmd 0 (.ok ()) _ rfl rfl rfl⟩
  have h₈ := h₇.tail ⟨1, .connected cmd 1 (.ok ()) _ rfl rfl rfl⟩
  have h₉ := h₈.tail ⟨0, .send cmd 0 nullAnswer _ rfl nullAnswer_answers rfl⟩
  have h₁₀ := h₉.tail ⟨1, .send cmd 1 nullAnswer _ rfl nullAnswer_answers rfl⟩
  have h₁₁ := h₁₀.tail ⟨0, .read cmd 0 .none _ rfl rfl⟩
  have h₁₂ := h₁₁.tail ⟨0, .releaseOpen cmd 0 (.ok .none) rfl rfl⟩
  have h₁₃ := h₁₂.tail
    ⟨0, .putNowait cmd 0 (.ok .none) rfl fun h => absurd h.2 (show ¬ 2 ≤ 0 by decide)⟩
  exact ⟨_, h₁₃, rfl, (reachable_matches 1 "127.0.0.1" 6379 2 false none _ h₁₃).1 0 cmd .none
    (List.mem_singleton_self _)⟩

end ClientThreads

end KacheDB
