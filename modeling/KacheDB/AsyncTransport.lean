import KacheDB.AsyncClient
import KacheDB.Transport

/-!
# The asynchronous client and a server, byte by byte

`AsyncKacheClient` has one stream from `connect` to `close`, and its pipelines write to this stream
too.  Nothing is checked when an idle stream is taken from the pool, and an error closes nothing.
So the client depends on every call leaving the stream as it found it.

`AsyncRemote` puts a `Service` behind the wire of such a client, as `Remote` does for the
synchronous one.  `Service.Keeps` says which calls leave nothing unread: commands with clean answers
and pipelines in which only the last answer may be an error.  `AsyncRemote.run_sessions_eq` says
that programs of such calls, session after session, cannot tell the wire from the service; so the
two clients do the same (`AsyncRemote.session_eq_sync`).
-/

namespace KacheDB

open Foundation

/-! ## What a session asks of a service -/

namespace Service

variable {σ : Type} (srv : Service σ)

/-- The service answers the calls of a session itself, of which so many pipelines have been made.
Pipelines do not decode. -/
def handleSession (limit : ℕ) (d : Bool) : Handler ClientCall ClientCall.Answer Exc (σ × ℕ)
  | .execute args, (s, n) =>
    ((srv.answer (rawArgs args) s).1.decoded limit d, ((srv.answer (rawArgs args) s).2, n))
  | .pipeline, (s, n) => (.ok n, (s, n + 1))
  | .executePipeline i commands, (s, n) =>
    if i < n then
      (Reply.values limit false (srv.answerAll (commands.map rawArgs) s).1,
        ((srv.answerAll (commands.map rawArgs) s).2, n))
    else (.error .indexError, (s, n))

/-- The answers to a call leave nothing unread on the stream. -/
def Keeps (limit : ℕ) : ClientCall → Prop
  | .execute args => ∀ s, (srv.answer (rawArgs args) s).1.Clean limit
  | .pipeline => True
  | .executePipeline _ commands =>
    ∀ s, Reply.OnlyLastFails limit false (srv.answerAll (commands.map rawArgs) s).1

/-- What the network does while a stream is opened. -/
def asyncAcquire (path : Path) (password : Option String) (s : σ) : AsyncAcquire where
  tls := .ok ()
  dial := .ok ()
  auth := password.elim ⟨.ok (), []⟩ fun password =>
    (srv.exchange path (encodeCommand [.str "AUTH", .str password]) s).1

end Service

/-! ## A client with a server behind the wire -/

/-- An asynchronous client, the commands queued on the pipelines of the session, which share its
stream, the server that it talks to, and the number of calls so far. -/
structure AsyncRemote (σ : Type) where
  client : AsyncKacheClient
  pipes : List (List (List Arg))
  server : σ
  clock : ℕ

namespace AsyncRemote

variable {σ : Type}

/-- A new client in front of a server. -/
def new (client : AsyncKacheClient) (server : σ) : AsyncRemote σ :=
  ⟨client, [], server, 0⟩

/-- The client answers the calls, with the server behind the wire. -/
def handle (limit : ℕ) (srv : Service σ) (paths : ℕ → Path) :
    Handler ClientCall ClientCall.Answer Exc (AsyncRemote σ)
  | .execute args, s =>
    let (x, server) := srv.exchange (paths s.clock) (encodeCommand args) s.server
    let (res, client) := s.client.execute limit args x
    let server := if s.client.stream.isSome then server else s.server
    (res, ⟨client, s.pipes, server, s.clock + 1⟩)
  | .pipeline, s =>
    match s.client.stream with
    | none => (.error (.connectionError "Not connected to KacheDB"), s)
    | some _ => (.ok s.pipes.length, { s with pipes := s.pipes ++ [[]] })
  | .executePipeline i commands, s =>
    match s.client.stream, s.pipes[i]? with
    | some stream, some queued =>
      let pipe : AsyncPipeline := ⟨stream, queued ++ commands⟩
      let (x, server) := srv.exchange (paths s.clock) (encodeCommands pipe.commands) s.server
      let (res, pipe') := pipe.execute limit x
      (res, ⟨{ s.client with stream := some pipe'.stream }, s.pipes.set i pipe'.commands, server,
        s.clock + 1⟩)
    | _, _ => (.error .indexError, s)

/-- A program in `async with`: the client is connected, and is closed behind the program whatever
its outcome. -/
def session {α : Type} (limit : ℕ) (srv : Service σ) (paths : ℕ → Path) (m : ClientScript α)
    (s : AsyncRemote σ) : Except Exc α × AsyncRemote σ :=
  let env := srv.asyncAcquire (paths s.clock) s.client.pool.password s.server
  match s.client.connect limit env with
  | (.error e, client) => (.error e, ⟨client, [], s.server, s.clock + 1⟩)
  | (.ok (), client) =>
    let out := m.run (handle limit srv paths) ⟨client, [], s.server, s.clock + 1⟩
    (out.1, { out.2 with client := out.2.client.close })

/-- Sessions one after the other. -/
def sessions {α : Type} (limit : ℕ) (srv : Service σ) (paths : ℕ → Path) :
    List (ClientScript α) → AsyncRemote σ → List (Except Exc α) × AsyncRemote σ
  | [], s => ([], s)
  | m :: rest, s =>
    let out := session limit srv paths m s
    let outs := sessions limit srv paths rest out.2
    (out.1 :: outs.1, outs.2)

/-- Sessions of a client in front of a server: their outcomes, and the server behind them. -/
def runOn {α : Type} (limit : ℕ) (srv : Service σ) (paths : ℕ → Path) (client : AsyncKacheClient)
    (s : σ) (ms : List (ClientScript α)) : List (Except Exc α) × σ :=
  let out := sessions limit srv paths ms (new client s)
  (out.1, out.2.server)

end AsyncRemote

/-! ## A pipeline on the stream -/

namespace AsyncPipeline

variable {p : AsyncPipeline} {x : Exchange} {frames : List Reply}

/-- A pipeline gives the values of its replies. -/
lemma execute_values (limit : ℕ) (hp : p.stream.Holds [])
    (hlen : frames.length = p.commands.length) (hx : x.Delivers frames) :
    (p.execute limit x).1 = Reply.values limit false frames := by
  cases hcommands : p.commands with
  | nil =>
    obtain rfl : frames = [] := List.length_eq_zero_iff.mp (by rw [hlen, hcommands]; rfl)
    simp only [execute, hcommands, List.isEmpty_nil, if_true]
    rfl
  | cons args rest =>
    have hempty : p.commands.isEmpty = false := by rw [hcommands, List.isEmpty_cons]
    obtain ⟨stream, hwrite, hstream⟩ := hp.writeDrain (encodeCommands p.commands) hx
    simp only [execute, hempty, hwrite, ← hlen]
    have hread : ∀ (s : AsyncStream) (r : Reply) rest, s.Holds (r.encode ++ rest) →
        (s.readResponse limit).1 = r.decoded limit false ∧
          (s.readResponse limit).2.Holds (r.leftover limit ++ rest) :=
      fun _ r _ hs => r.decoded_false limit ▸ hs.readResponse limit
    exact collect_values hread frames hstream

/-- A pipeline in which only the last reply fails leaves nothing unread. -/
lemma execute_settled (limit : ℕ) (hp : p.stream.Holds [])
    (hlen : frames.length = p.commands.length) (hx : x.Delivers frames)
    (hlast : Reply.OnlyLastFails limit false frames) :
    (p.execute limit x).2.stream.Holds [] := by
  by_cases hne : p.commands = []
  · simpa only [execute, hne, List.isEmpty_nil, if_true] using hp
  · have hframes : frames ≠ [] := by
      rintro rfl
      exact hne (List.length_eq_zero_iff.mp hlen.symm)
    rw [← (Reply.unreadFrames_eq_nil_iff hframes).mpr hlast]
    exact execute_holds limit hp hlen hne hx

/-- Behind its execution a pipeline has no commands. -/
lemma commands_execute (limit : ℕ) (p : AsyncPipeline) (x : Exchange) :
    (p.execute limit x).2.commands = [] := by
  unfold execute
  split_ifs with hempty
  · exact List.isEmpty_iff.mp hempty
  · dsimp only
    split <;> rfl

end AsyncPipeline

/-! ## One session -/

namespace AsyncRemote

variable {σ : Type} {srv : Service σ} {limit : ℕ} {d : Bool} {password : Option String}

/-- The client is connected, nothing is unread and nothing is queued, and the server is in this
state.  All its connections are this one. -/
structure Matches (d : Bool) (password : Option String) (s : AsyncRemote σ) (t : σ × ℕ) :
    Prop where
  stream : ∃ stream, s.client.stream = some stream ∧ stream.Holds []
  decodes : s.client.decodeResponses = d
  password_eq : s.client.pool.password = password
  room : 1 ≤ s.client.pool.maxConnections
  idle : s.client.pool.pool = []
  count : s.client.pool.activeCount = 1
  pipes_eq : s.pipes = List.replicate t.2 []
  server_eq : s.server = t.1

/-- **Every call that keeps the stream has the outcome that the service gives it.** -/
theorem simulates (limit : ℕ) (d : Bool) (password : Option String) (paths : ℕ → Path) :
    Handler.Simulates (srv.Keeps limit) (Matches d password)
      (handle limit srv paths) (srv.handleSession limit d) := by
  rintro call ⟨client, pipes, server, clock⟩ ⟨t, n⟩ hcall hs
  obtain ⟨stream, hstream, hholds⟩ : ∃ stream, client.stream = some stream ∧ stream.Holds [] :=
    hs.stream
  obtain rfl : server = t := hs.server_eq
  obtain rfl : pipes = List.replicate n [] := hs.pipes_eq
  cases call with
  | execute args =>
    obtain ⟨hx, hnext⟩ := srv.exchange_encodeCommand (paths clock) args server
    obtain ⟨hres, hleft⟩ := hholds.roundTrip_own limit args hx
    have hclean : (srv.answer (rawArgs args) server).1.leftover limit = [] := hcall server
    rw [hclean] at hleft
    simp only [handle, Service.handleSession, AsyncKacheClient.execute_of_some hstream, hstream,
      Option.isSome_some, if_true, hres]
    refine ⟨?_, ⟨_, rfl, hleft⟩, hs.decodes, hs.password_eq, hs.room, hs.idle, hs.count, rfl, hnext⟩
    rw [show client.decodeResponses = d from hs.decodes]
    rfl
  | pipeline =>
    simp only [handle, Service.handleSession, hstream, List.length_replicate]
    exact ⟨trivial, ⟨stream, hstream, hholds⟩, hs.decodes, hs.password_eq, hs.room, hs.idle,
      hs.count, (List.replicate_succ' ..).symm, rfl⟩
  | executePipeline i commands =>
    by_cases hi : i < n
    · have hpipe : (List.replicate n ([] : List (List Arg)))[i]? = some [] :=
        List.getElem?_replicate_of_lt hi
      obtain ⟨hx, hnext⟩ := srv.exchange_encodeCommands (paths clock) commands server
      have hlen := srv.length_answerAll (commands.map rawArgs) server
      rw [List.length_map] at hlen
      have hvalues := AsyncPipeline.execute_values (p := ⟨stream, commands⟩) limit hholds hlen hx
      have hsettled := AsyncPipeline.execute_settled (p := ⟨stream, commands⟩) limit hholds hlen hx
        (hcall server)
      simp only [handle, Service.handleSession, hstream, hpipe, List.nil_append, hi, if_true]
      refine ⟨hvalues, ⟨_, rfl, hsettled⟩, hs.decodes, hs.password_eq, hs.room, hs.idle, hs.count,
        ?_, hnext⟩
      simp only [AsyncPipeline.commands_execute, List.set_replicate_self]
    · have hpipe : (List.replicate n ([] : List (List Arg)))[i]? = none :=
        List.getElem?_eq_none_iff.mpr (by rw [List.length_replicate]; exact not_lt.mp hi)
      simp only [handle, Service.handleSession, hstream, hpipe, hi, if_false]
      exact ⟨trivial, hs⟩

/-! ## Sessions -/

/-- One stream is idle in the pool, the only one that was opened, and has nothing unread. -/
def Pooled (s : AsyncRemote σ) : Prop :=
  ∃ stream, s.client.pool.pool = [stream] ∧ stream.Holds [] ∧ s.client.pool.activeCount = 1

/-- The client is between two sessions, with at most one stream, which is idle and has nothing
unread, and the server is in this state. -/
structure Ready (d : Bool) (password : Option String) (s : AsyncRemote σ) (t : σ) : Prop where
  stream : s.client.stream = none
  decodes : s.client.decodeResponses = d
  password_eq : s.client.pool.password = password
  room : 1 ≤ s.client.pool.maxConnections
  idle : (s.client.pool.pool = [] ∧ s.client.pool.activeCount = 0) ∨ s.Pooled
  server_eq : s.server = t

/-- A stream that is opened while the server accepts the password owes nothing. -/
lemma createConnection_asyncAcquire (hup : srv.Up password) (limit : ℕ) (path : Path) (s : σ)
    {p : AsyncConnectionPool} (hpassword : p.password = password)
    (hroom : p.activeCount < p.maxConnections) :
    ∃ stream, p.createConnection (limit + 1) (srv.asyncAcquire path password s) =
      (.ok stream, p.counting) ∧ stream.Holds [] := by
  have hopened : AsyncStream.opened.Holds [] := ⟨rfl, Socket.holds_opened⟩
  have htls : p.tlsContext (srv.asyncAcquire path password s) = .ok () := by
    unfold AsyncConnectionPool.tlsContext
    split_ifs <;> rfl
  have hdial : (srv.asyncAcquire path password s).dial = .ok () := rfl
  unfold AsyncConnectionPool.createConnection
  rw [if_neg (not_le.mpr hroom), htls]
  simp only [hdial]
  cases hp : p.password with
  | none => exact ⟨.opened, rfl, hopened⟩
  | some text =>
    obtain rfl : some text = password := hp.symm.trans hpassword
    obtain ⟨hx, -⟩ := srv.exchange_encodeCommand path [.str "AUTH", .str text] s
    rw [hup.auth text rfl] at hx
    obtain ⟨hres, hleft⟩ := hopened.roundTrip_own (limit + 1) [.str "AUTH", .str text] hx
    have hauth : (srv.asyncAcquire path (some text) s).auth =
        (srv.exchange path (encodeCommand [.str "AUTH", .str text]) s).1 := rfl
    rw [hauth]
    dsimp only
    rcases hrt : AsyncStream.opened.roundTrip (limit + 1) [.str "AUTH", .str text]
      (srv.exchange path (encodeCommand [.str "AUTH", .str text]) s).1 with ⟨res, stream⟩
    rw [hrt] at hres hleft
    obtain rfl : res = .ok (.str "OK") := hres
    exact ⟨stream, rfl, hleft⟩

/-- `connect` takes the idle stream or opens one. -/
lemma Ready.connect (hup : srv.Up password) (limit : ℕ) (path : Path) {s : AsyncRemote σ} {t : σ}
    (hs : s.Ready d password t) :
    ∃ client, s.client.connect (limit + 1) (srv.asyncAcquire path password t) =
        (.ok (), client) ∧
      Matches d password ⟨client, [], t, s.clock + 1⟩ (t, 0) := by
  rcases hs.idle with ⟨hpool, hcount⟩ | ⟨stream, hpool, hholds, hcount⟩
  · have hroom : s.client.pool.activeCount < s.client.pool.maxConnections := by
      have h := hs.room
      omega
    obtain ⟨stream, hcreate, hholds⟩ :=
      createConnection_asyncAcquire hup limit path t hs.password_eq hroom
    simp only [AsyncKacheClient.connect, AsyncConnectionPool.getConnection, hpool, hcreate]
    refine ⟨_, rfl, ⟨stream, rfl, hholds⟩, hs.decodes, hs.password_eq, hs.room, hpool, ?_, rfl, rfl⟩
    simp only [AsyncConnectionPool.counting, hcount, zero_add]
  · simp only [AsyncKacheClient.connect, AsyncConnectionPool.getConnection, hpool, hholds.1,
      Bool.false_eq_true, if_false]
    exact ⟨_, rfl, ⟨stream, rfl, hholds⟩, hs.decodes, hs.password_eq, hs.room, rfl, hcount, rfl,
      rfl⟩

/-- `close` puts the stream back, which owes nothing. -/
lemma Matches.close {s : AsyncRemote σ} {t : σ × ℕ} (hs : s.Matches d password t) :
    ({ s with client := s.client.close } : AsyncRemote σ).Ready d password t.1 ∧
      ({ s with client := s.client.close } : AsyncRemote σ).Pooled := by
  obtain ⟨stream, hstream, hholds⟩ := hs.stream
  have hfull : s.client.pool.isFull = false := by
    have h := hs.room
    rw [AsyncConnectionPool.isFull, hs.idle, decide_eq_false_iff_not]
    simp only [List.length_nil]
    omega
  have hrelease : s.client.pool.releaseConnection stream =
      { s.client.pool with pool := [stream] } := by
    rw [AsyncConnectionPool.releaseConnection, hholds.1, hfull, hs.idle]
    rfl
  simp only [AsyncKacheClient.close, hstream, hrelease]
  have hpooled : ∃ stream', [stream] = [stream'] ∧ stream'.Holds [] ∧
      s.client.pool.activeCount = 1 := ⟨stream, rfl, hholds, hs.count⟩
  exact ⟨⟨rfl, hs.decodes, hs.password_eq, hs.room, .inr hpooled, hs.server_eq⟩, hpooled⟩

/-- What a session of calls that keep the stream comes to. -/
lemma Ready.session {α : Type} (hup : srv.Up password) (limit : ℕ) (paths : ℕ → Path)
    {s : AsyncRemote σ} {t : σ} (hs : s.Ready d password t) {m : ClientScript α}
    (hm : m.Calls (srv.Keeps (limit + 1))) :
    (session (limit + 1) srv paths m s).1 =
        (m.run (srv.handleSession (limit + 1) d) (t, 0)).1 ∧
      (session (limit + 1) srv paths m s).2.Ready d password
        (m.run (srv.handleSession (limit + 1) d) (t, 0)).2.1 ∧
      (session (limit + 1) srv paths m s).2.Pooled := by
  obtain ⟨client, hconnect, hmatches⟩ := hs.connect hup limit (paths s.clock)
  obtain ⟨hres, hnext⟩ := (simulates (limit + 1) d password paths).run hm hmatches
  simp only [AsyncRemote.session, hs.password_eq, hs.server_eq, hconnect]
  exact ⟨hres, hnext.close⟩

/-- The counter answers a command with a number or an error, which leaves nothing behind. -/
lemma clean_counter (args : List Bytes) (n : ℤ) :
    (Remote.counter.answer args n).1.Clean (limit + 1) := by
  simp only [Remote.counter]
  split_ifs
  · exact Reply.clean_of_isValue ⟨.str "PONG", rfl⟩
  · exact Reply.clean_of_isValue ⟨.str "OK", rfl⟩
  · exact Reply.clean_of_isValue ⟨.int (n + 1), rfl⟩
  · rfl

/-- Any command keeps the stream. -/
lemma keeps_counter (call : ClientCall) (hcall : call.IsExecute) :
    Remote.counter.Keeps (limit + 1) call := by
  cases call with
  | execute args => exact fun n => clean_counter _ n
  | pipeline => exact hcall.elim
  | executePipeline i commands => exact hcall.elim

/-- For programs that execute commands, the service answers a session as it answers any client. -/
lemma handleSession_simulates (srv : Service σ) (limit : ℕ) (d : Bool) :
    Handler.Simulates ClientCall.IsExecute (fun (s : σ × ℕ) t => s.1 = t)
      (srv.handleSession limit d) (srv.handle limit d) := by
  rintro call ⟨s, n⟩ t hcall rfl
  cases call with
  | execute args => exact ⟨rfl, rfl⟩
  | pipeline => exact hcall.elim
  | executePipeline i commands => exact hcall.elim

/-- **The two clients do the same.**  A program that executes commands with clean answers has the
same outcome in a session of the asynchronous client and on the synchronous one, which takes a
connection from its pool for each command, and leaves the server in the same state. -/
theorem session_eq_sync {α : Type} (hup : srv.Up password) (paths : ℕ → Path) (links : ℕ → Link)
    (limit : ℕ) (host : String) (port : ℕ) {maxConnections : ℕ} (hroom : 1 ≤ maxConnections)
    (d ssl : Bool) (m : ClientScript α)
    (hm : m.Calls fun call => call.IsExecute ∧ srv.Keeps (limit + 1) call) (s : σ) :
    runOn (limit + 1) srv paths (.new host port maxConnections d password ssl) s [m] =
      ([(Remote.runOn (limit + 1) srv links (.new host port maxConnections d password) s m).1],
        (Remote.runOn (limit + 1) srv links (.new host port maxConnections d password) s m).2) := by
  have hnew : (new (.new host port maxConnections d password ssl) s).Ready d password s :=
    ⟨rfl, rfl, rfl, hroom, .inl ⟨rfl, rfl⟩, rfl⟩
  have hexecute : m.Calls ClientCall.IsExecute := hm.mono fun _ h => h.1
  obtain ⟨hasync, hnext, -⟩ := hnew.session hup limit paths (hm.mono fun _ h => h.2)
  obtain ⟨hservice, hstate⟩ :
      (m.run (srv.handleSession (limit + 1) d) (s, 0)).1 = (m.run (srv.handle (limit + 1) d) s).1 ∧
        _ := (handleSession_simulates srv (limit + 1) d).run hexecute rfl
  obtain ⟨hsync, hnext'⟩ := (Remote.simulates hup limit d links).run hexecute
    (Remote.matches_new host port hroom d password s)
  simp only [runOn, sessions, Remote.runOn, hasync, hservice, hsync]
  refine Prod.ext rfl ?_
  exact hnext.server_eq.trans (hstate.trans hnext'.server_eq.symm)

/-- Two commands, the first of which is answered with an error. -/
theorem session_eq_sync_counter :
    runOn 2 Remote.counter (fun _ => ⟨Remote.bytewise, Remote.bytewise⟩)
        (.new "127.0.0.1" 6379 1 false (some "secret") false) 4
        [KacheClient.each [[.str "FOO"], [.str "INCR", .str "k"]]] =
      ([(Remote.runOn 2 Remote.counter Remote.bytewiseLinks
          (.new "127.0.0.1" 6379 1 false (some "secret")) 4
          (KacheClient.each [[.str "FOO"], [.str "INCR", .str "k"]])).1],
        (Remote.runOn 2 Remote.counter Remote.bytewiseLinks
          (.new "127.0.0.1" 6379 1 false (some "secret")) 4
          (KacheClient.each [[.str "FOO"], [.str "INCR", .str "k"]])).2) :=
  session_eq_sync (Remote.up_counter (some "secret"))
    (fun _ => ⟨Remote.bytewise, Remote.bytewise⟩) Remote.bytewiseLinks 1 "127.0.0.1" 6379 le_rfl
    false false _ ((KacheClient.calls_each _).mono fun call h => ⟨h, keeps_counter call h⟩) 4

end AsyncRemote

end KacheDB
