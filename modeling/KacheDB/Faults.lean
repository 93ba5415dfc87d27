import KacheDB.Transport

/-!
# The client and a server over a wire that fails

A transmission may be cut off in both directions: only the first bytes of a command arrive, or only
the first bytes of its answer come back, and the client sees a time-out, a broken connection or the
end of the stream.  What has not arrived may still do so later, when the client has given up the
connection and has sent other commands on other ones.

The client never sends a command twice.  `Faulty.run_lossy` says what a program sees of all this: it
runs as if every command were answered by the service, or executed without an answer, or delayed, or
not sent at all, and as if some of the delayed commands were executed before a later one.
-/

namespace KacheDB

open Foundation

/-! ## What a server reads of commands that are cut off -/

/-- A server reads the commands that have arrived in full. -/
lemma readCommands_cut (commands : List (List Arg)) {fuel : ℕ} {r : RespReader} {feed : Feed}
    {missing : Bytes} (hfuel : (r.unread feed).length ≤ fuel) (hok : respBuffer.Ok r)
    (hq : feed.Quiet) (hp : r.unread feed ++ missing = encodeCommands commands) :
    ∃ k, k ≤ commands.length ∧ readCommands fuel r feed = (commands.take k).map rawArgs ∧
      (k = commands.length ↔ missing = []) := by
  induction commands generalizing fuel r feed with
  | nil =>
    have hnil : r.unread feed = [] := (List.append_eq_nil_iff.mp hp).1
    refine ⟨0, le_rfl, ?_, iff_of_true rfl (List.append_eq_nil_iff.mp hp).2⟩
    cases fuel with
    | zero => rfl
    | succ fuel => rw [readCommands, if_pos hnil, List.take_nil, List.map_nil]
  | cons args rest ih =>
    rw [encodeCommands, List.flatMap_cons, ← encode_commandTree] at hp
    by_cases hnil : r.unread feed = []
    · refine ⟨0, Nat.zero_le _, ?_, iff_of_false (Nat.succ_ne_zero _).symm fun hmissing => ?_⟩
      · cases fuel with
        | zero => rfl
        | succ fuel => rw [readCommands, if_pos hnil, List.take_zero, List.map_nil]
      · rw [hnil, hmissing] at hp
        exact absurd (List.append_eq_nil_iff.mp hp.symm).1 (commandTree args).toReply.encode_ne_nil
    · obtain ⟨fuel, rfl⟩ : ∃ n, fuel = n + 1 :=
        Nat.exists_eq_add_of_le' ((List.length_pos_of_ne_nil hnil).trans_le hfuel)
      have hout := (commandTree args).outcome_toReply 2 (depth_commandTree_le args)
      have hclean : (commandTree args).toReply.leftover 2 = [] := Reply.clean_of_isValue ⟨_, hout⟩
      obtain ⟨hok', hcase⟩ :=
        @RespReader.readResponse_spec r feed 2 (commandTree args).toReply missing _ hok hp
      rw [readCommands, if_neg hnil]
      rcases hread : r.readResponse 2 feed with ⟨res, r', feed'⟩
      simp only [hread] at hok' hcase
      rcases hcase with ⟨hres, hleft, hsuffix⟩ | ⟨e, hres, hfails⟩
      · obtain rfl : res = .ok (commandTree args).value := hres.trans hout
        rw [hclean, List.nil_append] at hleft
        have hshorter : (r'.unread feed').length < (r.unread feed).length := by
          have hpos : 0 < (commandTree args).encode.length :=
            List.length_pos_of_ne_nil (commandTree args).toReply.encode_ne_nil
          have hlength := congrArg List.length hp
          have hlength' := congrArg List.length hleft
          rw [List.length_append, List.length_append] at hlength
          rw [List.length_append] at hlength'
          omega
        obtain ⟨k, hk, hcommands, hall⟩ := ih (Nat.le_of_lt_succ (hshorter.trans_le hfuel)) hok'
          (hq.of_suffix hsuffix) hleft
        refine ⟨k + 1, Nat.succ_le_succ hk, ?_, Nat.succ_inj.trans hall⟩
        simp only [value_commandTree, bulkArgs_commandValue, hcommands, List.take_succ_cons,
          List.map_cons]
      · obtain rfl : res = .error e := hres
        refine ⟨0, Nat.zero_le _, rfl, iff_of_false (Nat.succ_ne_zero _).symm fun hmissing => ?_⟩
        exact absurd hfails (by simp [StreamFails, hq e, hmissing])

/-- However the bytes of commands are cut, a server receives the commands that have arrived in
full. -/
lemma received_cut (commands : List (List Arg)) (chunks : List Chunk) (missing : Bytes)
    (hcut : chunks.flatMap Chunk.bytes ++ missing = encodeCommands commands) :
    ∃ k, k ≤ commands.length ∧ received chunks = (commands.take k).map rawArgs ∧
      (k = commands.length ↔ missing = []) := by
  have hunread := RespReader.unread_init_map_chunk chunks
  refine readCommands_cut commands (hunread ▸ le_rfl) Socket.settled_opened.ok
    (Feed.quiet_map_chunk chunks) ?_
  rw [hunread, hcut]

/-- Of one command a server receives the command, if all of it arrives, or nothing. -/
lemma received_take (args : List Arg) (there : Cutting) (n : ℕ) :
    ((encodeCommand args).length ≤ n ∧
        received (there.pieces ((encodeCommand args).take n)) = [rawArgs args]) ∨
      (n < (encodeCommand args).length ∧
        received (there.pieces ((encodeCommand args).take n)) = []) := by
  have hone : encodeCommands [args] = encodeCommand args := by
    rw [encodeCommands, List.flatMap_singleton]
  obtain ⟨k, hk, hreceived, hall⟩ := received_cut [args]
    (there.pieces ((encodeCommand args).take n)) ((encodeCommand args).drop n)
    (by rw [there.joined, List.take_append_drop, hone])
  rw [List.drop_eq_nil_iff] at hall
  rcases Nat.le_one_iff_eq_zero_or_eq_one.mp hk with rfl | rfl
  · exact Or.inr ⟨not_le.mp fun hle => zero_ne_one (hall.mpr hle), hreceived⟩
  · exact Or.inl ⟨hall.mp rfl, hreceived⟩

/-! ## The wire -/

/-- What the network does with one transmission: how the bytes are cut, how many of them arrive,
how the call ends that sends them, how many bytes of the answers come back, and what the reads run
into behind them. -/
structure Transit where
  path : Path
  arriving : ℕ
  sendOutcome : Except Exc Unit
  returning : ℕ
  ending : Option Exc
  sendErrors : ∀ e, sendOutcome = .error e → e.isOSError = true
  endingErrors : ∀ e ∈ ending, e.isOSError = true

/-- The arrival of one of the delayed commands: how its bytes are cut and how many of them come. -/
structure Arrival where
  index : ℕ
  there : Cutting
  arriving : ℕ

/-- What the network does during a call: with delayed commands, with the health check of an idle
connection, with the opening of a new one and its authentication, and with the call itself. -/
structure Route where
  late : List Arrival
  ping : Transit
  dial : Except Exc Unit
  auth : Transit
  call : Transit

namespace Service

variable {σ : Type} (srv : Service σ)

/-- The server executes what arrives, and what comes back of its answers is delivered. -/
def transmit (t : Transit) (data : Bytes) (s : σ) : Exchange × σ :=
  let out := srv.answerAll (received (t.path.there.pieces (data.take t.arriving))) s
  let answer := (Reply.encodeList out.1).take t.returning
  (⟨t.sendOutcome, (t.path.back.pieces answer).map .chunk ++ t.ending.toList.map .interrupt⟩, out.2)

/-- What the network and the server do while a connection is acquired.  Of what the client does not
send nothing arrives. -/
def approach (route : Route) (password : Option String) (s : σ) : Acquire × σ :=
  let (ping, s) := srv.transmit route.ping (encodeCommand [.str "PING"]) s
  match password with
  | none => (⟨ping, route.dial, ⟨.ok (), []⟩⟩, s)
  | some password =>
    let (auth, s) := srv.transmit route.auth (encodeCommand [.str "AUTH", .str password]) s
    (⟨ping, route.dial, auth⟩, s)

end Service

/-- A client with the server behind the wire, and the commands of which not all has arrived. -/
structure Faulty (σ : Type) extends Remote σ where
  delayed : List Bytes

namespace Faulty

variable {σ : Type} (srv : Service σ)

/-- A client in front of a server. -/
def new (client : KacheClient) (server : σ) : Faulty σ :=
  ⟨.new client server, []⟩

/-- A delayed command arrives; no more of it comes later. -/
def arrive (s : Faulty σ) (a : Arrival) : Faulty σ :=
  match s.delayed[a.index]? with
  | none => s
  | some data =>
    { s with
      server :=
        (srv.answerAll (received (a.there.pieces (data.take a.arriving))) s.server).2
      delayed := s.delayed.eraseIdx a.index }

/-- What has been sent is delayed if it has not arrived in full. -/
def delay (t : Transit) (data : Bytes) (delayed : List Bytes) : List Bytes :=
  if data.length ≤ t.arriving then delayed else delayed ++ [data]

/-- The client answers the calls, with the server behind a wire that fails. -/
def handle (limit : ℕ) (routes : ℕ → Route) :
    Handler ClientCall ClientCall.Answer Exc (Faulty σ)
  | .execute args, s =>
    let route := routes s.clock
    let s := route.late.foldl (arrive srv) s
    let (env, server) := srv.approach route s.client.pool.password s.server
    let (x, server') := srv.transmit route.call (encodeCommand args) server
    let (res, client) := s.client.execute limit args env x
    if Remote.reaches limit s.client env then
      (res, ⟨⟨client, s.pipes, server', s.clock + 1⟩,
        delay route.call (encodeCommand args) s.delayed⟩)
    else (res, ⟨⟨client, s.pipes, server, s.clock + 1⟩, s.delayed⟩)
  | .pipeline, s =>
    let route := routes s.clock
    let s := route.late.foldl (arrive srv) s
    let (env, server) := srv.approach route s.client.pool.password s.server
    match s.client.pipeline limit env with
    | (.ok pipe, client) =>
      (.ok s.pipes.length, ⟨⟨client, s.pipes ++ [pipe], server, s.clock + 1⟩, s.delayed⟩)
    | (.error e, client) => (.error e, ⟨⟨client, s.pipes, server, s.clock + 1⟩, s.delayed⟩)
  | .executePipeline i commands, s =>
    match s.pipes[i]? with
    | none => (.error .indexError, s)
    | some pipe =>
      let route := routes s.clock
      let s := route.late.foldl (arrive srv) s
      let queued : Pipeline := ⟨pipe.conn, pipe.commands ++ commands⟩
      let (x, server) := srv.transmit route.call (encodeCommands queued.commands) s.server
      let (res, pipe') := queued.execute limit x
      if pipe.conn.isConnected then
        (res, ⟨⟨s.client, s.pipes.set i pipe', server, s.clock + 1⟩,
          delay route.call (encodeCommands queued.commands) s.delayed⟩)
      else (res, ⟨⟨s.client, s.pipes.set i pipe', s.server, s.clock + 1⟩, s.delayed⟩)

/-- A program on a client in front of a server: its outcome, and the server behind it. -/
def runOn {α : Type} (limit : ℕ) (routes : ℕ → Route) (client : KacheClient) (s : σ)
    (m : ClientScript α) : Except Exc α × σ :=
  let out := m.run (handle srv limit routes) (new client s)
  (out.1, out.2.server)

end Faulty

/-! ## What a program sees -/

/-- What becomes of a command: it is answered, it is executed without an answer, it is delayed, or
it is not sent. -/
inductive Fate : Type where
  | answered
  | unanswered (e : Exc)
  | delayed (e : Exc)
  | unsent (e : Exc)

/-- What happens at a call: which of the delayed commands come before it, with whether they are
executed, and what becomes of its own command. -/
structure Turn where
  late : List (ℕ × Bool)
  fate : Fate

instance : Inhabited Turn :=
  ⟨⟨[], .answered⟩⟩

namespace Service

variable {σ : Type} (srv : Service σ)

/-- A delayed command comes, and is executed or not. -/
def comeLate (t : σ × List (List Bytes)) (late : ℕ × Bool) : σ × List (List Bytes) :=
  match t.2[late.1]? with
  | none => t
  | some args => (if late.2 then (srv.answer args t.1).2 else t.1, t.2.eraseIdx late.1)

/-- The service answers the calls itself, as far as it gets them.  With its state goes the list of
the delayed commands. -/
def lossy (limit : ℕ) (d : Bool) (turn : Turn) :
    Handler ClientCall ClientCall.Answer Exc (σ × List (List Bytes))
  | .execute args, t =>
    let (s, pending) := turn.late.foldl srv.comeLate t
    let (reply, s') := srv.answer (rawArgs args) s
    match turn.fate with
    | .answered => (reply.decoded limit d, (s', pending))
    | .unanswered e => (.error e, (s', pending))
    | .delayed e => (.error e, (s, pending ++ [rawArgs args]))
    | .unsent e => (.error e, (s, pending))
  | call, t => ((srv.handle limit d call t.1).1, ((srv.handle limit d call t.1).2, t.2))

end Service

/-! ## One transmission -/

namespace Service

variable {σ : Type} {srv : Service σ}

/-- What comes back. -/
lemma data_transmit (t : Transit) (data : Bytes) (s : σ) :
    respBuffer.data (srv.transmit t data s).1.events =
      (Reply.encodeList (srv.answerAll (received (t.path.there.pieces (data.take t.arriving)))
        s).1).take t.returning := by
  have hnone : respBuffer.data (t.ending.toList.map .interrupt : Feed) = [] := by
    cases t.ending <;> rfl
  rw [transmit, Buffered.data_append, Buffered.data_map_chunk, hnone, List.append_nil]
  exact t.path.back.joined _

/-- What comes back is a part of what the server answers. -/
lemma answers_transmit {t : Transit} {data : Bytes} {s : σ} {reply : Reply}
    (h : Reply.encodeList (srv.answerAll (received (t.path.there.pieces (data.take t.arriving)))
      s).1 <+: reply.encode) : (srv.transmit t data s).1.Answers reply := by
  refine ⟨?_, ?_, t.sendErrors⟩
  · rw [data_transmit]
    exact (List.take_prefix _ _).trans h
  · intro e he
    rcases List.mem_append.mp he with he | he
    · exact absurd he (Feed.quiet_map_chunk _ e)
    · obtain ⟨e', he', heq⟩ := List.mem_map.mp he
      obtain rfl := Event.interrupt.inj heq
      exact t.endingErrors e' (Option.mem_toList.mp he')

/-- A command that arrives is executed, and what comes back is a part of its answer; of one that
does not arrive in full nothing comes back. -/
lemma transmit_encodeCommand (t : Transit) (args : List Arg) (s : σ) :
    ((encodeCommand args).length ≤ t.arriving ∧
        (srv.transmit t (encodeCommand args) s).2 = (srv.answer (rawArgs args) s).2 ∧
        (srv.transmit t (encodeCommand args) s).1.Answers (srv.answer (rawArgs args) s).1) ∨
      (t.arriving < (encodeCommand args).length ∧
        (srv.transmit t (encodeCommand args) s).2 = s ∧
        ∀ reply, (srv.transmit t (encodeCommand args) s).1.Answers reply) := by
  rcases received_take args t.path.there t.arriving with ⟨hle, h⟩ | ⟨hlt, h⟩
  · refine Or.inl ⟨hle, ?_, answers_transmit ?_⟩
    · rw [transmit, h]
      rfl
    · rw [h, answerAll_singleton, Reply.encodeList, Reply.encodeList, List.append_nil]
  · refine Or.inr ⟨hlt, ?_, fun reply => answers_transmit ?_⟩
    · rw [transmit, h]
      rfl
    · rw [h]
      exact List.nil_prefix

/-- In both cases what comes back is a part of the answer. -/
lemma transmit_answers (t : Transit) (args : List Arg) (s : σ) :
    (srv.transmit t (encodeCommand args) s).1.Answers (srv.answer (rawArgs args) s).1 := by
  rcases transmit_encodeCommand t args s with ⟨-, -, h⟩ | ⟨-, -, h⟩
  · exact h
  · exact h _

/-- A command that does not change the server leaves it as it is, whether it arrives or not. -/
lemma transmit_unchanged {args : List Arg} {s : σ} (h : (srv.answer (rawArgs args) s).2 = s)
    (t : Transit) : (srv.transmit t (encodeCommand args) s).2 = s := by
  rcases transmit_encodeCommand t args s with ⟨-, hnext, -⟩ | ⟨-, hnext, -⟩
  · rw [hnext, h]
  · exact hnext

/-- Acquiring a connection does not change the server. -/
lemma Up.approach {password : Option String} (hup : srv.Up password) (route : Route) (s : σ) :
    (srv.approach route password s).1.Conforms ∧ (srv.approach route password s).2 = s := by
  have hping : (srv.transmit route.ping (encodeCommand [.str "PING"]) s).2 = s :=
    transmit_unchanged (by rw [hup.ping]) route.ping
  have hpong := srv.transmit_answers route.ping [.str "PING"] s
  cases hpassword : password with
  | none =>
    have hnothing : (⟨.ok (), []⟩ : Exchange).Answers .null := ⟨List.nil_prefix, by simp, by simp⟩
    exact ⟨⟨⟨_, hpong⟩, _, hnothing⟩, hping⟩
  | some p =>
    have hauth : (srv.transmit route.auth (encodeCommand [.str "AUTH", .str p]) s).2 = s :=
      transmit_unchanged (by rw [hup.auth p hpassword]) route.auth
    simp only [Service.approach, hping]
    exact ⟨⟨⟨_, hpong⟩, _, transmit_answers _ _ _⟩, hauth⟩

end Service

/-! ## Every command is lossy -/

namespace KacheClient

variable {limit : ℕ} {c : KacheClient} {args : List Arg} {env : Acquire} {x : Exchange}

/-- No call changes the password. -/
lemma password_step (limit : ℕ) (c : KacheClient) (op : ClientOp) :
    (c.step limit op).pool.password = c.pool.password := by
  cases op with
  | connect env =>
    have hpool := (c.pool.acquisition limit env).password_eq
    simp only [step, connect]
    rcases hget : c.pool.getConnection limit env with ⟨e | conn, pool⟩
    · rw [hget] at hpool
      exact hpool
    · rw [hget] at hpool
      exact hpool
  | close =>
    simp only [step, close]
    cases hconn : c.conn with
    | none => rfl
    | some conn =>
      simp only [ConnectionPool.releaseConnection]
      split_ifs <;> rfl
  | disconnectAll => rfl
  | execute args env x => exact c.password_execute limit args env x

/-- A command that returns has been sent. -/
lemma reaches_of_execute {v : RespValue} (h : (c.execute limit args env x).1 = .ok v) :
    Remote.reaches limit c env = true := by
  unfold execute at h
  rw [Remote.reaches]
  rcases hget : c.getConn limit env with ⟨e | conn, c'⟩
  · rw [hget] at h
    cases h
  · rw [hget] at h
    cases hs : conn.sock with
    | none => simp [Connection.roundTrip, Connection.sendCommand, Connection.sendAll, hs] at h
    | some s => simp [Connection.isConnected, hs]

/-- No command returns a value if what comes back is a part of every reply. -/
lemma AllClean.execute_ne_ok {d : Bool} (hc : c.AllClean d) (henv : env.Conforms)
    (hx : ∀ reply, x.Answers reply) (v : RespValue) : (c.execute limit args env x).1 ≠ .ok v := by
  intro hv
  have hnull := (hc.execute henv args (hx .null)).1 v hv
  have hzero := (hc.execute henv args (hx (.integer 0))).1 v hv
  rcases limit with _ | limit
  · simp [Reply.decoded, Except.bind] at hnull
  · have hnone : Reply.null.decoded (limit + 1) d = .ok .none := by cases d <;> rfl
    have hint : (Reply.integer 0).decoded (limit + 1) d = .ok (.int 0) := by cases d <;> rfl
    rw [hnone] at hnull
    rw [hint, ← hnull] at hzero
    cases hzero

/-- What becomes of a command that is sent like this: it returns the value of its answer, or it
raises, and it has not been sent, or has arrived, or is delayed. -/
lemma AllClean.execute_transmit {σ : Type} (srv : Service σ) (limit : ℕ) {d : Bool}
    (hc : c.AllClean d) (henv : env.Conforms) (t : Transit) (args : List Arg) (s : σ) :
    (∃ v, (c.execute limit args env (srv.transmit t (encodeCommand args) s).1).1 = .ok v ∧
        (srv.answer (rawArgs args) s).1.decoded limit d = .ok v ∧
        Remote.reaches limit c env = true ∧ (encodeCommand args).length ≤ t.arriving ∧
        (srv.transmit t (encodeCommand args) s).2 = (srv.answer (rawArgs args) s).2) ∨
      ∃ e, (c.execute limit args env (srv.transmit t (encodeCommand args) s).1).1 = .error e ∧
        (Remote.reaches limit c env = false ∨
          Remote.reaches limit c env = true ∧ (encodeCommand args).length ≤ t.arriving ∧
            (srv.transmit t (encodeCommand args) s).2 = (srv.answer (rawArgs args) s).2 ∨
          Remote.reaches limit c env = true ∧ t.arriving < (encodeCommand args).length ∧
            (srv.transmit t (encodeCommand args) s).2 = s) := by
  have hsent := srv.transmit_encodeCommand t args s
  have hvalue : ∀ v,
      (c.execute limit args env (srv.transmit t (encodeCommand args) s).1).1 = .ok v →
        (srv.answer (rawArgs args) s).1.decoded limit d = .ok v :=
    (hc.execute henv args (srv.transmit_answers t args s)).1
  cases hres : (c.execute limit args env (srv.transmit t (encodeCommand args) s).1).1 with
  | ok v =>
    rcases hsent with ⟨hle, hnext, -⟩ | ⟨-, -, hall⟩
    · exact Or.inl ⟨v, rfl, hvalue v hres, reaches_of_execute hres, hle, hnext⟩
    · exact absurd hres (hc.execute_ne_ok henv hall v)
  | error e =>
    refine Or.inr ⟨e, rfl, ?_⟩
    cases hreaches : Remote.reaches limit c env with
    | false => exact Or.inl rfl
    | true =>
      rcases hsent with ⟨hle, hnext, -⟩ | ⟨hlt, hnext, -⟩
      · exact Or.inr (Or.inl ⟨rfl, hle, hnext⟩)
      · exact Or.inr (Or.inr ⟨rfl, hlt, hnext⟩)

end KacheClient

namespace Faulty

variable {σ : Type} {srv : Service σ} {limit : ℕ} {d : Bool} {password : Option String}

/-- No connection of the client owes anything, the server is in this state, and these commands are
delayed. -/
structure Tracks (d : Bool) (password : Option String) (s : Faulty σ)
    (t : σ × List (List Bytes)) : Prop where
  clean : s.client.AllClean d
  password_eq : s.client.pool.password = password
  server_eq : s.server = t.1
  delayed_eq : ∃ commands : List (List Arg), s.delayed = commands.map encodeCommand ∧
    t.2 = commands.map rawArgs

variable (srv) in
/-- A delayed command arrives in full or not. -/
lemma Tracks.arrive {s : Faulty σ} {t : σ × List (List Bytes)} (h : s.Tracks d password t)
    (a : Arrival) : ∃ b, (arrive srv s a).Tracks d password (srv.comeLate t (a.index, b)) := by
  obtain ⟨hclean, hpassword, hserver, commands, hdelayed, hpending⟩ := h
  rcases hcommand : commands[a.index]? with _ | args
  · have hs : Faulty.arrive srv s a = s := by
      simp only [Faulty.arrive, hdelayed, List.getElem?_map, hcommand, Option.map_none]
    have ht (b : Bool) : srv.comeLate t (a.index, b) = t := by
      simp only [Service.comeLate, hpending, List.getElem?_map, hcommand, Option.map_none]
    refine ⟨false, ?_⟩
    rw [hs, ht]
    exact ⟨hclean, hpassword, hserver, commands, hdelayed, hpending⟩
  · have hs : Faulty.arrive srv s a =
        { s with
          server := (srv.answerAll
            (received (a.there.pieces ((encodeCommand args).take a.arriving))) s.server).2
          delayed := s.delayed.eraseIdx a.index } := by
      simp only [Faulty.arrive, hdelayed, List.getElem?_map, hcommand, Option.map_some]
    have ht (b : Bool) : srv.comeLate t (a.index, b) =
        (if b then (srv.answer (rawArgs args) t.1).2 else t.1, t.2.eraseIdx a.index) := by
      simp only [Service.comeLate, hpending, List.getElem?_map, hcommand, Option.map_some]
    have herase : s.delayed.eraseIdx a.index =
        (commands.eraseIdx a.index).map encodeCommand ∧
          t.2.eraseIdx a.index = (commands.eraseIdx a.index).map rawArgs := by
      rw [hdelayed, hpending, List.eraseIdx_map, List.eraseIdx_map]
      exact ⟨rfl, rfl⟩
    rcases received_take args a.there a.arriving with ⟨-, hreceived⟩ | ⟨-, hreceived⟩
    · refine ⟨true, ?_⟩
      rw [hs, ht, hreceived]
      exact ⟨hclean, hpassword, by rw [hserver]; rfl, _, herase⟩
    · refine ⟨false, ?_⟩
      rw [hs, ht, hreceived]
      exact ⟨hclean, hpassword, hserver, _, herase⟩

variable (srv) in
/-- Delayed commands arrive one after the other. -/
lemma Tracks.foldl_arrive {s : Faulty σ} {t : σ × List (List Bytes)} (h : s.Tracks d password t)
    (arrivals : List Arrival) :
    ∃ late : List (ℕ × Bool), (arrivals.foldl (Faulty.arrive srv) s).Tracks d password
      (late.foldl srv.comeLate t) := by
  induction arrivals generalizing s t with
  | nil => exact ⟨[], h⟩
  | cons a arrivals ih =>
    obtain ⟨b, hnext⟩ := h.arrive srv a
    obtain ⟨late, hlast⟩ := ih hnext
    exact ⟨(a.index, b) :: late, hlast⟩

/-- **Every command is simulated by the lossy service.** -/
theorem simulatesSome (hup : srv.Up password) (limit : ℕ) (d : Bool) (routes : ℕ → Route) :
    Handler.SimulatesSome ClientCall.IsExecute (Tracks d password) (handle srv limit routes)
      (srv.lossy limit d) := by
  intro call s t hcall h
  cases call with
  | pipeline => exact hcall.elim
  | executePipeline i commands => exact hcall.elim
  | execute args =>
    obtain ⟨late, hlate⟩ := h.foldl_arrive srv (routes s.clock).late
    simp only [handle, Service.lossy]
    generalize (routes s.clock).late.foldl (Faulty.arrive srv) s = s' at hlate ⊢
    rcases hcome : late.foldl srv.comeLate t with ⟨u, pending⟩
    rw [hcome] at hlate
    obtain ⟨hclean, hpassword, hserver, commands, hdelayed, hpending⟩ := hlate
    obtain rfl : s'.server = u := hserver
    obtain rfl : pending = commands.map rawArgs := hpending
    obtain ⟨henv, hsame⟩ := (hpassword ▸ hup).approach (routes s.clock) s'.server
    rcases happroach : srv.approach (routes s.clock) s'.client.pool.password s'.server with
      ⟨env, server⟩
    rw [happroach] at henv hsame
    obtain rfl : server = s'.server := hsame
    have hcases := hclean.execute_transmit srv limit henv (routes s.clock).call args s'.server
    have hanswers := srv.transmit_answers (routes s.clock).call args s'.server
    rcases htransmit : srv.transmit (routes s.clock).call (encodeCommand args) s'.server with
      ⟨x, server'⟩
    rw [htransmit] at hcases hanswers
    have hclient : (s'.client.execute limit args env x).2.AllClean d :=
      (hclean.execute henv args hanswers).2
    have hkeep := s'.client.password_execute limit args env x
    rcases hexecute : s'.client.execute limit args env x with ⟨res, client⟩
    simp only [hexecute] at hcases hclient hkeep
    have hkeep := hkeep.trans hpassword
    rcases hcases with ⟨v, rfl, hvalue, hreaches, hle, hnext⟩ |
      ⟨e, rfl, hreaches | ⟨hreaches, hle, hnext⟩ | ⟨hreaches, hlt, hnext⟩⟩
    · refine ⟨⟨late, .answered⟩, ?_, ?_⟩
      · simp only [hcome, hvalue, hreaches, if_true]
      · simp only [hcome, hreaches, if_true, delay, if_pos hle]
        exact ⟨hclient, hkeep, hnext, commands, hdelayed, rfl⟩
    · refine ⟨⟨late, .unsent e⟩, ?_, ?_⟩
      · simp only [hreaches, Bool.false_eq_true, if_false]
      · simp only [hcome, hreaches, Bool.false_eq_true, if_false]
        exact ⟨hclient, hkeep, rfl, commands, hdelayed, rfl⟩
    · refine ⟨⟨late, .unanswered e⟩, ?_, ?_⟩
      · simp only [hreaches, if_true]
      · simp only [hcome, hreaches, if_true, delay, if_pos hle]
        exact ⟨hclient, hkeep, hnext, commands, hdelayed, rfl⟩
    · refine ⟨⟨late, .delayed e⟩, ?_, ?_⟩
      · simp only [hreaches, if_true]
      · simp only [hcome, hreaches, if_true, delay, if_neg (not_le.mpr hlt)]
        refine ⟨hclient, hkeep, hnext, commands ++ [args], ?_, ?_⟩
        · rw [hdelayed, List.map_append, List.map_singleton]
        · rw [List.map_append, List.map_singleton]

/-- After any run of a client nothing is delayed on its way to a server that it begins to talk
to. -/
lemma tracks_foldl_step (limit : ℕ) (host : String) (port maxConnections : ℕ) (d : Bool)
    (password : Option String) {ops : List ClientOp} (hops : ∀ op ∈ ops, op.Conforms) (s : σ) :
    (new (ops.foldl (KacheClient.step limit) (.new host port maxConnections d password))
      s).Tracks d password (s, []) := by
  have hclean := List.foldlRecOn ops (KacheClient.step limit)
    (KacheClient.allClean_new host port maxConnections d password)
    fun c hc op hop => KacheClient.AllClean.step c op hc (hops op hop)
  have hpassword := List.foldlRecOn (motive := fun c => c.pool.password = password) ops
    (KacheClient.step limit) (rfl : (KacheClient.new host port maxConnections d
      password).pool.password = password)
    fun c hc op _ => (c.password_step limit op).trans hc
  exact ⟨hclean, hpassword, rfl, [], rfl, rfl⟩

/-- A transmission of single bytes that all arrive; so many bytes of the answer come back in
time. -/
def timingOut (returning : ℕ) : Transit where
  path := ⟨Remote.bytewise, Remote.bytewise⟩
  arriving := 1000
  sendOutcome := .ok ()
  returning := returning
  ending := some (.builtinTimeout "timed out")
  sendErrors e h := by cases h
  endingErrors e h := by
    obtain rfl := Option.some.inj h
    rfl

/-- The answers to commands come back in part, and delayed commands arrive. -/
def timingOutRoutes : ℕ → Route :=
  fun n => ⟨[⟨0, Remote.bytewise, 1000⟩], timingOut 1000, .ok (), timingOut 1000, timingOut n⟩

/-- A command, whatever becomes of it, and another one. -/
def twice (args : List Arg) : ClientScript RespValue :=
  (KacheClient.command args).attempt.bind fun _ => KacheClient.command args

lemma calls_twice (args : List Arg) : (twice args).Calls ClientCall.IsExecute := by
  have hcommand := KacheClient.calls_command args
  exact hcommand.attempt.bind fun _ => hcommand

/-- A client with a dedicated connection has connected. -/
lemma conforms_connect : ∀ op ∈ [ClientOp.connect Checkouts.dialsOnly], op.Conforms := by
  intro op hop
  obtain rfl := List.mem_singleton.mp hop
  exact KacheClient.conforms_dialsOnly

end Faulty

end KacheDB
