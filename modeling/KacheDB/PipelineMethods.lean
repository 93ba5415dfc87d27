import KacheDB.ClientMethods

/-!
# Pipelined and direct calls

A `SharedCall` is a call of a method that the client and its pipelines have in common.
`SharedCall.method` is the call on a client, `SharedCall.queue` and `SharedCall.queueAsync` are
the call on a pipeline.

`pipelined_eq_direct_iff` compares the bytes that a pipeline sends for a sequence of calls with
the bytes that the client sends for the same calls.  They are the same exactly if no call is
without keys: for such a call the client sends nothing, and the pipeline sends a command.  On both
sides these are the bytes that are written to the socket (`Pipeline.sent_execute`,
`sent_directBytes`).
-/

namespace KacheDB

open Foundation

/-- A call of a method of both the client and its pipelines. -/
inductive SharedCall : Type where
  | ping
  | get (key : Arg)
  | set (key value : Arg) (ex px : Option ℤ)
  | mget (keys : List Arg)
  | delete (keys : List Arg)
  | existsKeys (keys : List Arg)
  | mset (mapping : Dict Arg Arg)
  | incr (key : Arg) (amount : ℤ)
  | incrby (key : Arg) (amount : ℤ)
  | decr (key : Arg) (amount : ℤ)
  | decrby (key : Arg) (amount : ℤ)
  | append (key value : Arg)
  | strlen (key : Arg)
  | expire (key : Arg) (seconds : ℤ)
  | pexpire (key : Arg) (milliseconds : ℤ)
  | expireat (key : Arg) (timestamp : ℤ)
  | pexpireat (key : Arg) (timestampMs : ℤ)
  | ttl (key : Arg)
  | pttl (key : Arg)
  | persist (key : Arg)
  | dbsize
  | type (key : Arg)
  | flushdb
  | flushall

namespace SharedCall

/-- The call on a client, without its result. -/
def method (texts : Texts) : SharedCall → ClientScript Unit
  | .ping => (KacheClient.ping texts none).map fun _ => ()
  | .get key => (KacheClient.get key).map fun _ => ()
  | .set key value ex px => (KacheClient.set key value ex px).map fun _ => ()
  | .mget keys => (KacheClient.mget keys).map fun _ => ()
  | .delete keys => (KacheClient.delete keys).map fun _ => ()
  | .existsKeys keys => (KacheClient.existsKeys keys).map fun _ => ()
  | .mset mapping => (KacheClient.mset mapping).map fun _ => ()
  | .incr key amount => (KacheClient.incr key amount).map fun _ => ()
  | .incrby key amount => (KacheClient.incrby key amount).map fun _ => ()
  | .decr key amount => (KacheClient.decr key amount).map fun _ => ()
  | .decrby key amount => (KacheClient.decrby key amount).map fun _ => ()
  | .append key value => (KacheClient.append key value).map fun _ => ()
  | .strlen key => (KacheClient.strlen key).map fun _ => ()
  | .expire key seconds => (KacheClient.expire key seconds).map fun _ => ()
  | .pexpire key milliseconds => (KacheClient.pexpire key milliseconds).map fun _ => ()
  | .expireat key timestamp => (KacheClient.expireat key timestamp).map fun _ => ()
  | .pexpireat key timestampMs => (KacheClient.pexpireat key timestampMs).map fun _ => ()
  | .ttl key => (KacheClient.ttl key).map fun _ => ()
  | .pttl key => (KacheClient.pttl key).map fun _ => ()
  | .persist key => (KacheClient.persist key).map fun _ => ()
  | .dbsize => KacheClient.dbsize.map fun _ => ()
  | .type key => (KacheClient.type texts key).map fun _ => ()
  | .flushdb => KacheClient.flushdb.map fun _ => ()
  | .flushall => KacheClient.flushall.map fun _ => ()

/-- The call on a pipeline. -/
def queue (p : Pipeline) : SharedCall → Pipeline
  | .ping => p.ping
  | .get key => p.get key
  | .set key value ex px => p.set key value ex px
  | .mget keys => p.mget keys
  | .delete keys => p.delete keys
  | .existsKeys keys => p.existsKeys keys
  | .mset mapping => p.mset mapping
  | .incr key amount => p.incr key amount
  | .incrby key amount => p.incrby key amount
  | .decr key amount => p.decr key amount
  | .decrby key amount => p.decrby key amount
  | .append key value => p.append key value
  | .strlen key => p.strlen key
  | .expire key seconds => p.expire key seconds
  | .pexpire key milliseconds => p.pexpire key milliseconds
  | .expireat key timestamp => p.expireat key timestamp
  | .pexpireat key timestampMs => p.pexpireat key timestampMs
  | .ttl key => p.ttl key
  | .pttl key => p.pttl key
  | .persist key => p.persist key
  | .dbsize => p.dbsize
  | .type key => p.type key
  | .flushdb => p.flushdb
  | .flushall => p.flushall

/-- The call on an asynchronous pipeline. -/
def queueAsync (p : AsyncPipeline) : SharedCall → AsyncPipeline
  | .ping => p.ping
  | .get key => p.get key
  | .set key value ex px => p.set key value ex px
  | .mget keys => p.mget keys
  | .delete keys => p.delete keys
  | .existsKeys keys => p.existsKeys keys
  | .mset mapping => p.mset mapping
  | .incr key amount => p.incr key amount
  | .incrby key amount => p.incrby key amount
  | .decr key amount => p.decr key amount
  | .decrby key amount => p.decrby key amount
  | .append key value => p.append key value
  | .strlen key => p.strlen key
  | .expire key seconds => p.expire key seconds
  | .pexpire key milliseconds => p.pexpire key milliseconds
  | .expireat key timestamp => p.expireat key timestamp
  | .pexpireat key timestampMs => p.pexpireat key timestampMs
  | .ttl key => p.ttl key
  | .pttl key => p.pttl key
  | .persist key => p.persist key
  | .dbsize => p.dbsize
  | .type key => p.type key
  | .flushdb => p.flushdb
  | .flushall => p.flushall

/-- The command of the call. -/
def args : SharedCall → List Arg
  | .ping => [.str "PING"]
  | .get key => [.str "GET", key]
  | .set key value ex px => setCommand key value ex px
  | .mget keys => .str "MGET" :: keys
  | .delete keys => .str "DEL" :: keys
  | .existsKeys keys => .str "EXISTS" :: keys
  | .mset mapping => msetCommand mapping
  | .incr key amount => countCommand "INCR" "INCRBY" key amount
  | .incrby key amount => countCommand "INCR" "INCRBY" key amount
  | .decr key amount => countCommand "DECR" "DECRBY" key amount
  | .decrby key amount => countCommand "DECR" "DECRBY" key amount
  | .append key value => [.str "APPEND", key, value]
  | .strlen key => [.str "STRLEN", key]
  | .expire key seconds => [.str "EXPIRE", key, .str (toString seconds)]
  | .pexpire key milliseconds => [.str "PEXPIRE", key, .str (toString milliseconds)]
  | .expireat key timestamp => [.str "EXPIREAT", key, .str (toString timestamp)]
  | .pexpireat key timestampMs => [.str "PEXPIREAT", key, .str (toString timestampMs)]
  | .ttl key => [.str "TTL", key]
  | .pttl key => [.str "PTTL", key]
  | .persist key => [.str "PERSIST", key]
  | .dbsize => [.str "DBSIZE"]
  | .type key => [.str "TYPE", key]
  | .flushdb => [.str "FLUSHDB"]
  | .flushall => [.str "FLUSHALL"]

/-- A call of `mget`, `delete` or `exists` without a key, or of `mset` with an empty mapping. -/
def keyless : SharedCall → Bool
  | .mget keys => keys.isEmpty
  | .delete keys => keys.isEmpty
  | .existsKeys keys => keys.isEmpty
  | .mset mapping => mapping.items.isEmpty
  | _ => false

/-- A pipeline queues the command of the call. -/
lemma queue_eq (p : Pipeline) (call : SharedCall) : call.queue p = p.queue call.args := by
  cases call <;> rfl

/-- So does an asynchronous one. -/
lemma queueAsync_eq (p : AsyncPipeline) (call : SharedCall) :
    call.queueAsync p = p.queue call.args := by
  cases call <;> rfl

/-- A client executes the command of the call, unless the call is without keys. -/
lemma method_eq (texts : Texts) (call : SharedCall) :
    call.method texts =
      if call.keyless then .pure ()
      else (KacheClient.command call.args).map fun _ => () := by
  have hresult {α : Type} (args : List Arg) (f : RespValue → α) :
      ((KacheClient.command args).map f).map (fun _ => ()) =
        (KacheClient.command args).map fun _ => () := Script.map_map _ _ _
  cases call with
  | get key => rfl
  | mget keys =>
    cases keys with
    | nil => rfl
    | cons key keys => exact hresult _ _
  | delete keys =>
    cases keys with
    | nil => rfl
    | cons key keys => exact hresult _ _
  | existsKeys keys =>
    cases keys with
    | nil => rfl
    | cons key keys => exact hresult _ _
  | mset mapping =>
    obtain ⟨items, hnodup⟩ := mapping
    cases items with
    | nil => rfl
    | cons item items => exact hresult _ _
  | _ => exact hresult _ _

end SharedCall

/-! ## What is sent -/

/-- The pipeline after these calls. -/
def Pipeline.queueAll (p : Pipeline) (calls : List SharedCall) : Pipeline :=
  calls.foldl SharedCall.queue p

/-- The asynchronous pipeline after these calls. -/
def AsyncPipeline.queueAll (p : AsyncPipeline) (calls : List SharedCall) : AsyncPipeline :=
  calls.foldl SharedCall.queueAsync p

lemma Pipeline.queueAll_eq (p : Pipeline) (calls : List SharedCall) :
    p.queueAll calls = ⟨p.conn, p.commands ++ calls.map SharedCall.args⟩ := by
  induction calls generalizing p with
  | nil => simp [queueAll]
  | cons call calls ih =>
    rw [queueAll, List.foldl_cons, ← queueAll, ih, SharedCall.queue_eq]
    simp [Pipeline.queue]

lemma AsyncPipeline.queueAll_eq (p : AsyncPipeline) (calls : List SharedCall) :
    p.queueAll calls = ⟨p.stream, p.commands ++ calls.map SharedCall.args⟩ := by
  induction calls generalizing p with
  | nil => simp [queueAll]
  | cons call calls ih =>
    rw [queueAll, List.foldl_cons, ← queueAll, ih, SharedCall.queueAsync_eq]
    simp [AsyncPipeline.queue]

/-- The bytes of what is done with the client outside of pipelines: one command for each
`_execute`. -/
def wireOf (calls : List ClientCall) : Bytes :=
  calls.flatMap fun
    | .execute args => encodeCommand args
    | _ => []

section Direct

variable {σ : Type} (texts : Texts)
  (handle : Handler ClientCall ClientCall.Answer Exc σ)

/-- The bytes that a client sends for the calls, made one by one; `handle` says how `_execute`
ends. -/
def directBytes : List SharedCall → σ → Bytes
  | [], _ => []
  | call :: calls, s =>
    let out := (call.method texts).run (Script.traced handle) (s, [])
    wireOf out.2.2 ++ directBytes calls out.2.1

/-- The state behind the calls. -/
def directState : List SharedCall → σ → σ
  | [], s => s
  | call :: calls, s =>
    directState calls ((call.method texts).run (Script.traced handle) (s, [])).2.1

/-- The state behind one call. -/
lemma state_method (call : SharedCall) (s : σ) :
    ((call.method texts).run (Script.traced handle) (s, [])).2.1 =
      if call.keyless then s else (handle (.execute call.args) s).2 := by
  rw [SharedCall.method_eq]
  split_ifs
  · rfl
  · rw [Script.run_map, KacheClient.command, Script.run_ask]
    rfl

/-- What the client sends for one call. -/
lemma wireOf_method (call : SharedCall) (s : σ) :
    wireOf ((call.method texts).run (Script.traced handle) (s, [])).2.2 =
      if call.keyless then [] else encodeCommand call.args := by
  rw [SharedCall.method_eq]
  split_ifs
  · rfl
  · rw [Script.run_map, KacheClient.command, Script.run_ask]
    exact List.append_nil _

/-- However the commands end, the client sends those of the calls that are not without keys. -/
lemma directBytes_eq (calls : List SharedCall) (s : σ) :
    directBytes texts handle calls s =
      encodeCommands ((calls.filter fun call => !call.keyless).map SharedCall.args) := by
  induction calls generalizing s with
  | nil => rfl
  | cons call calls ih =>
    rw [directBytes, wireOf_method, ih]
    by_cases hkey : call.keyless = true
    · simp [hkey]
    · simp [hkey, encodeCommands]

end Direct

/-- Leaving out some elements leaves out something, if every element stands for something. -/
lemma flatMap_filter_eq_iff {α β : Type} {f : α → List β} (hf : ∀ a, f a ≠ []) {p : α → Bool}
    (l : List α) : l.flatMap f = (l.filter p).flatMap f ↔ ∀ a ∈ l, p a = true := by
  have hlen (l : List α) : ((l.filter p).flatMap f).length ≤ (l.flatMap f).length :=
    (List.filter_sublist.flatMap f).length_le
  induction l with
  | nil => simp
  | cons a l ih =>
    cases hp : p a with
    | true =>
      rw [List.filter_cons_of_pos hp, List.flatMap_cons, List.flatMap_cons,
        List.append_cancel_left_eq, List.forall_mem_cons]
      exact ih.trans (and_iff_right hp).symm
    | false =>
      refine iff_of_false (fun h => ?_) (fun h => by simp [hp] at h)
      have hlonger := congrArg List.length h
      have hpos := List.length_pos_iff.mpr (hf a)
      have hle := hlen l
      rw [List.filter_cons_of_neg (by simp [hp]), List.flatMap_cons, List.length_append] at hlonger
      omega

/-! ### On a connection -/

namespace Connection

/-- What is sent by `sendall` is written behind what was written before. -/
lemma sent_sendAll {c : Connection} {s : Socket} (hs : c.sock = some s) (doing : String)
    (data : Bytes) {x : Exchange} (hx : x.sendOutcome = .ok ()) :
    c.sendAll doing data x = (.ok (), { c with sock := some (s.write data x.events) }) := by
  simp only [sendAll, hs, hx]

/-- Reading a response writes nothing. -/
lemma sent_readResponse {c : Connection} {s s' : Socket} (hs : c.sock = some s) (limit : ℕ)
    (hs' : (c.readResponse limit).2.sock = some s') : s'.sent = s.sent := by
  have hread : (s.read limit).2.sent = s.sent := rfl
  rcases hout : s.read limit with ⟨e | v, s₁⟩
  · rw [hout] at hread
    rw [readResponse_of_error hs hout] at hs'
    have hsock : s₁ = s' := by
      cases e <;> first | exact Option.some.inj hs' | cases hs'
    rw [← hsock, ← hread]
  · rw [hout] at hread
    rw [readResponse_of_ok hs hout] at hs'
    rw [← Option.some.inj hs', ← hread]

/-- **`_execute` writes its command**, as long as the connection stays open. -/
lemma sent_roundTrip {c : Connection} {s s' : Socket} (hs : c.sock = some s) (limit : ℕ)
    (args : List Arg) {x : Exchange} (hx : x.sendOutcome = .ok ())
    (hs' : (c.roundTrip limit args x).2.sock = some s') :
    s'.sent = s.sent ++ encodeCommand args := by
  simp only [roundTrip, sendCommand, sent_sendAll hs _ _ hx] at hs'
  exact sent_readResponse rfl limit hs'

/-- A closed connection is not opened again. -/
lemma sock_roundTrip_of_none {c : Connection} (hc : c.sock = none) (limit : ℕ) (args : List Arg)
    (x : Exchange) : (c.roundTrip limit args x).2.sock = none := by
  simp [roundTrip, sendCommand, sendAll, hc]

/-- Reading some responses writes nothing. -/
lemma sent_collect {c : Connection} {s s' : Socket} (hs : c.sock = some s) (limit count : ℕ)
    (hs' : (collect (readResponse limit) count c).2.sock = some s') : s'.sent = s.sent := by
  induction count generalizing c s with
  | zero => exact congrArg Socket.sent (Option.some.inj (hs'.symm.trans hs))
  | succ count ih =>
    have hone : ∀ s₁, (c.readResponse limit).2.sock = some s₁ → s₁.sent = s.sent :=
      fun _ => sent_readResponse hs limit
    rw [collect] at hs'
    rcases hread : c.readResponse limit with ⟨e | v, c₁⟩
    · rw [hread] at hone hs'
      exact hone s' hs'
    · rw [hread] at hone hs'
      have hrest : (collect (readResponse limit) count c₁).2.sock = some s' := by
        rcases hc : collect (readResponse limit) count c₁ with ⟨_ | _, c₂⟩ <;>
          simpa only [hc] using hs'
      cases hopen : c₁.sock with
      | none =>
        -- a closed connection is not opened again
        have hclosed : ∀ (n : ℕ) (c : Connection), c.sock = none →
            (collect (readResponse limit) n c).2.sock = none := by
          intro n c hc
          cases n with
          | zero => exact hc
          | succ n =>
            rw [collect, readResponse, hc]
            exact hc
        rw [hclosed count c₁ hopen] at hrest
        cases hrest
      | some s₁ => exact (ih hopen hrest).trans (hone s₁ hopen)

end Connection

section Direct

variable {σ : Type} {texts : Texts} {handle : Handler ClientCall ClientCall.Answer Exc σ}
  {conn : σ → Connection}

/-- A connection that is closed stays so. -/
lemma sock_directState_of_none
    (hexecute : ∀ args state, ∃ limit x, x.sendOutcome = .ok () ∧
      conn (handle (.execute args) state).2 = ((conn state).roundTrip limit args x).2)
    (calls : List SharedCall) {state : σ} (h : (conn state).sock = none) :
    (conn (directState texts handle calls state)).sock = none := by
  induction calls generalizing state with
  | nil => exact h
  | cons call calls ih =>
    rw [directState, state_method]
    split_ifs
    · exact ih h
    · obtain ⟨limit, x, -, hconn⟩ := hexecute call.args state
      exact ih (hconn ▸ Connection.sock_roundTrip_of_none h limit call.args x)

/-- **What the client sends is what arrives.**  Where `_execute` is a round trip on the connection
of the client, calls made one by one write their bytes to its socket, as long as it stays open. -/
theorem sent_directBytes
    (hexecute : ∀ args state, ∃ limit x, x.sendOutcome = .ok () ∧
      conn (handle (.execute args) state).2 = ((conn state).roundTrip limit args x).2)
    (calls : List SharedCall) {state : σ} {s s' : Socket} (hs : (conn state).sock = some s)
    (hs' : (conn (directState texts handle calls state)).sock = some s') :
    s'.sent = s.sent ++ directBytes texts handle calls state := by
  induction calls generalizing state s with
  | nil =>
    obtain rfl := Option.some.inj (hs.symm.trans hs')
    exact (List.append_nil _).symm
  | cons call calls ih =>
    rw [directState] at hs'
    rw [directBytes, wireOf_method]
    rw [state_method] at hs' ⊢
    split_ifs at hs' ⊢ with hkey
    · exact ih hs hs'
    · obtain ⟨limit, x, hx, hconn⟩ := hexecute call.args state
      cases hopen : (conn (handle (.execute call.args) state).2).sock with
      | none =>
        rw [sock_directState_of_none hexecute calls hopen] at hs'
        cases hs'
      | some s₁ =>
        have hone := Connection.sent_roundTrip hs limit call.args hx (hconn ▸ hopen)
        rw [ih hopen hs', hone, List.append_assoc]

end Direct

/-- `Pipeline.execute` writes the queued commands, as long as the connection stays open. -/
lemma Pipeline.sent_execute {p : Pipeline} {s s' : Socket} (hs : p.conn.sock = some s)
    (limit : ℕ) {x : Exchange} (hx : x.sendOutcome = .ok ())
    (hs' : (p.execute limit x).2.conn.sock = some s') :
    s'.sent = s.sent ++ encodeCommands p.commands := by
  unfold Pipeline.execute at hs'
  by_cases hempty : p.commands.isEmpty = true
  · rw [if_pos hempty] at hs'
    rw [List.isEmpty_iff.mp hempty]
    simp [← Option.some.inj (hs.symm.trans hs'), encodeCommands]
  · rw [if_neg hempty] at hs'
    simp only [Connection.sendPacked, Connection.sent_sendAll hs _ _ hx] at hs'
    exact Connection.sent_collect (s := s.write (encodeCommands p.commands) x.events) rfl limit
      _ hs'

/-- What `execute` sends on an open connection for these calls. -/
def PipelineSends (calls : List SharedCall) (data : Bytes) : Prop :=
  ∀ (host : String) (port : ℕ) (d : Bool) (s s' : Socket) (limit : ℕ) (x : Exchange),
    x.sendOutcome = .ok () →
      ((Pipeline.queueAll ⟨⟨host, port, d, some s⟩, []⟩ calls).execute limit x).2.conn.sock =
          some s' →
        s'.sent = s.sent ++ data

/-- A pipeline sends the commands of all calls. -/
lemma pipelineSends_iff (calls : List SharedCall) (data : Bytes) :
    PipelineSends calls data ↔ encodeCommands (calls.map SharedCall.args) = data := by
  constructor
  · intro h
    -- a connection that stays open, since the reply is not read at all
    have hopen : ∃ s', ((Pipeline.queueAll ⟨⟨"", 0, false, some .opened⟩, []⟩ calls).execute 0
        ⟨.ok (), []⟩).2.conn.sock = some s' := by
      rw [Pipeline.queueAll_eq]
      cases calls with
      | nil => exact ⟨_, rfl⟩
      | cons call calls => exact ⟨_, rfl⟩
    obtain ⟨s', hs'⟩ := hopen
    have hsent := h "" 0 false .opened s' 0 ⟨.ok (), []⟩ rfl hs'
    have hall : s'.sent = Socket.opened.sent ++ encodeCommands (calls.map SharedCall.args) := by
      rw [Pipeline.queueAll_eq] at hs'
      exact Pipeline.sent_execute rfl 0 rfl hs'
    exact List.append_cancel_left (hall.symm.trans hsent)
  · rintro rfl host port d s s' limit x hx hs'
    rw [Pipeline.queueAll_eq] at hs'
    exact Pipeline.sent_execute rfl limit hx hs'

/-- **When pipelined and direct calls send the same bytes.**  However the commands of the client
end, `execute` sends for a sequence of calls what the client sends for the same calls, made one by
one, if and only if none of them is without keys. -/
theorem pipelined_eq_direct_iff (texts : Texts) {σ : Type}
    (handle : Handler ClientCall ClientCall.Answer Exc σ) (s : σ) (calls : List SharedCall) :
    PipelineSends calls (directBytes texts handle calls s) ↔
      ∀ call ∈ calls, call.keyless = false := by
  have hne (args : List Arg) : encodeCommand args ≠ [] := by simp [encodeCommand]
  rw [pipelineSends_iff, directBytes_eq, encodeCommands, encodeCommands, List.flatMap_map,
    List.flatMap_map, flatMap_filter_eq_iff fun call => hne (SharedCall.args call)]
  simp only [Bool.not_eq_true']

/-- For `mget` without keys the pipeline sends `MGET`, and the client sends nothing. -/
theorem pipelined_ne_direct :
    ¬ PipelineSends [.mget []]
      (directBytes .plain (fun _ _ => (.error (.connectionError "Not connected to KacheDB"), ()))
        [.mget []] ()) := by
  rw [pipelineSends_iff]
  decide

end KacheDB
