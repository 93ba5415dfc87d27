import KacheDB.Resp.Decoding

/-!
# A connection

`Connection` is the client's end of one TCP connection.  The network is not part of the
program: what it does with one `sendall` is an `Exchange`, the outcome of the call and the
events that later reads see because of it.  What it does with `create_connection` and the TLS
handshake is one outcome as well.

`Connection.roundTrip_spec` is what the rest of the library relies on: a connection with
nothing unread, on which one command is sent and one reply is read, either gives the value of
that very reply and has nothing unread again, or raises an `Exception`.
-/

namespace KacheDB

open Foundation

/-! ## The network -/

/-- What the network does with one `sendall` (or one `drain`): how the call ends, and what
later reads of the connection see because of it. -/
structure Exchange where
  sendOutcome : Except Exc Unit
  events : Feed

/-- The server answers with `reply`.  It may close the connection in the middle of it, reads
may time out or fail, and so may the `sendall`. -/
structure Exchange.Answers (x : Exchange) (reply : Reply) : Prop where
  conforms : respBuffer.data x.events <+: reply.encode
  readErrors : ∀ e, .interrupt e ∈ x.events → e.isOSError = true
  sendErrors : ∀ e, x.sendOutcome = .error e → e.isOSError = true

/-- An open socket with its reader: the reader `_reader`, what its reads will see, and the
bytes written so far. -/
structure Socket where
  reader : RespReader
  feed : Feed
  sent : Bytes

namespace Socket

/-- A socket just opened. -/
def opened : Socket :=
  ⟨.init, [], []⟩

/-- A successful `sendall` of `data`. -/
def write (s : Socket) (data : Bytes) (events : Feed) : Socket :=
  { s with feed := s.feed ++ events, sent := s.sent ++ data }

/-- `self._reader.read_response()`. -/
def read (limit : ℕ) (s : Socket) : Except Exc RespValue × Socket :=
  match s.reader.readResponse limit s.feed with
  | (res, reader, feed) => (res, { s with reader := reader, feed := feed })

/-- The bytes of replies that are not read yet. -/
def unread (s : Socket) : Bytes :=
  s.reader.unread s.feed

end Socket

/-! ## The connection -/

/-- A connection: where it leads, whether it decodes responses, and its socket `_sock` with the
reader `_reader`, which are set and cleared together. -/
structure Connection where
  host : String
  port : ℕ
  decodeResponses : Bool
  sock : Option Socket

/-- `response.decode("utf-8")` if `decode_responses` is set and the response is a byte
string. -/
def decodeResponse (decodeResponses : Bool) (response : RespValue) : Except Exc RespValue :=
  match decodeResponses, response with
  | true, .bytes b =>
    match decodeUtf8 b with
    | some s => .ok (.str s)
    | none => .error .unicodeDecodeError
  | _, response => .ok response

namespace Connection

/-- The socket is open. -/
def isConnected (c : Connection) : Bool :=
  c.sock.isSome

/-- Close the TCP connection. -/
def disconnect (c : Connection) : Connection :=
  { c with sock := none }

/-- Establish the TCP connection; `dial` is the outcome of `create_connection` and of the TLS
handshake. -/
def connect (c : Connection) (dial : Except Exc Unit) : Except Exc Unit × Connection :=
  if c.isConnected then (.ok (), c)
  else
    match dial with
    | .ok () => (.ok (), { c with sock := some .opened })
    | .error (.builtinTimeout exc) =>
      (.error (.connectionError s!"Failed to connect to KacheDB at {c.host}:{c.port}: {exc}"), c)
    | .error (.osError exc) =>
      (.error (.connectionError s!"Failed to connect to KacheDB at {c.host}:{c.port}: {exc}"), c)
    | .error e => (.error e, c)

/-- The two `except` clauses around a socket operation. -/
def exceptClauses (c : Connection) (doing : String) : Exc → Exc × Connection
  | .builtinTimeout exc => (.timeoutError s!"Timeout {doing} KacheDB: {exc}", c.disconnect)
  | .osError exc => (.connectionError s!"Error {doing} KacheDB: {exc}", c.disconnect)
  | e => (e, c)

/-- `sendall` within its `except` clauses. -/
def sendAll (doing : String) (c : Connection) (data : Bytes) (x : Exchange) :
    Except Exc Unit × Connection :=
  match c.sock with
  | none => (.error (.connectionError "Not connected to KacheDB"), c)
  | some s =>
    match x.sendOutcome with
    | .ok () => (.ok (), { c with sock := some (s.write data x.events) })
    | .error e =>
      let (e', c') := c.exceptClauses doing e
      (.error e', c')

/-- Encode and send a single RESP command. -/
def sendCommand (c : Connection) (args : List Arg) (x : Exchange) : Except Exc Unit × Connection :=
  c.sendAll "sending command to" (encodeCommand args) x

/-- Send pre-encoded bytes (used by pipeline). -/
def sendPacked (c : Connection) (data : Bytes) (x : Exchange) : Except Exc Unit × Connection :=
  c.sendAll "sending data to" data x

/-- Read and decode one RESP response. -/
def readResponse (limit : ℕ) (c : Connection) : Except Exc RespValue × Connection :=
  match c.sock with
  | none => (.error (.connectionError "Not connected to KacheDB"), c)
  | some s =>
    match s.read limit with
    | (.ok response, s') =>
      (decodeResponse c.decodeResponses response, { c with sock := some s' })
    | (.error e, s') =>
      let (e', c') := { c with sock := some s' }.exceptClauses "reading response from" e
      (.error e', c')

/-- `send_command(*args)` and then `read_response()`. -/
def roundTrip (limit : ℕ) (c : Connection) (args : List Arg) (x : Exchange) :
    Except Exc RespValue × Connection :=
  match c.sendCommand args x with
  | (.ok (), c') => c'.readResponse limit
  | (.error e, c') => (.error e, c')

/-- Send a PING and verify PONG response; `False` on any error. -/
def checkHealth (limit : ℕ) (c : Connection) (ping : Exchange) : Except Exc Bool × Connection :=
  match c.roundTrip limit [.str "PING"] ping with
  | (.ok (.str s), c') => (.ok (s == "PONG"), c')
  | (.ok _, c') => (.ok false, c')
  | (.error e, c') => if e.isException then (.ok false, c') else (.error e, c')

end Connection

/-! ## Reading from a socket -/

/-- Reads of this feed are interrupted by socket errors only. -/
def Feed.SocketErrors (feed : Feed) : Prop :=
  ∀ e, .interrupt e ∈ feed → e.isOSError = true

namespace Socket

/-- Everything that a sent command gives rise to is unread behind what was unread before. -/
@[simp] lemma unread_write (s : Socket) (data : Bytes) (events : Feed) :
    (s.write data events).unread = s.unread ++ respBuffer.data events := by
  simp [unread, write, RespReader.unread, Buffered.pending]

/-- Reading one reply from a socket whose stream may fail. -/
lemma read_spec {s : Socket} {limit : ℕ} {reply : Reply} {missing rest : Bytes}
    (hok : respBuffer.Ok s.reader) (hp : s.unread ++ missing = reply.encode ++ rest) :
    respBuffer.Ok (s.read limit).2.reader ∧
    (((s.read limit).1 = reply.outcome limit ∧
        (s.read limit).2.unread ++ missing = reply.leftover limit ++ rest ∧
        (s.read limit).2.feed <:+ s.feed) ∨
      ∃ e, (s.read limit).1 = .error e ∧ StreamFails s.feed missing e) :=
  RespReader.readResponse_spec hok hp

/-- Reading one reply that arrives in full and without interruption. -/
lemma read_quiet {s : Socket} {limit : ℕ} {reply : Reply} {rest : Bytes}
    (hok : respBuffer.Ok s.reader) (hq : s.feed.Quiet) (hp : s.unread = reply.encode ++ rest) :
    (s.read limit).1 = reply.outcome limit ∧ respBuffer.Ok (s.read limit).2.reader ∧
      (s.read limit).2.unread = reply.leftover limit ++ rest ∧ (s.read limit).2.feed.Quiet :=
  RespReader.readResponse_quiet hok hq hp

/-- What a read raises is a frame error or interrupted the read. -/
lemma read_error {s : Socket} {limit : ℕ} {e : Exc} (h : (s.read limit).1 = .error e) :
    RespReader.IsFrameError e ∨ .interrupt e ∈ s.feed :=
  RespReader.readResponse_error h

/-- Nothing is unread on this socket. -/
structure Settled (s : Socket) : Prop where
  ok : respBuffer.Ok s.reader
  unread_eq_nil : s.unread = []
  socketErrors : s.feed.SocketErrors

/-- A new socket is settled. -/
lemma settled_opened : opened.Settled where
  ok := ⟨le_rfl, by simp [opened, RespReader.init]⟩
  unread_eq_nil := rfl
  socketErrors := by simp [Feed.SocketErrors, opened]

/-- Sending on a settled socket and reading one reply: the value of the reply to what was sent,
with nothing unread again, or an `Exception`. -/
theorem read_write_spec {s : Socket} (hs : s.Settled) (limit : ℕ) (data : Bytes) {x : Exchange}
    {reply : Reply} (hx : x.Answers reply) :
    (∃ v, ((s.write data x.events).read limit).1 = .ok v ∧ reply.outcome limit = .ok v ∧
      ((s.write data x.events).read limit).2.Settled) ∨
    ∃ e, ((s.write data x.events).read limit).1 = .error e ∧ e.isException = true := by
  have hfeed : (s.write data x.events).feed.SocketErrors := by
    intro e he
    rcases List.mem_append.mp he with he | he
    · exact hs.socketErrors e he
    · exact hx.readErrors e he
  obtain ⟨missing, hmissing⟩ := hx.conforms
  have hp : (s.write data x.events).unread ++ missing = reply.encode ++ [] := by
    rw [unread_write, hs.unread_eq_nil, List.nil_append, hmissing, List.append_nil]
  obtain ⟨hok', hcase⟩ := @read_spec (s.write data x.events) limit reply missing [] hs.ok hp
  cases hres : ((s.write data x.events).read limit).1 with
  | error e =>
    right
    refine ⟨e, rfl, ?_⟩
    rcases read_error hres with h | h
    · exact h.1
    · exact Exc.isException_of_isOSError (hfeed e h)
  | ok v =>
    left
    rw [hres] at hcase
    rcases hcase with ⟨hout, hleft, hsuf⟩ | ⟨e, he, -⟩
    · have hclean : reply.leftover limit = [] := Reply.clean_of_isValue ⟨v, hout.symm⟩
      rw [hclean] at hleft
      exact ⟨v, rfl, hout.symm, hok', (List.append_eq_nil_iff.mp hleft).1,
        fun e he => hfeed e (hsuf.subset he)⟩
    · cases he

end Socket

/-! ## One command on a connection -/

/-- What a connection gives for a reply: its value, decoded if the connection decodes
responses. -/
def Reply.decoded (limit : ℕ) (decodeResponses : Bool) (reply : Reply) : Except Exc RespValue :=
  (reply.outcome limit).bind (decodeResponse decodeResponses)

/-- Only text that is not UTF-8 is not decoded. -/
lemma decodeResponse_error {d : Bool} {v : RespValue} {e : Exc}
    (h : decodeResponse d v = .error e) : e = .unicodeDecodeError := by
  unfold decodeResponse at h
  split at h
  · next b =>
    cases hb : decodeUtf8 b with
    | some s => simp [hb] at h
    | none => simpa [hb, eq_comm] using h
  · simp at h

namespace Connection

/-- Nothing is unread on this connection. -/
def Settled (c : Connection) : Prop :=
  ∀ s, c.sock = some s → s.Settled

lemma settled_disconnect (c : Connection) : c.disconnect.Settled := by
  simp [Settled, disconnect]

@[simp] lemma exceptClauses_decodeResponses (c : Connection) (doing : String) (e : Exc) :
    (c.exceptClauses doing e).2.decodeResponses = c.decodeResponses := by
  cases e <;> rfl

/-- The `except` clauses let no `Exception` become anything else. -/
lemma isException_exceptClauses (c : Connection) (doing : String) {e : Exc}
    (h : e.isException = true) : (c.exceptClauses doing e).1.isException = true := by
  cases e <;> simp_all [exceptClauses, Exc.isException]

/-- A frame error passes the `except` clauses, and the connection stays open. -/
lemma exceptClauses_of_isFrameError (c : Connection) (doing : String) {e : Exc}
    (h : RespReader.IsFrameError e) : c.exceptClauses doing e = (e, c) := by
  obtain ⟨_, hos⟩ := h
  cases e <;> simp_all [exceptClauses, Exc.isOSError]

@[simp] lemma sendAll_decodeResponses (doing : String) (c : Connection) (data : Bytes)
    (x : Exchange) : (c.sendAll doing data x).2.decodeResponses = c.decodeResponses := by
  unfold sendAll
  cases c.sock with
  | none => rfl
  | some s => cases x.sendOutcome <;> simp

section ReadResponse

variable {c : Connection} {s s' : Socket} {limit : ℕ}

/-- A reply whose frame is a value. -/
lemma readResponse_of_ok {v : RespValue} (hs : c.sock = some s)
    (hread : s.read limit = (.ok v, s')) :
    c.readResponse limit = (decodeResponse c.decodeResponses v, { c with sock := some s' }) := by
  simp only [readResponse, hs, hread]

/-- A reply that cannot be read. -/
lemma readResponse_of_error {e : Exc} (hs : c.sock = some s)
    (hread : s.read limit = (.error e, s')) :
    c.readResponse limit =
      (.error ({ c with sock := some s' }.exceptClauses "reading response from" e).1,
        ({ c with sock := some s' }.exceptClauses "reading response from" e).2) := by
  simp only [readResponse, hs, hread]

end ReadResponse

@[simp] lemma readResponse_decodeResponses (limit : ℕ) (c : Connection) :
    (c.readResponse limit).2.decodeResponses = c.decodeResponses := by
  cases hs : c.sock with
  | none => simp only [readResponse, hs]
  | some s =>
    rcases hread : s.read limit with ⟨_ | _, s'⟩
    · simp [readResponse_of_error hs hread]
    · simp [readResponse_of_ok hs hread]

@[simp] lemma roundTrip_decodeResponses (limit : ℕ) (c : Connection) (args : List Arg)
    (x : Exchange) : (c.roundTrip limit args x).2.decodeResponses = c.decodeResponses := by
  have hsend := c.sendAll_decodeResponses "sending command to" (encodeCommand args) x
  unfold roundTrip sendCommand
  rcases h : c.sendAll "sending command to" (encodeCommand args) x with ⟨_ | _, c'⟩
  · rw [h] at hsend
    exact hsend
  · rw [h] at hsend
    exact (readResponse_decodeResponses limit c').trans hsend

/-- One command on a connection with nothing unread: the value of its own reply, with nothing
unread again, or an `Exception`. -/
theorem roundTrip_spec {c : Connection} (limit : ℕ) (args : List Arg) {x : Exchange}
    {reply : Reply} (hc : c.Settled) (hx : x.Answers reply) :
    (∃ v, (c.roundTrip limit args x).1 = .ok v ∧
      reply.decoded limit c.decodeResponses = .ok v ∧ (c.roundTrip limit args x).2.Settled) ∨
    ∃ e, (c.roundTrip limit args x).1 = .error e ∧ e.isException = true := by
  unfold roundTrip sendCommand sendAll
  cases hs : c.sock with
  | none =>
    right
    exact ⟨_, rfl, rfl⟩
  | some s =>
    cases hsend : x.sendOutcome with
    | error e =>
      right
      have he := Exc.isException_of_isOSError (hx.sendErrors e hsend)
      exact ⟨_, rfl, isException_exceptClauses c _ he⟩
    | ok _ =>
      have hread := Socket.read_write_spec (hc s hs) limit (encodeCommand args) hx
      let c' : Connection := { c with sock := some (s.write (encodeCommand args) x.events) }
      change (∃ v, (c'.readResponse limit).1 = .ok v ∧
          reply.decoded limit c.decodeResponses = .ok v ∧ (c'.readResponse limit).2.Settled) ∨
        ∃ e, (c'.readResponse limit).1 = .error e ∧ e.isException = true
      rcases hrd : (s.write (encodeCommand args) x.events).read limit with ⟨e | v, s'⟩
      · right
        have he : e.isException = true := by simpa [hrd] using hread
        have hstep := readResponse_of_error (c := c') rfl hrd
        rw [hstep]
        exact ⟨_, rfl, isException_exceptClauses _ _ he⟩
      · obtain ⟨hout, hsettled⟩ : reply.outcome limit = .ok v ∧ s'.Settled := by
          simpa [hrd] using hread
        have hstep : c'.readResponse limit =
            (decodeResponse c.decodeResponses v, { c' with sock := some s' }) :=
          readResponse_of_ok rfl hrd
        rw [hstep, Reply.decoded, hout, Except.bind]
        cases hd : decodeResponse c.decodeResponses v with
        | ok w =>
          left
          exact ⟨w, rfl, rfl, fun s₁ hs₁ => Option.some.inj hs₁ ▸ hsettled⟩
        | error e =>
          right
          exact ⟨e, rfl, by rw [decodeResponse_error hd]; rfl⟩

end Connection

/-! ## Answers that arrive in full -/

/-- The server answers the `i`-th command with the `i`-th frame, and every byte arrives. -/
structure Exchange.Delivers (x : Exchange) (frames : List Reply) : Prop where
  sent : x.sendOutcome = .ok ()
  quiet : x.events.Quiet
  data_eq : respBuffer.data x.events = Reply.encodeList frames

/-- The socket is well formed with exactly these bytes unread, and no read of it is
interrupted. -/
structure Socket.Holds (s : Socket) (unread : Bytes) : Prop where
  ok : respBuffer.Ok s.reader
  quiet : s.feed.Quiet
  unread_eq : s.unread = unread

/-- A delivered answer is unread behind what was unread before. -/
lemma Socket.Holds.write {s : Socket} {unread : Bytes} (hs : s.Holds unread) (data : Bytes)
    {x : Exchange} {frames : List Reply} (hx : x.Delivers frames) :
    (s.write data x.events).Holds (unread ++ Reply.encodeList frames) where
  ok := hs.ok
  quiet e he := (List.mem_append.mp he).elim (hs.quiet e) (hx.quiet e)
  unread_eq := by rw [Socket.unread_write, hs.unread_eq, hx.data_eq]

/-- Nothing is unread on a new socket. -/
lemma Socket.holds_opened : Socket.opened.Holds [] :=
  ⟨Socket.settled_opened.ok, by simp [Feed.Quiet, Socket.opened], rfl⟩

/-- A socket that holds nothing is settled. -/
lemma Socket.Holds.settled {s : Socket} (hs : s.Holds []) : s.Settled :=
  ⟨hs.ok, hs.unread_eq, fun e he => absurd he (hs.quiet e)⟩

/-- Reading a frame from a socket that holds it. -/
lemma Socket.Holds.read {s : Socket} {r : Reply} {rest : Bytes} (hs : s.Holds (r.encode ++ rest))
    (limit : ℕ) :
    (s.read limit).1 = r.outcome limit ∧ (s.read limit).2.Holds (r.leftover limit ++ rest) := by
  obtain ⟨hres, hok, hleft, hq⟩ := Socket.read_quiet hs.ok hs.quiet hs.unread_eq
  exact ⟨hres, hok, hq, hleft⟩

namespace Connection

/-- The connection is open, with exactly these bytes unread. -/
def Holds (d : Bool) (c : Connection) (unread : Bytes) : Prop :=
  c.decodeResponses = d ∧ ∃ s, c.sock = some s ∧ s.Holds unread

/-- Sending on an open connection. -/
lemma Holds.sendAll {d : Bool} {c : Connection} {unread : Bytes} (hc : c.Holds d unread)
    (doing : String) (data : Bytes) {x : Exchange} {frames : List Reply} (hx : x.Delivers frames) :
    ∃ c', c.sendAll doing data x = (.ok (), c') ∧
      c'.Holds d (unread ++ Reply.encodeList frames) := by
  obtain ⟨hd, s, hs, hholds⟩ := hc
  refine ⟨{ c with sock := some (s.write data x.events) }, ?_, hd, _, rfl, hholds.write data hx⟩
  simp only [Connection.sendAll, hs, hx.sent]

/-- Reading a frame from a connection that holds it. -/
lemma Holds.readResponse {d : Bool} {c : Connection} {r : Reply} {rest : Bytes}
    (hc : c.Holds d (r.encode ++ rest)) (limit : ℕ) :
    (c.readResponse limit).1 = r.decoded limit d ∧
      (c.readResponse limit).2.Holds d (r.leftover limit ++ rest) := by
  obtain ⟨rfl, s, hs, hholds⟩ := hc
  obtain ⟨hres, hholds'⟩ := hholds.read limit
  rcases hread : s.read limit with ⟨e | v, s'⟩
  · have herr : RespReader.IsFrameError e :=
      (Socket.read_error (by rw [hread])).resolve_right (hholds.quiet e)
    rw [readResponse_of_error hs hread, exceptClauses_of_isFrameError _ _ herr]
    simp only [hread] at hres hholds'
    refine ⟨?_, rfl, s', rfl, hholds'⟩
    rw [Reply.decoded, ← hres]
    rfl
  · rw [readResponse_of_ok hs hread]
    simp only [hread] at hres hholds'
    refine ⟨?_, rfl, s', rfl, hholds'⟩
    rw [Reply.decoded, ← hres]
    rfl

/-- The next command on a connection that holds a frame is answered with that frame. -/
lemma Holds.roundTrip {d : Bool} {c : Connection} {r : Reply} {rest : Bytes}
    (hc : c.Holds d (r.encode ++ rest)) (limit : ℕ) (args : List Arg) {x : Exchange}
    {frames : List Reply} (hx : x.Delivers frames) :
    (c.roundTrip limit args x).1 = r.decoded limit d := by
  obtain ⟨c', hsend, hc'⟩ := hc.sendAll "sending command to" (encodeCommand args) hx
  rw [List.append_assoc] at hc'
  simp only [Connection.roundTrip, sendCommand, hsend]
  exact (hc'.readResponse limit).1

/-- A connection just opened. -/
lemma holds_opened (host : String) (port : ℕ) (d : Bool) :
    (⟨host, port, d, some .opened⟩ : Connection).Holds d [] :=
  ⟨rfl, .opened, rfl, Socket.holds_opened⟩

end Connection

end KacheDB
